import Libcperciva.Lib.Buffer
import Mathlib.Algebra.Group.Nat.Defs
import Mathlib.Data.Nat.Size

/-!
# Big-endian numbers

A string of bytes is a number in base 256, the most significant byte first.
Numbers are written with a given number of bytes, or with as many as they have.
-/

namespace Libcperciva.Lib.BigEndian

open Libcperciva.Lib.Buffer

variable {x len : Nat}

/-- The number of a string. -/
def value : List UInt8 → Nat
  | [] => 0
  | byte :: rest => byte.toNat * 256 ^ rest.length + value rest

/-- The last bytes of a number. -/
def encode : Nat → Nat → List UInt8
  | 0, _ => []
  | len + 1, x => UInt8.ofNat (x / 256 ^ len) :: encode len x

/-- The number of bytes of a number. -/
def numBytes (x : Nat) : Nat := (x.size + 7) / 8

@[simp]
theorem length_encode (len x : Nat) : (encode len x).length = len := by
  induction len with
  | zero => rfl
  | succ len ih => exact congrArg Nat.succ ih

theorem value_lt (bytes : List UInt8) :
    value bytes < 256 ^ bytes.length := by
  induction bytes with
  | nil => exact Nat.one_pos
  | cons byte rest ih =>
      have bound := byte.toNat_lt
      unfold value
      calc byte.toNat * 256 ^ rest.length + value rest
          < byte.toNat * 256 ^ rest.length + 256 ^ rest.length :=
            Nat.add_lt_add_left ih _
        _ = (byte.toNat + 1) * 256 ^ rest.length := (Nat.succ_mul _ _).symm
        _ ≤ 256 * 256 ^ rest.length := Nat.mul_le_mul_right _ bound
        _ = 256 ^ (byte :: rest).length := (Nat.pow_succ').symm

theorem value_encode (len x : Nat) :
    value (encode len x) = x % 256 ^ len := by
  induction len with
  | zero => exact (Nat.mod_one x).symm
  | succ len ih =>
      have split : x % 256 ^ (len + 1) =
          x % 256 ^ len + 256 ^ len * (x / 256 ^ len % 256) := by
        rw [Nat.pow_succ]
        exact Nat.mod_mul
      unfold encode value
      rw [ih, length_encode, UInt8.toNat_ofNat', split, Nat.add_comm,
        Nat.mul_comm]

/-- A number that is small enough can be read again. -/
theorem value_encode_of_lt (small : x < 256 ^ len) :
    value (encode len x) = x := by
  rw [value_encode, Nat.mod_eq_of_lt small]

/-- Zeros come first. -/
theorem encode_add (small : x < 256 ^ len) (zeros : Nat) :
    encode (zeros + len) x = List.replicate zeros 0 ++ encode len x := by
  induction zeros with
  | zero => rw [Nat.zero_add, List.replicate_zero, List.nil_append]
  | succ zeros ih =>
      have less : x < 256 ^ (zeros + len) :=
        Nat.lt_of_lt_of_le small
          (Nat.pow_le_pow_right (by decide) (Nat.le_add_left len zeros))
      rw [Nat.succ_add, encode, ih, Nat.div_eq_of_lt less]
      rfl

theorem lt_pow_numBytes (x : Nat) : x < 256 ^ numBytes x := by
  have fits : x.size ≤ 8 * numBytes x := by
    unfold numBytes
    omega
  rw [show 256 = 2 ^ 8 from rfl, ← Nat.pow_mul]
  exact Nat.size_le.mp fits

theorem numBytes_le (small : x < 256 ^ len) : numBytes x ≤ len := by
  rw [show 256 = 2 ^ 8 from rfl, ← Nat.pow_mul] at small
  have fits := Nat.size_le.mpr small
  unfold numBytes
  omega

/-- Padding with zeros. -/
theorem encode_numBytes (small : x < 256 ^ len) :
    List.replicate (len - numBytes x) 0 ++ encode (numBytes x) x =
      encode len x := by
  rw [← encode_add (lt_pow_numBytes x), Nat.sub_add_cancel
    (numBytes_le small)]

/-- Strings of one length are compared at the first byte that differs. -/
theorem value_cons_lt {a b : UInt8} {as bs : List UInt8}
    (length : as.length = bs.length) (less : a.toNat < b.toNat) :
    value (a :: as) < value (b :: bs) := by
  unfold value
  calc a.toNat * 256 ^ as.length + value as
      < a.toNat * 256 ^ as.length + 256 ^ as.length :=
        Nat.add_lt_add_left (value_lt as) _
    _ = (a.toNat + 1) * 256 ^ as.length := (Nat.succ_mul _ _).symm
    _ ≤ b.toNat * 256 ^ as.length := Nat.mul_le_mul_right _ less
    _ ≤ b.toNat * 256 ^ bs.length + value bs := by
      rw [length]
      exact Nat.le_add_right _ _

end Libcperciva.Lib.BigEndian
