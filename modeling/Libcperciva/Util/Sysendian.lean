import Mathlib.Algebra.Group.Nat.Defs
import Mathlib.Data.List.Basic

/-!
# Numbers as bytes, `util/sysendian.h`
-/

namespace Libcperciva.Util.Sysendian

/-- Byte `j` of what `be64enc` writes. -/
def be64 (x j : Nat) : UInt8 := UInt8.ofNat (x / 2 ^ (56 - 8 * j))

/-- `be32dec`. -/
def be32dec (p : Nat → UInt8) : UInt32 :=
  (p 3).toUInt32 ||| (p 2).toUInt32 <<< 8 ||| (p 1).toUInt32 <<< 16 |||
    (p 0).toUInt32 <<< 24

/-- What `be32enc` writes. -/
def be32enc (x : UInt32) : List UInt8 :=
  [(x >>> 24 &&& 0xff).toUInt8, (x >>> 16 &&& 0xff).toUInt8,
    (x >>> 8 &&& 0xff).toUInt8, (x &&& 0xff).toUInt8]

/-- `le32dec`. -/
def le32dec (p : Nat → UInt8) : UInt32 :=
  (p 0).toUInt32 ||| (p 1).toUInt32 <<< 8 ||| (p 2).toUInt32 <<< 16 |||
    (p 3).toUInt32 <<< 24

/-- What `le32enc` writes. -/
def le32enc (x : UInt32) : List UInt8 :=
  [(x &&& 0xff).toUInt8, (x >>> 8 &&& 0xff).toUInt8,
    (x >>> 16 &&& 0xff).toUInt8, (x >>> 24 &&& 0xff).toUInt8]

/-! ## Reading back what was written -/

theorem le32dec_toNat (p : Nat → UInt8) :
    (le32dec p).toNat = (p 0).toNat + 2 ^ 8 * (p 1).toNat +
      2 ^ 16 * (p 2).toNat + 2 ^ 24 * (p 3).toNat := by
  have first := (p 0).toNat_lt
  have second := (p 1).toNat_lt
  have third := (p 2).toNat_lt
  have shifted (b : UInt8) {k : Nat} (inside : k ≤ 24) :
      b.toNat <<< k % 2 ^ 32 = b.toNat <<< k := by
    have small := b.toNat_lt
    apply Nat.mod_eq_of_lt
    rw [Nat.shiftLeft_eq]
    calc b.toNat * 2 ^ k ≤ b.toNat * 2 ^ 24 :=
          Nat.mul_le_mul_left _ (Nat.pow_le_pow_right (by decide) inside)
      _ < 2 ^ 32 := by omega
  unfold le32dec
  simp only [UInt32.toNat_or, UInt32.toNat_shiftLeft, UInt8.toNat_toUInt32]
  show (p 0).toNat ||| (p 1).toNat <<< 8 % 2 ^ 32 |||
    (p 2).toNat <<< 16 % 2 ^ 32 ||| (p 3).toNat <<< 24 % 2 ^ 32 = _
  rw [shifted _ (by decide), shifted _ (by decide), shifted _ (by decide)]
  -- The bits of the bytes do not overlap.
  rw [Nat.or_comm _ ((p 1).toNat <<< 8), ← Nat.shiftLeft_add_eq_or_of_lt first,
    Nat.or_comm _ ((p 2).toNat <<< 16), ← Nat.shiftLeft_add_eq_or_of_lt
      (by rw [Nat.shiftLeft_eq]; omega),
    Nat.or_comm _ ((p 3).toNat <<< 24), ← Nat.shiftLeft_add_eq_or_of_lt
      (by rw [Nat.shiftLeft_eq, Nat.shiftLeft_eq]; omega)]
  simp only [Nat.shiftLeft_eq]
  omega

theorem byte_toNat (x : UInt32) {shift : UInt32} (few : shift.toNat < 32) :
    (x >>> shift &&& 0xff).toUInt8.toNat =
      x.toNat / 2 ^ shift.toNat % 256 := by
  have mask : (0xff : UInt32).toNat = 2 ^ 8 - 1 := rfl
  rw [UInt32.toNat_toUInt8, UInt32.toNat_and, UInt32.toNat_shiftRight, mask,
    Nat.and_two_pow_sub_one_eq_mod, Nat.mod_eq_of_lt few,
    Nat.shiftRight_eq_div_pow]
  exact Nat.mod_mod _ _

theorem le32enc_toNat (x : UInt32) :
    (le32enc x).map UInt8.toNat = [x.toNat % 256, x.toNat / 2 ^ 8 % 256,
      x.toNat / 2 ^ 16 % 256, x.toNat / 2 ^ 24 % 256] := by
  have first : (x &&& 0xff).toUInt8.toNat = x.toNat % 256 := by
    have shifted := @byte_toNat x 0 (by decide)
    rw [UInt32.shiftRight_zero] at shifted
    exact shifted.trans (by rw [UInt32.toNat_zero, Nat.pow_zero, Nat.div_one])
  unfold le32enc
  rw [List.map_cons, List.map_cons, List.map_cons, List.map_cons, first,
    byte_toNat x (by decide), byte_toNat x (by decide),
    byte_toNat x (by decide)]
  rfl

theorem le32dec_le32enc (x : UInt32) :
    le32dec (fun j => (le32enc x).getD j 0) = x := by
  have bytes := le32enc_toNat x
  have bound := x.toNat_lt
  unfold le32enc at bytes ⊢
  simp only [List.map_cons, List.map_nil, List.cons.injEq, and_true] at bytes
  rcases bytes with ⟨first, second, third, fourth⟩
  apply UInt32.toNat_inj.mp
  rw [le32dec_toNat]
  simp only [List.getD_cons_zero, List.getD_cons_succ]
  rw [first, second, third, fourth]
  omega

theorem le32enc_le32dec (p : Nat → UInt8) :
    le32enc (le32dec p) = [p 0, p 1, p 2, p 3] := by
  have bytes := le32enc_toNat (le32dec p)
  have first := (p 0).toNat_lt
  have second := (p 1).toNat_lt
  have third := (p 2).toNat_lt
  have fourth := (p 3).toNat_lt
  apply List.map_injective_iff.mpr fun _ _ => UInt8.toNat_inj.mp
  rw [bytes, le32dec_toNat]
  simp only [List.map_cons, List.map_nil, List.cons.injEq, and_true]
  refine ⟨?_, ?_, ?_, ?_⟩ <;> omega

end Libcperciva.Util.Sysendian
