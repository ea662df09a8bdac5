import Libcperciva.Lib.Buffer
import Mathlib.Algebra.Group.Nat.Defs

/-!
# Message authentication and key derivation

HMAC as in RFC 2104, over a hash function that takes blocks of `B` bytes, and
PBKDF2 as in RFC 8018, over a pseudorandom function with outputs of `hLen`
bytes.
-/

namespace Libcperciva.Lib.Hmac

open Libcperciva.Lib.Buffer

variable (hash : List UInt8 → List UInt8) (B : Nat)

/-! ## RFC 2104 -/

/-- The key in a block: a key that is too long is hashed, and zeros are
appended. -/
def keyBlock (K : List UInt8) : List UInt8 :=
  let K := if B < K.length then hash K else K
  K ++ List.replicate (B - K.length) 0

/-- The key with the inner padding. -/
def ipad (K : List UInt8) : List UInt8 := (keyBlock hash B K).map (· ^^^ 0x36)

/-- The key with the outer padding. -/
def opad (K : List UInt8) : List UInt8 := (keyBlock hash B K).map (· ^^^ 0x5c)

def hmac (K text : List UInt8) : List UInt8 :=
  hash (opad hash B K ++ hash (ipad hash B K ++ text))

theorem length_keyBlock {K : List UInt8}
    (short : (hash K).length ≤ B) : (keyBlock hash B K).length = B := by
  unfold keyBlock
  dsimp only
  rw [List.length_append, List.length_replicate]
  by_cases long : B < K.length
  · rw [if_pos long]
    exact Nat.add_sub_of_le short
  · rw [if_neg long]
    exact Nat.add_sub_of_le (Nat.le_of_not_lt long)

/-! ## RFC 8018, section 5.2 -/

section Pbkdf2

variable (prf : List UInt8 → List UInt8 → List UInt8) (hLen : Nat)
  (P S : List UInt8)

/-- The exclusive-or of two strings. -/
def xorBytes (T U : List UInt8) : List UInt8 := List.zipWith (· ^^^ ·) T U

/-- The four-octet encoding, most significant octet first. -/
def INT (i : Nat) : List UInt8 :=
  (List.range 4).map fun j => UInt8.ofNat (i / 256 ^ (3 - j))

/-- `U_1`, `U_2` and so on, for the block `i`. -/
def U (i : Nat) : Nat → List UInt8
  | 0 => prf P (S ++ INT i)
  | j + 1 => prf P (U i j)

/-- `U_1 \xor U_2 \xor ... \xor U_c`. -/
def F (c i : Nat) : List UInt8 :=
  (List.range (c - 1)).foldl (fun T j => xorBytes T (U prf P S i (j + 1)))
    (U prf P S i 0)

/-- `T_1 || T_2 || ...`, of as many blocks. -/
def blocks (c l : Nat) : List UInt8 :=
  (List.range l).flatMap fun i => F prf P S c (i + 1)

/-- The first `dkLen` octets of `ceil(dkLen / hLen)` blocks. -/
def pbkdf2 (c dkLen : Nat) : List UInt8 :=
  (blocks prf P S c ((dkLen + hLen - 1) / hLen)).take dkLen

variable {prf hLen P S}

/-- One more function value. -/
theorem F_succ {c : Nat} (positive : 1 ≤ c) (i : Nat) :
    F prf P S (c + 1) i = xorBytes (F prf P S c i) (U prf P S i c) := by
  unfold F
  rw [show c + 1 - 1 = c - 1 + 1 by omega, List.range_succ,
    List.foldl_append, List.foldl_cons, List.foldl_nil,
    Nat.sub_add_cancel positive]

theorem blocks_succ (c l : Nat) :
    blocks prf P S c (l + 1) = blocks prf P S c l ++ F prf P S c (l + 1) := by
  unfold blocks
  rw [List.range_succ, List.flatMap_append, List.flatMap_singleton]

section Lengths

variable (uniform : ∀ K text, (prf K text).length = hLen)

include uniform

theorem length_U (i j : Nat) : (U prf P S i j).length = hLen := by
  cases j with
  | zero => exact uniform P _
  | succ j => exact uniform P _

theorem length_F (c i : Nat) : (F prf P S c i).length = hLen := by
  unfold F
  induction c - 1 with
  | zero => exact length_U uniform i 0
  | succ n ih =>
      rw [List.range_succ, List.foldl_append, List.foldl_cons, List.foldl_nil]
      show (List.zipWith _ _ _).length = hLen
      rw [List.length_zipWith, ih, length_U uniform i (n + 1), Nat.min_self]

theorem length_blocks (c l : Nat) :
    (blocks prf P S c l).length = l * hLen := by
  induction l with
  | zero => exact (Nat.zero_mul hLen).symm
  | succ l ih =>
      rw [blocks_succ, List.length_append, ih, length_F uniform,
        Nat.succ_mul]

/-- One of the blocks. -/
theorem slice_blocks (c : Nat) {l i : Nat} (inside : i < l) :
    slice (blocks prf P S c l) (i * hLen) hLen = F prf P S c (i + 1) := by
  have uniformF : ∀ T ∈ (List.range l).map fun i => F prf P S c (i + 1),
      T.length = hLen := by
    intro T member
    rcases List.mem_map.mp member with ⟨i, _, rfl⟩
    exact length_F uniform c (i + 1)
  unfold blocks
  rw [List.flatMap_def, slice_records uniformF (by
    rw [List.length_map, List.length_range]
    exact inside), List.getElem_map, List.getElem_range]

end Lengths

end Pbkdf2

end Libcperciva.Lib.Hmac
