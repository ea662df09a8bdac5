import Libcperciva.Lib.Fips180
import Libcperciva.Lib.Lanes

/-!
# SHA-256 in registers

A register holds four consecutive words of a block or of the message schedule.
-/

namespace Libcperciva.Lib.Fips180Lanes

open Libcperciva.Lib.Fips180
open Libcperciva.Lib.Lanes

variable {block : List UInt8} {t : Nat} {v : BitVec 128}

/-- The register holds the words of the message schedule from `t` on. -/
def Words (block : List UInt8) (t : Nat) (v : BitVec 128) : Prop :=
  ∀ c < 4, lane32 v c = schedule block (t + c)

/-- The message schedule, sixteen words further. -/
theorem schedule_add (block : List UInt8) (t : Nat) :
    schedule block (t + 16) =
      smallSigma1 (schedule block (t + 14)) + schedule block (t + 9) +
        smallSigma0 (schedule block (t + 1)) + schedule block t := by
  conv => lhs; unfold schedule
  exact if_neg (by omega)

/-- The bytes of a word are in the order of a big-endian number. -/
theorem ofBitVec_eq_word {x : BitVec 32} {c : Nat}
    (bytes : ∀ r < 4, lane 8 x r =
      (block.getD (4 * c + (3 - r)) 0).toBitVec) :
    UInt32.ofBitVec x = word block c := by
  unfold word
  congr 1
  apply eq_of_lanes 8 (show 32 = 8 * 4 from rfl)
  intro r inside
  rw [bytes r inside]
  rcases r with _ | _ | _ | _ | r
  · rw [lane_append_zero]
  · rw [lane_append_succ, lane_append_zero]
  · rw [lane_append_succ, lane_append_succ, lane_append_zero]
  · rw [lane_append_succ, lane_append_succ, lane_append_succ]
    exact BitVec.extractLsb'_eq_self.symm
  · omega

/-- Sixteen bytes of the block, reversed in each word. -/
theorem Words.start {d : Nat} (inside : d + 4 ≤ 16)
    (bytes : ∀ j < 16, lane 8 v j =
      ((block.drop (4 * d)).getD (4 * (j / 4) + (3 - j % 4)) 0).toBitVec) :
    Words block d v := by
  intro c isWord
  have within : d + c < 16 := by omega
  conv => rhs; unfold schedule
  rw [if_pos within]
  apply ofBitVec_eq_word
  intro r isByte
  have column : (4 * c + r) / 4 = c := by omega
  have row : (4 * c + r) % 4 = r := by omega
  have place : 4 * d + (4 * c + (3 - r)) = 4 * (d + c) + (3 - r) := by omega
  have byte := bytes (4 * c + r) (by omega)
  rw [column, row, List.getD_eq_getElem?_getD, List.getElem?_drop, place,
    ← List.getD_eq_getElem?_getD] at byte
  exact (lane_lane (w := 8) v isByte).trans byte

/-- The next four words: the last two need the first two. -/
theorem Words.next
    (words : ∀ c < 4, lane32 v c = schedule block (t + c) +
      schedule block (t + 9 + c) + smallSigma0 (schedule block (t + 1 + c)) +
      smallSigma1 (if c < 2 then schedule block (t + 14 + c)
        else lane32 v (c - 2))) :
    Words block (t + 16) v := by
  have all (c : Nat) (inside : c < 4)
      (before : (if c < 2 then schedule block (t + 14 + c)
        else lane32 v (c - 2)) = schedule block (t + c + 14)) :
      lane32 v c = schedule block (t + 16 + c) := by
    rw [words c inside, before, Nat.add_right_comm t 16 c, schedule_add,
      Nat.add_right_comm t 9 c, Nat.add_right_comm t 1 c]
    ac_rfl
  have first (c : Nat) (early : c < 2) :
      lane32 v c = schedule block (t + 16 + c) := by
    apply all c (by omega)
    rw [if_pos early, Nat.add_right_comm]
  intro c inside
  by_cases early : c < 2
  · exact first c early
  · have place : t + 16 + (c - 2) = t + c + 14 := by omega
    apply all c inside
    rw [if_neg early, first (c - 2) (by omega), place]

end Libcperciva.Lib.Fips180Lanes
