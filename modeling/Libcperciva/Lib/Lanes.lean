import Mathlib.Algebra.Group.Nat.Defs
import Mathlib.Tactic.SplitIfs

/-!
# Lanes of a register

A register is a bit vector, of which instructions see a part as lanes of equal
width; lane 0 is the lowest one.  The same register has lanes of any width.
-/

namespace Libcperciva.Lib.Lanes

variable {n w : Nat} {v v' : BitVec n}

/-- Lane `i` of width `w`. -/
def lane (w : Nat) (v : BitVec n) (i : Nat) : BitVec w :=
  v.extractLsb' (w * i) w

/-- The first lanes of a register; the others are zero. -/
def fill (n : Nat) (f : Nat → BitVec w) : Nat → BitVec n
  | 0 => 0
  | i + 1 => fill n f i ||| (f i).setWidth n <<< (w * i)

/-- The register with the given lanes. -/
def ofLanes (n w : Nat) (f : Nat → BitVec w) : BitVec n := fill n f (n / w)

theorem getLsbD_lane (v : BitVec n) {i j : Nat} (inside : j < w) :
    (lane w v i).getLsbD j = v.getLsbD (w * i + j) := by
  unfold lane
  rw [BitVec.getLsbD_extractLsb', decide_eq_true inside, Bool.true_and]

theorem getLsbD_fill (f : Nat → BitVec w) {count i j : Nat} (isBit : j < w)
    (inside : w * i + j < n) :
    (fill n f count).getLsbD (w * i + j) =
      (decide (i < count) && (f i).getLsbD j) := by
  induction count with
  | zero => exact BitVec.getLsbD_zero
  | succ count ih =>
      unfold fill
      rw [BitVec.getLsbD_or, ih, BitVec.getLsbD_shiftLeft,
        decide_eq_true inside, Bool.true_and]
      rcases Nat.lt_trichotomy i count with before | rfl | after
      · have under : w * i + j < w * count := by
          have next : w * (i + 1) ≤ w * count := Nat.mul_le_mul_left w before
          rw [Nat.mul_succ] at next
          omega
        simp [before, under, Nat.lt_succ_of_lt before]
      · have place : w * i + j - w * i = j :=
          Nat.add_sub_cancel_left _ _
        have within : j < n := by omega
        simp [place, within]
      · have past : w ≤ w * i + j - w * count := by
          have next : w * (count + 1) ≤ w * i := Nat.mul_le_mul_left w after
          rw [Nat.mul_succ] at next
          omega
        rw [decide_eq_false (Nat.lt_asymm after),
          decide_eq_false (Nat.not_lt_of_le after), BitVec.getLsbD_setWidth,
          BitVec.getLsbD_of_ge (f count) _ past]
        simp

/-- The lanes of a register are those that it was made of. -/
theorem lane_ofLanes (f : Nat → BitVec w) {i : Nat} (inside : w * (i + 1) ≤ n) :
    lane w (ofLanes n w f) i = f i := by
  apply BitVec.eq_of_getLsbD_eq
  intro j isBit
  have positive : 0 < w := Nat.zero_lt_of_lt isBit
  have before : w * i + j < n := by
    rw [Nat.mul_succ] at inside
    omega
  have among : i < n / w :=
    (Nat.le_div_iff_mul_le positive).mpr (Nat.mul_comm _ w ▸ inside)
  rw [getLsbD_lane _ isBit]
  unfold ofLanes
  rw [getLsbD_fill f isBit before, decide_eq_true among, Bool.true_and]

/-- Registers with the same lanes are equal. -/
theorem eq_of_lanes (w : Nat) {count : Nat} (exact : n = w * count)
    (lanes : ∀ i < count, lane w v i = lane w v' i) : v = v' := by
  apply BitVec.eq_of_getLsbD_eq
  intro k isBit
  rw [exact] at isBit
  have positive : 0 < w := by
    apply Nat.pos_of_ne_zero
    rintro rfl
    rw [Nat.zero_mul] at isBit
    exact absurd isBit (Nat.not_lt_zero k)
  have inside : k % w < w := Nat.mod_lt k positive
  have same := congrArg (fun x : BitVec w => x.getLsbD (k % w))
    (lanes (k / w) (Nat.div_lt_of_lt_mul isBit))
  rwa [getLsbD_lane v inside, getLsbD_lane v' inside,
    Nat.div_add_mod] at same

/-- A lane has lanes itself. -/
theorem lane_lane (v : BitVec n) {count i j : Nat} (inside : j < count) :
    lane w (lane (w * count) v i) j = lane w v (count * i + j) := by
  apply BitVec.eq_of_getLsbD_eq
  intro k isBit
  have within : w * j + k < w * count := by
    have next : w * (j + 1) ≤ w * count := Nat.mul_le_mul_left w inside
    rw [Nat.mul_succ] at next
    omega
  rw [getLsbD_lane _ isBit, getLsbD_lane _ within, getLsbD_lane _ isBit,
    Nat.mul_add, Nat.mul_assoc, Nat.add_assoc]

/-- Behind the register there are only zeros. -/
theorem lane_of_ge (v : BitVec n) {i : Nat} (behind : n ≤ w * i) :
    lane w v i = 0 := by
  apply BitVec.eq_of_getLsbD_eq
  intro k isBit
  rw [getLsbD_lane _ isBit, BitVec.getLsbD_of_ge v _ (by omega)]
  exact BitVec.getLsbD_zero.symm

/-! ## Bitwise operations and shifts -/

theorem lane_xor (v v' : BitVec n) (i : Nat) :
    lane w (v ^^^ v') i = lane w v i ^^^ lane w v' i :=
  BitVec.extractLsb'_xor

theorem lane_or (v v' : BitVec n) (i : Nat) :
    lane w (v ||| v') i = lane w v i ||| lane w v' i :=
  BitVec.extractLsb'_or

/-- A shift by whole lanes to the left. -/
theorem lane_shiftLeft (v : BitVec n) {i : Nat} (count : Nat)
    (inside : w * (i + 1) ≤ n) :
    lane w (v <<< (w * count)) i =
      if i < count then 0 else lane w v (i - count) := by
  apply BitVec.eq_of_getLsbD_eq
  intro k isBit
  have before : w * i + k < n := by
    rw [Nat.mul_succ] at inside
    omega
  rw [getLsbD_lane _ isBit, BitVec.getLsbD_shiftLeft, decide_eq_true before,
    Bool.true_and]
  split_ifs with low
  · have under : w * i + k < w * count := by
      have next : w * (i + 1) ≤ w * count := Nat.mul_le_mul_left w low
      rw [Nat.mul_succ] at next
      omega
    rw [decide_eq_true under]
    exact (BitVec.getLsbD_zero).symm
  · obtain ⟨j, rfl⟩ := Nat.exists_eq_add_of_le (Nat.le_of_not_lt low)
    have past : ¬ w * (count + j) + k < w * count := by
      rw [Nat.mul_add]
      omega
    have place : w * (count + j) + k - w * count = w * j + k := by
      rw [Nat.mul_add]
      omega
    rw [decide_eq_false past, place, Nat.add_sub_cancel_left,
      getLsbD_lane _ isBit]
    rfl

/-- A shift by whole lanes to the right. -/
theorem lane_shiftRight (v : BitVec n) (count i : Nat) :
    lane w (v >>> (w * count)) i = lane w v (count + i) := by
  apply BitVec.eq_of_getLsbD_eq
  intro k isBit
  rw [getLsbD_lane _ isBit, getLsbD_lane _ isBit,
    BitVec.getLsbD_ushiftRight, Nat.mul_add, Nat.add_assoc]

/-! ## Concatenation -/

theorem lane_append_zero {m : Nat} (x : BitVec m) (y : BitVec w) :
    lane w (x ++ y) 0 = y := by
  apply BitVec.eq_of_getLsbD_eq
  intro k isBit
  rw [getLsbD_lane _ isBit, BitVec.getLsbD_append, if_pos (by omega),
    Nat.mul_zero, Nat.zero_add]

theorem lane_append_succ {m : Nat} (x : BitVec m) (y : BitVec w) (i : Nat) :
    lane w (x ++ y) (i + 1) = lane w x i := by
  apply BitVec.eq_of_getLsbD_eq
  intro k isBit
  have past : ¬ w * (i + 1) + k < w := by
    rw [Nat.mul_succ]
    omega
  have place : w * (i + 1) + k - w = w * i + k := by
    rw [Nat.mul_succ]
    omega
  rw [getLsbD_lane _ isBit, getLsbD_lane _ isBit, BitVec.getLsbD_append,
    if_neg past, place]

/-- Lanes of a concatenation. -/
theorem lane_append {m count : Nat} (x : BitVec m) (y : BitVec (w * count))
    (i : Nat) :
    lane w (x ++ y) i =
      if i < count then lane w y i else lane w x (i - count) := by
  apply BitVec.eq_of_getLsbD_eq
  intro k isBit
  rw [getLsbD_lane _ isBit, BitVec.getLsbD_append]
  by_cases low : i < count
  · have under : w * i + k < w * count := by
      have next : w * (i + 1) ≤ w * count := Nat.mul_le_mul_left w low
      rw [Nat.mul_succ] at next
      omega
    rw [if_pos under, if_pos low, getLsbD_lane _ isBit]
  · obtain ⟨j, rfl⟩ := Nat.exists_eq_add_of_le (Nat.le_of_not_lt low)
    have past : ¬ w * (count + j) + k < w * count := by
      rw [Nat.mul_add]
      omega
    have place : w * (count + j) + k - w * count = w * j + k := by
      rw [Nat.mul_add]
      omega
    rw [if_neg past, if_neg low, place, Nat.add_sub_cancel_left,
      getLsbD_lane _ isBit]

theorem lane_setWidth {m : Nat} (v : BitVec n) {i : Nat}
    (inside : w * (i + 1) ≤ m) : lane w (v.setWidth m) i = lane w v i := by
  apply BitVec.eq_of_getLsbD_eq
  intro k isBit
  have before : w * i + k < m := by
    rw [Nat.mul_succ] at inside
    omega
  rw [getLsbD_lane _ isBit, getLsbD_lane _ isBit, BitVec.getLsbD_setWidth,
    decide_eq_true before, Bool.true_and]

/-! ## Lanes of 32 bits -/

/-- Lane `i` as a word. -/
def lane32 (v : BitVec n) (i : Nat) : UInt32 := UInt32.ofBitVec (lane 32 v i)

/-- The register of four words. -/
def ofLanes32 (f : Nat → UInt32) : BitVec 128 :=
  ofLanes 128 32 fun i => (f i).toBitVec

theorem lane32_ofLanes32 (f : Nat → UInt32) {i : Nat} (inside : i < 4) :
    lane32 (ofLanes32 f) i = f i := by
  unfold lane32 ofLanes32
  rw [lane_ofLanes _ (by omega)]

theorem lane32_xor (v v' : BitVec n) (i : Nat) :
    lane32 (v ^^^ v') i = lane32 v i ^^^ lane32 v' i := by
  unfold lane32
  rw [lane_xor, UInt32.ofBitVec_xor]

theorem lane32_or (v v' : BitVec n) (i : Nat) :
    lane32 (v ||| v') i = lane32 v i ||| lane32 v' i := by
  unfold lane32
  rw [lane_or, UInt32.ofBitVec_or]

end Libcperciva.Lib.Lanes
