import Libcperciva.Intrinsics.X86

/-!
# What the instructions of x86 do with words

Each lemma gives the 32-bit lanes of a result.
-/

namespace Libcperciva.Intrinsics.X86Lanes

open Libcperciva.Intrinsics.X86
open Libcperciva.Lib.Lanes

variable {i n : Nat}

/-! ## Shifts of words -/

theorem ofBitVec_ushiftRight (x : BitVec 32) (few : n < 32) :
    UInt32.ofBitVec (x >>> n) = UInt32.ofBitVec x >>> UInt32.ofNat n := by
  apply UInt32.toBitVec_inj.mp
  rw [UInt32.toBitVec_shiftRight]
  apply BitVec.eq_of_getLsbD_eq
  intro j _
  have count : (UInt32.ofNat n).toBitVec % 32 = BitVec.ofNat 32 n := by
    apply BitVec.eq_of_toNat_eq
    show n % 2 ^ 32 % 32 = n % 2 ^ 32
    omega
  rw [count, BitVec.ushiftRight_eq', BitVec.toNat_ofNat,
    Nat.mod_eq_of_lt (by omega)]

theorem ofBitVec_shiftLeft (x : BitVec 32) (few : n < 32) :
    UInt32.ofBitVec (x <<< n) = UInt32.ofBitVec x <<< UInt32.ofNat n := by
  apply UInt32.toBitVec_inj.mp
  rw [UInt32.toBitVec_shiftLeft]
  apply BitVec.eq_of_getLsbD_eq
  intro j _
  have count : (UInt32.ofNat n).toBitVec % 32 = BitVec.ofNat 32 n := by
    apply BitVec.eq_of_toNat_eq
    show n % 2 ^ 32 % 32 = n % 2 ^ 32
    omega
  rw [count, BitVec.shiftLeft_eq', BitVec.toNat_ofNat,
    Nat.mod_eq_of_lt (by omega)]

/-! ## SSE2 -/

theorem lane32_mmAddEpi32 (a b : M128i) (inside : i < 4) :
    lane32 (mmAddEpi32 a b) i = lane32 a i + lane32 b i :=
  lane32_ofLanes32 _ inside

theorem lane32_mmSrliEpi32 (a : M128i) (few : n < 32) (inside : i < 4) :
    lane32 (mmSrliEpi32 a n) i = lane32 a i >>> UInt32.ofNat n := by
  unfold lane32 mmSrliEpi32
  rw [lane_ofLanes _ (by omega), ofBitVec_ushiftRight _ few]

theorem lane32_mmSlliEpi32 (a : M128i) (few : n < 32) (inside : i < 4) :
    lane32 (mmSlliEpi32 a n) i = lane32 a i <<< UInt32.ofNat n := by
  unfold lane32 mmSlliEpi32
  rw [lane_ofLanes _ (by omega), ofBitVec_shiftLeft _ few]

theorem lane32_mmShuffleEpi32 (a : M128i) (imm8 : Nat) (inside : i < 4) :
    lane32 (mmShuffleEpi32 a imm8) i = lane32 a (imm8 / 4 ^ i % 4) := by
  unfold lane32 mmShuffleEpi32
  rw [lane_ofLanes _ (by omega)]

theorem lane32_mmMoveSs (a b : M128i) (inside : i < 4) :
    lane32 (mmMoveSs a b) i = if i = 0 then lane32 b 0 else lane32 a i := by
  unfold lane32 mmMoveSs
  rw [lane_ofLanes _ (by omega)]
  cases i with
  | zero => rfl
  | succ i => rfl

/-- A shift by two words to the left. -/
theorem lane32_mmSlliSi128 (a : M128i) (inside : i < 4) :
    lane32 (mmSlliSi128 a 8) i = if i < 2 then 0 else lane32 a (i - 2) := by
  unfold lane32 mmSlliSi128
  rw [show 8 * 8 = 32 * 2 from rfl, lane_shiftLeft a 2 (by omega)]
  split_ifs
  · rfl
  · rfl

/-- A shift by two words to the right. -/
theorem lane32_mmSrliSi128 (a : M128i) (i : Nat) :
    lane32 (mmSrliSi128 a 8) i = if 2 ≤ i then 0 else lane32 a (2 + i) := by
  unfold lane32 mmSrliSi128
  rw [show 8 * 8 = 32 * 2 from rfl, lane_shiftRight a 2 i]
  split_ifs with past
  · rw [lane_of_ge a (by omega)]
    rfl
  · rfl

/-- The lower word of a shift of two words. -/
theorem lane32_mmSrliEpi64 (a : M128i) (few : n < 32) (inside : i < 2) :
    lane32 (mmSrliEpi64 a n) (2 * i) =
      UInt32.ofBitVec (lane 32 a (2 * i) >>> n |||
        lane 32 a (2 * i + 1) <<< (32 - n)) := by
  unfold lane32
  rw [← Nat.add_zero (2 * i), ← lane_lane (w := 32) _ Nat.two_pos]
  unfold mmSrliEpi64
  rw [lane_ofLanes (w := 64) _ (by omega)]
  congr 1
  apply BitVec.eq_of_getLsbD_eq
  intro j isBit
  rw [getLsbD_lane _ isBit, BitVec.getLsbD_ushiftRight, BitVec.getLsbD_or,
    BitVec.getLsbD_ushiftRight, BitVec.getLsbD_shiftLeft,
    decide_eq_true isBit, Bool.true_and, getLsbD_lane _ (by omega)]
  by_cases low : n + j < 32
  · have place : 64 * i + (n + (32 * 0 + j)) = 32 * (2 * i) + (n + j) := by
      omega
    have under : j < 32 - n := by omega
    rw [getLsbD_lane _ low, place, decide_eq_true under]
    exact (Bool.or_false _).symm
  · have place : 64 * i + (n + (32 * 0 + j)) =
        32 * (2 * i + 1) + (j - (32 - n)) := by omega
    have past : ¬ j < 32 - n := by omega
    have within : j - (32 - n) < 32 := by omega
    rw [BitVec.getLsbD_of_ge (lane 32 a (2 * i + 0)) _ (by omega),
      decide_eq_false past]
    rw [place, ← getLsbD_lane a within]
    rfl

theorem lane32_mmUnpackloEpi64 (a b : M128i) (inside : i < 4) :
    lane32 (mmUnpackloEpi64 a b) i =
      if i < 2 then lane32 a i else lane32 b (i - 2) := by
  unfold lane32
  have half (v : M128i) (k e : Nat) (isWord : e < 2) :
      lane 32 v (2 * k + e) = lane 32 (lane 64 v k) e :=
    (lane_lane (w := 32) v isWord).symm
  by_cases low : i < 2
  · rw [if_pos low, show i = 2 * 0 + i from (Nat.zero_add i).symm,
      half _ _ _ low, half _ _ _ low]
    unfold mmUnpackloEpi64
    rw [lane_ofLanes _ (by omega)]
    rfl
  · obtain ⟨e, rfl⟩ := Nat.exists_eq_add_of_le (Nat.le_of_not_lt low)
    have isWord : e < 2 := by omega
    rw [if_neg low, Nat.add_sub_cancel_left, show 2 + e = 2 * 1 + e from rfl,
      half _ _ _ isWord, show lane 32 b e = lane 32 b (2 * 0 + e) by
        rw [Nat.mul_zero, Nat.zero_add], half _ _ _ isWord]
    unfold mmUnpackloEpi64
    rw [lane_ofLanes _ (by omega)]
    rfl

theorem lane32_mmUnpackhiEpi64 (a b : M128i) (inside : i < 4) :
    lane32 (mmUnpackhiEpi64 a b) i =
      if i < 2 then lane32 a (2 + i) else lane32 b i := by
  unfold lane32
  have half (v : M128i) (k e : Nat) (isWord : e < 2) :
      lane 32 v (2 * k + e) = lane 32 (lane 64 v k) e :=
    (lane_lane (w := 32) v isWord).symm
  by_cases low : i < 2
  · rw [if_pos low, show lane 32 (mmUnpackhiEpi64 a b) i =
      lane 32 (mmUnpackhiEpi64 a b) (2 * 0 + i) by
        rw [Nat.mul_zero, Nat.zero_add], show 2 + i = 2 * 1 + i from rfl,
      half _ _ _ low, half _ _ _ low]
    unfold mmUnpackhiEpi64
    rw [lane_ofLanes _ (by omega)]
    rfl
  · obtain ⟨e, rfl⟩ := Nat.exists_eq_add_of_le (Nat.le_of_not_lt low)
    have isWord : e < 2 := by omega
    rw [if_neg low, show 2 + e = 2 * 1 + e from rfl, half _ _ _ isWord,
      half _ _ _ isWord]
    unfold mmUnpackhiEpi64
    rw [lane_ofLanes _ (by omega)]
    rfl

/-! ## SSSE3 and SHA -/

/-- Four consecutive words out of eight. -/
theorem lane32_mmAlignrEpi8 (a b : M128i) (inside : i < 4) :
    lane32 (mmAlignrEpi8 a b 4) i =
      if i < 3 then lane32 b (i + 1) else lane32 a 0 := by
  unfold lane32 mmAlignrEpi8
  rw [lane_setWidth _ (by omega), show 8 * 4 = 32 * 1 from rfl,
    lane_shiftRight]
  have joined := lane_append (w := 32) (m := 128) a
    (show BitVec (32 * 4) from b) (1 + i)
  refine (congrArg UInt32.ofBitVec joined).trans ?_
  by_cases low : i < 3
  · rw [if_pos (by omega), if_pos low, Nat.add_comm 1 i]
  · have last : 1 + i - 4 = 0 := by omega
    rw [if_neg (by omega), if_neg low, last]

theorem lane32_mmSha256msg1Epu32 (a b : M128i) (inside : i < 4) :
    lane32 (mmSha256msg1Epu32 a b) i = lane32 a i + Lib.Fips180.smallSigma0
      (if i < 3 then lane32 a (i + 1) else lane32 b 0) := by
  unfold mmSha256msg1Epu32
  rw [lane32_ofLanes32 _ inside]
  rcases i with _ | _ | _ | _ | i
  · rfl
  · rfl
  · rfl
  · rfl
  · omega

theorem lane32_mmSha256msg2Epu32 (a b : M128i) (inside : i < 4) :
    lane32 (mmSha256msg2Epu32 a b) i = lane32 a i + Lib.Fips180.smallSigma1
      (if i < 2 then lane32 b (i + 2)
        else lane32 (mmSha256msg2Epu32 a b) (i - 2)) := by
  unfold mmSha256msg2Epu32
  dsimp only
  rw [lane32_ofLanes32 _ inside, lane32_ofLanes32 _ (by omega)]
  rcases i with _ | _ | _ | _ | i
  · rfl
  · rfl
  · rfl
  · rfl
  · omega

end Libcperciva.Intrinsics.X86Lanes
