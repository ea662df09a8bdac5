import Libcperciva.Alg.Sha256Sse2Model
import Libcperciva.Alg.Sha256Transform
import Libcperciva.Intrinsics.X86Lanes
import Libcperciva.Lib.Fips180Lanes

/-!
# SSE2 computes the compression function of SHA-256

Each register of `Y` holds four words of the message schedule, which are also
stored in `W`; the rounds are those of the software.
-/

namespace Libcperciva.Alg.Sha256Sse2Transform

open Libcperciva.Intrinsics.X86
open Libcperciva.Intrinsics.X86Lanes
open Libcperciva.Lib.Fips180
open Libcperciva.Lib.Fips180Lanes
open Libcperciva.Lib.Lanes
open Libcperciva.Alg.Sha256Model
open Libcperciva.Alg.Sha256Sse2Model
open Libcperciva.Alg.Sha256Transform

variable {block : List UInt8} {hash : Fin 8 → UInt32} {i n t : Nat}

/-! ## Bytes -/

/-- The bytes of each 16-bit word are swapped. -/
theorem lane_swap (a : M128i) {k : Nat} (inside : k < 8) :
    lane 8 (mmOrSi128 (mmSlliEpi16 a 8) (mmSrliEpi16 a 8)) (2 * k) =
        lane 8 a (2 * k + 1) ∧
      lane 8 (mmOrSi128 (mmSlliEpi16 a 8) (mmSrliEpi16 a 8)) (2 * k + 1) =
        lane 8 a (2 * k) := by
  have half (v : M128i) {e : Nat} (isByte : e < 2) :
      lane 8 v (2 * k + e) = lane 8 (lane 16 v k) e :=
    (lane_lane (w := 8) v isByte).symm
  have swapped : lane 16 (mmOrSi128 (mmSlliEpi16 a 8) (mmSrliEpi16 a 8)) k =
      lane 16 a k <<< (8 * 1) ||| lane 16 a k >>> (8 * 1) := by
    unfold mmOrSi128 mmSlliEpi16 mmSrliEpi16
    rw [lane_or, lane_ofLanes _ (by omega), lane_ofLanes _ (by omega)]
  constructor
  · rw [half a Nat.one_lt_two, ← Nat.add_zero (2 * k), half _ Nat.two_pos,
      swapped, lane_or, lane_shiftLeft _ 1 (by decide), lane_shiftRight]
    exact BitVec.zero_or
  · rw [half _ Nat.one_lt_two, ← Nat.add_zero (2 * k), half a Nat.two_pos,
      swapped, lane_or, lane_shiftLeft _ 1 (by decide), lane_shiftRight,
      lane_of_ge (lane 16 a k) (i := 1 + 1) (by decide)]
    exact BitVec.or_zero

/-- The halves of each word are swapped. -/
theorem lane_shuffles (a : M128i) {k : Nat} (inside : k < 8) :
    lane 16 (mmShufflehiEpi16 (mmShuffleloEpi16 a (mmShuffle 2 3 0 1))
        (mmShuffle 2 3 0 1)) k =
      lane 16 a (if k % 2 = 0 then k + 1 else k - 1) := by
  have low : ∀ k < 4, mmShuffle 2 3 0 1 / 4 ^ k % 4 =
      if k % 2 = 0 then k + 1 else k - 1 := by decide
  have high : ∀ k < 8, 4 ≤ k → 4 + mmShuffle 2 3 0 1 / 4 ^ (k - 4) % 4 =
      if k % 2 = 0 then k + 1 else k - 1 := by decide
  have bound : ∀ k < 8, 4 ≤ k → 4 ≤ (if k % 2 = 0 then k + 1 else k - 1) ∧
      (if k % 2 = 0 then k + 1 else k - 1) < 8 := by decide
  unfold mmShufflehiEpi16
  rw [lane_ofLanes _ (by omega)]
  by_cases isLow : k < 4
  · rw [if_pos isLow]
    unfold mmShuffleloEpi16
    rw [lane_ofLanes _ (by omega), if_pos isLow, low k isLow]
  · obtain ⟨least, most⟩ := bound k inside (Nat.le_of_not_lt isLow)
    rw [if_neg isLow, high k inside (Nat.le_of_not_lt isLow)]
    unfold mmShuffleloEpi16
    rw [lane_ofLanes _ (by omega), if_neg (by omega)]

/-- `mm_bswap_epi32` reverses the bytes of each word. -/
theorem lane_mmBswapEpi32 (a : M128i) {j : Nat} (inside : j < 16) :
    lane 8 (mmBswapEpi32 a) j = lane 8 a (4 * (j / 4) + (3 - j % 4)) := by
  have half (v : M128i) (k e : Nat) (isByte : e < 2) :
      lane 8 v (2 * k + e) = lane 8 (lane 16 v k) e :=
    (lane_lane (w := 8) v isByte).symm
  have isByte : j % 2 < 2 := Nat.mod_lt j Nat.two_pos
  have split : 2 * (j / 2) + j % 2 = j := Nat.div_add_mod j 2
  unfold mmBswapEpi32
  dsimp only
  rw [← split, half _ _ _ isByte, lane_shuffles _ (by omega),
    ← half _ _ _ isByte, split]
  generalize isOther : (if j / 2 % 2 = 0 then j / 2 + 1 else j / 2 - 1) = k
  have within : k < 8 := by
    split_ifs at isOther with even
    · omega
    · omega
  have swapped := lane_swap a within
  rcases Nat.mod_two_eq_zero_or_one j with even | odd
  · have place : 4 * (j / 4) + (3 - j % 4) = 2 * k + 1 := by
      split_ifs at isOther with isEven
      · omega
      · omega
    rw [even, place]
    exact swapped.1
  · have place : 4 * (j / 4) + (3 - j % 4) = 2 * k := by
      split_ifs at isOther with isEven
      · omega
      · omega
    rw [odd, place]
    exact swapped.2

/-- The words of the block. -/
theorem mmBswapEpi32_words {d : Nat} (inside : d + 4 ≤ 16) :
    Words block d (mmBswapEpi32 (mmLoaduSi128 (block.drop (4 * d)))) := by
  apply Words.start inside
  intro j isByte
  unfold mmLoaduSi128
  rw [lane_mmBswapEpi32 _ isByte, lane_ofLanes _ (by omega)]

/-! ## The message schedule -/

theorem lane32_s0_128 (x : M128i) (inside : i < 4) :
    lane32 (s0_128 x) i = smallSigma0 (lane32 x i) := by
  have rotated (n : Nat) (positive : 0 < n) (few : n < 32) :
      lane32 (rotr32 x n) i = lane32 x i >>> UInt32.ofNat n |||
        lane32 x i <<< UInt32.ofNat (32 - n) := by
    unfold rotr32 shr32 mmOrSi128
    rw [lane32_or, lane32_mmSrliEpi32 x few inside,
      lane32_mmSlliEpi32 x (by omega) inside]
  unfold s0_128 shr32 mmXorSi128
  rw [lane32_xor, lane32_xor, rotated 7 (by decide) (by decide),
    rotated 18 (by decide) (by decide),
    lane32_mmSrliEpi32 x (by decide) inside]
  rfl

/-- The lanes that are not junk. -/
theorem lane32_s1 (b : M128i) (inside : i < 2)
    (same : lane 32 b (2 * i + 1) = lane 32 b (2 * i)) :
    lane32 (mmXorSi128 (mmXorSi128 (mmSrliEpi64 b 17) (mmSrliEpi64 b 19))
      (mmSrliEpi32 b 10)) (2 * i) = smallSigma1 (lane32 b (2 * i)) := by
  have rotated (n : Nat) (positive : 0 < n) (few : n < 32) :
      lane32 (mmSrliEpi64 b n) (2 * i) =
        lane32 b (2 * i) >>> UInt32.ofNat n |||
          lane32 b (2 * i) <<< UInt32.ofNat (32 - n) := by
    rw [lane32_mmSrliEpi64 b few inside, same, UInt32.ofBitVec_or,
      ofBitVec_ushiftRight _ few, ofBitVec_shiftLeft _ (by omega)]
    rfl
  unfold mmXorSi128
  rw [lane32_xor, lane32_xor, rotated 17 (by decide) (by decide),
    rotated 19 (by decide) (by decide),
    lane32_mmSrliEpi32 b (by decide) (by omega)]
  rfl

/-- The lower two lanes of `s1_128_low`; the others are zero. -/
theorem lane32_s1_128Low (a : M128i) (inside : i < 4) :
    lane32 (s1_128Low a) i =
      if i < 2 then smallSigma1 (lane32 a (i + 2)) else 0 := by
  have duplicated (j : Nat) (isLane : j < 4) :
      lane 32 (mmShuffleEpi32 a (mmShuffle 3 3 2 2)) j =
        lane 32 a (mmShuffle 3 3 2 2 / 4 ^ j % 4) := by
    unfold mmShuffleEpi32
    rw [lane_ofLanes _ (by omega)]
  unfold s1_128Low
  dsimp only
  rw [lane32_mmSrliSi128]
  rcases i with _ | _ | i
  · rw [if_neg (by omega), if_pos (by omega),
      lane32_mmShuffleEpi32 _ _ (by omega)]
    refine (lane32_s1 (i := 0) _ (by decide) ?_).trans ?_
    · rw [duplicated _ (by decide), duplicated _ (by decide)]
      rfl
    · rw [lane32_mmShuffleEpi32 _ _ (by decide)]
      rfl
  · rw [if_neg (by omega), if_pos (by omega),
      lane32_mmShuffleEpi32 _ _ (by omega)]
    refine (lane32_s1 (i := 1) _ (by decide) ?_).trans ?_
    · rw [duplicated _ (by decide), duplicated _ (by decide)]
      rfl
    · rw [lane32_mmShuffleEpi32 _ _ (by decide)]
      rfl
  · rw [if_pos (by omega), if_neg (by omega)]

/-- The upper two lanes of `s1_128_high`; the others are zero. -/
theorem lane32_s1_128High (a : M128i) (inside : i < 4) :
    lane32 (s1_128High a) i =
      if i < 2 then 0 else smallSigma1 (lane32 a (i - 2)) := by
  have duplicated (j : Nat) (isLane : j < 4) :
      lane 32 (mmShuffleEpi32 a (mmShuffle 1 1 0 0)) j =
        lane 32 a (mmShuffle 1 1 0 0 / 4 ^ j % 4) := by
    unfold mmShuffleEpi32
    rw [lane_ofLanes _ (by omega)]
  unfold s1_128High
  dsimp only
  rw [lane32_mmSlliSi128 _ inside]
  rcases i with _ | _ | _ | _ | i
  · rw [if_pos (by omega), if_pos (by omega)]
  · rw [if_pos (by omega), if_pos (by omega)]
  · rw [if_neg (by omega), if_neg (by omega),
      lane32_mmShuffleEpi32 _ _ (by omega)]
    refine (lane32_s1 (i := 0) _ (by decide) ?_).trans ?_
    · rw [duplicated _ (by decide), duplicated _ (by decide)]
      rfl
    · rw [lane32_mmShuffleEpi32 _ _ (by decide)]
      rfl
  · rw [if_neg (by omega), if_neg (by omega),
      lane32_mmShuffleEpi32 _ _ (by omega)]
    refine (lane32_s1 (i := 1) _ (by decide) ?_).trans ?_
    · rw [duplicated _ (by decide), duplicated _ (by decide)]
      rfl
    · rw [lane32_mmShuffleEpi32 _ _ (by decide)]
      rfl
  · omega

/-- Four consecutive words out of eight. -/
theorem lane32_spanOneThree {a b : M128i} (first : Words block t a)
    (second : Words block (t + 4) b) (inside : i < 4) :
    lane32 (spanOneThree a b) i = schedule block (t + 1 + i) := by
  unfold spanOneThree
  rw [lane32_mmShuffleEpi32 _ _ inside, lane32_mmMoveSs _ _ (by omega)]
  rcases i with _ | _ | _ | _ | i
  · exact first 1 (by decide)
  · exact first 2 (by decide)
  · exact first 3 (by decide)
  · exact second 0 (by decide)
  · omega

/-- `MSG4`. -/
theorem msg4_words {X0 X1 X2 X3 : M128i} (words0 : Words block t X0)
    (words1 : Words block (t + 4) X1) (words2 : Words block (t + 8) X2)
    (words3 : Words block (t + 12) X3) :
    Words block (t + 16) (msg4 X0 X1 X2 X3) := by
  -- The sum to which the second half of s1 is added.
  have sum (c : Nat) (inside : c < 4) {X4 : M128i}
      (isSum : X4 = mmAddEpi32 (mmAddEpi32 (mmAddEpi32 X0 (spanOneThree X2 X3))
        (s0_128 (spanOneThree X0 X1))) (s1_128Low X3)) :
      lane32 X4 c = schedule block (t + c) + schedule block (t + 9 + c) +
        smallSigma0 (schedule block (t + 1 + c)) +
        (if c < 2 then smallSigma1 (schedule block (t + 14 + c)) else 0) := by
    rw [isSum, lane32_mmAddEpi32 _ _ inside, lane32_mmAddEpi32 _ _ inside,
      lane32_mmAddEpi32 _ _ inside, lane32_s0_128 _ inside,
      lane32_s1_128Low _ inside, lane32_spanOneThree words2 words3 inside,
      lane32_spanOneThree words0 words1 inside, words0 c inside]
    split_ifs with early
    · have place : t + 12 + (c + 2) = t + 14 + c := by omega
      rw [words3 (c + 2) (by omega), place]
    · rfl
  unfold msg4
  dsimp only
  generalize isSum : mmAddEpi32 (mmAddEpi32 (mmAddEpi32 X0
    (spanOneThree X2 X3)) (s0_128 (spanOneThree X0 X1))) (s1_128Low X3) = X4
  have total (c : Nat) (inside : c < 4) :
      lane32 (mmAddEpi32 X4 (s1_128High X4)) c = lane32 X4 c +
        if c < 2 then 0 else smallSigma1 (lane32 X4 (c - 2)) := by
    rw [lane32_mmAddEpi32 _ _ inside, lane32_s1_128High _ inside]
  apply Words.next
  intro c inside
  rw [total c inside, sum c inside isSum.symm]
  split_ifs with early
  · exact UInt32.add_zero _
  · rw [total (c - 2) (by omega), if_pos (by omega), UInt32.add_zero,
      UInt32.add_zero]

/-! ## The loop -/

theorem storeuW_scheduled {W : Fin 64 → UInt32} {a : M128i}
    (scheduled : Scheduled block n W) (words : Words block n a) :
    Scheduled block (n + 4) (storeuW W n a) := by
  intro t before
  unfold storeuW mmStoreuWords
  by_cases isStored : n ≤ t.val
  · have place : n + (t.val - n) = t.val := by omega
    rw [if_pos ⟨isStored, before⟩, words (t - n) (by omega), place]
  · rw [if_neg (by omega)]
    exact scheduled t (by omega)

/-- The registers hold sixteen words, and `W` all words up to them. -/
structure Holds (block : List UInt8) (i : Nat) (state : Mixing) : Prop where
  Y0 : Words block i state.Y0
  Y1 : Words block (i + 4) state.Y1
  Y2 : Words block (i + 8) state.Y2
  Y3 : Words block (i + 12) state.Y3
  W : Scheduled block (i + 16) state.tmp32.W

variable {state : Mixing}

theorem Holds.msg16 (holds : Holds block i state) :
    Holds block (i + 16) (msg16 state i) := by
  have next0 := msg4_words holds.Y0 holds.Y1 holds.Y2 holds.Y3
  have next1 := msg4_words holds.Y1 holds.Y2 holds.Y3 next0
  have next2 := msg4_words holds.Y2 holds.Y3 next0 next1
  have next3 := msg4_words holds.Y3 next0 next1 next2
  have place : 16 + i = i + 16 := Nat.add_comm 16 i
  refine ⟨next0, next1, next2, next3, ?_⟩
  unfold Sha256Sse2Model.msg16
  dsimp only
  rw [place]
  have first := storeuW_scheduled holds.W next0
  have second := storeuW_scheduled first next1
  have third := storeuW_scheduled second next2
  exact storeuW_scheduled third next3

/-- The loop does the rounds that are left. -/
theorem Holds.mixSse2 {turns : Nat} (holds : Holds block i state)
    (rotated : Rotated 0 state.tmp32.S (rounds block hash i))
    (left : i + 16 * turns = 64) (more : turns ≠ 0) :
    Rotated 0 (mixSse2 state i turns).tmp32.S (rounds block hash 64) := by
  induction turns generalizing i state with
  | zero => exact absurd rfl more
  | succ turns ih =>
      have mixed := rndrs_rotated holds.W (by omega) rotated
      unfold Sha256Sse2Model.mixSse2
      dsimp only
      by_cases isLast : i = 48
      · rw [if_pos isLast]
        subst isLast
        exact mixed
      · rw [if_neg isLast]
        apply ih _ mixed (by omega) (by omega)
        exact Holds.msg16 ⟨holds.Y0, holds.Y1, holds.Y2, holds.Y3, holds.W⟩

/-- `SHA256_Transform_sse2` leaves the state that the compression function of
FIPS 180-4 gives, whatever was in `W` and `S`. -/
theorem sha256TransformSse2_eq_compress (hash : Fin 8 → UInt32)
    (block : List UInt8) (tmp32 : Tmp32) :
    (sha256TransformSse2 hash block tmp32).1 = compress hash block := by
  have words (d : Nat) (inside : d + 4 ≤ 16) :
      Words block d (mmBswapEpi32 (mmLoaduSi128 (block.drop (4 * d)))) :=
    mmBswapEpi32_words inside
  have none : Scheduled block 0 tmp32.W :=
    fun t before => absurd before (Nat.not_lt_zero t)
  have first := storeuW_scheduled none (words 0 (by decide))
  have second := storeuW_scheduled first (words 4 (by decide))
  have third := storeuW_scheduled second (words 8 (by decide))
  have fourth := storeuW_scheduled third (words 12 (by decide))
  have start : Rotated 0 hash (rounds block hash 0) := by
    intro r
    show hash (r - 0) = hash r
    rw [sub_zero]
  have holds : Holds block 0
      ⟨_, _, _, _, ⟨_, hash⟩⟩ :=
    ⟨words 0 (by decide), words 4 (by decide), words 8 (by decide),
      words 12 (by decide), fourth⟩
  have mixed := @Holds.mixSse2 block hash 0 _ 4 holds start rfl (by decide)
  funext r
  have variable_eq := mixed r
  have place : r - Fin.ofNat 8 0 = r := sub_zero r
  rw [place] at variable_eq
  show hash r + _ = rounds block hash 64 r + hash r
  rw [← variable_eq]
  exact UInt32.add_comm _ _

end Libcperciva.Alg.Sha256Sse2Transform
