import Libcperciva.Alg.Sha256ShaniModel
import Libcperciva.Alg.Sha256Transform
import Libcperciva.Intrinsics.X86Lanes
import Libcperciva.Lib.Fips180Lanes

/-!
# SHANI computes the compression function of SHA-256

Two registers hold the working variables, `A`, `B`, `E` and `F` in one of them
and `C`, `D`, `G` and `H` in the other; what was the first one is the second
one two rounds later.
-/

namespace Libcperciva.Alg.Sha256ShaniTransform

open Libcperciva.Intrinsics.X86
open Libcperciva.Intrinsics.X86Lanes
open Libcperciva.Lib.Fips180
open Libcperciva.Lib.Fips180Lanes
open Libcperciva.Lib.FinLiterals
open Libcperciva.Lib.Lanes
open Libcperciva.Alg.Sha256ShaniModel
open Libcperciva.Alg.Sha256Transform

variable {block : List UInt8} {hash v : Fin 8 → UInt32} {i t : Nat}

/-! ## Loading -/

/-- `I32` keeps the bits of its argument. -/
theorem ofInt_i32 (a : UInt32) : BitVec.ofInt 32 (i32 a) = a.toBitVec := by
  have small : a.toNat < 2 ^ 32 := a.toNat_lt
  apply BitVec.eq_of_toNat_eq
  rw [BitVec.toNat_ofInt]
  show (i32 a % (2 ^ 32 : Nat)).toNat = a.toNat
  unfold i32
  split_ifs with large
  · have complement : (0xffffffff - a).toNat = 0xffffffff - a.toNat := by
      rw [UInt32.toNat_sub_of_le]
      · rfl
      · show a.toNat ≤ 0xffffffff
        omega
    rw [complement]
    omega
  · omega

theorem lane32_imm4 (a b c d : UInt32) (inside : i < 4) :
    lane32 (imm4 a b c d) i =
      if i = 0 then d else if i = 1 then c else if i = 2 then b else a := by
  unfold lane32 imm4 mmSetEpi32
  rw [lane_ofLanes _ (by omega)]
  rcases i with _ | _ | _ | _ | i
  · exact congrArg UInt32.ofBitVec (ofInt_i32 d)
  · exact congrArg UInt32.ofBitVec (ofInt_i32 c)
  · exact congrArg UInt32.ofBitVec (ofInt_i32 b)
  · exact congrArg UInt32.ofBitVec (ofInt_i32 a)
  · omega

/-- The words of the block. -/
theorem be32dec128_words {d : Nat} (inside : d + 4 ≤ 16) :
    Words block d (be32dec128 (block.drop (4 * d))) := by
  apply Words.start inside
  intro j isByte
  have places : ∀ j < 16,
      (BitVec.ofNat 8 ([12, 13, 14, 15, 8, 9, 10, 11, 4, 5, 6, 7, 0, 1, 2,
        3].getD (15 - j) 0)).getLsbD 7 = false ∧
      (BitVec.ofNat 8 ([12, 13, 14, 15, 8, 9, 10, 11, 4, 5, 6, 7, 0, 1, 2,
        3].getD (15 - j) 0)).toNat % 16 = 4 * (j / 4) + (3 - j % 4) := by
    decide
  obtain ⟨positive, place⟩ := places j isByte
  unfold be32dec128 mmShuffleEpi8 mmSetEpi8 mmLoaduSi128
  dsimp only
  rw [lane_ofLanes _ (by omega), lane_ofLanes _ (by omega), positive, place,
    lane_ofLanes _ (by omega)]
  rfl

/-! ## Rounds -/

/-- The register of `A`, `B`, `E` and `F`. -/
def Abef (v : Fin 8 → UInt32) (r : M128i) : Prop :=
  lane32 r 3 = v 0 ∧ lane32 r 2 = v 1 ∧ lane32 r 1 = v 4 ∧ lane32 r 0 = v 5

/-- The register of `C`, `D`, `G` and `H`. -/
def Cdgh (v : Fin 8 → UInt32) (r : M128i) : Prop :=
  lane32 r 3 = v 2 ∧ lane32 r 2 = v 3 ∧ lane32 r 1 = v 6 ∧ lane32 r 0 = v 7

/-- The working variables of the standard, as those of the instruction. -/
def working (v : Fin 8 → UInt32) : Variables :=
  ⟨v 0, v 1, v 2, v 3, v 4, v 5, v 6, v 7⟩

theorem sha256Round_eq (v : Fin 8 → UInt32) (k w : UInt32) :
    sha256Round (working v) (w + k) = working (round k w v) := by
  unfold sha256Round working Lib.Fips180.round
  simp only [Variables.mk.injEq]
  refine ⟨?_, rfl, rfl, rfl, ?_, rfl, rfl, rfl⟩
  · show ch (v 4) (v 5) (v 6) + bigSigma1 (v 4) + (w + k) + v 7 +
      maj (v 0) (v 1) (v 2) + bigSigma0 (v 0) =
      v 7 + bigSigma1 (v 4) + ch (v 4) (v 5) (v 6) + k + w +
        (bigSigma0 (v 0) + maj (v 0) (v 1) (v 2))
    ac_rfl
  · show ch (v 4) (v 5) (v 6) + bigSigma1 (v 4) + (w + k) + v 7 + v 3 =
      v 3 + (v 7 + bigSigma1 (v 4) + ch (v 4) (v 5) (v 6) + k + w)
    ac_rfl

/-- Two rounds. -/
theorem mmSha256rnds2Epu32_spec {a b m : M128i} {k k' w w' : UInt32}
    (cdgh : Cdgh v a) (abef : Abef v b) (first : lane32 m 0 = w + k)
    (second : lane32 m 1 = w' + k') :
    Abef (round k' w' (round k w v)) (mmSha256rnds2Epu32 a b m) ∧
      Cdgh (round k' w' (round k w v)) b := by
  have start : Variables.mk (lane32 b 3) (lane32 b 2) (lane32 a 3)
      (lane32 a 2) (lane32 b 1) (lane32 b 0) (lane32 a 1) (lane32 a 0) =
        working v := by
    unfold working
    rw [abef.1, abef.2.1, abef.2.2.1, abef.2.2.2, cdgh.1, cdgh.2.1,
      cdgh.2.2.1, cdgh.2.2.2]
  constructor
  · unfold mmSha256rnds2Epu32
    dsimp only
    rw [start, first, second, sha256Round_eq, sha256Round_eq]
    refine ⟨?_, ?_, ?_, ?_⟩
    · exact lane32_ofLanes32 _ (by decide)
    · exact lane32_ofLanes32 _ (by decide)
    · exact lane32_ofLanes32 _ (by decide)
    · exact lane32_ofLanes32 _ (by decide)
  · exact abef

/-- `RND4`. -/
theorem rnd4_rounds {S : S01} {W : M128i} {K0 K1 K2 K3 : UInt32}
    (abef : Abef (rounds block hash t) S.S0)
    (cdgh : Cdgh (rounds block hash t) S.S1) (words : Words block t W)
    (isK0 : K0 = roundConstant t) (isK1 : K1 = roundConstant (t + 1))
    (isK2 : K2 = roundConstant (t + 2)) (isK3 : K3 = roundConstant (t + 3)) :
    Abef (rounds block hash (t + 4)) (rnd4 S W K0 K1 K2 K3).S0 ∧
      Cdgh (rounds block hash (t + 4)) (rnd4 S W K0 K1 K2 K3).S1 := by
  have sum (c : Nat) (inside : c < 4) :
      lane32 (mmAddEpi32 W (imm4 K3 K2 K1 K0)) c =
        schedule block (t + c) + if c = 0 then K0 else if c = 1 then K1
          else if c = 2 then K2 else K3 := by
    rw [lane32_mmAddEpi32 _ _ inside, lane32_imm4 _ _ _ _ inside,
      words c inside]
  unfold rnd4
  dsimp only
  obtain ⟨abef, cdgh⟩ := mmSha256rnds2Epu32_spec cdgh abef
    (sum 0 (by decide)) (sum 1 (by decide))
  have next := @mmSha256rnds2Epu32_spec _ _ _ _ K2 K3
    (schedule block (t + 2)) (schedule block (t + 3)) cdgh abef
    ((lane32_mmSrliSi128 _ 0).trans (sum 2 (by decide)))
    ((lane32_mmSrliSi128 _ 1).trans (sum 3 (by decide)))
  rw [isK0, isK1, isK2, isK3] at next ⊢
  exact next

/-! ## The message schedule -/

/-- `MSG4`. -/
theorem msg4_words {W : Fin 4 → M128i}
    (words0 : Words block t (W (Fin.ofNat 4 i)))
    (words1 : Words block (t + 4) (W (Fin.ofNat 4 (i + 1))))
    (words2 : Words block (t + 8) (W (Fin.ofNat 4 (i + 2))))
    (words3 : Words block (t + 12) (W (Fin.ofNat 4 (i + 3)))) :
    Words block (t + 16) (msg4 W i (Fin.ofNat 4 i)) ∧
      ∀ j, j ≠ Fin.ofNat 4 i → msg4 W i j = W j := by
  have other (d : Nat) (few : 0 < d ∧ d < 4) :
      Fin.ofNat 4 (i + d) ≠ Fin.ofNat 4 i := by
    intro same
    have values : (i + d) % 4 = i % 4 := congrArg Fin.val same
    omega
  simp only [msg4, Nat.add_zero]
  constructor
  · rw [Function.update_self, Function.update_self,
      Function.update_self, Function.update_of_ne (other 3 (by decide)),
      Function.update_of_ne (other 2 (by decide)),
      Function.update_of_ne (other 3 (by decide)),
      Function.update_of_ne (other 3 (by decide))]
    generalize isThird : mmAddEpi32 (mmSha256msg1Epu32 (W (Fin.ofNat 4 i))
      (W (Fin.ofNat 4 (i + 1)))) (mmAlignrEpi8 (W (Fin.ofNat 4 (i + 3)))
      (W (Fin.ofNat 4 (i + 2))) 4) = x
    have sum (c : Nat) (inside : c < 4) :
        lane32 x c = schedule block (t + c) + schedule block (t + 9 + c) +
          smallSigma0 (schedule block (t + 1 + c)) := by
      rw [← isThird, lane32_mmAddEpi32 _ _ inside,
        lane32_mmSha256msg1Epu32 _ _ inside, lane32_mmAlignrEpi8 _ _ inside,
        words0 c inside]
      split_ifs with low
      · have first : t + (c + 1) = t + 1 + c := by omega
        have second : t + 8 + (c + 1) = t + 9 + c := by omega
        rw [words0 (c + 1) (by omega), words2 (c + 1) (by omega), first,
          second]
        ac_rfl
      · obtain rfl : c = 3 := by omega
        rw [words1 0 (by decide), words3 0 (by decide)]
        ac_rfl
    apply Words.next
    intro c inside
    rw [lane32_mmSha256msg2Epu32 _ _ inside, sum c inside]
    split_ifs with early
    · have place : t + 12 + (c + 2) = t + 14 + c := by omega
      rw [words3 (c + 2) (by omega), place]
    · rfl
  · intro j isOther
    rw [Function.update_of_ne isOther, Function.update_of_ne isOther,
      Function.update_of_ne isOther]

/-! ## The function -/

/-- The registers after some rounds; those of `W` hold the words for the next
sixteen rounds, as far as there are any. -/
structure Holds (block : List UInt8) (hash : Fin 8 → UInt32) (i : Nat)
    (state : Mixing) : Prop where
  abef : Abef (rounds block hash (4 * i)) state.S.S0
  cdgh : Cdgh (rounds block hash (4 * i)) state.S.S1
  words : ∀ j < 4, i + j < 16 →
    Words block (4 * (i + j)) (state.W (Fin.ofNat 4 (i + j)))

/-- `RNDMSG`. -/
theorem Holds.rndmsg {state : Mixing} (holds : Holds block hash i state)
    (inside : i < 16) {K0 K1 K2 K3 : UInt32}
    (constants : [K0, K1, K2, K3] = (List.range 4).map fun d =>
      Sha256Model.krnd.get (Fin.ofNat 64 (4 * i + d))) :
    Holds block hash (i + 1) (rndmsg state i K0 K1 K2 K3) := by
  have constant (d : Nat) (few : d < 4) :
      Sha256Model.krnd.get (Fin.ofNat 64 (4 * i + d)) =
        roundConstant (4 * i + d) := by
    rw [krnd_eq_roundConstant, Fin.val_ofNat, Nat.mod_eq_of_lt (by omega)]
  obtain ⟨isK0, isK1, isK2, isK3⟩ : K0 = _ ∧ K1 = _ ∧ K2 = _ ∧ K3 = _ := by
    simpa [List.range_succ] using constants
  have isK0 := isK0.trans (constant 0 (by decide))
  have isK1 := isK1.trans (constant 1 (by decide))
  have isK2 := isK2.trans (constant 2 (by decide))
  have isK3 := isK3.trans (constant 3 (by decide))
  have words := holds.words 0 (by decide) inside
  obtain ⟨abef, cdgh⟩ :=
    rnd4_rounds holds.abef holds.cdgh words isK0 isK1 isK2 isK3
  refine ⟨abef, cdgh, ?_⟩
  intro j few within
  unfold Sha256ShaniModel.rndmsg
  dsimp only
  by_cases more : i < 12
  · have same (d : Nat) : Fin.ofNat 4 (i + 4 + d) = Fin.ofNat 4 (i + d) := by
      apply Fin.ext
      show (i + 4 + d) % 4 = (i + d) % 4
      omega
    have held (d : Nat) (isWord : d < 4) :
        Words block (4 * i + 4 * d) (state.W (Fin.ofNat 4 (i + 4 + d))) := by
      rw [same, ← Nat.mul_add]
      exact holds.words d isWord (by omega)
    obtain ⟨new, old⟩ := msg4_words (held 0 (by decide)) (held 1 (by decide))
      (held 2 (by decide)) (held 3 (by decide))
    rw [if_pos more]
    by_cases isNew : j = 3
    · subst isNew
      have place : 4 * i + 16 = 4 * (i + 1 + 3) := by omega
      rw [← place]
      exact new
    · have isOther : Fin.ofNat 4 (i + 1 + j) ≠ Fin.ofNat 4 (i + 4) := by
        intro equal
        have values : (i + 1 + j) % 4 = (i + 4) % 4 := congrArg Fin.val equal
        omega
      rw [old _ isOther, Nat.add_assoc i 1 j]
      exact holds.words (1 + j) (by omega) (by omega)
  · rw [if_neg more, Nat.add_assoc i 1 j]
    exact holds.words (1 + j) (by omega) (by omega)

/-- All rounds. -/
theorem Holds.rounds64 {state : Mixing} (holds : Holds block hash 0 state) :
    Holds block hash 16 (rounds64 state) := by
  unfold Sha256ShaniModel.rounds64
  apply Holds.rndmsg (i := 15) _ (by decide) rfl
  apply Holds.rndmsg (i := 14) _ (by decide) rfl
  apply Holds.rndmsg (i := 13) _ (by decide) rfl
  apply Holds.rndmsg (i := 12) _ (by decide) rfl
  apply Holds.rndmsg (i := 11) _ (by decide) rfl
  apply Holds.rndmsg (i := 10) _ (by decide) rfl
  apply Holds.rndmsg (i := 9) _ (by decide) rfl
  apply Holds.rndmsg (i := 8) _ (by decide) rfl
  apply Holds.rndmsg (i := 7) _ (by decide) rfl
  apply Holds.rndmsg (i := 6) _ (by decide) rfl
  apply Holds.rndmsg (i := 5) _ (by decide) rfl
  apply Holds.rndmsg (i := 4) _ (by decide) rfl
  apply Holds.rndmsg (i := 3) _ (by decide) rfl
  apply Holds.rndmsg (i := 2) _ (by decide) rfl
  apply Holds.rndmsg (i := 1) _ (by decide) rfl
  exact holds.rndmsg (by decide) rfl

theorem lane32_reversed (r : M128i) (inside : i < 4) :
    lane32 (mmShuffleEpi32 r 0x1B) i = lane32 r (3 - i) := by
  have places : ∀ i < 4, 0x1B / 4 ^ i % 4 = 3 - i := by decide
  rw [lane32_mmShuffleEpi32 _ _ inside, places i inside]

/-- The state in the order of the instructions. -/
theorem loaded (hash : Fin 8 → UInt32) {S0123 S4567 : M128i}
    (is0123 : S0123 = mmShuffleEpi32
      (mmLoaduWords fun i => hash (Fin.ofNat 8 i)) 0x1B)
    (is4567 : S4567 = mmShuffleEpi32
      (mmLoaduWords fun i => hash (Fin.ofNat 8 (4 + i))) 0x1B) :
    Abef hash (mmUnpackhiEpi64 S4567 S0123) ∧
      Cdgh hash (mmUnpackloEpi64 S4567 S0123) := by
  have first (c : Nat) (inside : c < 4) :
      lane32 S0123 c = hash (Fin.ofNat 8 (3 - c)) := by
    rw [is0123, lane32_reversed _ inside]
    exact lane32_ofLanes32 _ (by omega)
  have second (c : Nat) (inside : c < 4) :
      lane32 S4567 c = hash (Fin.ofNat 8 (4 + (3 - c))) := by
    rw [is4567, lane32_reversed _ inside]
    exact lane32_ofLanes32 _ (by omega)
  refine ⟨⟨?_, ?_, ?_, ?_⟩, ?_, ?_, ?_, ?_⟩
  · exact (lane32_mmUnpackhiEpi64 _ _ (by decide)).trans (first 3 (by decide))
  · exact (lane32_mmUnpackhiEpi64 _ _ (by decide)).trans (first 2 (by decide))
  · exact (lane32_mmUnpackhiEpi64 _ _ (by decide)).trans (second 3 (by decide))
  · exact (lane32_mmUnpackhiEpi64 _ _ (by decide)).trans (second 2 (by decide))
  · exact (lane32_mmUnpackloEpi64 _ _ (by decide)).trans (first 1 (by decide))
  · exact (lane32_mmUnpackloEpi64 _ _ (by decide)).trans (first 0 (by decide))
  · exact (lane32_mmUnpackloEpi64 _ _ (by decide)).trans (second 1 (by decide))
  · exact (lane32_mmUnpackloEpi64 _ _ (by decide)).trans (second 0 (by decide))

/-- The state in the order of memory. -/
theorem stored {x y : M128i} (abef : Abef v x) (cdgh : Cdgh v y) (i : Fin 8) :
    (if i.val < 4 then
        mmStoreuWords (mmShuffleEpi32 (mmUnpackhiEpi64 y x) 0x1B) i
      else mmStoreuWords (mmShuffleEpi32 (mmUnpackloEpi64 y x) 0x1B) (i - 4)) =
        v i := by
  have high (c : Nat) (inside : c < 4) :
      mmStoreuWords (mmShuffleEpi32 (mmUnpackhiEpi64 y x) 0x1B) c =
        if 3 - c < 2 then lane32 y (2 + (3 - c)) else lane32 x (3 - c) :=
    (lane32_reversed _ inside).trans (lane32_mmUnpackhiEpi64 _ _ (by omega))
  have low (c : Nat) (inside : c < 4) :
      mmStoreuWords (mmShuffleEpi32 (mmUnpackloEpi64 y x) 0x1B) c =
        if 3 - c < 2 then lane32 y (3 - c) else lane32 x (3 - c - 2) :=
    (lane32_reversed _ inside).trans (lane32_mmUnpackloEpi64 _ _ (by omega))
  fin_cases i
  · exact (high 0 (by decide)).trans abef.1
  · exact (high 1 (by decide)).trans abef.2.1
  · exact (high 2 (by decide)).trans cdgh.1
  · exact (high 3 (by decide)).trans cdgh.2.1
  · exact (low 0 (by decide)).trans abef.2.2.1
  · exact (low 1 (by decide)).trans abef.2.2.2
  · exact (low 2 (by decide)).trans cdgh.2.2.1
  · exact (low 3 (by decide)).trans cdgh.2.2.2

/-- The start of the loop. -/
theorem Holds.start {S0 S1 : M128i} (abef : Abef hash S0)
    (cdgh : Cdgh hash S1) (block : List UInt8) :
    Holds block hash 0
      ⟨⟨S0, S1⟩, fun i => be32dec128 (block.drop (16 * i))⟩ := by
  refine ⟨abef, cdgh, ?_⟩
  intro j few _
  have place : (Fin.ofNat 4 (0 + j)).val = j := by
    show (0 + j) % 4 = j
    omega
  have words := @be32dec128_words block (4 * (0 + j)) (by omega)
  have bytes : 16 * j = 4 * (4 * (0 + j)) := by omega
  dsimp only
  rw [place, bytes]
  exact words

/-- The final additions. -/
theorem Abef.add {u : Fin 8 → UInt32} {x y : M128i} (first : Abef u x)
    (second : Abef v y) : Abef (fun i => u i + v i) (mmAddEpi32 x y) := by
  have sum (c : Nat) (inside : c < 4) {p q : UInt32} (isP : lane32 x c = p)
      (isQ : lane32 y c = q) : lane32 (mmAddEpi32 x y) c = p + q := by
    rw [lane32_mmAddEpi32 _ _ inside, isP, isQ]
  exact ⟨sum 3 (by decide) first.1 second.1,
    sum 2 (by decide) first.2.1 second.2.1,
    sum 1 (by decide) first.2.2.1 second.2.2.1,
    sum 0 (by decide) first.2.2.2 second.2.2.2⟩

theorem Cdgh.add {u : Fin 8 → UInt32} {x y : M128i} (first : Cdgh u x)
    (second : Cdgh v y) : Cdgh (fun i => u i + v i) (mmAddEpi32 x y) := by
  have sum (c : Nat) (inside : c < 4) {p q : UInt32} (isP : lane32 x c = p)
      (isQ : lane32 y c = q) : lane32 (mmAddEpi32 x y) c = p + q := by
    rw [lane32_mmAddEpi32 _ _ inside, isP, isQ]
  exact ⟨sum 3 (by decide) first.1 second.1,
    sum 2 (by decide) first.2.1 second.2.1,
    sum 1 (by decide) first.2.2.1 second.2.2.1,
    sum 0 (by decide) first.2.2.2 second.2.2.2⟩

/-- `SHA256_Transform_shani` leaves the state that the compression function of
FIPS 180-4 gives. -/
theorem sha256TransformShani_eq_compress (hash : Fin 8 → UInt32)
    (block : List UInt8) :
    sha256TransformShani hash block = compress hash block := by
  obtain ⟨abef, cdgh⟩ := loaded hash rfl rfl
  have done := (Holds.start abef cdgh block).rounds64
  funext i
  exact (stored (abef.add done.abef) (cdgh.add done.cdgh) i).trans
    (UInt32.add_comm (hash i) _)

end Libcperciva.Alg.Sha256ShaniTransform
