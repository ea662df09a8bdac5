import Libcperciva.Alg.Sha256Model
import Libcperciva.Lib.Fips180
import Mathlib.Data.Fintype.Basic
import Mathlib.Tactic.FinCases
import Mathlib.Algebra.Group.Fin.Basic

/-!
# The compression function of SHA-256

The code leaves the working variables where they are and rotates their roles;
it prepares sixteen words of the message schedule at a time.  After `t` rounds
variable `r` is in word `r - t` of `S`.
-/

namespace Libcperciva.Alg.Sha256Transform

open Libcperciva.Lib.FinLiterals
open Libcperciva.Lib.Fips180
open Libcperciva.Util.Sysendian
open Libcperciva.Alg.Sha256Model

variable {block : List UInt8} {hash v S : Fin 8 → UInt32}
  {W : Fin 64 → UInt32} {i n t : Nat}

/-! ## Functions and constants -/

theorem Ch_eq_ch (x y z : UInt32) : Ch x y z = ch x y z := by
  unfold Ch ch
  apply UInt32.toBitVec_inj.mp
  ext i
  simp only [UInt32.toBitVec_xor, UInt32.toBitVec_and, UInt32.toBitVec_not,
    BitVec.getElem_xor, BitVec.getElem_and, BitVec.getElem_not]
  cases x.toBitVec[i] <;> cases y.toBitVec[i] <;> cases z.toBitVec[i] <;> rfl

theorem Maj_eq_maj (x y z : UInt32) : Maj x y z = maj x y z := by
  unfold Maj maj
  apply UInt32.toBitVec_inj.mp
  ext i
  simp only [UInt32.toBitVec_xor, UInt32.toBitVec_and, UInt32.toBitVec_or,
    BitVec.getElem_xor, BitVec.getElem_and, BitVec.getElem_or]
  cases x.toBitVec[i] <;> cases y.toBitVec[i] <;> cases z.toBitVec[i] <;> rfl

theorem krnd_eq_roundConstant :
    ∀ t : Fin 64, krnd.get t = roundConstant t := by
  decide +kernel

theorem initialState_eq_initialHash : initialState = initialHash := by
  have all : ∀ i, initialState i = initialHash i := by decide +kernel
  exact funext all

/-- `be32dec` reads a word. -/
theorem be32dec_eq_word (t : Nat) :
    be32dec (fun j => block.getD (t * 4 + j) 0) = word block t := by
  unfold be32dec word
  rw [Nat.mul_comm t 4]
  show (block.getD (4 * t + 3) 0).toUInt32 |||
    (block.getD (4 * t + 2) 0).toUInt32 <<< 8 |||
    (block.getD (4 * t + 1) 0).toUInt32 <<< 16 |||
    (block.getD (4 * t) 0).toUInt32 <<< 24 = _
  generalize block.getD (4 * t + 3) 0 = p3, block.getD (4 * t + 2) 0 = p2,
    block.getD (4 * t + 1) 0 = p1, block.getD (4 * t) 0 = p0
  apply UInt32.toBitVec_inj.mp
  apply BitVec.eq_of_getLsbD_eq
  intro i isBit
  have bits : (p0.toBitVec ++ p1.toBitVec ++ p2.toBitVec ++
      p3.toBitVec).getLsbD i =
        if i < 8 then p3.toBitVec.getLsbD i
        else if i - 8 < 8 then p2.toBitVec.getLsbD (i - 8)
        else if i - 8 - 8 < 8 then p1.toBitVec.getLsbD (i - 8 - 8)
        else p0.toBitVec.getLsbD (i - 8 - 8 - 8) := by
    rw [BitVec.getLsbD_append, BitVec.getLsbD_append, BitVec.getLsbD_append]
  apply Eq.trans _ bits.symm
  by_cases last : i < 8
  · rw [if_pos last]
    simp [last, isBit, (by omega : i < 16), (by omega : i < 24)]
  · have high := BitVec.getLsbD_of_ge p3.toBitVec i (Nat.le_of_not_lt last)
    rw [if_neg last]
    by_cases third : i < 16
    · rw [if_pos (by omega)]
      simp [last, high, isBit, third, (by omega : i < 24)]
    · have higher := BitVec.getLsbD_of_ge p2.toBitVec (i - 8) (by omega)
      rw [if_neg (by omega)]
      by_cases second : i < 24
      · rw [if_pos (by omega)]
        simp [last, high, isBit, third, higher, second, Nat.sub_sub]
      · have highest := BitVec.getLsbD_of_ge p1.toBitVec (i - 16) (by omega)
        rw [if_neg (by omega)]
        simp [last, high, isBit, third, higher, second, highest, Nat.sub_sub]

/-! ## Rounds -/

/-- The variables are where they should be after `i` rounds. -/
def Rotated (i : Nat) (S v : Fin 8 → UInt32) : Prop :=
  ∀ r, S (r - Fin.ofNat 8 i) = v r

/-- The numbers of the words may be replaced. -/
theorem rnd_comp {place : Fin 8 → Fin 8} (injective : place.Injective)
    (S : Fin 8 → UInt32) (a b c d e f g h : Fin 8) (k : UInt32) :
    rnd S (place a) (place b) (place c) (place d) (place e) (place f)
        (place g) (place h) k ∘ place =
      rnd (S ∘ place) a b c d e f g h k := by
  unfold rnd
  dsimp only
  simp only [Function.update_comp_eq_of_injective _ injective,
    Function.update_apply_of_injective _ injective]
  rfl

/-- A round where the variables are in order. -/
theorem rnd_in_order (v : Fin 8 → UInt32) (k w : UInt32) (q : Fin 8) :
    rnd v 0 1 2 3 4 5 6 7 (w + k) q = round k w v (q + 1) := by
  unfold rnd Lib.Fips180.round
  rw [Ch_eq_ch, Maj_eq_maj]
  have sum : v 7 + (S1 (v 4) + ch (v 4) (v 5) (v 6) + (w + k)) =
      v 7 + bigSigma1 (v 4) + ch (v 4) (v 5) (v 6) + k + w := by
    rw [UInt32.add_comm w k, ← UInt32.add_assoc, ← UInt32.add_assoc,
      ← UInt32.add_assoc]
    rfl
  fin_cases q <;> simp [sum]
  rfl

/-- The numbers of the words in round `i`. -/
theorem ofNat_sub (r : Nat) {i : Nat} (few : i ≤ 64) :
    Fin.ofNat 8 (64 + r - i) = Fin.ofNat 8 r - Fin.ofNat 8 i := by
  apply Fin.ext
  show (64 + r - i) % 8 = (8 - i % 8 + r % 8) % 8
  omega

/-- `RNDr` is the next round, with the variables one place further. -/
theorem rndr_rotated {ii : Nat} (rotated : Rotated i S v) (few : i ≤ 64)
    (inside : i + ii < 64)
    (prepared : W (Fin.ofNat 64 (i + ii)) = schedule block (i + ii)) :
    Rotated (i + 1) (rndr S W i ii)
      (round (roundConstant (i + ii)) (schedule block (i + ii)) v) := by
  have injective : Function.Injective fun r : Fin 8 => r - Fin.ofNat 8 i :=
    sub_left_injective
  have inOrder : S ∘ (fun r : Fin 8 => r - Fin.ofNat 8 i) = v :=
    funext rotated
  have constant : krnd.get (Fin.ofNat 64 (i + ii)) =
      roundConstant (i + ii) := by
    have same := krnd_eq_roundConstant (Fin.ofNat 64 (i + ii))
    rwa [Fin.val_ofNat, Nat.mod_eq_of_lt inside] at same
  intro r
  have place : r - Fin.ofNat 8 (i + 1) = (r - 1) - Fin.ofNat 8 i := by
    have next : Fin.ofNat 8 (i + 1) = Fin.ofNat 8 i + 1 := by
      apply Fin.ext
      show (i + 1) % 8 = (i % 8 + 1) % 8
      omega
    rw [next, sub_sub, add_comm]
  unfold rndr
  rw [place, prepared, constant]
  simp only [ofNat_sub _ few, show 64 - i = 64 + 0 - i from rfl,
    show 65 - i = 64 + 1 - i from rfl, show 66 - i = 64 + 2 - i from rfl,
    show 67 - i = 64 + 3 - i from rfl, show 68 - i = 64 + 4 - i from rfl,
    show 69 - i = 64 + 5 - i from rfl, show 70 - i = 64 + 6 - i from rfl,
    show 71 - i = 64 + 7 - i from rfl]
  have moved := congrFun (rnd_comp injective S 0 1 2 3 4 5 6 7
    (schedule block (i + ii) + roundConstant (i + ii))) (r - 1)
  rw [inOrder, rnd_in_order, sub_add_cancel] at moved
  exact moved

/-! ## The message schedule -/

/-- The first `n` words of the message schedule are there. -/
def Scheduled (block : List UInt8) (n : Nat) (W : Fin 64 → UInt32) : Prop :=
  ∀ t : Fin 64, t.val < n → W t = schedule block t

theorem Scheduled.word (scheduled : Scheduled block n W) (before : t < n)
    (inside : t < 64) : W (Fin.ofNat 64 t) = schedule block t := by
  have same : (Fin.ofNat 64 t).val = t := Nat.mod_eq_of_lt inside
  have entry := scheduled (Fin.ofNat 64 t) (by rwa [same])
  rwa [same] at entry

/-- The words of the block. -/
theorem be32decVect_scheduled (W : Fin 64 → UInt32) :
    Scheduled block 16 (be32decVect W block 64) := by
  intro t first
  unfold be32decVect schedule
  rw [if_pos (show t.val < 64 / 4 from first), if_pos first]
  exact be32dec_eq_word t

/-- `MSCH` prepares the next word. -/
theorem msch_scheduled {ii : Nat}
    (scheduled : Scheduled block (i + ii + 16) W) (inside : i + ii + 16 < 64) :
    Scheduled block (i + ii + 16 + 1) (msch W ii i) := by
  intro t before
  unfold msch
  have last : (Fin.ofNat 64 (i + ii + 16)).val = i + ii + 16 :=
    Nat.mod_eq_of_lt inside
  by_cases isLast : t = Fin.ofNat 64 (i + ii + 16)
  · have later : ¬ i + ii + 16 < 16 := by omega
    rw [isLast, Function.update_self, last,
      scheduled.word (by omega) (by omega),
      scheduled.word (by omega) (by omega),
      scheduled.word (by omega) (by omega),
      scheduled.word (by omega) (by omega)]
    conv => rhs; unfold schedule
    rw [if_neg later]
    rfl
  · rw [Function.update_of_ne isLast]
    apply scheduled t
    have other : t.val ≠ i + ii + 16 := fun equal =>
      isLast (Fin.ext (equal.trans last.symm))
    omega

/-! ## The loop -/

/-- Sixteen rounds. -/
theorem rndrs_rotated (scheduled : Scheduled block (i + 16) W)
    (inside : i + 16 ≤ 64) (rotated : Rotated 0 S (rounds block hash i)) :
    Rotated 0 (rndrs S W i) (rounds block hash (i + 16)) := by
  have some : ∀ count, count ≤ 16 →
      Rotated count ((List.range count).foldl (fun S j => rndr S W j i) S)
        (rounds block hash (i + count)) := by
    intro count
    induction count with
    | zero => exact fun _ => rotated
    | succ count ih =>
        intro few
        rw [List.range_succ, List.foldl_append]
        have prepared : W (Fin.ofNat 64 (count + i)) =
            schedule block (count + i) :=
          scheduled.word (by omega) (by omega)
        have next := rndr_rotated (ih (by omega)) (by omega) (by omega)
          prepared
        rw [Nat.add_comm count i] at next
        exact next
  exact some 16 (Nat.le_refl 16)

/-- Sixteen words of the message schedule. -/
theorem mschs_scheduled (scheduled : Scheduled block (i + 16) W)
    (inside : i + 32 ≤ 64) : Scheduled block (i + 32) (mschs W i) := by
  have some : ∀ count, count ≤ 16 →
      Scheduled block (i + count + 16)
        ((List.range count).foldl (fun W j => msch W j i) W) := by
    intro count
    induction count with
    | zero => exact fun _ => scheduled
    | succ count ih =>
        intro few
        rw [List.range_succ, List.foldl_append]
        have next := msch_scheduled (ih (by omega)) (by omega)
        rw [Nat.add_right_comm (i + count) 16 1] at next
        exact next
  exact some 16 (Nat.le_refl 16)

/-- The loop does the rounds that are left. -/
theorem mix_rotated {turns : Nat} {tmp32 : Tmp32}
    (scheduled : Scheduled block (i + 16) tmp32.W)
    (rotated : Rotated 0 tmp32.S (rounds block hash i))
    (left : i + 16 * turns = 64) (more : turns ≠ 0) :
    Rotated 0 (mix tmp32 i turns).S (rounds block hash 64) := by
  induction turns generalizing i tmp32 with
  | zero => exact absurd rfl more
  | succ turns ih =>
      have mixed := rndrs_rotated scheduled (by omega) rotated
      unfold mix
      dsimp only
      by_cases isLast : i = 48
      · rw [if_pos isLast]
        subst isLast
        exact mixed
      · rw [if_neg isLast]
        exact ih (mschs_scheduled scheduled (by omega)) mixed (by omega)
          (by omega)

/-- `SHA256_Transform` is the compression function. -/
theorem sha256Transform_eq_compress (hash : Fin 8 → UInt32)
    (block : List UInt8) (tmp32 : Tmp32) :
    (sha256Transform hash block tmp32).1 = compress hash block := by
  have start : Rotated 0 hash (rounds block hash 0) := by
    intro r
    show hash (r - 0) = hash r
    rw [sub_zero]
  have mixed := @mix_rotated block hash 0 4 ⟨_, hash⟩
    (be32decVect_scheduled tmp32.W) start rfl (by decide)
  funext r
  have variable_eq := mixed r
  have place : r - Fin.ofNat 8 0 = r := sub_zero r
  rw [place] at variable_eq
  show hash r + _ = rounds block hash 64 r + hash r
  rw [← variable_eq]
  exact UInt32.add_comm _ _

end Libcperciva.Alg.Sha256Transform
