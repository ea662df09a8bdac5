import Libcperciva.Alg.Sha1Model
import Libcperciva.Alg.Sha256Transform
import Libcperciva.Lib.Sha1

/-!
# The compression function of SHA-1

The code leaves the working variables where they are and rotates their roles.
After `t` rounds variable `r` is in word `r - t` of `S`.
-/

namespace Libcperciva.Alg.Sha1Transform

open Libcperciva.Lib
open Libcperciva.Lib.FinLiterals
open Libcperciva.Util.Sysendian
open Libcperciva.Alg.Sha256Transform (be32dec_eq_word Ch_eq_ch Maj_eq_maj)
open Libcperciva.Alg.CountedModel
open Libcperciva.Alg.Sha1Model

variable {block : List UInt8} {hash v S : Fin 5 → UInt32}
  {W : Fin 80 → UInt32} {i n t : Nat}

/-! ## The message schedule -/

/-- The first `n` words of the message schedule are there. -/
def Scheduled (block : List UInt8) (n : Nat) (W : Fin 80 → UInt32) : Prop :=
  ∀ t < n, W (Fin.ofNat 80 t) = Sha1.schedule block t

/-- The words of the block. -/
theorem decVect_scheduled :
    Scheduled block 16 fun i => decVect be32dec block (Fin.ofNat 16 i) := by
  intro t first
  have place : (Fin.ofNat 16 (Fin.ofNat 80 t).val).val = t := by
    show t % 80 % 16 = t
    omega
  unfold Sha1.schedule decVect
  dsimp only
  rw [if_pos first, place]
  exact be32dec_eq_word t

/-- A turn of the loop prepares the next word. -/
theorem expand_scheduled (scheduled : Scheduled block n W) (many : 16 ≤ n)
    (inside : n < 80) : Scheduled block (n + 1) (expand W n) := by
  intro t before
  unfold expand
  by_cases isLast : t = n
  · subst isLast
    have later : ¬ t < 16 := Nat.not_lt.mpr many
    rw [Function.update_self, Function.update_self,
      scheduled _ (by omega), scheduled _ (by omega), scheduled _ (by omega),
      scheduled _ (by omega)]
    conv => rhs; unfold Sha1.schedule
    rw [if_neg later]
    rfl
  · have other : Fin.ofNat 80 t ≠ Fin.ofNat 80 n := by
      intro equal
      have values : t % 80 = n % 80 := congrArg Fin.val equal
      omega
    rw [Function.update_of_ne other, Function.update_of_ne other]
    exact scheduled t (by omega)

/-- The loop prepares all words. -/
theorem expanded_scheduled (scheduled : Scheduled block 16 W) (count : Nat)
    (inside : count ≤ 64) :
    Scheduled block (16 + count)
      ((List.range count).foldl (fun W j => expand W (16 + j)) W) := by
  induction count with
  | zero => exact scheduled
  | succ count ih =>
      rw [List.range_succ, List.foldl_append]
      have before := ih (by omega)
      have many : 16 ≤ 16 + count := Nat.le_add_right 16 count
      have within : 16 + count < 80 := by omega
      exact expand_scheduled before many within

/-! ## Rounds -/

/-- The variables are where they should be after `i` rounds. -/
def Rotated (i : Nat) (S v : Fin 5 → UInt32) : Prop :=
  ∀ r, S (r - Fin.ofNat 5 i) = v r

/-- The numbers of the words may be replaced. -/
theorem rnd_comp {place : Fin 5 → Fin 5} (injective : place.Injective)
    (f : UInt32 → UInt32 → UInt32 → UInt32) (constant : UInt32)
    (S : Fin 5 → UInt32) (a b c d e : Fin 5) (k : UInt32) :
    rnd f constant S (place a) (place b) (place c) (place d) (place e) k ∘
        place =
      rnd f constant (S ∘ place) a b c d e k := by
  unfold rnd
  dsimp only
  simp only [Function.update_comp_eq_of_injective _ injective,
    Function.update_apply_of_injective _ injective]
  rfl

/-- A round where the variables are in order. -/
theorem rnd_in_order (v : Fin 5 → UInt32) (t : Nat) (w : UInt32)
    (q : Fin 5) :
    rnd (Sha1.f t) (Sha1.K t) v 0 1 2 3 4 w q =
      Sha1.round t w v (q + 1) := by
  unfold rnd Sha1.round
  have sum : ROTL (v 0) 5 + Sha1.f t (v 1) (v 2) (v 3) + v 4 + w + Sha1.K t =
      Sha1.rotl 5 (v 0) + Sha1.f t (v 1) (v 2) (v 3) + v 4 + Sha1.K t + w := by
    rw [UInt32.add_assoc, UInt32.add_comm w, ← UInt32.add_assoc]
    rfl
  fin_cases q <;> simp [sum]
  rfl

/-- The numbers of the words in round `i`. -/
theorem ofNat_sub (r : Nat) {i : Nat} (few : i ≤ 80) :
    Fin.ofNat 5 (80 + r - i) = Fin.ofNat 5 r - Fin.ofNat 5 i := by
  apply Fin.ext
  show (80 + r - i) % 5 = (5 - i % 5 + r % 5) % 5
  omega

/-- Each call of a round function is the next round, with the variables one
place further. -/
theorem rndr_rotated (rotated : Rotated i S v) (inside : i < 80)
    (scheduled : Scheduled block 80 W) :
    Rotated (i + 1) (rndr (rnd (Sha1.f i) (Sha1.K i)) S W i)
      (Sha1.round i (Sha1.schedule block i) v) := by
  have injective : Function.Injective fun r : Fin 5 => r - Fin.ofNat 5 i :=
    sub_left_injective
  have inOrder : S ∘ (fun r : Fin 5 => r - Fin.ofNat 5 i) = v :=
    funext rotated
  have few : i ≤ 80 := Nat.le_of_lt inside
  intro r
  have place : r - Fin.ofNat 5 (i + 1) = (r - 1) - Fin.ofNat 5 i := by
    have next : Fin.ofNat 5 (i + 1) = Fin.ofNat 5 i + 1 := by
      apply Fin.ext
      show (i + 1) % 5 = (i % 5 + 1) % 5
      omega
    rw [next, sub_sub, add_comm]
  unfold rndr
  rw [place, scheduled i inside]
  simp only [ofNat_sub _ few, show 80 - i = 80 + 0 - i from rfl,
    show 81 - i = 80 + 1 - i from rfl, show 82 - i = 80 + 2 - i from rfl,
    show 83 - i = 80 + 3 - i from rfl, show 84 - i = 80 + 4 - i from rfl]
  have moved := congrFun (rnd_comp injective (Sha1.f i) (Sha1.K i) S 0 1 2 3 4
    (Sha1.schedule block i)) (r - 1)
  rw [inOrder, rnd_in_order, sub_add_cancel] at moved
  exact moved

/-- Twenty rounds. -/
theorem calls_rotated {op : (Fin 5 → UInt32) → Fin 5 → Fin 5 → Fin 5 →
      Fin 5 → Fin 5 → UInt32 → Fin 5 → UInt32} {first : Nat}
    (isRound : ∀ j < 20, op = rnd (Sha1.f (first + j)) (Sha1.K (first + j)))
    (inside : first + 20 ≤ 80) (scheduled : Scheduled block 80 W)
    (rotated : Rotated first S (Sha1.rounds block hash first)) :
    Rotated (first + 20) (calls op W first S)
      (Sha1.rounds block hash (first + 20)) := by
  have some : ∀ count, count ≤ 20 →
      Rotated (first + count)
        ((List.range count).foldl (fun S j => rndr op S W (first + j)) S)
        (Sha1.rounds block hash (first + count)) := by
    intro count
    induction count with
    | zero => exact fun _ => rotated
    | succ count ih =>
        intro few
        rw [List.range_succ, List.foldl_append]
        have next := rndr_rotated (ih (by omega)) (by omega) scheduled
        rw [← isRound count few] at next
        exact next
  exact some 20 (Nat.le_refl 20)

/-! ## The functions of the rounds -/

theorem RND0_eq : ∀ j < 20, RND0 = rnd (Sha1.f (0 + j)) (Sha1.K (0 + j)) := by
  intro j few
  have isCh : Ch = Fips180.ch := by
    funext x y z
    exact Ch_eq_ch x y z
  have within : 0 + j < 20 := by omega
  unfold RND0 Sha1.f Sha1.K
  rw [if_pos within, if_pos within, isCh]

theorem RND1_eq : ∀ j < 20,
    RND1 = rnd (Sha1.f (20 + j)) (Sha1.K (20 + j)) := by
  intro j few
  have past : ¬ 20 + j < 20 := by omega
  have within : 20 + j < 40 := by omega
  unfold RND1 Sha1.f Sha1.K
  rw [if_neg past, if_neg past, if_pos within, if_pos within]
  rfl

theorem RND2_eq : ∀ j < 20,
    RND2 = rnd (Sha1.f (40 + j)) (Sha1.K (40 + j)) := by
  intro j few
  have isMaj : Maj = Fips180.maj := by
    funext x y z
    exact Maj_eq_maj x y z
  have past : ¬ 40 + j < 20 := by omega
  have beyond : ¬ 40 + j < 40 := by omega
  have within : 40 + j < 60 := by omega
  unfold RND2 Sha1.f Sha1.K
  rw [if_neg past, if_neg past, if_neg beyond, if_neg beyond, if_pos within,
    if_pos within, isMaj]

theorem RND3_eq : ∀ j < 20,
    RND3 = rnd (Sha1.f (60 + j)) (Sha1.K (60 + j)) := by
  intro j few
  have past : ¬ 60 + j < 20 := by omega
  have beyond : ¬ 60 + j < 40 := by omega
  have far : ¬ 60 + j < 60 := by omega
  unfold RND3 Sha1.f Sha1.K
  rw [if_neg past, if_neg past, if_neg beyond, if_neg beyond, if_neg far,
    if_neg far]
  rfl

/-- `SHA1_Transform` is the compression function. -/
theorem sha1Transform_eq_compress : sha1Transform = Sha1.compress := by
  funext hash block r
  have scheduled := expanded_scheduled (@decVect_scheduled block) 64
    (Nat.le_refl 64)
  have start : Rotated 0 hash (Sha1.rounds block hash 0) := by
    intro r
    show hash (r - 0) = hash r
    rw [sub_zero]
  have first := calls_rotated RND0_eq (by decide) scheduled start
  have second := calls_rotated RND1_eq (by decide) scheduled first
  have third := calls_rotated RND2_eq (by decide) scheduled second
  have fourth := calls_rotated RND3_eq (by decide) scheduled third
  have variable_eq := fourth r
  have place : r - Fin.ofNat 5 (60 + 20) = r := sub_zero r
  rw [place] at variable_eq
  unfold Sha1.compress
  rw [show 80 = 60 + 20 from rfl, ← variable_eq]
  exact UInt32.add_comm _ _

end Libcperciva.Alg.Sha1Transform
