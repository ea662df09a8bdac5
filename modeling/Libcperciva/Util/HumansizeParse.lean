import Libcperciva.Util.HumansizeModel
import Mathlib.Data.List.TakeWhile

/-!
# Which strings `humansize_parse` accepts

The states of the loop are the places in the expression
`[0-9]+ ?[kMGTPE]?B?` at which a string can be.  For each state, from the last
one to the first, a theorem says which strings lead from it to success.
-/

namespace Libcperciva.Util.HumansizeParse

open Libcperciva.Util.Cstring
open Libcperciva.Util.HumansizeModel

variable {s junk digits rest : List UInt8} {c : UInt8} {p : Parse}
  {k size : Nat}

/-! ## The expression -/

/-- `[kMGTPE]?`, with the power of 1000 that it stands for. -/
inductive IsPrefix : List UInt8 → Nat → Prop where
  | none : IsPrefix [] 0
  | kilo : IsPrefix [107] 1
  | mega : IsPrefix [77] 2
  | giga : IsPrefix [71] 3
  | tera : IsPrefix [84] 4
  | peta : IsPrefix [80] 5
  | exa : IsPrefix [69] 6

/-- `B?`. -/
def IsByte (s : List UInt8) : Prop := s = [] ∨ s = [66]

/-- `[kMGTPE]?B?`. -/
def IsUnit (s : List UInt8) (k : Nat) : Prop :=
  ∃ si b, s = si ++ b ∧ IsPrefix si k ∧ IsByte b

/-- ` ?[kMGTPE]?B?`. -/
def IsTail (s : List UInt8) (k : Nat) : Prop :=
  ∃ space unit, s = space ++ unit ∧ (space = [] ∨ space = [32]) ∧
    IsUnit unit k

/-- `[0-9]+ ?[kMGTPE]?B?`. -/
structure IsSize (s digits : List UInt8) (k : Nat) : Prop where
  nonempty : digits ≠ []
  areDigits : ∀ c ∈ digits, IsDigit c
  tail : ∃ rest, s = digits ++ rest ∧ IsTail rest k

/-- The number of bytes that a size stands for. -/
def bytes (digits : List UInt8) (k : Nat) : Nat :=
  digitsValue 10 digits * 1000 ^ k

/-! ## The loop -/

/-- The turns at the characters of a string. -/
def turns (s : List UInt8) (p : Parse) : Parse :=
  s.foldl (fun p c => turn c p) p

theorem turns_cons : turns (c :: s) p = turns s (turn c p) := rfl

theorem turn_error (isError : p.state = -1) : turn c p = p := by
  unfold turn
  rw [isError]
  rfl

theorem turns_error (isError : p.state = -1) : turns s p = p := by
  induction s with
  | nil => rfl
  | cons c s ih => rw [turns_cons, turn_error isError, ih]

/-- The loop ends at the NUL or earlier. -/
theorem parseLoop_turns (noNul : 0 ∉ c :: s) :
    parseLoop (c :: s ++ 0 :: junk) p = .ok (turns (c :: s) p) := by
  induction s generalizing c p with
  | nil =>
      show (if (turn c p).state = -1 then Except.ok (turn c p)
        else if (0 : UInt8) ≠ 0 then parseLoop (0 :: junk) (turn c p)
        else .ok (turn c p)) = _
      rw [if_neg (show ¬ (0 : UInt8) ≠ 0 from not_not_intro rfl), ite_self]
      rfl
  | cons d s ih =>
      have later : 0 ∉ d :: s := fun member =>
        noNul (List.mem_cons_of_mem c member)
      have notNul : d ≠ 0 := by
        rintro rfl
        exact later List.mem_cons_self
      show (if (turn c p).state = -1 then Except.ok (turn c p)
        else if d ≠ 0 then parseLoop (d :: s ++ 0 :: junk) (turn c p)
        else .ok (turn c p)) = _
      rw [turns_cons]
      by_cases isError : (turn c p).state = -1
      · rw [if_pos isError, turns_error isError]
      · rw [if_neg isError, if_pos notNul, ih later]

/-! ## The last states -/

/-- The result is a success, and the unit of the size is a power of 1000. -/
structure Accepts (p : Parse) (k : Nat) : Prop where
  success : p.state ≠ -1
  multiplier : p.multiplier = 1000 ^ k

/-- A result for each string that a state accepts, and only for these. -/
structure Recognises (s : List UInt8) (p : Parse)
    (form : List UInt8 → Nat → Prop) : Prop where
  size : (turns s p).size = p.size
  accepts : ∀ k, form s k ↔ Accepts (turns s p) k
  known : (turns s p).state ≠ -1 → ∃ k, (turns s p).multiplier = 1000 ^ k

theorem turns_case5 (atEnd : p.state = 5) :
    turns s p = if s = [] then p else case5 p := by
  cases s with
  | nil => rfl
  | cons c s =>
      have turned : turn c p = case5 p := by
        unfold turn
        rw [atEnd]
        rfl
      rw [turns_cons, turned, turns_error rfl, if_neg (List.cons_ne_nil c s)]

/-- After the prefix there is `B?`. -/
theorem turns_case4 (atByte : p.state = 4) :
    (turns s p).size = p.size ∧ (turns s p).multiplier = p.multiplier ∧
      ((turns s p).state ≠ -1 ↔ IsByte s) := by
  cases s with
  | nil =>
      refine ⟨rfl, rfl, fun _ => Or.inl rfl, fun _ => ?_⟩
      show p.state ≠ -1
      rw [atByte]
      decide
  | cons c s =>
      have turned : turn c p = case4 c p := by
        unfold turn
        rw [atByte]
        rfl
      rw [turns_cons, turned]
      unfold case4
      by_cases isB : c = 66
      · rw [if_pos isB, turns_case5 rfl]
        by_cases isLast : s = []
        · rw [if_pos isLast, isB, isLast]
          refine ⟨rfl, rfl, fun _ => Or.inr rfl, fun _ => ?_⟩
          show (5 : Int) ≠ -1
          decide
        · rw [if_neg isLast]
          refine ⟨rfl, rfl, fun ok => absurd rfl ok, ?_⟩
          rintro (none | one)
          · exact absurd none (List.cons_ne_nil _ _)
          · exact absurd (List.cons.inj one).2 isLast
      · rw [if_neg isB, turns_error rfl]
        refine ⟨rfl, rfl, fun ok => absurd rfl ok, ?_⟩
        rintro (none | one)
        · exact absurd none (List.cons_ne_nil _ _)
        · exact absurd (List.cons.inj one).1 isB

/-- A prefix scales the size by a power of 1000. -/
theorem scale_spec (c : UInt8) :
    (scale c 1 = 1 ∧ ∀ k, ¬ IsPrefix [c] k) ∨
      ∃ k, scale c 1 = 1000 ^ k ∧ 0 < k ∧ IsPrefix [c] k := by
  unfold scale
  dsimp only
  split_ifs with exa peta tera giga mega kilo
  · exact Or.inr ⟨6, by decide, by decide, exa ▸ .exa⟩
  · exact Or.inr ⟨5, by decide, by decide, peta ▸ .peta⟩
  · exact Or.inr ⟨4, by decide, by decide, tera ▸ .tera⟩
  · exact Or.inr ⟨3, by decide, by decide, giga ▸ .giga⟩
  · exact Or.inr ⟨2, by decide, by decide, mega ▸ .mega⟩
  · exact Or.inr ⟨1, by decide, by decide, kilo ▸ .kilo⟩
  · refine Or.inl ⟨rfl, fun k isPrefix => ?_⟩
    cases isPrefix <;> contradiction

theorem IsPrefix.unique {k' : Nat} (isPrefix : IsPrefix s k)
    (isPrefix' : IsPrefix s k') : k = k' := by
  cases isPrefix <;> cases isPrefix' <;> rfl

theorem IsPrefix.eq_nil_or_singleton (isPrefix : IsPrefix s k) :
    s = [] ∧ k = 0 ∨ ∃ c, s = [c] := by
  cases isPrefix with
  | none => exact Or.inl ⟨rfl, rfl⟩
  | kilo | mega | giga | tera | peta | exa => exact Or.inr ⟨_, rfl⟩

theorem isUnit_nil : IsUnit [] k ↔ k = 0 := by
  constructor
  · rintro ⟨si, b, split, isPrefix, _⟩
    rcases isPrefix.eq_nil_or_singleton with ⟨_, isZero⟩ | ⟨c, rfl⟩
    · exact isZero
    · exact absurd split (List.cons_ne_nil c b).symm
  · rintro rfl
    exact ⟨[], [], rfl, .none, Or.inl rfl⟩

/-- Where no prefix begins, there is no prefix. -/
theorem isUnit_other (noPrefix : ∀ k, ¬ IsPrefix [c] k) :
    IsUnit (c :: s) k ↔ k = 0 ∧ IsByte (c :: s) := by
  constructor
  · rintro ⟨si, b, split, isPrefix, isByte⟩
    rcases isPrefix.eq_nil_or_singleton with ⟨rfl, isZero⟩ | ⟨d, rfl⟩
    · exact ⟨isZero, split ▸ isByte⟩
    · rw [← (List.cons.inj split).1] at isPrefix
      exact absurd isPrefix (noPrefix k)
  · rintro ⟨rfl, isByte⟩
    exact ⟨[], c :: s, rfl, .none, isByte⟩

theorem isUnit_of_begins {j : Nat} (begins : IsPrefix [c] j) :
    IsUnit (c :: s) k ↔ k = j ∧ IsByte s := by
  constructor
  · rintro ⟨si, b, split, isPrefix, isByte⟩
    rcases isPrefix.eq_nil_or_singleton with ⟨rfl, _⟩ | ⟨d, rfl⟩
    · rw [← show c :: s = b from split] at isByte
      rcases isByte with none | one
      · exact absurd none (List.cons_ne_nil c s)
      · rw [(List.cons.inj one).1] at begins
        cases begins
    · rcases List.cons.inj split with ⟨same, rest⟩
      rw [← same] at isPrefix
      exact ⟨isPrefix.unique begins, rest ▸ isByte⟩
  · rintro ⟨rfl, isByte⟩
    exact ⟨[c], s, rfl, begins, isByte⟩

theorem pow_injective {j k : Nat} (same : 1000 ^ j = 1000 ^ k) : j = k :=
  Nat.pow_right_injective (by decide) same

/-- After the space there is `[kMGTPE]?B?`. -/
theorem turns_case3 (atPrefix : p.state = 3) (one : p.multiplier = 1) :
    Recognises s p IsUnit := by
  cases s with
  | nil =>
      refine ⟨rfl, fun k => ?_, fun _ => ⟨0, one⟩⟩
      rw [isUnit_nil]
      constructor
      · rintro rfl
        refine ⟨?_, one⟩
        show p.state ≠ -1
        rw [atPrefix]
        decide
      · intro accepts
        have power : p.multiplier = 1000 ^ k := accepts.multiplier
        exact pow_injective (power.symm.trans one)
  | cons c s =>
      have turned : turn c p = case3 c p := by
        unfold turn
        rw [atPrefix]
        rfl
      unfold case3 at turned
      rw [one] at turned
      rcases scale_spec c with ⟨isOne, noPrefix⟩ | ⟨j, isPower, pos, begins⟩
      · -- The character is looked at again in the next state.
        rw [isOne] at turned
        have again : turns (c :: s) p =
            turns (c :: s) { p with multiplier := 1, state := 4 } := by
          rw [turns_cons, turned]
          rfl
        obtain ⟨size, multiplier, ok⟩ := turns_case4 (s := c :: s)
          (p := { p with multiplier := 1, state := 4 }) rfl
        refine ⟨again ▸ size, fun k => ?_, fun _ => ⟨0, again ▸ multiplier⟩⟩
        rw [isUnit_other noPrefix, again]
        constructor
        · rintro ⟨rfl, isByte⟩
          exact ⟨ok.mpr isByte, multiplier⟩
        · intro accepts
          exact ⟨pow_injective (accepts.multiplier.symm.trans multiplier),
            ok.mp accepts.success⟩
      · have scaled : ¬ 1000 ^ j = 1 := fun isOne =>
          pos.ne' (pow_injective (k := 0) isOne)
        dsimp only at turned
        rw [isPower, if_pos scaled] at turned
        obtain ⟨size, multiplier, ok⟩ := turns_case4 (s := s)
          (p := { p with multiplier := 1000 ^ j, state := 4 }) rfl
        rw [← turned] at size multiplier ok
        refine ⟨?_, fun k => ?_, fun _ => ⟨j, ?_⟩⟩
        · rw [turns_cons, size, turned]
        · rw [isUnit_of_begins begins, turns_cons]
          have power : (turns s (turn c p)).multiplier = 1000 ^ j := by
            rw [multiplier, turned]
          constructor
          · rintro ⟨rfl, isByte⟩
            exact ⟨ok.mpr isByte, power⟩
          · intro accepts
            exact ⟨pow_injective (accepts.multiplier.symm.trans power),
              ok.mp accepts.success⟩
        · rw [turns_cons, multiplier, turned]

/-- After the digits there is ` ?[kMGTPE]?B?`. -/
theorem turns_case2 (atSpace : p.state = 2) (one : p.multiplier = 1) :
    Recognises s p IsTail := by
  have unspaced : ∀ k, s.head? ≠ some 32 → (IsTail s k ↔ IsUnit s k) := by
    intro k notSpace
    constructor
    · rintro ⟨space, unit, rfl, rfl | rfl, isUnit⟩
      · exact isUnit
      · exact absurd rfl notSpace
    · intro isUnit
      exact ⟨[], s, rfl, Or.inl rfl, isUnit⟩
  have again (notSpace : s.head? ≠ some 32) (nonempty : s ≠ []) :
      turns s p = turns s { p with state := 3 } := by
    rcases List.exists_cons_of_ne_nil nonempty with ⟨c, rest, rfl⟩
    have other : ¬ c = 32 := fun isSpace => notSpace (congrArg some isSpace)
    have turned : turn c p = case2 c p := by
      unfold turn
      rw [atSpace]
      rfl
    rw [turns_cons, turned]
    unfold case2
    rw [if_neg other]
    rfl
  rcases s with _ | ⟨c, s⟩
  · have ready := turns_case3 (s := []) (p := { p with state := 3 }) rfl one
    refine ⟨rfl, fun k => ?_, fun _ => ⟨0, one⟩⟩
    rw [unspaced k nofun, ready.accepts]
    constructor
    · intro accepts
      refine ⟨?_, accepts.multiplier⟩
      show p.state ≠ -1
      rw [atSpace]
      decide
    · intro accepts
      exact ⟨by show (3 : Int) ≠ -1; decide, accepts.multiplier⟩
  · by_cases isSpace : c = 32
    · subst isSpace
      have turned : turn 32 p = { p with state := 3 } := by
        unfold turn
        rw [atSpace]
        rfl
      have later := turns_case3 (s := s) (p := { p with state := 3 }) rfl one
      rw [← turned] at later
      refine ⟨?_, fun k => ?_, later.known⟩
      · rw [turns_cons, later.size, turned]
      · rw [turns_cons, ← later.accepts]
        constructor
        · rintro ⟨space, unit, split, rfl | rfl, isUnit⟩
          · -- No unit begins with a space.
            rw [← show 32 :: s = unit from split] at isUnit
            rcases isUnit with ⟨si, b, split, isPrefix, rfl | rfl⟩
            · cases isPrefix <;> cases split
            · cases isPrefix <;> cases split
          · exact (List.cons.inj split).2 ▸ isUnit
        · intro isUnit
          exact ⟨[32], s, rfl, Or.inr rfl, isUnit⟩
    · have notSpace : (c :: s).head? ≠ some 32 := fun isHead =>
        isSpace (Option.some.inj isHead)
      have later := turns_case3 (s := c :: s) (p := { p with state := 3 }) rfl
        one
      refine ⟨?_, fun k => ?_, ?_⟩
      · rw [again notSpace (List.cons_ne_nil c s), later.size]
      · rw [again notSpace (List.cons_ne_nil c s), unspaced k notSpace,
          later.accepts]
      · rw [again notSpace (List.cons_ne_nil c s)]
        exact later.known

/-! ## Digits -/

/-- Is this a decimal digit? -/
def isdigit (c : UInt8) : Bool := decide (IsDigit c)

theorem isdigit_iff : isdigit c = true ↔ IsDigit c := decide_eq_true_iff

/-- The value of more digits behind a value. -/
def valueFrom (value : Nat) (digits : List UInt8) : Nat :=
  digits.foldl (fun value c => value * 10 + (digitValue c).getD 0) value

theorem digitValue_eq (isDigit : IsDigit c) :
    (digitValue c).getD 0 = c.toNat - 48 ∧ c.toNat - 48 ≤ 9 := by
  have atMost : c.toNat ≤ 57 := UInt8.le_iff_toNat_le.mp isDigit.2
  have value : digitValue c = some (c.toNat - 48) := if_pos isDigit
  rw [value]
  exact ⟨rfl, by omega⟩

theorem le_valueFrom (value : Nat) (digits : List UInt8) :
    value ≤ valueFrom value digits := by
  induction digits generalizing value with
  | nil => exact Nat.le_refl value
  | cons c digits ih =>
      calc
        value ≤ value * 10 + (digitValue c).getD 0 := by omega
        _ ≤ _ := ih _

/-- A digit is added, unless the size would be too large. -/
theorem turn_digit (inDigits : p.state = 1) (isDigit : IsDigit c)
    (small : p.size ≤ UINT64_MAX) :
    (p.size * 10 + (c.toNat - 48) ≤ UINT64_MAX ∧
        turn c p = { p with size := p.size * 10 + (c.toNat - 48) }) ∨
      (UINT64_MAX < p.size * 10 + (c.toNat - 48) ∧
        (turn c p).state = -1) := by
  have atMost := (digitValue_eq isDigit).2
  have limit : UINT64_MAX = 18446744073709551615 := rfl
  have turned : turn c p = case1 c p := by
    unfold turn
    rw [inDigits]
    rfl
  rw [turned]
  unfold case1
  dsimp only
  rw [if_pos isDigit]
  generalize c.toNat - 48 = digit at atMost
  by_cases overflows : p.size > UINT64_MAX / 10
  · refine Or.inr ⟨by omega, ?_⟩
    rw [if_pos overflows]
    split_ifs <;> rfl
  · have product : p.size * 10 % 2 ^ 64 = p.size * 10 :=
      Nat.mod_eq_of_lt (by omega)
    rw [if_neg overflows]
    dsimp only
    rw [product]
    by_cases tooLarge : p.size * 10 > UINT64_MAX - digit
    · refine Or.inr ⟨by omega, ?_⟩
      rw [if_pos tooLarge]
    · have total : (p.size * 10 + digit) % 2 ^ 64 = p.size * 10 + digit :=
        Nat.mod_eq_of_lt (by omega)
      refine Or.inl ⟨by omega, ?_⟩
      rw [if_neg tooLarge, total, inDigits]

/-- Digits are added up, unless the size would be too large. -/
theorem turns_digits (inDigits : p.state = 1) (small : p.size ≤ UINT64_MAX)
    (areDigits : ∀ c ∈ digits, IsDigit c) :
    (valueFrom p.size digits ≤ UINT64_MAX ∧
        turns digits p = { p with size := valueFrom p.size digits }) ∨
      (UINT64_MAX < valueFrom p.size digits ∧
        (turns digits p).state = -1) := by
  induction digits generalizing p with
  | nil => exact Or.inl ⟨small, rfl⟩
  | cons c digits ih =>
      have isDigit := areDigits c List.mem_cons_self
      have value : valueFrom p.size (c :: digits) =
          valueFrom (p.size * 10 + (c.toNat - 48)) digits := by
        rw [← (digitValue_eq isDigit).1]
        rfl
      rw [value, turns_cons]
      rcases turn_digit inDigits isDigit small with
        ⟨fits, turned⟩ | ⟨tooLarge, isError⟩
      · rw [turned]
        exact ih (p := { p with size := p.size * 10 + (c.toNat - 48) })
          inDigits fits fun c member =>
            areDigits c (List.mem_cons_of_mem _ member)
      · refine Or.inr ⟨?_, ?_⟩
        · exact Nat.lt_of_lt_of_le tooLarge (le_valueFrom _ _)
        · rw [turns_error isError]
          exact isError

/-- What follows the digits is looked at where the space may be. -/
theorem turns_tail (inDigits : p.state = 1) (one : p.multiplier = 1)
    (noDigit : ∀ c, s.head? = some c → ¬ IsDigit c) :
    Recognises s p IsTail := by
  have later := turns_case2 (s := s) (p := { p with state := 2 }) rfl one
  cases s with
  | nil =>
      refine ⟨rfl, fun k => ?_, fun _ => ⟨0, one⟩⟩
      rw [later.accepts]
      constructor
      · intro accepts
        refine ⟨?_, accepts.multiplier⟩
        show p.state ≠ -1
        rw [inDigits]
        decide
      · intro accepts
        exact ⟨by show (2 : Int) ≠ -1; decide, accepts.multiplier⟩
  | cons c s =>
      have same : turns (c :: s) p = turns (c :: s) { p with state := 2 } := by
        have turned : turn c p = case1 c p := by
          unfold turn
          rw [inDigits]
          rfl
        rw [turns_cons, turned]
        unfold case1
        dsimp only
        rw [if_neg (noDigit c rfl)]
        rfl
      refine ⟨?_, fun k => ?_, ?_⟩
      · rw [same, later.size]
      · rw [same, later.accepts]
      · rw [same]
        exact later.known

/-! ## The main result -/

theorem IsTail.noDigit (isTail : IsTail s k) :
    ∀ c, s.head? = some c → ¬ IsDigit c := by
  rcases isTail with ⟨space, unit, rfl, rfl | rfl, si, b, rfl, isPrefix, isByte⟩
  · rintro c isHead isDigit
    rcases isByte with rfl | rfl
    · cases isPrefix <;> cases isHead <;> exact absurd isDigit (by decide)
    · cases isPrefix <;> cases isHead <;> exact absurd isDigit (by decide)
  · rintro c ⟨⟩
    decide

/-- The digits of a size are all the digits in front. -/
theorem IsSize.digits_eq (isSize : IsSize s digits k) :
    s.takeWhile isdigit = digits ∧ IsTail (s.dropWhile isdigit) k := by
  rcases isSize.tail with ⟨rest, rfl, isTail⟩
  have all : ∀ c ∈ digits, isdigit c = true := fun c member =>
    isdigit_iff.mpr (isSize.areDigits c member)
  rw [List.takeWhile_append_of_pos all, List.dropWhile_append_of_pos all]
  cases rest with
  | nil => exact ⟨List.append_nil _, isTail⟩
  | cons c rest =>
      have stops : ¬ isdigit c = true := by
        rw [isdigit_iff]
        exact isTail.noDigit c rfl
      rw [List.takeWhile_cons_of_neg stops, List.dropWhile_cons_of_neg stops]
      exact ⟨List.append_nil _, isTail⟩

theorem turns_start (isDigit : IsDigit c) :
    turns (c :: s) ⟨0, size, 1⟩ = turns (c :: s) ⟨1, 0, 1⟩ := by
  have first : turn c ⟨0, size, 1⟩ = case0 c ⟨0, size, 1⟩ := rfl
  unfold case0 at first
  rw [if_neg (not_not_intro isDigit)] at first
  rw [turns_cons, first]
  rfl

/-- The loop passes the digits and then what follows them. -/
theorem turns_split (s : List UInt8) :
    turns s p = turns (s.dropWhile isdigit)
      (turns (s.takeWhile isdigit) p) := by
  unfold turns
  rw [← List.foldl_append, List.takeWhile_append_dropWhile]

theorem takeWhile_areDigits (s : List UInt8) :
    ∀ c ∈ s.takeWhile isdigit, IsDigit c := by
  intro c member
  exact isdigit_iff.mp (List.mem_takeWhile_imp member)

theorem dropWhile_noDigit (s : List UInt8) :
    ∀ c, (s.dropWhile isdigit).head? = some c → ¬ IsDigit c := by
  intro c isHead isDigit
  have stops := List.head?_dropWhile_not isdigit s
  rw [isHead] at stops
  exact Bool.noConfusion (stops.symm.trans (isdigit_iff.mpr isDigit))

/-- The result where the digits have been added up. -/
theorem turns_recognises
    (fits : valueFrom 0 (s.takeWhile isdigit) ≤ UINT64_MAX) :
    (turns s ⟨1, 0, 1⟩).size = digitsValue 10 (s.takeWhile isdigit) ∧
      (∀ k, IsTail (s.dropWhile isdigit) k ↔
        Accepts (turns s ⟨1, 0, 1⟩) k) ∧
      ((turns s ⟨1, 0, 1⟩).state ≠ -1 →
        ∃ k, (turns s ⟨1, 0, 1⟩).multiplier = 1000 ^ k) := by
  rw [turns_split s]
  rcases turns_digits (p := ⟨1, 0, 1⟩) rfl (Nat.zero_le _)
    (takeWhile_areDigits s) with ⟨_, turned⟩ | ⟨tooLarge, _⟩
  · rw [turned]
    have later := turns_tail (s := s.dropWhile isdigit)
      (p := ⟨1, valueFrom 0 (s.takeWhile isdigit), 1⟩) rfl rfl
      (dropWhile_noDigit s)
    exact ⟨later.size, later.accepts, later.known⟩
  · exact absurd tooLarge (Nat.not_lt.mpr fits)

theorem start_rejects (isError : (turns s ⟨1, 0, 1⟩).state = -1) :
    ¬ ∃ digits k, IsSize s digits k ∧ bytes digits k ≤ UINT64_MAX := by
  rintro ⟨digits, k, isSize, fits⟩
  obtain ⟨sameDigits, isTail⟩ := isSize.digits_eq
  have value : digitsValue 10 digits ≤ bytes digits k :=
    Nat.le_mul_of_pos_right _ (Nat.pow_pos (by decide))
  have small : valueFrom 0 (s.takeWhile isdigit) ≤ UINT64_MAX := by
    rw [sameDigits]
    exact value.trans fits
  obtain ⟨_, accepts, _⟩ := turns_recognises small
  exact ((accepts k).mp isTail).success isError

theorem start_accepts (isDigit : IsDigit c)
    (ok : (turns (c :: s) ⟨1, 0, 1⟩).state ≠ -1) :
    ∃ digits k, IsSize (c :: s) digits k ∧
      (turns (c :: s) ⟨1, 0, 1⟩).size = digitsValue 10 digits ∧
      (turns (c :: s) ⟨1, 0, 1⟩).multiplier = 1000 ^ k ∧
      ∀ digits' k', IsSize (c :: s) digits' k' →
        bytes digits' k' = bytes digits k := by
  have small : valueFrom 0 ((c :: s).takeWhile isdigit) ≤
      UINT64_MAX := by
    rcases turns_digits (p := ⟨1, 0, 1⟩) rfl (Nat.zero_le _)
      (takeWhile_areDigits (c :: s)) with ⟨fits, _⟩ | ⟨_, isError⟩
    · exact fits
    · rw [turns_split, turns_error isError] at ok
      exact absurd isError ok
  obtain ⟨isValue, accepts, known⟩ := turns_recognises small
  obtain ⟨k, isPower⟩ := known ok
  have isTail := (accepts k).mpr ⟨ok, isPower⟩
  refine ⟨(c :: s).takeWhile isdigit, k,
    ⟨?_, takeWhile_areDigits _, _, List.takeWhile_append_dropWhile.symm,
      isTail⟩, isValue, isPower, ?_⟩
  · rw [List.takeWhile_cons_of_pos (isdigit_iff.mpr isDigit)]
    exact List.cons_ne_nil _ _
  · intro digits' k' isSize
    obtain ⟨sameDigits, isTail'⟩ := isSize.digits_eq
    have power := ((accepts k').mp isTail').multiplier
    rw [← sameDigits, pow_injective (power.symm.trans isPower)]

/-- What a call of `humansize_parse` returns, and what it stores. -/
inductive Parsed (s : List UInt8) : Int → Nat → Prop where
  | accepted {digits : List UInt8} {k : Nat} (isSize : IsSize s digits k)
      (fits : bytes digits k ≤ UINT64_MAX) : Parsed s 0 (bytes digits k)
  | rejected (size : Nat)
      (isNone : ¬ ∃ digits k, IsSize s digits k ∧
        bytes digits k ≤ UINT64_MAX) : Parsed s (-1) size

/-- The multiplication at the end of `humansize_parse`. -/
theorem parsed_of_loop {final : Parse}
    (isFinal : parseLoop (s ++ 0 :: junk) ⟨0, size, 1⟩ = .ok final)
    (rejects : final.state = -1 → ¬ ∃ digits k, IsSize s digits k ∧
      bytes digits k ≤ UINT64_MAX)
    (accepts : final.state ≠ -1 → ∃ digits k, IsSize s digits k ∧
      final.size = digitsValue 10 digits ∧ final.multiplier = 1000 ^ k ∧
      ∀ digits' k', IsSize s digits' k' → bytes digits' k' = bytes digits k) :
    ∃ status stored, humansizeParse (s ++ 0 :: junk) size =
      .ok (status, stored) ∧ Parsed s status stored := by
  have limit : UINT64_MAX = 18446744073709551615 := rfl
  unfold humansizeParse
  rw [isFinal]
  refine ⟨_, _, rfl, ?_⟩
  by_cases isError : final.state = -1
  · have status : (if final.size > UINT64_MAX / final.multiplier then
        { final with state := -1 }
      else { final with
        size := final.size * final.multiplier % 2 ^ 64 }).state = -1 := by
      split_ifs
      · rfl
      · exact isError
    rw [if_pos status]
    exact .rejected _ (rejects isError)
  · obtain ⟨digits, k, isSize, isValue, isPower, same⟩ := accepts isError
    have positive : 0 < 1000 ^ k := Nat.pow_pos (by decide)
    rw [isPower, isValue]
    by_cases tooLarge : digitsValue 10 digits > UINT64_MAX / 1000 ^ k
    · rw [if_pos tooLarge]
      refine .rejected _ ?_
      rintro ⟨digits', k', isSize', fits⟩
      rw [same digits' k' isSize'] at fits
      exact absurd ((Nat.le_div_iff_mul_le positive).mpr fits)
        (Nat.not_le.mpr tooLarge)
    · have fits : bytes digits k ≤ UINT64_MAX :=
        (Nat.le_div_iff_mul_le positive).mp (not_lt.mp tooLarge)
      have product : digitsValue 10 digits * 1000 ^ k % 2 ^ 64 =
          bytes digits k := by
        apply Nat.mod_eq_of_lt
        change bytes digits k < _
        omega
      rw [if_neg tooLarge]
      dsimp only
      rw [if_neg isError, product]
      exact .accepted isSize fits

/-- `humansize_parse` accepts the strings that match the expression and stand
for a size in range, and stores this size.  It reads nothing behind the NUL. -/
theorem humansize_parse_recognises (s junk : List UInt8) (size : Nat)
    (noNul : 0 ∉ s) :
    ∃ status stored, humansizeParse (s ++ 0 :: junk) size =
      .ok (status, stored) ∧ Parsed s status stored := by
  cases s with
  | nil =>
      refine ⟨-1, 0, rfl, .rejected 0 ?_⟩
      rintro ⟨digits, k, isSize, _⟩
      rcases isSize.tail with ⟨rest, split, _⟩
      exact isSize.nonempty (List.append_eq_nil_iff.mp split.symm).1
  | cons c s =>
      by_cases isDigit : IsDigit c
      · apply parsed_of_loop (parseLoop_turns noNul)
        · rw [turns_start isDigit]
          exact start_rejects
        · rw [turns_start isDigit]
          exact start_accepts isDigit
      · have isError : turns (c :: s) ⟨0, size, 1⟩ = ⟨-1, 0, 1⟩ := by
          rw [turns_cons, show turn c ⟨0, size, 1⟩ = ⟨-1, 0, 1⟩ from
            if_pos isDigit, turns_error rfl]
        apply parsed_of_loop (parseLoop_turns noNul)
        · rintro - ⟨digits, k, isSize, _⟩
          rcases isSize.tail with ⟨rest, split, _⟩
          rcases List.exists_cons_of_ne_nil isSize.nonempty with
            ⟨d, digits, rfl⟩
          apply isDigit
          rw [(List.cons.inj split).1]
          exact isSize.areDigits d List.mem_cons_self
        · rw [isError]
          exact fun ok => absurd rfl ok

/-- `"9 B"`. -/
theorem humansize_parse_recognises_nine :
    0 ∉ ([57, 32, 66] : List UInt8) ∧
      ∃ status stored, humansizeParse ([57, 32, 66] ++ 0 :: []) 0 =
        .ok (status, stored) ∧ Parsed [57, 32, 66] status stored :=
  ⟨by decide, humansize_parse_recognises [57, 32, 66] [] 0 (by decide)⟩

end Libcperciva.Util.HumansizeParse
