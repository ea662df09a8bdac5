import Libcperciva.Util.NumberForm
import Libcperciva.Util.ParsenumModel
import Mathlib.Algebra.Order.Ring.Int

/-!
# The contract of `PARSENUM`

A string is accepted if it is a number which lies between the bounds and in
the type of the variable, and the variable then has its value.  The functions
behind the macros look at the value after it was converted, so the contract
is not kept for every number.  The main theorem says for which numbers it is.
-/

namespace Libcperciva.Util.ParsenumContract

open Libcperciva.Util.Cstring
open Libcperciva.Util.NumberForm
open Libcperciva.Util.ParsenumModel

variable {type : IntType} {bounds : Option (Int × Int)} {base : Nat}
  {trailing : Bool} {s rest : List UInt8} {v x min max : Int}

/-! ## The contract -/

/-- The integer is a value of the type. -/
def Has (type : IntType) (v : Int) : Prop := type.min ≤ v ∧ v ≤ type.max

/-- The integer lies between the bounds, if there are bounds. -/
def Within (bounds : Option (Int × Int)) (v : Int) : Prop :=
  ∀ min max, bounds = some (min, max) → min ≤ v ∧ v ≤ max

/-- Nothing follows the number, or it does not matter what follows. -/
def Ends (trailing : Bool) (rest : List UInt8) : Prop :=
  trailing = true ∨ rest.headD 0 = 0

/-- The macro can be used so: bounds are in order, and they are values of
integer types. -/
def Applicable (type : IntType) : Option (Int × Int) → Prop
  | none => type.isSigned = false
  | some (min, max) => min ≤ max ∧ INTMAX_MIN ≤ min ∧ max < 2 ^ 64

/-- What the macro should do with a string. -/
structure Contract (type : IntType) (s : List UInt8)
    (bounds : Option (Int × Int)) (base : Nat) (trailing : Bool)
    (result : Except ParsenumAssert (Option Int)) : Prop where
  returns : ∃ outcome, result = .ok outcome
  accepts : ∀ x, result = .ok (some x) ↔ ∃ rest, Numeral base s x rest ∧
    Ends trailing rest ∧ Within bounds x ∧ Has type x

/-- The number is one for which the conversions make no difference. -/
def Faithful (type : IntType) (bounds : Option (Int × Int)) (v : Int) :
    Prop :=
  match type.isSigned, bounds with
  | false, none => 0 ≤ v ∨ v ≤ -2 ^ 64 ∨ type.max < v + 2 ^ 64
  | false, some (min, max) => 0 ≤ v ∨ v ≤ -2 ^ 64 ∨
      type.max < v + 2 ^ 64 ∨ v + 2 ^ 64 < min ∨ max < v + 2 ^ 64
  | true, some (min, max) =>
      if max ≤ INTMAX_MAX then min ≤ v ∧ v ≤ max → Has type v
      else if min ≤ INTMAX_MAX then
        v < min ∨ v ≤ max - 2 ^ 64 ∧ Has type v ∨
          max - 2 ^ 64 < v ∧ ¬ Has type v
      else v < min - 2 ^ 64 ∨ max - 2 ^ 64 < v
  | true, none => True

/-! ## The functions -/

theorem ends_iff : Ends trailing rest ↔
    ¬ (!trailing && rest.headD 0 ≠ 0) = true := by
  unfold Ends
  cases trailing <;> simp

theorem parsenumSigned_iff :
    parsenumSigned s min max base trailing = some x ↔
      ∃ rest, numeral base s = some (x, rest) ∧ Ends trailing rest ∧
        Has intmax x ∧ min ≤ x ∧ x ≤ max := by
  have range : Has intmax x ↔ INTMAX_MIN ≤ x ∧ x ≤ INTMAX_MAX := Iff.rfl
  unfold parsenumSigned strtoimax numeral
  generalize subject base s = found
  rcases found with ⟨negative, root, digits, endptr⟩
  dsimp only
  rw [range]
  generalize magnitude : Subject.magnitude ⟨negative, root, digits, endptr⟩ = n
  have same : (if negative then -(n : Int) else n) = signed negative n := rfl
  rw [same]
  generalize signed negative n = v
  by_cases nothing : digits = []
  · simp [nothing]
  rw [if_neg nothing, if_neg nothing]
  have bounds : INTMAX_MIN ≤ INTMAX_MAX := by decide
  by_cases large : v > INTMAX_MAX
  · rw [if_pos large]
    simp only [Option.some.injEq, Prod.mk.injEq, ite_true]
    constructor
    · intro result
      split_ifs at result
    · rintro ⟨_, ⟨rfl, _⟩, _, ⟨_, le⟩, _⟩
      exact absurd large (not_lt.mpr le)
  · rw [if_neg large]
    by_cases small : v < INTMAX_MIN
    · rw [if_pos small]
      simp only [Option.some.injEq, Prod.mk.injEq, ite_true]
      constructor
      · intro result
        split_ifs at result
      · rintro ⟨_, ⟨rfl, _⟩, _, ⟨le, _⟩, _⟩
        exact absurd small (not_lt.mpr le)
    · rw [if_neg small]
      simp only [Option.some.injEq, Prod.mk.injEq, Bool.false_eq_true,
        ite_false]
      constructor
      · intro result
        split_ifs at result with follows outside
        rcases result with ⟨rfl⟩
        rw [not_or, not_lt, not_lt] at outside
        exact ⟨endptr, ⟨rfl, rfl⟩, ends_iff.mpr follows,
          ⟨not_lt.mp small, not_lt.mp large⟩, outside⟩
      · rintro ⟨_, ⟨rfl, rfl⟩, ends, _, inside⟩
        rw [if_neg (ends_iff.mp ends), if_neg
          (not_or.mpr ⟨not_lt.mpr inside.1, not_lt.mpr inside.2⟩)]

/-- `strtoumax` makes a number below zero a large one. -/
theorem parsenumUnsigned_iff {min max typemax n : Nat} :
    parsenumUnsigned s min max typemax base trailing = some n ↔
      ∃ v rest, numeral base s = some (v, rest) ∧ Ends trailing rest ∧
        -2 ^ 64 < v ∧ v < 2 ^ 64 ∧ (n : Int) = v % 2 ^ 64 ∧
        min ≤ n ∧ n ≤ max ∧ n ≤ typemax := by
  have limit : UINTMAX_MAX = 2 ^ 64 - 1 := rfl
  unfold parsenumUnsigned strtoumax numeral
  generalize subject base s = found
  rcases found with ⟨negative, root, digits, endptr⟩
  dsimp only
  generalize magnitude : Subject.magnitude ⟨negative, root, digits, endptr⟩ = m
  by_cases nothing : digits = []
  · simp [nothing]
  rw [if_neg nothing, if_neg nothing]
  by_cases large : m > UINTMAX_MAX
  · rw [if_pos large]
    simp only [Option.some.injEq, Prod.mk.injEq, ite_true]
    constructor
    · intro result
      split_ifs at result
    · rintro ⟨_, _, ⟨rfl, _⟩, _, above, below, _⟩
      unfold signed at above below
      split_ifs at above below <;> omega
  · rw [if_neg large]
    have value : ∃ val, (if negative then
          some (Conversion.mk ((2 ^ 64 - m) % 2 ^ 64) endptr false)
        else some ⟨m, endptr, false⟩) = some ⟨val, endptr, false⟩ ∧
        (val : Int) = signed negative m % 2 ^ 64 ∧
        -2 ^ 64 < signed negative m ∧ signed negative m < 2 ^ 64 := by
      unfold signed
      cases negative with
      | true =>
          refine ⟨_, rfl, ?_, ?_, ?_⟩ <;> simp only [if_true] <;> omega
      | false =>
          refine ⟨_, rfl, ?_, ?_, ?_⟩ <;>
            simp only [Bool.false_eq_true, if_false] <;> omega
    rcases value with ⟨val, isVal, congruent, above, below⟩
    rw [isVal]
    simp only [Option.some.injEq, Prod.mk.injEq, Bool.false_eq_true,
      ite_false]
    constructor
    · intro result
      split_ifs at result with follows outside
      rcases result with ⟨rfl⟩
      rw [not_or, not_or, not_lt, not_lt, not_lt] at outside
      exact ⟨_, endptr, ⟨rfl, rfl⟩, ends_iff.mpr follows, above, below,
        congruent, outside⟩
    · rintro ⟨_, _, ⟨rfl, rfl⟩, ends, _, _, isN, atLeast, atMost, inType⟩
      have same : val = n := by omega
      rw [same, if_neg (ends_iff.mp ends), if_neg]
      rw [not_or, not_or, not_lt, not_lt, not_lt]
      exact ⟨atLeast, atMost, inType⟩

/-! ## Conversions -/

theorem width_pos (type : IntType) : (0 : Int) < 2 ^ type.width :=
  Int.pow_pos (by decide)

theorem two_mul_half (type : IntType) :
    (2 : Int) ^ type.width = 2 * 2 ^ (type.width - 1) := by
  rw [← pow_succ', Nat.sub_add_cancel type.positive]

theorem half_le (type : IntType) : (2 : Int) ^ (type.width - 1) ≤ 2 ^ 63 :=
  pow_le_pow_right₀ (by decide) (by have := type.fits; omega)

theorem width_le (type : IntType) : (2 : Int) ^ type.width ≤ 2 ^ 64 :=
  pow_le_pow_right₀ (by decide) type.fits

/-- A conversion keeps the values of the type. -/
theorem convert_eq (has : Has type v) : type.convert v = v := by
  unfold Has IntType.min IntType.max at has
  unfold IntType.convert
  by_cases isSigned : type.isSigned = true
  · simp only [if_pos isSigned] at has ⊢
    have half := two_mul_half type
    have cast : ((2 ^ type.width : Nat) : Int) = 2 ^ type.width := by
      push_cast
      rfl
    refine Int.bmod_eq_of_le ?_ ?_
    · rw [cast]
      omega
    · rw [cast]
      omega
  · simp only [if_neg isSigned] at has ⊢
    exact Int.emod_eq_of_lt has.1 (by omega)

theorem convert_intmax (atLeast : INTMAX_MIN ≤ v) (below : v < 2 ^ 64) :
    intmax.convert v = if v ≤ INTMAX_MAX then v else v - 2 ^ 64 := by
  have least : INTMAX_MIN = -2 ^ 63 := rfl
  have greatest : INTMAX_MAX = 2 ^ 63 - 1 := rfl
  have cast : ((2 ^ 64 : Nat) : Int) = 2 ^ 64 := rfl
  show v.bmod (2 ^ 64) = _
  unfold Int.bmod
  rw [cast]
  dsimp only
  split_ifs <;> omega

theorem convert_uintmax (atLeast : 0 ≤ v) (below : v < 2 ^ 64) :
    uintmax.convert v = v := Int.emod_eq_of_lt atLeast below

/-- Is `-1` of the type greater than zero?  This is how the macros find out
whether the type is signed. -/
theorem convert_neg_one (type : IntType) :
    type.convert (-1) = if type.isSigned then -1 else type.max := by
  have positive := width_pos type
  by_cases isSigned : type.isSigned = true
  · rw [if_pos isSigned]
    refine convert_eq ?_
    have half : (0 : Int) < 2 ^ (type.width - 1) := Int.pow_pos (by decide)
    unfold Has IntType.min IntType.max
    simp only [if_pos isSigned]
    omega
  · unfold IntType.convert IntType.max
    simp only [if_neg isSigned]
    have shifted : (-1 : Int) =
        2 ^ type.width - 1 + 2 ^ type.width * -1 := by omega
    rw [shifted, Int.add_mul_emod_self_left]
    exact Int.emod_eq_of_lt (by omega) (by omega)

/-! ## The macros -/

/-- What a variable is set to when a number is accepted. -/
def Takes (type : IntType) (bounds : Option (Int × Int)) (v x : Int) :
    Prop :=
  if type.isSigned then
    Has intmax v ∧ x = type.convert v ∧ ∀ min max, bounds = some (min, max) →
      intmax.convert min ≤ v ∧ v ≤ intmax.convert max
  else
    -2 ^ 64 < v ∧ v < 2 ^ 64 ∧ x = v % 2 ^ 64 ∧ v % 2 ^ 64 ≤ type.max ∧
      Within bounds (v % 2 ^ 64)

theorem max_unsigned (isUnsigned : type.isSigned = false) :
    type.min = 0 ∧ type.max = 2 ^ type.width - 1 ∧ 0 < type.max := by
  have one : (2 : Int) ^ 1 ≤ 2 ^ type.width :=
    pow_le_pow_right₀ (by decide) type.positive
  unfold IntType.min IntType.max
  rw [isUnsigned]
  refine ⟨rfl, rfl, ?_⟩
  show (0 : Int) < 2 ^ type.width - 1
  omega

theorem parsenumEx4_iff (isUnsigned : type.isSigned = false) :
    parsenumEx4 type s base trailing = .ok (some x) ↔
      ∃ v rest, numeral base s = some (v, rest) ∧ Ends trailing rest ∧
        Takes type none v x := by
  obtain ⟨isMin, isMax, positive⟩ := max_unsigned isUnsigned
  have minusOne : type.convert (-1) = type.max := by
    rw [convert_neg_one, isUnsigned]
    rfl
  have stores : ∀ n : Nat, n ≤ type.max.toNat →
      type.convert n = n := by
    intro n le
    refine convert_eq ⟨?_, ?_⟩ <;> omega
  unfold parsenumEx4 Takes
  dsimp only
  rw [minusOne, if_pos positive, isUnsigned, Except.ok.injEq,
    Option.map_eq_some_iff]
  simp only [Bool.false_eq_true, if_false, parsenumUnsigned_iff]
  constructor
  · rintro ⟨n, ⟨v, rest, found, ends, above, below, isN, _, inType, _⟩, isX⟩
    rw [stores n inType] at isX
    refine ⟨v, rest, found, ends, above, below, isX.symm.trans isN, ?_,
      fun _ _ none => absurd none nofun⟩
    omega
  · rintro ⟨v, rest, found, ends, above, below, isX, inType, _⟩
    refine ⟨(v % 2 ^ 64).toNat, ⟨v, rest, found, ends, above, below, ?_, ?_,
      ?_, ?_⟩, ?_⟩
    · omega
    · omega
    · omega
    · omega
    · rw [stores _ (by omega)]
      omega

theorem parsenumEx6_iff (applicable : Applicable type (some (min, max))) :
    parsenumEx6 type s min max base trailing = some x ↔
      ∃ v rest, numeral base s = some (v, rest) ∧ Ends trailing rest ∧
        Takes type (some (min, max)) v x := by
  obtain ⟨le, atLeast, below⟩ := applicable
  have least : INTMAX_MIN = -2 ^ 63 := rfl
  have greatest : INTMAX_MAX = 2 ^ 63 - 1 := rfl
  have isBounds : ∀ P : Int → Int → Prop,
      (∀ low high, some (min, max) = some (low, high) → P low high) ↔
        P min max := by
    intro P
    constructor
    · intro all
      exact all min max rfl
    · rintro here _ _ ⟨⟩
      exact here
  unfold parsenumEx6 Takes
  dsimp only
  unfold Within
  simp only [isBounds]
  cases isSigned : type.isSigned with
  | true =>
      have minusOne : type.convert (-1) = -1 := by
        rw [convert_neg_one, isSigned]
        rfl
      rw [minusOne, if_pos (by decide), if_pos (by decide),
        if_pos (by decide), Option.map_eq_some_iff]
      simp only [if_true, parsenumSigned_iff]
      constructor
      · rintro ⟨v, ⟨rest, found, ends, has, inside⟩, rfl⟩
        exact ⟨v, rest, found, ends, has, rfl, inside⟩
      · rintro ⟨v, rest, found, ends, has, rfl, inside⟩
        exact ⟨v, ⟨rest, found, ends, has, inside⟩, rfl⟩
  | false =>
      obtain ⟨isMin, isMax, positive⟩ := max_unsigned isSigned
      have minusOne : type.convert (-1) = type.max := by
        rw [convert_neg_one, isSigned]
        rfl
      have stores : ∀ n : Nat, n ≤ type.max.toNat →
          type.convert n = n := by
        intro n le
        refine convert_eq ⟨?_, ?_⟩ <;> omega
      rw [minusOne, if_neg (by omega)]
      simp only [Bool.false_eq_true, if_false]
      by_cases negative : max < 0
      · have rejects : max ≤ INTMAX_MAX ∧ intmax.convert max < 0 := by
          rw [convert_intmax (by omega) (by omega), if_pos (by omega)]
          omega
        rw [if_pos rejects]
        constructor
        · exact fun result => absurd result nofun
        · rintro ⟨v, rest, _, _, _, _, _, _, _, inside⟩
          omega
      · have accepts : ¬ (max ≤ INTMAX_MAX ∧ intmax.convert max < 0) := by
          rintro ⟨isSmall, isNegative⟩
          rw [convert_intmax (by omega) (by omega), if_pos isSmall]
            at isNegative
          exact negative isNegative
        have lower : ((uintmax.convert (if min ≤ 0 then 0 else min)).toNat :
            Int) = if min ≤ 0 then 0 else min := by
          rw [convert_uintmax (by split_ifs <;> omega)
            (by split_ifs <;> omega)]
          split_ifs <;> omega
        rw [if_neg accepts, convert_uintmax (not_lt.mp negative) below,
          Option.map_eq_some_iff]
        generalize (uintmax.convert (if min ≤ 0 then 0 else min)).toNat = low
          at lower ⊢
        simp only [parsenumUnsigned_iff]
        constructor
        · rintro ⟨n, ⟨v, rest, found, ends, above, small, isN, fromMin,
            toMax, inType⟩, isX⟩
          rw [stores n inType] at isX
          refine ⟨v, rest, found, ends, above, small, isX.symm.trans isN,
            ?_, ?_⟩
          · omega
          · split_ifs at lower <;> omega
        · rintro ⟨v, rest, found, ends, above, small, isX, inType, fromMin,
            toMax⟩
          refine ⟨(v % 2 ^ 64).toNat, ⟨v, rest, found, ends, above, small,
            ?_, ?_, ?_, ?_⟩, ?_⟩
          · omega
          · split_ifs at lower <;> omega
          · omega
          · omega
          · rw [stores _ (by omega)]
            omega

theorem parsenumEx_iff (applicable : Applicable type bounds) :
    parsenumEx type s bounds base trailing = .ok (some x) ↔
      ∃ v rest, numeral base s = some (v, rest) ∧ Ends trailing rest ∧
        Takes type bounds v x := by
  rcases bounds with _ | ⟨min, max⟩
  · exact parsenumEx4_iff applicable
  · show Except.ok _ = _ ↔ _
    rw [Except.ok.injEq]
    exact parsenumEx6_iff applicable

theorem parsenumEx_returns (applicable : Applicable type bounds) :
    ∃ outcome, parsenumEx type s bounds base trailing = .ok outcome := by
  rcases bounds with _ | ⟨min, max⟩
  · have positive := (max_unsigned applicable).2.2
    have isUnsigned : type.isSigned = false := applicable
    have minusOne : type.convert (-1) = type.max := by
      rw [convert_neg_one, isUnsigned]
      rfl
    show ∃ outcome, parsenumEx4 type s base trailing = .ok outcome
    unfold parsenumEx4
    dsimp only
    rw [minusOne, if_pos positive]
    exact ⟨_, rfl⟩
  · exact ⟨_, rfl⟩

/-! ## Which numbers are stored as they are written -/

/-- For this number the macro does what the contract says. -/
def Stored (type : IntType) (bounds : Option (Int × Int)) (v : Int) : Prop :=
  ∀ x, Takes type bounds v x ↔ x = v ∧ Within bounds v ∧ Has type v

theorem within_some : Within (some (min, max)) v ↔ min ≤ v ∧ v ≤ max := by
  constructor
  · intro within
    exact within min max rfl
  · rintro inside _ _ ⟨⟩
    exact inside

/-- A number that is not negative is its own residue. -/
theorem stored_unsigned (isUnsigned : type.isSigned = false) :
    Stored type bounds v ↔ 0 ≤ v ∨ v ≤ -2 ^ 64 ∨
      type.max < v + 2 ^ 64 ∨ ¬ Within bounds (v + 2 ^ 64) := by
  obtain ⟨isMin, isMax, positive⟩ := max_unsigned isUnsigned
  have small := width_le type
  unfold Stored Takes Has
  rw [isUnsigned, isMin]
  simp only [Bool.false_eq_true, if_false]
  constructor
  · intro stored
    by_contra wraps
    rw [not_or, not_or, not_or, not_not] at wraps
    obtain ⟨negative, above, inType, within⟩ := wraps
    have residue : v % 2 ^ 64 = v + 2 ^ 64 := by omega
    have taken := (stored (v + 2 ^ 64)).mp ⟨by omega, by omega,
      residue.symm, by omega, residue.symm ▸ within⟩
    omega
  · intro noWrap x
    constructor
    · rintro ⟨above, below, isX, inType, within⟩
      by_cases negative : v < 0
      · have residue : v % 2 ^ 64 = v + 2 ^ 64 := by omega
        rw [residue] at inType within
        rcases noWrap with _ | _ | _ | outside
        · omega
        · omega
        · omega
        · exact absurd within outside
      · have residue : v % 2 ^ 64 = v := by omega
        rw [residue] at isX inType within
        exact ⟨isX, within, not_lt.mp negative, inType⟩
    · rintro ⟨rfl, within, atLeast, atMost⟩
      have residue : x % 2 ^ 64 = x := by omega
      rw [residue]
      exact ⟨by omega, by omega, rfl, atMost, within⟩

/-- A number is stored if the converted bounds and the type agree with the
bounds about it. -/
theorem stored_signed (isSigned : type.isSigned = true) :
    Stored type (some (min, max)) v ↔
      (Has intmax v ∧ intmax.convert min ≤ v ∧ v ≤ intmax.convert max ↔
        (min ≤ v ∧ v ≤ max) ∧ Has type v) := by
  unfold Stored Takes
  rw [isSigned]
  simp only [if_true, within_some]
  have isBounds : (∀ low high, some (min, max) = some (low, high) →
      intmax.convert low ≤ v ∧ v ≤ intmax.convert high) ↔
      intmax.convert min ≤ v ∧ v ≤ intmax.convert max := by
    constructor
    · intro all
      exact all min max rfl
    · rintro here _ _ ⟨⟩
      exact here
  rw [isBounds]
  constructor
  · intro stored
    constructor
    · rintro ⟨has, inside⟩
      exact ((stored _).mp ⟨has, rfl, inside⟩).2
    · rintro ⟨inside, has⟩
      have taken := (stored v).mpr ⟨rfl, inside, has⟩
      exact ⟨taken.1, taken.2.2⟩
  · intro agree x
    constructor
    · rintro ⟨has, isX, inside⟩
      have both := agree.mp ⟨has, inside⟩
      exact ⟨isX.trans (convert_eq both.2), both⟩
    · rintro ⟨isX, both⟩
      have taken := agree.mpr both
      exact ⟨taken.1, isX.trans (convert_eq both.2).symm, taken.2⟩

theorem stored_iff (applicable : Applicable type bounds) :
    Stored type bounds v ↔ Faithful type bounds v := by
  have least : INTMAX_MIN = -2 ^ 63 := rfl
  have greatest : INTMAX_MAX = 2 ^ 63 - 1 := rfl
  have range : Has intmax v ↔ INTMAX_MIN ≤ v ∧ v ≤ INTMAX_MAX := Iff.rfl
  unfold Faithful
  cases isSigned : type.isSigned with
  | false =>
      rw [stored_unsigned isSigned]
      rcases bounds with _ | ⟨min, max⟩
      · have within : Within none (v + 2 ^ 64) :=
          fun _ _ absent => absurd absent nofun
        have never : ¬ Within none (v + 2 ^ 64) ↔ False :=
          iff_false_intro (not_not.mpr within)
        rw [never, or_false]
      · rw [within_some, not_and_or, not_le, not_le]
  | true =>
      rcases bounds with _ | ⟨min, max⟩
      · exact absurd (isSigned.symm.trans applicable) nofun
      · obtain ⟨le, atLeast, below⟩ := applicable
        have half := half_le type
        have inRange : Has type v → Has intmax v := by
          unfold Has IntType.min IntType.max
          simp only [if_pos isSigned]
          rintro ⟨low, high⟩
          constructor
          · show -(2 : Int) ^ 63 ≤ v
            omega
          · show v ≤ (2 : Int) ^ 63 - 1
            omega
        rw [stored_signed isSigned, convert_intmax atLeast (by omega),
          convert_intmax (by omega) below, range]
        rw [range] at inRange
        dsimp only
        generalize Has type v = has at inRange ⊢
        by_cases maxFits : max ≤ INTMAX_MAX
        · have minFits : min ≤ INTMAX_MAX := by omega
          rw [if_pos maxFits, if_pos maxFits, if_pos minFits]
          constructor
          · intro agree inside
            exact (agree.mp ⟨by omega, inside⟩).2
          · intro fits
            constructor
            · rintro ⟨_, inside⟩
              exact ⟨inside, fits inside⟩
            · rintro ⟨inside, isHas⟩
              exact ⟨inRange isHas, inside⟩
        · rw [if_neg maxFits, if_neg maxFits]
          by_cases minFits : min ≤ INTMAX_MAX
          · rw [if_pos minFits, if_pos minFits]
            by_cases isHas : has
            · have fits := inRange isHas
              simp only [isHas, and_true, not_true, and_false, or_false]
              omega
            · simp only [isHas, and_false, iff_false, not_false_iff,
                and_true, false_or]
              omega
          · rw [if_neg minFits, if_neg minFits]
            constructor
            · intro agree
              by_contra inside
              rw [not_or, not_lt, not_lt] at inside
              have both := agree.mp ⟨by omega, inside⟩
              omega
            · intro outside
              constructor
              · rintro ⟨_, inside⟩
                omega
              · rintro ⟨inside, isHas⟩
                have fits := inRange isHas
                omega

/-! ## The contract -/

/-- `PARSENUM` keeps its contract for exactly those strings whose number is
not changed by the conversions. -/
theorem parsenum_contract_iff (applicable : Applicable type bounds) :
    Contract type s bounds base trailing
        (parsenumEx type s bounds base trailing) ↔
      ∀ v rest, Numeral base s v rest → Ends trailing rest →
        Faithful type bounds v := by
  constructor
  · intro contract v rest isNumeral ends
    rw [← stored_iff applicable]
    intro x
    have found := numeral_iff.mp isNumeral
    have accepts := contract.accepts x
    rw [parsenumEx_iff applicable] at accepts
    constructor
    · intro takes
      rcases accepts.mp ⟨v, rest, found, ends, takes⟩ with
        ⟨rest', isX, _, within, has⟩
      have same := found.symm.trans (numeral_iff.mp isX)
      rcases same with ⟨⟩
      exact ⟨rfl, within, has⟩
    · rintro ⟨rfl, within, has⟩
      rcases accepts.mpr ⟨rest, isNumeral, ends, within, has⟩ with
        ⟨v', rest', found', _, takes⟩
      have same := found.symm.trans found'
      rcases same with ⟨⟩
      exact takes
  · intro faithful
    refine ⟨parsenumEx_returns applicable, fun x => ?_⟩
    rw [parsenumEx_iff applicable]
    constructor
    · rintro ⟨v, rest, found, ends, takes⟩
      have isNumeral := numeral_iff.mpr found
      have stored := (stored_iff applicable).mpr (faithful v rest isNumeral ends)
      rcases (stored x).mp takes with ⟨rfl, within, has⟩
      exact ⟨rest, isNumeral, ends, within, has⟩
    · rintro ⟨rest, isNumeral, ends, within, has⟩
      have stored := (stored_iff applicable).mpr (faithful x rest isNumeral ends)
      exact ⟨x, rest, numeral_iff.mp isNumeral, ends,
        (stored x).mpr ⟨rfl, within, has⟩⟩

/-- "42" is a number of the type `size_t`. -/
theorem parsenum_contract_fortyTwo :
    Contract uintmax [52, 50] none 0 false
      (parsenumEx uintmax [52, 50] none 0 false) := by
  have applicable : Applicable uintmax none := rfl
  refine (parsenum_contract_iff applicable).mpr ?_
  intro v rest isNumeral _
  rcases numeral_iff.mp isNumeral with ⟨⟩
  exact Or.inl (by decide)

/-- "-1" is accepted as the greatest `size_t`, and "3000000000" between wide
bounds as an `int` below zero. -/
theorem parsenum_contract_broken :
    ¬ Contract uintmax [45, 49] none 0 false
        (parsenumEx uintmax [45, 49] none 0 false) ∧
      ¬ Contract ⟨true, 32, by decide, by decide⟩
        [51, 48, 48, 48, 48, 48, 48, 48, 48, 48]
        (some (-4000000000, 4000000000)) 0 false
        (parsenumEx ⟨true, 32, by decide, by decide⟩
          [51, 48, 48, 48, 48, 48, 48, 48, 48, 48]
          (some (-4000000000, 4000000000)) 0 false) := by
  constructor
  · intro contract
    rcases (contract.accepts (2 ^ 64 - 1)).mp (by decide +kernel) with
      ⟨rest, isNumeral, _⟩
    rcases numeral_iff.mp isNumeral with ⟨⟩
  · intro contract
    rcases (contract.accepts (-1294967296)).mp (by decide +kernel) with
      ⟨rest, isNumeral, _⟩
    rcases numeral_iff.mp isNumeral with ⟨⟩

end Libcperciva.Util.ParsenumContract
