import Libcperciva.Util.HumansizeParse

/-!
# What `humansize` prints

The documented forms are those of the numbers up to 999 and of multiples of
`100 * 1000 ^ j`.  The loop finds the `j` of the size, and no form with
another `j` lies between the size and the form that is printed.
-/

namespace Libcperciva.Util.HumansizeFormat

open Libcperciva.Util.SockModel
open Libcperciva.Util.HumansizeModel
open Libcperciva.Util.HumansizeParse

variable {s : List UInt8} {c : UInt8} {i j q size value : Nat}

/-! ## The documented forms -/

/-- The forms, and the sizes that they denote. -/
inductive Denotes : List UInt8 → Nat → Prop where
  | bytes {n : Nat} (atMost : n ≤ 999) : Denotes (decimal n ++ [32, 66]) n
  | whole {x i : Nat} {c : UInt8} (atLeast : 10 ≤ x) (atMost : x ≤ 999)
      (isPrefix : IsPrefix [c] (i + 1)) :
      Denotes (decimal x ++ [32, c, 66]) (x * 1000 ^ (i + 1))
  | tenths {x y i : Nat} {c : UInt8} (atLeast : 1 ≤ x) (atMost : x ≤ 9)
      (isDigit : y ≤ 9) (isPrefix : IsPrefix [c] (i + 1)) :
      Denotes (decimal x ++ [46] ++ decimal y ++ [32, c, 66])
        (x * 1000 ^ (i + 1) + y * (1000 ^ (i + 1) / 10))

/-- The string denotes the largest value not exceeding the size. -/
structure RoundsDown (size : Nat) (s : List UInt8) (value : Nat) : Prop where
  denotes : Denotes s value
  atMost : value ≤ size
  largest : ∀ s' value', Denotes s' value' → value' ≤ size → value' ≤ value

/-- A tenth of the unit of a prefix. -/
def tenth (j : Nat) : Nat := 100 * 1000 ^ j

theorem tenth_pos (j : Nat) : 0 < tenth j :=
  Nat.mul_pos (by decide) (Nat.pow_pos (by decide))

theorem tenth_mono (less : i < j) : 1000 * tenth i ≤ tenth j := by
  unfold tenth
  calc
    1000 * (100 * 1000 ^ i) = 100 * 1000 ^ (i + 1) := by ring
    _ ≤ 100 * 1000 ^ j :=
      Nat.mul_le_mul_left 100 (Nat.pow_le_pow_right (by decide) less)

theorem unit_eq (j : Nat) : 1000 ^ (j + 1) = 10 * tenth j := by
  unfold tenth
  ring

/-- The values of the forms, in tenths of a unit. -/
structure InTenths (value t j : Nat) : Prop where
  isValue : value = t * tenth j
  atLeast : 10 ≤ t
  atMost : t ≤ 9990
  wholeOrSmall : t < 100 ∨ 10 ∣ t

theorem Denotes.inTenths (denotes : Denotes s value) :
    value ≤ 999 ∨ ∃ t j, InTenths value t j := by
  cases denotes with
  | bytes atMost => exact Or.inl atMost
  | @whole x i c atLeast atMost isPrefix =>
      refine Or.inr ⟨10 * x, i, ?_, by omega, by omega,
        Or.inr (Nat.dvd_mul_right 10 x)⟩
      rw [unit_eq]
      ring
  | @tenths x y i c atLeast atMost isDigit isPrefix =>
      refine Or.inr ⟨10 * x + y, i, ?_, by omega, by omega,
        Or.inl (by omega)⟩
      rw [unit_eq, Nat.mul_div_cancel_left _ (by decide)]
      ring

/-! ## The loop -/

/-- The loop ends with a size of at most four digits. -/
theorem shift_spec (size shiftcnt : Nat) :
    ∃ j, shift size shiftcnt = (size / 1000 ^ j, shiftcnt + j) ∧
      size / 1000 ^ j < 10000 ∧ (10 ≤ size → 10 ≤ size / 1000 ^ j) := by
  induction size using Nat.strongRecOn generalizing shiftcnt with
  | ind size ih =>
      by_cases large : size ≥ 10000
      · obtain ⟨j, result, small, atLeast⟩ :=
          ih (size / 1000) (by omega) (shiftcnt + 1)
        have same : size / 1000 / 1000 ^ j = size / 1000 ^ (j + 1) := by
          rw [Nat.div_div_eq_div_mul, Nat.pow_succ, Nat.mul_comm]
        rw [same] at result small atLeast
        refine ⟨j + 1, ?_, small, fun _ => atLeast (by omega)⟩
        rw [shift, if_pos large, result]
        congr 1
        omega
      · refine ⟨0, ?_, ?_, ?_⟩
        · rw [shift, if_neg large, Nat.pow_zero, Nat.div_one, Nat.add_zero]
        · rw [Nat.pow_zero, Nat.div_one]
          exact not_le.mp large
        · rw [Nat.pow_zero, Nat.div_one]
          exact id

/-- So many tenths of a unit are in a size. -/
theorem tenths_bounds (isTenths : size / 100 / 1000 ^ j = q) :
    q * tenth j ≤ size ∧ size < (q + 1) * tenth j := by
  have isQuotient : size / tenth j = q := by
    unfold tenth
    rw [← Nat.div_div_eq_div_mul]
    exact isTenths
  constructor
  · rw [← isQuotient]
    exact Nat.div_mul_le_self size (tenth j)
  · rw [← isQuotient]
    exact (Nat.div_lt_iff_lt_mul (tenth_pos j)).mp (Nat.lt_succ_self _)

/-- A `uint64_t` is less than 20 EB. -/
theorem shiftcnt_le (small : size < 2 ^ 64) (atLeast : 10 ≤ q)
    (below : q * tenth j ≤ size) : j ≤ 5 := by
  by_contra large
  have grows : tenth 6 ≤ tenth j :=
    Nat.mul_le_mul_left 100 (Nat.pow_le_pow_right (by decide)
      (Nat.not_le.mp large))
  have total : 10 * tenth 6 ≤ size :=
    (Nat.mul_le_mul atLeast grows).trans below
  have limit : 2 ^ 64 ≤ 10 * tenth 6 := by
    unfold tenth
    norm_num
  omega

/-! ## The main result -/

/-- No form lies between the size and the number of tenths that is kept. -/
theorem largest_of_tenths (isTenths : size / 100 / 1000 ^ j = q)
    (atMost : q < 10000) {kept : Nat}
    (keptAtLeast : 10 ≤ kept)
    (keeps : ∀ t, t ≤ q → (t < 100 ∨ 10 ∣ t) → t ≤ kept)
    (s' : List UInt8) (value' : Nat) (denotes : Denotes s' value')
    (below : value' ≤ size) : value' ≤ kept * tenth j := by
  have above := (tenths_bounds isTenths).2
  have positive := tenth_pos j
  rcases denotes.inTenths with small | ⟨t, j', tenths⟩
  · have thousand : 10 * 100 ≤ kept * tenth j :=
      Nat.mul_le_mul keptAtLeast (Nat.le_mul_of_pos_right _
        (Nat.pow_pos (by decide)))
    omega
  · rw [tenths.isValue] at below ⊢
    rcases Nat.lt_trichotomy j' j with less | same | greater
    · calc
        t * tenth j' ≤ 10000 * tenth j' :=
          Nat.mul_le_mul_right _ (tenths.atMost.trans (by decide))
        _ = 10 * (1000 * tenth j') := by ring
        _ ≤ kept * tenth j := Nat.mul_le_mul keptAtLeast (tenth_mono less)
    · subst same
      have fits : t < q + 1 :=
        Nat.lt_of_mul_lt_mul_right (Nat.lt_of_le_of_lt below above)
      exact Nat.mul_le_mul_right _
        (keeps t (Nat.le_of_lt_succ fits) tenths.wholeOrSmall)
    · have tooLarge : (q + 1) * tenth j ≤ t * tenth j' := by
        calc
          (q + 1) * tenth j ≤ 10000 * tenth j :=
            Nat.mul_le_mul_right _ atMost
          _ = 10 * (1000 * tenth j) := by ring
          _ ≤ t * tenth j' :=
            Nat.mul_le_mul tenths.atLeast (tenth_mono greater)
      omega

/-- The prefixes are found in the string. -/
theorem prefixes_get (small : j ≤ 5) :
    ∃ c, prefixes[1 + j]? = some c ∧ IsPrefix [c] (j + 1) := by
  have cases : j = 0 ∨ j = 1 ∨ j = 2 ∨ j = 3 ∨ j = 4 ∨ j = 5 := by omega
  rcases cases with rfl | rfl | rfl | rfl | rfl | rfl
  · exact ⟨_, rfl, .kilo⟩
  · exact ⟨_, rfl, .mega⟩
  · exact ⟨_, rfl, .giga⟩
  · exact ⟨_, rfl, .tera⟩
  · exact ⟨_, rfl, .peta⟩
  · exact ⟨_, rfl, .exa⟩

/-- Where a size is scaled, the prefix is one of the six, and the string
denotes the largest value. -/
theorem scaled_rounds (small : size < 2 ^ 64) (large : 1000 ≤ size) :
    (1 ≤ (shift (size / 100) 1).2 ∧ (shift (size / 100) 1).2 ≤ 6) ∧
      ∃ s value, scaled size = .ok s ∧ RoundsDown size s value := by
  obtain ⟨j, result, atMost, atLeast⟩ := shift_spec (size / 100) 1
  have atLeast := atLeast (by omega)
  generalize isTenths : size / 100 / 1000 ^ j = q at *
  have below := (tenths_bounds isTenths).1
  have shifts := shiftcnt_le small atLeast below
  obtain ⟨c, isChar, isPrefix⟩ := prefixes_get shifts
  rw [result]
  refine ⟨⟨by dsimp only; omega, by dsimp only; omega⟩, ?_⟩
  unfold scaled
  rw [result]
  dsimp only
  rw [isChar]
  dsimp only
  by_cases oneDigit : q < 100
  · have digits : q / 10 * 1000 ^ (j + 1) + q % 10 * (1000 ^ (j + 1) / 10) =
        q * tenth j := by
      rw [unit_eq, Nat.mul_div_cancel_left _ (by decide)]
      conv_rhs => rw [← Nat.div_add_mod q 10]
      ring
    rw [if_pos oneDigit]
    refine ⟨_, q * tenth j, rfl, ?_, below, ?_⟩
    · rw [← digits]
      exact .tenths (by omega) (by omega) (by omega) isPrefix
    · exact largest_of_tenths isTenths atMost atLeast
        fun t fits _ => fits
  · have digits : q / 10 * 1000 ^ (j + 1) = q / 10 * 10 * tenth j := by
      rw [unit_eq]
      ring
    rw [if_neg oneDigit]
    refine ⟨_, q / 10 * 10 * tenth j, rfl, ?_, ?_, ?_⟩
    · rw [← digits]
      exact .whole (by omega) (by omega) isPrefix
    · exact (Nat.mul_le_mul_right _ (Nat.div_mul_le_self q 10)).trans below
    · apply largest_of_tenths isTenths atMost (by omega)
      rintro t fits (isSmall | isWhole)
      · omega
      · omega

/-- Small sizes are printed as they are. -/
theorem small_rounds (isSmall : size < 1000) :
    RoundsDown size (decimal size ++ [32, 66]) size :=
  ⟨.bytes (by omega), Nat.le_refl size, fun _ _ _ below => below⟩

theorem humansize_some (small : size < 2 ^ 64) :
    ∃ s value, humansize true size = .ok (some s) ∧
      RoundsDown size s value := by
  unfold humansize
  by_cases isSmall : size < 1000
  · rw [if_pos isSmall]
    exact ⟨_, size, rfl, small_rounds isSmall⟩
  · obtain ⟨_, s, value, result, rounds⟩ :=
      scaled_rounds small (not_lt.mp isSmall)
    rw [if_neg isSmall, result]
    exact ⟨s, value, rfl, rounds⟩

/-- `humansize` prints the largest documented form that does not exceed the
size, with one of the six prefixes if it shifts; and it is monotone. -/
theorem humansize_rounds_down (size : Nat) (small : size < 2 ^ 64) :
    (1000 ≤ size →
      1 ≤ (shift (size / 100) 1).2 ∧ (shift (size / 100) 1).2 ≤ 6) ∧
    ∃ s value, humansize true size = .ok (some s) ∧
      RoundsDown size s value ∧
      ∀ larger < 2 ^ 64, size ≤ larger →
        ∃ s' value', humansize true larger = .ok (some s') ∧
          RoundsDown larger s' value' ∧ value ≤ value' := by
  refine ⟨fun large => (scaled_rounds small large).1, ?_⟩
  obtain ⟨s, value, result, rounds⟩ := humansize_some small
  refine ⟨s, value, result, rounds, fun larger fits le => ?_⟩
  obtain ⟨s', value', result', rounds'⟩ := humansize_some fits
  refine ⟨s', value', result', rounds', ?_⟩
  exact rounds'.largest s value rounds.denotes (rounds.atMost.trans le)

/-- `"9.9 kB"`. -/
theorem humansize_rounds_down_9999 :
    9999 < 2 ^ 64 ∧ ∃ s value, humansize true 9999 = .ok (some s) ∧
      RoundsDown 9999 s value := by
  obtain ⟨_, s, value, result, rounds, _⟩ :=
    humansize_rounds_down 9999 (by decide)
  exact ⟨by decide, s, value, result, rounds⟩

/-- `"1.2 TB"`. -/
example : Denotes [49, 46, 50, 32, 84, 66] 1200000000000 :=
  .tenths (x := 1) (y := 2) (i := 3) (by decide) (by decide) (by decide) .tera

end Libcperciva.Util.HumansizeFormat
