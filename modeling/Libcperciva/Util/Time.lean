import Mathlib.Algebra.Group.Int.Defs
import Mathlib.Data.Int.Init
import Mathlib.Tactic.Common

/-!
# `struct timeval`

Seconds and microseconds have 64 bits, as `time_t` and `suseconds_t` do.
Their sums and differences wrap around; in C they are undefined where they do
not fit.
-/

namespace Libcperciva.Util.Time

/-- `struct timeval`. -/
structure Timeval where
  tvSec : Int64
  tvUsec : Int64
deriving DecidableEq

/-- The microseconds of a normalized timeval are less than one second. -/
structure Timeval.Normalized (tv : Timeval) : Prop where
  notNegative : 0 ≤ tv.tvUsec
  small : tv.tvUsec < 1000000

instance (tv : Timeval) : Decidable tv.Normalized :=
  decidable_of_iff (0 ≤ tv.tvUsec ∧ tv.tvUsec < 1000000)
    ⟨fun both => ⟨both.1, both.2⟩, fun both => ⟨both.1, both.2⟩⟩

/-- The length of time that a timeval denotes, in microseconds. -/
def Timeval.usecs (tv : Timeval) : Int :=
  tv.tvSec.toInt * 1000000 + tv.tvUsec.toInt

/-- The microseconds that a normalized timeval can denote. -/
def Representable (usecs : Int) : Prop :=
  Int64.minValue.toInt * 1000000 ≤ usecs ∧
    usecs < (Int64.maxValue.toInt + 1) * 1000000

instance (usecs : Int) : Decidable (Representable usecs) := by
  unfold Representable
  infer_instance

theorem Timeval.Normalized.bounds {tv : Timeval} (normalized : tv.Normalized) :
    0 ≤ tv.tvUsec.toInt ∧ tv.tvUsec.toInt < 1000000 := by
  obtain ⟨low, high⟩ := normalized
  rw [Int64.le_iff_toInt_le] at low
  rw [Int64.lt_iff_toInt_lt] at high
  exact ⟨low, high⟩

theorem Timeval.normalized_iff {tv : Timeval} :
    tv.Normalized ↔ 0 ≤ tv.tvUsec.toInt ∧ tv.tvUsec.toInt < 1000000 := by
  constructor
  · exact Timeval.Normalized.bounds
  · rintro ⟨low, high⟩
    constructor
    · exact Int64.le_iff_toInt_le.mpr low
    · exact Int64.lt_iff_toInt_lt.mpr high

theorem representable_iff {usecs : Int} :
    Representable usecs ↔
      -9223372036854775808000000 ≤ usecs ∧
        usecs < 9223372036854775808000000 :=
  Iff.rfl

theorem Timeval.Normalized.representable {tv : Timeval}
    (normalized : tv.Normalized) : Representable tv.usecs := by
  obtain ⟨low, high⟩ := normalized.bounds
  have secLow := tv.tvSec.le_toInt
  have secHigh := tv.tvSec.toInt_lt
  rw [representable_iff]
  show _ ≤ tv.tvSec.toInt * 1000000 + tv.tvUsec.toInt ∧
    tv.tvSec.toInt * 1000000 + tv.tvUsec.toInt < _
  omega

/-! ## Sums and differences that fit -/

section Fits

variable {x y : Int64}

theorem toInt_add_of_fits (low : -2 ^ 63 ≤ x.toInt + y.toInt)
    (high : x.toInt + y.toInt < 2 ^ 63) :
    (x + y).toInt = x.toInt + y.toInt := by
  rw [Int64.toInt_add]
  exact Int.bmod_eq_of_le low high

theorem toInt_sub_of_fits (low : -2 ^ 63 ≤ x.toInt - y.toInt)
    (high : x.toInt - y.toInt < 2 ^ 63) :
    (x - y).toInt = x.toInt - y.toInt := by
  rw [Int64.toInt_sub]
  exact Int.bmod_eq_of_le low high

/-- A carry brings back a sum that has wrapped. -/
theorem toInt_add_carry (low : -2 ^ 63 ≤ x.toInt + y.toInt + 1)
    (high : x.toInt + y.toInt + 1 < 2 ^ 63) :
    (x + y + 1).toInt = x.toInt + y.toInt + 1 := by
  rw [Int64.toInt_add, Int64.toInt_add, Int64.toInt_one, Int.bmod_add_bmod]
  exact Int.bmod_eq_of_le low high

/-- A borrow brings back a difference that has wrapped. -/
theorem toInt_sub_borrow (low : -2 ^ 63 ≤ x.toInt - y.toInt - 1)
    (high : x.toInt - y.toInt - 1 < 2 ^ 63) :
    (x - y - 1).toInt = x.toInt - y.toInt - 1 := by
  rw [Int64.toInt_sub, Int64.toInt_sub, Int64.toInt_one, Int.bmod_sub_bmod]
  exact Int.bmod_eq_of_le low high

end Fits

end Libcperciva.Util.Time
