import Mathlib.Algebra.Field.ZMod
import Mathlib.RingTheory.AdjoinRoot

/-!
# Polynomials over GF(2) as numbers

The bits of a number are the coefficients of a polynomial: exclusive or is
addition, and a shift is a multiplication by a power of `X`.  A reflected number
has its bits in the opposite order.
-/

namespace Libcperciva.Lib.Gf2

open Polynomial

variable {n m k d : Nat} {a b : Nat}

/-! ## Numbers -/

/-- The lowest `n` bits in the opposite order. -/
def reflect (n d : Nat) : Nat :=
  Nat.ofBits fun i : Fin n => d.testBit (n - 1 - i)

/-- The remainder of a division by a polynomial of degree `n`, of a dividend of
`n + k` bits. -/
def mod2 (poly n : Nat) : Nat → Nat → Nat
  | 0, d => d
  | k + 1, d =>
      mod2 poly n k (if d.testBit (n + k) then d ^^^ poly <<< k else d)

theorem testBit_reflect (n d i : Nat) :
    (reflect n d).testBit i = (decide (i < n) && d.testBit (n - 1 - i)) := by
  unfold reflect
  rw [Nat.testBit_ofBits]
  by_cases inside : i < n
  · rw [dif_pos inside, decide_eq_true inside, Bool.true_and]
  · rw [dif_neg inside, decide_eq_false inside, Bool.false_and]

theorem reflect_lt (n d : Nat) : reflect n d < 2 ^ n :=
  Nat.ofBits_lt_two_pow _

theorem reflect_xor (n a b : Nat) :
    reflect n (a ^^^ b) = reflect n a ^^^ reflect n b := by
  apply Nat.eq_of_testBit_eq
  intro i
  simp only [testBit_reflect, Nat.testBit_xor]
  cases decide (i < n) <;> simp

theorem reflect_reflect (small : d < 2 ^ n) : reflect n (reflect n d) = d := by
  apply Nat.eq_of_testBit_eq
  intro i
  rw [testBit_reflect, testBit_reflect]
  by_cases inside : i < n
  · have back : n - 1 - (n - 1 - i) = i := by omega
    rw [back]
    simp [inside]
    omega
  · have high : d.testBit i = false :=
      Nat.testBit_lt_two_pow (Nat.lt_of_lt_of_le small
        (Nat.pow_le_pow_right (by decide) (Nat.le_of_not_lt inside)))
    simp [inside, high]

/-- A number of few bits. -/
theorem reflect_of_lt (small : d < 2 ^ m) (le : m ≤ n) :
    reflect n d = reflect m d <<< (n - m) := by
  apply Nat.eq_of_testBit_eq
  intro i
  rw [testBit_reflect, Nat.testBit_shiftLeft, testBit_reflect]
  by_cases low : i < n - m
  · have high : d.testBit (n - 1 - i) = false :=
      Nat.testBit_lt_two_pow (Nat.lt_of_lt_of_le small
        (Nat.pow_le_pow_right (by decide) (by omega)))
    rw [high, decide_eq_false (Nat.not_le_of_lt low), Bool.and_false,
      Bool.false_and]
  · by_cases inside : i < n
    · have place : m - 1 - (i - (n - m)) = n - 1 - i := by omega
      simp [inside, place, (by omega : n - m ≤ i),
        (by omega : i - (n - m) < m)]
    · rw [decide_eq_false inside, decide_eq_false (by omega : ¬ _ < m),
        Bool.false_and, Bool.false_and, Bool.and_false]

/-- A shift of a reflected number moves its bits into a number that is shifted
the other way, and past its end. -/
theorem reflect_shiftLeft (small : d < 2 ^ n) (k : Nat) :
    reflect n d <<< k = reflect n (d >>> k) ^^^ reflect n (d % 2 ^ k) <<< k := by
  apply Nat.eq_of_testBit_eq
  intro i
  simp only [Nat.testBit_xor, Nat.testBit_shiftLeft, testBit_reflect,
    Nat.testBit_shiftRight, Nat.testBit_mod_two_pow]
  by_cases low : i < k
  · have high : d.testBit (k + (n - 1 - i)) = false :=
      Nat.testBit_lt_two_pow (Nat.lt_of_lt_of_le small
        (Nat.pow_le_pow_right (by decide) (by omega)))
    simp [high, Nat.not_le_of_lt low]
  · by_cases inside : i < n
    · have place : n - 1 - (i - k) = k + (n - 1 - i) := by omega
      simp [inside, place, (by omega : k ≤ i), (by omega : i - k < n)]
    · by_cases past : i - k < n
      · simp [inside, past, (by omega : k ≤ i),
          (by omega : n - 1 - (i - k) < k)]
      · simp [inside, past]

/-- One more bit. -/
theorem reflect_succ (n d : Nat) :
    reflect (n + 1) d = reflect n d <<< 1 ^^^ (d.testBit n).toNat := by
  apply Nat.eq_of_testBit_eq
  intro i
  rw [Nat.testBit_xor, Nat.testBit_shiftLeft, testBit_reflect,
    testBit_reflect, Nat.testBit_bool_toNat]
  cases i with
  | zero => simp
  | succ i =>
      have place : n + 1 - 1 - (i + 1) = n - 1 - (i + 1 - 1) := by omega
      rw [place]
      simp

/-! ## Polynomials -/

/-- A coefficient. -/
def bit (b : Bool) : ZMod 2 := if b then 1 else 0

theorem bit_xor (a b : Bool) : bit (a ^^ b) = bit a + bit b := by
  cases a <;> cases b <;> decide

theorem bit_injective : Function.Injective bit := by
  intro a b
  cases a <;> cases b <;> decide

/-- The polynomial whose coefficients are the bits of a number. -/
noncomputable def toPoly (d : Nat) : (ZMod 2)[X] :=
  ∑ i ∈ Finset.range d, C (bit (d.testBit i)) * X ^ i

theorem coeff_toPoly (d i : Nat) :
    (toPoly d).coeff i = bit (d.testBit i) := by
  unfold toPoly
  rw [finsetSum_coeff]
  simp only [coeff_C_mul_X_pow]
  rw [Finset.sum_ite_eq]
  by_cases inside : i ∈ Finset.range d
  · rw [if_pos inside]
  · have high : d.testBit i = false :=
      Nat.testBit_lt_two_pow (Nat.lt_of_lt_of_le d.lt_two_pow_self
        (Nat.pow_le_pow_right (by decide)
          (Nat.le_of_not_lt fun lt => inside (Finset.mem_range.mpr lt))))
    rw [if_neg inside, high]
    rfl

attribute [irreducible] toPoly

theorem toPoly_injective : Function.Injective toPoly := by
  intro a b equal
  apply Nat.eq_of_testBit_eq
  intro i
  apply bit_injective
  rw [← coeff_toPoly, ← coeff_toPoly, equal]

theorem toPoly_xor (a b : Nat) : toPoly (a ^^^ b) = toPoly a + toPoly b := by
  ext i
  rw [coeff_add, coeff_toPoly, coeff_toPoly, coeff_toPoly, Nat.testBit_xor,
    bit_xor]

theorem toPoly_shiftLeft (d k : Nat) :
    toPoly (d <<< k) = toPoly d * X ^ k := by
  ext i
  rw [coeff_mul_X_pow', coeff_toPoly, coeff_toPoly, Nat.testBit_shiftLeft]
  by_cases high : k ≤ i
  · rw [if_pos high, decide_eq_true high, Bool.true_and]
  · rw [if_neg high, decide_eq_false high, Bool.false_and]
    rfl

theorem toPoly_toNat (b : Bool) : toPoly b.toNat = C (bit b) := by
  ext i
  rw [coeff_toPoly, coeff_C, Nat.testBit_bool_toNat]
  by_cases first : i = 0
  · rw [if_pos first, decide_eq_true first, Bool.true_and]
  · rw [if_neg first, decide_eq_false first, Bool.false_and]
    rfl

theorem toPoly_zero : toPoly 0 = 0 := by
  have zero := toPoly_toNat false
  rw [show bit false = 0 from rfl, C_0] at zero
  exact zero

theorem toPoly_one : toPoly 1 = 1 := by
  have one := toPoly_toNat true
  rw [show bit true = 1 from rfl, C_1] at one
  exact one

/-- Addition is its own inverse. -/
theorem add_self (p : (ZMod 2)[X]) : p + p = 0 := by
  ext i
  rw [coeff_add, coeff_zero]
  exact CharTwo.add_self_eq_zero _

/-- A number of few bits is a polynomial of low degree. -/
theorem degree_toPoly (small : d < 2 ^ n) : (toPoly d).degree < n := by
  apply (degree_lt_iff_coeff_zero _ n).mpr
  intro i high
  rw [coeff_toPoly, Nat.testBit_lt_two_pow (Nat.lt_of_lt_of_le small
    (Nat.pow_le_pow_right (by decide) high))]
  rfl

/-- The polynomial `X ^ n + p`, for a number `p` of `n` bits. -/
noncomputable def leading (n d : Nat) : (ZMod 2)[X] := X ^ n + toPoly d

theorem leading_eq_toPoly (n d : Nat) :
    leading n d = toPoly (1 <<< n ^^^ d) := by
  unfold leading
  rw [toPoly_xor, toPoly_shiftLeft, toPoly_one, one_mul]

theorem degree_leading (small : d < 2 ^ n) : (leading n d).degree = n := by
  have low := degree_toPoly small
  unfold leading
  rw [degree_add_eq_left_of_degree_lt (by rwa [degree_X_pow]), degree_X_pow]

/-- The leading power of the root is the rest. -/
theorem root_pow_add (n d : Nat) :
    AdjoinRoot.root (leading n d) ^ n +
      AdjoinRoot.mk (leading n d) (toPoly d) = 0 := by
  rw [← AdjoinRoot.mk_X, ← map_pow, ← map_add]
  exact AdjoinRoot.mk_self

/-! ## Bit sequences -/

/-- The polynomial of a bit sequence; its first bit is the highest
coefficient. -/
noncomputable def bitsPoly (bits : List Bool) : (ZMod 2)[X] :=
  bits.foldl (fun poly b => poly * X + C (bit b)) 0

/-- The lowest `n` bits of a number, the least significant one first. -/
def lsbFirst (n d : Nat) : List Bool :=
  (List.range n).map d.testBit

theorem bitsPoly_append (bits others : List Bool) :
    bitsPoly (bits ++ others) =
      bitsPoly bits * X ^ others.length + bitsPoly others := by
  induction others using List.reverseRecOn with
  | nil =>
      rw [List.append_nil, List.length_nil, pow_zero, mul_one]
      exact (add_zero _).symm
  | append_singleton others b ih =>
      have snoc : ∀ bits : List Bool,
          bitsPoly (bits ++ [b]) = bitsPoly bits * X + C (bit b) := by
        intro bits
        unfold bitsPoly
        rw [List.foldl_append]
        rfl
      rw [← List.append_assoc, snoc, snoc, ih, List.length_append]
      show _ = _ * X ^ (others.length + 1) + _
      ring

theorem length_lsbFirst (n d : Nat) : (lsbFirst n d).length = n := by
  unfold lsbFirst
  rw [List.length_map, List.length_range]

theorem lsbFirst_add (n m d : Nat) :
    lsbFirst (n + m) d = lsbFirst n d ++ lsbFirst m (d >>> n) := by
  unfold lsbFirst
  rw [List.range_add, List.map_append, List.map_map]
  apply congrArg (_ ++ ·)
  apply List.map_congr_left
  intro i _
  exact (Nat.testBit_shiftRight d).symm

theorem lsbFirst_mod (n d : Nat) : lsbFirst n (d % 2 ^ n) = lsbFirst n d := by
  apply List.map_congr_left
  intro i member
  rw [Nat.testBit_mod_two_pow, decide_eq_true (List.mem_range.mp member),
    Bool.true_and]

/-- A number, the least significant bit first, is reflected. -/
theorem bitsPoly_lsbFirst (n d : Nat) :
    bitsPoly (lsbFirst n d) = toPoly (reflect n d) := by
  induction n with
  | zero =>
      have none : reflect 0 d = 0 := Nat.lt_one_iff.mp (reflect_lt 0 d)
      rw [none, toPoly_zero]
      rfl
  | succ n ih =>
      have snoc : lsbFirst (n + 1) d = lsbFirst n d ++ [d.testBit n] := by
        unfold lsbFirst
        rw [List.range_succ, List.map_append]
        rfl
      rw [snoc, bitsPoly_append, ih, reflect_succ, toPoly_xor,
        toPoly_shiftLeft, toPoly_toNat]
      show _ * X ^ 1 + (0 * X + _) = _
      rw [zero_mul, zero_add]

/-! ## Remainders -/

/-- The remainder differs from the dividend by a multiple. -/
theorem dvd_mod2 (poly n k d : Nat) :
    toPoly poly ∣ toPoly d - toPoly (mod2 poly n k d) := by
  induction k generalizing d with
  | zero =>
      unfold mod2
      rw [sub_self]
      exact dvd_zero _
  | succ k ih =>
      unfold mod2
      by_cases top : d.testBit (n + k)
      · rw [if_pos top]
        have step := ih (d ^^^ poly <<< k)
        rw [toPoly_xor, toPoly_shiftLeft, add_sub_right_comm] at step
        exact (dvd_add_left (dvd_mul_right _ _)).mp step
      · rw [if_neg top]
        exact ih d

/-- The remainder has `n` bits. -/
theorem mod2_lt {poly : Nat} (isDegree : poly < 2 ^ (n + 1))
    (leading : poly.testBit n) (small : d < 2 ^ (n + k)) :
    mod2 poly n k d < 2 ^ n := by
  induction k generalizing d with
  | zero => exact small
  | succ k ih =>
      unfold mod2
      apply ih
      apply Nat.lt_pow_two_of_testBit
      intro i high
      have above : ∀ {e bound : Nat}, e < 2 ^ bound → bound ≤ i →
          e.testBit i = false := fun small le =>
        Nat.testBit_lt_two_pow
          (Nat.lt_of_lt_of_le small (Nat.pow_le_pow_right (by decide) le))
      have shifted : poly <<< k < 2 ^ (n + k + 1) := by
        rw [Nat.shiftLeft_eq, Nat.add_right_comm, Nat.pow_add]
        exact Nat.mul_lt_mul_of_pos_right isDegree (Nat.two_pow_pos k)
      by_cases top : d.testBit (n + k)
      · rw [if_pos top, Nat.testBit_xor]
        by_cases here : i = n + k
        · rw [here, top, Nat.testBit_shiftLeft, Nat.add_sub_cancel, leading,
            decide_eq_true (Nat.le_add_left k n)]
          rfl
        · rw [above small (by omega), above shifted (by omega)]
          rfl
      · rw [if_neg top]
        by_cases here : i = n + k
        · rw [here]
          exact Bool.eq_false_of_not_eq_true top
        · exact above small (by omega)

/-- A remainder is determined by its class. -/
theorem eq_of_dvd_sub {poly : (ZMod 2)[X]} (degree : poly.degree = n)
    (smallA : a < 2 ^ n) (smallB : b < 2 ^ n)
    (dvd : poly ∣ toPoly a - toPoly b) : a = b := by
  apply toPoly_injective
  apply sub_eq_zero.mp
  apply eq_zero_of_dvd_of_degree_lt dvd
  rw [degree]
  exact lt_of_le_of_lt (degree_sub_le _ _)
    (max_lt (degree_toPoly smallA) (degree_toPoly smallB))

end Libcperciva.Lib.Gf2

