import Libcperciva.Alg.Crc32cModel
import Mathlib.Data.Nat.Bitwise

/-!
# The arithmetic of CRC32C

A state stands for the residue of its reflected polynomial modulo the
Castagnoli polynomial.  The tables multiply by powers of the root, and so do
the instructions.
-/

namespace Libcperciva.Alg.Crc32cPolynomial

open scoped Polynomial
open Libcperciva.Lib.Buffer
open Libcperciva.Lib.Gf2
open Libcperciva.Alg.Crc32cModel

variable {a b d k : Nat}

/-! ## Residues -/

/-- The Castagnoli polynomial, `X ^ 32 + 0x1EDC6F41`. -/
noncomputable def castagnoli : (ZMod 2)[X] := leading 32 0x1EDC6F41

theorem castagnoli_eq : castagnoli = toPoly 0x11EDC6F41 := by
  have split : 1 <<< 32 ^^^ 0x1EDC6F41 = 0x11EDC6F41 := by simp
  exact (leading_eq_toPoly 32 0x1EDC6F41).trans (congrArg toPoly split)

theorem degree_castagnoli : castagnoli.degree = (32 : Nat) :=
  degree_leading (by decide)

/-- The residue of a number. -/
noncomputable def residue (d : Nat) : AdjoinRoot castagnoli :=
  AdjoinRoot.mk castagnoli (toPoly d)

/-- The residue of `X`. -/
noncomputable abbrev root : AdjoinRoot castagnoli := AdjoinRoot.root castagnoli

theorem residue_xor (a b : Nat) :
    residue (a ^^^ b) = residue a + residue b := by
  unfold residue
  rw [toPoly_xor, map_add]

theorem residue_add_self (d : Nat) : residue d + residue d = 0 := by
  unfold residue
  rw [← map_add, add_self, map_zero]

theorem residue_shiftLeft (d k : Nat) :
    residue (d <<< k) = residue d * root ^ k := by
  unfold residue
  rw [toPoly_shiftLeft, map_mul, map_pow, AdjoinRoot.mk_X]

theorem residue_mod2 (k d : Nat) :
    residue (mod2 0x11EDC6F41 32 k d) = residue d := by
  apply Eq.symm
  apply AdjoinRoot.mk_eq_mk.mpr
  rw [castagnoli_eq]
  exact dvd_mod2 _ 32 k d

/-- Equal residues of numbers with 32 bits. -/
theorem eq_of_residue (smallA : a < 2 ^ 32) (smallB : b < 2 ^ 32)
    (equal : residue a = residue b) : a = b :=
  eq_of_dvd_sub degree_castagnoli smallA smallB (AdjoinRoot.mk_eq_mk.mp equal)

/-! ## Registers -/

/-- What a state stands for. -/
noncomputable def register (d : Nat) : AdjoinRoot castagnoli :=
  residue (reflect 32 d)

theorem register_xor (a b : Nat) :
    register (a ^^^ b) = register a + register b := by
  unfold register
  rw [reflect_xor, residue_xor]

/-- The lowest byte is shifted out. -/
theorem register_shift (small : d < 2 ^ 32) :
    register d * root ^ 8 =
      register (d >>> 8) + register (d % 2 ^ 8) * root ^ 8 := by
  unfold register
  rw [← residue_shiftLeft, reflect_shiftLeft small, residue_xor,
    residue_shiftLeft]

theorem register_injective (smallA : a < 2 ^ 32) (smallB : b < 2 ^ 32)
    (equal : register a = register b) : a = b := by
  have reflected := eq_of_residue (reflect_lt 32 a) (reflect_lt 32 b) equal
  rw [← reflect_reflect smallA, reflected, reflect_reflect smallB]

/-! ## Reversed bits -/

/-- Where a bit comes from when neighbouring groups of `s` bits are swapped. -/
def swapped (s i : Nat) : Nat :=
  if i / s % 2 = 1 then i - s else s + i

/-- The masks of a step that swaps neighbouring groups of `s` bits. -/
def Masks (s hi lo : Nat) : Prop :=
  ∀ i < 32, hi.testBit (s + i) = decide (i / s % 2 = 0) ∧
    (decide (s ≤ i) && lo.testBit (i - s)) = decide (i / s % 2 = 1)

/-- A step of the code that reverses the bits. -/
theorem testBit_swap {s hi lo : UInt32} (x : UInt32) (few : s.toNat < 32)
    (masks : Masks s.toNat hi.toNat lo.toNat) {i : Nat} (inside : i < 32) :
    ((x &&& hi) >>> s ||| (x &&& lo) <<< s).toNat.testBit i =
      x.toNat.testBit (swapped s.toNat i) := by
  rcases masks i inside with ⟨high, low⟩
  simp only [UInt32.toNat_or, UInt32.toNat_shiftRight, UInt32.toNat_and,
    UInt32.toNat_shiftLeft, Nat.testBit_or, Nat.testBit_shiftRight,
    Nat.testBit_and, Nat.testBit_mod_two_pow, Nat.testBit_shiftLeft,
    Nat.mod_eq_of_lt few, high, inside]
  unfold swapped
  by_cases odd : i / s.toNat % 2 = 1
  · rw [decide_eq_true odd, Bool.and_eq_true] at low
    simp [odd, low.1, low.2]
  · have even : i / s.toNat % 2 = 0 := by omega
    have unmasked : (decide (i ≥ s.toNat) &&
        lo.toNat.testBit (i - s.toNat)) = false := by
      rw [← decide_eq_false odd]
      exact low
    rw [if_neg odd, decide_eq_true even, Bool.and_true, decide_true,
      Bool.true_and, Bool.and_comm (x.toNat.testBit (i - s.toNat)),
      ← Bool.and_assoc, unmasked, Bool.false_and, Bool.or_false]

/-- `reverse`. -/
theorem toNat_reverse (x : UInt32) : (reverse x).toNat = reflect 32 x.toNat := by
  apply Nat.eq_of_testBit_eq
  intro i
  rw [testBit_reflect]
  by_cases inside : i < 32
  · have places : swapped 1 i < 32 ∧ swapped 2 (swapped 1 i) < 32 ∧
        swapped 4 (swapped 2 (swapped 1 i)) < 32 ∧
        swapped 8 (swapped 4 (swapped 2 (swapped 1 i))) < 32 ∧
        swapped 16 (swapped 8 (swapped 4 (swapped 2 (swapped 1 i)))) =
          32 - 1 - i := by
      revert i
      decide
    rcases places with ⟨in1, in2, in4, in8, last⟩
    have step16 := @testBit_swap 16 0xffff0000 0x0000ffff
    have step8 := @testBit_swap 8 0xff00ff00 0x00ff00ff
    have step4 := @testBit_swap 4 0xf0f0f0f0 0x0f0f0f0f
    have step2 := @testBit_swap 2 0xcccccccc 0x33333333
    have step1 := @testBit_swap 1 0xaaaaaaaa 0x55555555
    unfold Masks at step16 step8 step4 step2 step1
    rw [decide_eq_true inside, Bool.true_and, ← last]
    unfold reverse
    apply (step1 _ (by decide) (by decide) inside).trans
    apply (step2 _ (by decide) (by decide) in1).trans
    apply (step4 _ (by decide) (by decide) in2).trans
    apply (step8 _ (by decide) (by decide) in4).trans
    exact step16 _ (by decide) (by decide) in8
  · have high : (reverse x).toNat.testBit i = false :=
      Nat.testBit_lt_two_pow (Nat.lt_of_lt_of_le (reverse x).toNat_lt
        (Nat.pow_le_pow_right (by decide) (Nat.le_of_not_lt inside)))
    rw [high, decide_eq_false inside, Bool.false_and]

/-! ## Tables -/

/-- Shifting by one bit is one step of a division. -/
theorem toNat_shiftBit (r : UInt32) :
    (shiftBit r).toNat = mod2 0x11EDC6F41 32 1 (r.toNat <<< 1) := by
  have small : r.toNat <<< 1 < 2 ^ (32 + 1) := by
    rw [Nat.shiftLeft_eq]
    have := r.toNat_lt
    omega
  have fits := @mod2_lt 32 1 _ 0x11EDC6F41 (by decide) (by decide) small
  have shifted : (r <<< 1).toNat = r.toNat <<< 1 % 2 ^ 32 :=
    UInt32.toNat_shiftLeft r 1
  have top : (r.toNat <<< 1).testBit 32 = r.toNat.testBit 31 := by
    rw [Nat.testBit_shiftLeft]
    rfl
  unfold mod2 mod2 at fits ⊢
  rw [Nat.shiftLeft_zero, Nat.add_zero, top] at fits ⊢
  have tested : r &&& 0x80000000 ≠ 0 ↔ r.toNat.testBit 31 := by
    rw [← UInt32.toNat_inj.ne, UInt32.toNat_and]
    show r.toNat &&& 2 ^ 31 ≠ 0 ↔ _
    rw [Nat.and_two_pow]
    cases r.toNat.testBit 31 <;> simp
  unfold shiftBit
  by_cases isSet : r.toNat.testBit 31
  · rw [if_pos isSet] at fits ⊢
    rw [if_pos (tested.mpr isSet), UInt32.toNat_xor, shifted,
      ← Nat.mod_eq_of_lt fits, Nat.xor_mod_two_pow]
    rfl
  · rw [if_neg isSet] at fits ⊢
    rw [if_neg (mt tested.mp isSet), shifted, Nat.mod_eq_of_lt fits]

theorem residue_times256 (r : UInt32) :
    residue (times256 r).toNat = residue r.toNat * root ^ 8 := by
  have step : ∀ r : UInt32,
      residue (shiftBit r).toNat = residue r.toNat * root := by
    intro r
    rw [toNat_shiftBit, residue_mod2, residue_shiftLeft, pow_one]
  have steps : ∀ count : Nat,
      residue (shiftBit^[count] r).toNat = residue r.toNat * root ^ count := by
    intro count
    induction count with
    | zero => exact (mul_one _).symm
    | succ count ih =>
        rw [Function.iterate_succ_apply', step, ih, pow_succ, mul_assoc]
  exact steps 8

/-- What a state with reversed bits stands for. -/
theorem register_reverse (x : UInt32) :
    register (reverse x).toNat = residue x.toNat := by
  unfold register
  rw [toNat_reverse, reflect_reflect x.toNat_lt]

theorem residue_reverse (x : UInt32) :
    residue (reverse x).toNat = register x.toNat := by
  rw [toNat_reverse]
  rfl

/-- The elements of a table are multiples of their indices. -/
def Multiplies (T : Table) (n : Nat) : Prop :=
  ∀ i : UInt32, i.toNat < 256 →
    register (T.at i).toNat = register i.toNat * root ^ n

/-- The tables multiply by powers of the root. -/
structure Powers (T : Tables) : Prop where
  T0 : Multiplies T.T0 8
  T1 : Multiplies T.T1 16
  T2 : Multiplies T.T2 24
  T3 : Multiplies T.T3 32

/-- `init` fills in the tables, and the assertion holds. -/
theorem init_spec : ∃ tables, init = .ok tables ∧ Powers tables := by
  have optimized : reverse (times256 (reverse
      (UInt32.ofNat (0x80 : Fin 256).val))) = T_0_0x80 := by
    decide
  have index : ∀ i : UInt32, i.toNat < 256 →
      UInt32.ofNat (Fin.ofNat 256 i.toNat).val = i := by
    intro i few
    show UInt32.ofNat (i.toNat % 256) = i
    rw [Nat.mod_eq_of_lt few, UInt32.ofNat_toNat]
  unfold init
  dsimp only
  rw [if_pos optimized]
  refine ⟨_, rfl, ?_, ?_, ?_, ?_⟩
  · intro i few
    show register (reverse (times256 (reverse (UInt32.ofNat _)))).toNat = _
    rw [index i few, register_reverse, residue_times256, residue_reverse]
  · intro i few
    show register (reverse (times256 (times256
      (reverse (UInt32.ofNat _))))).toNat = _
    rw [index i few, register_reverse, residue_times256, residue_times256,
      residue_reverse]
    ring
  · intro i few
    show register (reverse (times256 (times256 (times256
      (reverse (UInt32.ofNat _)))))).toNat = _
    rw [index i few, register_reverse, residue_times256, residue_times256,
      residue_times256, residue_reverse]
    ring
  · intro i few
    show register (reverse (times256 (times256 (times256 (times256
      (reverse (UInt32.ofNat _))))))).toNat = _
    rw [index i few, register_reverse, residue_times256, residue_times256,
      residue_times256, residue_times256, residue_reverse]
    ring

/-- The initial state stands for the implicit leading bit. -/
theorem register_T_0_0x80 : register T_0_0x80.toNat = root ^ 32 := by
  have reflected : reflect 32 T_0_0x80.toNat = 0x1EDC6F41 := by decide
  have low : root ^ 32 + residue 0x1EDC6F41 = 0 :=
    root_pow_add 32 0x1EDC6F41
  unfold register
  rw [reflected]
  calc
    residue 0x1EDC6F41 =
        residue 0x1EDC6F41 + (root ^ 32 + residue 0x1EDC6F41) := by
      rw [low, add_zero]
    _ = root ^ 32 + (residue 0x1EDC6F41 + residue 0x1EDC6F41) := by ring
    _ = root ^ 32 := by rw [residue_add_self, add_zero]

end Libcperciva.Alg.Crc32cPolynomial
