import Libcperciva.Crypto.DhModel
import Mathlib.Algebra.Order.Ring.Int
import Mathlib.Data.Int.ModEq

/-!
# Key agreement

The blinding splits the exponent into two positive parts, so the result does
not depend on it.
-/

namespace Libcperciva.Crypto.DhAgreement

open Libcperciva.Lib.BigEndian
open Libcperciva.Lib.Buffer
open Libcperciva.Crypto.DhModel

variable {priv blinding r pub : List UInt8} {a : Int}

/-! ## The modulus -/

/-- The group 14 modulus. -/
def modulus : Nat := value cryptoDhGroup14

theorem modulus_pos : 0 < modulus := by
  have notZero : modulus ≠ 0 := by decide +kernel
  exact Nat.pos_of_ne_zero notZero

theorem length_cryptoDhGroup14 : cryptoDhGroup14.length = 256 := by
  decide +kernel

theorem modulus_lt : modulus < 256 ^ 256 := by
  have less := value_lt cryptoDhGroup14
  rw [length_cryptoDhGroup14] at less
  exact less

theorem value_twoExp256 : value twoExp256 = 2 ^ 256 := by
  decide +kernel

/-! ## Exponents -/

/-- The exponent of a private value. -/
def exponent (priv : List UInt8) : Nat := 2 ^ 258 + value priv

theorem exponents_spec (length : blinding.length = 32) :
    0 < (exponents priv blinding).1 ∧ 0 < (exponents priv blinding).2 ∧
      (exponents priv blinding).1 + (exponents priv blinding).2 =
        exponent priv := by
  have bound : value blinding < 2 ^ 256 := by
    have less := value_lt blinding
    rw [length] at less
    exact less
  have four : 2 ^ 258 = 2 ^ 256 * 4 := by
    rw [show 258 = 256 + 2 from rfl, Nat.pow_add]
  unfold exponents exponent bnBin2bn
  rw [value_twoExp256, four]
  dsimp only
  generalize value priv = x
  generalize value blinding = b at bound
  generalize 2 ^ 256 = t at bound
  refine ⟨?_, ?_, ?_⟩ <;> omega

/-- The product of the two powers. -/
theorem modMul_modExp (a : Int) {e f m : Int} (positive : 0 < e)
    (positive' : 0 < f) :
    bnModMul (bnModExp a e m) (bnModExp a f m) m =
      a ^ (e + f).natAbs % m := by
  have sum : (e + f).natAbs = e.natAbs + f.natAbs := by omega
  unfold bnModMul bnModExp
  rw [sum, pow_add, ← Int.mul_emod]

/-- What is written for a power. -/
def power (a : Int) (priv : List UInt8) : List UInt8 :=
  encode 256 (a ^ exponent priv % modulus).toNat

/-- A buffer that is filled in two parts. -/
theorem write_parts {front rest : List UInt8}
    (length : front.length + rest.length = r.length) :
    write (write r 0 front) front.length rest = front ++ rest := by
  have both := @write_write _ r front 0 rest (Nat.zero_le _)
  rw [Nat.zero_add] at both
  rw [both, write_end]
  · rw [List.take_zero, List.nil_append]
  · rw [List.length_append, length, Nat.zero_add]

/-- The buffer is filled with zeros and the number. -/
theorem write_padded {x : Nat} (length : r.length = 256)
    (small : x < 256 ^ 256) :
    write (write r 0 (List.replicate (256 - numBytes x) 0))
        (256 - numBytes x) (encode (numBytes x) x) = encode 256 x := by
  have fits := numBytes_le small
  have zeros : (List.replicate (256 - numBytes x) (0 : UInt8)).length =
      256 - numBytes x :=
    List.length_replicate
  have whole := @write_parts r (List.replicate (256 - numBytes x) 0)
    (encode (numBytes x) x) (by
      rw [zeros, length_encode, length]
      exact Nat.sub_add_cancel fits)
  rw [zeros, encode_numBytes small] at whole
  exact whole

/-- `blinded_modexp` does not depend on the blinding. -/
theorem blindedModexp_spec (lengthR : r.length = 256)
    (length : blinding.length = 32) :
    blindedModexp r a priv (some blinding) = (0, power a priv) := by
  have spec := @exponents_spec priv blinding length
  have product := @modMul_modExp a _ _ modulus spec.1 spec.2.1
  rw [spec.2.2, Int.natAbs_natCast] at product
  have positive : (0 : Int) < modulus := Int.natCast_pos.mpr modulus_pos
  have small : (a ^ exponent priv % modulus).toNat < 256 ^ 256 := by
    have less := Int.emod_lt_of_pos (a ^ exponent priv) positive
    have bound := modulus_lt
    omega
  have natural : (a ^ exponent priv % modulus).natAbs =
      (a ^ exponent priv % modulus).toNat := by
    have nonnegative := Int.emod_nonneg (a ^ exponent priv)
      (Int.ne_of_gt positive)
    omega
  have fits : ¬ numBytes (a ^ exponent priv % modulus).toNat >
      CRYPTO_DH_PUBLEN :=
    Nat.not_lt.mpr (numBytes_le small)
  have written := write_padded lengthR small
  unfold blindedModexp
  dsimp only
  rw [show bnBin2bn cryptoDhGroup14 = modulus from rfl, product, natural,
    if_neg fits, bnBn2bin, natural]
  exact congrArg (Prod.mk 0) written

/-! ## Agreement -/

theorem checked_zero (r : List UInt8) : checked (0, r) = (0, r) := rfl

theorem cryptoDhGeneratePub_spec (lengthR : r.length = 256)
    (length : blinding.length = 32) :
    cryptoDhGeneratePub r priv (some blinding) = (0, power 2 priv) := by
  unfold cryptoDhGeneratePub
  rw [blindedModexp_spec lengthR length, checked_zero]

theorem cryptoDhCompute_spec (lengthR : r.length = 256)
    (length : blinding.length = 32) :
    cryptoDhCompute pub priv r (some blinding) =
      (0, power (value pub) priv) := by
  unfold cryptoDhCompute bnBin2bn
  rw [blindedModexp_spec lengthR length, checked_zero]

/-- A power is a number below the modulus. -/
theorem value_power (a : Int) (priv : List UInt8) :
    (value (power a priv) : Int) = a ^ exponent priv % modulus := by
  have positive : (0 : Int) < modulus := Int.natCast_pos.mpr modulus_pos
  have nonnegative := Int.emod_nonneg (a ^ exponent priv)
    (Int.ne_of_gt positive)
  have small : (a ^ exponent priv % modulus).toNat < 256 ^ 256 := by
    have less := Int.emod_lt_of_pos (a ^ exponent priv) positive
    have bound := modulus_lt
    omega
  unfold power
  rw [value_encode_of_lt small]
  exact Int.toNat_of_nonneg nonnegative

/-- A power of a power. -/
theorem power_power (a : Int) (privA privB : List UInt8) :
    power (value (power a privA)) privB =
      encode 256 (a ^ (exponent privA * exponent privB) % modulus).toNat := by
  have residue : (a ^ exponent privA % modulus) ^ exponent privB % modulus =
      (a ^ exponent privA) ^ exponent privB % modulus :=
    (Int.mod_modEq (a ^ exponent privA) modulus).pow (exponent privB)
  rw [power, value_power, residue, ← pow_mul]

/-! ## The sanity check -/

/-- Strings of one length are compared like numbers. -/
theorem memcmp_nonneg_iff {as bs : List UInt8}
    (length : as.length = bs.length) :
    memcmp as bs ≥ 0 ↔ value bs ≤ value as := by
  induction as generalizing bs with
  | nil =>
      cases bs with
      | nil => exact ⟨fun _ => Nat.le_refl 0, fun _ => Int.le_refl 0⟩
      | cons b bs => cases length
  | cons a as ih =>
      cases bs with
      | nil => cases length
      | cons b bs =>
          have rest : as.length = bs.length := Nat.succ.inj length
          unfold memcmp
          by_cases same : a = b
          · rw [if_pos same, ih rest, same, value, value, rest]
            exact (Nat.add_le_add_iff_left).symm
          · rw [if_neg same]
            have differ : a.toNat ≠ b.toNat := fun equal =>
              same (UInt8.toNat_inj.mp equal)
            rcases Nat.lt_or_gt_of_ne differ with less | greater
            · have below := value_cons_lt rest less
              constructor
              · intro nonnegative
                omega
              · intro above
                omega
            · have above := value_cons_lt rest.symm greater
              constructor
              · intro _
                exact Nat.le_of_lt above
              · intro _
                omega

/-- The check accepts what is less than the modulus. -/
theorem cryptoDhSanitycheck_iff (length : pub.length = 256) :
    cryptoDhSanitycheck pub = 0 ↔ value pub < modulus := by
  have compared := @memcmp_nonneg_iff pub cryptoDhGroup14
    (length.trans length_cryptoDhGroup14.symm)
  unfold cryptoDhSanitycheck
  by_cases above : memcmp pub cryptoDhGroup14 ≥ 0
  · rw [if_pos above]
    constructor
    · intro impossible
      cases impossible
    · intro less
      exact absurd (compared.mp above) (Nat.not_le.mpr less)
  · rw [if_neg above]
    constructor
    · intro _
      exact Nat.lt_of_not_le fun more => above (compared.mpr more)
    · intro _
      rfl

theorem value_power_lt (a : Int) (priv : List UInt8) :
    value (power a priv) < modulus := by
  have positive : (0 : Int) < modulus := Int.natCast_pos.mpr modulus_pos
  have less := Int.emod_lt_of_pos (a ^ exponent priv) positive
  rw [← value_power] at less
  exact Int.ofNat_lt.mp less

/-- The exponents are positive, the blinding has no effect, the two parties
agree, and the check accepts exactly the numbers below the modulus. -/
theorem dh_blinding_agreement :
    (∀ (a : Int) (priv blinding r : List UInt8), priv.length = 32 →
      blinding.length = 32 → r.length = 256 →
        0 < (exponents priv blinding).1 ∧ 0 < (exponents priv blinding).2 ∧
          (exponents priv blinding).1 + (exponents priv blinding).2 =
            exponent priv ∧
          blindedModexp r a priv (some blinding) = (0, power a priv)) ∧
    (∀ privA privB blindA blindB blindA' blindB' rA rB keyA keyB : List UInt8,
      privA.length = 32 → privB.length = 32 → blindA.length = 32 →
      blindB.length = 32 → blindA'.length = 32 → blindB'.length = 32 →
      rA.length = 256 → rB.length = 256 → keyA.length = 256 →
      keyB.length = 256 →
        ∃ pubA pubB key,
          cryptoDhGeneratePub rA privA (some blindA) = (0, pubA) ∧
          cryptoDhGeneratePub rB privB (some blindB) = (0, pubB) ∧
          cryptoDhCompute pubA privB keyB (some blindB') = (0, key) ∧
          cryptoDhCompute pubB privA keyA (some blindA') = (0, key) ∧
          cryptoDhSanitycheck pubA = 0 ∧ cryptoDhSanitycheck pubB = 0) ∧
    ∀ pub : List UInt8, pub.length = 256 →
      (cryptoDhSanitycheck pub = 0 ↔ value pub < modulus) := by
  refine ⟨?_, ?_, fun pub length => cryptoDhSanitycheck_iff length⟩
  · intro a priv blinding r _ length lengthR
    have spec := @exponents_spec priv blinding length
    exact ⟨spec.1, spec.2.1, spec.2.2, blindedModexp_spec lengthR length⟩
  · intro privA privB blindA blindB blindA' blindB' rA rB keyA keyB _ _
      lengthA lengthB lengthA' lengthB' lengthRA lengthRB lengthKA lengthKB
    have accepted (priv : List UInt8) :
        cryptoDhSanitycheck (power 2 priv) = 0 :=
      (cryptoDhSanitycheck_iff (length_encode 256 _)).mpr
        (value_power_lt 2 priv)
    refine ⟨power 2 privA, power 2 privB, power (value (power 2 privA)) privB,
      cryptoDhGeneratePub_spec lengthRA lengthA,
      cryptoDhGeneratePub_spec lengthRB lengthB,
      cryptoDhCompute_spec lengthKB lengthB', ?_, accepted privA,
      accepted privB⟩
    rw [cryptoDhCompute_spec lengthKA lengthA', power_power, power_power,
      Nat.mul_comm]

/-- A base, two private values and a number. -/
theorem dh_blinding_agreement_ones :
    blindedModexp (List.replicate 256 9) 5 (List.replicate 32 1)
        (some (List.replicate 32 2)) =
      (0, power 5 (List.replicate 32 1)) ∧
    (∃ pubA pubB key,
      cryptoDhGeneratePub (List.replicate 256 9) (List.replicate 32 1)
        (some (List.replicate 32 2)) = (0, pubA) ∧
      cryptoDhGeneratePub (List.replicate 256 9) (List.replicate 32 3)
        (some (List.replicate 32 4)) = (0, pubB) ∧
      cryptoDhCompute pubA (List.replicate 32 3) (List.replicate 256 9)
        (some (List.replicate 32 6)) = (0, key) ∧
      cryptoDhCompute pubB (List.replicate 32 1) (List.replicate 256 9)
        (some (List.replicate 32 5)) = (0, key) ∧
      cryptoDhSanitycheck pubA = 0 ∧ cryptoDhSanitycheck pubB = 0) ∧
    (cryptoDhSanitycheck (List.replicate 256 7) = 0 ↔
      value (List.replicate 256 7) < modulus) := by
  refine ⟨?_, ?_, ?_⟩
  · have blinded := dh_blinding_agreement.1 5 (List.replicate 32 1)
      (List.replicate 32 2) (List.replicate 256 9) List.length_replicate
      List.length_replicate List.length_replicate
    exact blinded.2.2.2
  · exact dh_blinding_agreement.2.1 (List.replicate 32 1)
      (List.replicate 32 3) (List.replicate 32 2) (List.replicate 32 4)
      (List.replicate 32 5) (List.replicate 32 6) (List.replicate 256 9)
      (List.replicate 256 9) (List.replicate 256 9) (List.replicate 256 9)
      List.length_replicate List.length_replicate List.length_replicate
      List.length_replicate List.length_replicate List.length_replicate
      List.length_replicate List.length_replicate List.length_replicate
      List.length_replicate
  · exact dh_blinding_agreement.2.2 (List.replicate 256 7)
      List.length_replicate

end Libcperciva.Crypto.DhAgreement
