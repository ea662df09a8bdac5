import Mathlib.Data.List.Basic

/-!
# HMAC_DRBG, as in SP 800-90, section 10.1.2

Without a personalization string and without additional input.  The function
`HMAC` is a parameter, with outputs of `outlen` bytes.
-/

namespace Libcperciva.Lib.HmacDrbg

/-- The working state. -/
structure State where
  V : List UInt8
  Key : List UInt8
  reseedCounter : Nat

variable (HMAC : List UInt8 → List UInt8 → List UInt8) (outlen : Nat)

/-- `HMAC_DRBG_Update`, section 10.1.2.2. -/
def update (provided : List UInt8) (state : State) : State :=
  let Key := HMAC state.Key (state.V ++ 0x00 :: provided)
  let V := HMAC Key state.V
  if provided = [] then { state with Key, V }
  else
    let Key := HMAC Key (V ++ 0x01 :: provided)
    { state with Key, V := HMAC Key V }

/-- Instantiation, section 10.1.2.3. -/
def instantiate (seedMaterial : List UInt8) : State :=
  update HMAC seedMaterial
    { V := List.replicate outlen 0x01
      Key := List.replicate outlen 0x00
      reseedCounter := 1 }

/-- Reseeding, section 10.1.2.4. -/
def reseed (state : State) (entropyInput : List UInt8) : State :=
  { update HMAC entropyInput state with reseedCounter := 1 }

/-- So many outputs, and the last value of `V`. -/
def outputs (Key : List UInt8) : Nat → List UInt8 → List UInt8 × List UInt8
  | 0, V => ([], V)
  | blocks + 1, V =>
      let V := HMAC Key V
      let (temp, last) := outputs Key blocks V
      (V ++ temp, last)

/-- Generation, section 10.1.2.5: the bytes and the new state. -/
def generate (state : State) (n : Nat) : List UInt8 × State :=
  let (temp, V) := outputs HMAC state.Key ((n + outlen - 1) / outlen) state.V
  let updated := update HMAC [] { state with V }
  (temp.take n, { updated with reseedCounter := state.reseedCounter + 1 })

variable {HMAC outlen} {state : State}

/-! ## Lengths -/

section Lengths

variable (uniform : ∀ K text, (HMAC K text).length = outlen)

include uniform

/-- An update leaves a key and a value of the right lengths. -/
theorem length_update (provided : List UInt8) :
    (update HMAC provided state).Key.length = outlen ∧
      (update HMAC provided state).V.length = outlen := by
  unfold update
  by_cases null : provided = []
  · rw [if_pos null]
    exact ⟨uniform _ _, uniform _ _⟩
  · rw [if_neg null]
    exact ⟨uniform _ _, uniform _ _⟩

theorem length_outputs (Key V : List UInt8) (blocks : Nat) :
    (outputs HMAC Key blocks V).1.length = blocks * outlen := by
  induction blocks generalizing V with
  | zero => exact (Nat.zero_mul outlen).symm
  | succ blocks ih =>
      show (HMAC Key V ++ (outputs HMAC Key blocks (HMAC Key V)).1).length = _
      rw [List.length_append, uniform, ih, Nat.succ_mul, Nat.add_comm]

theorem length_generate (positive : 0 < outlen) (n : Nat) :
    (generate HMAC outlen state n).1.length = n := by
  show ((outputs HMAC state.Key _ state.V).1.take n).length = n
  rw [List.length_take, length_outputs uniform]
  have enough : n ≤ (n + outlen - 1) / outlen * outlen := by
    have bound := @Nat.lt_div_mul_add (n + outlen - 1) outlen positive
    omega
  exact Nat.min_eq_left enough

end Lengths

end Libcperciva.Lib.HmacDrbg
