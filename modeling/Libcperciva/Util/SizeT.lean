import Mathlib.Algebra.Group.Nat.Defs
import Mathlib.Tactic.Common

/-!
# `size_t`

Values of `size_t` are natural numbers below `2 ^ 64`; the arithmetic wraps.
-/

namespace Libcperciva.Util.SizeT

/-- `SSIZE_MAX`. -/
def SSIZE_MAX : Nat := 2 ^ 63 - 1

/-- `a + b`. -/
def sizeAdd (a b : Nat) : Nat := (a + b) % 2 ^ 64

/-- `a - b`. -/
def sizeSub (a b : Nat) : Nat := (a + (2 ^ 64 - b)) % 2 ^ 64

/-- `a * b`. -/
def sizeMul (a b : Nat) : Nat := a * b % 2 ^ 64

variable {a b : Nat}

theorem sizeAdd_eq (fits : a + b < 2 ^ 64) : sizeAdd a b = a + b :=
  Nat.mod_eq_of_lt fits

theorem sizeSub_eq (le : b ≤ a) (fits : a < 2 ^ 64) :
    sizeSub a b = a - b := by
  unfold sizeSub
  omega

theorem sizeMul_lt (a b : Nat) : sizeMul a b < 2 ^ 64 :=
  Nat.mod_lt _ (by decide)

end Libcperciva.Util.SizeT
