import Mathlib.Algebra.GroupWithZero.Nat

/-!
# Literals of `Fin`

A literal of `Fin n` needs that `n` is not zero.  For the sizes of hash states,
schedules, blocks and bit counts, one instance serves every definition.
-/

namespace Libcperciva.Lib.FinLiterals

scoped instance two : NeZero 2 := ⟨Nat.succ_ne_zero 1⟩

scoped instance four : NeZero 4 := ⟨Nat.succ_ne_zero 3⟩

scoped instance five : NeZero 5 := ⟨Nat.succ_ne_zero 4⟩

scoped instance eight : NeZero 8 := ⟨Nat.succ_ne_zero 7⟩

scoped instance fifteen : NeZero 15 := ⟨Nat.succ_ne_zero 14⟩

scoped instance sixteen : NeZero 16 := ⟨Nat.succ_ne_zero 15⟩

scoped instance sixtyFour : NeZero 64 := ⟨Nat.succ_ne_zero 63⟩

scoped instance eighty : NeZero 80 := ⟨Nat.succ_ne_zero 79⟩

/-- An index of a table of fifteen round keys. -/
theorem lt_fifteen (i : Fin 15) : i.val < 15 := i.isLt

theorem zero_lt_fifteen : 0 < 15 := Nat.succ_pos 14

theorem one_lt_fifteen : 1 < 15 := Nat.succ_lt_succ (Nat.succ_pos 13)

end Libcperciva.Lib.FinLiterals
