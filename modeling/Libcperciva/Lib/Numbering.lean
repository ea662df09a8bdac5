import Mathlib.Logic.Function.Basic

/-!
# Numbered maps

A numbered map gives its values the numbers 0, 1, 2 and so on, in the order in
which they are added, and never gives a number twice.
-/

namespace Libcperciva.Lib.Numbering

/-- The values that were added and not deleted, under their numbers, and how
many were added. -/
structure NumberedMap (α : Type*) where
  issued : Nat
  lookup : Int → Option α

variable {α : Type*} {map : NumberedMap α} {i j : Int} {value : α}

namespace NumberedMap

/-- Nothing was added. -/
def empty : NumberedMap α where
  issued := 0
  lookup := fun _ => none

def add (map : NumberedMap α) (value : α) : NumberedMap α where
  issued := map.issued + 1
  lookup := Function.update map.lookup map.issued (some value)

def delete (map : NumberedMap α) (i : Int) : NumberedMap α where
  issued := map.issued
  lookup := Function.update map.lookup i none

@[simp]
theorem lookup_add_self (map : NumberedMap α) (value : α) :
    (map.add value).lookup map.issued = some value :=
  Function.update_self _ _ _

theorem lookup_add_of_ne (other : i ≠ map.issued) :
    (map.add value).lookup i = map.lookup i :=
  Function.update_of_ne other _ _

@[simp]
theorem lookup_delete_self (map : NumberedMap α) (i : Int) :
    (map.delete i).lookup i = none :=
  Function.update_self _ _ _

theorem lookup_delete_of_ne (other : j ≠ i) :
    (map.delete i).lookup j = map.lookup j :=
  Function.update_of_ne other _ _

/-- To delete a number that is not in use has no effect. -/
theorem delete_unused (unused : map.lookup i = none) : map.delete i = map := by
  unfold delete
  rw [← unused, Function.update_eq_self]

/-- Only numbers that were given are in use. -/
def WellNumbered (map : NumberedMap α) : Prop :=
  ∀ i, map.lookup i ≠ none → 0 ≤ i ∧ i < map.issued

end NumberedMap

end Libcperciva.Lib.Numbering
