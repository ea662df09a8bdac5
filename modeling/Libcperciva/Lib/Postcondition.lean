import Mathlib.Tactic.Common

/-!
# Postconditions of computations that may fail

A computation in `Except` either has a result or ends with an error.  Its
specification says what holds of the result and which errors may occur.
-/

namespace Libcperciva.Lib.Postcondition

universe u

variable {ε : Type*} {α β : Type u} {allowed : ε → Prop} {post post' : α → Prop}

/-- The result satisfies `post`, or the error is an allowed one. -/
def Ensures (allowed : ε → Prop) (post : α → Prop) : Except ε α → Prop
  | .ok a => post a
  | .error e => allowed e

theorem Ensures.mono {x : Except ε α} (ensures : Ensures allowed post x)
    (weaker : ∀ a, post a → post' a) : Ensures allowed post' x := by
  cases x with
  | ok a => exact weaker a ensures
  | error e => exact ensures

/-- The second computation starts from a result of the first. -/
theorem Ensures.bind {x : Except ε α} {f : α → Except ε β}
    {final : β → Prop} (first : Ensures allowed post x)
    (next : ∀ a, post a → Ensures allowed final (f a)) :
    Ensures allowed final (x >>= f) := by
  cases x with
  | ok a => exact next a first
  | error e => exact first

theorem Ensures.ite {condition : Prop} [Decidable condition]
    {x y : Except ε α} (whenTrue : condition → Ensures allowed post x)
    (whenFalse : ¬ condition → Ensures allowed post y) :
    Ensures allowed post (if condition then x else y) := by
  by_cases holds : condition
  · rw [if_pos holds]
    exact whenTrue holds
  · rw [if_neg holds]
    exact whenFalse holds

theorem Ensures.of_ok {x : Except ε α} {a : α}
    (ensures : Ensures allowed post x) (result : x = .ok a) : post a := by
  rw [result] at ensures
  exact ensures

theorem Ensures.of_error {x : Except ε α} {e : ε}
    (ensures : Ensures allowed post x) (result : x = .error e) :
    allowed e := by
  rw [result] at ensures
  exact ensures

end Libcperciva.Lib.Postcondition
