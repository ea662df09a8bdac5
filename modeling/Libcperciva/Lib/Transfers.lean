import Mathlib.Data.List.Basic
import Mathlib.Tactic.Common

/-!
# Transfers in parts

A transfer moves between `least` and `most` items in any number of parts, and
reports once how many it moved, that the other side closed, or that it failed;
it can be cancelled while it waits.
-/

namespace Libcperciva.Lib.Transfers

/-- A transfer, and what it has reported. -/
structure Transfer where
  moved : Nat := 0
  waiting : Bool := true
  reports : List Int := []
  cancelled : Bool := false
  closed : Bool := false
  failed : Bool := false

variable {least most : Nat} {t t' : Transfer}

/-- What happens to a transfer that waits.  Whether the other side has closed
or something has failed may be learned in any step. -/
inductive Step (least most : Nat) (t : Transfer) : Transfer → Prop where
  | moves (n : Nat) (closed failed : Bool) (waiting : t.waiting = true)
      (fits : t.moved + n ≤ most) (short : t.moved + n < least) :
      Step least most t { t with moved := t.moved + n, closed, failed }
  | completes (n : Nat) (closed failed : Bool) (waiting : t.waiting = true)
      (fits : t.moved + n ≤ most) (enough : least ≤ t.moved + n) :
      Step least most t { t with
        moved := t.moved + n
        waiting := false
        closed
        failed
        reports := t.reports ++ [((t.moved + n : Nat) : Int)] }
  | closes (failed : Bool) (waiting : t.waiting = true) :
      Step least most t { t with
        waiting := false
        closed := true
        failed
        reports := t.reports ++ [0] }
  | fails (n : Nat) (closed : Bool) (waiting : t.waiting = true)
      (fits : t.moved + n ≤ most) :
      Step least most t { t with
        moved := t.moved + n
        waiting := false
        closed
        failed := true
        reports := t.reports ++ [-1] }
  | cancels (waiting : t.waiting = true) :
      Step least most t { t with waiting := false, cancelled := true }

/-- How a transfer stands. -/
inductive Stands (least most : Nat) (t : Transfer) : Prop where
  /-- It has reported nothing. -/
  | waits (waiting : t.waiting = true) (short : t.moved < least)
      (silent : t.reports = []) (notCancelled : t.cancelled = false)
  | done (idle : t.waiting = false) (enough : least ≤ t.moved)
      (fits : t.moved ≤ most) (reported : t.reports = [(t.moved : Int)])
      (notCancelled : t.cancelled = false)
  | closed (idle : t.waiting = false) (isClosed : t.closed = true)
      (short : t.moved < least) (reported : t.reports = [0])
      (notCancelled : t.cancelled = false)
  | failed (idle : t.waiting = false) (isFailed : t.failed = true)
      (fits : t.moved ≤ most) (reported : t.reports = [-1])
      (notCancelled : t.cancelled = false)
  | cancelled (idle : t.waiting = false) (isCancelled : t.cancelled = true)
      (short : t.moved < least) (silent : t.reports = [])

theorem Stands.start (positive : 0 < least) : Stands least most {} :=
  .waits rfl positive rfl rfl

/-- Only a transfer that waits goes on. -/
theorem Step.waiting (step : Step least most t t') : t.waiting = true := by
  cases step with
  | moves _ _ _ waiting _ _ | completes _ _ _ waiting _ _ | closes _ waiting
  | fails _ _ waiting _ | cancels waiting => exact waiting

theorem Stands.step (stands : Stands least most t)
    (step : Step least most t t') : Stands least most t' := by
  have waiting := step.waiting
  cases stands with
  | waits _ short silent notCancelled =>
      cases step with
      | moves n _ _ _ _ stillShort =>
          exact .waits waiting stillShort silent notCancelled
      | completes n _ _ _ fits enough =>
          refine .done rfl enough fits ?_ notCancelled
          rw [silent]
          rfl
      | closes _ _ =>
          refine .closed rfl rfl short ?_ notCancelled
          rw [silent]
          rfl
      | fails n _ _ fits =>
          refine .failed rfl rfl fits ?_ notCancelled
          rw [silent]
          rfl
      | cancels _ => exact .cancelled rfl rfl short silent
  | done idle _ _ _ _ | closed idle _ _ _ _ | failed idle _ _ _ _
  | cancelled idle _ _ _ =>
      exact absurd waiting (ne_true_of_eq_false idle)

/-- A transfer reports at most once, and not at all if it is cancelled. -/
theorem Stands.reports_le (stands : Stands least most t) :
    t.reports.length ≤ 1 ∧ (t.cancelled = true → t.reports = []) ∧
      (t.waiting = false → t.cancelled = false → t.reports.length = 1) := by
  cases stands with
  | waits waiting _ silent _ =>
      rw [silent]
      exact ⟨Nat.zero_le _, fun _ => rfl, fun idle =>
        absurd waiting (ne_true_of_eq_false idle)⟩
  | done _ _ _ reported notCancelled | closed _ _ _ reported notCancelled
  | failed _ _ _ reported notCancelled =>
      rw [reported]
      exact ⟨Nat.le_refl _, fun isCancelled =>
        absurd isCancelled (ne_true_of_eq_false notCancelled), fun _ _ => rfl⟩
  | cancelled _ isCancelled _ silent =>
      rw [silent]
      exact ⟨Nat.zero_le _, fun _ => rfl, fun _ notCancelled =>
        absurd isCancelled (ne_true_of_eq_false notCancelled)⟩

end Libcperciva.Lib.Transfers
