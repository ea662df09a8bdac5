import Mathlib.Logic.Function.Basic
import Mathlib.Tactic.Common

/-!
# The immediate events of `events/events_immediate.c`

There is a queue for each of 32 priorities.  The nodes of the queues live in a
memory which maps addresses to the nodes allocated there; a queue lists the
addresses of its nodes.  Event records are the values of a type `ε`.

A function that runs into a failing assertion, or is given the address of a
node which is not allocated, has no result.
-/

namespace Libcperciva.Events.ImmediateModel

variable {ε : Type*}

/-- `struct eventq`, without its list entry. -/
structure Eventq (ε : Type*) where
  r : ε
  prio : Nat

/-- The static variables of the file, and the nodes. -/
structure Immediate (ε : Type*) where
  heads : Nat → List Nat := fun _ => []
  nodes : Nat → Option (Eventq ε) := fun _ => none
  /-- For `i < minq`, `heads[i]` is empty. -/
  minq : Nat := 32

/-- The outcomes of the allocations a call may make. -/
structure ImmediateAllocs where
  eventrec : Bool := true
  /-- The address of the new node. -/
  eventq : Option Nat := some 0

/-- `events_immediate_register`, with the cookie for the new event. -/
def eventsImmediateRegister (allocs : ImmediateAllocs) (queue : Immediate ε)
    (event : ε) (prio : Int) : Option (Option Nat × Immediate ε) :=
  if ¬ (prio ≥ 0 ∧ prio < 32) then none
  else if !allocs.eventrec then some (none, queue)
  else
    match allocs.eventq with
    | none => some (none, queue)
    | some q =>
        let prio := prio.toNat
        some (some q,
          { heads := Function.update queue.heads prio
              (queue.heads prio ++ [q])
            nodes := Function.update queue.nodes q (some ⟨event, prio⟩)
            minq := if prio < queue.minq then prio else queue.minq })

/-- `TAILQ_REMOVE` of a node, which is then freed. -/
def removeNode (queue : Immediate ε) (prio q : Nat) : Immediate ε :=
  { queue with
    heads := Function.update queue.heads prio ((queue.heads prio).erase q)
    nodes := Function.update queue.nodes q none }

/-- `events_immediate_cancel`. -/
def eventsImmediateCancel (queue : Immediate ε) (cookie : Nat) :
    Option (Immediate ε) :=
  (queue.nodes cookie).map fun q => removeNode queue q.prio cookie

/-- Advance past priorities which have no events, at most `steps` of them. -/
def advance (heads : Nat → List Nat) : (steps minq : Nat) → Nat
  | 0, minq => minq
  | steps + 1, minq =>
      if minq < 32 ∧ heads minq = [] then advance heads steps (minq + 1)
      else minq

/-- `events_immediate_get`. -/
def eventsImmediateGet (queue : Immediate ε) :
    Option (Option ε × Immediate ε) :=
  let minq := advance queue.heads 32 queue.minq
  let queue := { queue with minq }
  if minq = 32 then some (none, queue)
  else
    match queue.heads minq with
    | [] => none
    | q :: _ => (queue.nodes q).map fun node =>
        (some node.r, removeNode queue minq q)

end Libcperciva.Events.ImmediateModel
