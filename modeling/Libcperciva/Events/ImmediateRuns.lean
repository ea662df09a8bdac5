import Libcperciva.Events.ImmediateOps
import Libcperciva.Lib.StableQueue
import Mathlib.Order.Nat

/-!
# Every run of the immediate events

A run registers, cancels and gets events in any order, with any outcome of the
allocations.  Next to the queues of the code it keeps the live events in the
order in which they were registered.
-/

namespace Libcperciva.Events.ImmediateRuns

open Libcperciva.Lib.StableQueue
open Libcperciva.Events.ImmediateModel
open Libcperciva.Events.ImmediateOps

variable {ε : Type*} {queue : Immediate ε} {live : List (Entry Nat Nat ε)}

/-! ## What the queues represent -/

/-- The queues hold the live events, each in the lane of its priority. -/
structure Represents (queue : Immediate ε)
    (live : List (Entry Nat Nat ε)) : Prop where
  invariant : Invariant queue
  unique : (live.map Entry.name).Nodup
  lanes : ∀ prio, queue.heads prio = (lane live prio).map Entry.name
  nodes : ∀ q node, queue.nodes q = some node ↔
    (⟨q, node.prio, node.r⟩ : Entry Nat Nat ε) ∈ live

theorem start_represents : Represents ({} : Immediate ε) [] where
  invariant := start_invariant
  unique := List.nodup_nil
  lanes _ := rfl
  nodes _ node := iff_of_false (Option.some_ne_none node).symm
    List.not_mem_nil

theorem Represents.node (represents : Represents queue live)
    {event : Entry Nat Nat ε} (isLive : event ∈ live) :
    queue.nodes event.name = some ⟨event.value, event.prio⟩ :=
  (represents.nodes event.name ⟨event.value, event.prio⟩).mpr isLive

theorem Represents.notLive (represents : Represents queue live) {q : Nat}
    (fresh : queue.nodes q = none) : q ∉ live.map Entry.name := by
  intro member
  obtain ⟨event, isLive, rfl⟩ := List.mem_map.mp member
  rw [represents.node isLive] at fresh
  exact absurd fresh (Option.some_ne_none _)

/-! ## One call -/

/-- The queues after an event is registered. -/
def registered (queue : Immediate ε) (q : Nat) (event : ε) (prio : Nat) :
    Immediate ε :=
  { heads := Function.update queue.heads prio (queue.heads prio ++ [q])
    nodes := Function.update queue.nodes q (some ⟨event, prio⟩)
    minq := if prio < queue.minq then prio else queue.minq }

theorem eventsImmediateRegister_eq {q : Nat} (event : ε) {prio : Int}
    (low : 0 ≤ prio) (high : prio < 32) :
    eventsImmediateRegister { eventrec := true, eventq := some q } queue
        event prio =
      some (some q, registered queue q event prio.toNat) := by
  unfold eventsImmediateRegister
  rw [if_neg (not_not.mpr ⟨low, high⟩)]
  rfl

/-- A call whose allocations fail changes nothing. -/
theorem eventsImmediateRegister_fails {allocs : ImmediateAllocs} (event : ε)
    {prio : Int} (low : 0 ≤ prio) (high : prio < 32)
    (fails : allocs.eventrec = false ∨ allocs.eventq = none) :
    eventsImmediateRegister allocs queue event prio =
      some (none, queue) := by
  unfold eventsImmediateRegister
  rw [if_neg (not_not.mpr ⟨low, high⟩)]
  rcases allocs with ⟨_ | _, _ | q⟩
  · rfl
  · rfl
  · rfl
  · rcases fails with noEvent | noNode
    · exact absurd noEvent Bool.noConfusion
    · exact absurd noNode (Option.some_ne_none q)

/-- The event that is registered is the last one. -/
theorem Represents.register (represents : Represents queue live) {q : Nat}
    (fresh : queue.nodes q = none) (event : ε) {prio : Int} (low : 0 ≤ prio)
    (high : prio < 32) :
    Represents (registered queue q event prio.toNat)
      (live ++ [⟨q, prio.toNat, event⟩]) := by
  have invariant : Invariant (registered queue q event prio.toNat) := by
    have isFresh : ∀ r, ({ eventq := some q } : ImmediateAllocs).eventq =
        some r → queue.nodes r = none := by
      intro r isNode
      rw [← Option.some.inj isNode]
      exact fresh
    rcases eventsImmediateRegister_spec represents.invariant isFresh event
      low high with failed | ⟨r, after, result, -, invariant, -⟩
    · rw [eventsImmediateRegister_eq event low high] at failed
      exact absurd (congrArg Prod.fst (Option.some.inj failed))
        (Option.some_ne_none q)
    · rw [eventsImmediateRegister_eq event low high] at result
      have same := congrArg Prod.snd (Option.some.inj result)
      dsimp only at same
      rw [same]
      exact invariant
  refine ⟨invariant, ?_, ?_, ?_⟩
  · rw [List.map_append]
    refine List.nodup_append.mpr
      ⟨represents.unique, List.nodup_singleton q, ?_⟩
    intro r member s isLast same
    rw [List.mem_singleton.mp isLast] at same
    subst same
    exact represents.notLive fresh member
  · intro p
    rw [lane_append]
    by_cases here : p = prio.toNat
    · subst here
      rw [lane_cons_self (⟨q, prio.toNat, event⟩ : Entry Nat Nat ε),
        List.map_append, ← represents.lanes]
      exact Function.update_self _ _ _
    · have other : (⟨q, prio.toNat, event⟩ : Entry Nat Nat ε).prio ≠ p :=
        Ne.symm here
      rw [lane_cons_of_ne other, lane_nil, List.append_nil,
        ← represents.lanes]
      exact Function.update_of_ne here _ _
  · intro r node
    rw [List.mem_append, List.mem_singleton, ← represents.nodes]
    change Function.update queue.nodes q _ r = _ ↔ _
    by_cases isNew : r = q
    · subst isNew
      rw [Function.update_self, fresh, Option.some.injEq, Entry.mk.injEq]
      constructor
      · rintro rfl
        exact Or.inr ⟨rfl, rfl, rfl⟩
      · rintro (old | ⟨-, isPrio, isEvent⟩)
        · exact absurd old.symm (Option.some_ne_none node)
        · cases node
          exact Eventq.mk.injEq .. ▸ ⟨isEvent.symm, isPrio.symm⟩
    · rw [Function.update_of_ne isNew, Entry.mk.injEq]
      exact (or_iff_left fun same => isNew same.1).symm

/-- Removing a node removes exactly its event. -/
theorem Represents.removeNode (represents : Represents queue live)
    {event : Entry Nat Nat ε} (isLive : event ∈ live) :
    Represents (removeNode queue event.prio event.name)
      (remove live event.name) := by
  have isNode := represents.node isLive
  refine ⟨(removeNode_spec represents.invariant isNode).1,
    remove_names_nodup represents.unique _, ?_, ?_⟩
  · intro p
    have uniqueLane : ((lane live p).map Entry.name).Nodup :=
      represents.lanes p ▸ represents.invariant.nodup p
    rw [lane_remove, map_remove uniqueLane, ← represents.lanes]
    by_cases here : p = event.prio
    · subst here
      exact Function.update_self _ _ _
    · refine (Function.update_of_ne here _ _).trans ?_
      rw [List.erase_of_not_mem]
      intro member
      obtain ⟨node, isOther, isPrio⟩ :=
        (represents.invariant.listed event.name p).mp member
      rw [isNode] at isOther
      exact here (isPrio.symm.trans
        (congrArg Eventq.prio (Option.some.inj isOther)).symm)
  · intro r node
    rw [mem_remove, ← represents.nodes]
    change Function.update queue.nodes event.name none r = _ ↔ _
    by_cases isGone : r = event.name
    · rw [isGone, Function.update_self]
      exact iff_of_false (Option.some_ne_none node).symm
        fun both => both.2 rfl
    · rw [Function.update_of_ne isGone]
      exact (and_iff_left isGone).symm

theorem Represents.cancel (represents : Represents queue live)
    {event : Entry Nat Nat ε} (isLive : event ∈ live) :
    ∃ after, eventsImmediateCancel queue event.name = some after ∧
      Represents after (remove live event.name) := by
  refine ⟨_, ?_, represents.removeNode isLive⟩
  unfold eventsImmediateCancel
  rw [represents.node isLive]
  rfl

/-- Raising `minq` past empty lanes changes nothing. -/
theorem Represents.advance (represents : Represents queue live) :
    let minq := advance queue.heads 32 queue.minq
    Represents { queue with minq } live ∧ minq ≤ 32 ∧
      (minq < 32 → queue.heads minq ≠ []) := by
  have invariant := represents.invariant
  obtain ⟨bound, empty, nonempty⟩ := advance_spec queue.heads 32 queue.minq
    invariant.minq_le (by omega) invariant.minq
  exact ⟨⟨⟨invariant.listed, invariant.range, invariant.nodup, empty, bound⟩,
    represents.unique, represents.lanes, represents.nodes⟩, bound, nonempty⟩

/-- `events_immediate_get` returns the next event. -/
theorem Represents.get (represents : Represents queue live) :
    ∃ after, eventsImmediateGet queue =
        some ((next live).map Entry.value, after) ∧
      Represents after (match next live with
        | none => live
        | some event => remove live event.name) := by
  obtain ⟨moved, bound, nonempty⟩ := represents.advance
  unfold eventsImmediateGet
  generalize ImmediateModel.advance queue.heads 32 queue.minq = minq at *
  dsimp only at moved bound nonempty ⊢
  cases isNext : next live with
  | none =>
      rw [next_eq_none] at isNext
      have atEnd : minq = 32 := by
        by_contra below
        refine nonempty (by omega) ?_
        rw [represents.lanes, isNext]
        rfl
      rw [if_pos atEnd]
      exact ⟨_, rfl, moved⟩
  | some event =>
      obtain ⟨before, behind, split, least⟩ := next_isNext isNext
      obtain ⟨lower, here⟩ := lane_of_isNext least
      rw [← split] at lower here
      have isLive : event ∈ live := by
        rw [split]
        exact List.mem_append_right _ List.mem_cons_self
      have inRange : event.prio < 32 :=
        represents.invariant.range event.name _ (represents.node isLive)
      have isFirst : queue.heads event.prio =
          event.name :: (lane behind event.prio).map Entry.name := by
        rw [represents.lanes, here]
        rfl
      have isMinq : minq = event.prio := by
        rcases Nat.lt_trichotomy minq event.prio with low | same | high
        · refine absurd ?_ (nonempty (by omega))
          rw [represents.lanes, lower minq low]
          rfl
        · exact same
        · have empty := moved.invariant.minq event.prio high
          rw [show queue.heads event.prio = _ from isFirst] at empty
          exact absurd empty (List.cons_ne_nil _ _)
      subst isMinq
      rw [if_neg (by omega), isFirst]
      dsimp only
      rw [represents.node isLive]
      exact ⟨_, rfl, moved.removeNode isLive⟩

/-! ## Runs -/

/-- The queues and the live events, oldest first. -/
structure RunState (ε : Type*) where
  queue : Immediate ε
  live : List (Entry Nat Nat ε)

/-- A call, with the outcomes of the allocations. -/
inductive Op (ε : Type*) where
  | register (allocs : ImmediateAllocs) (event : ε) (prio : Int)
  | cancel (cookie : Nat)
  | get

/--
One call.  The queues are those of the code; the live events are what the
documentation says about them: the one that is registered comes last, the one
that is cancelled goes, and what is returned is the next one.
-/
def step (state : RunState ε) : Op ε → Option (RunState ε)
  | .register allocs event prio =>
      (eventsImmediateRegister allocs state.queue event prio).map
        fun (cookie, queue) =>
          { queue
            live := match cookie with
              | none => state.live
              | some q => state.live ++ [⟨q, prio.toNat, event⟩] }
  | .cancel cookie =>
      (eventsImmediateCancel state.queue cookie).map fun queue =>
        { queue, live := remove state.live cookie }
  | .get =>
      (eventsImmediateGet state.queue).map fun (_, queue) =>
        { queue
          live := match next state.live with
            | none => state.live
            | some event => remove state.live event.name }

/-- What is assumed of the caller and of the allocator. -/
def Allowed (state : RunState ε) : Op ε → Prop
  | .register allocs _ prio => 0 ≤ prio ∧ prio < 32 ∧
      ∀ q, allocs.eventq = some q → state.queue.nodes q = none
  | .cancel cookie => cookie ∈ state.live.map Entry.name
  | .get => True

/-- The states that the queues go through. -/
inductive Run : RunState ε → Prop where
  | start : Run ⟨{}, []⟩
  | call {state after : RunState ε} (op : Op ε) (before : Run state)
      (allowed : Allowed state op) (returned : step state op = some after) :
      Run after

variable {state after : RunState ε}

/-- What a call with allocations that succeed does. -/
theorem register_cases (allocs : ImmediateAllocs) :
    (allocs.eventrec = false ∨ allocs.eventq = none) ∨
      ∃ q, allocs = { eventrec := true, eventq := some q } := by
  rcases allocs with ⟨_ | _, _ | q⟩
  · exact Or.inl (Or.inl rfl)
  · exact Or.inl (Or.inl rfl)
  · exact Or.inl (Or.inr rfl)
  · exact Or.inr ⟨q, rfl⟩

/-- A call is answered, and the queues then represent the live events. -/
theorem step_represents (represents : Represents state.queue state.live)
    (op : Op ε) (allowed : Allowed state op) :
    ∃ after, step state op = some after ∧
      Represents after.queue after.live := by
  cases op with
  | register allocs event prio =>
      obtain ⟨low, high, fresh⟩ := allowed
      dsimp only [step]
      rcases register_cases allocs with fails | ⟨q, rfl⟩
      · rw [eventsImmediateRegister_fails event low high fails]
        exact ⟨_, rfl, represents⟩
      · rw [eventsImmediateRegister_eq event low high]
        exact ⟨_, rfl, represents.register (fresh q rfl) event low high⟩
  | cancel cookie =>
      obtain ⟨event, isLive, rfl⟩ := List.mem_map.mp allowed
      obtain ⟨queue, result, removed⟩ := represents.cancel isLive
      dsimp only [step]
      rw [result]
      exact ⟨_, rfl, removed⟩
  | get =>
      obtain ⟨queue, result, removed⟩ := represents.get
      dsimp only [step]
      rw [result]
      exact ⟨_, rfl, removed⟩

theorem Run.represents (run : Run state) :
    Represents state.queue state.live := by
  induction run with
  | start => exact start_represents
  | call op before allowed returned ih =>
      obtain ⟨after, result, represents⟩ := step_represents ih op allowed
      rw [returned] at result
      exact Option.some.inj result ▸ represents

/-- The next event is the first one of the smallest priority. -/
theorem Represents.get_cases (represents : Represents queue live) :
    (live = [] ∧ ∃ after, eventsImmediateGet queue = some (none, after) ∧
        Represents after []) ∨
      ∃ before event behind after, live = before ++ event :: behind ∧
        IsNext before event behind ∧
        eventsImmediateGet queue = some (some event.value, after) ∧
        Represents after (before ++ behind) := by
  obtain ⟨after, result, removed⟩ := represents.get
  cases isNext : next live with
  | none =>
      rw [isNext] at result removed
      rw [next_eq_none] at isNext
      subst isNext
      exact Or.inl ⟨rfl, after, result, removed⟩
  | some event =>
      rw [isNext] at result removed
      obtain ⟨before, behind, rfl, least⟩ := next_isNext isNext
      dsimp only at removed
      rw [remove_middle represents.unique] at removed
      exact Or.inr ⟨before, event, behind, after, rfl, least, result, removed⟩

/-- **The immediate events.**  In every run the queues hold exactly the live
events, those of a priority in the order of their registration, and none below
`minq`.  A register that fails changes nothing, and one that succeeds adds its
event behind all others; a cancel removes the event it names; and a get returns
and removes the earliest event of the smallest priority, or NULL if and only if
there is none. -/
theorem immediate_events (run : Run state) :
    Represents state.queue state.live ∧
    (∀ prio < state.queue.minq, state.queue.heads prio = []) ∧
    (∀ (event : ε) (prio : Int), 0 ≤ prio → prio < 32 →
      (∀ allocs : ImmediateAllocs,
        allocs.eventrec = false ∨ allocs.eventq = none →
        eventsImmediateRegister allocs state.queue event prio =
          some (none, state.queue)) ∧
      ∀ q, state.queue.nodes q = none →
        ∃ after, eventsImmediateRegister { eventq := some q } state.queue
            event prio = some (some q, after) ∧
          Represents after (state.live ++ [⟨q, prio.toNat, event⟩])) ∧
    (∀ before event behind, state.live = before ++ event :: behind →
      ∃ after, eventsImmediateCancel state.queue event.name = some after ∧
        Represents after (before ++ behind)) ∧
    ((state.live = [] ∧ ∃ after,
        eventsImmediateGet state.queue = some (none, after) ∧
        Represents after []) ∨
      ∃ before event behind after,
        state.live = before ++ event :: behind ∧
        IsNext before event behind ∧
        eventsImmediateGet state.queue = some (some event.value, after) ∧
        Represents after (before ++ behind)) := by
  have represents := run.represents
  refine ⟨represents, represents.invariant.minq, ?_, ?_,
    represents.get_cases⟩
  · intro event prio low high
    constructor
    · intro allocs fails
      exact eventsImmediateRegister_fails event low high fails
    · intro q fresh
      exact ⟨_, eventsImmediateRegister_eq event low high,
        represents.register fresh event low high⟩
  · intro before event behind split
    have isLive : event ∈ state.live := by
      rw [split]
      exact List.mem_append_right _ List.mem_cons_self
    obtain ⟨after, result, removed⟩ := represents.cancel isLive
    have unique := represents.unique
    rw [split] at removed unique
    rw [remove_middle unique] at removed
    exact ⟨after, result, removed⟩

/-- After two events are registered, the second one is due first. -/
theorem immediate_events_two :
    ∃ state : RunState String,
      state.live = [⟨0, 7, "a"⟩, ⟨1, 3, "b"⟩] ∧
      ∃ before event behind after,
        state.live = before ++ event :: behind ∧
        IsNext before event behind ∧
        eventsImmediateGet state.queue = some (some event.value, after) ∧
        Represents after (before ++ behind) := by
  have first : Run
      ⟨registered {} 0 "a" 7, [⟨0, 7, "a"⟩]⟩ :=
    .call (.register { eventq := some 0 } "a" 7) .start
      ⟨by decide, by decide, fun _ _ => rfl⟩ rfl
  have second : Run
      ⟨registered (registered {} 0 "a" 7) 1 "b" 3,
        [⟨0, 7, "a"⟩, ⟨1, 3, "b"⟩]⟩ := by
    refine .call (.register { eventq := some 1 } "b" 3) first
      ⟨by decide, by decide, ?_⟩ rfl
    intro q isNode
    obtain rfl := Option.some.inj isNode
    rfl
  refine ⟨⟨registered (registered {} 0 "a" 7) 1 "b" 3,
    [⟨0, 7, "a"⟩, ⟨1, 3, "b"⟩]⟩, rfl, ?_⟩
  rcases (immediate_events second).2.2.2.2 with ⟨empty, -⟩ | due
  · exact absurd empty (List.cons_ne_nil _ _)
  · exact due

end Libcperciva.Events.ImmediateRuns
