import Libcperciva.Events.LoopOps

/-!
# The laws of the event loop

The laws are laws of the history: they say after which items an item can
follow.  The events that are held and the history that led to them agree on
which events are registered and which have ended.
-/

namespace Libcperciva.Events.LoopLaws

open Libcperciva.Util.Time
open Libcperciva.Lib.NumberedTokens
open Libcperciva.Events.EventrecModel
open Libcperciva.Events.ImmediateModel
open Libcperciva.Events.ImmediateOps (immediate)
open Libcperciva.Events.NetworkModel
open Libcperciva.Events.LoopModel
open Libcperciva.Events.LoopOps

variable {κ : Type*}

/-! ## The laws of a history -/

/-- The number of the event which ends with an item. -/
def ended : Item κ → Option Nat
  | .cancel event => some event.id
  | .invoke _ event _ => some event.id
  | _ => none

/-- The number of the event which an item registers. -/
def registers : Item κ → Option Nat
  | .register _ event => some event.id
  | _ => none

/-- The latest item that is not an interrupt. -/
def latest : List (Item κ) → Option (Item κ)
  | [] => none
  | .interrupt :: earlier => latest earlier
  | item :: _ => some item

/-- Has `events_interrupt` been called since a callback was invoked? -/
def interruptedSince : List (Item κ) → Bool
  | [] => false
  | .interrupt :: _ => true
  | .invoke _ _ _ :: _ => false
  | _ :: earlier => interruptedSince earlier

/--
The value which the current call of `events_run` is bound to return: the last
callback has returned it, and it is not zero or `events_interrupt` was called
during the callback.
-/
def stopping : List (Item κ) → Option Int
  | .interrupt :: earlier => stopping earlier
  | .callbackReturn rc :: earlier =>
      if rc ≠ 0 ∨ interruptedSince earlier = true then some rc else none
  | _ => none

/-- No immediate event is pending. -/
def NoImmediate (queue : Immediate (Eventrec κ)) : Prop :=
  ∀ cookie, immediate queue cookie = none

/-- The laws for an item that follows on a history. -/
structure Follows (item : Item κ) (earlier : List (Item κ)) : Prop where
  /-- After a callback that stops the call nothing happens but its return. -/
  stops : ∀ rc, stopping earlier = some rc →
    item = .runReturn rc ∨ item = .interrupt
  network : ∀ event pending, item = .invoke .network event pending →
    NoImmediate pending
  timer : ∀ event pending, item = .invoke .timer event pending →
    NoImmediate pending ∧ ∃ ready, latest earlier = some (.poll ready) ∧
      ∀ fd op, ready fd op = false
  /-- What is invoked was registered. -/
  registered : ∀ source event pending, item = .invoke source event pending →
    .register source event ∈ earlier
  /-- No event ends twice, by being invoked or by being cancelled. -/
  once : ∀ id, ended item = some id → id ∉ earlier.filterMap ended
  /-- Registrations are told apart. -/
  fresh : ∀ id, registers item = some id → id ∉ earlier.filterMap registers

/-- Every item of a history obeys the laws. -/
def Disciplined (history : List (Item κ)) : Prop :=
  ∀ later item earlier, history = later ++ item :: earlier →
    Follows item earlier

theorem Disciplined.cons {item : Item κ} {history : List (Item κ)}
    (disciplined : Disciplined history) (follows : Follows item history) :
    Disciplined (item :: history) := by
  intro later other earlier split
  cases later with
  | nil =>
      obtain ⟨rfl, rfl⟩ := List.cons.inj split
      exact follows
  | cons first later =>
      rw [List.cons_append, List.cons.injEq] at split
      exact disciplined later other earlier split.2

theorem stopping_of_latest_poll {history : List (Item κ)}
    {ready : Nat → NetworkOp → Bool}
    (isPoll : latest history = some (.poll ready)) :
    stopping history = none := by
  induction history with
  | nil => rfl
  | cons item earlier before =>
      cases item with
      | interrupt => exact before isPoll
      | callbackReturn rc => cases isPoll
      | _ => rfl

/-! ## Events and history -/

/-- What holds of the events and the history at all times. -/
structure Base (events : EventState κ) (now : Timeval)
    (history : List (Item κ)) : Prop where
  invariant : LoopOps.Invariant events now
  recorded : Recorded (held events) events.nextId (history.filterMap ended)
  made : ∀ place event, held events place = some event →
    .register place.source event ∈ history
  numbered : ∀ id ∈ history.filterMap registers, id < events.nextId
  disciplined : Disciplined history

variable {events after : EventState κ} {now : Timeval}
  {history : List (Item κ)}

theorem Base.later {next : Timeval} (base : Base events now history)
    (later : now.usecs ≤ next.usecs) : Base events next history :=
  { base with invariant := base.invariant.later later }

/-- The same events are held at the same places. -/
theorem Base.congr {next : Timeval} (base : Base events now history)
    (invariant : LoopOps.Invariant after next)
    (same : held after = held events) (ids : events.nextId ≤ after.nextId) :
    Base after next history where
  invariant := invariant
  recorded := by
    rw [same]
    exact base.recorded.mono ids
  made place event isHeld := base.made place event (same ▸ isHeld)
  numbered id member := (base.numbered id member).trans_le ids
  disciplined := base.disciplined

/-- An item that is about no event. -/
theorem Base.note (base : Base events now history) {item : Item κ}
    (notEnded : ended item = none) (notRegisters : registers item = none)
    (stops : ∀ rc, stopping history = some rc →
      item = .runReturn rc ∨ item = .interrupt) :
    Base events now (item :: history) where
  invariant := base.invariant
  recorded := by
    rw [List.filterMap_cons_none notEnded]
    exact base.recorded
  made place event isHeld :=
    List.mem_cons_of_mem _ (base.made place event isHeld)
  numbered := by
    rw [List.filterMap_cons_none notRegisters]
    exact base.numbered
  disciplined := by
    refine base.disciplined.cons ⟨stops, ?_, ?_, ?_, ?_, ?_⟩
    · rintro event pending rfl
      cases notEnded
    · rintro event pending rfl
      cases notEnded
    · rintro source event pending rfl
      cases notEnded
    · intro id isEnded
      rw [notEnded] at isEnded
      cases isEnded
    · intro id isRegistered
      rw [notRegisters] at isRegistered
      cases isRegistered

/-- An event is registered. -/
theorem Base.register {next : Timeval} (base : Base events now history)
    (invariant : LoopOps.Invariant after next) {place : Place}
    {event : Eventrec κ} (isNext : event.id = events.nextId)
    (entered : held after =
      Function.update (held events) place (some event))
    (ids : after.nextId = events.nextId + 1)
    (running : stopping history = none) :
    Base after next (.register place.source event :: history) where
  invariant := invariant
  recorded := by
    rw [ids, entered]
    exact base.recorded.enter isNext
  made other event' isHeld := by
    rw [entered] at isHeld
    by_cases here : other = place
    · subst here
      rw [Function.update_self, Option.some.injEq] at isHeld
      subst isHeld
      exact List.mem_cons_self
    · rw [Function.update_of_ne here] at isHeld
      exact List.mem_cons_of_mem _ (base.made other event' isHeld)
  numbered id member := by
    have isNew : registers (Item.register place.source event) =
      some event.id := rfl
    rw [List.filterMap_cons_some isNew] at member
    rw [ids]
    rcases List.mem_cons.mp member with rfl | before
    · exact isNext ▸ Nat.lt_succ_self _
    · exact Nat.lt_succ_of_lt (base.numbered id before)
  disciplined := by
    refine base.disciplined.cons ⟨?_, ?_, ?_, ?_, ?_, ?_⟩
    · intro rc isStopping
      rw [running] at isStopping
      cases isStopping
    · rintro event' pending ⟨⟩
    · rintro event' pending ⟨⟩
    · rintro source event' pending ⟨⟩
    · rintro id ⟨⟩
    · rintro id ⟨⟩ member
      exact absurd (base.numbered _ member) (isNext ▸ Nat.lt_irrefl _)

/-- An event ends, by being invoked or by being cancelled. -/
theorem Base.ending {next : Timeval} (base : Base events now history)
    (invariant : LoopOps.Invariant after next) {place : Place}
    {event : Eventrec κ} (isHeld : held events place = some event)
    (removed : held after = Function.update (held events) place none)
    (ids : after.nextId = events.nextId) {item : Item κ}
    (isEnded : ended item = some event.id)
    (notRegisters : registers item = none)
    (running : stopping history = none)
    (network : ∀ event pending, item = .invoke .network event pending →
      NoImmediate pending)
    (timer : ∀ event pending, item = .invoke .timer event pending →
      NoImmediate pending ∧ ∃ ready, latest history = some (.poll ready) ∧
        ∀ fd op, ready fd op = false)
    (isInvoked : ∀ source event' pending,
      item = .invoke source event' pending →
        source = place.source ∧ event' = event) :
    Base after next (item :: history) where
  invariant := invariant
  recorded := by
    rw [ids, removed, List.filterMap_cons_some isEnded]
    exact (base.recorded.leave isHeld).perm
      (List.perm_append_singleton _ _)
  made other event' isHeld' := by
    rw [removed] at isHeld'
    by_cases here : other = place
    · subst here
      rw [Function.update_self] at isHeld'
      cases isHeld'
    · rw [Function.update_of_ne here] at isHeld'
      exact List.mem_cons_of_mem _ (base.made other event' isHeld')
  numbered := by
    rw [List.filterMap_cons_none notRegisters, ids]
    exact base.numbered
  disciplined := by
    refine base.disciplined.cons ⟨?_, network, timer, ?_, ?_, ?_⟩
    · intro rc isStopping
      rw [running] at isStopping
      cases isStopping
    · rintro source event' pending same
      obtain ⟨rfl, rfl⟩ := isInvoked source event' pending same
      exact base.made place event' isHeld
    · intro id isId
      rw [isEnded, Option.some.injEq] at isId
      subst isId
      exact base.recorded.notHeld place event isHeld
    · intro id isId
      rw [notRegisters] at isId
      cases isId

end Libcperciva.Events.LoopLaws
