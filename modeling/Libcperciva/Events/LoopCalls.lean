import Libcperciva.Events.LoopLaws

/-!
# The calls of the event loop

How each call ends that `events_run_internal` makes: with an event that is
invoked, or without, and what that says about the events that are held.
-/

namespace Libcperciva.Events.LoopCalls

open Libcperciva.Util.Time
open Libcperciva.Events.EventrecModel
open Libcperciva.Events.ImmediateModel
open Libcperciva.Events.ImmediateOps (immediate)
open Libcperciva.Events.NetworkModel
open Libcperciva.Events.NetworkInvariant (registered)
open Libcperciva.Events.NetworkCalls
open Libcperciva.Events.NetworkRuns
open Libcperciva.Events.NetworkScan
open Libcperciva.Events.TimerModel
open Libcperciva.Events.TimerOps (content Content Earliest)
open Libcperciva.Events.LoopModel
open Libcperciva.Events.LoopOps
open Libcperciva.Events.LoopLaws

variable {κ : Type*} {m : Loop κ}

/-! ## Immediate events -/

/-- The loop with other immediate events. -/
def withImmediate (m : Loop κ) (immediate : Immediate (Eventrec κ)) :
    Loop κ :=
  { m with events := { m.events with immediate } }

/-- How `runImmediate` ends. -/
inductive RunsImmediate (m : Loop κ) (atStart : Bool)
    (goOn : Loop κ → Loop κ) : Loop κ → Prop where
  | nothing {queue : Immediate (Eventrec κ)}
      (invariant : ImmediateOps.Invariant queue)
      (same : immediate queue = immediate m.events.immediate)
      (empty : NoImmediate queue) :
      RunsImmediate m atStart goOn (goOn (withImmediate m queue))
  | invoked {queue : Immediate (Eventrec κ)} {cookie : Nat}
      {event : Eventrec κ} (invariant : ImmediateOps.Invariant queue)
      (isHeld : immediate m.events.immediate cookie = some event)
      (removed : immediate queue =
        Function.update (immediate m.events.immediate) cookie none) :
      RunsImmediate m atStart goOn
        (invoke (withImmediate m queue) atStart .immediate event)

theorem runImmediate_runs
    (invariant : ImmediateOps.Invariant m.events.immediate) (atStart : Bool)
    (goOn : Loop κ → Loop κ) :
    ∃ after, runImmediate m atStart goOn = some after ∧
      RunsImmediate m atStart goOn after := by
  unfold runImmediate
  rcases ImmediateOps.eventsImmediateGet_spec invariant with
    ⟨queue, called, kept, same, empty⟩ |
      ⟨cookie, event, queue, called, isHeld, kept, removed⟩
  · rw [called]
    refine ⟨_, rfl, RunsImmediate.nothing kept same ?_⟩
    intro cookie
    rw [same]
    exact empty cookie
  · rw [called]
    exact ⟨_, rfl, RunsImmediate.invoked kept isHeld removed⟩

/-! ## Network events -/

/-- The loop with other network events. -/
def withNetwork (m : Loop κ) (network : Network (Eventrec κ)) : Loop κ :=
  { m with events := { m.events with network } }

/-- How `runNetwork` ends. -/
inductive RunsNetwork (m : Loop κ) (goOn : Control) : Loop κ → Prop where
  | nothing {network : Network (Eventrec κ)}
      (invariant : NetworkInvariant.Invariant network)
      (same : registered network = registered m.events.network)
      (idle : ∀ fd op, ¬ InPosition m.events.network fd op) :
      RunsNetwork m goOn { withNetwork m network with control := goOn }
  | invoked {network : Network (Eventrec κ)} {fd : Nat} {op : NetworkOp}
      {event : Eventrec κ} (invariant : NetworkInvariant.Invariant network)
      (isHeld : registered m.events.network fd op = some event)
      (removed : registered network =
        changed (registered m.events.network) fd op none) :
      RunsNetwork m goOn (invoke (withNetwork m network) false .network event)

theorem runNetwork_runs
    (invariant : NetworkInvariant.Invariant m.events.network)
    (goOn : Control) :
    ∃ after, runNetwork m goOn = some after ∧ RunsNetwork m goOn after := by
  obtain ⟨⟨event, network⟩, called, gets⟩ := eventsNetworkGet_gets invariant
  have kept := gets_invariant invariant gets
  unfold runNetwork
  rw [called]
  rcases gets_registered gets with
    ⟨rfl, same⟩ | ⟨fd, op, isSome, isHeld, removed⟩
  · refine ⟨_, rfl, RunsNetwork.nothing kept same ?_⟩
    -- What is in position is pending, and the scan would have found it.
    intro fd op position
    have scan : ScanInvariant m.events.network
        (InPosition m.events.network) := ⟨invariant, fun _ _ here => here⟩
    exact scan.complete network called fd op position
  · obtain ⟨event, rfl⟩ := Option.ne_none_iff_exists'.mp isSome
    exact ⟨_, rfl, RunsNetwork.invoked kept isHeld removed⟩

/-- How `selectNetwork` ends, if `poll` is not interrupted. -/
inductive SelectsNetwork (m : Loop κ) (answers : Answers)
    (tv : Option Timeval) (goOn : Control) : Loop κ → Prop where
  | failed {network : Network (Eventrec κ)}
      (invariant : NetworkInvariant.Invariant network)
      (same : registered network = registered m.events.network) :
      SelectsNetwork m answers tv goOn (finish (withNetwork m network) (-1))
  | ready {network : Network (Eventrec κ)} {revents : Nat → PollFlags}
      (invariant : NetworkInvariant.Invariant network)
      (same : registered network = registered m.events.network)
      (answer : answers.poll m.events.network.fds (pollTimeout tv) =
        .ready revents)
      (positions : ∀ fd op, report m.events.network revents fd op = true →
        InPosition network fd op) :
      SelectsNetwork m answers tv goOn { withNetwork m network with
        control := goOn
        history := .poll (report m.events.network revents) :: m.history }

/-- What is assumed of `poll`. -/
def PollAllowed (poll : List Pollfd → Int → PollResult) : Prop :=
  PollSound poll ∧ ∀ fds timeout, poll fds timeout ≠ .interrupted

theorem report_reported {net : Network (Eventrec κ)}
    {revents : Nat → PollFlags} {fd : Nat} {op : NetworkOp} :
    report net revents fd op = true ↔ reported net revents fd op := by
  unfold report reported
  rw [Bool.and_eq_true, Bool.or_eq_true, Option.isSome_iff_ne_none]

/-- A select fails if `poll` does. -/
theorem eventsNetworkSelect_failed {net after : Network (Eventrec κ)}
    (invariant : NetworkInvariant.Invariant net) {allocs : Allocs}
    {poll : List Pollfd → Int → PollResult} {tv : Option Timeval}
    {status : Int} (answer : poll net.fds (pollTimeout tv) = .failed)
    (returned : eventsNetworkSelect allocs poll tv net = (status, after)) :
    status = -1 := by
  obtain ⟨_, same, _⟩ := NetworkRegister.init_spec invariant allocs
  unfold eventsNetworkSelect at returned
  generalize NetworkModel.init allocs net = started at *
  obtain ⟨initStatus, start⟩ := started
  dsimp only at *
  rw [← same.fds] at answer
  rw [answer] at returned
  split_ifs at returned <;> exact (congrArg Prod.fst returned).symm

theorem selectNetwork_selects
    (invariant : NetworkInvariant.Invariant m.events.network)
    {answers : Answers} (allowed : PollAllowed answers.poll)
    (tv : Option Timeval) (goOn : Control) :
    SelectsNetwork m answers tv goOn (selectNetwork m answers tv goOn) := by
  obtain ⟨sound, notInterrupted⟩ := allowed
  have selects :=
    eventsNetworkSelect_selects invariant answers.allocs sound tv
  have kept := selects.invariant
  have same := selects.registered
  unfold selectNetwork
  cases called : eventsNetworkSelect answers.allocs answers.poll tv
      m.events.network with
  | mk status network =>
      rw [called] at kept same
      dsimp only
      split_ifs with failed
      · exact SelectsNetwork.failed kept same
      · obtain rfl : status = 0 := not_not.mp failed
        cases answer : answers.poll m.events.network.fds (pollTimeout tv) with
        | interrupted => exact absurd answer (notInterrupted _ _)
        | failed =>
            have isError := eventsNetworkSelect_failed invariant answer called
            exact absurd isError (by decide)
        | ready revents =>
            refine SelectsNetwork.ready kept same answer ?_
            intro fd op isReported
            obtain ⟨start, started, sameTables, rfl⟩ :=
              eventsNetworkSelect_ready invariant answer called
            refine select_inPosition started ?_
            rw [report_reported] at isReported
            unfold reported at isReported ⊢
            rwa [sameTables.registered]

/-! ## Timer events -/

/-- The loop with other timers. -/
def withTimers (m : Loop κ) (timers : Timers (Eventrec κ)) : Loop κ :=
  { m with events := { m.events with timers } }

/-- How `runTimer` ends. -/
inductive RunsTimer (m : Loop κ) (answers : Answers) : Loop κ → Prop where
  | failed : RunsTimer m answers (finish m (-1))
  | nothing (later : ∀ t c, content m.events.timers t = some c →
      ∃ reading, answers.clock = some reading ∧
        reading.usecs < c.expires.usecs) :
      RunsTimer m answers (finish m 0)
  | invoked {timers : Timers (Eventrec κ)} {t : Nat}
      {c : Content (Eventrec κ)} (invariant : TimerOps.Invariant timers)
      (isHeld : content m.events.timers t = some c)
      (removed : content timers =
        Function.update (content m.events.timers) t none) :
      RunsTimer m answers (invoke (withTimers m timers) false .timer c.r)

theorem runTimer_runs (invariant : TimerOps.Invariant m.events.timers)
    {answers : Answers}
    (normalized : ∀ reading, answers.clock = some reading →
      reading.Normalized) :
    ∃ after, runTimer m answers = some after ∧
      RunsTimer m answers after := by
  unfold runTimer
  cases isClock : answers.clock with
  | none =>
      cases isQueue : m.events.timers.Q with
      | none =>
          have called : eventsTimerGet none m.events.timers =
              some (0, none, m.events.timers) := by
            unfold eventsTimerGet
            rw [isQueue]
          rw [called]
          refine ⟨_, rfl, RunsTimer.nothing ?_⟩
          intro t c isContent
          obtain ⟨Q, _, isQueue', _⟩ := invariant.content_some isContent
          rw [isQueue] at isQueue'
          cases isQueue'
      | some Q =>
          have called : eventsTimerGet none m.events.timers =
              some (-1, none, m.events.timers) := by
            unfold eventsTimerGet
            rw [isQueue]
          rw [called]
          exact ⟨_, rfl, RunsTimer.failed⟩
  | some reading =>
      rcases TimerOps.eventsTimerGet_spec invariant
          (normalized reading isClock) with
        ⟨called, later⟩ | ⟨t, c, timers, called, earliest, _, kept, removed⟩
      · rw [called]
        refine ⟨_, rfl, RunsTimer.nothing ?_⟩
        intro t c isContent
        exact ⟨reading, isClock, later t c isContent⟩
      · rw [called]
        exact ⟨_, rfl, RunsTimer.invoked kept earliest.isContent removed⟩

end Libcperciva.Events.LoopCalls
