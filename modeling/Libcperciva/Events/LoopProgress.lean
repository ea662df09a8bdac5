import Libcperciva.Events.LoopRuns

/-!
# The event loop runs an event if there is one

An event that can be run when `events_run` is called stays there while the
loop looks for events, and the loop finds it at the latest where it looks for
events of its kind.
-/

namespace Libcperciva.Events.LoopProgress

open Libcperciva.Util.Time
open Libcperciva.Lib.Progress
open Libcperciva.Events.EventrecModel
open Libcperciva.Events.ImmediateOps (immediate)
open Libcperciva.Events.NetworkModel
open Libcperciva.Events.NetworkInvariant (registered)
open Libcperciva.Events.NetworkScan (InPosition)
open Libcperciva.Events.TimerOps (content)
open Libcperciva.Events.LoopModel
open Libcperciva.Events.LoopOps
open Libcperciva.Events.LoopLaws
open Libcperciva.Events.LoopCalls
open Libcperciva.Events.LoopRuns

variable {κ : Type*} {m start after : Loop κ} {environment : Answers → Prop}

/-! ## Events that can be run -/

/-- An immediate event is registered. -/
def ImmediateDue (m : Loop κ) : Prop :=
  ∃ cookie, immediate m.events.immediate cookie ≠ none

/-- Every poll reports a registered pair to be ready. -/
def NetworkDue (environment : Answers → Prop) (m : Loop κ) : Prop :=
  ∃ fd op, registered m.events.network fd op ≠ none ∧
    ∀ answers, environment answers → ∀ fds timeout revents,
      answers.poll fds timeout = .ready revents →
        (revents fd).has op = true ∨
          ((revents fd).pollerr || (revents fd).pollhup) = true

/-- A timer has expired, as every reading of the clock says. -/
def TimerDue (environment : Answers → Prop) (m : Loop κ) : Prop :=
  ∃ t c, content m.events.timers t = some c ∧
    ∀ answers, environment answers → ∀ reading,
      answers.clock = some reading → c.expires.usecs ≤ reading.usecs

/-- A pair is in position to be found by the scan. -/
def Scannable (m : Loop κ) : Prop :=
  ∃ fd op, InPosition m.events.network fd op

/-- The event that waits is of a kind which the loop still looks for. -/
def Awaits (environment : Answers → Prop) (m : Loop κ) : Prop :=
  match m.control with
  | .start =>
      ImmediateDue m ∨ NetworkDue environment m ∨ TimerDue environment m
  | .timerMin | .select _ => NetworkDue environment m ∨ TimerDue environment m
  | .loop | .networkGet => Scannable m ∨ TimerDue environment m
  | .selectAgain | .networkGetAgain | .timerGet => TimerDue environment m
  | .idle | .callback _ | .returned _ _ => False

/-- How many calls the loop makes at most. -/
def rank : Control → Nat
  | .start => 8
  | .timerMin => 7
  | .select _ => 6
  | .loop => 5
  | .networkGet => 4
  | .selectAgain => 3
  | .networkGetAgain => 2
  | .timerGet => 1
  | .idle | .callback _ | .returned _ _ => 0

/-- Nothing has happened since but calls of `poll`. -/
def Polled (start m : Loop κ) : Prop :=
  ∃ polls, m.history = polls ++ start.history ∧
    ∀ item ∈ polls, ∃ ready, item = .poll ready

/-- A callback is invoked, or -1 is returned. -/
def Dispatched (start after : Loop κ) : Prop :=
  ∃ item polls, after.history = item :: polls ++ start.history ∧
    (∀ other ∈ polls, ∃ ready, other = .poll ready) ∧
    ((∃ source event pending, item = .invoke source event pending) ∨
      item = .runReturn (-1))

theorem Polled.invoke (polled : Polled start m) (after : Loop κ)
    (sameHistory : after.history = m.history) (atStart : Bool)
    (source : Source) (event : Eventrec κ) :
    Dispatched start (invoke after atStart source event) := by
  obtain ⟨polls, split, all⟩ := polled
  refine ⟨.invoke source event after.events.immediate, polls, ?_, all,
    Or.inl ⟨_, _, _, rfl⟩⟩
  rw [List.cons_append, ← split, ← sameHistory]
  rfl

theorem Polled.error (polled : Polled start m)
    (sameHistory : after.history = m.history) :
    Dispatched start (finish after (-1)) := by
  obtain ⟨polls, split, all⟩ := polled
  refine ⟨.runReturn (-1), polls, ?_, all, Or.inr rfl⟩
  rw [List.cons_append, ← split, ← sameHistory]
  rfl

theorem Polled.poll (polled : Polled start m)
    (ready : Nat → NetworkOp → Bool)
    (isNext : after.history = .poll ready :: m.history) :
    Polled start after := by
  obtain ⟨polls, split, all⟩ := polled
  refine ⟨.poll ready :: polls, by rw [isNext, split, List.cons_append], ?_⟩
  intro item member
  rcases List.mem_cons.mp member with rfl | before
  · exact ⟨ready, rfl⟩
  · exact all item before

/-! ## The steps towards the event -/

/-- The event is run, an error is returned, or the loop is closer to it. -/
def Advances (environment : Answers → Prop) (start m after : Loop κ) :
    Prop :=
  Dispatched start after ∨
    after.events.interruptRequested = false ∧ Awaits environment after ∧
      Polled start after ∧ rank after.control < rank m.control

variable {answers : Answers}

/-- Looking for an immediate event, at the start or at the loop's top. -/
theorem runImmediate_advances (invariant : Invariant m)
    (polled : Polled start m) (atStart : Bool) {goOn : Control}
    (goesOn : NoImmediate m.events.immediate →
      ∀ queue, Advances environment start m
        { withImmediate m queue with control := goOn }) :
    ∃ after, runImmediate m atStart (fun m => { m with control := goOn }) =
      some after ∧ Advances environment start m after := by
  obtain ⟨after, result, runs⟩ := runImmediate_runs
    invariant.base.invariant.immediate atStart
    fun m => { m with control := goOn }
  refine ⟨after, result, ?_⟩
  cases runs with
  | nothing kept same empty =>
      refine goesOn ?_ _
      intro cookie
      rw [← same]
      exact empty cookie
  | @invoked queue cookie event kept isHeld removed =>
      exact Or.inl
        (polled.invoke (withImmediate m queue) rfl atStart .immediate event)

theorem runNetwork_advances (invariant : Invariant m)
    (polled : Polled start m) {goOn : Control}
    (goesOn : ∀ network, ¬ Scannable m → Advances environment start m
      { withNetwork m network with control := goOn }) :
    ∃ after, runNetwork m goOn = some after ∧
      Advances environment start m after := by
  obtain ⟨after, result, runs⟩ :=
    runNetwork_runs invariant.base.invariant.network goOn
  refine ⟨after, result, ?_⟩
  cases runs with
  | nothing kept same idle =>
      exact goesOn _ fun ⟨fd, op, position⟩ => idle fd op position
  | @invoked network fd op event kept isHeld removed =>
      exact Or.inl
        (polled.invoke (withNetwork m network) rfl false .network event)

/-- What is due is in position after a select that succeeds. -/
theorem selectNetwork_advances (invariant : Invariant m)
    (polled : Polled start m) (poll : PollAllowed answers.poll)
    (isAnswer : environment answers) (tv : Option Timeval) {goOn : Control}
    (goesOn : ∀ network ready, (NetworkDue environment m →
        ∃ fd op, InPosition network fd op) →
      Advances environment start m { withNetwork m network with
        control := goOn
        history := .poll ready :: m.history }) :
    Advances environment start m (selectNetwork m answers tv goOn) := by
  have selects :=
    selectNetwork_selects invariant.base.invariant.network poll tv goOn
  generalize selectNetwork m answers tv goOn = after at *
  cases selects with
  | failed kept same => exact Or.inl (polled.error rfl)
  | ready kept same answer positions =>
      refine goesOn _ _ ?_
      rintro ⟨fd, op, isHeld, reports⟩
      refine ⟨fd, op, positions fd op ?_⟩
      rw [report_reported]
      exact ⟨isHeld, reports answers isAnswer _ _ _ answer⟩

theorem proceed_advances (invariant : Invariant m)
    (normalized : ∀ reading, answers.clock = some reading →
      reading.Normalized) (poll : PollAllowed answers.poll)
    (isAnswer : environment answers)
    (notInterrupted : m.events.interruptRequested = false)
    (awaits : Awaits environment m) (polled : Polled start m) :
    ∃ after, proceed m answers = some after ∧
      Advances environment start m after := by
  unfold Awaits at awaits
  unfold proceed
  cases control : m.control with
  | start =>
      simp only [control] at awaits ⊢
      refine runImmediate_advances invariant polled true ?_
      intro noImmediate queue
      refine Or.inr ⟨notInterrupted, ?_, polled, ?_⟩
      · rcases awaits with ⟨cookie, isHeld⟩ | due
        · exact absurd (noImmediate cookie) isHeld
        · exact due
      · rw [control]
        exact Nat.lt_succ_self 7
  | timerMin =>
      simp only [control] at awaits ⊢
      obtain ⟨⟨status, tv⟩, called⟩ := TimerOps.eventsTimerMin_total
        invariant.base.invariant.timers answers.allocated answers.clock
      rw [called]
      refine ⟨_, rfl, ?_⟩
      dsimp only
      split_ifs with failed
      · exact Or.inl (polled.error rfl)
      · refine Or.inr ⟨notInterrupted, awaits, polled, ?_⟩
        rw [control]
        exact Nat.lt_succ_self 6
  | select tv =>
      simp only [control] at awaits ⊢
      refine ⟨_, rfl, selectNetwork_advances invariant polled poll isAnswer
        tv ?_⟩
      intro network ready positions
      refine Or.inr ⟨notInterrupted, awaits.imp positions id,
        polled.poll ready rfl, ?_⟩
      rw [control]
      exact Nat.lt_succ_self 5
  | loop =>
      simp only [control] at awaits ⊢
      unfold loopTop
      rw [notInterrupted, if_neg Bool.false_ne_true]
      refine runImmediate_advances invariant polled false ?_
      intro noImmediate queue
      refine Or.inr ⟨notInterrupted, awaits, polled, ?_⟩
      rw [control]
      exact Nat.lt_succ_self 4
  | networkGet =>
      simp only [control] at awaits ⊢
      refine runNetwork_advances invariant polled ?_
      intro network notScannable
      refine Or.inr ⟨notInterrupted, awaits.resolve_left notScannable,
        polled, ?_⟩
      rw [control]
      exact Nat.lt_succ_self 3
  | selectAgain =>
      simp only [control] at awaits ⊢
      refine ⟨_, rfl, selectNetwork_advances invariant polled poll isAnswer
        (some ⟨0, 0⟩) ?_⟩
      intro network ready positions
      refine Or.inr ⟨notInterrupted, awaits, polled.poll ready rfl, ?_⟩
      rw [control]
      exact Nat.lt_succ_self 2
  | networkGetAgain =>
      simp only [control] at awaits ⊢
      refine runNetwork_advances invariant polled ?_
      intro network notScannable
      refine Or.inr ⟨notInterrupted, awaits, polled, ?_⟩
      rw [control]
      exact Nat.lt_succ_self 1
  | timerGet =>
      simp only [control] at awaits ⊢
      obtain ⟨t, c, isHeld, expired⟩ := awaits
      obtain ⟨after, result, runs⟩ :=
        runTimer_runs invariant.base.invariant.timers normalized
      refine ⟨after, result, Or.inl ?_⟩
      cases runs with
      | failed => exact polled.error rfl
      | nothing later =>
          obtain ⟨reading, isClock, notYet⟩ := later t c isHeld
          exact absurd (expired answers isAnswer reading isClock)
            (not_le.mpr notYet)
      | @invoked timers t c kept isHeld removed =>
          exact polled.invoke (withTimers m timers) rfl false .timer c.r
  | idle => rw [control] at awaits; exact awaits.elim
  | callback atStart => rw [control] at awaits; exact awaits.elim
  | returned atStart rc => rw [control] at awaits; exact awaits.elim

/-! ## What the application can rely on -/

/-- The inputs of a call in which no interrupt is requested. -/
def AnswersFrom (environment : Answers → Prop) (m : Loop κ)
    (input : Input κ) : Prop :=
  Allowed m input ∧ ∃ answers, input = .answer answers ∧ environment answers

/-- The contract of the event loop at one moment of a run. -/
structure Correct (m : Loop κ) : Prop where
  /-- Every item of the history obeys the laws. -/
  disciplined : Disciplined m.history
  /-- A call that is bound to return does so, with the value it must. -/
  returns : ∀ rc, stopping m.history = some rc → ∀ answers,
    ∃ after, step m (.answer answers) = some after ∧
      after.history = .runReturn rc :: m.history
  /-- A call which starts with an event that can be run dispatches one. -/
  dispatches : m.control = .start → m.events.interruptRequested = false →
    ∀ environment, ImmediateDue m ∨ NetworkDue environment m ∨
        TimerDue environment m →
      Inevitable step (AnswersFrom environment) (Dispatched m) m

theorem dispatches (invariant : Invariant start)
    (atStart : start.control = .start)
    (notInterrupted : start.events.interruptRequested = false)
    (due : ImmediateDue start ∨ NetworkDue environment start ∨
      TimerDue environment start) :
    Inevitable step (AnswersFrom environment) (Dispatched start) start := by
  refine inevitable_of_rank
    (fun m => Invariant m ∧ m.events.interruptRequested = false ∧
      Awaits environment m ∧ Polled start m)
    (fun m => rank m.control) ?_ ⟨invariant, notInterrupted, ?_, [], rfl, ?_⟩
  · rintro m input ⟨invariant, notInterrupted, awaits, polled⟩
      ⟨allowed, answers, rfl, isAnswer⟩
    have answersAllowed : AllowedAnswers m.now answers := allowed
    obtain ⟨monotonic, poll⟩ := answersAllowed
    obtain ⟨after, result, advances⟩ := proceed_advances
      (invariant.later monotonic.getD)
      (fun reading isClock => (monotonic reading isClock).1) poll isAnswer
      notInterrupted awaits polled
    have moved : step m (.answer answers) = some after := result
    have kept := invariant.step allowed moved
    refine ⟨after, moved, advances.imp id ?_⟩
    rintro ⟨notInterrupted, awaits, polled, lower⟩
    exact ⟨⟨kept, notInterrupted, awaits, polled⟩, lower⟩
  · unfold Awaits
    rw [atStart]
    exact due
  · exact fun _ member => absurd member List.not_mem_nil

/-- Every run of the event loop keeps the contract. -/
theorem events_run_disciplined (reachable : Reachable m) : Correct m := by
  have invariant := reachable.invariant
  constructor
  · exact invariant.base.disciplined
  · intro rc isStopping answers
    exact stopping_returns invariant isStopping answers
  · intro atStart notInterrupted environment due
    exact dispatches invariant atStart notInterrupted due

/-- An immediate event is registered, and `events_run` is called. -/
def oneEvent : Loop Nat :=
  let idle : Loop Nat := ⟨{}, .idle, ⟨5, 0⟩, []⟩
  let registered := step idle (.act (.immediateRegister {} 7 3))
  ((registered.bind fun m => step m .run).getD idle)

/-- Its callback is invoked, and returns 1. -/
def oneInvoked : Loop Nat :=
  let answers : Answers := { poll := fun _ _ => .failed }
  let invoked := step oneEvent (.answer answers)
  ((invoked.bind fun m => step m (.returns 1)).getD oneEvent)

theorem events_run_disciplined_oneInvoked :
    oneEvent.control = .start ∧ ImmediateDue oneEvent ∧ Correct oneEvent ∧
      stopping oneInvoked.history = some 1 ∧ Correct oneInvoked := by
  have registered : Reachable _ := (Reachable.start ⟨5, 0⟩).step
    (.act (.immediateRegister {} 7 3))
    ⟨by decide, by decide, fun _ _ => rfl⟩ rfl
  have started : Reachable oneEvent := registered.step .run trivial rfl
  have invoked := started.step (.answer { poll := fun _ _ => .failed })
    ⟨fun _ noClock => absurd noClock (Option.some_ne_none _).symm,
      fun _ _ _ noAnswer => PollResult.noConfusion noAnswer,
      fun _ _ noAnswer => PollResult.noConfusion noAnswer⟩ rfl
  have returned : Reachable oneInvoked := invoked.step (.returns 1) trivial rfl
  exact ⟨rfl, ⟨0, Option.some_ne_none _⟩, events_run_disciplined started, rfl,
    events_run_disciplined returned⟩

end Libcperciva.Events.LoopProgress
