import Libcperciva.Events.LoopCalls
import Libcperciva.Lib.Progress

/-!
# Every run of the event loop

A run takes any steps: the application does what it likes in its callbacks and
between two calls of `events_run`, and signals arrive at any time.  The clock
is monotonic, and no signal interrupts `poll`.
-/

namespace Libcperciva.Events.LoopRuns

open Libcperciva.Util.Time
open Libcperciva.Lib.Progress
open Libcperciva.Events.EventrecModel
open Libcperciva.Events.ImmediateModel
open Libcperciva.Events.ImmediateOps (immediate)
open Libcperciva.Events.NetworkModel
open Libcperciva.Events.NetworkInvariant (registered)
open Libcperciva.Events.NetworkRuns
open Libcperciva.Events.NetworkScan (InPosition)
open Libcperciva.Events.TimerModel
open Libcperciva.Events.TimerOps (content Content)
open Libcperciva.Events.LoopModel
open Libcperciva.Events.LoopOps
open Libcperciva.Events.LoopLaws
open Libcperciva.Events.LoopCalls

variable {κ : Type*} {m after : Loop κ}

/-! ## Runs -/

/-- What is assumed of the answers to the calls of the event loop. -/
def AllowedAnswers (now : Timeval) (answers : Answers) : Prop :=
  Monotonic now answers.clock ∧ PollAllowed answers.poll

/-- What is assumed of the inputs. -/
def Allowed (m : Loop κ) : Input κ → Prop
  | .act action => AllowedAction m.events m.now action
  | .answer answers => AllowedAnswers m.now answers
  | .signal | .run | .returns _ => True

/-- The states of the event loop. -/
inductive Reachable : Loop κ → Prop where
  | start (now : Timeval) : Reachable ⟨{}, .idle, now, []⟩
  | step {m after : Loop κ} (input : Input κ) (before : Reachable m)
      (allowed : Allowed m input) (moved : step m input = some after) :
      Reachable after

/-! ## The invariant -/

/-- What holds where the loop has arrived. -/
def At (m : Loop κ) : Prop :=
  match m.control with
  | .idle | .start | .timerMin | .select _ | .loop =>
      stopping m.history = none
  | .networkGet | .selectAgain =>
      stopping m.history = none ∧ NoImmediate m.events.immediate
  | .networkGetAgain =>
      NoImmediate m.events.immediate ∧
        ∃ ready, latest m.history = some (.poll ready) ∧
          ∀ fd op, ready fd op = true → InPosition m.events.network fd op
  | .timerGet =>
      NoImmediate m.events.immediate ∧
        ∃ ready, latest m.history = some (.poll ready) ∧
          ∀ fd op, ready fd op = false
  | .callback _ =>
      stopping m.history = none ∧
        (interruptedSince m.history = true →
          m.events.interruptRequested = true)
  | .returned _ rc =>
      ∀ stop, stopping m.history = some stop →
        stop = rc ∧ (rc ≠ 0 ∨ m.events.interruptRequested = true)

/-- What holds of the loop between steps. -/
structure Invariant (m : Loop κ) : Prop where
  base : Base m.events m.now m.history
  control : At m

theorem held_start : held ({} : EventState κ) = fun _ => none := by
  funext place
  cases place with
  | immediate cookie => rfl
  | network fd op => exact NetworkInvariant.event_new op
  | timer t => rfl

theorem start_invariant (now : Timeval) :
    Invariant (κ := κ) ⟨{}, .idle, now, []⟩ where
  base :=
    { invariant := LoopOps.start_invariant now
      recorded := by
        rw [held_start]
        exact Lib.NumberedTokens.Registry.empty Eventrec.id
      made := by
        intro place event isHeld
        rw [held_start] at isHeld
        cases isHeld
      numbered := fun _ member => absurd member List.not_mem_nil
      disciplined := by
        intro later item earlier split
        simp at split }
  control := rfl

/-- The call of `events_run` returns what it is bound to return. -/
theorem finish_invariant (base : Base m.events m.now m.history) {rc : Int}
    (bound : ∀ stop, stopping m.history = some stop → stop = rc) :
    Invariant (finish m rc) where
  base := by
    have noted : Base m.events m.now (.runReturn rc :: m.history) :=
      base.note rfl rfl
        fun stop isStopping => Or.inl (bound stop isStopping ▸ rfl)
    have kept : LoopOps.Invariant
        { m.events with interruptRequested := false } m.now :=
      ⟨base.invariant.immediate, base.invariant.network,
        base.invariant.timers, base.invariant.punctual⟩
    exact noted.congr kept rfl le_rfl
  control := rfl

/-- The call returns while nothing stops it. -/
theorem finish_running (base : Base m.events m.now m.history) {rc : Int}
    (running : stopping m.history = none) : Invariant (finish m rc) := by
  refine finish_invariant base ?_
  intro stop isStopping
  rw [running] at isStopping
  cases isStopping

theorem invoke_invariant (base : Base m.events m.now m.history)
    (after : Loop κ) (place : Place) {event : Eventrec κ}
    (invariant : LoopOps.Invariant after.events after.now)
    (sameHistory : after.history = m.history)
    (isHeld : held m.events place = some event)
    (removed : held after.events =
      Function.update (held m.events) place none)
    (ids : after.events.nextId = m.events.nextId)
    (running : stopping m.history = none)
    (network : place.source = .network →
      NoImmediate after.events.immediate)
    (timer : place.source = .timer → NoImmediate after.events.immediate ∧
      ∃ ready, latest m.history = some (.poll ready) ∧
        ∀ fd op, ready fd op = false) (atStart : Bool) :
    Invariant (invoke after atStart place.source event) where
  base := by
    unfold invoke
    rw [sameHistory]
    refine base.ending invariant isHeld removed ids rfl rfl running ?_ ?_ ?_
    · intro event pending same
      rw [Item.invoke.injEq] at same
      obtain ⟨isNetwork, _, rfl⟩ := same
      exact network isNetwork
    · intro event pending same
      rw [Item.invoke.injEq] at same
      obtain ⟨isTimer, _, rfl⟩ := same
      exact timer isTimer
    · intro source event' pending same
      rw [Item.invoke.injEq] at same
      exact ⟨same.1.symm, same.2.1.symm⟩
  control := ⟨rfl, fun interrupted => Bool.noConfusion interrupted⟩

/-! ## The steps of the loop -/

/-- The loop goes on where nothing stops it. -/
theorem runImmediate_invariant (base : Base m.events m.now m.history)
    (running : stopping m.history = none) {atStart : Bool}
    {goOn : Loop κ → Loop κ}
    (goesOn : ∀ queue : Immediate (Eventrec κ), NoImmediate queue →
      Base (withImmediate m queue).events m.now m.history →
      Invariant (goOn (withImmediate m queue)))
    (result : runImmediate m atStart goOn = some after) :
    Invariant after := by
  have invariant := base.invariant
  obtain ⟨after', result', runs⟩ :=
    runImmediate_runs invariant.immediate atStart goOn
  obtain rfl := Option.some.inj (result.symm.trans result')
  cases runs with
  | nothing kept same empty =>
      exact goesOn _ empty (base.congr ⟨kept, invariant.network,
        invariant.timers, invariant.punctual⟩ (held_congr same rfl rfl)
        le_rfl)
  | @invoked queue cookie event kept isHeld removed =>
      exact invoke_invariant base (withImmediate m queue)
        (.immediate cookie)
        ⟨kept, invariant.network, invariant.timers, invariant.punctual⟩ rfl
        isHeld (held_immediate removed rfl rfl) rfl running
        (fun isNetwork => Source.noConfusion isNetwork)
        (fun isTimer => Source.noConfusion isTimer) atStart

theorem runNetwork_invariant (base : Base m.events m.now m.history)
    (running : stopping m.history = none)
    (noImmediate : NoImmediate m.events.immediate) {goOn : Control}
    (result : runNetwork m goOn = some after)
    (goesOn : ∀ network : Network (Eventrec κ),
      (∀ fd op, ¬ InPosition m.events.network fd op) →
      At { withNetwork m network with control := goOn }) :
    Invariant after := by
  have invariant := base.invariant
  obtain ⟨after', result', runs⟩ := runNetwork_runs invariant.network goOn
  obtain rfl := Option.some.inj (result.symm.trans result')
  cases runs with
  | nothing kept same idle =>
      exact ⟨base.congr ⟨invariant.immediate, kept, invariant.timers,
        invariant.punctual⟩ (held_congr rfl same rfl) le_rfl,
        goesOn _ idle⟩
  | @invoked network fd op event kept isHeld removed =>
      exact invoke_invariant base (withNetwork m network)
        (.network fd op)
        ⟨invariant.immediate, kept, invariant.timers, invariant.punctual⟩ rfl
        isHeld (held_network removed rfl rfl) rfl running
        (fun _ => noImmediate)
        (fun isTimer => Source.noConfusion isTimer) false

theorem selectNetwork_invariant (base : Base m.events m.now m.history)
    (running : stopping m.history = none) {answers : Answers}
    (allowed : PollAllowed answers.poll) {tv : Option Timeval}
    {goOn : Control}
    (goesOn : ∀ (network : Network (Eventrec κ))
      (ready : Nat → NetworkOp → Bool),
      (∀ fd op, ready fd op = true → InPosition network fd op) →
      At { withNetwork m network with
        control := goOn
        history := .poll ready :: m.history }) :
    Invariant (selectNetwork m answers tv goOn) := by
  have invariant := base.invariant
  have selects := selectNetwork_selects invariant.network allowed tv goOn
  generalize selectNetwork m answers tv goOn = after at *
  have kept : ∀ {network : Network (Eventrec κ)},
      NetworkInvariant.Invariant network →
      registered network = registered m.events.network →
      Base (withNetwork m network).events m.now m.history :=
    fun keptNetwork same => base.congr ⟨invariant.immediate, keptNetwork,
      invariant.timers, invariant.punctual⟩ (held_congr rfl same rfl) le_rfl
  cases selects with
  | @failed network keptNetwork same =>
      exact finish_running (m := withNetwork m network)
        (kept keptNetwork same) running
  | ready keptNetwork same answer positions =>
      refine ⟨?_, goesOn _ _ positions⟩
      refine (kept keptNetwork same).note rfl rfl ?_
      intro stop isStopping
      rw [running] at isStopping
      cases isStopping

theorem runTimer_invariant (base : Base m.events m.now m.history)
    {answers : Answers}
    (normalized : ∀ reading, answers.clock = some reading →
      reading.Normalized)
    (noImmediate : NoImmediate m.events.immediate)
    (nothingReady : ∃ ready, latest m.history = some (.poll ready) ∧
      ∀ fd op, ready fd op = false)
    (result : runTimer m answers = some after) : Invariant after := by
  have invariant := base.invariant
  have running : stopping m.history = none := by
    obtain ⟨ready, isPoll, _⟩ := nothingReady
    exact stopping_of_latest_poll isPoll
  obtain ⟨after', result', runs⟩ := runTimer_runs invariant.timers normalized
  obtain rfl := Option.some.inj (result.symm.trans result')
  cases runs with
  | failed => exact finish_running base running
  | nothing later => exact finish_running base running
  | @invoked timers t c kept isHeld removed =>
      have isPlace : held m.events (.timer t) = some c.r := by
        simp only [held, isHeld, Option.map_some]
      exact invoke_invariant base (withTimers m timers) (.timer t)
        ⟨invariant.immediate, invariant.network, kept,
          invariant.punctual.remove removed⟩ rfl
        isPlace (held_timer removed rfl rfl rfl) rfl running
        (fun isNetwork => Source.noConfusion isNetwork)
        (fun _ => ⟨noImmediate, nothingReady⟩) false

theorem loopTop_invariant (base : Base m.events m.now m.history)
    (running : stopping m.history = none)
    (result : loopTop m = some after) : Invariant after := by
  unfold loopTop at result
  split_ifs at result with interrupted
  · cases result
    exact finish_running base running
  · refine runImmediate_invariant base running ?_ result
    intro queue empty kept
    exact ⟨kept, running, empty⟩

theorem proceed_invariant (invariant : Invariant m) {answers : Answers}
    (normalized : ∀ reading, answers.clock = some reading →
      reading.Normalized) (allowed : PollAllowed answers.poll)
    (result : proceed m answers = some after) : Invariant after := by
  obtain ⟨base, arrived⟩ := invariant
  unfold At at arrived
  unfold proceed at result
  cases control : m.control with
  | idle => simp only [control] at result; cases result
  | callback atStart => simp only [control] at result; cases result
  | start =>
      simp only [control] at result arrived
      refine runImmediate_invariant base arrived ?_ result
      intro queue empty kept
      exact ⟨kept, arrived⟩
  | timerMin =>
      simp only [control] at result arrived
      obtain ⟨⟨status, tv⟩, _, made⟩ := Option.map_eq_some_iff.mp result
      dsimp only at made
      split_ifs at made with failed
      · exact made ▸ finish_running base arrived
      · exact made ▸ ⟨base, arrived⟩
  | select tv =>
      simp only [control, Option.some.injEq] at result arrived
      subst result
      exact selectNetwork_invariant base arrived allowed
        fun network ready positions => rfl
  | loop =>
      simp only [control] at result arrived
      exact loopTop_invariant base arrived result
  | networkGet =>
      simp only [control] at result arrived
      obtain ⟨running, noImmediate⟩ := arrived
      exact runNetwork_invariant base running noImmediate result
        fun network idle => ⟨running, noImmediate⟩
  | selectAgain =>
      simp only [control, Option.some.injEq] at result arrived
      obtain ⟨running, noImmediate⟩ := arrived
      subst result
      exact selectNetwork_invariant base running allowed
        fun network ready positions => ⟨noImmediate, ready, rfl, positions⟩
  | networkGetAgain =>
      simp only [control] at result arrived
      obtain ⟨noImmediate, ready, isPoll, positions⟩ := arrived
      refine runNetwork_invariant base (stopping_of_latest_poll isPoll)
        noImmediate result ?_
      intro network idle
      refine ⟨noImmediate, ready, isPoll, ?_⟩
      intro fd op
      by_contra isReady
      exact idle fd op (positions fd op (eq_true_of_ne_false isReady))
  | timerGet =>
      simp only [control] at result arrived
      exact runTimer_invariant base normalized arrived.1 arrived.2 result
  | returned atStart rc =>
      cases atStart with
      | true =>
          simp only [control] at result arrived
          split_ifs at result with failed interrupted
          · cases result
            exact finish_invariant base fun stop isStopping =>
              (arrived stop isStopping).1
          · cases result
            exact finish_invariant base fun stop isStopping =>
              (arrived stop isStopping).1
          · have running : stopping m.history = none := by
              by_contra isSome
              obtain ⟨stop, isStopping⟩ := Option.ne_none_iff_exists'.mp isSome
              rcases (arrived stop isStopping).2 with error | isSet
              · exact failed error
              · exact interrupted isSet
            refine runImmediate_invariant base running ?_ result
            intro queue empty kept
            exact finish_running (m := withImmediate m queue) kept running
      | false =>
          simp only [control] at result arrived
          split_ifs at result with failed
          · cases result
            exact finish_invariant base fun stop isStopping =>
              (arrived stop isStopping).1
          · by_cases interrupted : m.events.interruptRequested = true
            · unfold loopTop at result
              rw [if_pos interrupted] at result
              cases result
              refine finish_invariant base ?_
              intro stop isStopping
              rw [(arrived stop isStopping).1]
              exact not_not.mp failed
            · have running : stopping m.history = none := by
                by_contra isSome
                obtain ⟨stop, isStopping⟩ :=
                  Option.ne_none_iff_exists'.mp isSome
                rcases (arrived stop isStopping).2 with error | isSet
                · exact failed error
                · exact interrupted isSet
              exact loopTop_invariant base running result

/-! ## The other steps -/

/-- The application acts, where nothing stops the call. -/
theorem perform_invariant (invariant : Invariant m)
    (application : m.control.application = true) {action : Action κ}
    (allowed : AllowedAction m.events m.now action)
    {events : EventState κ} {items : List (Item κ)}
    (result : perform m.events action = some (events, items)) :
    Invariant { m with
      events
      now := action.clock.getD m.now
      history := items ++ m.history } := by
  obtain ⟨base, arrived⟩ := invariant
  obtain ⟨kept, performs⟩ := perform_performs base.invariant allowed result
  have later := allowed.monotonic.getD
  have running : stopping m.history = none := by
    unfold At at arrived
    cases control : m.control with
    | idle => simpa only [control] using arrived
    | callback atStart =>
        simp only [control] at arrived
        exact arrived.1
    | _ => rw [control] at application; cases application
  -- The flag is set if `events_interrupt` has been called.
  have arrives : ∀ {after : Loop κ}, after.control = m.control →
      stopping after.history = none →
      (interruptedSince after.history = true →
        interruptedSince m.history = true ∧
          after.events.interruptRequested = m.events.interruptRequested ∨
        after.events.interruptRequested = true) → At after := by
    intro after sameControl stillRunning flags
    unfold At at arrived ⊢
    rw [sameControl]
    cases control : m.control with
    | idle => exact stillRunning
    | callback atStart =>
        simp only [control] at arrived
        refine ⟨stillRunning, ?_⟩
        intro interrupted
        rcases flags interrupted with ⟨before, same⟩ | isSet
        · rw [same]
          exact arrived.2 before
        · exact isSet
    | _ => rw [control] at application; cases application
  cases performs with
  | unchanged same ids flag =>
      exact ⟨base.congr kept same ids, arrives rfl running
        fun before => Or.inl ⟨before, flag⟩⟩
  | registered place isNext entered ids flag =>
      exact ⟨base.register kept isNext entered ids running,
        arrives rfl rfl fun before => Or.inl ⟨before, flag⟩⟩
  | cancelled place isHeld removed ids flag =>
      refine ⟨base.ending kept isHeld removed ids rfl rfl running ?_ ?_ ?_,
        arrives rfl rfl fun before => Or.inl ⟨before, flag⟩⟩
      · rintro event pending ⟨⟩
      · rintro event pending ⟨⟩
      · rintro source event pending ⟨⟩
  | interrupted =>
      refine ⟨(base.congr kept rfl le_rfl).note rfl rfl
        fun _ _ => Or.inr rfl, arrives rfl running fun _ => Or.inr rfl⟩

/-- A signal only sets the flag. -/
theorem signal_invariant (invariant : Invariant m) :
    Invariant { m with
      events := { m.events with interruptRequested := true }
      history := .interrupt :: m.history } := by
  obtain ⟨base, arrived⟩ := invariant
  have events := base.invariant
  have kept : LoopOps.Invariant
      { m.events with interruptRequested := true } m.now :=
    ⟨events.immediate, events.network, events.timers, events.punctual⟩
  refine ⟨(base.congr kept rfl le_rfl).note rfl rfl
    fun _ _ => Or.inr rfl, ?_⟩
  unfold At at arrived ⊢
  cases control : m.control with
  | callback atStart =>
      simp only [control] at arrived
      exact ⟨arrived.1, fun _ => rfl⟩
  | returned atStart rc =>
      simp only [control] at arrived
      intro stop isStopping
      exact ⟨(arrived stop isStopping).1, Or.inr rfl⟩
  | _ =>
      simp only [control] at arrived
      exact arrived

theorem Invariant.later (invariant : Invariant m) {next : Timeval}
    (later : m.now.usecs ≤ next.usecs) : Invariant { m with now := next } :=
  ⟨invariant.base.later later, invariant.control⟩

/-- Each step keeps the invariant. -/
theorem Invariant.step (invariant : Invariant m) {input : Input κ}
    (allowed : Allowed m input) (moved : step m input = some after) :
    Invariant after := by
  cases input with
  | signal =>
      cases moved
      exact signal_invariant invariant
  | run =>
      simp only [LoopModel.step, move, Input.clock] at moved
      split_ifs at moved with isIdle
      cases moved
      obtain ⟨base, arrived⟩ := invariant
      unfold At at arrived
      simp only [isIdle] at arrived
      refine ⟨base.note rfl rfl ?_, rfl⟩
      intro stop isStopping
      rw [arrived] at isStopping
      cases isStopping
  | act action =>
      simp only [LoopModel.step, move, Input.clock] at moved
      split_ifs at moved with application
      obtain ⟨⟨events, items⟩, performed, rfl⟩ :=
        Option.map_eq_some_iff.mp moved
      exact perform_invariant invariant application allowed performed
  | returns rc =>
      simp only [LoopModel.step, move, Input.clock] at moved
      cases control : m.control with
      | callback atStart =>
          simp only [control, Option.some.injEq] at moved
          subst moved
          obtain ⟨base, arrived⟩ := invariant
          unfold At at arrived
          simp only [control] at arrived
          obtain ⟨running, flag⟩ := arrived
          refine ⟨base.note rfl rfl ?_, ?_⟩
          · intro stop isStopping
            rw [running] at isStopping
            cases isStopping
          · intro stop isStopping
            simp only [stopping] at isStopping
            split_ifs at isStopping with stops
            cases isStopping
            exact ⟨rfl, stops.imp id flag⟩
      | _ => simp only [control] at moved; cases moved
  | answer answers =>
      obtain ⟨monotonic, poll⟩ := allowed
      exact proceed_invariant (invariant.later monotonic.getD)
        (fun reading isClock => (monotonic reading isClock).1) poll moved

theorem Reachable.invariant (reachable : Reachable m) : Invariant m := by
  induction reachable with
  | start now => exact start_invariant now
  | step input before allowed moved invariant =>
      exact invariant.step allowed moved

/-! ## The call returns when it is stopped -/

/-- The next answer makes a call return that is bound to. -/
theorem stopping_returns (invariant : Invariant m) {rc : Int}
    (isStopping : stopping m.history = some rc) (answers : Answers) :
    ∃ after, step m (.answer answers) = some after ∧
      after.history = .runReturn rc :: m.history := by
  have arrived := invariant.control
  unfold At at arrived
  cases control : m.control with
  | returned atStart status =>
      simp only [control] at arrived
      obtain ⟨rfl, stops⟩ := arrived rc isStopping
      simp only [LoopModel.step, move, Input.clock, proceed, control]
      by_cases failed : rc = 0
      · have isSet := stops.resolve_left (not_not.mpr failed)
        subst failed
        cases atStart <;> simp [loopTop, isSet, finish]
      · cases atStart <;> simp [failed, finish]
  | networkGet =>
      simp only [control] at arrived
      rw [arrived.1] at isStopping
      cases isStopping
  | selectAgain =>
      simp only [control] at arrived
      rw [arrived.1] at isStopping
      cases isStopping
  | networkGetAgain =>
      simp only [control] at arrived
      obtain ⟨_, ready, isPoll, _⟩ := arrived
      rw [stopping_of_latest_poll isPoll] at isStopping
      cases isStopping
  | timerGet =>
      simp only [control] at arrived
      obtain ⟨_, ready, isPoll, _⟩ := arrived
      rw [stopping_of_latest_poll isPoll] at isStopping
      cases isStopping
  | callback atStart =>
      simp only [control] at arrived
      rw [arrived.1] at isStopping
      cases isStopping
  | _ =>
      simp only [control] at arrived
      rw [arrived] at isStopping
      cases isStopping

end Libcperciva.Events.LoopRuns
