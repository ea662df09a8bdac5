import Libcperciva.Events.EventrecModel
import Libcperciva.Events.TimerOps

/-!
# Every run of the timer events

A run calls the timer functions in any order, with any outcome of the
allocations and of the clock, as long as the clock is monotonic.  Next to the
timers it keeps what the documentation says about them: which timers are live,
since when, and how each of the others ended.

`gettimeout` adds two times without a check.  The contract holds in every run
in which these sums fit, and not in every run.
-/

namespace Libcperciva.Events.TimerRuns

open Libcperciva.Util.Time
open Libcperciva.Lib.NumberedTokens
open Libcperciva.Datastruct.TimerqueueModel
open Libcperciva.Datastruct.TimerqueueOps
open Libcperciva.Events.EventrecModel
open Libcperciva.Events.TimerModel
open Libcperciva.Events.TimerOps

variable {κ : Type*}

/-! ## Runs -/

/-- A timer that was registered and neither cancelled nor returned. -/
structure Live (κ : Type*) where
  event : Eventrec κ
  timeo : Timeval
  /-- The time of its last register or successful reset. -/
  since : Timeval

/-- When a live timer expires, in microseconds. -/
def Live.deadline (live : Live κ) : Int :=
  live.since.usecs + live.timeo.usecs

/-- How a timer ends; it is named by the number of its event record. -/
inductive Ending where
  | cancelled (id : Nat)
  | returned (id : Nat)
deriving DecidableEq

/-- The timer that has ended. -/
def Ending.id : Ending → Nat
  | .cancelled id => id
  | .returned id => id

/-- The timers and their history. -/
structure RunState (κ : Type*) where
  timers : Timers (Eventrec κ)
  /-- The latest reading of the clock. -/
  now : Timeval
  /-- The live timers, by their cookies. -/
  live : Nat → Option (Live κ)
  nextId : Nat
  /-- The endings of timers, oldest first. -/
  endings : List Ending

/-- A call, with the outcomes of the allocations and of the clock. -/
inductive Op (κ : Type*) where
  | register (allocs : TimerAllocs) (clock : Option Timeval)
      (callback : κ) (timeo : Timeval)
  | cancel (cookie : Nat)
  | reset (clock : Option Timeval) (cookie : Nat)
  | get (clock : Option Timeval)

/--
One call.  The timers are those of the code; the rest follows the
documentation and the values which the call returns.
-/
def step (state : RunState κ) : Op κ → Option (RunState κ)
  | .register allocs clock callback timeo =>
      let event := eventsMkrec state.nextId callback
      let now := clock.getD state.now
      let result := eventsTimerRegister allocs clock state.timers event timeo
      some { state with
        timers := result.2
        now
        live := match result.1 with
          | none => state.live
          | some t => Function.update state.live t (some ⟨event, timeo, now⟩)
        nextId := state.nextId + 1 }
  | .cancel cookie =>
      (eventsTimerCancel state.timers cookie).map fun timers =>
        { state with
          timers
          live := Function.update state.live cookie none
          endings := state.endings ++ ((state.live cookie).map fun live =>
            Ending.cancelled live.event.id).toList }
  | .reset clock cookie =>
      (eventsTimerReset clock state.timers cookie).map fun (status, timers) =>
        let now := clock.getD state.now
        { state with
          timers
          now
          live :=
            if status = 0 then
              Function.update state.live cookie
                ((state.live cookie).map fun live => { live with since := now })
            else state.live }
  | .get clock =>
      (eventsTimerGet clock state.timers).map fun (_, r, timers) =>
        { state with
          timers
          now := clock.getD state.now
          live := match r with
            | none => state.live
            | some r => fun t =>
                (state.live t).filter fun live => live.event.id ≠ r.id
          endings := state.endings ++ (r.map fun r =>
            Ending.returned r.id).toList }

/-- A monotonic clock, with normalized readings. -/
def Monotonic (state : RunState κ) (clock : Option Timeval) : Prop :=
  ∀ now, clock = some now →
    now.Normalized ∧ state.now.usecs ≤ now.usecs

/-- What is assumed of the caller, the clock and the allocator. -/
def Allowed (state : RunState κ) : Op κ → Prop
  | .register allocs clock _ timeo =>
      Monotonic state clock ∧ timeo.Normalized ∧ Fresh allocs state.timers
  | .cancel cookie => state.live cookie ≠ none
  | .reset clock cookie => Monotonic state clock ∧ state.live cookie ≠ none
  | .get clock => Monotonic state clock

/--
A register that enters a timer, and a reset, compute a time which a timeval
can hold.
-/
def SumsFit (state : RunState κ) : Op κ → Prop
  | .register allocs clock _ timeo => allocs.Succeed state.timers →
      ∀ now, clock = some now → Representable (now.usecs + timeo.usecs)
  | .reset clock cookie => ∀ now live, clock = some now →
      state.live cookie = some live →
      Representable (now.usecs + live.timeo.usecs)
  | .cancel _ | .get _ => True

/-- The states the timers go through, if each call meets the condition. -/
inductive Run (condition : RunState κ → Op κ → Prop) :
    RunState κ → Prop where
  | start (now : Timeval) : Run condition ⟨{}, now, fun _ => none, 0, []⟩
  | call {state after : RunState κ} (op : Op κ)
      (before : Run condition state) (allowed : Allowed state op)
      (met : condition state op) (returned : step state op = some after) :
      Run condition after

/-! ## The invariant of a run -/

/-- The event record of the live timer with a cookie. -/
def liveEvent (live : Nat → Option (Live κ)) (t : Nat) :
    Option (Eventrec κ) :=
  (live t).map Live.event

/-- The timers are the live ones, and expire when these are due. -/
structure Invariant (state : RunState κ) : Prop where
  timers : TimerOps.Invariant state.timers
  /-- The code knows the timers that are live. -/
  known : ∀ t, content state.timers t = none ↔ state.live t = none
  due : ∀ t c live, content state.timers t = some c →
    state.live t = some live →
    c.r = live.event ∧ c.timeo = live.timeo ∧
      c.expires.usecs = live.deadline
  /-- A live timer was registered or reset in the past. -/
  past : ∀ t live, state.live t = some live →
    live.timeo.Normalized ∧ live.since.usecs ≤ state.now.usecs
  recorded : Recorded (liveEvent state.live) state.nextId
    (state.endings.map Ending.id)

variable {state after : RunState κ}

theorem liveEvent_some {live : Nat → Option (Live κ)} {t : Nat}
    {timer : Live κ} (isLive : live t = some timer) :
    liveEvent live t = some timer.event :=
  Option.map_eq_some_iff.mpr ⟨timer, isLive, rfl⟩

theorem liveEvent_update (live : Nat → Option (Live κ)) (t : Nat)
    (timer : Option (Live κ)) :
    liveEvent (Function.update live t timer) =
      Function.update (liveEvent live) t (timer.map Live.event) := by
  funext u
  unfold liveEvent
  by_cases here : u = t
  · subst here
    simp
  · simp [here]

theorem start_invariant (now : Timeval) :
    Invariant (κ := κ) ⟨{}, now, fun _ => none, 0, []⟩ where
  timers := TimerOps.start_invariant
  known _ := ⟨fun _ => rfl, fun _ => rfl⟩
  due _ _ _ noContent := absurd noContent (Option.some_ne_none _).symm
  past _ _ noLive := absurd noLive (Option.some_ne_none _).symm
  recorded := Registry.empty Eventrec.id

theorem Invariant.content_some (invariant : Invariant state) {t : Nat}
    {live : Live κ} (isLive : state.live t = some live) :
    ∃ c, content state.timers t = some c ∧ c.r = live.event ∧
      c.timeo = live.timeo ∧ c.expires.usecs = live.deadline := by
  have held : content state.timers t ≠ none := by
    rw [Ne, invariant.known, isLive]
    exact Option.some_ne_none live
  obtain ⟨c, isContent⟩ := Option.ne_none_iff_exists'.mp held
  exact ⟨c, isContent, invariant.due t c live isContent isLive⟩

theorem Invariant.live_some (invariant : Invariant state) {t : Nat}
    {c : Content (Eventrec κ)} (isContent : content state.timers t = some c) :
    ∃ live, state.live t = some live ∧ c.r = live.event ∧
      c.timeo = live.timeo ∧ c.expires.usecs = live.deadline := by
  have held : state.live t ≠ none := by
    rw [Ne, ← invariant.known, isContent]
    exact Option.some_ne_none c
  obtain ⟨live, isLive⟩ := Option.ne_none_iff_exists'.mp held
  exact ⟨live, isLive, invariant.due t c live isContent isLive⟩

theorem Monotonic.getD {clock : Option Timeval}
    (monotonic : Monotonic state clock) :
    state.now.usecs ≤ (clock.getD state.now).usecs := by
  cases clock with
  | none => exact le_rfl
  | some now => exact (monotonic now rfl).2

/-- The live timers have not changed. -/
theorem Invariant.keep (invariant : Invariant state)
    {timers : Timers (Eventrec κ)} {now : Timeval} {nextId : Nat}
    (timersInvariant : TimerOps.Invariant timers)
    (same : content timers = content state.timers)
    (later : state.now.usecs ≤ now.usecs)
    (recorded : Recorded (liveEvent state.live) nextId
      (state.endings.map Ending.id)) :
    Invariant { state with timers, now, nextId } where
  timers := timersInvariant
  known t := by
    rw [same]
    exact invariant.known t
  due t c live isContent := by
    rw [same] at isContent
    exact invariant.due t c live isContent
  past t live isLive := by
    obtain ⟨normalized, past⟩ := invariant.past t live isLive
    exact ⟨normalized, past.trans later⟩
  recorded := recorded

/-- A timer is registered, or set back. -/
theorem Invariant.put (invariant : Invariant state)
    {timers : Timers (Eventrec κ)} {now expires : Timeval} {t nextId : Nat}
    {live : Live κ} (timersInvariant : TimerOps.Invariant timers)
    (timeoNormalized : live.timeo.Normalized)
    (later : state.now.usecs ≤ now.usecs) (isNow : live.since = now)
    (isDue : expires.usecs = now.usecs + live.timeo.usecs)
    (entered : content timers = Function.update (content state.timers) t
      (some ⟨live.event, live.timeo, expires⟩))
    (recorded : Recorded (Function.update (liveEvent state.live) t
      (some live.event)) nextId (state.endings.map Ending.id)) :
    Invariant { state with
      timers
      now
      live := Function.update state.live t (some live)
      nextId } := by
  constructor
  · exact timersInvariant
  · intro u
    rw [entered]
    by_cases here : u = t
    · simp [here]
    · simpa [here] using invariant.known u
  · intro u c other isContent isLive
    dsimp only at isContent isLive
    rw [entered] at isContent
    by_cases here : u = t
    · subst here
      rw [Function.update_self, Option.some.injEq] at isContent isLive
      subst isContent isLive
      refine ⟨rfl, rfl, ?_⟩
      rw [isDue, ← isNow]
      rfl
    · rw [Function.update_of_ne here] at isContent isLive
      exact invariant.due u c other isContent isLive
  · intro u other isLive
    dsimp only at isLive
    by_cases here : u = t
    · subst here
      rw [Function.update_self, Option.some.injEq] at isLive
      subst isLive
      exact ⟨timeoNormalized, isNow ▸ le_rfl⟩
    · rw [Function.update_of_ne here] at isLive
      obtain ⟨normalized, past⟩ := invariant.past u other isLive
      exact ⟨normalized, past.trans later⟩
  · dsimp only
    rw [liveEvent_update]
    exact recorded

/-- A live timer ends. -/
theorem Invariant.finish (invariant : Invariant state)
    {timers : Timers (Eventrec κ)} {now : Timeval} {t : Nat}
    {live : Live κ} {ending : Ending}
    (timersInvariant : TimerOps.Invariant timers)
    (isLive : state.live t = some live)
    (isEnding : ending.id = live.event.id)
    (later : state.now.usecs ≤ now.usecs)
    (removed : content timers =
      Function.update (content state.timers) t none) :
    Invariant { state with
      timers
      now
      live := Function.update state.live t none
      endings := state.endings ++ [ending] } := by
  have old : ∀ u other, Function.update state.live t none u = some other →
      u ≠ t ∧ state.live u = some other := by
    intro u other isOther
    by_cases here : u = t
    · subst here
      rw [Function.update_self] at isOther
      exact absurd isOther (Option.some_ne_none other).symm
    · rw [Function.update_of_ne here] at isOther
      exact ⟨here, isOther⟩
  constructor
  · exact timersInvariant
  · intro u
    rw [removed]
    by_cases here : u = t
    · simp [here]
    · simpa [here] using invariant.known u
  · intro u c other isContent isOther
    obtain ⟨here, isOther⟩ := old u other isOther
    rw [removed, Function.update_of_ne here] at isContent
    exact invariant.due u c other isContent isOther
  · intro u other isOther
    obtain ⟨normalized, past⟩ :=
      invariant.past u other (old u other isOther).2
    exact ⟨normalized, past.trans later⟩
  · dsimp only
    rw [liveEvent_update, List.map_append, List.map_singleton, isEnding]
    exact invariant.recorded.leave (liveEvent_some isLive)

/-! ## One call -/

/-- A timer that expires first is a live timer with the least deadline. -/
theorem Invariant.earliest (invariant : Invariant state) {t : Nat}
    {c : Content (Eventrec κ)} (earliest : Earliest state.timers t c) :
    ∃ live, state.live t = some live ∧ c.r = live.event ∧
      c.expires.usecs = live.deadline ∧
      ∀ u other, state.live u = some other →
        live.deadline ≤ other.deadline := by
  obtain ⟨live, isLive, isEvent, _, expires⟩ :=
    invariant.live_some earliest.isContent
  refine ⟨live, isLive, isEvent, expires, ?_⟩
  intro u other isOther
  obtain ⟨c', isContent, _, _, expires'⟩ := invariant.content_some isOther
  rw [← expires, ← expires']
  exact earliest.earliest u c' isContent

/-- Only the timer with the number is taken out. -/
theorem Invariant.filter_live (invariant : Invariant state) {t : Nat}
    {live : Live κ} (isLive : state.live t = some live) :
    (fun u => (state.live u).filter fun other =>
      other.event.id ≠ live.event.id) = Function.update state.live t none := by
  funext u
  by_cases here : u = t
  · subst here
    simp [isLive, Option.filter]
  · rw [Function.update_of_ne here]
    cases isOther : state.live u with
    | none => rfl
    | some other =>
        have different : other.event.id ≠ live.event.id := fun sameId =>
          here (invariant.recorded.distinct u t _ _ (liveEvent_some isOther)
            (liveEvent_some isLive) sameId)
        simp [Option.filter, different]

/-- `events_timer_register`, on a clock that is monotonic. -/
theorem Invariant.registers (invariant : Invariant state)
    {allocs : TimerAllocs} {clock : Option Timeval} {callback : κ}
    {timeo : Timeval}
    (allowed : Allowed state (.register allocs clock callback timeo)) :
    RegistersTimer allocs clock state.timers
      (eventsMkrec state.nextId callback) timeo
      (eventsTimerRegister allocs clock state.timers
        (eventsMkrec state.nextId callback) timeo) := by
  obtain ⟨monotonic, timeoNormalized, fresh⟩ := allowed
  exact eventsTimerRegister_registers invariant.timers fresh
    (fun now isClock => (monotonic now isClock).1) timeoNormalized _

/-- The clock is monotonic, so a reset does not make a timer expire earlier. -/
theorem Invariant.notEarlier (invariant : Invariant state) {cookie : Nat}
    {live : Live κ} (isLive : state.live cookie = some live) {now : Timeval}
    (later : state.now.usecs ≤ now.usecs) :
    live.deadline ≤ now.usecs + live.timeo.usecs := by
  have past := (invariant.past cookie live isLive).2
  unfold Live.deadline
  omega

theorem Invariant.step (invariant : Invariant state) {op : Op κ}
    (allowed : Allowed state op) (fits : SumsFit state op) :
    ∃ after, step state op = some after ∧ Invariant after := by
  cases op with
  | register allocs clock callback timeo =>
      have registers := invariant.registers allowed
      obtain ⟨monotonic, timeoNormalized, _⟩ := allowed
      refine ⟨_, rfl, ?_⟩
      generalize eventsTimerRegister allocs clock state.timers _ timeo =
        result at registers
      cases registers with
      | failed timersInvariant _ same =>
          exact invariant.keep timersInvariant same monotonic.getD
            (invariant.recorded.mono (Nat.le_succ _))
      | entered timersInvariant succeed isClock free timeout entered =>
          subst isClock
          have expires := timeout.isSum (fits succeed _ rfl)
          exact invariant.put timersInvariant timeoNormalized
            monotonic.getD rfl expires entered (invariant.recorded.enter rfl)
  | cancel cookie =>
      obtain ⟨live, isLive⟩ := Option.ne_none_iff_exists'.mp allowed
      have held : content state.timers cookie ≠ none :=
        mt (invariant.known cookie).mp allowed
      obtain ⟨timers, result, timersInvariant, removed⟩ :=
        eventsTimerCancel_spec invariant.timers held
      simp only [TimerRuns.step]
      rw [result, isLive]
      exact ⟨_, rfl, invariant.finish timersInvariant isLive rfl le_rfl
        removed⟩
  | reset clock cookie =>
      obtain ⟨monotonic, isHeld⟩ := allowed
      obtain ⟨live, isLive⟩ := Option.ne_none_iff_exists'.mp isHeld
      obtain ⟨c, isContent, isEvent, isTimeo, expires⟩ :=
        invariant.content_some isLive
      obtain ⟨failed, changes⟩ :=
        eventsTimerReset_spec invariant.timers isContent
      simp only [TimerRuns.step]
      cases clock with
      | none =>
          rw [failed]
          exact ⟨_, rfl, invariant.keep invariant.timers rfl le_rfl
            invariant.recorded⟩
      | some now =>
          obtain ⟨nowNormalized, later⟩ := monotonic now rfl
          have timeoNormalized := (invariant.past cookie live isLive).1
          have notEarlier : c.expires.usecs ≤ now.usecs + c.timeo.usecs := by
            rw [expires, isTimeo]
            exact invariant.notEarlier isLive later
          obtain ⟨tv, timers, result, isDue, timersInvariant, changed⟩ :=
            changes now nowNormalized (isTimeo ▸ timeoNormalized)
              (isTimeo ▸ fits now live rfl isLive) notEarlier
          have sameEvents : Function.update (liveEvent state.live) cookie
              (some live.event) = liveEvent state.live :=
            Function.update_eq_self_iff.mpr (liveEvent_some isLive).symm
          have recorded := invariant.recorded
          rw [← sameEvents] at recorded
          rw [isTimeo] at isDue
          rw [isEvent, isTimeo] at changed
          rw [result, isLive]
          exact ⟨_, rfl, invariant.put timersInvariant timeoNormalized
            later rfl isDue changed recorded⟩
  | get clock =>
      simp only [TimerRuns.step]
      cases clock with
      | none =>
          obtain ⟨status, result⟩ := eventsTimerGet_noClock state.timers
          rw [result]
          have kept := invariant.keep invariant.timers rfl le_rfl
            invariant.recorded
          exact ⟨_, rfl, by simpa using kept⟩
      | some now =>
          obtain ⟨nowNormalized, later⟩ := allowed now rfl
          rcases eventsTimerGet_spec invariant.timers nowNormalized with
            ⟨result, _⟩ | ⟨t, c, timers, result, earliest, _,
              timersInvariant, removed⟩
          · rw [result]
            have kept := invariant.keep invariant.timers rfl later
              invariant.recorded
            exact ⟨_, rfl, by simpa using kept⟩
          · obtain ⟨live, isLive, isEvent, _⟩ := invariant.earliest earliest
            rw [result]
            refine ⟨_, rfl, ?_⟩
            dsimp only
            rw [isEvent, invariant.filter_live isLive]
            exact invariant.finish timersInvariant isLive rfl later removed

/-- A call returns also where a sum does not fit. -/
theorem Invariant.defined (invariant : Invariant state) {op : Op κ}
    (allowed : Allowed state op) : TimerRuns.step state op ≠ none := by
  cases op with
  | register allocs clock callback timeo => exact Option.some_ne_none _
  | reset clock cookie =>
      obtain ⟨timers, result⟩ := eventsTimerReset_status invariant.timers
        (mt (invariant.known cookie).mp allowed.2) clock
      simp only [TimerRuns.step]
      rw [result]
      exact Option.some_ne_none _
  | cancel cookie =>
      obtain ⟨after, result, _⟩ := invariant.step allowed trivial
      exact result ▸ Option.some_ne_none after
  | get clock =>
      obtain ⟨after, result, _⟩ := invariant.step allowed trivial
      exact result ▸ Option.some_ne_none after

theorem Run.invariant (run : Run SumsFit state) : Invariant state := by
  induction run with
  | start now => exact start_invariant now
  | call op before allowed fits returned invariant =>
      obtain ⟨after, result, kept⟩ := invariant.step allowed fits
      rw [returned] at result
      exact Option.some.inj result ▸ kept

/-! ## What the caller can rely on -/

/-- The contract of the timers at one moment of a run. -/
structure Correct (state : RunState κ) : Prop where
  /-- No call reads a record that is not allocated. -/
  defined : ∀ op, Allowed state op → step state op ≠ none
  /-- A register fails only if an allocation fails or there is no clock. -/
  register : ∀ allocs clock callback timeo,
    Allowed state (.register allocs clock callback timeo) →
    ((eventsTimerRegister allocs clock state.timers
        (eventsMkrec state.nextId callback) timeo).1 = none ↔
      ¬allocs.Succeed state.timers ∨ clock = none)
  /-- A reset fails only if there is no clock. -/
  reset : ∀ clock cookie, Allowed state (.reset clock cookie) →
    ∃ timers, eventsTimerReset clock state.timers cookie =
      some (if clock = none then -1 else 0, timers)
  /-- All stored times are normalized. -/
  normalized : ∀ Q cookie tv t, state.timers.Q = some Q →
    entry Q cookie = some (tv, t) → tv.Normalized
  /-- NULL means that no live timer is due; otherwise a first one is taken. -/
  get : ∀ now, Monotonic state (some now) →
    ∃ r timers, eventsTimerGet (some now) state.timers = some (0, r, timers) ∧
      (r = none ↔ ∀ t live, state.live t = some live →
        now.usecs < live.deadline) ∧
      ∀ event, r = some event → ∃ t live, state.live t = some live ∧
        event = live.event ∧ live.deadline ≤ now.usecs ∧
        ∀ u other, state.live u = some other →
          live.deadline ≤ other.deadline
  /-- The time left to a first deadline, or NULL if there is no timer. -/
  min : ∀ now, Monotonic state (some now) →
    ∃ timeo, eventsTimerMin true (some now) state.timers = some (0, timeo) ∧
      (timeo = none ↔ ∀ t, state.live t = none) ∧
      ∀ tv, timeo = some tv → tv.Normalized ∧
        ∃ t live, state.live t = some live ∧
          (∀ u other, state.live u = some other →
            live.deadline ≤ other.deadline) ∧
          tv.usecs = max 0 (live.deadline - now.usecs)
  /-- No timer ends twice, so none is returned again or after its end. -/
  once : (state.endings.map Ending.id).Nodup
  /-- A live timer has not ended. -/
  notEnded : ∀ ending ∈ state.endings, ∀ t live,
    state.live t = some live → ending.id ≠ live.event.id

/-- The time left to a live timer is at most its duration. -/
theorem Invariant.left_fits (invariant : Invariant state) {now : Timeval}
    (later : state.now.usecs ≤ now.usecs) (t : Nat)
    (c : Content (Eventrec κ)) (isContent : content state.timers t = some c) :
    Representable (max 0 (c.expires.usecs - now.usecs)) := by
  obtain ⟨live, isLive, _, _, expires⟩ := invariant.live_some isContent
  obtain ⟨timeoNormalized, past⟩ := invariant.past t live isLive
  have timeoFits := timeoNormalized.representable
  rw [representable_iff] at *
  rw [expires]
  unfold Live.deadline
  omega

theorem Invariant.register_eq_none_iff (invariant : Invariant state)
    {allocs : TimerAllocs} {clock : Option Timeval} {callback : κ}
    {timeo : Timeval}
    (allowed : Allowed state (.register allocs clock callback timeo)) :
    (eventsTimerRegister allocs clock state.timers
        (eventsMkrec state.nextId callback) timeo).1 = none ↔
      ¬allocs.Succeed state.timers ∨ clock = none := by
  have registers := invariant.registers allowed
  generalize eventsTimerRegister allocs clock state.timers _ timeo =
    result at *
  cases registers with
  | failed _ cause _ => exact iff_of_true rfl cause
  | entered _ succeed isClock _ _ _ =>
      apply iff_of_false
      · exact Option.some_ne_none _
      · rintro (failed | noClock)
        · exact failed succeed
        · exact absurd (isClock.symm.trans noClock) (Option.some_ne_none _)

/-- `events_timer_get` takes a first of the timers that are due. -/
theorem Invariant.get_first (invariant : Invariant state) {now : Timeval}
    (nowNormalized : now.Normalized) :
    ∃ r timers, eventsTimerGet (some now) state.timers = some (0, r, timers) ∧
      (r = none ↔ ∀ t live, state.live t = some live →
        now.usecs < live.deadline) ∧
      ∀ event, r = some event → ∃ t live, state.live t = some live ∧
        event = live.event ∧ live.deadline ≤ now.usecs ∧
        ∀ u other, state.live u = some other →
          live.deadline ≤ other.deadline := by
  rcases eventsTimerGet_spec invariant.timers nowNormalized with
    ⟨result, later⟩ | ⟨t, c, timers, result, earliest, isDue, _⟩
  · refine ⟨none, state.timers, result, ⟨fun _ => ?_, fun _ => rfl⟩, ?_⟩
    · intro t live isLive
      obtain ⟨c, isContent, _, _, expires⟩ := invariant.content_some isLive
      rw [← expires]
      exact later t c isContent
    · intro event isEvent
      exact absurd isEvent (Option.some_ne_none event).symm
  · obtain ⟨live, isLive, isEvent, expires, least⟩ :=
      invariant.earliest earliest
    rw [expires] at isDue
    refine ⟨some c.r, timers, result, ⟨?_, fun later => ?_⟩, ?_⟩
    · intro isNone
      exact absurd isNone (Option.some_ne_none c.r)
    · exact absurd isDue (not_le.mpr (later t live isLive))
    · intro event same
      obtain rfl := Option.some.inj same
      exact ⟨t, live, isLive, isEvent, isDue, least⟩

/-- `events_timer_min` says how long it takes until a first timer is due. -/
theorem Invariant.min_first (invariant : Invariant state) {now : Timeval}
    (nowNormalized : now.Normalized)
    (later : state.now.usecs ≤ now.usecs) :
    ∃ timeo, eventsTimerMin true (some now) state.timers = some (0, timeo) ∧
      (timeo = none ↔ ∀ t, state.live t = none) ∧
      ∀ tv, timeo = some tv → tv.Normalized ∧
        ∃ t live, state.live t = some live ∧
          (∀ u other, state.live u = some other →
            live.deadline ≤ other.deadline) ∧
          tv.usecs = max 0 (live.deadline - now.usecs) := by
  rcases eventsTimerMin_spec invariant.timers nowNormalized
      (invariant.left_fits later) with
    ⟨result, empty⟩ | ⟨t, c, tv, result, earliest, normalized, left⟩
  · refine ⟨none, result, ⟨fun _ t => ?_, fun _ => rfl⟩, ?_⟩
    · exact (invariant.known t).mp (empty t)
    · intro tv isTv
      exact absurd isTv (Option.some_ne_none tv).symm
  · obtain ⟨live, isLive, isEvent, expires, least⟩ :=
      invariant.earliest earliest
    refine ⟨some tv, result, ⟨?_, fun empty => ?_⟩, ?_⟩
    · intro isNone
      exact absurd isNone (Option.some_ne_none tv)
    · rw [empty t] at isLive
      exact absurd isLive (Option.some_ne_none live).symm
    · intro tv' same
      obtain rfl := Option.some.inj same
      rw [expires] at left
      exact ⟨normalized, t, live, isLive, least, left⟩

/-- The contract holds in every run in which the times fit. -/
theorem timer_run_correct (run : Run SumsFit state) : Correct state := by
  have invariant := run.invariant
  constructor
  · intro op allowed
    exact invariant.defined allowed
  · intro allocs clock callback timeo allowed
    exact invariant.register_eq_none_iff allowed
  · rintro clock cookie ⟨_, isLive⟩
    exact eventsTimerReset_status invariant.timers
      (mt (invariant.known cookie).mp isLive) clock
  · intro Q cookie tv t isQueue isEntry
    exact invariant.timers.entry_normalized isQueue isEntry
  · intro now monotonic
    exact invariant.get_first (monotonic now rfl).1
  · intro now monotonic
    obtain ⟨nowNormalized, later⟩ := monotonic now rfl
    exact invariant.min_first nowNormalized later
  · exact invariant.recorded.once
  · intro ending member t live isLive same
    refine invariant.recorded.notHeld t live.event (liveEvent_some isLive) ?_
    exact List.mem_map.mpr ⟨ending, member, same⟩

/-- A timer of 1.2 s is registered at 5.9 s. -/
def registerOne : Op Nat := .register {} (some ⟨5, 900000⟩) 7 ⟨1, 200000⟩

def oneTimer : RunState Nat :=
  let start : RunState Nat := ⟨{}, ⟨5, 0⟩, fun _ => none, 0, []⟩
  (step start registerOne).getD start

/-- It is reset at 6.9 s, and the clock is at 8.1 s when one is taken. -/
theorem timer_run_correct_oneTimer :
    ∃ reset taken, step oneTimer (.reset (some ⟨6, 900000⟩) 0) = some reset ∧
      step reset (.get (some ⟨8, 100000⟩)) = some taken ∧
      Correct reset ∧ Correct taken := by
  have registered : Run SumsFit oneTimer := by
    refine (Run.start ⟨5, 0⟩).call registerOne ⟨?_, by decide, ?_⟩ ?_ rfl
    · rintro now ⟨⟩
      decide
    · exact ⟨fun _ _ => rfl, fun Q _ noQueue =>
        absurd noQueue (Option.some_ne_none Q).symm⟩
    · rintro _ now ⟨⟩
      decide
  have resetAllowed :
      Allowed oneTimer (.reset (some ⟨6, 900000⟩) 0) := by
    refine ⟨?_, Option.some_ne_none _⟩
    rintro now ⟨⟩
    decide
  have resetFits : SumsFit oneTimer (.reset (some ⟨6, 900000⟩) 0) := by
    rintro now live ⟨⟩ ⟨⟩
    decide
  obtain ⟨reset, isReset, _⟩ :=
    registered.invariant.step resetAllowed resetFits
  have resetRun := registered.call _ resetAllowed resetFits isReset
  have getAllowed : Allowed reset (.get (some ⟨8, 100000⟩)) := by
    obtain ⟨⟨_, _⟩, _, rfl⟩ := Option.map_eq_some_iff.mp isReset
    rintro now ⟨⟩
    have later : (⟨6, 900000⟩ : Timeval).usecs ≤
      (⟨8, 100000⟩ : Timeval).usecs := by decide
    exact ⟨by decide, later⟩
  obtain ⟨taken, isTaken, _⟩ := resetRun.invariant.step getAllowed trivial
  exact ⟨reset, taken, isReset, isTaken, timer_run_correct resetRun,
    timer_run_correct (resetRun.call _ getAllowed trivial isTaken)⟩

/-- A timer of the longest duration is registered at 5 s. -/
def registerLongest : Op Nat :=
  .register {} (some ⟨5, 0⟩) 7 ⟨Int64.maxValue, 0⟩

def longestTimer : RunState Nat :=
  let start : RunState Nat := ⟨{}, ⟨5, 0⟩, fun _ => none, 0, []⟩
  (step start registerLongest).getD start

/-- It is returned at once, because its time has wrapped around. -/
theorem timer_run_wraps :
    ¬∀ state : RunState Nat, Run (fun _ _ => True) state → Correct state := by
  intro always
  have registered : Run (fun _ _ => True) longestTimer := by
    refine (Run.start ⟨5, 0⟩).call registerLongest ⟨?_, by decide, ?_⟩
      trivial rfl
    · rintro now ⟨⟩
      decide
    · exact ⟨fun _ _ => rfl, fun Q _ noQueue =>
        absurd noQueue (Option.some_ne_none Q).symm⟩
  have monotonic : Monotonic longestTimer (some ⟨5, 0⟩) := by
    rintro now ⟨⟩
    decide
  obtain ⟨r, timers, result, _, isDue⟩ :=
    (always _ registered).get ⟨5, 0⟩ monotonic
  have returned : (eventsTimerGet (some ⟨5, 0⟩) longestTimer.timers).map
      (fun result => result.2.1) = some (some ⟨0, 7⟩) := by
    decide +kernel
  rw [result] at returned
  obtain ⟨t, live, isLive, isEvent, due, _⟩ :=
    isDue _ (Option.some.inj returned)
  have lives : longestTimer.live = Function.update (fun _ => none) 0
      (some ⟨⟨0, 7⟩, ⟨Int64.maxValue, 0⟩, ⟨5, 0⟩⟩) := rfl
  rw [lives] at isLive
  by_cases here : t = 0
  · subst here
    rw [Function.update_self, Option.some.injEq] at isLive
    subst isLive
    exact absurd due (by decide)
  · rw [Function.update_of_ne here] at isLive
    exact absurd isLive (Option.some_ne_none live).symm

end Libcperciva.Events.TimerRuns
