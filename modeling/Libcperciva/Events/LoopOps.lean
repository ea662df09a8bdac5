import Libcperciva.Events.LoopModel

/-!
# What the application does to the events

An event is held at a place, which is the cookie or the pair it was registered
under.  A call of the application registers one event, cancels one event, or
leaves all events where they are.
-/

namespace Libcperciva.Events.LoopOps

open Libcperciva.Util.Time
open Libcperciva.Events.EventrecModel
open Libcperciva.Events.ImmediateModel
open Libcperciva.Events.ImmediateOps (immediate)
open Libcperciva.Events.NetworkModel
open Libcperciva.Events.NetworkInvariant (registered)
open Libcperciva.Events.NetworkRuns
open Libcperciva.Events.TimerModel
open Libcperciva.Events.TimerOps (content Content Fresh)
open Libcperciva.Events.LoopModel

variable {κ : Type*} {events after : EventState κ}

/-! ## Places -/

/-- Where an event is registered. -/
inductive Place where
  | immediate (cookie : Nat)
  | network (fd : Nat) (op : NetworkOp)
  | timer (cookie : Nat)
deriving DecidableEq

/-- The kind of the events at a place. -/
def Place.source : Place → Source
  | .immediate _ => .immediate
  | .network _ _ => .network
  | .timer _ => .timer

/-- The event at a place. -/
def held (events : EventState κ) : Place → Option (Eventrec κ)
  | .immediate cookie => immediate events.immediate cookie
  | .network fd op => registered events.network fd op
  | .timer t => (content events.timers t).map Content.r

theorem held_congr
    (immediates : immediate after.immediate = immediate events.immediate)
    (networks : registered after.network = registered events.network)
    (timers : content after.timers = content events.timers) :
    held after = held events := by
  funext place
  cases place <;> simp only [held, immediates, networks, timers]

theorem held_immediate {cookie : Nat} {event : Option (Eventrec κ)}
    (immediates : immediate after.immediate =
      Function.update (immediate events.immediate) cookie event)
    (networks : after.network = events.network)
    (timers : after.timers = events.timers) :
    held after = Function.update (held events) (.immediate cookie) event := by
  funext place
  by_cases here : place = .immediate cookie
  · subst here
    simp [held, immediates]
  · rw [Function.update_of_ne here]
    cases place with
    | immediate other =>
        have different : other ≠ cookie := fun same => here (same ▸ rfl)
        simp [held, immediates, different]
    | network fd op => simp only [held, networks]
    | timer t => simp only [held, timers]

theorem held_network {fd : Nat} {op : NetworkOp}
    {event : Option (Eventrec κ)}
    (networks : registered after.network =
      changed (registered events.network) fd op event)
    (immediates : after.immediate = events.immediate)
    (timers : after.timers = events.timers) :
    held after = Function.update (held events) (.network fd op) event := by
  funext place
  by_cases here : place = .network fd op
  · subst here
    simp [held, networks, changed]
  · rw [Function.update_of_ne here]
    cases place with
    | immediate cookie => simp only [held, immediates]
    | network i o =>
        have different : ¬ (i = fd ∧ o = op) := by
          rintro ⟨rfl, rfl⟩
          exact here rfl
        simp only [held, networks, changed, if_neg different]
    | timer t => simp only [held, timers]

theorem held_of_content {t : Nat} {c : Content (Eventrec κ)}
    (isContent : content events.timers t = some c) :
    held events (.timer t) = some c.r := by
  simp only [held, isContent, Option.map_some]

theorem held_timer {t : Nat} {timer : Option (Content (Eventrec κ))}
    {event : Option (Eventrec κ)}
    (timers : content after.timers =
      Function.update (content events.timers) t timer)
    (isEvent : timer.map Content.r = event)
    (immediates : after.immediate = events.immediate)
    (networks : after.network = events.network) :
    held after = Function.update (held events) (.timer t) event := by
  subst isEvent
  funext place
  by_cases here : place = .timer t
  · subst here
    simp [held, timers]
  · rw [Function.update_of_ne here]
    cases place with
    | immediate cookie => simp only [held, immediates]
    | network fd op => simp only [held, networks]
    | timer other =>
        have different : other ≠ t := fun same => here (same ▸ rfl)
        simp [held, timers, different]

/-! ## The invariant -/

/--
No timer expires later than if it were reset now.  This allows for a time that
has wrapped, but not for a negative duration.
-/
def Punctual (timers : Timers (Eventrec κ)) (now : Timeval) : Prop :=
  ∀ t c, content timers t = some c → c.timeo.Normalized ∧
    (0 ≤ c.timeo.usecs → c.expires.usecs ≤ now.usecs + c.timeo.usecs)

/-- What holds of the events between calls. -/
structure Invariant (events : EventState κ) (now : Timeval) : Prop where
  immediate : ImmediateOps.Invariant events.immediate
  network : NetworkInvariant.Invariant events.network
  timers : TimerOps.Invariant events.timers
  punctual : Punctual events.timers now

theorem start_invariant (now : Timeval) :
    Invariant ({} : EventState κ) now where
  immediate := ImmediateOps.start_invariant
  network := NetworkRuns.start_invariant
  timers := TimerOps.start_invariant
  punctual _ _ noTimer := absurd noTimer (Option.some_ne_none _).symm

/-- A reading of a monotonic clock, if there is one, and normalized. -/
def Monotonic (now : Timeval) (clock : Option Timeval) : Prop :=
  ∀ reading, clock = some reading →
    reading.Normalized ∧ now.usecs ≤ reading.usecs

theorem Monotonic.getD {now : Timeval} {clock : Option Timeval}
    (monotonic : Monotonic now clock) :
    now.usecs ≤ (clock.getD now).usecs := by
  cases clock with
  | none => exact le_rfl
  | some reading => exact (monotonic reading rfl).2

theorem Punctual.later {timers : Timers (Eventrec κ)} {now next : Timeval}
    (punctual : Punctual timers now) (later : now.usecs ≤ next.usecs) :
    Punctual timers next := by
  intro t c isContent
  obtain ⟨normalized, bound⟩ := punctual t c isContent
  exact ⟨normalized, fun notNegative =>
    (bound notNegative).trans (Int.add_le_add_right later _)⟩

theorem Invariant.later {now next : Timeval}
    (invariant : Invariant events now) (later : now.usecs ≤ next.usecs) :
    Invariant events next :=
  { invariant with punctual := invariant.punctual.later later }

/-- A timer is set to expire when it should. -/
theorem Punctual.put {timers timersAfter : Timers (Eventrec κ)}
    {now : Timeval} {t : Nat} {c : Content (Eventrec κ)}
    (punctual : Punctual timers now) (normalized : c.timeo.Normalized)
    (expires : 0 ≤ c.timeo.usecs →
      c.expires.usecs ≤ now.usecs + c.timeo.usecs)
    (entered : content timersAfter =
      Function.update (content timers) t (some c)) :
    Punctual timersAfter now := by
  intro u other isContent
  rw [entered] at isContent
  by_cases here : u = t
  · subst here
    rw [Function.update_self, Option.some.injEq] at isContent
    subst isContent
    exact ⟨normalized, expires⟩
  · rw [Function.update_of_ne here] at isContent
    exact punctual u other isContent

theorem Punctual.remove {timers timersAfter : Timers (Eventrec κ)}
    {now : Timeval} {t : Nat} (punctual : Punctual timers now)
    (removed : content timersAfter =
      Function.update (content timers) t none) :
    Punctual timersAfter now := by
  intro u other isContent
  rw [removed] at isContent
  by_cases here : u = t
  · subst here
    rw [Function.update_self] at isContent
    exact absurd isContent (Option.some_ne_none other).symm
  · rw [Function.update_of_ne here] at isContent
    exact punctual u other isContent

theorem Punctual.congr {timers timersAfter : Timers (Eventrec κ)}
    {now : Timeval} (punctual : Punctual timers now)
    (same : content timersAfter = content timers) :
    Punctual timersAfter now := by
  intro t c isContent
  rw [same] at isContent
  exact punctual t c isContent

/-! ## The calls of the application -/

/-- A reset of a timer to a time which a timeval can hold. -/
def ResetFits (timers : Timers (Eventrec κ)) (clock : Option Timeval)
    (cookie : Nat) : Prop :=
  ∀ c reading, content timers cookie = some c → clock = some reading →
    0 ≤ c.timeo.usecs ∧ Representable (reading.usecs + c.timeo.usecs)

/--
What is assumed of the application, the allocator and the clock.  A timer may
be registered with any duration, also if its time wraps around.
-/
def AllowedAction (events : EventState κ) (now : Timeval) :
    Action κ → Prop
  | .immediateRegister allocs _ prio => 0 ≤ prio ∧ prio < 32 ∧
      ∀ q, allocs.eventq = some q → events.immediate.nodes q = none
  | .immediateCancel cookie => immediate events.immediate cookie ≠ none
  | .timerRegister allocs clock _ timeo =>
      Monotonic now clock ∧ timeo.Normalized ∧ Fresh allocs events.timers
  | .timerCancel cookie => content events.timers cookie ≠ none
  | .timerReset clock cookie =>
      Monotonic now clock ∧ content events.timers cookie ≠ none ∧
        ResetFits events.timers clock cookie
  | .networkRegister _ _ _ _ | .networkCancel _ _ _ | .interrupt => True

theorem AllowedAction.monotonic {now : Timeval} {action : Action κ}
    (allowed : AllowedAction events now action) :
    Monotonic now action.clock := by
  cases action with
  | timerRegister allocs clock callback timeo => exact allowed.1
  | timerReset clock cookie => exact allowed.1
  | _ => exact fun _ noClock => absurd noClock (Option.some_ne_none _).symm

/-- What a call of the application does to the events. -/
inductive Performs (events : EventState κ) :
    EventState κ → List (Item κ) → Prop where
  | unchanged {after : EventState κ} (same : held after = held events)
      (ids : events.nextId ≤ after.nextId)
      (flag : after.interruptRequested = events.interruptRequested) :
      Performs events after []
  | registered {after : EventState κ} {event : Eventrec κ} (place : Place)
      (isNext : event.id = events.nextId)
      (entered : held after =
        Function.update (held events) place (some event))
      (ids : after.nextId = events.nextId + 1)
      (flag : after.interruptRequested = events.interruptRequested) :
      Performs events after [.register place.source event]
  | cancelled {after : EventState κ} {event : Eventrec κ} (place : Place)
      (isHeld : held events place = some event)
      (removed : held after = Function.update (held events) place none)
      (ids : after.nextId = events.nextId)
      (flag : after.interruptRequested = events.interruptRequested) :
      Performs events after [.cancel event]
  | interrupted :
      Performs events { events with interruptRequested := true } [.interrupt]

variable {now : Timeval} {items : List (Item κ)}

theorem perform_performs (invariant : Invariant events now)
    {action : Action κ} (allowed : AllowedAction events now action)
    (result : perform events action = some (after, items)) :
    Invariant after (action.clock.getD now) ∧
      Performs events after items := by
  cases action with
  | immediateRegister allocs callback prio =>
      obtain ⟨low, high, fresh⟩ := allowed
      simp only [perform] at result
      rcases ImmediateOps.eventsImmediateRegister_spec invariant.immediate
          fresh (eventsMkrec events.nextId callback) low high with
        called | ⟨q, queue, called, free, kept, entered⟩
      · rw [called] at result
        cases result
        exact ⟨⟨invariant.immediate, invariant.network, invariant.timers,
          invariant.punctual⟩, Performs.unchanged rfl (Nat.le_succ _) rfl⟩
      · rw [called] at result
        cases result
        exact ⟨⟨kept, invariant.network, invariant.timers,
          invariant.punctual⟩, Performs.registered (.immediate q) rfl
            (held_immediate entered rfl rfl) rfl rfl⟩
  | immediateCancel cookie =>
      obtain ⟨queue, called, kept, removed⟩ :=
        ImmediateOps.eventsImmediateCancel_spec invariant.immediate allowed
      obtain ⟨event, isEvent⟩ := Option.ne_none_iff_exists'.mp allowed
      simp only [perform] at result
      rw [called, isEvent] at result
      cases result
      exact ⟨⟨kept, invariant.network, invariant.timers,
        invariant.punctual⟩, Performs.cancelled (.immediate cookie) isEvent
          (held_immediate removed rfl rfl) rfl rfl⟩
  | networkRegister allocs callback s op =>
      simp only [perform] at result
      obtain ⟨⟨status, network⟩, called, made⟩ :=
        Option.map_eq_some_iff.mp result
      cases made
      have registers := NetworkRegister.eventsNetworkRegister_registers
        invariant.network allocs (eventsMkrec events.nextId callback) s op
      rw [called] at registers
      refine ⟨⟨invariant.immediate, registers_invariant registers,
        invariant.timers, invariant.punctual⟩, ?_⟩
      rcases registers_registered registers with
        ⟨failed, _, same⟩ | ⟨done, _, o, _, _, entered⟩
      · rw [if_neg failed]
        exact Performs.unchanged (held_congr rfl same rfl) (Nat.le_succ _) rfl
      · rw [if_pos done]
        exact Performs.registered (.network s.toNat o) rfl
          (held_network entered rfl rfl) rfl rfl
  | networkCancel allocs s op =>
      simp only [perform] at result
      have cancels := NetworkCalls.eventsNetworkCancel_cancels
        invariant.network allocs s op
      generalize eventsNetworkCancel allocs events.network s op =
        returned at *
      obtain ⟨status, network⟩ := returned
      cases result
      refine ⟨⟨invariant.immediate, cancels_invariant cancels,
        invariant.timers, invariant.punctual⟩, ?_⟩
      rcases cancels_registered cancels with
        ⟨failed, _, same⟩ | ⟨done, _, o, isOp, isHeld, removed⟩
      · rw [if_neg failed]
        exact Performs.unchanged (held_congr rfl same rfl) le_rfl rfl
      · obtain ⟨event, isEvent⟩ := Option.ne_none_iff_exists'.mp isHeld
        rw [if_pos done, isOp, Option.bind_some, isEvent]
        exact Performs.cancelled (.network s.toNat o) isEvent
          (held_network removed rfl rfl) rfl rfl
  | timerRegister allocs clock callback timeo =>
      obtain ⟨monotonic, normalized, fresh⟩ := allowed
      simp only [perform] at result
      have registers := TimerOps.eventsTimerRegister_registers
        invariant.timers fresh (fun now isClock => (monotonic now isClock).1)
        normalized (eventsMkrec events.nextId callback)
      generalize eventsTimerRegister allocs clock events.timers _ timeo =
        returned at *
      cases registers with
      | failed kept _ same =>
          cases result
          exact ⟨⟨invariant.immediate, invariant.network, kept,
            (invariant.punctual.congr same).later monotonic.getD⟩,
            Performs.unchanged (held_congr rfl rfl same) (Nat.le_succ _) rfl⟩
      | @entered timers t reading tv kept _ isClock free timeout entered =>
          subst isClock
          cases result
          obtain ⟨readingNormalized, later⟩ := monotonic reading rfl
          have punctual := (invariant.punctual.later later).put
            (c := ⟨_, timeo, tv⟩) normalized
            (timeout.notLater readingNormalized) entered
          exact ⟨⟨invariant.immediate, invariant.network, kept, punctual⟩,
            Performs.registered (.timer t) rfl
              (held_timer entered rfl rfl rfl) rfl rfl⟩
  | timerCancel cookie =>
      obtain ⟨timers, called, kept, removed⟩ :=
        TimerOps.eventsTimerCancel_spec invariant.timers allowed
      obtain ⟨c, isContent⟩ := Option.ne_none_iff_exists'.mp allowed
      simp only [perform] at result
      rw [called, isContent] at result
      cases result
      exact ⟨⟨invariant.immediate, invariant.network, kept,
        invariant.punctual.remove removed⟩,
        Performs.cancelled (.timer cookie) (held_of_content isContent)
          (held_timer removed rfl rfl rfl) rfl rfl⟩
  | timerReset clock cookie =>
      obtain ⟨monotonic, isHeld, resetFits⟩ := allowed
      obtain ⟨c, isContent⟩ := Option.ne_none_iff_exists'.mp isHeld
      obtain ⟨failed, changes⟩ :=
        TimerOps.eventsTimerReset_spec invariant.timers isContent
      simp only [perform] at result
      cases clock with
      | none =>
          rw [failed] at result
          cases result
          exact ⟨invariant, Performs.unchanged rfl le_rfl rfl⟩
      | some reading =>
          obtain ⟨normalized, later⟩ := monotonic reading rfl
          have punctual := invariant.punctual.later later
          obtain ⟨timeoNormalized, bound⟩ := punctual cookie c isContent
          obtain ⟨notNegative, fits⟩ :=
            resetFits c reading isContent rfl
          obtain ⟨tv, timers, called, expires, kept, changed⟩ :=
            changes reading normalized timeoNormalized fits
              (bound notNegative)
          rw [called] at result
          cases result
          refine ⟨⟨invariant.immediate, invariant.network, kept,
            punctual.put (c := { c with expires := tv }) timeoNormalized
              (fun _ => expires.le) changed⟩,
            Performs.unchanged ?_ le_rfl rfl⟩
          have updated : held { events with timers } =
              Function.update (held events) (.timer cookie) (some c.r) :=
            held_timer changed rfl rfl rfl
          rw [updated]
          exact Function.update_eq_self_iff.mpr
            (held_of_content isContent).symm
  | interrupt =>
      cases result
      exact ⟨⟨invariant.immediate, invariant.network, invariant.timers,
        invariant.punctual⟩, Performs.interrupted⟩

end Libcperciva.Events.LoopOps
