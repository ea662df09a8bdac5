import Libcperciva.Datastruct.TimerqueueOps
import Libcperciva.Events.TimerModel

/-!
# What the timer functions do

The abstract content of the timers maps the cookie of each timer to its event
record, its duration and the time at which it expires.  Each function updates
this map at one cookie at most.
-/

namespace Libcperciva.Events.TimerOps

open Libcperciva.Util.Time
open Libcperciva.Datastruct.TimerqueueModel
open Libcperciva.Datastruct.TimerqueueOps
open Libcperciva.Events.TimerModel

variable {ε : Type*} {timers after : Timers ε}

/-! ## Arithmetic of times -/

/-- A time which is the sum of two times, if a timeval can hold that. -/
structure Timeout (now tdelta tv : Timeval) : Prop where
  normalized : tv.Normalized
  isSum : Representable (now.usecs + tdelta.usecs) →
    tv.usecs = now.usecs + tdelta.usecs

/-- A sum that is too large wraps to a time in the past. -/
theorem Timeout.notLater {now tdelta tv : Timeval}
    (timeout : Timeout now tdelta tv) (nowNormalized : now.Normalized)
    (notNegative : 0 ≤ tdelta.usecs) :
    tv.usecs ≤ now.usecs + tdelta.usecs := by
  by_cases fits : Representable (now.usecs + tdelta.usecs)
  · exact (timeout.isSum fits).le
  · have nowFits := nowNormalized.representable
    have fitsAfter := timeout.normalized.representable
    rw [representable_iff] at *
    omega

theorem million_toInt : (1000000 : Int64).toInt = 1000000 := rfl

/-- The carry of `gettimeout` keeps the time normalized. -/
theorem gettimeout_spec {now tdelta : Timeval}
    (nowNormalized : now.Normalized) (deltaNormalized : tdelta.Normalized) :
    ∃ tv, gettimeout (some now) tdelta = some tv ∧
      Timeout now tdelta tv := by
  have nowBounds := nowNormalized.bounds
  have deltaBounds := deltaNormalized.bounds
  have usec : (now.tvUsec + tdelta.tvUsec).toInt =
      now.tvUsec.toInt + tdelta.tvUsec.toInt := by
    apply toInt_add_of_fits <;> omega
  unfold gettimeout
  dsimp only
  split_ifs with carry
  · rw [ge_iff_le, Int64.le_iff_toInt_le, usec, million_toInt] at carry
    have usecCarried : (now.tvUsec + tdelta.tvUsec - 1000000).toInt =
        now.tvUsec.toInt + tdelta.tvUsec.toInt - 1000000 := by
      rw [toInt_sub_of_fits, usec, million_toInt] <;>
        rw [usec, million_toInt] <;> omega
    refine ⟨_, rfl, ?_, ?_⟩
    · rw [Timeval.normalized_iff, usecCarried]
      omega
    · intro fits
      rw [representable_iff] at fits
      unfold Timeval.usecs at *
      rw [usecCarried, toInt_add_carry] <;> omega
  · rw [ge_iff_le, Int64.le_iff_toInt_le, usec, million_toInt] at carry
    refine ⟨_, rfl, ?_, ?_⟩
    · rw [Timeval.normalized_iff, usec]
      omega
    · intro fits
      rw [representable_iff] at fits
      unfold Timeval.usecs at *
      rw [usec, toInt_add_of_fits] <;> omega

/-- The borrow of `events_timer_min` gives the time left, normalized. -/
theorem timeLeft_spec {tv tnow : Timeval} (tvNormalized : tv.Normalized)
    (nowNormalized : tnow.Normalized)
    (fits : Representable (max 0 (tv.usecs - tnow.usecs))) :
    (timeLeft tv tnow).Normalized ∧
      (timeLeft tv tnow).usecs = max 0 (tv.usecs - tnow.usecs) := by
  have tvBounds := tvNormalized.bounds
  have nowBounds := nowNormalized.bounds
  have usec : (tv.tvUsec - tnow.tvUsec).toInt =
      tv.tvUsec.toInt - tnow.tvUsec.toInt := by
    apply toInt_sub_of_fits <;> omega
  rw [representable_iff] at fits
  rw [Timeval.normalized_iff]
  unfold timeLeft Timeval.usecs at *
  simp only [gt_iff_lt, Int64.lt_iff_toInt_lt, ← Int64.toInt_inj]
  split_ifs with expired borrow
  · show (0 ≤ (0 : Int) ∧ (0 : Int) < 1000000) ∧ 0 * 1000000 + 0 = _
    omega
  · have usecBorrowed : (tv.tvUsec - tnow.tvUsec + 1000000).toInt =
        tv.tvUsec.toInt - tnow.tvUsec.toInt + 1000000 := by
      rw [toInt_add_of_fits, usec, million_toInt] <;>
        rw [usec, million_toInt] <;> omega
    have secBorrowed : (tv.tvSec - tnow.tvSec - 1).toInt =
        tv.tvSec.toInt - tnow.tvSec.toInt - 1 := by
      apply toInt_sub_borrow <;> omega
    dsimp only
    rw [usecBorrowed, secBorrowed]
    omega
  · have sec : (tv.tvSec - tnow.tvSec).toInt =
        tv.tvSec.toInt - tnow.tvSec.toInt := by
      apply toInt_sub_of_fits <;> omega
    dsimp only
    rw [usec, sec]
    omega

/-! ## The content of the timers -/

/-- A timer, with the time at which it expires. -/
structure Content (ε : Type*) where
  r : ε
  timeo : Timeval
  expires : Timeval

/-- The timer with a cookie. -/
def content (timers : Timers ε) (t : Nat) : Option (Content ε) :=
  match timers.timers t, timers.Q with
  | some timer, some Q =>
      (entry Q timer.cookie).map fun pair =>
        ⟨timer.r, timer.tvOrig, pair.1⟩
  | _, _ => none

/-- What holds of the timers and their queue between calls. -/
structure Invariant (timers : Timers ε) : Prop where
  queue : ∀ Q, timers.Q = some Q → QueueInvariant Q
  /-- Each timer has a pair in the queue, with a normalized time. -/
  stored : ∀ t timer, timers.timers t = some timer →
    ∃ Q tv, timers.Q = some Q ∧ entry Q timer.cookie = some (tv, t) ∧
      tv.Normalized
  /-- Each pair in the queue belongs to a timer. -/
  owned : ∀ Q cookie pair, timers.Q = some Q → entry Q cookie = some pair →
    ∃ timer, timers.timers pair.2 = some timer ∧ timer.cookie = cookie

theorem start_invariant : Invariant ({} : Timers ε) where
  queue _ noQueue := absurd noQueue (Option.some_ne_none _).symm
  stored _ _ noTimer := absurd noTimer (Option.some_ne_none _).symm
  owned _ _ _ noQueue := absurd noQueue (Option.some_ne_none _).symm

/-- What the content says about the records behind it. -/
theorem Invariant.content_some (invariant : Invariant timers) {t : Nat}
    {c : Content ε} (isContent : content timers t = some c) :
    ∃ Q timer, timers.Q = some Q ∧ timers.timers t = some timer ∧
      timer.r = c.r ∧ timer.tvOrig = c.timeo ∧
      entry Q timer.cookie = some (c.expires, t) ∧ c.expires.Normalized := by
  unfold content at isContent
  cases isTimer : timers.timers t with
  | none => simp [isTimer] at isContent
  | some timer =>
      obtain ⟨Q, tv, isQueue, isEntry, normalized⟩ :=
        invariant.stored t timer isTimer
      rw [isTimer, isQueue] at isContent
      dsimp only at isContent
      rw [isEntry] at isContent
      obtain rfl := Option.some.inj isContent
      exact ⟨Q, timer, isQueue, rfl, rfl, rfl, isEntry, normalized⟩

theorem Invariant.content_none (invariant : Invariant timers) {t : Nat} :
    content timers t = none ↔ timers.timers t = none := by
  constructor
  · intro noContent
    by_contra isTimer
    obtain ⟨timer, isTimer⟩ := Option.ne_none_iff_exists'.mp isTimer
    obtain ⟨Q, tv, isQueue, isEntry, _⟩ := invariant.stored t timer isTimer
    simp [content, isTimer, isQueue, isEntry] at noContent
  · intro noTimer
    simp [content, noTimer]

/-- The entries of the queue are the timers, at the times they expire. -/
theorem Invariant.entry_content (invariant : Invariant timers)
    {Q : Timerqueue Nat} (isQueue : timers.Q = some Q) {cookie : Nat}
    {pair : Timeval × Nat} (isEntry : entry Q cookie = some pair) :
    ∃ timer c, timers.timers pair.2 = some timer ∧ timer.cookie = cookie ∧
      content timers pair.2 = some c ∧ c.r = timer.r ∧
      c.expires = pair.1 := by
  obtain ⟨timer, isTimer, isCookie⟩ :=
    invariant.owned Q cookie pair isQueue isEntry
  refine ⟨timer, ⟨timer.r, timer.tvOrig, pair.1⟩, isTimer, isCookie,
    ?_, rfl, rfl⟩
  simp [content, isTimer, isQueue, isCookie, isEntry]

theorem Invariant.entry_normalized (invariant : Invariant timers)
    {Q : Timerqueue Nat} (isQueue : timers.Q = some Q) {cookie : Nat}
    {pair : Timeval × Nat} (isEntry : entry Q cookie = some pair) :
    pair.1.Normalized := by
  obtain ⟨_, c, _, _, isContent, _, expires⟩ :=
    invariant.entry_content isQueue isEntry
  obtain ⟨_, _, _, _, _, _, _, normalized⟩ :=
    invariant.content_some isContent
  exact expires ▸ normalized

/-- Timers and their pairs belong to each other. -/
theorem Invariant.cookie_inj (invariant : Invariant timers) {t u : Nat}
    {timer other : Timer ε} (isTimer : timers.timers t = some timer)
    (isOther : timers.timers u = some other)
    (same : timer.cookie = other.cookie) : t = u := by
  obtain ⟨Q, tv, isQueue, isEntry, _⟩ := invariant.stored t timer isTimer
  obtain ⟨Q', tv', isQueue', isEntry', _⟩ :=
    invariant.stored u other isOther
  obtain rfl := Option.some.inj (isQueue.symm.trans isQueue')
  rw [same, isEntry'] at isEntry
  exact (congrArg Prod.snd (Option.some.inj isEntry)).symm

/-! ## Updating one timer -/

section Update

variable {Q Q' : Timerqueue Nat} {t cookie : Nat}

/--
A timer is entered or changed together with its pair, while the other timers
keep theirs.
-/
theorem Invariant.put (invariant : Invariant timers)
    (isQueue : timers.Q = some Q) (queue : QueueInvariant Q')
    {timer : Timer ε} {tv : Timeval} (normalized : tv.Normalized)
    (entries : entry Q' =
      Function.update (entry Q) timer.cookie (some (tv, t)))
    (others : ∀ u other, timers.timers u = some other →
      other.cookie = timer.cookie → u = t)
    (own : ∀ old, timers.timers t = some old → old.cookie = timer.cookie) :
    let after : Timers ε :=
      ⟨some Q', Function.update timers.timers t (some timer)⟩
    Invariant after ∧ content after = Function.update (content timers) t
      (some ⟨timer.r, timer.tvOrig, tv⟩) := by
  intro after
  have timerHere : after.timers t = some timer := Function.update_self _ _ _
  have timerOther : ∀ u, u ≠ t → after.timers u = timers.timers u :=
    fun u different => Function.update_of_ne different _ _
  have entryHere : entry Q' timer.cookie = some (tv, t) := by
    rw [entries, Function.update_self]
  have entryOther : ∀ c, c ≠ timer.cookie → entry Q' c = entry Q c := by
    intro c different
    rw [entries, Function.update_of_ne different]
  refine ⟨⟨?_, ?_, ?_⟩, ?_⟩
  · intro R isR
    obtain rfl := Option.some.inj isR
    exact queue
  · intro u other isOther
    by_cases here : u = t
    · subst here
      rw [timerHere] at isOther
      obtain rfl := Option.some.inj isOther
      exact ⟨Q', tv, rfl, entryHere, normalized⟩
    · rw [timerOther u here] at isOther
      obtain ⟨R, tv', isR, isEntry, normalized'⟩ :=
        invariant.stored u other isOther
      obtain rfl := Option.some.inj (isQueue.symm.trans isR)
      refine ⟨Q', tv', rfl, ?_, normalized'⟩
      rw [entryOther _ fun same => here (others u other isOther same)]
      exact isEntry
  · intro R c pair isR isEntry
    obtain rfl := Option.some.inj isR
    by_cases here : c = timer.cookie
    · subst here
      rw [entryHere] at isEntry
      obtain rfl := Option.some.inj isEntry
      exact ⟨timer, timerHere, rfl⟩
    · rw [entryOther c here] at isEntry
      obtain ⟨other, isOther, isCookie⟩ :=
        invariant.owned Q c pair isQueue isEntry
      have different : pair.2 ≠ t := by
        intro same
        rw [same] at isOther
        exact here (isCookie.symm.trans (own other isOther))
      exact ⟨other, (timerOther _ different).trans isOther, isCookie⟩
  · funext u
    unfold content
    by_cases here : u = t
    · subst here
      rw [timerHere, Function.update_self]
      simp [after, entryHere]
    · rw [timerOther u here, Function.update_of_ne here, isQueue]
      cases isOther : timers.timers u with
      | none => rfl
      | some other =>
          simp only [after]
          rw [entryOther _ fun same => here (others u other isOther same)]

/-- A new timer is entered with its pair. -/
theorem Invariant.enter (invariant : Invariant timers)
    (isQueue : timers.Q = some Q) (queue : QueueInvariant Q')
    {timer : Timer ε} {tv : Timeval} (normalized : tv.Normalized)
    (free : timers.timers t = none) (noPair : entry Q timer.cookie = none)
    (entries : entry Q' =
      Function.update (entry Q) timer.cookie (some (tv, t))) :
    let after : Timers ε :=
      ⟨some Q', Function.update timers.timers t (some timer)⟩
    Invariant after ∧ content after = Function.update (content timers) t
      (some ⟨timer.r, timer.tvOrig, tv⟩) := by
  apply invariant.put isQueue queue normalized entries
  · intro u other isOther same
    obtain ⟨R, tv', isR, isEntry, _⟩ := invariant.stored u other isOther
    obtain rfl := Option.some.inj (isQueue.symm.trans isR)
    rw [same, noPair] at isEntry
    exact absurd isEntry (Option.some_ne_none _).symm
  · intro old isOld
    rw [free] at isOld
    exact absurd isOld (Option.some_ne_none old).symm

/-- A timer and its pair are removed. -/
theorem Invariant.remove (invariant : Invariant timers)
    (isQueue : timers.Q = some Q) (queue : QueueInvariant Q')
    {timer : Timer ε} (isTimer : timers.timers t = some timer)
    (entries : entry Q' = Function.update (entry Q) timer.cookie none) :
    let after : Timers ε := ⟨some Q', Function.update timers.timers t none⟩
    Invariant after ∧
      content after = Function.update (content timers) t none := by
  intro after
  have timerHere : after.timers t = none := Function.update_self _ _ _
  have timerOther : ∀ u, u ≠ t → after.timers u = timers.timers u :=
    fun u different => Function.update_of_ne different _ _
  have entryOther : ∀ u other, u ≠ t → timers.timers u = some other →
      entry Q' other.cookie = entry Q other.cookie := by
    intro u other different isOther
    rw [entries, Function.update_of_ne]
    intro same
    exact different (invariant.cookie_inj isOther isTimer same)
  refine ⟨⟨?_, ?_, ?_⟩, ?_⟩
  · intro R isR
    obtain rfl := Option.some.inj isR
    exact queue
  · intro u other isOther
    have different : u ≠ t := by
      rintro rfl
      rw [timerHere] at isOther
      exact absurd isOther (Option.some_ne_none other).symm
    rw [timerOther u different] at isOther
    obtain ⟨R, tv, isR, isEntry, normalized⟩ :=
      invariant.stored u other isOther
    obtain rfl := Option.some.inj (isQueue.symm.trans isR)
    exact ⟨Q', tv, rfl,
      (entryOther u other different isOther).trans isEntry, normalized⟩
  · intro R c pair isR isEntry
    obtain rfl := Option.some.inj isR
    rw [entries] at isEntry
    by_cases here : c = timer.cookie
    · subst here
      rw [Function.update_self] at isEntry
      exact absurd isEntry (Option.some_ne_none pair).symm
    · rw [Function.update_of_ne here] at isEntry
      obtain ⟨other, isOther, isCookie⟩ :=
        invariant.owned Q c pair isQueue isEntry
      have different : pair.2 ≠ t := by
        intro same
        rw [same, isTimer] at isOther
        obtain rfl := Option.some.inj isOther
        exact here isCookie.symm
      exact ⟨other, (timerOther _ different).trans isOther, isCookie⟩
  · funext u
    unfold content
    by_cases here : u = t
    · subst here
      rw [timerHere, Function.update_self]
    · rw [timerOther u here, Function.update_of_ne here, isQueue]
      cases isOther : timers.timers u with
      | none => rfl
      | some other =>
          simp only [after]
          rw [entryOther u other here isOther]

end Update

/-! ## `events_timer_register` -/

/-- A queue that is created on demand is empty. -/
theorem getQueue_spec (invariant : Invariant timers) {allocs : TimerAllocs}
    {Q : Timerqueue Nat} (isQueue : getQueue allocs timers = some Q) :
    Invariant { timers with Q := some Q } ∧
      content { timers with Q := some Q } = content timers ∧
      (timers.Q = some Q ∨ ∀ cookie, entry Q cookie = none) := by
  unfold getQueue at isQueue
  cases before : timers.Q with
  | some old =>
      rw [before] at isQueue
      obtain rfl := Option.some.inj isQueue
      have same : { timers with Q := some old } = timers := by
        rw [← before]
      rw [same]
      exact ⟨invariant, rfl, Or.inl rfl⟩
  | none =>
      rw [before] at isQueue
      dsimp only at isQueue
      cases created : timerqueueInit (τ := Nat) allocs.queue with
      | none => simp [created] at isQueue
      | some new =>
          rw [created] at isQueue
          dsimp only at isQueue
          split_ifs at isQueue
          obtain rfl := Option.some.inj isQueue
          obtain ⟨queue, empty⟩ := timerqueueInit_empty created
          have noTimer : ∀ t, timers.timers t = none := by
            intro t
            by_contra isTimer
            obtain ⟨timer, isTimer⟩ := Option.ne_none_iff_exists'.mp isTimer
            obtain ⟨Q, _, isQueue, _⟩ := invariant.stored t timer isTimer
            rw [before] at isQueue
            exact absurd isQueue (Option.some_ne_none Q).symm
          refine ⟨⟨?_, ?_, ?_⟩, ?_, Or.inr empty⟩
          · intro R isR
            obtain rfl := Option.some.inj isR
            exact queue
          · intro t timer isTimer
            exact absurd ((noTimer t).symm.trans isTimer)
              (Option.some_ne_none timer).symm
          · intro R cookie pair isR isEntry
            obtain rfl := Option.some.inj isR
            rw [empty] at isEntry
            exact absurd isEntry (Option.some_ne_none pair).symm
          · funext t
            simp [content, noTimer]

/-- Only a failed allocation leaves no queue. -/
theorem getQueue_eq_none {allocs : TimerAllocs} :
    getQueue allocs timers = none ↔
      ¬(timers.Q = none → allocs.queue.timerqueue = true ∧
        allocs.queue.ptrheap = true ∧ allocs.queue.ptrlist = true ∧
        allocs.atexit = true) := by
  unfold getQueue
  cases timers.Q with
  | some Q => simp
  | none =>
      cases created : timerqueueInit (τ := Nat) allocs.queue with
      | none =>
          have failed := timerqueueInit_eq_none.mp created
          simp only [true_iff, forall_const]
          intro succeed
          exact failed ⟨succeed.1, succeed.2.1, succeed.2.2.1⟩
      | some Q =>
          have succeed := mt timerqueueInit_eq_none.mpr
            (created ▸ Option.some_ne_none Q)
          rw [not_not] at succeed
          obtain ⟨timerqueue, ptrheap, ptrlist⟩ := succeed
          simp [timerqueue, ptrheap, ptrlist]

/-- `malloc` does not return the address of a record that is allocated. -/
structure Fresh (allocs : TimerAllocs) (timers : Timers ε) : Prop where
  timer : ∀ t, allocs.timerrec = some t → timers.timers t = none
  pair : ∀ Q r, timers.Q = some Q → allocs.queue.timerrec = some r →
    Q.recs r = none

/--
How `events_timer_register` ends.  It fails only if an allocation fails or
the clock cannot be read.
-/
inductive RegistersTimer (allocs : TimerAllocs) (clock : Option Timeval)
    (timers : Timers ε) (event : ε) (timeo : Timeval) :
    Option Nat × Timers ε → Prop where
  | failed {after : Timers ε} (invariant : Invariant after)
      (cause : ¬allocs.Succeed timers ∨ clock = none)
      (same : content after = content timers) :
      RegistersTimer allocs clock timers event timeo (none, after)
  | entered {after : Timers ε} {t : Nat} {now tv : Timeval}
      (invariant : Invariant after) (succeed : allocs.Succeed timers)
      (isClock : clock = some now) (free : content timers t = none)
      (timeout : Timeout now timeo tv)
      (entered : content after =
        Function.update (content timers) t (some ⟨event, timeo, tv⟩)) :
      RegistersTimer allocs clock timers event timeo (some t, after)

/-- `events_timer_register` enters a timer, or changes no timer. -/
theorem eventsTimerRegister_registers (invariant : Invariant timers)
    {allocs : TimerAllocs} (fresh : Fresh allocs timers)
    {clock : Option Timeval} {timeo : Timeval}
    (clockNormalized : ∀ now, clock = some now → now.Normalized)
    (timeoNormalized : timeo.Normalized) (event : ε) :
    RegistersTimer allocs clock timers event timeo
      (eventsTimerRegister allocs clock timers event timeo) := by
  unfold eventsTimerRegister
  cases isQueue : getQueue allocs timers with
  | none =>
      have failed := getQueue_eq_none.mp isQueue
      exact RegistersTimer.failed invariant
        (Or.inl fun succeed => failed succeed.1) rfl
  | some Q =>
      obtain ⟨started, sameContent, isNew⟩ := getQueue_spec invariant isQueue
      have refused (cause : ¬allocs.Succeed timers ∨ clock = none) :
          RegistersTimer allocs clock timers event timeo
            (none, { timers with Q := some Q }) :=
        RegistersTimer.failed started cause sameContent
      dsimp only
      split_ifs with noEvent
      · apply refused
        left
        rintro ⟨_, eventrec, _⟩
        simp [eventrec] at noEvent
      cases isTimer : allocs.timerrec with
      | none => exact refused (Or.inl fun succeed => succeed.2.2.1 isTimer)
      | some t =>
          cases clock with
          | none => exact refused (Or.inr rfl)
          | some now =>
              obtain ⟨tv, isTv, timeout⟩ :=
                gettimeout_spec (clockNormalized now rfl) timeoNormalized
              have queue := started.queue Q rfl
              have pairFresh : ∀ r, allocs.queue.timerrec = some r →
                  Q.recs r = none := by
                intro r isRec
                rcases isNew with old | empty
                · exact fresh.pair Q r old isRec
                · exact entry_eq_none.mp (empty r)
              rw [isTv]
              dsimp only
              rcases timerqueueAdd_spec queue pairFresh tv t with
                ⟨result, failed⟩ |
                ⟨r, Q', result, isRec, append, queue', entries⟩
              · rw [result]
                exact refused (Or.inl fun succeed => failed succeed.2.2.2)
              · rw [result]
                have succeed : allocs.Succeed timers := by
                  refine ⟨?_, by simpa using noEvent, ?_, ?_, append⟩
                  · by_contra failed
                    rw [← getQueue_eq_none, isQueue] at failed
                    exact absurd failed (Option.some_ne_none Q)
                  · exact isTimer ▸ Option.some_ne_none t
                  · exact isRec ▸ Option.some_ne_none r
                have timerFree := fresh.timer t isTimer
                let timer : Timer ε := ⟨event, r, timeo⟩
                have noPair : entry Q timer.cookie = none :=
                  entry_eq_none.mpr (pairFresh r isRec)
                obtain ⟨entered, contentEq⟩ := started.enter rfl queue'
                  timeout.normalized timerFree noPair entries
                rw [sameContent] at contentEq
                exact RegistersTimer.entered entered succeed rfl
                  (invariant.content_none.mpr timerFree) timeout contentEq

/-! ## The other functions -/

/-- `events_timer_cancel` removes a timer. -/
theorem eventsTimerCancel_spec (invariant : Invariant timers) {t : Nat}
    (held : content timers t ≠ none) :
    ∃ after, eventsTimerCancel timers t = some after ∧ Invariant after ∧
      content after = Function.update (content timers) t none := by
  obtain ⟨c, isContent⟩ := Option.ne_none_iff_exists'.mp held
  obtain ⟨Q, timer, isQueue, isTimer, _, _, isEntry, _⟩ :=
    invariant.content_some isContent
  have entryHeld : entry Q timer.cookie ≠ none := by
    rw [isEntry]
    exact Option.some_ne_none _
  obtain ⟨Q', result, queue', entries⟩ :=
    timerqueueDelete_spec (invariant.queue Q isQueue) entryHeld
  obtain ⟨removed, contentEq⟩ :=
    invariant.remove isQueue queue' isTimer entries
  refine ⟨_, ?_, removed, contentEq⟩
  unfold eventsTimerCancel
  rw [isTimer, isQueue]
  dsimp only
  rw [result]
  rfl

/--
`events_timer_reset` sets back a timer whose new time is not earlier, unless
it cannot read the clock.
-/
theorem eventsTimerReset_spec (invariant : Invariant timers) {t : Nat}
    {c : Content ε} (isContent : content timers t = some c) :
    eventsTimerReset none timers t = some (-1, timers) ∧
    ∀ now : Timeval, now.Normalized → c.timeo.Normalized →
      Representable (now.usecs + c.timeo.usecs) →
      c.expires.usecs ≤ now.usecs + c.timeo.usecs →
      ∃ tv after, eventsTimerReset (some now) timers t = some (0, after) ∧
        tv.usecs = now.usecs + c.timeo.usecs ∧ Invariant after ∧
        content after = Function.update (content timers) t
          (some { c with expires := tv }) := by
  obtain ⟨Q, timer, isQueue, isTimer, isEvent, isTimeo, isEntry,
    expiresNormalized⟩ := invariant.content_some isContent
  constructor
  · unfold eventsTimerReset
    rw [isTimer, isQueue]
    rfl
  · intro now nowNormalized timeoNormalized fits notEarlier
    obtain ⟨tv, isTv, normalized, isSum⟩ :=
      gettimeout_spec nowNormalized timeoNormalized
    have expires := isSum fits
    have increases : tvcmp c.expires tv ≤ 0 := by
      rw [tvcmp_le_iff_usecs expiresNormalized normalized, expires]
      exact notEarlier
    obtain ⟨Q', result, queue', entries⟩ :=
      timerqueueIncrease_spec (invariant.queue Q isQueue) isEntry increases
    obtain ⟨changed, contentEq⟩ := invariant.put isQueue queue' normalized
      entries
      (fun u other isOther same => invariant.cookie_inj isOther isTimer same)
      (fun old isOld => by
        rw [isTimer] at isOld
        rw [Option.some.inj isOld])
    rw [isEvent, isTimeo] at contentEq
    have sameTimers :
        Function.update timers.timers t (some timer) = timers.timers :=
      Function.update_eq_self_iff.mpr isTimer.symm
    rw [sameTimers] at changed contentEq
    refine ⟨tv, _, ?_, expires, changed, contentEq⟩
    unfold eventsTimerReset
    rw [isTimer, isQueue]
    dsimp only
    rw [isTimeo, isTv]
    dsimp only
    rw [result]
    rfl

/-- Only the clock makes `events_timer_reset` fail. -/
theorem eventsTimerReset_status (invariant : Invariant timers) {t : Nat}
    (held : content timers t ≠ none) (clock : Option Timeval) :
    ∃ after, eventsTimerReset clock timers t =
      some (if clock = none then -1 else 0, after) := by
  obtain ⟨c, isContent⟩ := Option.ne_none_iff_exists'.mp held
  obtain ⟨Q, timer, isQueue, isTimer, _, _, isEntry, _⟩ :=
    invariant.content_some isContent
  have entryHeld : entry Q timer.cookie ≠ none :=
    isEntry ▸ Option.some_ne_none _
  unfold eventsTimerReset
  rw [isTimer, isQueue]
  cases clock with
  | none => exact ⟨timers, rfl⟩
  | some now =>
      obtain ⟨tv, isTv⟩ : ∃ tv, gettimeout (some now) timer.tvOrig = some tv := by
        unfold gettimeout
        dsimp only
        split_ifs
        · exact ⟨_, rfl⟩
        · exact ⟨_, rfl⟩
      obtain ⟨Q', increased⟩ := timerqueueIncrease_total entryHeld tv
      refine ⟨{ timers with Q := some Q' }, ?_⟩
      dsimp only
      rw [isTv]
      dsimp only
      rw [increased]
      rfl

/-- A timer that expires first. -/
structure Earliest (timers : Timers ε) (t : Nat) (c : Content ε) :
    Prop where
  isContent : content timers t = some c
  earliest : ∀ u other, content timers u = some other →
    c.expires.usecs ≤ other.expires.usecs

theorem Invariant.earliest (invariant : Invariant timers)
    {Q : Timerqueue Nat} (isQueue : timers.Q = some Q) {cookie t : Nat}
    {tv : Timeval} (least : Least Q cookie tv t) :
    ∃ c, Earliest timers t c ∧ c.expires = tv ∧ tv.Normalized := by
  have normalized := invariant.entry_normalized isQueue least.held
  obtain ⟨_, c, _, _, isContent, _, expires⟩ :=
    invariant.entry_content isQueue least.held
  obtain rfl : c.expires = tv := expires
  refine ⟨c, ⟨isContent, ?_⟩, rfl, normalized⟩
  intro u other isOther
  obtain ⟨Q', timer, isQueue', _, _, _, isEntry, normalized'⟩ :=
    invariant.content_some isOther
  obtain rfl := Option.some.inj (isQueue.symm.trans isQueue')
  apply (tvcmp_le_iff_usecs normalized normalized').mp
  exact least.least _ (other.expires, u) isEntry

theorem Invariant.noContent (invariant : Invariant timers)
    (empty : ∀ Q, timers.Q = some Q → ∀ cookie, entry Q cookie = none) :
    ∀ t, content timers t = none := by
  intro t
  by_contra held
  obtain ⟨c, isContent⟩ := Option.ne_none_iff_exists'.mp held
  obtain ⟨Q, timer, isQueue, _, _, _, isEntry, _⟩ :=
    invariant.content_some isContent
  rw [empty Q isQueue] at isEntry
  exact absurd isEntry (Option.some_ne_none _).symm

/-- `events_timer_min` returns the time left to a timer that expires first. -/
theorem eventsTimerMin_spec (invariant : Invariant timers) {now : Timeval}
    (nowNormalized : now.Normalized)
    (fits : ∀ t c, content timers t = some c →
      Representable (max 0 (c.expires.usecs - now.usecs))) :
    (eventsTimerMin true (some now) timers = some (0, none) ∧
        ∀ t, content timers t = none) ∨
      ∃ t c tv, eventsTimerMin true (some now) timers = some (0, some tv) ∧
        Earliest timers t c ∧ tv.Normalized ∧
        tv.usecs = max 0 (c.expires.usecs - now.usecs) := by
  unfold eventsTimerMin
  cases isQueue : timers.Q with
  | none =>
      refine Or.inl ⟨rfl, invariant.noContent ?_⟩
      intro Q isQueue'
      exact absurd (isQueue.symm.trans isQueue')
        (Option.some_ne_none Q).symm
  | some Q =>
      dsimp only
      rcases timerqueueGetmin_spec (invariant.queue Q isQueue) with
        ⟨result, empty⟩ | ⟨cookie, tv, t, result, least⟩
      · rw [result]
        refine Or.inl ⟨rfl, invariant.noContent ?_⟩
        intro Q' isQueue'
        obtain rfl := Option.some.inj (isQueue.symm.trans isQueue')
        exact empty
      · rw [result]
        obtain ⟨c, earliest, rfl, normalized⟩ :=
          invariant.earliest isQueue least
        obtain ⟨leftNormalized, left⟩ :=
          timeLeft_spec normalized nowNormalized
            (fits t c earliest.isContent)
        exact Or.inr ⟨t, c, _, rfl, earliest, leftNormalized, left⟩

theorem eventsTimerMin_total (invariant : Invariant timers)
    (allocated : Bool) (clock : Option Timeval) :
    ∃ result, eventsTimerMin allocated clock timers = some result := by
  unfold eventsTimerMin
  cases isQueue : timers.Q with
  | none => exact ⟨_, rfl⟩
  | some Q =>
      dsimp only
      rcases timerqueueGetmin_spec (invariant.queue Q isQueue) with
        ⟨result, _⟩ | ⟨cookie, tv, t, result, _⟩
      · rw [result]
        exact ⟨_, rfl⟩
      · rw [result]
        cases allocated
        · exact ⟨_, rfl⟩
        · cases clock <;> exact ⟨_, rfl⟩

theorem eventsTimerGet_noClock (timers : Timers ε) :
    ∃ status, eventsTimerGet none timers = some (status, none, timers) := by
  unfold eventsTimerGet
  cases timers.Q with
  | none => exact ⟨0, rfl⟩
  | some Q => exact ⟨-1, rfl⟩

/-- `events_timer_get` takes a timer that expires first, if it has expired. -/
theorem eventsTimerGet_spec (invariant : Invariant timers) {now : Timeval}
    (nowNormalized : now.Normalized) :
    (eventsTimerGet (some now) timers = some (0, none, timers) ∧
        ∀ t c, content timers t = some c → now.usecs < c.expires.usecs) ∨
      ∃ t c after, eventsTimerGet (some now) timers =
          some (0, some c.r, after) ∧
        Earliest timers t c ∧ c.expires.usecs ≤ now.usecs ∧
        Invariant after ∧
        content after = Function.update (content timers) t none := by
  unfold eventsTimerGet
  cases isQueue : timers.Q with
  | none =>
      refine Or.inl ⟨rfl, ?_⟩
      intro t c isContent
      obtain ⟨Q, _, isQueue', _⟩ := invariant.content_some isContent
      exact absurd (isQueue.symm.trans isQueue')
        (Option.some_ne_none Q).symm
  | some Q =>
      dsimp only
      rcases timerqueueGetptr_spec (invariant.queue Q isQueue) now with
        ⟨result, later⟩ | ⟨cookie, due, t, Q', result, least, isDue,
          queue', entries⟩
      · rw [result]
        dsimp only
        rw [← isQueue]
        refine Or.inl ⟨rfl, ?_⟩
        intro t c isContent
        obtain ⟨Q', timer, isQueue', _, _, _, isEntry, normalized⟩ :=
          invariant.content_some isContent
        obtain rfl := Option.some.inj (isQueue.symm.trans isQueue')
        by_contra notLater
        rw [not_lt, ← tvcmp_le_iff_usecs normalized nowNormalized]
          at notLater
        exact absurd (later _ _ isEntry) (not_lt.mpr notLater)
      · rw [result]
        dsimp only
        obtain ⟨timer, c, isTimer, isCookie, isContent, isEvent, _⟩ :=
          invariant.entry_content isQueue least.held
        obtain ⟨c', earliest, rfl, normalized⟩ :=
          invariant.earliest isQueue least
        obtain rfl := Option.some.inj (isContent.symm.trans
          earliest.isContent)
        rw [← isCookie] at entries
        obtain ⟨removed, contentEq⟩ :=
          invariant.remove isQueue queue' isTimer entries
        rw [tvcmp_le_iff_usecs normalized nowNormalized] at isDue
        have isTimer' : timers.timers t = some timer := isTimer
        rw [isTimer']
        exact Or.inr ⟨t, c, _, by rw [isEvent], earliest, isDue, removed,
          contentEq⟩

end Libcperciva.Events.TimerOps
