import Libcperciva.Datastruct.TimerqueueModel

/-!
# The timer events of `events/events_timer.c`

A timer is a record with its event record, its duration and the cookie of its
pair in the timer queue; the queue maps absolute times to the addresses of
these records.  Event records are the values of a type `ε`.

Each reading of the clock is a parameter, `none` if it fails, and so are the
outcomes of the allocations.  A function that is given the address of a timer
which is not allocated has no result.
-/

namespace Libcperciva.Events.TimerModel

open Libcperciva.Util.Time
open Libcperciva.Datastruct.TimerqueueModel

variable {ε : Type*}

/-- `struct timerrec`. -/
structure Timer (ε : Type*) where
  r : ε
  cookie : Nat
  tvOrig : Timeval

/-- The queue, NULL until there is one, and the timers that are allocated. -/
structure Timers (ε : Type*) where
  Q : Option (Timerqueue Nat) := none
  timers : Nat → Option (Timer ε) := fun _ => none

/-- The outcomes of the allocations a call may make. -/
structure TimerAllocs where
  queue : QueueAllocs := {}
  atexit : Bool := true
  eventrec : Bool := true
  /-- The address of the new timer record. -/
  timerrec : Option Nat := some 0

/-- The current time plus `tdelta`; the seconds wrap around. -/
def gettimeout (clock : Option Timeval) (tdelta : Timeval) :
    Option Timeval :=
  match clock with
  | none => none
  | some tv =>
      let tv : Timeval := { tv with tvSec := tv.tvSec + tdelta.tvSec }
      let tv : Timeval := { tv with tvUsec := tv.tvUsec + tdelta.tvUsec }
      if tv.tvUsec ≥ 1000000 then some ⟨tv.tvSec + 1, tv.tvUsec - 1000000⟩
      else some tv

/-- Create the timer queue if it doesn't exist yet. -/
def getQueue (allocs : TimerAllocs) (timers : Timers ε) :
    Option (Timerqueue Nat) :=
  match timers.Q with
  | some Q => some Q
  | none =>
      match timerqueueInit allocs.queue with
      | none => none
      | some Q => if allocs.atexit then some Q else none

/-- The allocations of `events_timer_register` succeed. -/
def TimerAllocs.Succeed (allocs : TimerAllocs) (timers : Timers ε) : Prop :=
  (timers.Q = none → allocs.queue.timerqueue = true ∧
    allocs.queue.ptrheap = true ∧ allocs.queue.ptrlist = true ∧
    allocs.atexit = true) ∧
  allocs.eventrec = true ∧ allocs.timerrec ≠ none ∧
  allocs.queue.timerrec ≠ none ∧ allocs.queue.append = true

/-- `events_timer_register`, with the cookie for the new timer. -/
def eventsTimerRegister (allocs : TimerAllocs) (clock : Option Timeval)
    (timers : Timers ε) (event : ε) (timeo : Timeval) :
    Option Nat × Timers ε :=
  match getQueue allocs timers with
  | none => (none, timers)
  | some Q =>
      let timers := { timers with Q := some Q }
      if !allocs.eventrec then (none, timers)
      else
        match allocs.timerrec with
        | none => (none, timers)
        | some t =>
            match gettimeout clock timeo with
            | none => (none, timers)
            | some tv =>
                let (cookie, Q) := timerqueueAdd allocs.queue Q tv t
                let timers := { timers with Q := some Q }
                match cookie with
                | none => (none, timers)
                | some cookie =>
                    (some t, { timers with
                      timers := Function.update timers.timers t
                        (some ⟨event, cookie, timeo⟩) })

/-- `events_timer_cancel`. -/
def eventsTimerCancel (timers : Timers ε) (cookie : Nat) :
    Option (Timers ε) :=
  match timers.timers cookie, timers.Q with
  | some t, some Q =>
      (timerqueueDelete Q t.cookie).map fun Q =>
        ⟨some Q, Function.update timers.timers cookie none⟩
  | _, _ => none

/-- `events_timer_reset`, with its return status. -/
def eventsTimerReset (clock : Option Timeval) (timers : Timers ε)
    (cookie : Nat) : Option (Int × Timers ε) :=
  match timers.timers cookie, timers.Q with
  | some t, some Q =>
      match gettimeout clock t.tvOrig with
      | none => some (-1, timers)
      | some tv =>
          (timerqueueIncrease Q t.cookie tv).map fun Q =>
            (0, { timers with Q := some Q })
  | _, _ => none

/-- The time from `tnow` to `tv`, or zero if that has passed. -/
def timeLeft (tv tnow : Timeval) : Timeval :=
  if tnow.tvSec > tv.tvSec ∨
      tnow.tvSec = tv.tvSec ∧ tnow.tvUsec > tv.tvUsec then
    ⟨0, 0⟩
  else
    let timeo : Timeval := ⟨tv.tvSec - tnow.tvSec, tv.tvUsec - tnow.tvUsec⟩
    if tv.tvUsec < tnow.tvUsec then
      ⟨timeo.tvSec - 1, timeo.tvUsec + 1000000⟩
    else timeo

/-- `events_timer_min`, with its return status. -/
def eventsTimerMin (allocated : Bool) (clock : Option Timeval)
    (timers : Timers ε) : Option (Int × Option Timeval) :=
  match timers.Q with
  | none => some (0, none)
  | some Q =>
      match timerqueueGetmin Q with
      | none => none
      | some none => some (0, none)
      | some (some tv) =>
          if !allocated then some (-1, none)
          else
            match clock with
            | none => some (-1, none)
            | some tnow => some (0, some (timeLeft tv tnow))

/-- `events_timer_get`, with its return status. -/
def eventsTimerGet (clock : Option Timeval) (timers : Timers ε) :
    Option (Int × Option ε × Timers ε) :=
  match timers.Q with
  | none => some (0, none, timers)
  | some Q =>
      match clock with
      | none => some (-1, none, timers)
      | some tnow =>
          match timerqueueGetptr Q tnow with
          | none => none
          | some (none, Q) => some (0, none, { timers with Q := some Q })
          | some (some t, Q) =>
              match timers.timers t with
              | none => none
              | some timer =>
                  some (0, some timer.r,
                    ⟨some Q, Function.update timers.timers t none⟩)

end Libcperciva.Events.TimerModel
