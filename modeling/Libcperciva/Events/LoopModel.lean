import Libcperciva.Events.ImmediateOps
import Libcperciva.Events.NetworkScan
import Libcperciva.Events.TimerRuns

/-!
# The event loop of `events/events.c`

The loop is a machine.  Its control says which call `events_run_internal` is
about to make; a step makes this call, with the answers of the allocator, the
clock and `poll`.  While a callback runs, and outside of `events_run`, the
application acts: it registers and cancels events of any kind.  A signal
handler may call `events_interrupt` between any two steps.

The history lists what has happened, the latest item first.
-/

namespace Libcperciva.Events.LoopModel

open Libcperciva.Util.Time
open Libcperciva.Events.EventrecModel
open Libcperciva.Events.ImmediateModel
open Libcperciva.Events.ImmediateOps (immediate)
open Libcperciva.Events.NetworkModel
open Libcperciva.Events.NetworkInvariant (registered)
open Libcperciva.Events.TimerModel
open Libcperciva.Events.TimerOps (content)

variable {κ : Type*}

/-! ## The events and the history -/

/-- The static variables of the files under `events/`. -/
structure EventState (κ : Type*) where
  immediate : Immediate (Eventrec κ) := {}
  network : Network (Eventrec κ) := {}
  timers : Timers (Eventrec κ) := {}
  interruptRequested : Bool := false
  /-- The number of the next event record. -/
  nextId : Nat := 0

/-- The kinds of events. -/
inductive Source where
  | immediate
  | network
  | timer
deriving DecidableEq

/-- What can happen. -/
inductive Item (κ : Type*) where
  | register (source : Source) (event : Eventrec κ)
  | cancel (event : Eventrec κ)
  | interrupt
  /-- `events_run` is called. -/
  | run
  /-- `poll` reports these registered pairs to be ready. -/
  | poll (ready : Nat → NetworkOp → Bool)
  /-- A callback is invoked while these immediate events are pending. -/
  | invoke (source : Source) (event : Eventrec κ)
      (pending : Immediate (Eventrec κ))
  | callbackReturn (rc : Int)
  | runReturn (rc : Int)

/-! ## What the application does -/

/-- A call of the application, with the outcomes of what it calls. -/
inductive Action (κ : Type*) where
  | immediateRegister (allocs : ImmediateAllocs) (callback : κ) (prio : Int)
  | immediateCancel (cookie : Nat)
  | networkRegister (allocs : Allocs) (callback : κ) (s op : Int)
  | networkCancel (allocs : Allocs) (s op : Int)
  | timerRegister (allocs : TimerAllocs) (clock : Option Timeval)
      (callback : κ) (timeo : Timeval)
  | timerCancel (cookie : Nat)
  | timerReset (clock : Option Timeval) (cookie : Nat)
  | interrupt

/-- The reading of the clock, if there is one. -/
def Action.clock : Action κ → Option Timeval
  | .timerRegister _ clock _ _ => clock
  | .timerReset clock _ => clock
  | _ => none

/-- A call of the application, and what it adds to the history. -/
def perform (events : EventState κ) :
    Action κ → Option (EventState κ × List (Item κ))
  | .immediateRegister allocs callback prio =>
      let event := eventsMkrec events.nextId callback
      (eventsImmediateRegister allocs events.immediate event prio).map
        fun (cookie, immediate) =>
          ({ events with immediate, nextId := events.nextId + 1 },
            (cookie.map fun _ => Item.register .immediate event).toList)
  | .immediateCancel cookie =>
      (eventsImmediateCancel events.immediate cookie).map fun queue =>
        ({ events with immediate := queue },
          ((immediate events.immediate cookie).map Item.cancel).toList)
  | .networkRegister allocs callback s op =>
      let event := eventsMkrec events.nextId callback
      (eventsNetworkRegister allocs events.network event s op).map
        fun (status, network) =>
          ({ events with network, nextId := events.nextId + 1 },
            if status = 0 then [.register .network event] else [])
  | .networkCancel allocs s op =>
      let (status, network) := eventsNetworkCancel allocs events.network s op
      let event := (networkOp op).bind (registered events.network s.toNat)
      some ({ events with network },
        if status = 0 then (event.map Item.cancel).toList else [])
  | .timerRegister allocs clock callback timeo =>
      let event := eventsMkrec events.nextId callback
      let (cookie, timers) :=
        eventsTimerRegister allocs clock events.timers event timeo
      some ({ events with timers, nextId := events.nextId + 1 },
        (cookie.map fun _ => Item.register .timer event).toList)
  | .timerCancel cookie =>
      (eventsTimerCancel events.timers cookie).map fun timers =>
        ({ events with timers },
          ((content events.timers cookie).map fun timer =>
            Item.cancel timer.r).toList)
  | .timerReset clock cookie =>
      (eventsTimerReset clock events.timers cookie).map fun (_, timers) =>
        ({ events with timers }, [])
  | .interrupt =>
      some ({ events with interruptRequested := true }, [.interrupt])

/-! ## The loop -/

/--
What comes next.  The flag of a callback says whether it was invoked by the
loop at the start of `events_run_internal`, which runs immediate events only.
-/
inductive Control where
  | idle
  | start
  | timerMin
  | select (tv : Option Timeval)
  | loop
  | networkGet
  | selectAgain
  | networkGetAgain
  | timerGet
  | callback (atStart : Bool)
  | returned (atStart : Bool) (rc : Int)
deriving DecidableEq

/-- The loop, with its history and the latest reading of the clock. -/
structure Loop (κ : Type*) where
  events : EventState κ
  control : Control
  now : Timeval
  history : List (Item κ)

/-- The answers to the calls of a step. -/
structure Answers where
  /-- `events_timer_min` can allocate a timeval. -/
  allocated : Bool := true
  clock : Option Timeval := none
  allocs : Allocs := {}
  poll : List Pollfd → Int → PollResult

/-- What a step depends on. -/
inductive Input (κ : Type*) where
  /-- A signal handler calls `events_interrupt`. -/
  | signal
  /-- The application calls `events_run`. -/
  | run
  | act (action : Action κ)
  | returns (rc : Int)
  | answer (answers : Answers)

/-- The reading of the clock, if there is one. -/
def Input.clock : Input κ → Option Timeval
  | .act action => action.clock
  | .answer answers => answers.clock
  | _ => none

/-- `events_run` returns, and resets `interrupt_requested`. -/
def finish (m : Loop κ) (rc : Int) : Loop κ :=
  { m with
    events := { m.events with interruptRequested := false }
    control := .idle
    history := .runReturn rc :: m.history }

/-- `doevent`, up to the call of the callback. -/
def invoke (m : Loop κ) (atStart : Bool) (source : Source)
    (event : Eventrec κ) : Loop κ :=
  { m with
    control := .callback atStart
    history := .invoke source event m.events.immediate :: m.history }

/-- Run an immediate event if there is one, and go on otherwise. -/
def runImmediate (m : Loop κ) (atStart : Bool) (goOn : Loop κ → Loop κ) :
    Option (Loop κ) :=
  match eventsImmediateGet m.events.immediate with
  | none => none
  | some (r, immediate) =>
      let m := { m with events := { m.events with immediate } }
      match r with
      | none => some (goOn m)
      | some r => some (invoke m atStart .immediate r)

/-- Run a network event if there is one, and go on otherwise. -/
def runNetwork (m : Loop κ) (goOn : Control) : Option (Loop κ) :=
  match eventsNetworkGet m.events.network with
  | none => none
  | some (r, network) =>
      let m := { m with events := { m.events with network } }
      match r with
      | none => some { m with control := goOn }
      | some r => some (invoke m false .network r)

/-- The registered pairs that `poll` reports to be ready. -/
def report (net : Network (Eventrec κ)) (revents : Nat → PollFlags)
    (fd : Nat) (op : NetworkOp) : Bool :=
  (registered net fd op).isSome &&
    ((revents fd).has op || ((revents fd).pollerr || (revents fd).pollhup))

/-- What a call of `poll` adds to the history. -/
def pollItem (net : Network (Eventrec κ)) :
    PollResult → List (Item κ)
  | .ready revents => [.poll (report net revents)]
  | _ => []

/-- Wait for network events, and go on if that does not fail. -/
def selectNetwork (m : Loop κ) (answers : Answers) (tv : Option Timeval)
    (goOn : Control) : Loop κ :=
  let (status, network) :=
    eventsNetworkSelect answers.allocs answers.poll tv m.events.network
  let item := pollItem m.events.network
    (answers.poll m.events.network.fds (pollTimeout tv))
  let m := { m with events := { m.events with network } }
  if status ≠ 0 then finish m (-1)
  else { m with control := goOn, history := item ++ m.history }

/-- Run a timer event if there is one, and return otherwise. -/
def runTimer (m : Loop κ) (answers : Answers) : Option (Loop κ) :=
  (eventsTimerGet answers.clock m.events.timers).map
    fun (status, r, timers) =>
      let m := { m with events := { m.events with timers } }
      if status ≠ 0 then finish m (-1)
      else
        match r with
        | none => finish m 0
        | some r => invoke m false .timer r

/-- The top of the second loop. -/
def loopTop (m : Loop κ) : Option (Loop κ) :=
  if m.events.interruptRequested then some (finish m 0)
  else runImmediate m false fun m => { m with control := .networkGet }

/-- The next call of `events_run_internal`. -/
def proceed (m : Loop κ) (answers : Answers) : Option (Loop κ) :=
  match m.control with
  | .start =>
      runImmediate m true fun m => { m with control := .timerMin }
  | .returned true rc =>
      if rc ≠ 0 then some (finish m rc)
      else if m.events.interruptRequested then some (finish m rc)
      else runImmediate m true fun m => finish m rc
  | .timerMin =>
      (eventsTimerMin answers.allocated answers.clock m.events.timers).map
        fun (status, tv) =>
          if status ≠ 0 then finish m (-1)
          else { m with control := .select tv }
  | .select tv => some (selectNetwork m answers tv .loop)
  | .loop => loopTop m
  | .returned false rc =>
      if rc ≠ 0 then some (finish m rc) else loopTop m
  | .networkGet => runNetwork m .selectAgain
  | .selectAgain =>
      some (selectNetwork m answers (some ⟨0, 0⟩) .networkGetAgain)
  | .networkGetAgain => runNetwork m .timerGet
  | .timerGet => runTimer m answers
  | .idle | .callback _ => none

/-- Is it the turn of the application? -/
def Control.application : Control → Bool
  | .idle | .callback _ => true
  | _ => false

/-- One step, up to the reading of the clock. -/
def move (m : Loop κ) : Input κ → Option (Loop κ)
  | .signal =>
      some { m with
        events := { m.events with interruptRequested := true }
        history := .interrupt :: m.history }
  | .run =>
      if m.control = .idle then
        some { m with control := .start, history := .run :: m.history }
      else none
  | .act action =>
      if m.control.application then
        (perform m.events action).map fun (events, items) =>
          { m with events, history := items ++ m.history }
      else none
  | .returns rc =>
      match m.control with
      | .callback atStart =>
          some { m with
            control := .returned atStart rc
            history := .callbackReturn rc :: m.history }
      | _ => none
  | .answer answers => proceed m answers

/-- One step. -/
def step (m : Loop κ) (input : Input κ) : Option (Loop κ) :=
  move { m with now := input.clock.getD m.now } input

end Libcperciva.Events.LoopModel
