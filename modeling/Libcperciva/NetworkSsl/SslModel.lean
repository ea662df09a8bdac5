import Libcperciva.Events.NetworkModel
import Libcperciva.Lib.Buffer
import Libcperciva.Util.SizeT

/-!
# The TLS transport, `network_ssl/network_ssl.c`

The system is one context, the events that are registered for it, and where
the control is: in the event loop, or in a callback of the user that was
invoked by `doread` or `dowrite`.  `doread` and `dowrite` invoke a callback as
the last thing they do, so a function that gets there stops; when the callback
returns, `poke` goes on from where it was left.

The context has a flag that says whether it was closed.  Each function which
is given the context looks at that flag first; using the context after
`network_ssl_close` has freed it is a fault.

What the TLS library and the registration of events answer are parameters.
-/

namespace Libcperciva.NetworkSsl.SslModel

open Libcperciva.Events.NetworkModel (NetworkOp)
open Libcperciva.Lib.Buffer
open Libcperciva.Util.SizeT

variable {κ : Type*}

/-! ## Data -/

/-- The fields `read_*` or `write_*` of the context.  A value of type `κ` is a
callback and its cookie. -/
structure Pending (κ : Type*) where
  callback : Option κ := none
  buf : List UInt8 := []
  buflen : Nat := 0
  minlen : Nat := 0
  bufpos : Nat := 0
  needsR : Bool := false
  needsW : Bool := false

/-- `struct network_ssl_ctx`, without the socket and the TLS connection. -/
structure NetworkSslCtx (κ : Type*) where
  waitingR : Bool := false
  waitingW : Bool := false
  immediateCookie : Option Nat := none
  read : Pending κ := {}
  write : Pending κ := {}

/-- The pending read or the pending write. -/
def NetworkSslCtx.pending (ssl : NetworkSslCtx κ) : NetworkOp → Pending κ
  | .read => ssl.read
  | .write => ssl.write

/-- Store the fields of the pending read or of the pending write. -/
def NetworkSslCtx.setPending (ssl : NetworkSslCtx κ)
    (op : NetworkOp) (pending : Pending κ) : NetworkSslCtx κ :=
  match op with
  | .read => { ssl with read := pending }
  | .write => { ssl with write := pending }

/-- `waiting_r` or `waiting_w`. -/
def NetworkSslCtx.waiting (ssl : NetworkSslCtx κ) : NetworkOp → Bool
  | .read => ssl.waitingR
  | .write => ssl.waitingW

/-- Store `waiting_r` or `waiting_w`. -/
def NetworkSslCtx.setWaiting (ssl : NetworkSslCtx κ)
    (op : NetworkOp) (waiting : Bool) : NetworkSslCtx κ :=
  match op with
  | .read => { ssl with waitingR := waiting }
  | .write => { ssl with waitingW := waiting }

/-- `read_needs_r || write_needs_r`, or the same for writability. -/
def NetworkSslCtx.needs (ssl : NetworkSslCtx κ) : NetworkOp → Bool
  | .read => ssl.read.needsR || ssl.write.needsR
  | .write => ssl.read.needsW || ssl.write.needsW

/-- The events that are registered for the context: those of its socket, and
the cookies of the immediate events. -/
structure Registered where
  readable : Bool := false
  writable : Bool := false
  immediates : List Nat := []
deriving DecidableEq

/-- Is the event of the socket registered? -/
def Registered.network (events : Registered) : NetworkOp → Bool
  | .read => events.readable
  | .write => events.writable

/-- Add or remove the event of the socket. -/
def Registered.setNetwork (events : Registered)
    (op : NetworkOp) (registered : Bool) : Registered :=
  match op with
  | .read => { events with readable := registered }
  | .write => { events with writable := registered }

/-- The assertions of the file. -/
inductive SslAssert where
  /-- `buflen != 0` -/
  | nonempty
  /-- `buflen <= SSIZE_MAX` -/
  | fits
  /-- `ssl->read_callback == NULL` or `ssl->write_callback == NULL`, when an
  operation is started -/
  | idle (op : NetworkOp)
  /-- `ssl->read_bufpos <= ssl->read_buflen`, or the same for a write -/
  | position (op : NetworkOp)
  /-- `ssl->read_callback == NULL` or `ssl->write_callback == NULL`, in
  `network_ssl_close` -/
  | closeIdle (op : NetworkOp)
  /-- `ssl->waiting_r == 0` or `ssl->waiting_w == 0` -/
  | closeWaiting (op : NetworkOp)
deriving DecidableEq

/-- How the program goes wrong. -/
inductive Fault where
  | assertion (failed : SslAssert)
  /-- A callback is invoked through NULL. -/
  | nullCallback
  /-- The context is used after `network_ssl_close`. -/
  | useAfterClose
deriving DecidableEq

/-- Where the control is. -/
inductive Frame where
  | eventLoop
  /-- In the callback of a read or of a write. -/
  | callback (op : NetworkOp)
deriving DecidableEq

/-- The context, its events and the control. -/
structure System (κ : Type*) where
  ssl : NetworkSslCtx κ := {}
  closed : Bool := false
  events : Registered := {}
  frame : Frame := .eventLoop

/-- A context which can be used. -/
def deref (sys : System κ) : Except Fault (NetworkSslCtx κ) :=
  if sys.closed then .error .useAfterClose else .ok sys.ssl

/-! ## Events -/

/-- `events_network_register`, for the socket of the context. -/
def eventsNetworkRegister (granted : Bool) (events : Registered)
    (op : NetworkOp) : Int × Registered :=
  if granted && !events.network op then (0, events.setNetwork op true)
  else (-1, events)

/-- `events_network_cancel`, for the socket of the context. -/
def eventsNetworkCancel (events : Registered) (op : NetworkOp) :
    Int × Registered :=
  if events.network op then (0, events.setNetwork op false)
  else (-1, events)

/-- Which registrations succeed in a call of `setupevents`. -/
structure Grants where
  readable : Bool := true
  writable : Bool := true

/-- Cancel a network event if it is no longer needed. -/
def cancelUnneeded (op : NetworkOp) (sys : System κ) : Int × System κ :=
  if sys.ssl.waiting op && !sys.ssl.needs op then
    let (status, events) := eventsNetworkCancel sys.events op
    if status ≠ 0 then (-1, { sys with events })
    else (0, { sys with events, ssl := sys.ssl.setWaiting op false })
  else (0, sys)

/-- Register a network event if it is needed. -/
def registerNeeded (granted : Bool) (op : NetworkOp) (sys : System κ) :
    Int × System κ :=
  if !sys.ssl.waiting op && sys.ssl.needs op then
    let (status, events) := eventsNetworkRegister granted sys.events op
    if status ≠ 0 then (-1, { sys with events })
    else (0, { sys with events, ssl := sys.ssl.setWaiting op true })
  else (0, sys)

/-- `setupevents`. -/
def setupevents (grants : Grants) (sys : System κ) :
    Except Fault (Int × System κ) := do
  let _ ← deref sys
  let (status, sys) := cancelUnneeded .read sys
  if status ≠ 0 then .ok (-1, sys)
  else
    let (status, sys) := cancelUnneeded .write sys
    if status ≠ 0 then .ok (-1, sys)
    else
      let (status, sys) := registerNeeded grants.readable .read sys
      if status ≠ 0 then .ok (-1, sys)
      else
        let (status, sys) := registerNeeded grants.writable .write sys
        if status ≠ 0 then .ok (-1, sys)
        else .ok (0, sys)

/-! ## The TLS library -/

/-- What `SSL_get_error` answers. -/
inductive SslError where
  | wantRead
  | wantWrite
  /-- `SSL_ERROR_SYSCALL`, with the value of `errno`. -/
  | syscall (errno : Int)
  | zeroReturn
  | ssl
  | other (sslerr : Int)
deriving DecidableEq

/-- The outcomes of what one call of `doread` or `dowrite` calls.  An element
of `δ` is what one `SSL_read_ex` or `SSL_write_ex` transfers; the call after
the last of them fails. -/
structure SslIo (δ : Type) where
  /-- Is SIGPIPE ignored? -/
  ignored : Bool := true
  /-- Is the old handler restored? -/
  restored : Bool := true
  transfers : List δ := []
  error : SslError := .wantRead

/-- How a function of the file ends. -/
inductive Progress (κ : Type*) where
  | returned (status : Int) (sys : System κ)
  /-- It invokes a callback. -/
  | invokes (op : NetworkOp) (callback : κ) (len : Int) (sys : System κ)

/-- The system after a function of the file. -/
def Progress.sys : Progress κ → System κ
  | .returned _ sys => sys
  | .invokes _ _ _ sys => sys

/-- `docallback`. -/
def docallback (op : NetworkOp) (len : Int) (sys : System κ) :
    Except Fault (Progress κ) :=
  let pending := sys.ssl.pending op
  match pending.callback with
  | none => .error .nullCallback
  | some callback =>
      let ssl := sys.ssl.setPending op { pending with callback := none }
      .ok (.invokes op callback len { sys with ssl })

/-- The loop of `doread`; the flag says whether there are enough data. -/
def readSome (pending : Pending κ) :
    List (List UInt8) → Except Fault (Bool × Pending κ)
  | [] => .ok (false, pending)
  | bytes :: transfers =>
      let pending := { pending with
        buf := write pending.buf pending.bufpos bytes
        bufpos := sizeAdd pending.bufpos bytes.length }
      if ¬ pending.bufpos ≤ pending.buflen then
        .error (.assertion (.position .read))
      else if pending.bufpos ≥ pending.minlen then .ok (true, pending)
      else readSome pending transfers

/-- `doread`. -/
def doread (io : SslIo (List UInt8)) (sys : System κ) :
    Except Fault (Progress κ) := do
  let ssl ← deref sys
  if !io.ignored then .ok (.returned (-1) sys)
  else
    let (enough, read) ← readSome ssl.read io.transfers
    let sys := { sys with ssl := { ssl with read } }
    if !io.restored then .ok (.returned (-1) sys)
    else if enough then docallback .read read.bufpos sys
    else
      match io.error with
      | .wantRead =>
          let read := { read with needsR := true }
          .ok (.returned 0 { sys with ssl := { ssl with read } })
      | .wantWrite =>
          let read := { read with needsW := true }
          .ok (.returned 0 { sys with ssl := { ssl with read } })
      | .syscall errno => docallback .read (if errno ≠ 0 then -1 else 0) sys
      | .zeroReturn => docallback .read 0 sys
      | .ssl => docallback .read (-1) sys
      | .other _ => docallback .read (-1) sys

/-- The loop of `dowrite`; the flag says whether enough was written. -/
def writeSome (pending : Pending κ) :
    List Nat → Except Fault (Bool × Pending κ)
  | [] => .ok (false, pending)
  | len :: transfers =>
      let pending := { pending with bufpos := sizeAdd pending.bufpos len }
      if ¬ pending.bufpos ≤ pending.buflen then
        .error (.assertion (.position .write))
      else if pending.bufpos ≥ pending.minlen then .ok (true, pending)
      else writeSome pending transfers

/-- `dowrite`; there is no end of file. -/
def dowrite (io : SslIo Nat) (sys : System κ) :
    Except Fault (Progress κ) := do
  let ssl ← deref sys
  if !io.ignored then .ok (.returned (-1) sys)
  else
    let (enough, write) ← writeSome ssl.write io.transfers
    let sys := { sys with ssl := { ssl with write } }
    if !io.restored then .ok (.returned (-1) sys)
    else if enough then docallback .write write.bufpos sys
    else
      match io.error with
      | .wantRead =>
          let write := { write with needsR := true }
          .ok (.returned 0 { sys with ssl := { ssl with write } })
      | .wantWrite =>
          let write := { write with needsW := true }
          .ok (.returned 0 { sys with ssl := { ssl with write } })
      | _ => docallback .write (-1) sys

/-! ## `poke` and the event callbacks -/

/-- The outcomes of what `poke` calls. -/
structure PokeIo where
  read : SslIo (List UInt8) := {}
  write : SslIo Nat := {}
  grants : Grants := {}

/-- The operation is there and waits for nothing. -/
def Pending.ready (pending : Pending κ) : Bool :=
  pending.callback.isSome && !pending.needsR && !pending.needsW

/-- Go on when a function returns; a callback it invokes is waited for. -/
def Progress.andThen (progress : Progress κ)
    (next : Int → System κ → Except Fault (Progress κ)) :
    Except Fault (Progress κ) :=
  match progress with
  | .returned status sys => next status sys
  | .invokes op callback len sys => .ok (.invokes op callback len sys)

/-- The end of `poke`. -/
def pokeEvents (io : PokeIo) (sys : System κ) :
    Except Fault (Progress κ) := do
  let (status, sys) ← setupevents io.grants sys
  .ok (.returned (if status ≠ 0 then -1 else 0) sys)

/-- `poke`, after `dowrite` has returned. -/
def pokeAfterWrite (io : PokeIo) (status : Int) (sys : System κ) :
    Except Fault (Progress κ) :=
  if status ≠ 0 then .ok (.returned (-1) sys) else pokeEvents io sys

/-- `poke`, from where it asks whether it should write. -/
def pokeWrite (io : PokeIo) (sys : System κ) :
    Except Fault (Progress κ) := do
  let ssl ← deref sys
  if ssl.write.ready then
    let progress ← dowrite io.write sys
    progress.andThen (pokeAfterWrite io)
  else pokeEvents io sys

/-- `poke`, after `doread` has returned. -/
def pokeAfterRead (io : PokeIo) (status : Int) (sys : System κ) :
    Except Fault (Progress κ) :=
  if status ≠ 0 then .ok (.returned (-1) sys) else pokeWrite io sys

/-- `poke`. -/
def poke (io : PokeIo) (sys : System κ) : Except Fault (Progress κ) := do
  let ssl ← deref sys
  if ssl.read.ready then
    let progress ← doread io.read sys
    progress.andThen (pokeAfterRead io)
  else pokeWrite io sys

/-- `callback_read`. -/
def callbackRead (io : PokeIo) (sys : System κ) :
    Except Fault (Progress κ) := do
  let ssl ← deref sys
  poke io { sys with ssl := { ssl with
    waitingR := false
    read := { ssl.read with needsR := false }
    write := { ssl.write with needsR := false } } }

/-- `callback_write`. -/
def callbackWrite (io : PokeIo) (sys : System κ) :
    Except Fault (Progress κ) := do
  let ssl ← deref sys
  poke io { sys with ssl := { ssl with
    waitingW := false
    read := { ssl.read with needsW := false }
    write := { ssl.write with needsW := false } } }

/-- `callback_immediate`. -/
def callbackImmediate (io : PokeIo) (sys : System κ) :
    Except Fault (Progress κ) := do
  let ssl ← deref sys
  poke io { sys with ssl := { ssl with immediateCookie := none } }

/-! ## The interface -/

/-- `network_ssl_open`, when it succeeds. -/
def networkSslOpen : System κ := {}

/-- The arguments of a read or a write, and the cookie of the immediate event,
if its registration succeeds. -/
structure Arguments (κ : Type*) where
  callback : κ
  buf : List UInt8
  buflen : Nat
  minlen : Nat
  immediate : Option Nat

/-- What `network_ssl_read` and `network_ssl_write` do; the flag says whether
they return a cookie. -/
def networkSslStart (op : NetworkOp) (args : Arguments κ)
    (sys : System κ) : Except Fault (Bool × System κ) :=
  if ¬ args.buflen ≠ 0 then .error (.assertion .nonempty)
  else if ¬ args.buflen ≤ SSIZE_MAX then .error (.assertion .fits)
  else do
    let ssl ← deref sys
    if ¬ (ssl.pending op).callback.isNone then
      .error (.assertion (.idle op))
    else
      let ssl := ssl.setPending op
        { callback := some args.callback, buf := args.buf
          buflen := args.buflen, minlen := args.minlen }
      match ssl.immediateCookie, args.immediate with
      | some _, _ => .ok (true, { sys with ssl })
      | none, none => .ok (false, { sys with ssl })
      | none, some cookie =>
          .ok (true, { sys with
            ssl := { ssl with immediateCookie := some cookie }
            events := { sys.events with
              immediates := sys.events.immediates ++ [cookie] } })

/-- `network_ssl_read`. -/
def networkSslRead (args : Arguments κ) :
    System κ → Except Fault (Bool × System κ) :=
  networkSslStart .read args

/-- `network_ssl_write`. -/
def networkSslWrite (args : Arguments κ) :
    System κ → Except Fault (Bool × System κ) :=
  networkSslStart .write args

/-- What `network_ssl_read_cancel` and `network_ssl_write_cancel` do. -/
def networkSslCancel (op : NetworkOp) (grants : Grants)
    (sys : System κ) : Except Fault (System κ) := do
  let ssl ← deref sys
  let ssl := ssl.setPending op { ssl.pending op with
    callback := none, needsR := false, needsW := false }
  let (_, sys) ← setupevents grants { sys with ssl }
  .ok sys

/-- `network_ssl_read_cancel`. -/
def networkSslReadCancel (grants : Grants) :
    System κ → Except Fault (System κ) :=
  networkSslCancel .read grants

/-- `network_ssl_write_cancel`. -/
def networkSslWriteCancel (grants : Grants) :
    System κ → Except Fault (System κ) :=
  networkSslCancel .write grants

/-- Cancel a pending immediate event. -/
def cancelImmediate (events : Registered) : Option Nat → Registered
  | none => events
  | some cookie =>
      { events with immediates := events.immediates.erase cookie }

/-- `network_ssl_close`. -/
def networkSslClose (sys : System κ) : Except Fault (System κ) := do
  let ssl ← deref sys
  let events := cancelImmediate sys.events ssl.immediateCookie
  if ¬ ssl.read.callback.isNone then .error (.assertion (.closeIdle .read))
  else if ¬ ssl.write.callback.isNone then
    .error (.assertion (.closeIdle .write))
  else if ssl.waitingR then .error (.assertion (.closeWaiting .read))
  else if ssl.waitingW then .error (.assertion (.closeWaiting .write))
  else .ok { sys with events, closed := true }

/-! ## Steps -/

/-- The calls of the user. -/
inductive Request (κ : Type*) where
  | read (args : Arguments κ)
  | readCancel (grants : Grants)
  | write (args : Arguments κ)
  | writeCancel (grants : Grants)
  | close

/-- What happens next. -/
inductive Action (κ : Type*) where
  | request (call : Request κ)
  /-- The event loop finds the socket to be readable. -/
  | readable (io : PokeIo)
  /-- The event loop finds the socket to be writable. -/
  | writable (io : PokeIo)
  /-- The event loop runs an immediate event. -/
  | immediate (cookie : Nat) (io : PokeIo)
  /-- The callback of the user returns. -/
  | returns (status : Int) (io : PokeIo)

/-- What can be seen of a step. -/
inductive Reply (κ : Type*) where
  | done
  /-- Was an operation started? -/
  | cookie (given : Bool)
  /-- A callback of the user is invoked. -/
  | invoked (op : NetworkOp) (callback : κ) (len : Int)
  /-- An event callback returns to the event loop. -/
  | returned (status : Int)

/-- The control goes to the event loop or to the callback. -/
def Progress.settle : Progress κ → Reply κ × System κ
  | .returned status sys => (.returned status, { sys with frame := .eventLoop })
  | .invokes op callback len sys =>
      (.invoked op callback len, { sys with frame := .callback op })

/-- A call of the user. -/
def Request.perform (sys : System κ) :
    Request κ → Except Fault (Reply κ × System κ)
  | .read args => do
      let (given, sys) ← networkSslRead args sys
      .ok (.cookie given, sys)
  | .readCancel grants => do
      let sys ← networkSslReadCancel grants sys
      .ok (.done, sys)
  | .write args => do
      let (given, sys) ← networkSslWrite args sys
      .ok (.cookie given, sys)
  | .writeCancel grants => do
      let sys ← networkSslWriteCancel grants sys
      .ok (.done, sys)
  | .close => do
      let sys ← networkSslClose sys
      .ok (.done, sys)

/-- `poke` goes on when the callback of the user returns. -/
def resume (io : PokeIo) (status : Int) (sys : System κ) :
    Except Fault (Progress κ) :=
  match sys.frame with
  | .eventLoop => .ok (.returned status sys)
  | .callback .read => pokeAfterRead io status sys
  | .callback .write => pokeAfterWrite io status sys

/-- What happens in a step; the event loop drops an event before it runs its
callback. -/
def Action.progress (sys : System κ) :
    Action κ → Except Fault (Reply κ × System κ)
  | .request call => call.perform sys
  | .readable io => do
      let events := sys.events.setNetwork .read false
      .ok (← callbackRead io { sys with events }).settle
  | .writable io => do
      let events := sys.events.setNetwork .write false
      .ok (← callbackWrite io { sys with events }).settle
  | .immediate cookie io => do
      let immediates := sys.events.immediates.erase cookie
      let events := { sys.events with immediates }
      .ok (← callbackImmediate io { sys with events }).settle
  | .returns status io => do
      .ok (← resume io status sys).settle

/-- The steps that can happen: the user does not call a function with a
context it has closed, and only registered events have callbacks. -/
def Permitted (sys : System κ) : Action κ → Prop
  | .request _ => sys.closed = false
  | .readable _ => sys.frame = .eventLoop ∧ sys.events.readable = true
  | .writable _ => sys.frame = .eventLoop ∧ sys.events.writable = true
  | .immediate cookie _ =>
      sys.frame = .eventLoop ∧ cookie ∈ sys.events.immediates
  | .returns _ _ => sys.frame ≠ .eventLoop

/-- Perform actions until one of them is a fault. -/
def run (sys : System κ) : List (Action κ) → Except Fault (System κ)
  | [] => .ok sys
  | action :: actions => do
      let (_, next) ← action.progress sys
      run next actions

/-- Each action is permitted where it happens. -/
def PermittedRun (sys : System κ) : List (Action κ) → Prop
  | [] => True
  | action :: actions =>
      Permitted sys action ∧ ∀ reply next,
        action.progress sys = .ok (reply, next) → PermittedRun next actions

end Libcperciva.NetworkSsl.SslModel
