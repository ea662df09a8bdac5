import Mathlib.Tactic.Common

/-!
# Connection attempts, `network/network_connect.c`

The world is what the attempt has registered and opened, and what can be
observed of it.  The addresses that fail, the fatal errors, the sockets that
are opened and closed and the invocations of the upstream callback are
recorded; the code does not read these records.

Timers, network events and immediate events run once: the event loop forgets
one before it invokes its callback.
-/

namespace Libcperciva.Network.ConnectModel

variable {α : Type*}

/-- `struct connect_cookie`, without what it is given for the callback, the
address to bind to and the length of the timeout. -/
structure ConnectCookie (α : Type*) where
  /-- The addresses from `sas` on. -/
  sas : List α
  cookieImmediate : Option Nat
  s : Int
  timeoEnabled : Bool
  cookieTimeo : Option Nat

/-- The events and the sockets of an attempt, and the records. -/
structure World (α : Type*) where
  timers : List Nat := []
  /-- The sockets that are waited for to become writable. -/
  writable : List Int := []
  immediates : List Nat := []
  /-- The open sockets. -/
  socks : List Int := []
  /-- How many sockets were open at the same time. -/
  mostOpen : Nat := 0
  opened : List (α × Int) := []
  closed : List Int := []
  /-- The addresses that failed or timed out. -/
  failed : List α := []
  fatal : Bool := false
  cancelled : Bool := false
  /-- The sockets with which the upstream callback was invoked. -/
  called : List Int := []

/-- How the program goes wrong. -/
inductive ConnectFault where
  /-- An assertion of `network_connect_cancel`. -/
  | assertion
  /-- A socket is closed that is not open. -/
  | close
  /-- A timer is cancelled that is not registered. -/
  | timer
  /-- An immediate event is cancelled that is not registered. -/
  | immediate
  /-- The cookie is used after it was freed. -/
  | useAfterFree
deriving DecidableEq

/-- The outcomes of what one call of `tryconnect` calls, and of the upstream
callback. -/
structure TryEnv where
  /-- What `sock_connect_bind_nb` returns for the addresses that are tried. -/
  connect : Nat → Int
  timer : Option Nat
  registers : Bool
  immediate : Option Nat
  rc : Int

/-! ## System calls and events -/

/-- `close`; the socket is closed also if an error is reported. -/
def close (s : Int) (W : World α) : Except ConnectFault (World α) :=
  if s ∈ W.socks then
    .ok { W with socks := W.socks.erase s, closed := W.closed ++ [s] }
  else .error .close

/-- `events_timer_cancel`. -/
def eventsTimerCancel (timer : Nat) (W : World α) :
    Except ConnectFault (World α) :=
  if timer ∈ W.timers then .ok { W with timers := W.timers.erase timer }
  else .error .timer

/-- `events_immediate_cancel`. -/
def eventsImmediateCancel (immediate : Nat) (W : World α) :
    Except ConnectFault (World α) :=
  if immediate ∈ W.immediates then
    .ok { W with immediates := W.immediates.erase immediate }
  else .error .immediate

/-- `events_network_cancel`, for writability.  The callers ignore its
status. -/
def eventsNetworkCancel (s : Int) (W : World α) : World α :=
  { W with writable := W.writable.erase s }

/-- Cancel a timer if there is one. -/
def cancelTimer (cookieTimeo : Option Nat) (W : World α) :
    Except ConnectFault (World α) :=
  match cookieTimeo with
  | none => .ok W
  | some timer => eventsTimerCancel timer W

/-! ## `tryconnect` -/

/-- Try addresses until there is one which does not fail immediately: the
addresses from `sas` on, the socket, and the world. -/
def tryAddresses (connect : Nat → Int) (i : Nat) (s : Int) (W : World α) :
    List α → List α × Int × World α
  | [] => ([], s, W)
  | sa :: sas =>
      let s := connect i
      if s ≠ -1 then
        (sa :: sas, s,
          { W with
            socks := W.socks ++ [s]
            mostOpen := max W.mostOpen (W.socks.length + 1)
            opened := W.opened ++ [(sa, s)] })
      else
        tryAddresses connect (i + 1) s { W with failed := W.failed ++ [sa] }
          sas

/-- The end `err1` of `tryconnect`. -/
def tryconnectErr1 (C : ConnectCookie α) (W : World α) :
    Except ConnectFault (Int × ConnectCookie α × World α) := do
  let W := { W with fatal := true }
  if C.s ≠ -1 then
    let W ← close C.s W
    .ok (-1, C, W)
  else .ok (-1, C, W)

/-- `tryconnect`, from where it registers the network event. -/
def tryconnectRegister (env : TryEnv) (C : ConnectCookie α) (W : World α) :
    Except ConnectFault (Int × ConnectCookie α × World α) :=
  if env.registers = true ∧ C.s ∉ W.writable then
    .ok (0, C, { W with writable := W.writable ++ [C.s] })
  else do
    let W ← cancelTimer C.cookieTimeo W
    tryconnectErr1 C W

/-- `tryconnect`. -/
def tryconnect (env : TryEnv) (C : ConnectCookie α) (W : World α) :
    Except ConnectFault (Int × ConnectCookie α × World α) :=
  let (sas, s, W) := tryAddresses env.connect 0 C.s W C.sas
  let C := { C with sas, s }
  if C.sas.isEmpty then
    match env.immediate with
    | none => tryconnectErr1 C W
    | some immediate =>
        .ok (0, { C with cookieImmediate := some immediate },
          { W with immediates := W.immediates ++ [immediate] })
  else if C.timeoEnabled then
    match env.timer with
    | none => tryconnectErr1 C W
    | some timer =>
        tryconnectRegister env { C with cookieTimeo := some timer }
          { W with timers := W.timers ++ [timer] }
  else tryconnectRegister env { C with cookieTimeo := none } W

/-! ## Callbacks -/

/-- `docallback`; it frees the cookie. -/
def docallback (rc : Int) (C : ConnectCookie α) (W : World α) :
    Int × World α :=
  (rc, { W with called := W.called ++ [C.s] })

/-- `dofailed`: the status, and the cookie unless it was freed. -/
def dofailed (env : TryEnv) (C : ConnectCookie α) (W : World α) :
    Except ConnectFault (Int × Option (ConnectCookie α) × World α) := do
  let W ← close C.s W
  let W := { W with failed := W.failed ++ C.sas.head?.toList }
  let (status, C, W) ← tryconnect env { C with s := -1, sas := C.sas.tail } W
  if status ≠ 0 then
    let (_, W) := docallback env.rc { C with s := -1 } W
    .ok (-1, none, W)
  else .ok (0, some C, W)

/-- `callback_connect`, with what `getsockopt` returns and reports. -/
def callbackConnect (env : TryEnv) (getsockopt sockerr : Int)
    (C : ConnectCookie α) (W : World α) :
    Except ConnectFault (Int × Option (ConnectCookie α) × World α) := do
  let W ← cancelTimer C.cookieTimeo W
  let C := { C with cookieTimeo := none }
  if getsockopt ≠ 0 then
    let W ← close C.s { W with fatal := true }
    let (_, W) := docallback env.rc { C with s := -1 } W
    .ok (-1, none, W)
  else if sockerr ≠ 0 then dofailed env C W
  else
    let (rc, W) := docallback env.rc C W
    .ok (rc, none, W)

/-- `callback_timeo`. -/
def callbackTimeo (env : TryEnv) (C : ConnectCookie α) (W : World α) :
    Except ConnectFault (Int × Option (ConnectCookie α) × World α) :=
  let C := { C with cookieTimeo := none }
  dofailed env C (eventsNetworkCancel C.s W)

/-! ## The interface -/

/-- `network_connect_internal`; `none` is NULL. -/
def networkConnectInternal (malloc : Bool) (env : TryEnv) (sas : List α)
    (timeo : Bool) :
    Except ConnectFault (Option (ConnectCookie α) × World α) :=
  if !malloc then .ok (none, {})
  else do
    let C : ConnectCookie α :=
      { sas, cookieImmediate := none, s := -1, timeoEnabled := timeo,
        cookieTimeo := none }
    let (status, C, W) ← tryconnect env C {}
    .ok (if status ≠ 0 then none else some C, W)

/-- `network_connect_cancel`. -/
def networkConnectCancel (C : ConnectCookie α) (W : World α) :
    Except ConnectFault (World α) := do
  if ¬ (C.cookieImmediate ≠ none ∨ C.s ≠ -1) then .error .assertion
  else if ¬ (C.cookieImmediate = none ∨ C.s = -1) then .error .assertion
  else
    let W ← cancelTimer C.cookieTimeo W
    let W ← match C.cookieImmediate with
      | none => .ok W
      | some immediate => eventsImmediateCancel immediate W
    let W ←
      if C.s ≠ -1 then close C.s (eventsNetworkCancel C.s W) else .ok W
    .ok { W with cancelled := true }

/-! ## Steps -/

/-- The cookie, as long as it is not freed, and the world. -/
structure System (α : Type*) where
  cookie : Option (ConnectCookie α)
  world : World α

/-- What happens next. -/
inductive Action where
  /-- A timer expires. -/
  | timer (timer : Nat) (env : TryEnv)
  /-- A socket is writable. -/
  | writable (s : Int) (env : TryEnv) (getsockopt sockerr : Int)
  /-- An immediate event runs. -/
  | immediate (immediate : Nat) (rc : Int)
  /-- The user cancels the attempt. -/
  | cancel

/-- A cookie which can be used. -/
def deref (sys : System α) : Except ConnectFault (ConnectCookie α) :=
  match sys.cookie with
  | none => .error .useAfterFree
  | some C => .ok C

/-- One step: the status that is returned to the event loop, and the system. -/
def step (sys : System α) : Action → Except ConnectFault (Int × System α)
  | .timer timer env => do
      let C ← deref sys
      let W := { sys.world with timers := sys.world.timers.erase timer }
      let (status, cookie, W) ← callbackTimeo env C W
      .ok (status, ⟨cookie, W⟩)
  | .writable s env getsockopt sockerr => do
      let C ← deref sys
      let W := { sys.world with writable := sys.world.writable.erase s }
      let (status, cookie, W) ← callbackConnect env getsockopt sockerr C W
      .ok (status, ⟨cookie, W⟩)
  | .immediate immediate rc => do
      let C ← deref sys
      let immediates := sys.world.immediates.erase immediate
      let (status, W) := docallback rc C { sys.world with immediates }
      .ok (status, ⟨none, W⟩)
  | .cancel => do
      let C ← deref sys
      let W ← networkConnectCancel C sys.world
      .ok (0, ⟨none, W⟩)

/-- The steps that can happen: only registered events run, and the user may
cancel until the upstream callback was invoked. -/
def Permitted (sys : System α) : Action → Prop
  | .timer timer _ => timer ∈ sys.world.timers
  | .writable s _ _ _ => s ∈ sys.world.writable
  | .immediate immediate _ => immediate ∈ sys.world.immediates
  | .cancel => sys.world.called = [] ∧ sys.world.cancelled = false

end Libcperciva.Network.ConnectModel
