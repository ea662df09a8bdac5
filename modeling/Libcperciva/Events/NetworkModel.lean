import Libcperciva.Util.Time
import Mathlib.Algebra.Order.Group.Nat

/-!
# The network events of `events/events_network.c`

`S` lists, for each socket, its reader and its writer and the position of the
socket in the array `fds` that is handed to `poll`; `fds` is modelled by its
initialized part, so that `nfds` is its length.  Event records are the values
of a type `ε`.  A function that runs into a failing assertion has no result.

The outcome of each allocation and of `poll` is a parameter.
-/

namespace Libcperciva.Events.NetworkModel

open Libcperciva.Util.Time

/-! ## Data -/

/-- `SIZE_MAX`, which is also `(size_t)(-1)`. -/
def SIZE_MAX : Nat := 2 ^ 64 - 1

/-- `INT_MAX`. -/
def INT_MAX : Nat := 2 ^ 31 - 1

/-- `sizeof(struct pollfd)`. -/
def sizeofPollfd : Nat := 8

/-- `n - 1` in `size_t`. -/
def sizePred (n : Nat) : Nat := if n = 0 then SIZE_MAX else n - 1

/-- The operations `EVENTS_NETWORK_OP_READ` and `EVENTS_NETWORK_OP_WRITE`. -/
inductive NetworkOp where
  | read
  | write
deriving DecidableEq

/-- The operation an `int` names, if it names one. -/
def networkOp (op : Int) : Option NetworkOp :=
  if op = 0 then some .read else if op = 1 then some .write else none

/-- The flags of `events` and `revents`. -/
structure PollFlags where
  pollin : Bool := false
  pollout : Bool := false
  pollerr : Bool := false
  pollhup : Bool := false
  pollnval : Bool := false
deriving DecidableEq, Inhabited

/-- Is the flag of an operation, `POLLIN` or `POLLOUT`, set? -/
def PollFlags.has (flags : PollFlags) : NetworkOp → Bool
  | .read => flags.pollin
  | .write => flags.pollout

/-- `flags |= bit`. -/
def PollFlags.set (flags : PollFlags) : NetworkOp → PollFlags
  | .read => { flags with pollin := true }
  | .write => { flags with pollout := true }

/-- `flags &= ~bit`. -/
def PollFlags.clear (flags : PollFlags) : NetworkOp → PollFlags
  | .read => { flags with pollin := false }
  | .write => { flags with pollout := false }

/-- `left | right`. -/
def PollFlags.union (left right : PollFlags) : PollFlags where
  pollin := left.pollin || right.pollin
  pollout := left.pollout || right.pollout
  pollerr := left.pollerr || right.pollerr
  pollhup := left.pollhup || right.pollhup
  pollnval := left.pollnval || right.pollnval

/-- `struct pollfd`. -/
structure Pollfd where
  fd : Nat
  events : PollFlags
  revents : PollFlags
deriving DecidableEq, Inhabited

/-- `struct socketrec`. -/
structure Socketrec (ε : Type*) where
  reader : Option ε
  writer : Option ε
  pollpos : Nat

/-- A socket record as `growsocketlist` initializes it. -/
def Socketrec.new (ε : Type*) : Socketrec ε where
  reader := none
  writer := none
  pollpos := SIZE_MAX

/-- The event pointer for an operation. -/
def Socketrec.event {ε : Type*} (rec : Socketrec ε) : NetworkOp → Option ε
  | .read => rec.reader
  | .write => rec.writer

/-- Assign the event pointer for an operation. -/
def Socketrec.setEvent {ε : Type*} (rec : Socketrec ε)
    (op : NetworkOp) (event : Option ε) : Socketrec ε :=
  match op with
  | .read => { rec with reader := event }
  | .write => { rec with writer := event }

/-- The static variables of the file. -/
structure Network (ε : Type*) where
  /-- The list of sockets; `none` is NULL. -/
  S : Option (List (Socketrec ε)) := none
  /-- The initialized poll structures. -/
  fds : List Pollfd := []
  fdsAlloc : Nat := 0
  fdscanpos : Nat := 0

variable {ε : Type*}

/-- The number of initialized poll structures. -/
def Network.nfds (net : Network ε) : Nat := net.fds.length

/-- `socketlist_getsize(S)`. -/
def Network.size (net : Network ε) : Nat := (net.S.getD []).length

/-- `*socketlist_get(S, i)`; beyond the list it reads as a new record. -/
def Network.sock (net : Network ε) (i : Nat) : Socketrec ε :=
  (net.S.getD [])[i]?.getD (Socketrec.new ε)

/-- `fds[j]`. -/
def Network.pollfd (net : Network ε) (j : Nat) : Pollfd :=
  net.fds.getD j default

/-- Update `*socketlist_get(S, i)`. -/
def Network.modifySock (net : Network ε) (i : Nat)
    (update : Socketrec ε → Socketrec ε) : Network ε :=
  { net with S := net.S.map fun list => list.modify i update }

/-- `fds[j] = pfd`. -/
def Network.setPollfd (net : Network ε) (j : Nat) (pfd : Pollfd) :
    Network ε :=
  { net with fds := net.fds.set j pfd }

/-- The outcomes of the allocations a call may make. -/
structure Allocs where
  socketlistInit : Bool := true
  atexit : Bool := true
  fdsInit : Bool := true
  socketlistResize : Bool := true
  eventrec : Bool := true
  fdsRealloc : Bool := true

/-! ## Static functions -/

/-- `init`, with its return status. -/
def init (allocs : Allocs) (net : Network ε) : Int × Network ε :=
  match net.S with
  | some _ => (0, net)
  | none =>
      if !allocs.socketlistInit then (-1, net)
      else if !allocs.atexit then (-1, net)
      else if !allocs.fdsInit then
        (-1, { net with fds := [], fdsAlloc := 16, fdscanpos := 0 })
      else (0, { S := some [], fds := [], fdsAlloc := 16, fdscanpos := 0 })

/-- `growsocketlist`, with its return status. -/
def growsocketlist (allocs : Allocs) (net : Network ε) (nrec : Nat) :
    Int × Network ε :=
  if !allocs.socketlistResize then (-1, net)
  else
    (0, { net with S := net.S.map fun list =>
      list ++ List.replicate (nrec - list.length) (Socketrec.new ε) })

/-- Add a descriptor to the end of the pollfd array. -/
def appendPollfd (net : Network ε) (fd : Nat) : Network ε :=
  let net := net.modifySock fd fun rec => { rec with pollpos := net.nfds }
  { net with fds := net.fds ++ [⟨fd, {}, {}⟩] }

/-- `growpollfd`, with its return status. -/
def growpollfd (allocs : Allocs) (net : Network ε) (fd : Nat) :
    Option (Int × Network ε) :=
  if (net.sock fd).pollpos ≠ SIZE_MAX then none
  else if net.fdsAlloc < 16 then none
  else
    let newFdsAlloc := net.fdsAlloc * 2 % 2 ^ 64
    if net.fdsAlloc = net.nfds ∧
        (newFdsAlloc > SIZE_MAX / sizeofPollfd ∨
          allocs.fdsRealloc = false) then
      some (-1, net)
    else
      let net :=
        if net.fdsAlloc = net.nfds then
          { net with fdsAlloc := newFdsAlloc }
        else net
      if ¬ net.nfds < net.fdsAlloc then none
      else if ¬ fd < INT_MAX then none
      else some (0, appendPollfd net fd)

/-- Take the pollfd at a position out of the array. -/
def removePollfd (net : Network ε) (pollpos : Nat) : Network ε :=
  let last := net.nfds - 1
  let net := net.modifySock (net.pollfd pollpos).fd
    fun rec => { rec with pollpos := SIZE_MAX }
  let net :=
    if pollpos ≠ last then
      let moved := net.pollfd last
      (net.setPollfd pollpos moved).modifySock moved.fd
        fun rec => { rec with pollpos }
    else net
  { net with fds := net.fds.dropLast }

/-- `clearbit`; the bit is the one of an operation. -/
def clearbit (net : Network ε) (pollpos : Nat) (op : NetworkOp) :
    Network ε :=
  let pfd := net.pollfd pollpos
  let cleared :=
    { pfd with events := pfd.events.clear op, revents := pfd.revents.clear op }
  let net := net.setPollfd pollpos cleared
  if cleared.events = {} then removePollfd net pollpos else net

/-! ## Functions used by the event loop and the application -/

/-- Set the flag of an operation in the poll structure of a descriptor. -/
def setFlag (net : Network ε) (s : Nat) (op : NetworkOp) : Network ε :=
  let pollpos := (net.sock s).pollpos
  let pfd := net.pollfd pollpos
  net.setPollfd pollpos { pfd with events := pfd.events.set op }

/--
The part of `events_network_register` which starts with the event pointer
for the pair.
-/
def registerEvent (allocs : Allocs) (net : Network ε) (event : ε)
    (s : Nat) (op : NetworkOp) : Option (Int × Network ε) :=
  if ((net.sock s).event op).isSome then some (-1, net)
  else if !allocs.eventrec then some (-1, net)
  else
    let net := net.modifySock s fun rec => rec.setEvent op (some event)
    let grown :=
      if (net.sock s).pollpos = SIZE_MAX then growpollfd allocs net s
      else some (0, net)
    match grown with
    | none => none
    | some (status, net) =>
        if status ≠ 0 then
          some (-1, net.modifySock s fun rec => rec.setEvent op none)
        else some (0, setFlag net s op)

/--
`events_network_register`, with its return status.  The event record is the
one `events_mkrec` makes of the function and the cookie.
-/
def eventsNetworkRegister (allocs : Allocs) (net : Network ε)
    (event : ε) (s : Int) (op : Int) : Option (Int × Network ε) :=
  let (status, net) := init allocs net
  if status ≠ 0 then some (-1, net)
  else if s < 0 then some (-1, net)
  else
    match networkOp op with
    | none => some (-1, net)
    | some op =>
        let s := s.toNat
        let (status, net) :=
          if s ≥ net.size then growsocketlist allocs net (s + 1) else (0, net)
        if status ≠ 0 then some (-1, net)
        else registerEvent allocs net event s op

/-- `events_network_cancel`, with its return status. -/
def eventsNetworkCancel (allocs : Allocs) (net : Network ε)
    (s : Int) (op : Int) : Int × Network ε :=
  let (status, net) := init allocs net
  if status ≠ 0 then (-1, net)
  else if s < 0 then (-1, net)
  else
    match networkOp op with
    | none => (-1, net)
    | some op =>
        let s := s.toNat
        if s ≥ net.size then (-1, net)
        else if ((net.sock s).event op).isNone then (-1, net)
        else
          let net := net.modifySock s fun rec => rec.setEvent op none
          (0, clearbit net (net.sock s).pollpos op)

/-- How the loop around `poll` ends. -/
inductive PollResult where
  /-- The flags `poll` returns for each descriptor. -/
  | ready (revents : Nat → PollFlags)
  /-- A signal arrived and an interrupt was requested. -/
  | interrupted
  | failed

/-- The timeout handed to `poll`, in milliseconds, rounded up. -/
def pollTimeout : Option Timeval → Int
  | none => -1
  | some tv =>
      if tv.tvSec ≥ Int64.ofNat (INT_MAX / 1000) then INT_MAX
      else (tv.tvSec * 1000 + (tv.tvUsec + 999) / 1000).toInt32.toInt

/--
`events_network_select`, with its return status.  What `poll` answers may
depend on the array and the timeout it is given.
-/
def eventsNetworkSelect (allocs : Allocs)
    (poll : List Pollfd → Int → PollResult) (tv : Option Timeval)
    (net : Network ε) : Int × Network ε :=
  let (status, net) := init allocs net
  if status ≠ 0 then (-1, net)
  else
    match poll net.fds (pollTimeout tv) with
    | .failed => (-1, net)
    | .interrupted => (0, { net with fdscanpos := sizePred net.nfds })
    | .ready revents =>
        let fds := net.fds.map fun pfd => { pfd with revents := revents pfd.fd }
        (0, { net with fds, fdscanpos := sizePred net.nfds })

/-- Expand `POLLERR` and `POLLHUP` to whatever events we have. -/
def expandErrors (pfd : Pollfd) : Pollfd :=
  if pfd.revents.pollerr || pfd.revents.pollhup then
    { pfd with
      revents := { pfd.revents with pollerr := false, pollhup := false }.union
        pfd.events }
  else pfd

/-- Take the event of an operation from the descriptor at a position. -/
def takeEvent (net : Network ε) (pos : Nat) (op : NetworkOp) :
    Option ε × Network ε :=
  let fd := (net.pollfd pos).fd
  let r := (net.sock fd).event op
  let net := net.modifySock fd fun rec => rec.setEvent op none
  (r, clearbit net pos op)

/--
The body of the loop of `events_network_get` at a position.  It has no result
if it fails an assertion; `inr` continues the scan, `inl` breaks out of it.
-/
def scanAt (net : Network ε) (pos : Nat) :
    Option ((Option ε × Network ε) ⊕ Network ε) :=
  if (net.pollfd pos).revents.pollnval then none
  else
    let pfd := expandErrors (net.pollfd pos)
    let net := net.setPollfd pos pfd
    if pfd.revents.has .read then some (.inl (takeEvent net pos .read))
    else if pfd.revents.has .write then some (.inl (takeEvent net pos .write))
    else some (.inr net)

/-- The loop of `events_network_get`, from a position downwards. -/
def scanFrom : Nat → Network ε → Option (Option ε × Network ε)
  | pos, net =>
      if pos < net.nfds then
        match scanAt net pos with
        | none => none
        | some (.inl (r, net)) => some (r, { net with fdscanpos := pos })
        | some (.inr net) =>
            match pos with
            | 0 => some (none, { net with fdscanpos := SIZE_MAX })
            | pos + 1 => scanFrom pos net
      else some (none, { net with fdscanpos := pos })

/-- `events_network_get`. -/
def eventsNetworkGet (net : Network ε) : Option (Option ε × Network ε) :=
  scanFrom net.fdscanpos net

end Libcperciva.Events.NetworkModel
