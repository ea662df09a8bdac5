import Libcperciva.Lib.Buffer
import Libcperciva.Util.SizeT

/-!
# Writing to a socket, `network/network_write.c`

The buffer that is written is the caller's; a cookie knows its address.  What
`send` answers is a parameter, and so are the outcomes of the allocations and
of the registration of the network event.
-/

namespace Libcperciva.Network.WriteModel

open Libcperciva.Util.SizeT

/-- `struct network_write_cookie`, without the callback and the descriptor. -/
structure NetworkWriteCookie where
  /-- The address of the buffer. -/
  buf : Nat
  buflen : Nat
  minlen : Nat
  bufpos : Nat
deriving DecidableEq

/-- What `send` answers. -/
inductive Send where
  | sent (len : Nat)
  /-- `EAGAIN`, `EWOULDBLOCK` or `EINTR`. -/
  | again
  | error
deriving DecidableEq

/-- The assertions of the file. -/
inductive WriteAssert where
  /-- `buflen != 0` -/
  | nonempty
  /-- `buflen <= SSIZE_MAX` -/
  | fits
  /-- `len != 0` -/
  | sendZero
  /-- `C->bufpos <= SSIZE_MAX` -/
  | position
deriving DecidableEq

/-- The outcomes of what `network_write` calls. -/
structure WriteAllocs where
  cookie : Bool := true
  register : Bool := true

/-- `network_write`; `none` is NULL. -/
def networkWrite (allocs : WriteAllocs) (buf buflen minwrite : Nat) :
    Except WriteAssert (Option NetworkWriteCookie) :=
  if ¬ buflen ≠ 0 then .error .nonempty
  else if ¬ buflen ≤ SSIZE_MAX then .error .fits
  else if !allocs.cookie then .ok none
  else if !allocs.register then .ok none
  else .ok (some ⟨buf, buflen, minwrite, 0⟩)

/-- How `callback_buf` ends. -/
inductive WriteResult where
  /-- It waits for the socket to be writable again. -/
  | waits (C : NetworkWriteCookie)
  /-- It invokes the callback. -/
  | calls (lenwrit : Int)

/-- Reset the event. -/
def tryagain (registered : Bool) (C : NetworkWriteCookie) : WriteResult :=
  if registered then .waits C else .calls (-1)

/-- `callback_buf`. -/
def callbackBuf (registered : Bool) (send : Send) (C : NetworkWriteCookie) :
    Except WriteAssert WriteResult :=
  match send with
  | .error => .ok (.calls (-1))
  | .again => .ok (tryagain registered C)
  | .sent len =>
      if ¬ len ≠ 0 then .error .sendZero
      else
        let C := { C with bufpos := sizeAdd C.bufpos len }
        if C.bufpos < C.minlen then .ok (tryagain registered C)
        else if ¬ C.bufpos ≤ SSIZE_MAX then .error .position
        else .ok (.calls C.bufpos)

/-- What `send` can answer: it sends something, but not too much. -/
def Send.Fits (send : Send) (C : NetworkWriteCookie) : Prop :=
  ∀ len, send = .sent len → 0 < len ∧ len ≤ sizeSub C.buflen C.bufpos

end Libcperciva.Network.WriteModel
