import Libcperciva.Lib.Buffer
import Libcperciva.Util.SizeT

/-!
# Reading from a socket, `network/network_read.c`

The buffer that is read into is the caller's; a cookie knows a position in it.
What `recv` answers is a parameter, and so are the outcomes of the allocations
and of the registration of the network event.
-/

namespace Libcperciva.Network.ReadModel

open Libcperciva.Lib.Buffer
open Libcperciva.Util.SizeT

/-- `struct network_read_cookie`, without the callback and the descriptor. -/
structure NetworkReadCookie where
  /-- The position of the buffer in the memory of the caller. -/
  buf : Nat
  buflen : Nat
  minlen : Nat
  bufpos : Nat
deriving DecidableEq

/-- What `recv` answers. -/
inductive Recv where
  | data (bytes : List UInt8)
  /-- `EAGAIN`, `EWOULDBLOCK` or `EINTR`. -/
  | again
  | eof
  | error
deriving DecidableEq

/-- The bytes that `recv` returns. -/
def recvBytes : Recv → List UInt8
  | .data bytes => bytes
  | .again | .eof | .error => []

/-- The assertions of the file. -/
inductive ReadAssert where
  /-- `buflen != 0` -/
  | nonempty
  /-- `buflen <= SSIZE_MAX` -/
  | fits
  /-- `C->bufpos <= SSIZE_MAX` -/
  | position
deriving DecidableEq

/-- The outcomes of what `network_read` calls. -/
structure ReadAllocs where
  cookie : Bool := true
  register : Bool := true

/-- `network_read`; `none` is NULL. -/
def networkRead (allocs : ReadAllocs) (buf buflen minread : Nat) :
    Except ReadAssert (Option NetworkReadCookie) :=
  if ¬ buflen ≠ 0 then .error .nonempty
  else if ¬ buflen ≤ SSIZE_MAX then .error .fits
  else if !allocs.cookie then .ok none
  else if !allocs.register then .ok none
  else .ok (some ⟨buf, buflen, minread, 0⟩)

/-- How `callback_buf` ends. -/
inductive ReadResult where
  /-- It waits for the socket to be readable again. -/
  | waits (C : NetworkReadCookie)
  /-- It invokes the callback. -/
  | calls (lenread : Int)

/-- Reset the event. -/
def tryagain (registered : Bool) (C : NetworkReadCookie) : ReadResult :=
  if registered then .waits C else .calls (-1)

/-- `callback_buf`, with the memory after it. -/
def callbackBuf (registered : Bool) (recv : Recv) (C : NetworkReadCookie)
    (memory : List UInt8) : Except ReadAssert (ReadResult × List UInt8) :=
  match recv with
  | .error => .ok (.calls (-1), memory)
  | .again => .ok (tryagain registered C, memory)
  | .eof => .ok (.calls 0, memory)
  | .data bytes =>
      let memory := write memory (C.buf + C.bufpos) bytes
      let C := { C with bufpos := sizeAdd C.bufpos bytes.length }
      if C.bufpos < C.minlen then .ok (tryagain registered C, memory)
      else if ¬ C.bufpos ≤ SSIZE_MAX then .error .position
      else .ok (.calls C.bufpos, memory)

/-- What `recv` can answer: at most as many bytes as are asked for. -/
def Recv.Fits (recv : Recv) (C : NetworkReadCookie) : Prop :=
  ∀ bytes, recv = .data bytes →
    bytes ≠ [] ∧ bytes.length ≤ sizeSub C.buflen C.bufpos

end Libcperciva.Network.ReadModel
