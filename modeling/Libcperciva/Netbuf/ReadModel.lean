import Libcperciva.Network.ReadModel

/-!
# The buffered reader, `netbuf/netbuf_read.c`

A reader is attached to a socket.  The callback of a wait, with its cookie, is
a value of a type `κ`; a function that invokes it returns it with the status
it is given.
-/

namespace Libcperciva.Netbuf.ReadModel

open Libcperciva.Lib.Buffer
open Libcperciva.Util.SizeT
open Libcperciva.Network.ReadModel

variable {κ : Type*}

/-- `struct netbuf_read`. -/
structure NetbufRead (κ : Type*) where
  callback : Option κ := none
  readCookie : Option NetworkReadCookie := none
  /-- Is an immediate event pending? -/
  immediateCookie : Bool := false
  buf : List UInt8
  buflen : Nat
  bufpos : Nat
  datalen : Nat

/-- The assertions which the functions of the reader run into. -/
inductive NetbufAssert where
  /-- `R->read_cookie == NULL` in `netbuf_read_wait` -/
  | waitReading
  /-- `R->immediate_cookie == NULL` in `netbuf_read_wait` -/
  | waitImmediate
  /-- `R->immediate_cookie != NULL` in `callback_success` -/
  | expecting
  /-- `R->read_cookie != NULL` in `callback_read` -/
  | reading
  /-- `R->datalen - R->bufpos >= len` in `netbuf_read_consume` -/
  | consume
  /-- An assertion of `network_read.c`. -/
  | network (assertion : ReadAssert)
deriving DecidableEq

/-- `netbuf_read_init`; the memory that is allocated is not initialized. -/
def netbufReadInit (memory : Nat → UInt8) : NetbufRead κ where
  buf := (List.range 4096).map memory
  buflen := 4096
  bufpos := 0
  datalen := 0

/-- `netbuf_read_peek`. -/
def netbufReadPeek (R : NetbufRead κ) : List UInt8 :=
  slice R.buf R.bufpos (sizeSub R.datalen R.bufpos)

/-- `netbuf_read_resize_buffer`; `none` is a failure. -/
def netbufReadResizeBuffer (malloc : Option (Nat → UInt8))
    (R : NetbufRead κ) (len : Nat) : Option (NetbufRead κ) :=
  let nbuflen := sizeMul R.buflen 2
  let nbuflen := if nbuflen < len then len else nbuflen
  malloc.map fun memory =>
    { R with
      buf := write ((List.range nbuflen).map memory) 0
        (slice R.buf R.bufpos (sizeSub R.datalen R.bufpos))
      buflen := nbuflen
      datalen := sizeSub R.datalen R.bufpos
      bufpos := 0 }

/-- Move data to start of buffer if needed. -/
def moveData (R : NetbufRead κ) (len : Nat) : NetbufRead κ :=
  if sizeSub R.buflen R.bufpos < len then
    { R with
      buf := write R.buf 0
        (slice R.buf R.bufpos (sizeSub R.datalen R.bufpos))
      datalen := sizeSub R.datalen R.bufpos
      bufpos := 0 }
  else R

/-- Resize the buffer if needed, and then move data if needed. -/
def makeRoom (malloc : Option (Nat → UInt8)) (R : NetbufRead κ)
    (len : Nat) : Option (NetbufRead κ) :=
  let resized :=
    if R.buflen < len then netbufReadResizeBuffer malloc R len else some R
  resized.map fun R => moveData R len

/-- What `netbuf_read_wait` passes to `network_read`. -/
structure ReadRequest where
  buf : Nat
  buflen : Nat
  minread : Nat

/-- The data to read into the buffer. -/
def readRequest (R : NetbufRead κ) (len : Nat) : ReadRequest where
  buf := R.datalen
  buflen := sizeSub R.buflen R.datalen
  minread := sizeSub (sizeAdd R.bufpos len) R.datalen

/-- The outcomes of what `netbuf_read_wait` calls. -/
structure WaitAllocs where
  immediate : Bool := true
  malloc : Option (Nat → UInt8) := some fun _ => 0
  read : ReadAllocs := {}

/-- `netbuf_read_wait`, with its return status. -/
def netbufReadWait (allocs : WaitAllocs) (R : NetbufRead κ) (len : Nat)
    (callback : κ) : Except NetbufAssert (Int × NetbufRead κ) :=
  if ¬ R.readCookie = none then .error .waitReading
  else if ¬ R.immediateCookie = false then .error .waitImmediate
  else
    let R := { R with callback := some callback }
    if sizeSub R.datalen R.bufpos ≥ len then
      if allocs.immediate then .ok (0, { R with immediateCookie := true })
      else .ok (-1, R)
    else
      match makeRoom allocs.malloc R len with
      | none => .ok (-1, R)
      | some R =>
          let request := readRequest R len
          match networkRead allocs.read request.buf request.buflen
              request.minread with
          | .error assertion => .error (.network assertion)
          | .ok none => .ok (-1, R)
          | .ok (some C) => .ok (0, { R with readCookie := some C })

/-- `callback_success`. -/
def callbackSuccess (R : NetbufRead κ) :
    Except NetbufAssert (NetbufRead κ × Option κ × Int) :=
  if ¬ R.immediateCookie ≠ false then .error .expecting
  else .ok ({ R with immediateCookie := false }, R.callback, 0)

/-- `callback_read`. -/
def callbackRead (R : NetbufRead κ) (lenread : Int) :
    Except NetbufAssert (NetbufRead κ × Option κ × Int) :=
  if ¬ R.readCookie ≠ none then .error .reading
  else
    let R := { R with readCookie := none }
    if lenread < 0 then .ok (R, R.callback, -1)
    else if lenread = 0 then .ok (R, R.callback, 1)
    else
      .ok ({ R with datalen := sizeAdd R.datalen lenread.toNat },
        R.callback, 0)

/--
The event loop finds the socket of a reader readable: what `callback_buf` does
for the reader's cookie, and the callback and its status if one is invoked.
-/
def callbackReadable (registered : Bool) (recv : Recv) (R : NetbufRead κ)
    (C : NetworkReadCookie) :
    Except NetbufAssert (NetbufRead κ × Option (Option κ × Int)) :=
  match callbackBuf registered recv C R.buf with
  | .error assertion => .error (.network assertion)
  | .ok (.waits C, buf) => .ok ({ R with buf, readCookie := some C }, none)
  | .ok (.calls lenread, buf) =>
      match callbackRead { R with buf } lenread with
      | .error assertion => .error assertion
      | .ok (R, called) => .ok (R, some called)

/-- `netbuf_read_wait_cancel`. -/
def netbufReadWaitCancel (R : NetbufRead κ) : NetbufRead κ :=
  { R with readCookie := none, immediateCookie := false }

/-- `netbuf_read_consume`. -/
def netbufReadConsume (R : NetbufRead κ) (len : Nat) :
    Except NetbufAssert (NetbufRead κ) :=
  if ¬ sizeSub R.datalen R.bufpos ≥ len then .error .consume
  else .ok { R with bufpos := sizeAdd R.bufpos len }

end Libcperciva.Netbuf.ReadModel
