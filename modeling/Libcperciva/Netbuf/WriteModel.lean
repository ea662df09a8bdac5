import Libcperciva.Network.WriteModel
import Mathlib.Algebra.Group.Int.Defs
import Mathlib.Algebra.Group.Nat.Defs
import Mathlib.Logic.Function.Basic

/-!
# The buffered writer, `netbuf/netbuf_write.c`

A writer is attached to a socket.  Its write buffers live in a memory that
maps addresses to the buffers allocated there; the queue is a list of
addresses.  Next to its other results, a function that starts a write returns
the bytes it hands to `network_write`.
-/

namespace Libcperciva.Netbuf.WriteModel

open Libcperciva.Lib.Buffer
open Libcperciva.Util.SizeT
open Libcperciva.Network.WriteModel

/-- `WBUFLEN`. -/
def WBUFLEN : Nat := 4096

/-- `struct writebuf`. -/
structure Writebuf where
  buf : List UInt8
  buflen : Nat
  datalen : Nat

/-- The data in a buffer. -/
def Writebuf.data (WB : Writebuf) : List UInt8 := slice WB.buf 0 WB.datalen

/-- `struct netbuf_write`, with the write buffers. -/
structure NetbufWrite where
  reserved : Bool := false
  failed : Bool := false
  buffers : List Nat := []
  writeCookie : Option NetworkWriteCookie := none
  curr : Option Nat := none
  memory : Nat → Option Writebuf := fun _ => none

/-- The assertions which the functions of the writer run into. -/
inductive NetbufAssert where
  /-- `W->reserved == 0` in `writbuf` -/
  | writbufReserved
  /-- `W->write_cookie != NULL` in `writbuf` -/
  | writbufCookie
  /-- `W->curr != NULL` in `writbuf` -/
  | writbufCurr
  /-- `W->failed == 0` in `writbuf` -/
  | writbufFailed
  /-- `W->curr == NULL` in `poke` -/
  | pokeCurr
  /-- `W->reserved == 0` in `netbuf_write_reserve` -/
  | reserveReserved
  /-- `W->reserved == 1` in `netbuf_write_consume` -/
  | consumeReserved
  /-- `WB != NULL` in `netbuf_write_consume` -/
  | consumeBuffer
  /-- `WB->buflen - WB->datalen >= len` in `netbuf_write_consume` -/
  | consumeSpace
  /-- A buffer is used that is not allocated. -/
  | memory
  /-- An assertion of `network_write.c`. -/
  | network (assertion : WriteAssert)
deriving DecidableEq

/-- The outcomes of what the functions call. -/
structure WriterAllocs where
  /-- The address of a new write buffer. -/
  writebuf : Option Nat := some 0
  /-- What its bytes are at first. -/
  bytes : Option (Nat → UInt8) := some fun _ => 0
  write : WriteAllocs := {}
  /-- What the failure callback returns. -/
  failCallback : Int := 0

/-- The writer after a call that can start a write. -/
structure Poked where
  status : Int
  /-- The bytes handed to `network_write`. -/
  handed : Option (List UInt8)
  W : NetbufWrite

/-- `poke`. -/
def poke (allocs : WriterAllocs) (W : NetbufWrite) :
    Except NetbufAssert Poked :=
  match W.writeCookie, W.buffers with
  | none, first :: rest =>
      if W.failed then .ok ⟨0, none, W⟩
      else if ¬ W.curr = none then .error .pokeCurr
      else
        match W.memory first with
        | none => .error .memory
        | some WB =>
            match networkWrite allocs.write first WB.datalen WB.datalen with
            | .error assertion => .error (.network assertion)
            | .ok none => .ok ⟨-1, none, W⟩
            | .ok (some C) =>
                .ok ⟨0, some WB.data, { W with
                  writeCookie := some C
                  curr := some first
                  buffers := rest }⟩
  | _, _ => .ok ⟨0, none, W⟩

/-- `(size_t)(writelen)`. -/
def toSize (writelen : Int) : Nat := (writelen % 2 ^ 64).toNat

/-- `writbuf`; the flag says whether the failure callback is invoked. -/
def writbuf (allocs : WriterAllocs) (W : NetbufWrite) (writelen : Int) :
    Except NetbufAssert (Bool × Poked) :=
  if ¬ W.reserved = false then .error .writbufReserved
  else if ¬ W.writeCookie ≠ none then .error .writbufCookie
  else
    match W.curr with
    | none => .error .writbufCurr
    | some curr =>
        let W := { W with writeCookie := none, curr := none }
        if ¬ W.failed = false then .error .writbufFailed
        else
          match W.memory curr with
          | none => .error .memory
          | some WB =>
              let W := { W with
                failed := decide (toSize writelen ≠ WB.datalen)
                memory := Function.update W.memory curr none }
              if W.failed then .ok (true, ⟨allocs.failCallback, none, W⟩)
              else (poke allocs W).map fun poked => (false, poked)

/-- The length of a new buffer. -/
def newBuflen (len : Nat) : Nat := if len > WBUFLEN then len else WBUFLEN

/-- Add a new buffer to the queue, and return a pointer to it. -/
def addBuffer (allocs : WriterAllocs) (W : NetbufWrite) (len : Nat) :
    Option (Nat × Nat) × NetbufWrite :=
  match allocs.writebuf, allocs.bytes with
  | some WB, some bytes =>
      (some (WB, 0), { W with
        buffers := W.buffers ++ [WB]
        memory := Function.update W.memory WB
          (some ⟨(List.range (newBuflen len)).map bytes, newBuflen len, 0⟩) })
  | _, _ => (none, W)

/--
`netbuf_write_reserve`; the pointer it returns is the address of a write buffer
and a position in it.
-/
def netbufWriteReserve (allocs : WriterAllocs) (W : NetbufWrite)
    (len : Nat) : Except NetbufAssert (Option (Nat × Nat) × NetbufWrite) :=
  if ¬ W.reserved = false then .error .reserveReserved
  else
    let W := { W with reserved := true }
    match W.buffers.getLast? with
    | none => .ok (addBuffer allocs W len)
    | some last =>
        match W.memory last with
        | none => .error .memory
        | some WB =>
            if sizeSub WB.buflen WB.datalen ≥ len then
              .ok (some (last, WB.datalen), W)
            else .ok (addBuffer allocs W len)

/-- `netbuf_write_consume`. -/
def netbufWriteConsume (allocs : WriterAllocs) (W : NetbufWrite)
    (len : Nat) : Except NetbufAssert Poked :=
  if ¬ W.reserved = true then .error .consumeReserved
  else
    match W.buffers.getLast? with
    | none => .error .consumeBuffer
    | some last =>
        match W.memory last with
        | none => .error .memory
        | some WB =>
            if ¬ sizeSub WB.buflen WB.datalen ≥ len then .error .consumeSpace
            else
              let WB :=
                if W.failed = false then
                  { WB with datalen := sizeAdd WB.datalen len }
                else WB
              poke allocs { W with
                reserved := false
                memory := Function.update W.memory last (some WB) }

/-- Copy bytes to a pointer. -/
def copyTo (W : NetbufWrite) (pointer : Nat × Nat) (bytes : List UInt8) :
    NetbufWrite :=
  { W with
    memory := Function.update W.memory pointer.1
      ((W.memory pointer.1).map fun WB =>
        { WB with buf := write WB.buf pointer.2 bytes }) }

/-- `netbuf_write_write`. -/
def netbufWriteWrite (allocs : WriterAllocs) (W : NetbufWrite)
    (buf : List UInt8) : Except NetbufAssert Poked :=
  if W.failed then .ok ⟨0, none, W⟩
  else
    match netbufWriteReserve allocs W buf.length with
    | .error assertion => .error assertion
    | .ok (none, W) => .ok ⟨-1, none, W⟩
    | .ok (some wbuf, W) =>
        (netbufWriteConsume allocs (copyTo W wbuf buf) buf.length).map
          fun poked => { poked with
            status := if poked.status ≠ 0 then -1 else 0 }

end Libcperciva.Netbuf.WriteModel
