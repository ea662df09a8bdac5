import Libcperciva.Lib.Buffer
import Libcperciva.Lib.Gf2

/-!
# CRC32C, `alg/crc32c.c`

This file also models `crc32c_sse42.c` and `crc32c_arm.c`.  The instructions
are given by the definition in the manuals of the processors: a remainder of
reflected polynomials.  A load reads the least significant byte first.
-/

namespace Libcperciva.Alg.Crc32cModel

open Libcperciva.Lib.Buffer
open Libcperciva.Lib.Gf2

/-- A table of 256 words. -/
abbrev Table := Fin 256 → UInt32

/-- `T0` to `T3`. -/
structure Tables where
  T0 : Table
  T1 : Table
  T2 : Table
  T3 : Table

/-- The static variables. -/
structure Statics where
  initdone : Bool
  tables : Tables

/-- How the functions go wrong. -/
inductive Crc32cFault where
  /-- The assertion `T0[0x80] == T_0_0x80`. -/
  | table
  /-- The assertion `len >= 8`. -/
  | len
  /-- The assertion that a block is aligned. -/
  | aligned
  /-- The assertion `(len - i) < 8`. -/
  | remaining
deriving DecidableEq

/-- `T_0_0x80`. -/
def T_0_0x80 : UInt32 := 0x82f63b78

/-! ## Tables -/

/-- `reverse`. -/
def reverse (x : UInt32) : UInt32 :=
  let x := (x &&& 0xffff0000) >>> 16 ||| (x &&& 0x0000ffff) <<< 16
  let x := (x &&& 0xff00ff00) >>> 8 ||| (x &&& 0x00ff00ff) <<< 8
  let x := (x &&& 0xf0f0f0f0) >>> 4 ||| (x &&& 0x0f0f0f0f) <<< 4
  let x := (x &&& 0xcccccccc) >>> 2 ||| (x &&& 0x33333333) <<< 2
  (x &&& 0xaaaaaaaa) >>> 1 ||| (x &&& 0x55555555) <<< 1

/-- Shift left one bit. -/
def shiftBit (r : UInt32) : UInt32 :=
  if r &&& 0x80000000 ≠ 0 then r <<< 1 ^^^ 0x1EDC6F41 else r <<< 1

/-- `times256`. -/
def times256 (r : UInt32) : UInt32 := shiftBit^[8] r

/-- `init`. -/
def init : Except Crc32cFault Tables :=
  let r0 : Table := fun i => times256 (reverse (UInt32.ofNat i))
  let r1 : Table := fun i => times256 (r0 i)
  let r2 : Table := fun i => times256 (r1 i)
  let r3 : Table := fun i => times256 (r2 i)
  let tables : Tables := {
    T0 := fun i => reverse (r0 i)
    T1 := fun i => reverse (r1 i)
    T2 := fun i => reverse (r2 i)
    T3 := fun i => reverse (r3 i) }
  if tables.T0 0x80 = T_0_0x80 then .ok tables else .error .table

/-- `CRC32C_Init`: the static variables and the state of the context. -/
def crc32cInit (statics : Statics) :
    Except Crc32cFault (Statics × UInt32) := do
  let statics ←
    if statics.initdone = false then do
      let tables ← init
      .ok { initdone := true, tables : Statics }
    else .ok statics
  .ok (statics, T_0_0x80)

/-! ## Software -/

/-- An element of a table. -/
def Table.at (T : Table) (i : UInt32) : UInt32 := T (Fin.ofNat 256 i.toNat)

/-- The loop over blocks of 4 bytes: the state and the bytes that are left. -/
def blocks (T : Tables) : UInt32 → List UInt8 → UInt32 × List UInt8
  | state, b0 :: b1 :: b2 :: b3 :: buf =>
      blocks T
        (T.T0.at ((state >>> 24 &&& 0xff) ^^^ b3.toUInt32) ^^^
          T.T1.at ((state >>> 16 &&& 0xff) ^^^ b2.toUInt32) ^^^
          T.T2.at ((state >>> 8 &&& 0xff) ^^^ b1.toUInt32) ^^^
          T.T3.at ((state &&& 0xff) ^^^ b0.toUInt32)) buf
  | state, buf => (state, buf)

/-- One turn of the loop over individual bytes. -/
def individual (T : Tables) (state : UInt32) (b0 : UInt8) : UInt32 :=
  state >>> 8 ^^^ T.T0.at ((state &&& 0xff) ^^^ b0.toUInt32)

/-! ## Instructions -/

/-- A number in memory. -/
def load (bytes : List UInt8) : Nat :=
  bytes.foldr (fun b rest => b.toNat + 256 * rest) 0

/-- The instruction for `w` bits. -/
def crc32 (w : Nat) (crc : UInt32) (v : Nat) : UInt32 :=
  UInt32.ofNat (reflect 32
    (mod2 0x11EDC6F41 32 w (reflect w v <<< 32 ^^^ reflect 32 crc.toNat <<< w)))

/-- The instruction for `n` bytes, with a number that is loaded from the
buffer. -/
def crc32At (n : Nat) (state : UInt32) (buf : List UInt8) (i : Nat) : UInt32 :=
  crc32 (8 * n) state (load (slice buf i n))

/-- The loops over single bytes, from `i` to `stop`. -/
def byteLoop (buf : List UInt8) (state : UInt32) (i stop : Nat) : UInt32 :=
  (List.range' i (stop - i)).foldl (fun state i => crc32At 1 state buf i) state

/-- The loop over blocks of 8: the state and `i`. -/
def blockLoop (block : UInt32 → List UInt8 → Nat → UInt32) (buf : List UInt8)
    (inBlock : Nat) (state : UInt32) (i : Nat) : UInt32 × Nat :=
  if i < inBlock then
    blockLoop block buf inBlock (block state buf i) (i + 8)
  else (state, i)
termination_by inBlock - i

/-- `CRC32C_Update_SSE42` and `CRC32C_Update_ARM`, with what they do with a
block of 8 bytes.  The buffer is at the address `addr`. -/
def updateHardware (block : UInt32 → List UInt8 → Nat → UInt32)
    (state : UInt32) (addr : UInt64) (buf : List UInt8) :
    Except Crc32cFault UInt32 :=
  let len := buf.length
  if ¬ len ≥ 8 then .error .len
  else
    let preBlock := ((8 - addr) &&& 7).toNat
    let remainingBytes := len - preBlock
    let inBlock := remainingBytes - remainingBytes % 8
    let state := byteLoop buf state 0 preBlock
    let i := preBlock
    if i < inBlock ∧ ¬ (addr + UInt64.ofNat i) &&& 7 = 0 then .error .aligned
    else
      let (state, i) := blockLoop block buf inBlock state i
      if ¬ (2 ^ 64 + len - i) % 2 ^ 64 < 8 then .error .remaining
      else .ok (byteLoop buf state i len)

/-- `CRC32C_Update_SSE42`, with 64-bit instructions or without. -/
def updateSse42 (sse42_64 : Bool) :
    UInt32 → UInt64 → List UInt8 → Except Crc32cFault UInt32 :=
  updateHardware fun state buf i =>
    if sse42_64 then crc32At 8 state buf i
    else
      let state := crc32At 4 state buf i
      crc32At 4 state buf (i + 4)

/-- `CRC32C_Update_ARM`. -/
def updateArm : UInt32 → UInt64 → List UInt8 → Except Crc32cFault UInt32 :=
  updateHardware (crc32At 8)

/-! ## The interface -/

/-- `hwaccel`. -/
inductive Hwaccel where
  | software
  | x86Crc32 (sse42_64 : Bool)
  | armCrc32
deriving DecidableEq

/-- `CRC32C_Update`. -/
def crc32cUpdate (T : Tables) (hwaccel : Hwaccel) (state : UInt32)
    (addr : UInt64) (buf : List UInt8) : Except Crc32cFault UInt32 :=
  match decide (buf.length ≥ 8), hwaccel with
  | true, .x86Crc32 sse42_64 => updateSse42 sse42_64 state addr buf
  | true, .armCrc32 => updateArm state addr buf
  | _, _ =>
      let (state, buf) := blocks T state buf
      .ok (buf.foldl (individual T) state)

/-- `CRC32C_Final`. -/
def crc32cFinal (state : UInt32) : List UInt8 :=
  [(state &&& 0xff).toUInt8, (state >>> 8 &&& 0xff).toUInt8,
    (state >>> 16 &&& 0xff).toUInt8, (state >>> 24 &&& 0xff).toUInt8]

/-- A call of `CRC32C_Update`. -/
structure Call where
  hwaccel : Hwaccel
  addr : UInt64
  buf : List UInt8

/-- Calls of `CRC32C_Update`, one after the other. -/
def updates (T : Tables) : UInt32 → List Call → Except Crc32cFault UInt32
  | state, [] => .ok state
  | state, call :: calls => do
      let state ← crc32cUpdate T call.hwaccel state call.addr call.buf
      updates T state calls

/-- A checksum: `CRC32C_Init`, some updates and `CRC32C_Final`. -/
def checksum (statics : Statics) (calls : List Call) :
    Except Crc32cFault (List UInt8) := do
  let (statics, state) ← crc32cInit statics
  let state ← updates statics.tables state calls
  .ok (crc32cFinal state)

end Libcperciva.Alg.Crc32cModel
