import Libcperciva.Datastruct.ElasticarrayModel

/-!
# The elastic queue, `datastruct/elasticqueue.c`

The queue is kept in an elastic array.  Its records start at a moving offset;
`elasticqueue_delete` moves them to the front of the array when less than half
of the array is in use.
-/

namespace Libcperciva.Datastruct.ElasticqueueModel

open Libcperciva.Lib.Buffer
open Libcperciva.Datastruct.ElasticarrayModel

/-- `struct elasticqueue`. -/
structure Elasticqueue where
  EA : Elasticarray
  offset : Nat
  len : Nat
  reclen : Nat

/-- `elasticqueue_init`; `none` is NULL. -/
def elasticqueueInit (w : Nat) (malloc arrayMalloc : Bool)
    (realloc : Malloc) (reclen : Nat) :
    Except ElasticarrayFault (Option Elasticqueue) :=
  if ¬ reclen > 0 then .error .reclen
  else if !malloc then .ok none
  else do
    let EA ← elasticarrayInit w arrayMalloc realloc 0 reclen
    match EA with
    | none => .ok none
    | some EA => .ok (some { EA, offset := 0, len := 0, reclen })

/-- `elasticqueue_add`. -/
def elasticqueueAdd (w : Nat) (realloc : Malloc) (EQ : Elasticqueue)
    (rec : List UInt8) : Except ElasticarrayFault (Int × Elasticqueue) := do
  let (status, EA) ← elasticarrayAppend w realloc EQ.EA rec 1 EQ.reclen
  if status ≠ 0 then .ok (-1, { EQ with EA })
  else .ok (0, { EQ with EA, len := (EQ.len + 1) % 2 ^ w })

/-- `memcpy` between two positions of the buffer. -/
def copyWithin (EA : Elasticarray) (newpos oldpos n : Nat) :
    Except ElasticarrayFault Elasticarray :=
  copyIn EA newpos (slice (EA.buf.getD []) oldpos n)

/-- The first `n` turns of the loop that moves records to the front. -/
def moveRecords (w : Nat) (EA : Elasticarray) (offset reclen : Nat) :
    Nat → Except ElasticarrayFault Elasticarray
  | 0 => .ok EA
  | i + 1 => do
      let EA ← moveRecords w EA offset reclen i
      let newpos := elasticarrayGet w i reclen
      let oldpos := elasticarrayGet w ((i + offset) % 2 ^ w) reclen
      copyWithin EA newpos oldpos reclen

/-- `elasticqueue_delete`. -/
def elasticqueueDelete (w : Nat) (realloc : Malloc) (EQ : Elasticqueue) :
    Except ElasticarrayFault Elasticqueue :=
  if EQ.len = 0 then .ok EQ
  else
    let offset := (EQ.offset + 1) % 2 ^ w
    let len := EQ.len - 1
    if offset > len then do
      let EA ← moveRecords w EQ.EA offset EQ.reclen len
      let EA ← elasticarrayShrink w realloc EA offset EQ.reclen
      .ok { EQ with EA, offset := 0, len }
    else .ok { EQ with offset, len }

/-- `elasticqueue_getlen`. -/
def elasticqueueGetlen (EQ : Elasticqueue) : Nat := EQ.len

/-- `elasticqueue_get`: a position in the buffer; `none` is NULL. -/
def elasticqueueGet (w : Nat) (EQ : Elasticqueue) (pos : Nat) : Option Nat :=
  if pos ≥ EQ.len then none
  else some (elasticarrayGet w ((pos + EQ.offset) % 2 ^ w) EQ.reclen)

/-- The record at a position in the buffer. -/
def recordAt (EQ : Elasticqueue) (pos : Nat) : List UInt8 :=
  slice (EQ.EA.buf.getD []) pos EQ.reclen

end Libcperciva.Datastruct.ElasticqueueModel
