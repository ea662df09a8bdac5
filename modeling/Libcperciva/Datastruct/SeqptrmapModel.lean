import Libcperciva.Datastruct.ElasticqueueModel
import Mathlib.Algebra.Group.Int.Defs

/-!
# The sequential pointer map, `datastruct/seqptrmap.c`

A pointer is the list of its `sizeofPtr` bytes.  An `int64_t` is an integer
between `INT64_MIN` and `INT64_MAX`.
-/

namespace Libcperciva.Datastruct.SeqptrmapModel

open Libcperciva.Datastruct.ElasticarrayModel
open Libcperciva.Datastruct.ElasticqueueModel

/-- `INT64_MAX`. -/
def int64Max : Int := 2 ^ 63 - 1

/-- The values of an `int64_t`. -/
def IsInt64 (i : Int) : Prop := -2 ^ 63 ≤ i ∧ i ≤ int64Max

/-- Conversion to `uint64_t`. -/
def toUint64 (i : Int) : Nat := (i % 2 ^ 64).toNat

/-- Conversion to `size_t`. -/
def toSize (w : Nat) (i : Int) : Nat := (i % 2 ^ w).toNat

/-- `NULL`. -/
def null (sizeofPtr : Nat) : List UInt8 := List.replicate sizeofPtr 0

/-- `struct seqptrmap`. -/
structure Seqptrmap where
  ptrs : Elasticqueue
  offset : Int
  len : Nat

/-- How the functions go wrong. -/
inductive SeqptrmapFault where
  /-- The elastic queue does. -/
  | queue (fault : ElasticarrayFault)
  /-- The assertion `M->len <= (uint64_t)INT64_MAX`. -/
  | len
  /-- The assertion `INT64_MAX - (int64_t)M->len >= M->offset`. -/
  | overflow
  /-- What `elasticqueue_get` returned is NULL, and is dereferenced. -/
  | deref
  /-- The loop does not end. -/
  | loop

/-- A call of the elastic queue. -/
def queue {α : Type} : Except ElasticarrayFault α → Except SeqptrmapFault α
  | .error fault => .error (.queue fault)
  | .ok result => .ok result

/-- `seqptrmap_init`; `none` is NULL. -/
def seqptrmapInit (w sizeofPtr : Nat) (malloc queueMalloc arrayMalloc : Bool)
    (realloc : Malloc) : Except SeqptrmapFault (Option Seqptrmap) :=
  if !malloc then .ok none
  else do
    let ptrs ←
      queue (elasticqueueInit w queueMalloc arrayMalloc realloc sizeofPtr)
    match ptrs with
    | none => .ok none
    | some ptrs => .ok (some { ptrs, offset := 0, len := 0 })

/-- `seqptrmap_add`. -/
def seqptrmapAdd (w : Nat) (realloc : Malloc) (M : Seqptrmap)
    (ptr : List UInt8) : Except SeqptrmapFault (Int × Seqptrmap) := do
  let (status, ptrs) ← queue (elasticqueueAdd w realloc M.ptrs ptr)
  if status ≠ 0 then .ok (-1, { M with ptrs })
  else
    let len := (M.len + 1) % 2 ^ w
    -- Check for overflow; the first check is there if `size_t` is that large.
    if sizeMax w > int64Max ∧ ¬ len ≤ int64Max then .error .len
    else if ¬ int64Max - len ≥ M.offset then .error .overflow
    else .ok (M.offset + len - 1, { M with ptrs, len })

/-- Dereference what `elasticqueue_get` returns. -/
def deref (w : Nat) (ptrs : Elasticqueue) (pos : Nat) :
    Except SeqptrmapFault Nat :=
  match elasticqueueGet w ptrs pos with
  | none => .error .deref
  | some ptr => .ok ptr

/-- `seqptrmap_get`. -/
def seqptrmapGet (w sizeofPtr : Nat) (M : Seqptrmap) (i : Int) :
    Except SeqptrmapFault (List UInt8) :=
  if i < M.offset then .ok (null sizeofPtr)
  else if toUint64 (i - M.offset) ≥ M.len then .ok (null sizeofPtr)
  else do
    let pos ← deref w M.ptrs (toSize w (i - M.offset))
    .ok (recordAt M.ptrs pos)

/-- `seqptrmap_getmin`. -/
def seqptrmapGetmin (M : Seqptrmap) : Int :=
  if elasticqueueGetlen M.ptrs = 0 then -1 else M.offset

/-- Delete leading NULLs from the queue, with the outcomes of the allocations
of the turns.  The first argument is the number of turns after which the loop
has ended. -/
def deleteNulls (w sizeofPtr : Nat) :
    Nat → (Nat → Malloc) → Seqptrmap → Except SeqptrmapFault Seqptrmap
  | turns, realloc, M =>
      if elasticqueueGetlen M.ptrs > 0 then do
        let pos ← deref w M.ptrs 0
        if recordAt M.ptrs pos = null sizeofPtr then
          match turns with
          | 0 => .error .loop
          | turns + 1 => do
              let ptrs ← queue (elasticqueueDelete w (realloc 0) M.ptrs)
              deleteNulls w sizeofPtr turns (fun turn => realloc (turn + 1))
                { ptrs
                  offset := M.offset + 1
                  len := (M.len + (2 ^ w - 1)) % 2 ^ w }
        else .ok M
      else .ok M

/-- `seqptrmap_delete`. -/
def seqptrmapDelete (w sizeofPtr : Nat) (realloc : Nat → Malloc)
    (M : Seqptrmap) (i : Int) : Except SeqptrmapFault Seqptrmap :=
  if i < M.offset then .ok M
  else if toUint64 (i - M.offset) ≥ M.len then .ok M
  else do
    let pos ← deref w M.ptrs (toSize w (i - M.offset))
    let EA ← queue (copyIn M.ptrs.EA pos (null sizeofPtr))
    let M := { M with ptrs := { M.ptrs with EA } }
    deleteNulls w sizeofPtr (elasticqueueGetlen M.ptrs) realloc M

end Libcperciva.Datastruct.SeqptrmapModel
