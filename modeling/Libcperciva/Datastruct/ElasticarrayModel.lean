import Libcperciva.Lib.Buffer
import Mathlib.Algebra.Group.Nat.Defs

/-!
# The elastic array, `datastruct/elasticarray.c`

`size_t` has `w` bits; its values are natural numbers below `2 ^ w`, and the
products that are computed before they are checked wrap.

The outcome of an allocation is `none` if it fails, and otherwise says what
the new bytes are.
-/

namespace Libcperciva.Datastruct.ElasticarrayModel

open Libcperciva.Lib.Buffer

/-- `SIZE_MAX`. -/
def sizeMax (w : Nat) : Nat := 2 ^ w - 1

/-- `struct elasticarray`. -/
structure Elasticarray where
  size : Nat
  alloc : Nat
  buf : Option (List UInt8)

/-- How the functions go wrong. -/
inductive ElasticarrayFault where
  /-- The assertion `reclen > 0`. -/
  | reclen
  /-- The assertion `nsize == 0`. -/
  | resize
  /-- The assertion `nsize > 0`. -/
  | append
  /-- Bytes are copied to NULL. -/
  | null
deriving DecidableEq

/-- The bytes of an allocation. -/
abbrev Malloc := Option (Nat → UInt8)

/-- The buffer after `realloc` to a length has succeeded. -/
def reallocated (memory : Nat → UInt8) (buf : Option (List UInt8))
    (n : Nat) : List UInt8 :=
  let old := buf.getD []
  old.take n ++ (List.range (n - old.length)).map memory

/-- How large an allocation `resize` wants. -/
def newAlloc (w : Nat) (EA : Elasticarray) (nsize : Nat) : Nat :=
  if EA.alloc < nsize then
    let nalloc := EA.alloc * 2 % 2 ^ w
    if nalloc < nsize then nsize else nalloc
  else if EA.alloc / 4 > nsize then
    nsize * 2 % 2 ^ w
  else EA.alloc

/-- `resize`. -/
def resize (w : Nat) (realloc : Malloc) (EA : Elasticarray) (nsize : Nat) :
    Except ElasticarrayFault (Int × Elasticarray) :=
  let nalloc := newAlloc w EA nsize
  if nalloc = 0 then
    if ¬ nsize = 0 then .error .resize
    else .ok (0, { size := nsize, alloc := 0, buf := none })
  else if nalloc ≠ EA.alloc then
    match realloc with
    | none => .ok (-1, EA)
    | some memory =>
        .ok (0, {
          size := nsize
          alloc := nalloc
          buf := some (reallocated memory EA.buf nalloc) })
  else .ok (0, { EA with size := nsize })

/-- `elasticarray_resize`. -/
def elasticarrayResize (w : Nat) (realloc : Malloc) (EA : Elasticarray)
    (nrec reclen : Nat) : Except ElasticarrayFault (Int × Elasticarray) :=
  if nrec > sizeMax w / reclen then .ok (-1, EA)
  else resize w realloc EA (nrec * reclen % 2 ^ w)

/-- `elasticarray_init`; `none` is NULL. -/
def elasticarrayInit (w : Nat) (malloc : Bool) (realloc : Malloc)
    (nrec reclen : Nat) : Except ElasticarrayFault (Option Elasticarray) :=
  if ¬ reclen > 0 then .error .reclen
  else if !malloc then .ok none
  else do
    let EA := { size := 0, alloc := 0, buf := none }
    let (status, EA) ← elasticarrayResize w realloc EA nrec reclen
    .ok (if status ≠ 0 then none else some EA)

/-- `elasticarray_getsize`. -/
def elasticarrayGetsize (EA : Elasticarray) (reclen : Nat) : Nat :=
  EA.size / reclen

/-- `memcpy` into the buffer, at a position. -/
def copyIn (EA : Elasticarray) (pos : Nat) (bytes : List UInt8) :
    Except ElasticarrayFault Elasticarray :=
  match EA.buf with
  | none => .error .null
  | some buf => .ok { EA with buf := some (write buf pos bytes) }

/-- `elasticarray_append`. -/
def elasticarrayAppend (w : Nat) (realloc : Malloc) (EA : Elasticarray)
    (buf : List UInt8) (nrec reclen : Nat) :
    Except ElasticarrayFault (Int × Elasticarray) :=
  let bufpos := EA.size
  if nrec > sizeMax w / reclen ∨
      nrec * reclen % 2 ^ w > sizeMax w - EA.size then .ok (-1, EA)
  else do
    let nsize := (EA.size + nrec * reclen) % 2 ^ w
    let (status, EA) ← resize w realloc EA nsize
    if status ≠ 0 then .ok (-1, EA)
    else if nrec > 0 then
      if ¬ nsize > 0 then .error .append
      else do
        let EA ← copyIn EA bufpos (buf.take (nrec * reclen % 2 ^ w))
        .ok (0, EA)
    else .ok (0, EA)

/-- `elasticarray_shrink`. -/
def elasticarrayShrink (w : Nat) (realloc : Malloc) (EA : Elasticarray)
    (nrec reclen : Nat) : Except ElasticarrayFault Elasticarray := do
  let nsize :=
    if nrec > sizeMax w / reclen ∨ nrec * reclen % 2 ^ w > EA.size then 0
    else EA.size - nrec * reclen % 2 ^ w
  let (status, EA) ← resize w realloc EA nsize
  if status ≠ 0 then .ok { EA with size := nsize } else .ok EA

/-- `elasticarray_truncate`. -/
def elasticarrayTruncate (realloc : Malloc) (EA : Elasticarray) :
    Int × Elasticarray :=
  if EA.size = 0 then (0, { EA with buf := none, alloc := 0 })
  else if EA.alloc > EA.size then
    match realloc with
    | none => (-1, EA)
    | some memory =>
        (0, { EA with
          buf := some (reallocated memory EA.buf EA.size)
          alloc := EA.size })
  else (0, EA)

/-- `elasticarray_get`: the position of a record in the buffer. -/
def elasticarrayGet (w pos reclen : Nat) : Nat := pos * reclen % 2 ^ w

/-- `elasticarray_exportdup`: the status, the buffer and the number of
records. -/
def elasticarrayExportdup (malloc : Bool) (EA : Elasticarray)
    (reclen : Nat) : Int × Option (List UInt8) × Nat :=
  if EA.size = 0 then (0, none, elasticarrayGetsize EA reclen)
  else if !malloc then (-1, none, 0)
  else
    let copy := (EA.buf.getD []).take EA.size
    (0, some copy, elasticarrayGetsize EA reclen)

end Libcperciva.Datastruct.ElasticarrayModel
