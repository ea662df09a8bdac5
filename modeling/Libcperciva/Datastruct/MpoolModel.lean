import Libcperciva.Lib.Buffer
import Mathlib.Algebra.Group.Nat.Defs

/-!
# The memory pool, `datastruct/mpool.h`

A pointer is a number, and NULL is 0.  `size_t` has `w` bits, and a pointer
has `sizeofPtr` bytes.  The heap is the list of the blocks that `malloc`
returned and that were not passed to `free`.
-/

namespace Libcperciva.Datastruct.MpoolModel

open Libcperciva.Lib.Buffer

/-- `struct mpool`.  `slots` is the array `allocs` points to. -/
structure Mpool where
  stacklen : Nat
  allocsize : Nat
  allocs : Nat
  slots : List Nat
  nallocs : Nat
  nempties : Nat
  state : Nat
  allocsStatic : Nat
deriving DecidableEq

/-- How the functions go wrong. -/
inductive MpoolFault where
  /-- The assertion `M->allocsize > 0`. -/
  | allocsize
  /-- An access outside of the array. -/
  | bounds
  /-- What is passed to `free` is not allocated. -/
  | free
deriving DecidableEq

/-! ## The heap -/

/-- The heap after `malloc` has returned. -/
def malloc (block : Nat) (heap : List Nat) : List Nat :=
  if block = 0 then heap else block :: heap

/-- `free`. -/
def free (p : Nat) (heap : List Nat) : Except MpoolFault (List Nat) :=
  if p = 0 then .ok heap
  else if p ∈ heap then .ok (heap.erase p)
  else .error .free

/-! ## The pool -/

/-- The pool `MPOOL` declares, with its static array. -/
def mpoolRec (size static : Nat) : Mpool where
  stacklen := 0
  allocsize := size
  allocs := static
  slots := List.replicate size 0
  nallocs := 0
  nempties := 0
  state := 0
  allocsStatic := static

/-- `M->allocs[i]`. -/
def getSlot (M : Mpool) (i : Nat) : Except MpoolFault Nat :=
  match M.slots[i]? with
  | none => .error .bounds
  | some p => .ok p

/-- `M->allocs[M->stacklen++] = p`. -/
def push (M : Mpool) (p : Nat) : Except MpoolFault Mpool :=
  if M.stacklen < M.slots.length then
    .ok { M with
      slots := M.slots.set M.stacklen p
      stacklen := M.stacklen + 1 }
  else .error .bounds

/-- Free the stack, if it was allocated. -/
def freeStack (M : Mpool) (heap : List Nat) :
    Except MpoolFault (List Nat) :=
  if M.allocs ≠ M.allocsStatic then free M.allocs heap else .ok heap

/-- The loop of `mpool_atexit`. -/
def freeItems (M : Mpool) :
    Nat → List Nat → Except MpoolFault (List Nat)
  | 0, heap => .ok heap
  | stacklen + 1, heap => do
      let p ← getSlot M stacklen
      let heap ← free p heap
      freeItems M stacklen heap

/-- `mpool_atexit`. -/
def mpoolAtexit (M : Mpool) (heap : List Nat) :
    Except MpoolFault (List Nat) := do
  let heap ← freeItems M M.stacklen heap
  freeStack M heap

/-- `mpool_malloc`, with the outcomes of `atexit` and of `malloc`. -/
def mpoolMalloc (atexit : Int) (block : Nat) (heap : List Nat) (M : Mpool) :
    Except MpoolFault (Nat × List Nat × Mpool) :=
  let M := { M with nallocs := (M.nallocs + 1) % 2 ^ 64 }
  if M.stacklen ≠ 0 then do
    let p ← getSlot M (M.stacklen - 1)
    .ok (p, heap, { M with stacklen := M.stacklen - 1 })
  else
    let M := { M with nempties := (M.nempties + 1) % 2 ^ 64 }
    if M.state = 0 then
      if atexit ≠ 0 then .ok (0, heap, M)
      else .ok (block, malloc block heap, { M with state := 1 })
    else .ok (block, malloc block heap, M)

/-- The new array of `mpool_free`, of which nothing is known behind the
pointers that are copied. -/
def doubled (M : Mpool) (memory : Nat → Nat) : List Nat :=
  M.slots.take M.allocsize ++ (List.range M.allocsize).map memory

/-- The autotuning of `mpool_free`. -/
def autotune (w sizeofPtr block : Nat) (memory : Nat → Nat)
    (heap : List Nat) (M : Mpool) (p : Nat) :
    Except MpoolFault (List Nat × Mpool) :=
  if M.nempties > M.nallocs / 2 ^ 8 then
    if ¬ M.allocsize > 0 then .error .allocsize
    else if M.allocsize ≤ (2 ^ w - 1) / (2 * sizeofPtr) ∧ block ≠ 0 then do
      let heap ← freeStack M (malloc block heap)
      let M ← push
        { M with
          slots := doubled M memory
          allocs := block
          allocsize := M.allocsize * 2 % 2 ^ w } p
      .ok (heap, M)
    else do
      let heap ← free p heap
      .ok (heap, M)
  else do
    let heap ← free p heap
    .ok (heap, M)

/-- `mpool_free`, with the outcome of `malloc` and what is in the new array. -/
def mpoolFree (w sizeofPtr block : Nat) (memory : Nat → Nat)
    (heap : List Nat) (M : Mpool) (p : Nat) :
    Except MpoolFault (List Nat × Mpool) :=
  if p = 0 then .ok (heap, M)
  else if M.stacklen < M.allocsize then do
    let M ← push M p
    .ok (heap, M)
  else do
    let (heap, M) ← autotune w sizeofPtr block memory heap M p
    .ok (heap, { M with nempties := 0, nallocs := 0 })

end Libcperciva.Datastruct.MpoolModel
