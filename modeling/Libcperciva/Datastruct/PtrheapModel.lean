import Mathlib.Data.Multiset.AddSub
import Mathlib.Tactic.Common

/-!
# The pointer heap of `datastruct/ptrheap.c`

A heap is an elastic array `elems` of pointers and their number `nelems`.
Pointers are the values of a type `α`; the default value stands for whatever
is read outside the array.  The comparison function is passed to each
operation rather than stored, because what it answers depends on the records
behind the pointers, which the caller changes between calls.

Every routine returns, next to the array, the calls it makes to
`setreccookie`, oldest first.  A heap created without a `setreccookie`
function makes none.
-/

namespace Libcperciva.Datastruct.PtrheapModel

variable {α : Type*} [Inhabited α]

/-! ## The elastic array of pointers -/

/-- `*ptrlist_get(elems, pos)`, as a value. -/
def ptrlistGet (elems : List α) (pos : Nat) : α := elems.getD pos default

/-- `*ptrlist_get(elems, pos) = ptr`. -/
def ptrlistSet (elems : List α) (pos : Nat) (ptr : α) : List α :=
  elems.set pos ptr

/-- `ptrlist_append(elems, &ptr, 1)`; the allocation may fail. -/
def ptrlistAppend (allocated : Bool) (elems : List α) (ptr : α) :
    Option (List α) :=
  if allocated then some (elems ++ [ptr]) else none

/-- `ptrlist_shrink(elems, 1)`, which cannot fail. -/
def ptrlistShrink (elems : List α) : List α := elems.dropLast

/-! ## The heap -/

/-- `struct ptrheap`; `setreccookie` tells whether that pointer is not NULL. -/
structure Ptrheap (α : Type*) where
  setreccookie : Bool
  elems : List α
  nelems : Nat
deriving DecidableEq

/-- One call `setreccookie(cookie, ptr, rc)`. -/
abbrev CookieCall (α : Type*) := α × Nat

/-- What a routine leaves in the array and the calls it makes meanwhile. -/
structure Sifted (α : Type*) where
  elems : List α
  calls : List (CookieCall α)
deriving DecidableEq

/-- The calls made for the listed positions, in this order. -/
def notify (setreccookie : Bool) (elems : List α) (positions : List Nat) :
    List (CookieCall α) :=
  if setreccookie then
    positions.map fun pos => (ptrlistGet elems pos, pos)
  else []

/-- Swap two elements and report both. -/
def swap (elems : List α) (i j : Nat) (setreccookie : Bool) : Sifted α :=
  let tmp := ptrlistGet elems i
  let moved := ptrlistSet elems i (ptrlistGet elems j)
  let swapped := ptrlistSet moved j tmp
  ⟨swapped, notify setreccookie swapped [i, j]⟩

/-- Sift up element `i`. -/
def heapifyup (compar : α → α → Int) (setreccookie : Bool)
    (elems : List α) (i : Nat) : Sifted α :=
  if i = 0 then ⟨elems, []⟩
  else if compar (ptrlistGet elems i)
      (ptrlistGet elems ((i - 1) / 2)) ≥ 0 then ⟨elems, []⟩
  else
    let swapped := swap elems i ((i - 1) / 2) setreccookie
    let rest :=
      heapifyup compar setreccookie swapped.elems ((i - 1) / 2)
    ⟨rest.elems, swapped.calls ++ rest.calls⟩
termination_by i

/-- The position of the minimum out of `{i, 2i+1, 2i+2}`. -/
def heapifyMin (compar : α → α → Int) (elems : List α) (i N : Nat) : Nat :=
  let left :=
    if 2 * i + 1 < N ∧
        compar (ptrlistGet elems i) (ptrlistGet elems (2 * i + 1)) > 0 then
      2 * i + 1
    else i
  if 2 * i + 2 < N ∧
      compar (ptrlistGet elems left) (ptrlistGet elems (2 * i + 2)) > 0 then
    2 * i + 2
  else left

theorem heapifyMin_cases
    (compar : α → α → Int) (elems : List α) (i N : Nat) :
    heapifyMin compar elems i N = i ∨
      heapifyMin compar elems i N = 2 * i + 1 ∧ 2 * i + 1 < N ∨
      heapifyMin compar elems i N = 2 * i + 2 ∧ 2 * i + 2 < N := by
  unfold heapifyMin
  dsimp only
  split <;> split <;> omega

/-- Sift down element `i` out of `N`. -/
def heapify (compar : α → α → Int) (setreccookie : Bool)
    (elems : List α) (i N : Nat) : Sifted α :=
  if heapifyMin compar elems i N = i then ⟨elems, []⟩
  else
    let min := heapifyMin compar elems i N
    let swapped := swap elems min i setreccookie
    let rest := heapify compar setreccookie swapped.elems min N
    ⟨rest.elems, swapped.calls ++ rest.calls⟩
termination_by N - i
decreasing_by
  have cases := heapifyMin_cases compar elems i N
  omega

/-! ## The operations -/

/-- The loop of `ptrheap_create`: `heapify` at each position from the last. -/
def heapifyAll (compar : α → α → Int) (N : Nat) :
    Nat → List α → List α
  | 0, elems => elems
  | i + 1, elems =>
      heapifyAll compar N i (heapify compar false elems i N).elems

/--
`ptrheap_create`.  The allocations are those of the structure and of the
array; without them NULL is returned.
-/
def ptrheapCreate (compar : α → α → Int) (setreccookie : Bool)
    (structAllocated listAllocated : Bool) (ptrs : List α) :
    Option (Ptrheap α × List (CookieCall α)) :=
  if structAllocated && listAllocated then
    let elems := heapifyAll compar ptrs.length ptrs.length ptrs
    some
      ({ setreccookie, elems, nelems := ptrs.length },
        notify setreccookie elems (List.range ptrs.length))
  else none

/-- `ptrheap_init`. -/
def ptrheapInit (compar : α → α → Int) (setreccookie : Bool)
    (structAllocated listAllocated : Bool) :
    Option (Ptrheap α × List (CookieCall α)) :=
  ptrheapCreate compar setreccookie structAllocated listAllocated []

/-- `ptrheap_add`, with its return status. -/
def ptrheapAdd (compar : α → α → Int) (allocated : Bool)
    (H : Ptrheap α) (ptr : α) :
    Int × Ptrheap α × List (CookieCall α) :=
  match ptrlistAppend allocated H.elems ptr with
  | none => (-1, H, [])
  | some elems =>
      let nelems := H.nelems + 1
      let sifted := heapifyup compar H.setreccookie elems (nelems - 1)
      let calls :=
        if H.setreccookie then [(ptr, nelems - 1)] else []
      (0, { H with elems := sifted.elems, nelems }, calls ++ sifted.calls)

/-- `ptrheap_getmin`; `none` is NULL. -/
def ptrheapGetmin (H : Ptrheap α) : Option α :=
  if H.nelems ≠ 0 then some (ptrlistGet H.elems 0) else none

/-- The part of `ptrheap_delete` that refills position `rc`. -/
def refill (compar : α → α → Int) (H : Ptrheap α) (rc : Nat) : Sifted α :=
  let elems := ptrlistSet H.elems rc (ptrlistGet H.elems (H.nelems - 1))
  let calls := notify H.setreccookie elems [rc]
  if 0 < rc ∧
      compar (ptrlistGet elems rc) (ptrlistGet elems ((rc - 1) / 2)) < 0 then
    let swapped := swap elems rc ((rc - 1) / 2) H.setreccookie
    let rest :=
      heapifyup compar H.setreccookie swapped.elems ((rc - 1) / 2)
    ⟨rest.elems, calls ++ swapped.calls ++ rest.calls⟩
  else
    let rest := heapify compar H.setreccookie elems rc (H.nelems - 1)
    ⟨rest.elems, calls ++ rest.calls⟩

/-- `ptrheap_delete`. -/
def ptrheapDelete (compar : α → α → Int) (H : Ptrheap α) (rc : Nat) :
    Ptrheap α × List (CookieCall α) :=
  let kept :=
    if rc ≠ H.nelems - 1 then refill compar H rc else ⟨H.elems, []⟩
  ({ H with elems := ptrlistShrink kept.elems, nelems := H.nelems - 1 },
    kept.calls)

/-- `ptrheap_deletemin`. -/
def ptrheapDeletemin (compar : α → α → Int) (H : Ptrheap α) :
    Ptrheap α × List (CookieCall α) :=
  ptrheapDelete compar H 0

/-- `ptrheap_decrease`, after the key of the element was decreased. -/
def ptrheapDecrease (compar : α → α → Int) (H : Ptrheap α) (rc : Nat) :
    Ptrheap α × List (CookieCall α) :=
  let sifted := heapifyup compar H.setreccookie H.elems rc
  ({ H with elems := sifted.elems }, sifted.calls)

/-- `ptrheap_increase`, after the key of the element was increased. -/
def ptrheapIncrease (compar : α → α → Int) (H : Ptrheap α) (rc : Nat) :
    Ptrheap α × List (CookieCall α) :=
  let sifted := heapify compar H.setreccookie H.elems rc H.nelems
  ({ H with elems := sifted.elems }, sifted.calls)

/-- `ptrheap_increasemin`, after the key of the minimum was increased. -/
def ptrheapIncreasemin (compar : α → α → Int) (H : Ptrheap α) :
    Ptrheap α × List (CookieCall α) :=
  ptrheapIncrease compar H 0

end Libcperciva.Datastruct.PtrheapModel
