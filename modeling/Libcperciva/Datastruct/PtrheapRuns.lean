import Libcperciva.Datastruct.PtrheapOps
import Mathlib.Data.Multiset.AddSub

/-!
# Every run of the pointer heap

A run starts with a successful `ptrheap_create` and makes calls of the other
operations in any order, with any outcome of the allocations.  Next to the
heap it keeps the log of all `setreccookie` calls and the multiset `held` of
the pointers that were created or added and not deleted.

A pointer may be held several times at once.  The predicate `single` names
pointers the caller never adds while it holds them; these are the ones that a
record cookie identifies.
-/

namespace Libcperciva.Datastruct.PtrheapRuns

open Libcperciva.Datastruct.PtrheapModel
open Libcperciva.Datastruct.PtrheapSift
open Libcperciva.Datastruct.PtrheapOps
open Libcperciva.Lib.BinaryHeap

variable {α : Type*} [Inhabited α] [DecidableEq α]

/-! ## Runs -/

/-- The heap, the comparison it now uses, and the history of the run. -/
structure RunState (α : Type*) where
  compar : α → α → Int
  heap : Ptrheap α
  /-- All `setreccookie` calls so far, oldest first. -/
  log : List (CookieCall α)
  /-- The pointers created or added and not deleted. -/
  held : Multiset α

/-- A call, with the outcome of its allocation and the changed keys. -/
inductive Op (α : Type*) where
  | add (allocated : Bool) (ptr : α)
  | delete (rc : Nat)
  | deletemin
  | increase (changed : α → α → Int) (rc : Nat)
  | decrease (changed : α → α → Int) (rc : Nat)
  | increasemin (changed : α → α → Int)

/-- Remove one pointer from the held ones, if there is one to remove. -/
def erased (held : Multiset α) : Option α → Multiset α
  | some ptr => held.erase ptr
  | none => held

/--
One call.  The heap and the log are those of the code; `held` follows the
documentation: an add that reports success adds its pointer, a delete removes
the pointer for which `setreccookie(cookie, ptr, rc)` was most recently
called, and a deletemin the one `ptrheap_getmin` returned.
-/
def step (state : RunState α) : Op α → RunState α
  | .add allocated ptr =>
      let result := ptrheapAdd state.compar allocated state.heap ptr
      { state with
        heap := result.2.1
        log := state.log ++ result.2.2
        held := if result.1 = 0 then ptr ::ₘ state.held else state.held }
  | .delete rc =>
      let result := ptrheapDelete state.compar state.heap rc
      { state with
        heap := result.1
        log := state.log ++ result.2
        held := erased state.held (lastPtr state.log rc) }
  | .deletemin =>
      let result := ptrheapDeletemin state.compar state.heap
      { state with
        heap := result.1
        log := state.log ++ result.2
        held := erased state.held (ptrheapGetmin state.heap) }
  | .increase changed rc =>
      let result := ptrheapIncrease changed state.heap rc
      { state with
        compar := changed
        heap := result.1
        log := state.log ++ result.2 }
  | .decrease changed rc =>
      let result := ptrheapDecrease changed state.heap rc
      { state with
        compar := changed
        heap := result.1
        log := state.log ++ result.2 }
  | .increasemin changed =>
      let result := ptrheapIncreasemin changed state.heap
      { state with
        compar := changed
        heap := result.1
        log := state.log ++ result.2 }

/-- What the documentation asks of the caller. -/
def Allowed (single : α → Prop) (state : RunState α) : Op α → Prop
  | .add _ ptr => single ptr → ptr ∉ state.held
  | .delete rc =>
      state.heap.setreccookie = true ∧ rc < state.heap.nelems
  | .deletemin => 0 < state.heap.nelems
  | .increase changed rc =>
      state.heap.setreccookie = true ∧ rc < state.heap.nelems ∧
        TotalPreorder changed ∧
        KeyIncreased state.compar changed state.heap rc
  | .decrease changed rc =>
      state.heap.setreccookie = true ∧ rc < state.heap.nelems ∧
        TotalPreorder changed ∧
        KeyDecreased state.compar changed state.heap rc
  | .increasemin changed =>
      0 < state.heap.nelems ∧ TotalPreorder changed ∧
        KeyIncreased state.compar changed state.heap 0

/-- The states a heap goes through from its creation. -/
inductive Run (single : α → Prop) : RunState α → Prop where
  | create {compar : α → α → Int} {setreccookie : Bool}
      {structAllocated listAllocated : Bool} {ptrs : List α}
      {heap : Ptrheap α} {calls : List (CookieCall α)}
      (preorder : TotalPreorder compar)
      (once : ∀ ptr, single ptr → ptrs.count ptr ≤ 1)
      (created : ptrheapCreate compar setreccookie
        structAllocated listAllocated ptrs = some (heap, calls)) :
      Run single ⟨compar, heap, calls, ptrs⟩
  | call {state : RunState α} (op : Op α)
      (before : Run single state) (allowed : Allowed single state op) :
      Run single (step state op)

/-! ## The invariant of a run -/

/-- The heap is valid and holds what was created or added and not deleted. -/
structure Invariant (single : α → Prop) (state : RunState α) : Prop where
  preorder : TotalPreorder state.compar
  valid : Valid state.compar single state.heap state.log
  holds : (state.heap.elems : Multiset α) = state.held

variable {single : α → Prop} {state : RunState α}

theorem Invariant.mem_held
    (invariant : Invariant single state) {ptr : α} :
    ptr ∈ state.held ↔
      ∃ pos < state.heap.nelems, ptrlistGet state.heap.elems pos = ptr := by
  rw [← invariant.holds, Multiset.mem_coe, mem_elems_iff,
    invariant.valid.sized]

omit [DecidableEq α] in
theorem ptrheapGetmin_eq (H : Ptrheap α) (nonempty : 0 < H.nelems) :
    ptrheapGetmin H = some (ptrlistGet H.elems 0) := by
  simp [ptrheapGetmin, nonempty.ne']

/-- A delete removes from the held pointers the one at its position. -/
theorem Invariant.delete_holds
    (invariant : Invariant single state) {rc : Nat}
    (below : rc < state.heap.nelems) :
    ((ptrheapDelete state.compar state.heap rc).1.elems : Multiset α) =
      state.held.erase (ptrlistGet state.heap.elems rc) := by
  have removed :=
    (ptrheapDelete_valid invariant.preorder invariant.valid below).2
  have counted := Multiset.coe_eq_coe.mpr removed
  rw [← Multiset.cons_coe, invariant.holds] at counted
  rw [← counted, Multiset.erase_cons_head]

theorem Invariant.step
    (invariant : Invariant single state) {op : Op α}
    (allowed : Allowed single state op) :
    Invariant single (step state op) := by
  obtain ⟨preorder, valid, holds⟩ := invariant
  cases op with
  | add allocated ptr =>
      cases allocated with
      | false =>
          exact ⟨preorder, by simpa [PtrheapRuns.step, ptrheapAdd,
            ptrlistAppend] using valid, holds⟩
      | true =>
          have fresh : single ptr → ptr ∉ state.heap.elems := by
            intro isSingle member
            apply allowed isSingle
            rw [← holds]
            exact Multiset.mem_coe.mpr member
          obtain ⟨validAfter, perm⟩ :=
            ptrheapAdd_valid preorder valid fresh
          refine ⟨preorder, validAfter, ?_⟩
          have counted := Multiset.coe_eq_coe.mpr perm
          rw [← Multiset.cons_coe, holds] at counted
          exact counted
  | delete rc =>
      obtain ⟨provided, below⟩ := allowed
      have validAfter := (ptrheapDelete_valid preorder valid below).1
      have removed :=
        Invariant.delete_holds ⟨preorder, valid, holds⟩ below
      have atRc := (valid.tracked provided).atPosition rc below
      refine ⟨preorder, validAfter, ?_⟩
      change _ = erased state.held (lastPtr state.log rc)
      rw [atRc]
      exact removed
  | deletemin =>
      have validAfter := (ptrheapDelete_valid preorder valid allowed).1
      have removed :=
        Invariant.delete_holds ⟨preorder, valid, holds⟩ allowed
      refine ⟨preorder, validAfter, ?_⟩
      change _ = erased state.held (ptrheapGetmin state.heap)
      rw [ptrheapGetmin_eq _ allowed]
      exact removed
  | increase changed rc =>
      obtain ⟨_, below, preorder', key⟩ := allowed
      obtain ⟨validAfter, perm⟩ :=
        ptrheapIncrease_valid preorder preorder' valid below key
      exact ⟨preorder', validAfter,
        (Multiset.coe_eq_coe.mpr perm).trans holds⟩
  | decrease changed rc =>
      obtain ⟨_, below, preorder', key⟩ := allowed
      obtain ⟨validAfter, perm⟩ :=
        ptrheapDecrease_valid preorder preorder' valid below key
      exact ⟨preorder', validAfter,
        (Multiset.coe_eq_coe.mpr perm).trans holds⟩
  | increasemin changed =>
      obtain ⟨below, preorder', key⟩ := allowed
      obtain ⟨validAfter, perm⟩ :=
        ptrheapIncrease_valid preorder preorder' valid below key
      exact ⟨preorder', validAfter,
        (Multiset.coe_eq_coe.mpr perm).trans holds⟩

theorem Run.invariant (run : Run single state) :
    Invariant single state := by
  induction run with
  | create preorder once created =>
      obtain ⟨valid, perm⟩ := ptrheapCreate_valid preorder once created
      exact ⟨preorder, valid, Multiset.coe_eq_coe.mpr perm⟩
  | call op before allowed invariant =>
      exact invariant.step allowed

/-! ## What the caller can rely on -/

/-- The contract of the pointer heap at one moment of a run. -/
structure Correct (single : α → Prop) (state : RunState α) : Prop where
  /-- No element is greater than elements `2i+1` and `2i+2`. -/
  order : ∀ i child, child = 2 * i + 1 ∨ child = 2 * i + 2 →
    child < state.heap.nelems →
    state.compar (ptrlistGet state.heap.elems i)
      (ptrlistGet state.heap.elems child) ≤ 0
  /-- The array holds what was created or added and not deleted. -/
  multiset : (state.heap.elems : Multiset α) = state.held
  size : state.heap.elems.length = state.heap.nelems
  /-- An add fails only if its allocation does. -/
  add : ∀ allocated ptr,
    (ptrheapAdd state.compar allocated state.heap ptr).1 =
      if allocated then 0 else -1
  /-- An add that reports failure changes nothing. -/
  failedAdd : ∀ allocated ptr,
    (ptrheapAdd state.compar allocated state.heap ptr).1 ≠ 0 →
    ptrheapAdd state.compar allocated state.heap ptr = (-1, state.heap, [])
  /-- The last call for each position names the pointer which is there. -/
  position : state.heap.setreccookie = true →
    ∀ pos < state.heap.nelems,
      lastPtr state.log pos = some (ptrlistGet state.heap.elems pos)
  /-- The last call for each pointer names the position where it is. -/
  cookie : state.heap.setreccookie = true →
    ∀ ptr ∈ state.held, single ptr →
      ∃ rc < state.heap.nelems, lastCookie state.log ptr = some rc ∧
        ∀ pos < state.heap.nelems,
          ptrlistGet state.heap.elems pos = ptr ↔ pos = rc
  /-- A delete removes exactly the pointer whose last cookie it is given. -/
  delete : state.heap.setreccookie = true →
    ∀ ptr ∈ state.held, single ptr →
    ∀ rc, lastCookie state.log ptr = some rc →
      ((ptrheapDelete state.compar state.heap rc).1.elems : Multiset α) =
        state.held.erase ptr
  /-- The minimum is NULL exactly for the empty heap. -/
  getmin_none : ptrheapGetmin state.heap = none ↔ state.held = 0
  getmin_some : ∀ min, ptrheapGetmin state.heap = some min →
    min ∈ state.held ∧ ∀ ptr ∈ state.held, state.compar min ptr ≤ 0

theorem Invariant.cookie
    (invariant : Invariant single state)
    (provided : state.heap.setreccookie = true)
    {ptr : α} (member : ptr ∈ state.held) (isSingle : single ptr) :
    ∃ rc < state.heap.nelems, lastCookie state.log ptr = some rc ∧
      ∀ pos < state.heap.nelems,
        ptrlistGet state.heap.elems pos = ptr ↔ pos = rc := by
  have tracked := invariant.valid.tracked provided
  obtain ⟨rc, below, rfl⟩ := invariant.mem_held.mp member
  refine ⟨rc, below, tracked.ofPointer rc below isSingle, ?_⟩
  intro pos posBelow
  constructor
  · intro same
    exact (tracked.position_unique below posBelow isSingle same.symm).symm
  · rintro rfl
    rfl

theorem Invariant.getmin_none (invariant : Invariant single state) :
    ptrheapGetmin state.heap = none ↔ state.held = 0 := by
  have sized := invariant.valid.sized
  rw [← invariant.holds, Multiset.coe_eq_zero, ← List.length_eq_zero_iff,
    sized]
  simp [ptrheapGetmin]

theorem Invariant.getmin_some
    (invariant : Invariant single state) {min : α}
    (isMin : ptrheapGetmin state.heap = some min) :
    min ∈ state.held ∧ ∀ ptr ∈ state.held, state.compar min ptr ≤ 0 := by
  have nonempty : 0 < state.heap.nelems := by
    by_contra empty
    simp [ptrheapGetmin, Nat.eq_zero_of_not_pos empty] at isMin
  rw [ptrheapGetmin_eq _ nonempty, Option.some.injEq] at isMin
  refine ⟨invariant.mem_held.mpr ⟨0, nonempty, isMin⟩, ?_⟩
  intro ptr member
  obtain ⟨pos, below, rfl⟩ := invariant.mem_held.mp member
  rw [← isMin]
  exact invariant.valid.order.root_le invariant.preorder.refl
    invariant.preorder.le_trans pos below

/-- Every run of the pointer heap meets the contract. -/
theorem ptrheap_run_correct (run : Run single state) :
    Correct single state := by
  have invariant := run.invariant
  constructor
  · intro i child isChild below
    have positive : 0 < child := by omega
    have underI := (parent_eq_iff positive).mpr isChild
    have inOrder := invariant.valid.order.parent_le positive below
    rwa [underI] at inOrder
  · exact invariant.holds
  · exact invariant.valid.sized
  · exact ptrheapAdd_status
  · intro allocated ptr failed
    exact ptrheapAdd_failed failed
  · intro provided pos below
    exact (invariant.valid.tracked provided).atPosition pos below
  · intro provided ptr member isSingle
    exact invariant.cookie provided member isSingle
  · intro provided ptr member isSingle rc isCookie
    obtain ⟨pos, below, posCookie, onlyPos⟩ :=
      invariant.cookie provided member isSingle
    have sameCookie : rc = pos := by
      rw [isCookie] at posCookie
      exact Option.some.inj posCookie
    subst sameCookie
    rw [invariant.delete_holds below, (onlyPos rc below).mpr rfl]
  · exact invariant.getmin_none
  · intro min isMin
    exact invariant.getmin_some isMin

/-- The numbers in their order, compared as a caller would. -/
def natCompar (left right : Nat) : Int := (left : Int) - right

theorem natCompar_preorder : TotalPreorder natCompar where
  flip left right := by
    unfold natCompar
    omega
  trans := by
    intro first second third
    unfold natCompar
    omega

/-- A heap of three numbers, with its record cookies. -/
def threeNumbers : RunState Nat :=
  let elems := heapifyAll natCompar 3 3 [5, 3, 4]
  { compar := natCompar
    heap := { setreccookie := true, elems, nelems := 3 }
    log := notify true elems [0, 1, 2]
    held := {5, 3, 4} }

/-- A creation, a failed and a successful add, and two deletes. -/
theorem ptrheap_run_correct_threeNumbers :
    Correct (fun _ => True)
      (step (step (step (step threeNumbers
        (.add false 1)) (.add true 1)) (.delete 2)) .deletemin) := by
  have created : Run (fun _ => True) threeNumbers := by
    have returned : ptrheapCreate natCompar true true true [5, 3, 4] =
      some (threeNumbers.heap, threeNumbers.log) := rfl
    refine Run.create natCompar_preorder ?_ returned
    intro ptr _
    exact List.nodup_iff_count_le_one.mp (by decide) ptr
  have refused := created.call (.add false 1) (fun _ => by decide)
  have added := refused.call (.add true 1) (fun _ => by decide)
  have deleted := added.call (.delete 2) ⟨rfl, by decide⟩
  have nonempty : 0 < 3 := by decide
  exact ptrheap_run_correct (deleted.call .deletemin nonempty)

end Libcperciva.Datastruct.PtrheapRuns
