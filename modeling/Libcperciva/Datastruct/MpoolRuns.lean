import Libcperciva.Datastruct.MpoolOps

/-!
# Every run of a memory pool

The client gives back pointers it obtained from the pool, each of them once:
the pointers it holds are those it received and did not give back.
-/

namespace Libcperciva.Datastruct.MpoolRuns

open Libcperciva.Datastruct.MpoolModel
open Libcperciva.Datastruct.MpoolOps

variable {w sizeofPtr size static : Nat} {M : Mpool} {held heap : List Nat}

/-- The states of a pool, the pointers the client holds, and the heap, with
any outcomes of `atexit` and `malloc`. -/
inductive Run (w sizeofPtr size static : Nat) :
    Mpool → List Nat → List Nat → Prop where
  | declared : Run w sizeofPtr size static (mpoolRec size static) [] []
  | malloc {M after : Mpool} {held heap left : List Nat} {atexit : Int}
      {block p : Nat} (before : Run w sizeofPtr size static M held heap)
      (fresh : Fresh heap M block)
      (result : mpoolMalloc atexit block heap M = .ok (p, left, after)) :
      Run w sizeofPtr size static after (received p held) left
  | free {M after : Mpool} {held heap left : List Nat} {block p : Nat}
      {memory : Nat → Nat} (before : Run w sizeofPtr size static M held heap)
      (fresh : Fresh heap M block) (isHeld : p ∈ held)
      (result : mpoolFree w sizeofPtr block memory heap M p =
        .ok (left, after)) :
      Run w sizeofPtr size static after (held.erase p) left

theorem mpoolRec_invariant (positive : 0 < size) :
    Invariant (mpoolRec size static) [] [] where
  positive := positive
  stacklen_le := Nat.zero_le size
  capacity := List.length_replicate
  blocks := by
    unfold stack cached mpoolRec
    rw [if_neg (not_not_intro rfl), List.take_zero]
    exact List.Perm.refl _
  nodup := List.nodup_nil
  notNull := List.not_mem_nil
  registered _ := rfl

theorem Run.invariant (positive : 0 < size) (pointers : 0 < sizeofPtr)
    (run : Run w sizeofPtr size static M held heap) :
    Invariant M held heap := by
  induction run with
  | declared => exact mpoolRec_invariant positive
  | @malloc M after held heap left atexit block p _ fresh result before =>
      obtain ⟨got, gotLeft, made, resultMade, _, invariant⟩ :=
        mpoolMalloc_spec before fresh atexit
      rw [result] at resultMade
      cases resultMade
      exact invariant
  | @free M after held heap left block p memory _ fresh isHeld result
      before =>
      obtain ⟨gotLeft, made, resultMade, _, invariant⟩ :=
        @mpoolFree_spec w sizeofPtr block p heap held M before pointers fresh
          isHeld memory
      rw [result] at resultMade
      cases resultMade
      exact invariant

/-! ## Every run -/

/-- What the functions do in a state, and what the state looks like.  A block
that is freed twice or was not allocated would be a fault. -/
structure Safe (w sizeofPtr : Nat) (M : Mpool) (held heap : List Nat) :
    Prop where
  stacklen_le : M.stacklen ≤ M.allocsize
  capacity : M.slots.length = M.allocsize
  distinct : (cached M).Nodup
  disjoint : ∀ p ∈ cached M, p ∉ held
  /-- Each block of the heap is in one place. -/
  blocks : heap.Perm (cached M ++ (held ++ stack M)) ∧ heap.Nodup
  malloc : ∀ atexit block, Fresh heap M block → ∃ p left after,
    mpoolMalloc atexit block heap M = .ok (p, left, after) ∧ p ∉ held
  free : ∀ block memory p, Fresh heap M block → p ∈ held → ∃ left after,
    mpoolFree w sizeofPtr block memory heap M p = .ok (left, after) ∧
      CachedOrFreed M after left p
  freeNull : ∀ block memory,
    mpoolFree w sizeofPtr block memory heap M 0 = .ok (heap, M)
  /-- What is left at the end are the pointers the client holds. -/
  atexit : ∃ left, mpoolAtexit M heap = .ok left ∧ left.Perm held
  /-- `mpool_atexit` is going to be called if there is anything to free. -/
  registered : M.state = 0 → cached M = [] ∧ stack M = []

/--
In every run of a client that gives back only what it holds, the pool hands
out no pointer the client still holds, and loses and frees twice no block.
-/
theorem mpool_safe (w sizeofPtr size static : Nat) (positive : 0 < size)
    (pointers : 0 < sizeofPtr) {M : Mpool} {held heap : List Nat}
    (run : Run w sizeofPtr size static M held heap) :
    Safe w sizeofPtr M held heap := by
  have invariant := run.invariant positive pointers
  have blocks := invariant.blocks
  have apart := List.nodup_append'.mp
    (blocks.nodup_iff.mp invariant.nodup)
  refine ⟨invariant.stacklen_le, invariant.capacity, apart.1, ?_,
    ⟨blocks, invariant.nodup⟩, ?_, ?_, fun _ _ => rfl,
    mpoolAtexit_spec invariant, ?_⟩
  · intro p isCached isHeld
    exact apart.2.2 isCached (List.mem_append_left _ isHeld)
  · intro atexit block fresh
    obtain ⟨p, left, after, result, notHeld, _⟩ :=
      mpoolMalloc_spec invariant fresh atexit
    exact ⟨p, left, after, result, notHeld⟩
  · intro block memory p fresh isHeld
    obtain ⟨left, after, result, ends, _⟩ :=
      mpoolFree_spec invariant pointers fresh isHeld memory
    exact ⟨left, after, result, ends⟩
  · intro unregistered
    rw [invariant.registered unregistered] at blocks
    have nothing := List.nil_perm.mp blocks
    obtain ⟨noneCached, others⟩ := List.append_eq_nil_iff.mp nothing
    exact ⟨noneCached, (List.append_eq_nil_iff.mp others).2⟩

/-- A pool of one slot, from which two blocks are obtained; the first is
cached, and the array is doubled for the second. -/
theorem mpool_safe_doubled :
    Safe 64 8 ⟨2, 2, 30, [10, 20], 0, 0, 1, 5⟩ [] [30, 20, 10] := by
  have empty := @Run.declared 64 8 1 5
  have one := @Run.malloc 64 8 1 5 _ ⟨0, 1, 5, [0], 1, 1, 1, 5⟩ _ _ [10]
    0 10 10 empty (fun _ => ⟨by decide, by decide⟩) (by rfl)
  have two := @Run.malloc 64 8 1 5 _ ⟨0, 1, 5, [0], 2, 2, 1, 5⟩ _ _ [20, 10]
    0 20 20 one (fun _ => ⟨by decide, by decide⟩) (by rfl)
  have kept := @Run.free 64 8 1 5 _ ⟨1, 1, 5, [10], 2, 2, 1, 5⟩ _ _ [20, 10]
    0 10 (fun _ => 0) two (fun new => absurd rfl new) (by decide) (by rfl)
  have grown := @Run.free 64 8 1 5 _ ⟨2, 2, 30, [10, 20], 0, 0, 1, 5⟩ _ _
    [30, 20, 10] 30 20 (fun _ => 0) kept (fun _ => ⟨by decide, by decide⟩)
    (by decide) (by rfl)
  exact mpool_safe 64 8 1 5 (by decide) (by decide) grown

end Libcperciva.Datastruct.MpoolRuns
