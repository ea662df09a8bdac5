import Libcperciva.Datastruct.MpoolModel
import Mathlib.Data.List.Nodup
import Mathlib.Data.List.Perm.Basic

/-!
# What the memory pool does

The blocks of the heap are those the pool caches, those the client holds, and
the array of the pool if that was allocated.
-/

namespace Libcperciva.Datastruct.MpoolOps

open Libcperciva.Datastruct.MpoolModel

variable {w sizeofPtr block p : Nat} {memory : Nat → Nat}
  {heap held rest : List Nat} {M : Mpool}

/-- The pointers on the stack. -/
def cached (M : Mpool) : List Nat := M.slots.take M.stacklen

/-- The array, if it was allocated. -/
def stack (M : Mpool) : List Nat :=
  if M.allocs ≠ M.allocsStatic then [M.allocs] else []

/-- What `malloc` returns: NULL, or a new block. -/
def Fresh (heap : List Nat) (M : Mpool) (block : Nat) : Prop :=
  block ≠ 0 → block ∉ heap ∧ block ≠ M.allocsStatic

/-- What holds between calls, with the pointers the client holds. -/
structure Invariant (M : Mpool) (held heap : List Nat) : Prop where
  positive : 0 < M.allocsize
  stacklen_le : M.stacklen ≤ M.allocsize
  capacity : M.slots.length = M.allocsize
  blocks : heap.Perm (cached M ++ (held ++ stack M))
  nodup : heap.Nodup
  notNull : 0 ∉ heap
  /-- The function that frees what is left is registered. -/
  registered : M.state = 0 → heap = []

/-- The pointers of the client after `mpool_malloc`. -/
def received (p : Nat) (held : List Nat) : List Nat :=
  if p = 0 then held else p :: held

/-! ## The heap and the stack -/

theorem free_spec (blocks : heap.Perm (p :: rest)) (notNull : p ≠ 0) :
    ∃ left, free p heap = .ok left ∧ left.Perm rest := by
  have member : p ∈ heap := blocks.mem_iff.mpr List.mem_cons_self
  unfold free
  rw [if_neg notNull, if_pos member]
  refine ⟨_, rfl, ?_⟩
  have erased := blocks.erase p
  rwa [List.erase_cons_head] at erased

theorem freeStack_spec (blocks : heap.Perm (stack M ++ rest))
    (notNull : 0 ∉ heap) :
    ∃ left, freeStack M heap = .ok left ∧ left.Perm rest := by
  unfold freeStack
  unfold stack at blocks
  split_ifs at blocks ⊢ with allocated
  · refine free_spec blocks ?_
    intro isNull
    rw [isNull] at blocks
    exact notNull (blocks.mem_iff.mpr List.mem_cons_self)
  · exact ⟨heap, rfl, blocks⟩

/-- The last pointer of the stack. -/
theorem take_succ_slots {M : Mpool} {n : Nat} (inside : n < M.slots.length) :
    ∃ p, getSlot M n = .ok p ∧
      M.slots.take (n + 1) = M.slots.take n ++ [p] := by
  refine ⟨M.slots[n], ?_, ?_⟩
  · unfold getSlot
    rw [List.getElem?_eq_getElem inside]
  · exact (List.take_append_getElem inside).symm

theorem push_spec {M : Mpool} (room : M.stacklen < M.slots.length) (p : Nat) :
    ∃ after, push M p = .ok after ∧ cached after = cached M ++ [p] ∧
      after.slots.length = M.slots.length ∧
      after.stacklen = M.stacklen + 1 ∧ after.allocsize = M.allocsize ∧
      after.allocs = M.allocs ∧ after.state = M.state ∧
      after.allocsStatic = M.allocsStatic := by
  unfold push
  rw [if_pos room]
  refine ⟨_, rfl, ?_, List.length_set, rfl, rfl, rfl, rfl, rfl⟩
  have room' : M.stacklen < (M.slots.set M.stacklen p).length := by
    rwa [List.length_set]
  change (M.slots.set M.stacklen p).take (M.stacklen + 1) = _
  rw [← List.take_append_getElem room', List.getElem_set_self,
    List.take_set_of_le (Nat.le_refl _)]
  rfl

/-! ## `mpool_malloc` -/

theorem Invariant.mem_heap (invariant : Invariant M held heap)
    (member : p ∈ held) : p ∈ heap :=
  invariant.blocks.mem_iff.mpr
    (List.mem_append_right _ (List.mem_append_left _ member))

/-- A block that `malloc` returned is given to the client. -/
theorem Invariant.malloc (invariant : Invariant M held heap)
    (fresh : Fresh heap M block) :
    block ∉ held ∧ (malloc block heap).Nodup ∧ 0 ∉ malloc block heap ∧
      (malloc block heap).Perm
        (cached M ++ (received block held ++ stack M)) := by
  unfold MpoolModel.malloc received
  split_ifs with isNull
  · rw [isNull]
    exact ⟨fun member => invariant.notNull (invariant.mem_heap member),
      invariant.nodup, invariant.notNull, invariant.blocks⟩
  · obtain ⟨new, _⟩ := fresh isNull
    refine ⟨fun member => new (invariant.mem_heap member),
      List.nodup_cons.mpr ⟨new, invariant.nodup⟩, ?_, ?_⟩
    · rw [List.mem_cons]
      exact not_or.mpr ⟨Ne.symm isNull, invariant.notNull⟩
    · refine (invariant.blocks.cons block).trans ?_
      rw [List.cons_append]
      exact List.perm_middle.symm

theorem mpoolMalloc_spec (invariant : Invariant M held heap)
    (fresh : Fresh heap M block) (atexit : Int) :
    ∃ p left after, mpoolMalloc atexit block heap M = .ok (p, left, after) ∧
      p ∉ held ∧ Invariant after (received p held) left := by
  have blocks := invariant.blocks
  unfold mpoolMalloc
  dsimp only
  by_cases empty : M.stacklen = 0
  · obtain ⟨notHeld, nodup, notNull, blocksAfter⟩ := invariant.malloc fresh
    rw [if_neg (not_not_intro empty)]
    by_cases unregistered : M.state = 0
    · rw [if_pos unregistered]
      by_cases failed : atexit ≠ 0
      · rw [if_pos failed]
        refine ⟨0, heap, _, rfl, ?_, invariant.positive,
          invariant.stacklen_le, invariant.capacity, blocks, invariant.nodup,
          invariant.notNull, invariant.registered⟩
        exact fun member => invariant.notNull (invariant.mem_heap member)
      · rw [if_neg failed]
        exact ⟨block, _, _, rfl, notHeld, invariant.positive,
          invariant.stacklen_le, invariant.capacity, blocksAfter, nodup,
          notNull, fun zero => absurd zero Nat.one_ne_zero⟩
    · rw [if_neg unregistered]
      exact ⟨block, _, _, rfl, notHeld, invariant.positive,
        invariant.stacklen_le, invariant.capacity, blocksAfter, nodup,
        notNull, fun zero => absurd zero unregistered⟩
  · obtain ⟨n, stacklen⟩ := Nat.exists_eq_succ_of_ne_zero empty
    have le := invariant.stacklen_le
    have capacity := invariant.capacity
    obtain ⟨p, slot, last⟩ :=
      take_succ_slots (by omega : n < M.slots.length)
    have popped : cached M = M.slots.take n ++ [p] := by
      unfold cached
      rw [stacklen, last]
    have top : M.stacklen - 1 = n := by omega
    rw [popped, List.append_assoc] at blocks
    have member : p ∈ heap := by
      refine blocks.mem_iff.mpr (List.mem_append_right _ ?_)
      exact List.mem_append_left _ (List.mem_singleton.mpr rfl)
    have isNotNull : p ≠ 0 := by
      rintro rfl
      exact invariant.notNull member
    have slotOf : getSlot { M with nallocs := (M.nallocs + 1) % 2 ^ 64 } n =
        .ok p := slot
    rw [if_pos empty, top, slotOf]
    refine ⟨p, heap, _, rfl, ?_, invariant.positive, ?_, capacity, ?_,
      invariant.nodup, invariant.notNull, invariant.registered⟩
    · intro isHeld
      have nodup := blocks.nodup_iff.mp invariant.nodup
      have apart := (List.nodup_append'.mp nodup).2.1
      exact (List.nodup_cons.mp apart).1
        (List.mem_append_left (stack M) isHeld)
    · dsimp only
      omega
    · unfold received
      rw [if_neg isNotNull]
      exact blocks

/-! ## `mpool_free` -/

/-- A pointer that is not cached is freed. -/
theorem free_held (invariant : Invariant M held heap)
    (isHeld : p ∈ held) :
    ∃ left, free p heap = .ok left ∧ p ∉ left ∧ p ∉ cached M ∧
      Invariant M (held.erase p) left := by
  have member := invariant.mem_heap isHeld
  have isNotNull : p ≠ 0 := by
    rintro rfl
    exact invariant.notNull member
  have nodup := invariant.nodup
  have apart := List.nodup_append'.mp
    (invariant.blocks.nodup_iff.mp nodup)
  have notCached : p ∉ cached M := fun isCached =>
    apart.2.2 isCached (List.mem_append_left _ isHeld)
  unfold free
  rw [if_neg isNotNull, if_pos member]
  refine ⟨_, rfl, nodup.not_mem_erase, notCached, invariant.positive,
    invariant.stacklen_le, invariant.capacity, ?_, nodup.erase p, ?_, ?_⟩
  · have erased := invariant.blocks.erase p
    rwa [List.erase_append_right _ notCached,
      List.erase_append_left _ isHeld] at erased
  · exact fun isNull => invariant.notNull (List.mem_of_mem_erase isNull)
  · intro unregistered
    rw [invariant.registered unregistered] at member
    cases member

/-- A pointer goes from the client to the stack. -/
theorem push_held {M : Mpool} (positive : 0 < M.allocsize)
    (room : M.stacklen < M.allocsize)
    (capacity : M.slots.length = M.allocsize)
    (blocks : heap.Perm (cached M ++ (held ++ stack M)))
    (nodup : heap.Nodup) (notNull : 0 ∉ heap)
    (registered : M.state = 0 → heap = []) (isHeld : p ∈ held) :
    ∃ after, push M p = .ok after ∧ (cached after).count p = 1 ∧
      p ∈ heap ∧ Invariant after (held.erase p) heap := by
  obtain ⟨after, result, cachedAfter, slots, stacklen, allocsize, allocs,
    state, static⟩ := push_spec (capacity ▸ room) p
  have sameStack : stack after = stack M := by
    unfold stack
    rw [allocs, static]
  have member : p ∈ heap :=
    blocks.mem_iff.mpr
      (List.mem_append_right _ (List.mem_append_left _ isHeld))
  have blocksAfter : heap.Perm
      (cached after ++ (held.erase p ++ stack after)) := by
    rw [sameStack, cachedAfter, List.append_assoc]
    refine blocks.trans (List.Perm.append_left _ ?_)
    exact (List.perm_cons_erase isHeld).append_right _
  have nodupCached : (cached after).Nodup :=
    (List.nodup_append'.mp (blocksAfter.nodup_iff.mp nodup)).1
  refine ⟨after, result, ?_, member, ?_, ?_, ?_, blocksAfter, nodup, notNull,
    ?_⟩
  · refine List.count_eq_one_of_mem nodupCached ?_
    rw [cachedAfter]
    exact List.mem_append_right _ (List.mem_singleton.mpr rfl)
  · rw [allocsize]
    exact positive
  · rw [stacklen, allocsize]
    exact room
  · rw [slots, allocsize]
    exact capacity
  · rw [state]
    exact registered

/-- What becomes of a pointer that is given to `mpool_free`: it is cached, or
the stack is full and it is freed. -/
def CachedOrFreed (before after : Mpool) (left : List Nat) (p : Nat) : Prop :=
  (cached after).count p = 1 ∧ p ∈ left ∨
    before.stacklen = before.allocsize ∧ p ∉ cached after ∧ p ∉ left

theorem autotune_spec (invariant : Invariant M held heap)
    (pointers : 0 < sizeofPtr) (fresh : Fresh heap M block)
    (isHeld : p ∈ held) (full : M.stacklen = M.allocsize)
    (memory : Nat → Nat) :
    ∃ left after,
      autotune w sizeofPtr block memory heap M p = .ok (left, after) ∧
      CachedOrFreed M after left p ∧
      Invariant after (held.erase p) left := by
  have positive := invariant.positive
  have capacity := invariant.capacity
  have blocks := invariant.blocks
  have freed : ∃ left after,
      (do let left ← free p heap
          Except.ok (left, M)) = .ok (left, after) ∧
        CachedOrFreed M after left p ∧
        Invariant after (held.erase p) left := by
    obtain ⟨left, result, gone, notCached, after⟩ :=
      free_held invariant isHeld
    refine ⟨left, M, ?_, Or.inr ⟨full, notCached, gone⟩, after⟩
    rw [result]
    rfl
  unfold autotune
  by_cases busy : M.nempties > M.nallocs / 2 ^ 8
  · rw [if_pos busy, if_neg (not_not_intro positive)]
    by_cases doubles :
        M.allocsize ≤ (2 ^ w - 1) / (2 * sizeofPtr) ∧ block ≠ 0
    · obtain ⟨small, isNotNull⟩ := doubles
      have noWrap : M.allocsize * 2 % 2 ^ w = M.allocsize * 2 := by
        have fits := (Nat.le_div_iff_mul_le
          (Nat.mul_pos Nat.two_pos pointers)).mp small
        have larger : M.allocsize * 2 ≤ M.allocsize * (2 * sizeofPtr) :=
          Nat.mul_le_mul_left _ (Nat.le_mul_of_pos_right 2 pointers)
        have power := Nat.two_pow_pos w
        exact Nat.mod_eq_of_lt (by omega)
      obtain ⟨new, notStatic⟩ := fresh isNotNull
      rw [if_pos ⟨small, isNotNull⟩, noWrap]
      unfold MpoolModel.malloc
      rw [if_neg isNotNull]
      have stackFirst : (block :: heap).Perm
          (stack M ++ (cached M ++ (held ++ [block]))) := by
        refine ((List.perm_append_singleton block heap).symm.trans
          (blocks.append_right [block])).trans ?_
        have moved := List.perm_append_comm_assoc
          (cached M ++ held) (stack M) [block]
        rw [List.append_assoc (cached M) held [block]] at moved
        rwa [List.append_assoc, List.append_assoc, ← List.append_assoc]
      have nodupNew : (block :: heap).Nodup :=
        List.nodup_cons.mpr ⟨new, invariant.nodup⟩
      have notNullNew : 0 ∉ block :: heap := by
        rw [List.mem_cons]
        exact not_or.mpr ⟨Ne.symm isNotNull, invariant.notNull⟩
      obtain ⟨left, result, blocksLeft⟩ :=
        freeStack_spec stackFirst notNullNew
      have sub : ∀ q ∈ left, q ∈ block :: heap := fun q member =>
        stackFirst.mem_iff.mpr
          (List.mem_append_right _ (blocksLeft.mem_iff.mp member))
      have nodupLeft : left.Nodup := blocksLeft.nodup_iff.mpr
        (List.nodup_append'.mp (stackFirst.nodup_iff.mp nodupNew)).2.1
      have kept : (doubled M memory).take M.stacklen = cached M := by
        unfold doubled cached
        rw [full, ← capacity, List.take_length, List.take_left]
      have pushed := @push_held p left held
        { M with
          slots := doubled M memory
          allocs := block
          allocsize := M.allocsize * 2 }
        (by dsimp only; omega) (by dsimp only; omega) ?_ ?_ nodupLeft
        (fun isNull => notNullNew (sub 0 isNull)) ?_ isHeld
      · obtain ⟨after, pushResult, once, member, invariantAfter⟩ := pushed
        refine ⟨left, after, ?_, Or.inl ⟨once, member⟩, invariantAfter⟩
        rw [result]
        dsimp only [bind, Except.bind]
        rw [pushResult]
      · unfold doubled
        rw [List.length_append, List.length_take, List.length_map,
          List.length_range, capacity, Nat.min_self]
        exact (Nat.mul_two M.allocsize).symm
      · unfold cached stack
        dsimp only
        rw [kept, if_pos notStatic]
        exact blocksLeft
      · intro unregistered
        have member := invariant.mem_heap isHeld
        rw [invariant.registered unregistered] at member
        cases member
    · rw [if_neg doubles]
      exact freed
  · rw [if_neg busy]
    exact freed

theorem mpoolFree_spec (invariant : Invariant M held heap)
    (pointers : 0 < sizeofPtr) (fresh : Fresh heap M block)
    (isHeld : p ∈ held) (memory : Nat → Nat) :
    ∃ left after,
      mpoolFree w sizeofPtr block memory heap M p = .ok (left, after) ∧
      CachedOrFreed M after left p ∧
      Invariant after (held.erase p) left := by
  have isNotNull : p ≠ 0 := by
    rintro rfl
    exact invariant.notNull (invariant.mem_heap isHeld)
  unfold mpoolFree
  rw [if_neg isNotNull]
  by_cases room : M.stacklen < M.allocsize
  · obtain ⟨after, result, once, member, invariantAfter⟩ :=
      push_held invariant.positive room invariant.capacity invariant.blocks
        invariant.nodup invariant.notNull invariant.registered isHeld
    rw [if_pos room, result]
    exact ⟨heap, after, rfl, Or.inl ⟨once, member⟩, invariantAfter⟩
  · have full : M.stacklen = M.allocsize :=
      Nat.le_antisymm invariant.stacklen_le (Nat.le_of_not_lt room)
    obtain ⟨left, after, result, ends, kept⟩ :=
      @autotune_spec w _ _ _ _ _ _ invariant pointers fresh isHeld full memory
    rw [if_neg room, result]
    exact ⟨left, _, rfl, ends, kept.positive, kept.stacklen_le,
      kept.capacity, kept.blocks, kept.nodup, kept.notNull,
      kept.registered⟩

/-! ## `mpool_atexit` -/

theorem freeItems_spec {n : Nat} (inside : n ≤ M.slots.length)
    (blocks : heap.Perm (M.slots.take n ++ rest)) (notNull : 0 ∉ heap) :
    ∃ left, freeItems M n heap = .ok left ∧ left.Perm rest := by
  induction n generalizing heap with
  | zero => exact ⟨heap, rfl, blocks⟩
  | succ n ih =>
      obtain ⟨p, slot, last⟩ := take_succ_slots inside
      rw [last, List.append_assoc] at blocks
      have first := blocks.trans List.perm_middle
      have isNotNull : p ≠ 0 := by
        rintro rfl
        exact notNull (first.mem_iff.mpr List.mem_cons_self)
      obtain ⟨left, result, blocksLeft⟩ := free_spec first isNotNull
      have notNullLeft : 0 ∉ left := fun isNull =>
        notNull (first.mem_iff.mpr
          (List.mem_cons_of_mem p (blocksLeft.mem_iff.mp isNull)))
      obtain ⟨final, resultFinal, blocksFinal⟩ :=
        ih (Nat.le_of_succ_le inside) blocksLeft notNullLeft
      refine ⟨final, ?_, blocksFinal⟩
      unfold freeItems
      rw [slot]
      dsimp only [bind, Except.bind]
      rw [result]
      exact resultFinal

/-- What is left is what the client holds. -/
theorem mpoolAtexit_spec (invariant : Invariant M held heap) :
    ∃ left, mpoolAtexit M heap = .ok left ∧ left.Perm held := by
  have inside : M.stacklen ≤ M.slots.length := by
    rw [invariant.capacity]
    exact invariant.stacklen_le
  obtain ⟨left, result, blocks⟩ :=
    freeItems_spec inside invariant.blocks invariant.notNull
  have notNull : 0 ∉ left := fun isNull =>
    invariant.notNull (invariant.blocks.mem_iff.mpr
      (List.mem_append_right _ (blocks.mem_iff.mp isNull)))
  obtain ⟨final, resultFinal, blocksFinal⟩ :=
    freeStack_spec (blocks.trans List.perm_append_comm) notNull
  refine ⟨final, ?_, blocksFinal⟩
  unfold mpoolAtexit
  rw [result]
  exact resultFinal

end Libcperciva.Datastruct.MpoolOps
