import Libcperciva.Datastruct.PtrheapSift
import Mathlib.Data.List.NodupEquivFin

/-!
# What each operation does to a valid pointer heap

`Valid` collects what holds of a heap between calls: the count is the length
of the array, the array is in heap order, and the log of `setreccookie` calls
describes it.  Each operation keeps it and changes the array, up to order, by
exactly the pointer it is about.

Keys live behind the pointers, so a call that announces a changed key comes
with a new comparison function; `KeyIncreased` and `KeyDecreased` say what
the caller promises about it.
-/

namespace Libcperciva.Datastruct.PtrheapOps

open Libcperciva.Datastruct.PtrheapModel
open Libcperciva.Datastruct.PtrheapSift
open Libcperciva.Lib.BinaryHeap

variable {α : Type*} [Inhabited α] [DecidableEq α]

/-! ## One operation -/

/-- What holds of a heap between calls. -/
structure Valid (compar : α → α → Int) (single : α → Prop)
    (H : Ptrheap α) (log : List (CookieCall α)) : Prop where
  sized : H.elems.length = H.nelems
  order : HeapOrder (leOf compar) H.nelems (ptrlistGet H.elems)
  tracked : H.setreccookie = true → Tracked single log H.nelems H.elems

variable {compar changed : α → α → Int} {single : α → Prop}
  {H : Ptrheap α} {log : List (CookieCall α)}

omit [DecidableEq α] in
/-- Elements are the values of the positions below the length. -/
theorem mem_elems_iff {elems : List α} {ptr : α} :
    ptr ∈ elems ↔ ∃ pos < elems.length, ptrlistGet elems pos = ptr := by
  rw [List.mem_iff_getElem]
  constructor
  · rintro ⟨pos, below, rfl⟩
    exact ⟨pos, below, ptrlistGet_eq_getElem below⟩
  · rintro ⟨pos, below, rfl⟩
    exact ⟨pos, below, (ptrlistGet_eq_getElem below).symm⟩

/-- A pointer counted at most once has one position. -/
theorem position_unique_of_count {elems : List α} {left right : Nat}
    (leftBelow : left < elems.length) (rightBelow : right < elems.length)
    (once : elems.count (ptrlistGet elems left) ≤ 1)
    (same : ptrlistGet elems left = ptrlistGet elems right) :
    left = right := by
  by_contra different
  have duplicate : List.Duplicate (ptrlistGet elems left) elems := by
    rw [List.duplicate_iff_exists_distinct_get]
    rcases Nat.lt_or_gt_of_ne different with ordered | ordered
    · refine ⟨⟨left, leftBelow⟩, ⟨right, rightBelow⟩, ordered, ?_, ?_⟩
      · exact ptrlistGet_eq_getElem leftBelow
      · exact same.trans (ptrlistGet_eq_getElem rightBelow)
    · refine ⟨⟨right, rightBelow⟩, ⟨left, leftBelow⟩, ordered, ?_, ?_⟩
      · exact same.trans (ptrlistGet_eq_getElem rightBelow)
      · exact ptrlistGet_eq_getElem leftBelow
  have twice := List.duplicate_iff_two_le_count.mp duplicate
  omega

/-- Reporting the positions in order describes the array. -/
theorem tracked_notify_range {elems : List α} :
    ∀ bound, bound ≤ elems.length →
      (∀ ptr, single ptr → elems.count ptr ≤ 1) →
      Tracked single (notify true elems (List.range bound)) bound elems := by
  intro bound
  induction bound with
  | zero =>
      intro _ _
      exact ⟨by simp, by simp⟩
  | succ bound induction =>
      intro fits once
      have before := induction (by omega) once
      have calls : notify true elems (List.range (bound + 1)) =
          notify true elems (List.range bound) ++
            [(ptrlistGet elems bound, bound)] := by
        simp [notify, List.range_succ]
      rw [calls]
      apply Tracked.store (fun pos _ _ => rfl)
      · intro pos below notLast
        exact before.atPosition pos (by omega)
      · intro pos below notLast
        exact before.ofPointer pos (by omega)
      · intro isSingle pos below notLast same
        apply notLast
        exact position_unique_of_count (by omega) (by omega)
          (once _ (same ▸ isSingle)) same

theorem ptrheapCreate_valid
    (preorder : TotalPreorder compar) {setreccookie : Bool}
    {structAllocated listAllocated : Bool} {ptrs : List α}
    {calls : List (CookieCall α)}
    (once : ∀ ptr, single ptr → ptrs.count ptr ≤ 1)
    (created : ptrheapCreate compar setreccookie
      structAllocated listAllocated ptrs = some (H, calls)) :
    Valid compar single H calls ∧ H.elems.Perm ptrs := by
  unfold ptrheapCreate at created
  split at created
  · simp only [Option.some.injEq, Prod.mk.injEq] at created
    obtain ⟨rfl, rfl⟩ := created
    have perm := heapifyAll_perm compar ptrs.length ptrs le_rfl rfl
    have order := heapifyAll_heapFrom preorder ptrs.length ptrs le_rfl rfl
    refine ⟨⟨perm.length_eq, order ?_, ?_⟩, perm⟩
    · intro position positive below fromLast
      have := parent_lt positive
      omega
    · rintro rfl
      apply tracked_notify_range _ perm.length_eq.ge
      intro ptr isSingle
      rw [perm.count_eq]
      exact once ptr isSingle
  · exact absurd created (by simp)

omit [DecidableEq α] in
/-- Only a failed allocation leaves no heap. -/
theorem ptrheapCreate_eq_none (compar : α → α → Int)
    (setreccookie structAllocated listAllocated : Bool) (ptrs : List α) :
    ptrheapCreate compar setreccookie structAllocated listAllocated ptrs =
        none ↔
      ¬(structAllocated = true ∧ listAllocated = true) := by
  unfold ptrheapCreate
  cases structAllocated <;> cases listAllocated <;> simp

omit [DecidableEq α] in
theorem ptrheapAdd_status (allocated : Bool) (ptr : α) :
    (ptrheapAdd compar allocated H ptr).1 = if allocated then 0 else -1 := by
  cases allocated <;> rfl

omit [DecidableEq α] in
theorem ptrheapAdd_failed {allocated : Bool} {ptr : α}
    (failed : (ptrheapAdd compar allocated H ptr).1 ≠ 0) :
    ptrheapAdd compar allocated H ptr = (-1, H, []) := by
  cases allocated with
  | false => rfl
  | true => exact absurd rfl failed

omit [DecidableEq α] in
theorem ptrlistGet_append_left {elems : List α} {pos : Nat} (ptr : α)
    (below : pos < elems.length) :
    ptrlistGet (elems ++ [ptr]) pos = ptrlistGet elems pos := by
  simp [ptrlistGet, List.getElem?_append_left below]

omit [DecidableEq α] in
theorem ptrlistGet_append_length {elems : List α} (ptr : α) :
    ptrlistGet (elems ++ [ptr]) elems.length = ptr := by
  simp [ptrlistGet]

theorem ptrheapAdd_valid
    (preorder : TotalPreorder compar) (valid : Valid compar single H log)
    {ptr : α} (fresh : single ptr → ptr ∉ H.elems) :
    Valid compar single (ptrheapAdd compar true H ptr).2.1
        (log ++ (ptrheapAdd compar true H ptr).2.2) ∧
      (ptrheapAdd compar true H ptr).2.1.elems.Perm (ptr :: H.elems) := by
  have sized := valid.sized
  have fits : H.nelems + 1 = (H.elems ++ [ptr]).length := by
    simp [sized]
  have moves := heapifyup_moves compar H.setreccookie
    (H.elems ++ [ptr]) H.nelems (Nat.lt_succ_self H.nelems) fits.le
  have appended : HeapOrder (leOf compar) H.nelems
      (ptrlistGet (H.elems ++ [ptr])) := by
    apply valid.order.congr
    intro pos below
    exact ptrlistGet_append_left ptr (by omega)
  have order := heapifyup_heapOrder preorder H.setreccookie
    (H.elems ++ [ptr]) H.nelems (by omega) fits.le appended.upOrder_last
  refine ⟨⟨?_, ?_, ?_⟩, ?_⟩
  · exact moves.length_eq.trans fits.symm
  · exact order
  · intro enabled
    have before := valid.tracked enabled
    have last : ptrlistGet (H.elems ++ [ptr]) H.nelems = ptr := by
      rw [← sized]
      exact ptrlistGet_append_length ptr
    have agree : ∀ pos < H.nelems + 1, pos ≠ H.nelems →
        ptrlistGet (H.elems ++ [ptr]) pos = ptrlistGet H.elems pos := by
      intro pos below notLast
      exact ptrlistGet_append_left ptr (by omega)
    have stored : Tracked single (log ++ [(ptr, H.nelems)])
        (H.nelems + 1) (H.elems ++ [ptr]) := by
      have stored := Tracked.store agree
        (fun pos _ _ => before.atPosition pos (by omega))
        (fun pos _ _ => before.ofPointer pos (by omega))
        (fun isSingle pos below notLast same => by
          rw [last] at isSingle same
          exact fresh isSingle
            (mem_elems_iff.mpr ⟨pos, by omega, same⟩))
      rwa [last] at stored
    have sifted := moves.tracked enabled single _ stored
    have enabled' : H.setreccookie = true := enabled
    simpa [ptrheapAdd, ptrlistAppend, enabled'] using sifted
  · exact moves.perm.trans List.perm_append_comm

/-! ### Deleting -/

omit [DecidableEq α] in
/-- The two branches of the refill are the two sift routines. -/
theorem refill_eq (compar : α → α → Int) (H : Ptrheap α) (rc : Nat) :
    refill compar H rc =
      let elems :=
        ptrlistSet H.elems rc (ptrlistGet H.elems (H.nelems - 1))
      let calls := notify H.setreccookie elems [rc]
      let rest :=
        if 0 < rc ∧ compar (ptrlistGet elems rc)
            (ptrlistGet elems ((rc - 1) / 2)) < 0 then
          heapifyup compar H.setreccookie elems rc
        else heapify compar H.setreccookie elems rc (H.nelems - 1)
      ⟨rest.elems, calls ++ rest.calls⟩ := by
  unfold refill
  dsimp only
  split_ifs with tooSmall
  · rw [heapifyup.eq_1 compar H.setreccookie
        (ptrlistSet H.elems rc (ptrlistGet H.elems (H.nelems - 1))) rc,
      if_neg (by omega), if_neg (by omega)]
    simp
  · rfl

/-- Refilling position `rc` keeps a heap below the last position. -/
theorem refill_valid
    (preorder : TotalPreorder compar) (valid : Valid compar single H log)
    {rc : Nat} (below : rc < H.nelems - 1) :
    let stored := ptrlistSet H.elems rc (ptrlistGet H.elems (H.nelems - 1))
    let kept := refill compar H rc
    kept.elems.Perm stored ∧
      ptrlistGet kept.elems (H.nelems - 1) =
        ptrlistGet H.elems (H.nelems - 1) ∧
      HeapOrder (leOf compar) (H.nelems - 1) (ptrlistGet kept.elems) ∧
      (H.setreccookie = true →
        Tracked single (log ++ kept.calls) (H.nelems - 1) kept.elems) := by
  intro stored kept
  have sized := valid.sized
  obtain ⟨last, lastDef⟩ : ∃ last, H.nelems = last + 1 :=
    ⟨H.nelems - 1, by omega⟩
  have isLast : H.nelems - 1 = last := by omega
  have order : HeapOrder (leOf compar) (last + 1) (ptrlistGet H.elems) :=
    lastDef ▸ valid.order
  have storedLength : stored.length = H.elems.length := by
    simp [stored]
  have atRc : ptrlistGet stored rc = ptrlistGet H.elems last := by
    have rcBelow : rc < H.elems.length := by omega
    simpa [stored, isLast] using ptrlistGet_set_same
      (ptrlistGet H.elems last) rcBelow
  have atOthers : ∀ pos, pos ≠ rc →
      ptrlistGet stored pos = ptrlistGet H.elems pos :=
    fun pos notRc => ptrlistGet_set_other _ notRc
  -- Storing the last pointer and reporting it.
  have storedTracked : H.setreccookie = true →
      Tracked single (log ++ notify H.setreccookie stored [rc])
        last stored := by
    intro enabled
    have before := valid.tracked enabled
    have calls : notify H.setreccookie stored [rc] =
        [(ptrlistGet stored rc, rc)] := by
      simp [notify, enabled]
    rw [calls]
    apply Tracked.store (fun pos _ notRc => atOthers pos notRc)
    · intro pos posBelow _
      exact before.atPosition pos (by omega)
    · intro pos posBelow _
      exact before.ofPointer pos (by omega)
    · intro isSingle pos posBelow _ same
      rw [atRc] at isSingle same
      have lastBelow : last < H.nelems := by omega
      have := before.position_unique lastBelow (by omega)
        isSingle same.symm
      omega
  have lastKept : ptrlistGet stored last = ptrlistGet H.elems last :=
    atOthers last (by omega)
  have keptDef : kept = _ := refill_eq compar H rc
  have storedDef :
      ptrlistSet H.elems rc (ptrlistGet H.elems last) = stored := by
    simp [stored, isLast]
  dsimp only at keptDef
  rw [isLast, storedDef] at keptDef
  rw [isLast]
  -- Either sift routine starts from the stored array and its report.
  have finish : ∀ rest : Sifted α,
      Moves H.setreccookie last stored rest →
      HeapOrder (leOf compar) last (ptrlistGet rest.elems) →
      kept = ⟨rest.elems,
        notify H.setreccookie stored [rc] ++ rest.calls⟩ →
      kept.elems.Perm stored ∧
        ptrlistGet kept.elems last = ptrlistGet H.elems last ∧
        HeapOrder (leOf compar) last (ptrlistGet kept.elems) ∧
        (H.setreccookie = true →
          Tracked single (log ++ kept.calls) last kept.elems) := by
    rintro rest moves restOrder keptEq
    rw [keptEq]
    refine ⟨moves.perm, ?_, restOrder, ?_⟩
    · exact (moves.beyond last le_rfl).trans lastKept
    · intro enabled
      have sifted :=
        moves.tracked enabled single _ (storedTracked enabled)
      simpa using sifted
  split_ifs at keptDef with tooSmall
  · have smaller : leOf compar (ptrlistGet stored rc)
        (ptrlistGet stored (parent rc)) :=
      (show compar _ _ < 0 from tooSmall.2).le
    have upOrder : UpOrder (leOf compar) last rc (ptrlistGet stored) :=
      order.replace_up preorder.le_trans atOthers
        (by omega) tooSmall.1 smaller
    exact finish _
      (heapifyup_moves compar H.setreccookie stored rc
        (by omega) (by omega))
      (heapifyup_heapOrder preorder H.setreccookie stored rc
        (by omega) (by omega) upOrder)
      keptDef
  · have bigger : 0 < rc → leOf compar (ptrlistGet stored (parent rc))
        (ptrlistGet stored rc) := by
      intro positive
      apply preorder.le_of_nonneg
      by_contra negative
      exact tooSmall ⟨positive, not_le.mp negative⟩
    have downOrder : DownOrder (leOf compar) 0 last rc (ptrlistGet stored) :=
      order.replace_down preorder.le_trans atOthers bigger
    exact finish _
      (heapify_moves compar H.setreccookie stored rc last
        (by omega) le_rfl (by omega))
      (heapify_heapFrom preorder H.setreccookie stored rc last
        (by omega) (by omega) downOrder)
      keptDef

omit [DecidableEq α] in
theorem ptrlistGet_shrink {elems : List α} {pos : Nat}
    (below : pos < elems.length - 1) :
    ptrlistGet (ptrlistShrink elems) pos = ptrlistGet elems pos := by
  have within : pos < elems.length := by omega
  simp [ptrlistGet, ptrlistShrink, below, within]

omit [DecidableEq α] in
theorem ptrlistShrink_perm {elems : List α} {last : Nat}
    (sized : elems.length = last + 1) :
    (ptrlistGet elems last :: ptrlistShrink elems).Perm elems := by
  have nonempty : elems ≠ [] := by
    rintro rfl
    simp at sized
  have lastValue : ptrlistGet elems last = elems.getLast nonempty := by
    rw [ptrlistGet_eq_getElem (by omega), List.getLast_eq_getElem]
    simp [sized]
  have split : ptrlistShrink elems ++ [ptrlistGet elems last] = elems := by
    rw [lastValue]
    exact List.dropLast_append_getLast nonempty
  have moved := List.perm_append_singleton
    (ptrlistGet elems last) (ptrlistShrink elems)
  rw [split] at moved
  exact moved.symm

omit [DecidableEq α] in
theorem ptrlistSet_perm {elems : List α} {pos : Nat} (ptr : α)
    (below : pos < elems.length) :
    (ptrlistGet elems pos :: ptrlistSet elems pos ptr).Perm
      (ptr :: elems) := by
  have exchanged := List.getD_set_perm_cons elems pos ptr
  simpa [ptrlistGet, ptrlistSet, below] using exchanged

/-- `ptrheap_delete` removes the pointer at its position and nothing else. -/
theorem ptrheapDelete_valid
    (preorder : TotalPreorder compar) (valid : Valid compar single H log)
    {rc : Nat} (below : rc < H.nelems) :
    Valid compar single (ptrheapDelete compar H rc).1
        (log ++ (ptrheapDelete compar H rc).2) ∧
      (ptrlistGet H.elems rc :: (ptrheapDelete compar H rc).1.elems).Perm
        H.elems := by
  have sized := valid.sized
  have lengthDef : H.elems.length = (H.nelems - 1) + 1 := by omega
  -- What is left once the last position is stripped off.
  have strip : ∀ kept : Sifted α, kept.elems.length = H.elems.length →
      HeapOrder (leOf compar) (H.nelems - 1) (ptrlistGet kept.elems) →
      (H.setreccookie = true →
        Tracked single (log ++ kept.calls) (H.nelems - 1) kept.elems) →
      Valid compar single
        { H with elems := ptrlistShrink kept.elems, nelems := H.nelems - 1 }
        (log ++ kept.calls) := by
    intro kept sameLength order tracked
    have agree : ∀ pos < H.nelems - 1,
        ptrlistGet (ptrlistShrink kept.elems) pos =
          ptrlistGet kept.elems pos :=
      fun pos posBelow => ptrlistGet_shrink (by omega)
    refine ⟨?_, order.congr agree, fun enabled => ?_⟩
    · simp [ptrlistShrink, sameLength, sized]
    · exact (tracked enabled).congr agree
  unfold ptrheapDelete
  dsimp only
  split_ifs with notLast
  · obtain ⟨perm, lastKept, order, tracked⟩ :=
      refill_valid preorder valid (show rc < H.nelems - 1 by omega)
    have sameLength : (refill compar H rc).elems.length = H.elems.length :=
      perm.length_eq.trans (by simp)
    refine ⟨strip _ sameLength order tracked, ?_⟩
    have stripped := ptrlistShrink_perm (sameLength.trans lengthDef)
    rw [lastKept] at stripped
    have replaced := ptrlistSet_perm
      (ptrlistGet H.elems (H.nelems - 1)) (sized ▸ below)
    -- Cancel the last pointer, which both sides hold once more.
    have both := (stripped.trans perm).cons (ptrlistGet H.elems rc)
    have swapped := (List.Perm.swap _ _ _).trans (both.trans replaced)
    exact swapped.cons_inv
  · have atLast : rc = H.nelems - 1 := by omega
    refine ⟨strip ⟨H.elems, []⟩ rfl ?_ ?_, ?_⟩
    · exact valid.order.shrink (by omega)
    · intro enabled
      simpa using (valid.tracked enabled).shrink (Nat.sub_le _ _)
    · rw [atLast]
      exact ptrlistShrink_perm lengthDef

/-! ### Changing one key -/

/-- The order between the elements away from position `rc` is the same. -/
def OthersKept (compar changed : α → α → Int) (H : Ptrheap α)
    (rc : Nat) : Prop :=
  ∀ i < H.nelems, ∀ j < H.nelems, i ≠ rc → j ≠ rc →
    (leOf changed (ptrlistGet H.elems i) (ptrlistGet H.elems j) ↔
      leOf compar (ptrlistGet H.elems i) (ptrlistGet H.elems j))

/-- The key of the element at `rc`, and no other, has increased. -/
structure KeyIncreased (compar changed : α → α → Int) (H : Ptrheap α)
    (rc : Nat) : Prop where
  others : OthersKept compar changed H rc
  increased : ∀ i < H.nelems, i ≠ rc →
    leOf compar (ptrlistGet H.elems i) (ptrlistGet H.elems rc) →
    leOf changed (ptrlistGet H.elems i) (ptrlistGet H.elems rc)

/-- The key of the element at `rc`, and no other, has decreased. -/
structure KeyDecreased (compar changed : α → α → Int) (H : Ptrheap α)
    (rc : Nat) : Prop where
  others : OthersKept compar changed H rc
  decreased : ∀ i < H.nelems, i ≠ rc →
    leOf compar (ptrlistGet H.elems rc) (ptrlistGet H.elems i) →
    leOf changed (ptrlistGet H.elems rc) (ptrlistGet H.elems i)

theorem ptrheapIncrease_valid
    (preorder : TotalPreorder compar) (preorder' : TotalPreorder changed)
    (valid : Valid compar single H log)
    {rc : Nat} (below : rc < H.nelems)
    (key : KeyIncreased compar changed H rc) :
    Valid changed single (ptrheapIncrease changed H rc).1
        (log ++ (ptrheapIncrease changed H rc).2) ∧
      (ptrheapIncrease changed H rc).1.elems.Perm H.elems := by
  have sized := valid.sized
  have moves := heapify_moves changed H.setreccookie
    H.elems rc H.nelems below le_rfl sized.ge
  have downOrder : DownOrder (leOf changed) 0 H.nelems rc
      (ptrlistGet H.elems) := by
    constructor
    · intro pos positive posBelow _ notUnderRc
      have parentLt := parent_lt positive
      have inOrder := valid.order.parent_le positive posBelow
      by_cases atRc : pos = rc
      · subst pos
        exact key.increased _ (by omega) notUnderRc inOrder
      · exact (key.others _ (by omega) _ posBelow notUnderRc atRc).mpr inOrder
    · intro positive _ pos posPositive posBelow underRc
      have parentLt := parent_lt positive
      have posLt := parent_lt posPositive
      have rcLe := valid.order.parent_le positive below
      have posLe := valid.order.parent_le posPositive posBelow
      rw [underRc] at posLe
      exact (key.others _ (by omega) _ posBelow (by omega) (by omega)).mpr
        (preorder.le_trans _ _ _ rcLe posLe)
  have order := heapify_heapFrom preorder' H.setreccookie H.elems rc H.nelems
    (by omega) sized.ge downOrder
  refine ⟨⟨moves.length_eq.trans sized, order, ?_⟩, moves.perm⟩
  intro enabled
  exact moves.tracked enabled single log (valid.tracked enabled)

theorem ptrheapDecrease_valid
    (preorder : TotalPreorder compar) (preorder' : TotalPreorder changed)
    (valid : Valid compar single H log)
    {rc : Nat} (below : rc < H.nelems)
    (key : KeyDecreased compar changed H rc) :
    Valid changed single (ptrheapDecrease changed H rc).1
        (log ++ (ptrheapDecrease changed H rc).2) ∧
      (ptrheapDecrease changed H rc).1.elems.Perm H.elems := by
  have sized := valid.sized
  have moves := heapifyup_moves changed H.setreccookie
    H.elems rc below sized.ge
  have upOrder : UpOrder (leOf changed) H.nelems rc
      (ptrlistGet H.elems) := by
    constructor
    · intro pos positive posBelow notRc
      have parentLt := parent_lt positive
      have inOrder := valid.order.parent_le positive posBelow
      by_cases underRc : parent pos = rc
      · rw [underRc] at inOrder ⊢
        exact key.decreased _ posBelow notRc inOrder
      · exact (key.others _ (by omega) _ posBelow underRc notRc).mpr inOrder
    · intro positive pos posPositive posBelow underRc
      have parentLt := parent_lt positive
      have posLt := parent_lt posPositive
      have rcLe := valid.order.parent_le positive below
      have posLe := valid.order.parent_le posPositive posBelow
      rw [underRc] at posLe
      exact (key.others _ (by omega) _ posBelow (by omega) (by omega)).mpr
        (preorder.le_trans _ _ _ rcLe posLe)
  have order := heapifyup_heapOrder preorder' H.setreccookie H.elems rc
    below sized.ge upOrder
  refine ⟨⟨moves.length_eq.trans sized, order, ?_⟩, moves.perm⟩
  intro enabled
  exact moves.tracked enabled single log (valid.tracked enabled)

end Libcperciva.Datastruct.PtrheapOps
