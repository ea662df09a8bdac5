import Libcperciva.Datastruct.PtrheapModel
import Libcperciva.Lib.BinaryHeap
import Mathlib.Data.List.GetD

/-!
# What the sift routines of the pointer heap do

`heapifyup` and `heapify` rearrange a prefix of the array and report every
element they move.  `Moves` states this much without looking at the order:
the result is a permutation, positions outside the prefix keep their values,
and record cookies that were exact before the routine are exact after the
calls it makes.

The order comes from the library on binary heaps, instantiated at the
comparison `compar a b ≤ 0`.
-/

namespace Libcperciva.Datastruct.PtrheapSift

open Libcperciva.Datastruct.PtrheapModel
open Libcperciva.Lib.BinaryHeap

variable {α : Type*} [Inhabited α]

/-! ## Reading the array -/

theorem ptrlistGet_eq_getElem {elems : List α} {pos : Nat}
    (below : pos < elems.length) :
    ptrlistGet elems pos = elems[pos] := by
  simp [ptrlistGet, below]

theorem ptrlistGet_set_same {elems : List α} {pos : Nat} (ptr : α)
    (below : pos < elems.length) :
    ptrlistGet (ptrlistSet elems pos ptr) pos = ptr := by
  simp [ptrlistGet, ptrlistSet, below]

theorem ptrlistGet_set_other {elems : List α} {pos other : Nat} (ptr : α)
    (different : other ≠ pos) :
    ptrlistGet (ptrlistSet elems pos ptr) other = ptrlistGet elems other := by
  simp [ptrlistGet, ptrlistSet, List.getElem?_set_ne different.symm]

omit [Inhabited α] in
@[simp]
theorem ptrlistSet_length (elems : List α) (pos : Nat) (ptr : α) :
    (ptrlistSet elems pos ptr).length = elems.length := by
  simp [ptrlistSet]

/-- `swap` exchanges the two values. -/
theorem ptrlistGet_swap (elems : List α) {i j : Nat} (setreccookie : Bool)
    (iBelow : i < elems.length) (jBelow : j < elems.length) :
    ptrlistGet (swap elems i j setreccookie).elems =
      exchange i j (ptrlistGet elems) := by
  funext pos
  simp only [swap]
  by_cases atRight : pos = j
  · subst pos
    rw [ptrlistGet_set_same _ (by simpa using jBelow), exchange_right]
  · rw [ptrlistGet_set_other _ atRight]
    by_cases atLeft : pos = i
    · subst pos
      rw [ptrlistGet_set_same _ iBelow, exchange_left]
    · rw [ptrlistGet_set_other _ atLeft,
        exchange_other _ atLeft atRight]

@[simp]
theorem swap_length (elems : List α) (i j : Nat) (setreccookie : Bool) :
    (swap elems i j setreccookie).elems.length = elems.length := by
  simp [swap]

theorem swap_perm {elems : List α} {i j : Nat} (setreccookie : Bool)
    (iBelow : i < elems.length) (jBelow : j < elems.length) :
    (swap elems i j setreccookie).elems.Perm elems := by
  simp only [swap, ptrlistSet, ptrlistGet_eq_getElem iBelow,
    ptrlistGet_eq_getElem jBelow]
  exact List.set_set_perm iBelow jBelow

/-! ## Record cookies -/

section Cookies

variable [DecidableEq α]

/-- The value of `rc` in the last call `setreccookie(cookie, ptr, rc)`. -/
def lastCookie (log : List (CookieCall α)) (ptr : α) : Option Nat :=
  (log.reverse.find? fun call => call.1 = ptr).map Prod.snd

omit [Inhabited α] [DecidableEq α] in
/-- The value of `ptr` in the last call `setreccookie(cookie, ptr, rc)`. -/
def lastPtr (log : List (CookieCall α)) (rc : Nat) : Option α :=
  (log.reverse.find? fun call => call.2 = rc).map Prod.fst

omit [Inhabited α] in
@[simp]
theorem lastCookie_concat
    (log : List (CookieCall α)) (ptr other : α) (rc : Nat) :
    lastCookie (log ++ [(other, rc)]) ptr =
      if other = ptr then some rc else lastCookie log ptr := by
  by_cases same : other = ptr <;> simp [lastCookie, same]

omit [Inhabited α] [DecidableEq α] in
@[simp]
theorem lastPtr_concat
    (log : List (CookieCall α)) (ptr : α) (rc other : Nat) :
    lastPtr (log ++ [(ptr, other)]) rc =
      if other = rc then some ptr else lastPtr log rc := by
  by_cases same : other = rc <;> simp [lastPtr, same]

/--
The log of calls describes the array below `bound`: the last call for a
position was made with the pointer which is there, and the last call for a
pointer in `single` was made with the position where it is.
-/
structure Tracked (single : α → Prop) (log : List (CookieCall α))
    (bound : Nat) (elems : List α) : Prop where
  atPosition : ∀ pos < bound, lastPtr log pos = some (ptrlistGet elems pos)
  ofPointer : ∀ pos < bound, single (ptrlistGet elems pos) →
    lastCookie log (ptrlistGet elems pos) = some pos

/-- A pointer in `single` occurs once. -/
theorem Tracked.position_unique
    {single : α → Prop} {log : List (CookieCall α)} {bound : Nat}
    {elems : List α} (tracked : Tracked single log bound elems)
    {left right : Nat} (leftBelow : left < bound) (rightBelow : right < bound)
    (isSingle : single (ptrlistGet elems left))
    (same : ptrlistGet elems left = ptrlistGet elems right) :
    left = right := by
  have leftCookie := tracked.ofPointer left leftBelow isSingle
  have rightCookie := tracked.ofPointer right rightBelow (same ▸ isSingle)
  rw [← same, leftCookie] at rightCookie
  exact Option.some.inj rightCookie

theorem Tracked.shrink
    {single : α → Prop} {log : List (CookieCall α)} {bound smaller : Nat}
    {elems : List α} (tracked : Tracked single log bound elems)
    (shorter : smaller ≤ bound) :
    Tracked single log smaller elems where
  atPosition pos below := tracked.atPosition pos (below.trans_le shorter)
  ofPointer pos below := tracked.ofPointer pos (below.trans_le shorter)

theorem Tracked.congr
    {single : α → Prop} {log : List (CookieCall α)} {bound : Nat}
    {elems other : List α} (tracked : Tracked single log bound elems)
    (agree : ∀ pos < bound, ptrlistGet other pos = ptrlistGet elems pos) :
    Tracked single log bound other where
  atPosition pos below := by
    rw [agree pos below]
    exact tracked.atPosition pos below
  ofPointer pos below isSingle := by
    rw [agree pos below] at isSingle ⊢
    exact tracked.ofPointer pos below isSingle

/--
Storing a pointer at one position and reporting it keeps the log exact, if
a single pointer is not already at another position below the bound.
-/
theorem Tracked.store
    {single : α → Prop} {log : List (CookieCall α)} {bound : Nat}
    {elems other : List α} {position : Nat}
    (agree : ∀ pos < bound, pos ≠ position →
      ptrlistGet other pos = ptrlistGet elems pos)
    (atOthers : ∀ pos < bound, pos ≠ position →
      lastPtr log pos = some (ptrlistGet elems pos))
    (ofOthers : ∀ pos < bound, pos ≠ position →
      single (ptrlistGet elems pos) →
      lastCookie log (ptrlistGet elems pos) = some pos)
    (fresh : single (ptrlistGet other position) →
      ∀ pos < bound, pos ≠ position →
      ptrlistGet elems pos ≠ ptrlistGet other position) :
    Tracked single (log ++ [(ptrlistGet other position, position)])
      bound other where
  atPosition pos below := by
    rw [lastPtr_concat]
    by_cases here : position = pos
    · simp [here]
    · rw [if_neg here, agree pos below (Ne.symm here)]
      exact atOthers pos below (Ne.symm here)
  ofPointer pos below isSingle := by
    rw [lastCookie_concat]
    by_cases here : position = pos
    · simp [here]
    · have notHere : pos ≠ position := Ne.symm here
      have sameValue := agree pos below notHere
      have notStored : ptrlistGet other position ≠ ptrlistGet other pos := by
        intro equal
        have storedSingle : single (ptrlistGet other position) :=
          equal ▸ isSingle
        exact fresh storedSingle pos below notHere
          (sameValue.symm.trans equal.symm)
      rw [if_neg notStored, sameValue]
      exact ofOthers pos below notHere (sameValue ▸ isSingle)

/-- The two calls of `swap` keep the log exact. -/
theorem Tracked.swap
    {single : α → Prop} {log : List (CookieCall α)} {bound : Nat}
    {elems : List α} {i j : Nat}
    (tracked : Tracked single log bound elems)
    (iBelow : i < bound) (jBelow : j < bound) (different : i ≠ j)
    (fits : bound ≤ elems.length) :
    Tracked single (log ++ (swap elems i j true).calls) bound
      (swap elems i j true).elems := by
  have values := ptrlistGet_swap elems true
    (iBelow.trans_le fits) (jBelow.trans_le fits)
  have calls : (PtrheapModel.swap elems i j true).calls =
      [(ptrlistGet elems j, i), (ptrlistGet elems i, j)] := by
    change notify true (PtrheapModel.swap elems i j true).elems [i, j] = _
    simp [notify, values]
  rw [calls]
  constructor
  · intro pos below
    rw [values]
    rw [show ∀ left right : CookieCall α, log ++ [left, right] =
      (log ++ [left]) ++ [right] by simp]
    rw [lastPtr_concat, lastPtr_concat]
    by_cases atRight : j = pos
    · simp [← atRight]
    · by_cases atLeft : i = pos
      · simp [← atLeft, different.symm]
      · rw [if_neg atRight, if_neg atLeft,
          exchange_other _ (Ne.symm atLeft) (Ne.symm atRight)]
        exact tracked.atPosition pos below
  · intro pos below isSingle
    rw [values] at isSingle ⊢
    rw [show ∀ left right : CookieCall α, log ++ [left, right] =
      (log ++ [left]) ++ [right] by simp]
    rw [lastCookie_concat, lastCookie_concat]
    -- The position a value comes from; a single value comes from one only.
    have source : ∀ from', from' < bound →
        ptrlistGet elems from' = exchange i j (ptrlistGet elems) pos →
        Equiv.swap i j pos = from' := by
      intro from' fromBelow equal
      have swapBelow : Equiv.swap i j pos < bound := by
        rw [Equiv.swap_apply_def]
        split_ifs <;> assumption
      exact tracked.position_unique swapBelow fromBelow isSingle equal.symm
    by_cases atRight : ptrlistGet elems i = exchange i j (ptrlistGet elems) pos
    · have moved := source i iBelow atRight
      have posRight : pos = j := by
        simpa using congrArg (Equiv.swap i j) moved
      rw [if_pos atRight, posRight]
    · rw [if_neg atRight]
      by_cases atLeft :
          ptrlistGet elems j = exchange i j (ptrlistGet elems) pos
      · have moved := source j jBelow atLeft
        have posLeft : pos = i := by
          simpa using congrArg (Equiv.swap i j) moved
        rw [if_pos atLeft, posLeft]
      · have notLeft : pos ≠ i := by
          rintro rfl
          exact atLeft (exchange_left _ _ _).symm
        have notRight : pos ≠ j := by
          rintro rfl
          exact atRight (exchange_right _ _ _).symm
        rw [if_neg atLeft]
        rw [exchange_other _ notLeft notRight] at isSingle ⊢
        exact tracked.ofPointer pos below isSingle

/-! ## Rearranging a prefix -/

/-- A routine rearranged the array below `bound` and reported the moves. -/
structure Moves (setreccookie : Bool) (bound : Nat) (elems : List α)
    (result : Sifted α) : Prop where
  perm : result.elems.Perm elems
  beyond : ∀ pos, bound ≤ pos →
    ptrlistGet result.elems pos = ptrlistGet elems pos
  tracked : setreccookie = true →
    ∀ (single : α → Prop) (log : List (CookieCall α)),
      Tracked single log bound elems →
      Tracked single (log ++ result.calls) bound result.elems

theorem Moves.length_eq
    {setreccookie : Bool} {bound : Nat} {elems : List α} {result : Sifted α}
    (moves : Moves setreccookie bound elems result) :
    result.elems.length = elems.length :=
  moves.perm.length_eq

theorem Moves.refl (setreccookie : Bool) (bound : Nat) (elems : List α) :
    Moves setreccookie bound elems ⟨elems, []⟩ where
  perm := List.Perm.refl _
  beyond _ _ := rfl
  tracked _ _ log tracked := by simpa using tracked

theorem Moves.trans
    {setreccookie : Bool} {bound : Nat} {elems : List α}
    {first second : Sifted α}
    (head : Moves setreccookie bound elems first)
    (tail : Moves setreccookie bound first.elems second) :
    Moves setreccookie bound elems
      ⟨second.elems, first.calls ++ second.calls⟩ where
  perm := tail.perm.trans head.perm
  beyond pos above := (tail.beyond pos above).trans (head.beyond pos above)
  tracked enabled single log tracked := by
    have afterHead := head.tracked enabled single log tracked
    simpa using tail.tracked enabled single _ afterHead

theorem Moves.swap
    {bound : Nat} {elems : List α} {i j : Nat} (setreccookie : Bool)
    (iBelow : i < bound) (jBelow : j < bound) (different : i ≠ j)
    (fits : bound ≤ elems.length) :
    Moves setreccookie bound elems (swap elems i j setreccookie) where
  perm :=
    swap_perm setreccookie (iBelow.trans_le fits) (jBelow.trans_le fits)
  beyond pos above := by
    rw [ptrlistGet_swap elems setreccookie
      (iBelow.trans_le fits) (jBelow.trans_le fits)]
    exact exchange_other _ (by omega) (by omega)
  tracked enabled single log tracked := by
    subst enabled
    exact tracked.swap iBelow jBelow different fits

theorem heapifyup_moves
    (compar : α → α → Int) (setreccookie : Bool) {bound : Nat}
    (elems : List α) (i : Nat)
    (below : i < bound) (fits : bound ≤ elems.length) :
    Moves setreccookie bound elems
      (heapifyup compar setreccookie elems i) := by
  induction elems, i using heapifyup.induct compar setreccookie with
  | case1 elems =>
      rw [heapifyup]
      exact Moves.refl _ _ _
  | case2 elems i notRoot inOrder =>
      rw [heapifyup, if_neg notRoot, if_pos inOrder]
      exact Moves.refl _ _ _
  | case3 elems i notRoot outOfOrder swapped induction =>
      rw [heapifyup, if_neg notRoot, if_neg outOfOrder]
      have parentLt : (i - 1) / 2 < i := by omega
      have head : Moves setreccookie bound elems swapped :=
        Moves.swap setreccookie below (parentLt.trans below)
          parentLt.ne' fits
      have tail := induction (parentLt.trans below)
        (by simpa [swapped] using fits)
      exact head.trans tail

theorem heapify_moves
    (compar : α → α → Int) (setreccookie : Bool) {bound : Nat}
    (elems : List α) (i N : Nat)
    (below : i < bound) (within : N ≤ bound) (fits : bound ≤ elems.length) :
    Moves setreccookie bound elems
      (heapify compar setreccookie elems i N) := by
  induction elems, i using heapify.induct compar setreccookie N with
  | case1 elems i atMin =>
      rw [heapify, if_pos atMin]
      exact Moves.refl _ _ _
  | case2 elems i notMin min swapped induction =>
      rw [heapify, if_neg notMin]
      have cases := heapifyMin_cases compar elems i N
      have minBelow : min < bound := by omega
      have head : Moves setreccookie bound elems swapped :=
        Moves.swap setreccookie minBelow below notMin fits
      have tail := induction minBelow (by simpa [swapped] using fits)
      exact head.trans tail

end Cookies

theorem heapify_length
    (compar : α → α → Int) (setreccookie : Bool)
    (elems : List α) (i N : Nat)
    (below : i < elems.length) (fits : N ≤ elems.length) :
    (heapify compar setreccookie elems i N).elems.length = elems.length := by
  classical
  exact (heapify_moves compar setreccookie elems i N below fits
    le_rfl).length_eq

/-- The loop of `ptrheap_create` permutes the array. -/
theorem heapifyAll_perm
    (compar : α → α → Int) {N : Nat} :
    ∀ (i : Nat) (elems : List α), i ≤ N → N = elems.length →
      (heapifyAll compar N i elems).Perm elems := by
  classical
  intro i
  induction i with
  | zero =>
      intro elems _ _
      exact List.Perm.refl _
  | succ i induction =>
      intro elems within sized
      have moves := heapify_moves compar false elems i N
        (by omega) sized.le le_rfl
      have rest := induction _ (by omega)
        (sized.trans moves.length_eq.symm)
      exact rest.trans moves.perm

/-! ## Order -/

/-- The order a comparison function stands for. -/
def leOf (compar : α → α → Int) (left right : α) : Prop :=
  compar left right ≤ 0

/--
A comparison function that is a total preorder: its sign is reversed when
its arguments are, and "at most" is transitive.
-/
structure TotalPreorder (compar : α → α → Int) : Prop where
  flip : ∀ left right, compar left right < 0 ↔ 0 < compar right left
  trans : ∀ {first second third}, compar first second ≤ 0 →
    compar second third ≤ 0 → compar first third ≤ 0

section Order

variable {compar : α → α → Int}

omit [Inhabited α] in
theorem TotalPreorder.refl (preorder : TotalPreorder compar) (ptr : α) :
    leOf compar ptr ptr := by
  have flip := preorder.flip ptr ptr
  unfold leOf
  omega

omit [Inhabited α] in
theorem TotalPreorder.le_of_nonneg (preorder : TotalPreorder compar)
    {left right : α} (order : 0 ≤ compar left right) :
    leOf compar right left := by
  have flip := preorder.flip left right
  have flip' := preorder.flip right left
  unfold leOf
  omega

omit [Inhabited α] in
theorem TotalPreorder.le_trans (preorder : TotalPreorder compar)
    (first second third : α) (left : leOf compar first second)
    (right : leOf compar second third) :
    leOf compar first third :=
  preorder.trans left right

theorem heapifyup_heapOrder
    (preorder : TotalPreorder compar) (setreccookie : Bool) {bound : Nat}
    (elems : List α) (i : Nat)
    (below : i < bound) (fits : bound ≤ elems.length)
    (order : UpOrder (leOf compar) bound i (ptrlistGet elems)) :
    HeapOrder (leOf compar) bound
      (ptrlistGet (heapifyup compar setreccookie elems i).elems) := by
  induction elems, i using heapifyup.induct compar setreccookie with
  | case1 elems =>
      rw [heapifyup]
      exact order.heapOrder (by omega)
  | case2 elems i notRoot inOrder =>
      rw [heapifyup, if_neg notRoot, if_pos inOrder]
      exact order.heapOrder fun _ => preorder.le_of_nonneg inOrder
  | case3 elems i notRoot outOfOrder swapped induction =>
      rw [heapifyup, if_neg notRoot, if_neg outOfOrder]
      have parentLt : (i - 1) / 2 < i := by omega
      have smaller : leOf compar (ptrlistGet elems i)
          (ptrlistGet elems (parent i)) := by
        unfold leOf parent
        omega
      have moved := order.exchange_parent preorder.le_trans
        (by omega) below smaller
      have values := ptrlistGet_swap elems setreccookie
        (below.trans_le fits) ((parentLt.trans below).trans_le fits)
      apply induction (parentLt.trans below) (by simpa [swapped] using fits)
      rw [show ptrlistGet swapped.elems = _ from values]
      exact moved

/-- `heapifyMin` is at most the element and both its children. -/
theorem heapifyMin_least
    (preorder : TotalPreorder compar) (elems : List α) (i N : Nat) :
    leOf compar (ptrlistGet elems (heapifyMin compar elems i N))
        (ptrlistGet elems i) ∧
      ∀ position, 0 < position → position < N → parent position = i →
        leOf compar (ptrlistGet elems (heapifyMin compar elems i N))
          (ptrlistGet elems position) := by
  unfold heapifyMin
  generalize leftDef : (if 2 * i + 1 < N ∧
      compar (ptrlistGet elems i) (ptrlistGet elems (2 * i + 1)) > 0 then
    2 * i + 1 else i) = left
  -- The first comparison: `left` is at most the element and its left child.
  have leftLeast : leOf compar (ptrlistGet elems left) (ptrlistGet elems i) ∧
      (2 * i + 1 < N →
        leOf compar (ptrlistGet elems left)
          (ptrlistGet elems (2 * i + 1))) := by
    subst left
    split_ifs with bigger
    · exact ⟨preorder.le_of_nonneg (by omega), fun _ => preorder.refl _⟩
    · refine ⟨preorder.refl _, fun below => ?_⟩
      unfold leOf
      omega
  -- The second comparison: the result is at most `left` and the right child.
  have minLeast : ∀ min, min = (if 2 * i + 2 < N ∧
        compar (ptrlistGet elems left) (ptrlistGet elems (2 * i + 2)) > 0 then
      2 * i + 2 else left) →
      leOf compar (ptrlistGet elems min) (ptrlistGet elems left) ∧
      (2 * i + 2 < N →
        leOf compar (ptrlistGet elems min)
          (ptrlistGet elems (2 * i + 2))) := by
    rintro min rfl
    split_ifs with bigger
    · exact ⟨preorder.le_of_nonneg (by omega), fun _ => preorder.refl _⟩
    · refine ⟨preorder.refl _, fun below => ?_⟩
      unfold leOf
      omega
  obtain ⟨minLeft, minRight⟩ := minLeast _ rfl
  refine ⟨preorder.le_trans _ _ _ minLeft leftLeast.1, ?_⟩
  intro position positive below underI
  rcases (parent_eq_iff positive).mp underI with rfl | rfl
  · exact preorder.le_trans _ _ _ minLeft (leftLeast.2 below)
  · exact minRight below

theorem heapify_heapFrom
    (preorder : TotalPreorder compar) (setreccookie : Bool) {first : Nat}
    (elems : List α) (i N : Nat)
    (below : i < elems.length) (fits : N ≤ elems.length)
    (order : DownOrder (leOf compar) first N i (ptrlistGet elems)) :
    HeapFrom (leOf compar) first N
      (ptrlistGet (heapify compar setreccookie elems i N).elems) := by
  induction elems, i using heapify.induct compar setreccookie N with
  | case1 elems i atMin =>
      rw [heapify, if_pos atMin]
      have least := (heapifyMin_least preorder elems i N).2
      rw [atMin] at least
      exact order.heapFrom least
  | case2 elems i notMin min swapped induction =>
      rw [heapify, if_neg notMin]
      have cases := heapifyMin_cases compar elems i N
      have minLeast := heapifyMin_least preorder elems i N
      have underI : parent min = i := by
        have positive : 0 < min := by omega
        rw [parent_eq_iff positive]
        omega
      have minBelow : min < N := by omega
      have moved := order.exchange_child (by omega) minBelow underI
        minLeast.2 minLeast.1
      have values := ptrlistGet_swap elems setreccookie
        (minBelow.trans_le fits) below
      apply induction
      · simpa [swapped] using minBelow.trans_le fits
      · simpa [swapped] using fits
      · rw [show ptrlistGet swapped.elems = _ from values]
        exact moved

/-- The loop of `ptrheap_create` builds a heap out of any array. -/
theorem heapifyAll_heapFrom
    (preorder : TotalPreorder compar) {N : Nat} :
    ∀ (i : Nat) (elems : List α), i ≤ N → N = elems.length →
      HeapFrom (leOf compar) i N (ptrlistGet elems) →
      HeapOrder (leOf compar) N
        (ptrlistGet (heapifyAll compar N i elems)) := by
  intro i
  induction i with
  | zero =>
      intro elems _ _ order
      exact order
  | succ i induction =>
      intro elems within sized order
      rw [heapifyAll]
      have sifted := heapify_heapFrom preorder false elems i N
        (by omega) sized.le order.downOrder
      have sameLength := heapify_length compar false elems i N
        (by omega) sized.le
      exact induction _ (by omega) (sized.trans sameLength.symm) sifted

end Order

end Libcperciva.Datastruct.PtrheapSift
