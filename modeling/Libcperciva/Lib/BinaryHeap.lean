import Mathlib.Algebra.Order.Group.Nat
import Mathlib.Logic.Equiv.Basic
import Mathlib.Tactic.Common

/-!
# Heap order on positions

Positions are natural numbers and a binary tree is implicit in them: position
`i` has the children `2 * i + 1` and `2 * i + 2`.  A heap is a valuation of
the positions below some bound by values of a type with a total preorder.

The module says what a single exchange of two values does to the order of the
whole tree.  `UpOrder` and `DownOrder` are the two kinds of almost-heaps a
sift passes through; each has a lemma for one exchange and a lemma for the
moment the sift stops.  Both carry a lower bound on the parents they speak
about, so that the bottom-up construction of a heap is an instance too.
-/

namespace Libcperciva.Lib.BinaryHeap

/-- The parent of a position; the root is its own parent. -/
def parent (position : Nat) : Nat := (position - 1) / 2

theorem parent_lt {position : Nat} (positive : 0 < position) :
    parent position < position := by
  unfold parent
  omega

theorem parent_eq_iff {child position : Nat} (positive : 0 < child) :
    parent child = position ↔
      child = 2 * position + 1 ∨ child = 2 * position + 2 := by
  unfold parent
  omega

section Order

variable {α : Type*} (le : α → α → Prop)

/-- Every position below `bound` whose parent is at least `first` is in order. -/
def HeapFrom (first bound : Nat) (value : Nat → α) : Prop :=
  ∀ position, 0 < position → position < bound → first ≤ parent position →
    le (value (parent position)) (value position)

/-- Every position below `bound` is in order with its parent. -/
def HeapOrder (bound : Nat) (value : Nat → α) : Prop :=
  HeapFrom le 0 bound value

/--
Heap order except that the value at `hole` may be less than its parent.  The
children of the hole are already in order with the parent of the hole.
-/
structure UpOrder (bound hole : Nat) (value : Nat → α) : Prop where
  except : ∀ position, 0 < position → position < bound → position ≠ hole →
    le (value (parent position)) (value position)
  grand : 0 < hole → ∀ position, 0 < position → position < bound →
    parent position = hole → le (value (parent hole)) (value position)

/--
Heap order from `first` on, except that the value at `hole` may be greater
than its children.  These are already in order with the parent of the hole.
-/
structure DownOrder (first bound hole : Nat) (value : Nat → α) : Prop where
  except : ∀ position, 0 < position → position < bound →
    first ≤ parent position → parent position ≠ hole →
    le (value (parent position)) (value position)
  grand : 0 < hole → first ≤ parent hole →
    ∀ position, 0 < position → position < bound →
    parent position = hole → le (value (parent hole)) (value position)

variable {le} {first bound hole child : Nat} {value other : Nat → α}

theorem HeapOrder.parent_le
    (order : HeapOrder le bound value) {position : Nat}
    (positive : 0 < position) (below : position < bound) :
    le (value (parent position)) (value position) :=
  order position positive below (Nat.zero_le _)

/-- Heap order only looks at the positions below the bound. -/
theorem HeapOrder.congr
    (order : HeapOrder le bound value)
    (agree : ∀ position, position < bound →
      other position = value position) :
    HeapOrder le bound other := by
  intro position positive below _
  have parentBelow : parent position < bound :=
    (parent_lt positive).trans below
  rw [agree position below, agree (parent position) parentBelow]
  exact order.parent_le positive below

/-- Heap order passes to a relation which contains the order there. -/
theorem HeapOrder.mono {larger : α → α → Prop}
    (order : HeapOrder le bound value)
    (contains : ∀ i < bound, ∀ j < bound,
      le (value i) (value j) → larger (value i) (value j)) :
    HeapOrder larger bound value := by
  intro position positive below _
  exact contains _ ((parent_lt positive).trans below) _ below
    (order.parent_le positive below)

theorem HeapOrder.shrink {smaller : Nat}
    (order : HeapOrder le bound value) (shorter : smaller ≤ bound) :
    HeapOrder le smaller value := by
  intro position positive below _
  exact order.parent_le positive (below.trans_le shorter)

/-- The root of a heap is at most every value. -/
theorem HeapOrder.root_le
    (refl : ∀ a, le a a)
    (trans : ∀ a b c, le a b → le b c → le a c)
    (order : HeapOrder le bound value) :
    ∀ position, position < bound → le (value 0) (value position) := by
  intro position
  induction position using Nat.strongRecOn with
  | ind position induction =>
      intro below
      rcases Nat.eq_zero_or_pos position with rfl | positive
      · exact refl _
      · have parentBelow : parent position < position :=
          parent_lt positive
        have rootLe : le (value 0) (value (parent position)) :=
          induction _ parentBelow (parentBelow.trans below)
        exact trans _ _ _ rootLe (order.parent_le positive below)

/-! ## Exchanging two values -/

/-- The valuation with the values of two positions exchanged. -/
def exchange (left right : Nat) (value : Nat → α) : Nat → α :=
  fun position => value (Equiv.swap left right position)

@[simp]
theorem exchange_left (left right : Nat) (value : Nat → α) :
    exchange left right value left = value right := by
  simp [exchange]

@[simp]
theorem exchange_right (left right : Nat) (value : Nat → α) :
    exchange left right value right = value left := by
  simp [exchange]

theorem exchange_other {left right position : Nat} (value : Nat → α)
    (notLeft : position ≠ left) (notRight : position ≠ right) :
    exchange left right value position = value position := by
  simp [exchange, Equiv.swap_apply_of_ne_of_ne notLeft notRight]

/-! ## Sifting up -/

/-- A value smaller than its parent moves the hole to the parent. -/
theorem UpOrder.exchange_parent
    (trans : ∀ a b c, le a b → le b c → le a c)
    (order : UpOrder le bound hole value)
    (positive : 0 < hole) (below : hole < bound)
    (smaller : le (value hole) (value (parent hole))) :
    UpOrder le bound (parent hole) (exchange hole (parent hole) value) := by
  have parentLt : parent hole < hole := parent_lt positive
  constructor
  · intro position posPositive posBelow notParent
    by_cases atHole : position = hole
    · subst position
      simpa using smaller
    · rw [exchange_other value atHole notParent]
      by_cases underHole : parent position = hole
      · rw [underHole, exchange_left]
        exact order.grand positive position posPositive posBelow underHole
      · have inOrder : le (value (parent position)) (value position) :=
          order.except position posPositive posBelow atHole
        by_cases underParent : parent position = parent hole
        · rw [underParent, exchange_right]
          exact trans _ _ _ smaller (underParent ▸ inOrder)
        · rwa [exchange_other value underHole underParent]
  · intro parentPositive position posPositive posBelow underParent
    have grandLt : parent (parent hole) < parent hole :=
      parent_lt parentPositive
    have parentInOrder :
        le (value (parent (parent hole))) (value (parent hole)) :=
      order.except (parent hole) parentPositive
        (parentLt.trans below) parentLt.ne
    rw [exchange_other value (grandLt.trans parentLt).ne grandLt.ne]
    by_cases atHole : position = hole
    · subst position
      simpa using parentInOrder
    · have notParent : position ≠ parent hole := by
        have posLt := parent_lt posPositive
        omega
      have inOrder : le (value (parent position)) (value position) :=
        order.except position posPositive posBelow atHole
      rw [exchange_other value atHole notParent]
      rw [underParent] at inOrder
      exact trans _ _ _ parentInOrder inOrder

/-- A value in order with its parent ends the sift. -/
theorem UpOrder.heapOrder
    (order : UpOrder le bound hole value)
    (stop : 0 < hole → le (value (parent hole)) (value hole)) :
    HeapOrder le bound value := by
  intro position positive below _
  by_cases atHole : position = hole
  · subst position
    exact stop positive
  · exact order.except position positive below atHole

/-- A heap whose last position was just filled is a sift-up in progress. -/
theorem HeapOrder.upOrder_last
    (order : HeapOrder le bound value) :
    UpOrder le (bound + 1) bound value := by
  constructor
  · intro position positive below notLast
    exact order.parent_le positive (by omega)
  · intro _ position positive below underLast
    have := parent_lt positive
    omega

/-! ## Sifting down -/

/-- The least child of the hole moves up and the hole moves to its place. -/
theorem DownOrder.exchange_child
    (order : DownOrder le first bound hole value)
    (childPositive : 0 < child) (childBelow : child < bound)
    (underHole : parent child = hole)
    (least : ∀ sibling, 0 < sibling → sibling < bound →
      parent sibling = hole → le (value child) (value sibling))
    (smaller : le (value child) (value hole)) :
    DownOrder le first bound child (exchange child hole value) := by
  have holeLt : hole < child := underHole ▸ parent_lt childPositive
  constructor
  · intro position positive below fromFirst notUnderChild
    by_cases atChild : position = child
    · subst position
      rw [underHole, exchange_left, exchange_right]
      exact smaller
    · by_cases atHole : position = hole
      · subst position
        have parentLt := parent_lt positive
        rw [exchange_right,
          exchange_other value notUnderChild parentLt.ne]
        exact order.grand positive fromFirst child
          childPositive childBelow underHole
      · rw [exchange_other value atChild atHole]
        by_cases sibling : parent position = hole
        · rw [sibling, exchange_right]
          exact least position positive below sibling
        · rw [exchange_other value notUnderChild sibling]
          exact order.except position positive below fromFirst sibling
  · intro _ fromFirst position positive below underChild
    have childLt : child < position := underChild ▸ parent_lt positive
    have inOrder : le (value (parent position)) (value position) := by
      apply order.except position positive below
      · omega
      · omega
    rw [underHole, exchange_right,
      exchange_other value childLt.ne' (holeLt.trans childLt).ne']
    rwa [underChild] at inOrder

/-- A value in order with both its children ends the sift. -/
theorem DownOrder.heapFrom
    (order : DownOrder le first bound hole value)
    (stop : ∀ position, 0 < position → position < bound →
      parent position = hole → le (value hole) (value position)) :
    HeapFrom le first bound value := by
  intro position positive below fromFirst
  by_cases underHole : parent position = hole
  · rw [underHole]
    exact stop position positive below underHole
  · exact order.except position positive below fromFirst underHole

/-- One more parent joins a heap built from the bottom. -/
theorem HeapFrom.downOrder
    (order : HeapFrom le (hole + 1) bound value) :
    DownOrder le hole bound hole value := by
  constructor
  · intro position positive below fromHole notUnderHole
    exact order position positive below (by omega)
  · intro positive fromHole
    have := parent_lt positive
    omega

/-! ## Replacing one value by the last -/

/--
The last value took the place of the one at `hole` and is less than its new
parent: only that pair may be out of order.
-/
theorem HeapOrder.replace_up
    (trans : ∀ a b c, le a b → le b c → le a c)
    (order : HeapOrder le (bound + 1) value)
    (others : ∀ position, position ≠ hole →
      other position = value position)
    (below : hole < bound) (positive : 0 < hole)
    (smaller : le (other hole) (other (parent hole))) :
    UpOrder le bound hole other := by
  have parentLt := parent_lt positive
  rw [others _ parentLt.ne] at smaller
  constructor
  · intro position posPositive posBelow notHole
    rw [others position notHole]
    by_cases underHole : parent position = hole
    · have holeLe := order.parent_le positive (by omega)
      have posLe := order.parent_le posPositive (by omega)
      rw [underHole] at posLe ⊢
      exact trans _ _ _ smaller (trans _ _ _ holeLe posLe)
    · rw [others _ underHole]
      exact order.parent_le posPositive (by omega)
  · intro _ position posPositive posBelow underHole
    have posLt := parent_lt posPositive
    have holeLe := order.parent_le positive (by omega)
    have posLe := order.parent_le posPositive (by omega)
    rw [others position (by omega), others _ parentLt.ne]
    rw [underHole] at posLe
    exact trans _ _ _ holeLe posLe

/--
The last value took the place of the one at `hole` and is at least its new
parent: only the pairs below the hole may be out of order.
-/
theorem HeapOrder.replace_down
    (trans : ∀ a b c, le a b → le b c → le a c)
    (order : HeapOrder le (bound + 1) value)
    (others : ∀ position, position ≠ hole →
      other position = value position)
    (bigger : 0 < hole → le (other (parent hole)) (other hole)) :
    DownOrder le 0 bound hole other := by
  constructor
  · intro position posPositive below _ notUnderHole
    by_cases atHole : position = hole
    · subst position
      exact bigger posPositive
    · rw [others position atHole, others _ notUnderHole]
      exact order.parent_le posPositive (by omega)
  · intro positive _ position posPositive below underHole
    have posLt := parent_lt posPositive
    have parentLt := parent_lt positive
    have holeLe := order.parent_le positive (by omega)
    have posLe := order.parent_le posPositive (by omega)
    rw [others position (by omega), others _ parentLt.ne]
    rw [underHole] at posLe
    exact trans _ _ _ holeLe posLe

end Order

end Libcperciva.Lib.BinaryHeap
