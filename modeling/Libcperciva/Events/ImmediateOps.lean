import Libcperciva.Events.ImmediateModel
import Mathlib.Data.List.Nodup

/-!
# What the immediate event functions do

The abstract content of the queues maps the cookie of each event to its event
record.  Each function updates this map at one cookie at most, and
`events_immediate_get` returns NULL only if it is empty.
-/

namespace Libcperciva.Events.ImmediateOps

open Libcperciva.Events.ImmediateModel

variable {ε : Type*} {queue after : Immediate ε}

/-- The event record with a cookie. -/
def immediate (queue : Immediate ε) (cookie : Nat) : Option ε :=
  (queue.nodes cookie).map Eventq.r

/-- What holds of the queues between calls. -/
structure Invariant (queue : Immediate ε) : Prop where
  /-- A queue lists the nodes of its priority. -/
  listed : ∀ q prio, q ∈ queue.heads prio ↔
    ∃ node, queue.nodes q = some node ∧ node.prio = prio
  range : ∀ q node, queue.nodes q = some node → node.prio < 32
  nodup : ∀ prio, (queue.heads prio).Nodup
  minq : ∀ prio < queue.minq, queue.heads prio = []
  minq_le : queue.minq ≤ 32

theorem start_invariant : Invariant ({} : Immediate ε) where
  listed _ _ := ⟨fun member => absurd member List.not_mem_nil,
    fun ⟨_, noNode, _⟩ => absurd noNode (Option.some_ne_none _).symm⟩
  range _ _ noNode := absurd noNode (Option.some_ne_none _).symm
  nodup _ := List.nodup_nil
  minq _ _ := rfl
  minq_le := Nat.le_refl 32

theorem immediate_eq_none {cookie : Nat} :
    immediate queue cookie = none ↔ queue.nodes cookie = none :=
  Option.map_eq_none_iff

/-- A node is inserted at the tail of a queue. -/
theorem eventsImmediateRegister_spec (invariant : Invariant queue)
    {allocs : ImmediateAllocs}
    (fresh : ∀ q, allocs.eventq = some q → queue.nodes q = none)
    (event : ε) {prio : Int} (low : 0 ≤ prio) (high : prio < 32) :
    eventsImmediateRegister allocs queue event prio = some (none, queue) ∨
      ∃ q after, eventsImmediateRegister allocs queue event prio =
          some (some q, after) ∧ immediate queue q = none ∧
        Invariant after ∧ immediate after =
          Function.update (immediate queue) q (some event) := by
  unfold eventsImmediateRegister
  rw [if_neg (not_not.mpr ⟨low, high⟩)]
  split_ifs with noEvent
  · exact Or.inl rfl
  cases isNode : allocs.eventq with
  | none => exact Or.inl rfl
  | some q =>
      have free := fresh q isNode
      have notListed : ∀ p, q ∉ queue.heads p := by
        intro p member
        obtain ⟨node, isNode, _⟩ := (invariant.listed q p).mp member
        rw [free] at isNode
        exact absurd isNode (Option.some_ne_none node).symm
      refine Or.inr ⟨q, _, rfl, immediate_eq_none.mpr free,
        ⟨?_, ?_, ?_, ?_, ?_⟩, ?_⟩
      · intro r p
        dsimp only
        by_cases isNew : r = q
        · subst isNew
          by_cases here : p = prio.toNat
          · simp [here]
          · simp [here, notListed p, Ne.symm here]
        · rw [Function.update_of_ne isNew, ← invariant.listed r p]
          by_cases here : p = prio.toNat
          · simp [here, isNew]
          · simp [here]
      · intro r node isNode
        dsimp only at isNode
        by_cases isNew : r = q
        · subst isNew
          rw [Function.update_self, Option.some.injEq] at isNode
          subst isNode
          dsimp only
          omega
        · rw [Function.update_of_ne isNew] at isNode
          exact invariant.range r node isNode
      · intro p
        dsimp only
        by_cases here : p = prio.toNat
        · subst here
          rw [Function.update_self]
          refine List.nodup_append.mpr
            ⟨invariant.nodup _, List.nodup_singleton q, ?_⟩
          intro r member s isLast same
          rw [List.mem_singleton.mp isLast] at same
          exact notListed _ (same ▸ member)
        · rw [Function.update_of_ne here]
          exact invariant.nodup p
      · intro p below
        dsimp only at below
        have here : p ≠ prio.toNat := by
          split_ifs at below <;> omega
        dsimp only
        rw [Function.update_of_ne here]
        apply invariant.minq
        split_ifs at below <;> omega
      · have bound := invariant.minq_le
        dsimp only
        split_ifs <;> omega
      · funext r
        unfold immediate
        by_cases isNew : r = q
        · subst isNew
          simp
        · simp [isNew]

/-- A node is removed from its queue. -/
theorem removeNode_spec (invariant : Invariant queue) {q : Nat}
    {node : Eventq ε} (isNode : queue.nodes q = some node) :
    Invariant (removeNode queue node.prio q) ∧
      immediate (removeNode queue node.prio q) =
        Function.update (immediate queue) q none := by
  have nodesHere : (removeNode queue node.prio q).nodes q = none :=
    Function.update_self _ _ _
  have nodesOther : ∀ r, r ≠ q →
      (removeNode queue node.prio q).nodes r = queue.nodes r :=
    fun r different => Function.update_of_ne different _ _
  have headsHere : (removeNode queue node.prio q).heads node.prio =
      (queue.heads node.prio).erase q := Function.update_self _ _ _
  have headsOther : ∀ p, p ≠ node.prio →
      (removeNode queue node.prio q).heads p = queue.heads p :=
    fun p different => Function.update_of_ne different _ _
  refine ⟨⟨?_, ?_, ?_, ?_, invariant.minq_le⟩, ?_⟩
  · intro r p
    have memberIff : r ∈ (removeNode queue node.prio q).heads p ↔
        r ∈ queue.heads p ∧ r ≠ q := by
      by_cases here : p = node.prio
      · subst here
        rw [headsHere, (invariant.nodup _).mem_erase_iff, and_comm]
      · rw [headsOther p here]
        refine ⟨fun member => ⟨member, ?_⟩, And.left⟩
        rintro rfl
        obtain ⟨other, isOther, isPrio⟩ := (invariant.listed r p).mp member
        rw [isNode] at isOther
        exact here (isPrio.symm.trans
          (congrArg Eventq.prio (Option.some.inj isOther)).symm)
    rw [memberIff, invariant.listed]
    by_cases isGone : r = q
    · subst isGone
      simp [nodesHere]
    · simp [nodesOther r isGone, isGone]
  · intro r other isOther
    by_cases isGone : r = q
    · subst isGone
      rw [nodesHere] at isOther
      exact absurd isOther (Option.some_ne_none other).symm
    · rw [nodesOther r isGone] at isOther
      exact invariant.range r other isOther
  · intro p
    by_cases here : p = node.prio
    · subst here
      rw [headsHere]
      exact (invariant.nodup _).erase q
    · rw [headsOther p here]
      exact invariant.nodup p
  · intro p below
    have empty := invariant.minq p below
    by_cases here : p = node.prio
    · subst here
      rw [headsHere, empty]
      rfl
    · rw [headsOther p here]
      exact empty
  · funext r
    unfold immediate
    by_cases isGone : r = q
    · subst isGone
      rw [nodesHere, Function.update_self]
      rfl
    · rw [nodesOther r isGone, Function.update_of_ne isGone]

theorem eventsImmediateCancel_spec (invariant : Invariant queue)
    {cookie : Nat} (held : immediate queue cookie ≠ none) :
    ∃ after, eventsImmediateCancel queue cookie = some after ∧
      Invariant after ∧
      immediate after = Function.update (immediate queue) cookie none := by
  obtain ⟨node, isNode⟩ :=
    Option.ne_none_iff_exists'.mp (mt immediate_eq_none.mpr held)
  unfold eventsImmediateCancel
  rw [isNode]
  exact ⟨_, rfl, removeNode_spec invariant isNode⟩

/-- Only empty queues are passed, and the queue that is reached is not. -/
theorem advance_spec (heads : Nat → List Nat) :
    ∀ steps minq, minq ≤ 32 → 32 ≤ minq + steps →
      (∀ prio < minq, heads prio = []) →
      advance heads steps minq ≤ 32 ∧
        (∀ prio < advance heads steps minq, heads prio = []) ∧
        (advance heads steps minq < 32 →
          heads (advance heads steps minq) ≠ []) := by
  intro steps
  induction steps with
  | zero =>
      intro minq bound enough empty
      unfold advance
      exact ⟨bound, empty, fun below => by omega⟩
  | succ steps next =>
      intro minq bound enough empty
      unfold advance
      split_ifs with passes
      · apply next (minq + 1) (by omega) (by omega)
        intro prio below
        rcases Nat.lt_succ_iff_lt_or_eq.mp below with lower | rfl
        · exact empty prio lower
        · exact passes.2
      · exact ⟨bound, empty, fun below isEmpty => passes ⟨below, isEmpty⟩⟩

/-- `events_immediate_get` takes an event, if there is one. -/
theorem eventsImmediateGet_spec (invariant : Invariant queue) :
    (∃ after, eventsImmediateGet queue = some (none, after) ∧
        Invariant after ∧ immediate after = immediate queue ∧
        ∀ cookie, immediate queue cookie = none) ∨
      ∃ cookie event after,
        eventsImmediateGet queue = some (some event, after) ∧
        immediate queue cookie = some event ∧ Invariant after ∧
        immediate after = Function.update (immediate queue) cookie none := by
  obtain ⟨bound, empty, nonempty⟩ := advance_spec queue.heads 32 queue.minq
    invariant.minq_le (by omega) invariant.minq
  unfold eventsImmediateGet
  generalize advance queue.heads 32 queue.minq = minq at *
  have moved : Invariant { queue with minq } :=
    ⟨invariant.listed, invariant.range, invariant.nodup, empty, bound⟩
  dsimp only
  split_ifs with atEnd
  · refine Or.inl ⟨_, rfl, moved, rfl, ?_⟩
    intro cookie
    rw [immediate_eq_none]
    by_contra held
    obtain ⟨node, isNode⟩ := Option.ne_none_iff_exists'.mp held
    have member := (invariant.listed cookie node.prio).mpr
      ⟨node, isNode, rfl⟩
    rw [empty _ (atEnd ▸ invariant.range cookie node isNode)] at member
    exact absurd member List.not_mem_nil
  · right
    have isQueue := nonempty (by omega)
    cases first : queue.heads minq with
    | nil => exact absurd first isQueue
    | cons q rest =>
        obtain ⟨node, isNode, isPrio⟩ := (invariant.listed q minq).mp
          (first ▸ List.mem_cons_self)
        obtain ⟨removed, contentEq⟩ := removeNode_spec moved isNode
        rw [isPrio] at removed contentEq
        refine ⟨q, node.r, _, ?_, ?_, removed, contentEq⟩
        · dsimp only
          rw [isNode]
          rfl
        · unfold immediate
          rw [isNode]
          rfl

end Libcperciva.Events.ImmediateOps
