import Mathlib.Data.List.Nodup
import Mathlib.Order.Basic
import Mathlib.Order.Lattice
import Mathlib.Tactic.Common

/-!
# Stable priority queues

Entries are kept in the order in which they came.  The next one has the least
priority, and came first among those which have it.  The entries of one
priority are a lane; queues for each priority hold the lanes.
-/

namespace Libcperciva.Lib.StableQueue

/-- An entry of a queue. -/
structure Entry (ι π ν : Type*) where
  name : ι
  prio : π
  value : ν

variable {ι π ν : Type*} {entries : List (Entry ι π ν)}
  {entry : Entry ι π ν}

/-! ## The next entry -/

section Next

variable [LinearOrder π]

/-- The first entry of the least priority. -/
def next : List (Entry ι π ν) → Option (Entry ι π ν)
  | [] => none
  | first :: rest =>
      match next rest with
      | none => some first
      | some later => if later.prio < first.prio then some later else some first

/-- What makes an entry the next one: those before it have a greater priority,
and those behind it no smaller one. -/
structure IsNext (before : List (Entry ι π ν)) (entry : Entry ι π ν)
    (behind : List (Entry ι π ν)) : Prop where
  before : ∀ other ∈ before, entry.prio < other.prio
  behind : ∀ other ∈ behind, entry.prio ≤ other.prio

theorem next_eq_none : next entries = none ↔ entries = [] := by
  cases entries with
  | nil => exact iff_of_true rfl rfl
  | cons first rest =>
      refine iff_of_false ?_ (List.cons_ne_nil _ _)
      unfold next
      split
      · exact Option.some_ne_none _
      · split_ifs
        · exact not_false
        · exact not_false

theorem next_isNext (isNext : next entries = some entry) :
    ∃ before behind, entries = before ++ entry :: behind ∧
      IsNext before entry behind := by
  induction entries generalizing entry with
  | nil => exact absurd isNext.symm (Option.some_ne_none _)
  | cons first rest ih =>
      unfold next at isNext
      split at isNext
      · next noMore =>
          rw [next_eq_none] at noMore
          subst noMore
          obtain rfl := Option.some.inj isNext
          exact ⟨[], [], rfl, ⟨fun _ none => absurd none List.not_mem_nil,
            fun _ none => absurd none List.not_mem_nil⟩⟩
      · next later isLater =>
          obtain ⟨before, behind, split, least⟩ := ih isLater
          split_ifs at isNext with smaller
          · obtain rfl := Option.some.inj isNext
            refine ⟨first :: before, behind, congrArg (first :: ·) split,
              ⟨?_, least.behind⟩⟩
            intro other member
            rcases List.mem_cons.mp member with rfl | inRest
            · exact smaller
            · exact least.before other inRest
          · obtain rfl := Option.some.inj isNext
            refine ⟨[], rest, rfl,
              ⟨fun _ none => absurd none List.not_mem_nil, ?_⟩⟩
            intro other member
            have notLess : first.prio ≤ later.prio := not_lt.mp smaller
            rw [split] at member
            rcases List.mem_append.mp member with inBefore | inBehind
            · exact notLess.trans (least.before other inBefore).le
            · rcases List.mem_cons.mp inBehind with rfl | inBehind
              · exact notLess
              · exact notLess.trans (least.behind other inBehind)

end Next

/-! ## Lanes -/

section Lane

variable [DecidableEq π]

/-- The entries of one priority. -/
def lane (entries : List (Entry ι π ν)) (prio : π) : List (Entry ι π ν) :=
  entries.filter fun entry => entry.prio = prio

@[simp]
theorem lane_nil (prio : π) :
    lane ([] : List (Entry ι π ν)) prio = [] := rfl

theorem lane_append (entries more : List (Entry ι π ν)) (prio : π) :
    lane (entries ++ more) prio = lane entries prio ++ lane more prio :=
  List.filter_append entries more

theorem lane_cons_self (entry : Entry ι π ν)
    (entries : List (Entry ι π ν)) :
    lane (entry :: entries) entry.prio = entry :: lane entries entry.prio :=
  List.filter_cons_of_pos (decide_eq_true rfl)

theorem lane_cons_of_ne {prio : π} (other : entry.prio ≠ prio)
    (entries : List (Entry ι π ν)) :
    lane (entry :: entries) prio = lane entries prio :=
  List.filter_cons_of_neg (mt of_decide_eq_true other)

theorem lane_eq_nil {prio : π} :
    lane entries prio = [] ↔ ∀ entry ∈ entries, entry.prio ≠ prio := by
  unfold lane
  rw [List.filter_eq_nil_iff]
  simp only [decide_eq_true_iff, ne_eq]

end Lane

/-- The next entry is the first one of the first lane that is not empty. -/
theorem lane_of_isNext [LinearOrder π] {before behind : List (Entry ι π ν)}
    (isNext : IsNext before entry behind) :
    (∀ prio < entry.prio, lane (before ++ entry :: behind) prio = []) ∧
      lane (before ++ entry :: behind) entry.prio =
        entry :: lane behind entry.prio := by
  constructor
  · intro prio smaller
    rw [lane_eq_nil]
    intro other member isPrio
    subst isPrio
    rcases List.mem_append.mp member with inBefore | inBehind
    · exact lt_asymm smaller (isNext.before other inBefore)
    · rcases List.mem_cons.mp inBehind with rfl | inBehind
      · exact lt_irrefl _ smaller
      · exact not_lt_of_ge (isNext.behind other inBehind) smaller
  · have nothing : lane before entry.prio = [] := by
      rw [lane_eq_nil]
      intro other member isPrio
      exact lt_irrefl _ (isPrio ▸ isNext.before other member)
    rw [lane_append, nothing, lane_cons_self]
    rfl

/-! ## Removal -/

section Remove

variable [DecidableEq ι]

/-- The queue without the entry of a name. -/
def remove (entries : List (Entry ι π ν)) (name : ι) : List (Entry ι π ν) :=
  entries.filter fun entry => entry.name ≠ name

theorem mem_remove {name : ι} :
    entry ∈ remove entries name ↔ entry ∈ entries ∧ entry.name ≠ name := by
  unfold remove
  rw [List.mem_filter, decide_eq_true_iff]

theorem remove_names_nodup (unique : (entries.map Entry.name).Nodup)
    (name : ι) : ((remove entries name).map Entry.name).Nodup :=
  unique.sublist (List.filter_sublist.map Entry.name)

/-- Names tell the entries apart. -/
theorem remove_middle {before behind : List (Entry ι π ν)}
    (unique : ((before ++ entry :: behind).map Entry.name).Nodup) :
    remove (before ++ entry :: behind) entry.name = before ++ behind := by
  rw [List.map_append, List.map_cons] at unique
  have apart := List.nodup_middle.mp unique
  rw [List.nodup_cons, ← List.map_append] at apart
  have others : ∀ other ∈ before ++ behind, other.name ≠ entry.name := by
    intro other member same
    exact apart.1 (same ▸ List.mem_map_of_mem member)
  unfold remove
  rw [List.filter_append, List.filter_cons_of_neg (by simp),
    ← List.filter_append, List.filter_eq_self]
  intro other member
  exact decide_eq_true (others other member)

theorem lane_remove [DecidableEq π] (entries : List (Entry ι π ν))
    (name : ι) (prio : π) :
    lane (remove entries name) prio = remove (lane entries prio) name :=
  List.filter_comm _ _ entries

/-- The names of a lane lose the name that is removed. -/
theorem map_remove (unique : (entries.map Entry.name).Nodup) (name : ι) :
    (remove entries name).map Entry.name =
      (entries.map Entry.name).erase name := by
  rw [unique.erase_eq_filter]
  unfold remove
  rw [List.filter_map]
  congr 1
  apply List.filter_congr
  intro entry member
  by_cases isName : entry.name = name
  · simp [isName]
  · simp [isName]

end Remove

end Libcperciva.Lib.StableQueue
