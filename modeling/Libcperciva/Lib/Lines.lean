import Mathlib.Data.List.Basic
import Mathlib.Data.List.Infix
import Mathlib.Tactic.Common

/-!
# Lists cut at a separator

The first occurrence of a pattern in a list, and lines that a separator ends.
A separator which does not overlap with itself is found where it was put.
-/

namespace Libcperciva.Lib.Lines

variable {α : Type*} {pattern list more line rest : List α} {i j : Nat}

/-! ## Occurrences -/

/-- The pattern begins at a position of the list. -/
def OccursAt (pattern list : List α) (i : Nat) : Prop :=
  pattern <+: list.drop i

theorem OccursAt.append (occurs : OccursAt pattern list i)
    (inside : i ≤ list.length) : OccursAt pattern (list ++ more) i := by
  unfold OccursAt at *
  rw [List.drop_append_of_le_length inside]
  exact occurs.trans (List.prefix_append _ _)

theorem OccursAt.of_append (occurs : OccursAt pattern (list ++ more) i)
    (fits : i + pattern.length ≤ list.length) : OccursAt pattern list i := by
  unfold OccursAt at *
  rw [List.drop_append_of_le_length (by omega)] at occurs
  refine List.prefix_of_prefix_length_le occurs (List.prefix_append _ _) ?_
  rw [List.length_drop]
  omega

theorem OccursAt.inside (occurs : OccursAt pattern list i)
    (nonempty : pattern ≠ []) : i + pattern.length ≤ list.length := by
  have length := List.IsPrefix.length_le occurs
  have positive := List.length_pos_of_ne_nil nonempty
  rw [List.length_drop] at length
  omega

/-- An occurrence behind a prefix. -/
theorem occursAt_append_add :
    OccursAt pattern (list ++ more) (list.length + i) ↔
      OccursAt pattern more i := by
  unfold OccursAt
  rw [List.drop_append, List.drop_eq_nil_of_le (by omega),
    Nat.add_sub_cancel_left, List.nil_append]

theorem occursAt_length_append (list rest : List α) :
    OccursAt pattern (list ++ pattern ++ rest) list.length := by
  unfold OccursAt
  rw [List.append_assoc, List.drop_left]
  exact List.prefix_append _ _

theorem OccursAt.left (occurs : OccursAt (pattern ++ more) list i) :
    OccursAt pattern list i :=
  (List.prefix_append _ _).trans occurs

theorem OccursAt.right (occurs : OccursAt (pattern ++ more) list i) :
    OccursAt more list (i + pattern.length) := by
  obtain ⟨tail, split⟩ := occurs
  refine ⟨tail, ?_⟩
  rw [← List.drop_drop, ← split, List.append_assoc, List.drop_left]

/-- No end of the pattern is also a beginning of it. -/
def Unbordered (pattern : List α) : Prop :=
  ∀ k, 0 < k → k < pattern.length →
    ¬ pattern.drop k <+: pattern

/-- Occurrences of a pattern without borders do not overlap. -/
theorem OccursAt.apart (unbordered : Unbordered pattern)
    (first : OccursAt pattern list i) (second : OccursAt pattern list j)
    (before : i < j) : i + pattern.length ≤ j := by
  by_contra overlap
  refine unbordered (j - i) (by omega) (by omega) ?_
  obtain ⟨tail, split⟩ := first
  have shifted : list.drop j = pattern.drop (j - i) ++ tail := by
    have sum : j = i + (j - i) := by omega
    rw [sum, ← List.drop_drop, ← split,
      List.drop_append_of_le_length (by omega), Nat.add_sub_cancel_left]
  unfold OccursAt at second
  rw [shifted] at second
  refine List.prefix_of_prefix_length_le (List.prefix_append _ tail) second ?_
  rw [List.length_drop]
  omega

/-! ## The first occurrence -/

section First

variable [DecidableEq α]

/-- The first position at which the pattern begins, or the length of the list
if there is none. -/
def indexOf (pattern : List α) : List α → Nat
  | [] => 0
  | a :: list =>
      if pattern <+: a :: list then 0 else indexOf pattern list + 1

theorem indexOf_le (pattern list : List α) :
    indexOf pattern list ≤ list.length := by
  induction list with
  | nil => exact Nat.le_refl 0
  | cons a list ih =>
      unfold indexOf
      split
      · exact Nat.zero_le _
      · exact Nat.succ_le_succ ih

theorem occursAt_indexOf (found : indexOf pattern list < list.length) :
    OccursAt pattern list (indexOf pattern list) := by
  induction list with
  | nil => exact absurd found (Nat.lt_irrefl 0)
  | cons a list ih =>
      unfold indexOf at found ⊢
      split_ifs at found ⊢ with isPrefix
      · exact isPrefix
      · exact ih (Nat.lt_of_succ_lt_succ found)

theorem not_occursAt_of_lt_indexOf (before : i < indexOf pattern list) :
    ¬ OccursAt pattern list i := by
  induction list generalizing i with
  | nil => exact absurd before (Nat.not_lt_zero i)
  | cons a list ih =>
      unfold indexOf at before
      split_ifs at before with isPrefix
      · exact absurd before (Nat.not_lt_zero i)
      · cases i with
        | zero => exact isPrefix
        | succ i => exact ih (Nat.lt_of_succ_lt_succ before)

theorem indexOf_le_of_occursAt (occurs : OccursAt pattern list i) :
    indexOf pattern list ≤ i :=
  Nat.le_of_not_lt fun before => not_occursAt_of_lt_indexOf before occurs

theorem indexOf_eq (occurs : OccursAt pattern list i)
    (nonempty : pattern ≠ [])
    (first : ∀ j, OccursAt pattern list j → i ≤ j) :
    indexOf pattern list = i := by
  have atMost := indexOf_le_of_occursAt occurs
  have inside := occurs.inside nonempty
  have positive := List.length_pos_of_ne_nil nonempty
  exact Nat.le_antisymm atMost (first _ (occursAt_indexOf (by omega)))

/-- More elements behind the list do not change what was found in it. -/
theorem indexOf_append (nonempty : pattern ≠ [])
    (found : indexOf pattern list < list.length) :
    indexOf pattern (list ++ more) = indexOf pattern list := by
  have occurs := occursAt_indexOf found
  have inside := occurs.inside nonempty
  refine indexOf_eq (occurs.append found.le) nonempty fun j other => ?_
  by_contra before
  have shorter : j + pattern.length ≤ list.length := by omega
  exact not_occursAt_of_lt_indexOf (not_le.mp before)
    (other.of_append shorter)

end First

/-! ## Lines -/

/-- The separator does not occur. -/
def Line (sep line : List α) : Prop := ∀ i, ¬ OccursAt sep line i

/-- Lines, each of them ended by the separator. -/
def joinLines (sep : List α) : List (List α) → List α
  | [] => []
  | line :: lines => line ++ sep ++ joinLines sep lines

variable {sep : List α} {lines : List (List α)}

theorem joinLines_cons (sep line : List α) (lines : List (List α)) :
    joinLines sep (line :: lines) = line ++ sep ++ joinLines sep lines :=
  rfl

/-- The first separator is the one that ends the line. -/
theorem Line.length_le_of_occursAt (isLine : Line sep line)
    (unbordered : Unbordered sep)
    (occurs : OccursAt sep (line ++ sep ++ rest) i) : line.length ≤ i := by
  by_contra before
  have apart := occurs.apart unbordered (occursAt_length_append line rest)
    (not_le.mp before)
  rw [List.append_assoc] at occurs
  exact isLine i (occurs.of_append apart)

theorem indexOf_line [DecidableEq α] (isLine : Line sep line)
    (unbordered : Unbordered sep) (nonempty : sep ≠ []) :
    indexOf sep (line ++ sep ++ rest) = line.length :=
  indexOf_eq (occursAt_length_append line rest) nonempty
    fun _ occurs => isLine.length_le_of_occursAt unbordered occurs

/-- A list with a separator begins with a line. -/
theorem exists_line [DecidableEq α] (nonempty : sep ≠ [])
    (found : indexOf sep list < list.length) :
    ∃ rest, list = list.take (indexOf sep list) ++ sep ++ rest ∧
      Line sep (list.take (indexOf sep list)) := by
  have occurs := occursAt_indexOf found
  have positive := List.length_pos_of_ne_nil nonempty
  obtain ⟨rest, split⟩ := occurs
  refine ⟨rest, ?_, fun i inside => ?_⟩
  · rw [List.append_assoc, split, List.take_append_drop]
  · have fits := inside.inside nonempty
    rw [List.length_take] at fits
    have before : i < indexOf sep list := by omega
    refine not_occursAt_of_lt_indexOf before ?_
    have occurs : OccursAt sep
        (list.take (indexOf sep list) ++ list.drop (indexOf sep list)) i :=
      inside.append (by rw [List.length_take]; omega)
    rwa [List.take_append_drop] at occurs

/-- A list that ends with two separators consists of lines, and a separator
behind them. -/
theorem exists_lines [DecidableEq α] (unbordered : Unbordered sep)
    (nonempty : sep ≠ []) (ends : sep ++ sep <:+ list) :
    ∃ line lines, list = joinLines sep (line :: lines) ++ sep ∧
      ∀ l ∈ line :: lines, Line sep l := by
  induction length : list.length using Nat.strongRecOn generalizing list with
  | ind n ih =>
      subst length
      have positive := List.length_pos_of_ne_nil nonempty
      obtain ⟨before, ends⟩ := ends
      have last : OccursAt sep list before.length := by
        rw [← ends, ← List.append_assoc]
        exact occursAt_length_append before sep
      have total : before.length + (sep.length + sep.length) =
          list.length := by
        rw [← ends, List.length_append, List.length_append]
      have atMost := indexOf_le_of_occursAt last
      have found : indexOf sep list < list.length := by omega
      obtain ⟨rest, split, isLine⟩ := exists_line nonempty found
      have lineLength : (list.take (indexOf sep list)).length =
          indexOf sep list := by
        rw [List.length_take]
        omega
      have lengths := congrArg List.length split
      rw [List.length_append, List.length_append, lineLength] at lengths
      -- The list ends with the line and an empty one, or goes on.
      by_cases isLast : indexOf sep list = before.length
      · have tail : rest = sep := by
          have suffix : rest <:+ list := ⟨_, split.symm⟩
          have suffix' : sep <:+ list := by
            rw [← ends, ← List.append_assoc]
            exact List.suffix_append _ _
          have shorter : rest.length = sep.length := by omega
          exact (List.suffix_of_suffix_length_le suffix suffix'
            shorter.le).eq_of_length shorter
        refine ⟨list.take (indexOf sep list), [], ?_, ?_⟩
        · unfold joinLines joinLines
          rw [List.append_nil]
          rw [tail] at split
          exact split
        · intro l member
          rw [List.mem_singleton.mp member]
          exact isLine
      · have apart := (occursAt_indexOf found).apart unbordered last
          (Nat.lt_of_le_of_ne atMost isLast)
        have suffix : sep ++ sep <:+ rest := by
          refine List.suffix_of_suffix_length_le ⟨_, ends⟩ ⟨_, split.symm⟩ ?_
          rw [List.length_append]
          omega
        obtain ⟨line, lines, eq, areLines⟩ := ih rest.length (by omega)
          suffix rfl
        refine ⟨list.take (indexOf sep list), line :: lines, ?_, ?_⟩
        · unfold joinLines
          rw [List.append_assoc _ (joinLines sep (line :: lines)), ← eq]
          exact split
        · intro l member
          cases List.mem_cons.mp member with
          | inl isFirst =>
              rw [isFirst]
              exact isLine
          | inr isLater => exact areLines l isLater

/-- Where lines are not empty, two separators follow each other only behind
the last line. -/
theorem length_joinLines_le_of_occursAt (unbordered : Unbordered sep)
    (areLines : ∀ l ∈ lines, Line sep l)
    (notEmpty : ∀ l ∈ lines, l ≠ [])
    (occurs : OccursAt (sep ++ sep) (joinLines sep lines ++ sep ++ rest) i) :
    (joinLines sep lines).length ≤ i + sep.length := by
  induction lines generalizing i with
  | nil => exact Nat.zero_le _
  | cons line lines ih =>
      have isLine := areLines line List.mem_cons_self
      unfold joinLines at occurs ⊢
      simp only [List.append_assoc] at occurs
      rw [← List.append_assoc line sep,
        ← List.append_assoc (joinLines sep lines)] at occurs
      have first := isLine.length_le_of_occursAt unbordered occurs.left
      have lengths : (line ++ sep ++ joinLines sep lines).length =
          line.length + sep.length + (joinLines sep lines).length := by
        rw [List.length_append, List.length_append]
      have tailAt (k : Nat) (pattern : List α)
          (there : OccursAt pattern
            (line ++ sep ++ (joinLines sep lines ++ sep ++ rest))
            (line.length + sep.length + k)) :
          OccursAt pattern (joinLines sep lines ++ sep ++ rest) k := by
        rw [← List.length_append] at there
        exact occursAt_append_add.mp there
      by_cases isFirst : i = line.length
      · -- The next line would be empty.
        subst isFirst
        cases lines with
        | nil =>
            rw [lengths]
            unfold joinLines
            exact Nat.le_refl _
        | cons next lines =>
            have second := tailAt 0 sep occurs.right
            unfold joinLines at second
            simp only [List.append_assoc] at second
            rw [← List.append_assoc next sep] at second
            have later := List.mem_cons_of_mem line
              (List.mem_cons_self (a := next) (l := lines))
            have zero := (areLines next later).length_le_of_occursAt
              unbordered second
            exact absurd (List.eq_nil_of_length_eq_zero (Nat.le_zero.mp zero))
              (notEmpty next later)
      · have apart := (occursAt_length_append line
            (joinLines sep lines ++ sep ++ rest)).apart unbordered
          occurs.left (by omega)
        have tail := tailAt (i - (line.length + sep.length)) (sep ++ sep)
          (by rwa [Nat.add_sub_cancel' apart])
        have bound := ih
          (fun l member => areLines l (List.mem_cons_of_mem line member))
          (fun l member => notEmpty l (List.mem_cons_of_mem line member)) tail
        omega

end Libcperciva.Lib.Lines
