import Mathlib.Data.List.Basic
import Mathlib.Tactic.Common

/-!
# Command lines

A reference parser for options on a command line.  A table gives for an option
whether it takes an argument.  Parsing ends behind `--`, and in front of `-` or
an argument that does not begin with a dash.
-/

namespace Libcperciva.Lib.CommandLine

/-- For each registered option, whether it takes an argument. -/
abbrev Table : Type := List UInt8 → Option Bool

/-- What is found on the command line. -/
inductive Outcome where
  | option (os : List UInt8) (optarg : Option (List UInt8))
  | unknown (os : List UInt8)
  | missing (os : List UInt8)
  | unexpected (os : List UInt8)
deriving DecidableEq

/-- The outcomes of a part of the command line, and the option that takes the
next argument for its own. -/
structure Found where
  outcomes : List Outcome
  needs : Option (List UInt8)
deriving DecidableEq

/-- The single-character options of an argument. -/
def readPacked (table : Table) : List UInt8 → Found
  | [] => ⟨[], none⟩
  | c :: cs =>
      match table [45, c] with
      | none =>
          let found := readPacked table cs
          ⟨.unknown [45, c] :: found.outcomes, found.needs⟩
      | some false =>
          let found := readPacked table cs
          ⟨.option [45, c] none :: found.outcomes, found.needs⟩
      | some true =>
          if cs = [] then ⟨[], some [45, c]⟩
          else ⟨[.option [45, c] (some cs)], none⟩

/-- The part of a long option before its first `=`. -/
def nameOf (arg : List UInt8) : List UInt8 := arg.takeWhile (· ≠ 61)

/-- The part of a long option behind its first `=`. -/
def valueOf (arg : List UInt8) : Option (List UInt8) :=
  match arg.dropWhile (· ≠ 61) with
  | [] => none
  | _ :: value => some value

/-- A long option. -/
def readLong (table : Table) (arg : List UInt8) : Found :=
  match table (nameOf arg), valueOf arg with
  | none, _ => ⟨[.unknown arg], none⟩
  | some true, some value => ⟨[.option (nameOf arg) (some value)], none⟩
  | some true, none => ⟨[], some (nameOf arg)⟩
  | some false, some _ => ⟨[.unexpected (nameOf arg)], none⟩
  | some false, none => ⟨[.option (nameOf arg) none], none⟩

/-- The outcomes of a command line, and how many arguments are consumed. -/
structure Parsed where
  outcomes : List Outcome
  consumed : Nat
deriving DecidableEq

/-- The outcomes and arguments in front of others. -/
def Parsed.after (rest : Parsed) (outcomes : List Outcome) (consumed : Nat) :
    Parsed :=
  ⟨outcomes ++ rest.outcomes, consumed + rest.consumed⟩

/-- What an argument is. -/
inductive Kind where
  /-- `--`. -/
  | ends
  | nonOption
  | long
  | packed (cs : List UInt8)
deriving DecidableEq

/-- The kind of an argument. -/
def kindOf : List UInt8 → Kind
  | c :: d :: s =>
      if c ≠ 45 then .nonOption
      else if d ≠ 45 then .packed (d :: s)
      else if s = [] then .ends
      else .long
  | _ => .nonOption

/-- The options of an argument. -/
def readArg (table : Table) (arg : List UInt8) : Found :=
  match kindOf arg with
  | .packed cs => readPacked table cs
  | _ => readLong table arg

/-- The reference parser. -/
def parse (table : Table) : List (List UInt8) → Parsed
  | [] => ⟨[], 0⟩
  | arg :: rest =>
      if kindOf arg = .ends then ⟨[], 1⟩
      else if kindOf arg = .nonOption then ⟨[], 0⟩
      else
        match (readArg table arg).needs, rest with
        | none, rest => (parse table rest).after (readArg table arg).outcomes 1
        | some os, [] =>
            ⟨(readArg table arg).outcomes ++ [.missing os], 1⟩
        | some os, value :: rest =>
            (parse table rest).after
              ((readArg table arg).outcomes ++ [.option os (some value)]) 2

/-- The outcomes of an argument and of those behind it. -/
def finish (table : Table) (found : Found) (rest : List (List UInt8)) :
    Parsed :=
  match found.needs, rest with
  | none, rest => (parse table rest).after found.outcomes 1
  | some os, [] => ⟨found.outcomes ++ [.missing os], 1⟩
  | some os, value :: rest =>
      (parse table rest).after (found.outcomes ++ [.option os (some value)]) 2

variable {table : Table} {arg : List UInt8} {rest : List (List UInt8)}
  {found : Found} {o : Outcome}

theorem Parsed.after_after (p : Parsed) (first second : List Outcome)
    (m n : Nat) :
    (p.after second n).after first m = p.after (first ++ second) (m + n) := by
  simp [Parsed.after, Nat.add_assoc]

theorem parse_ends (isEnds : kindOf arg = .ends) :
    parse table (arg :: rest) = ⟨[], 1⟩ := by
  rw [parse.eq_def]
  exact if_pos isEnds

theorem parse_nonOption (isNonOption : kindOf arg = .nonOption) :
    parse table (arg :: rest) = ⟨[], 0⟩ := by
  have notEnds : kindOf arg ≠ .ends := by
    rw [isNonOption]
    exact Kind.noConfusion
  rw [parse.eq_def]
  exact (if_neg notEnds).trans (if_pos isNonOption)

theorem parse_option (notEnds : kindOf arg ≠ .ends)
    (isOption : kindOf arg ≠ .nonOption) :
    parse table (arg :: rest) = finish table (readArg table arg) rest := by
  rw [parse.eq_def]
  exact (if_neg notEnds).trans (if_neg isOption)

/-- An outcome in front of others of the same argument. -/
theorem finish_cons (o : Outcome) (found : Found)
    (rest : List (List UInt8)) :
    finish table ⟨o :: found.outcomes, found.needs⟩ rest =
      (finish table found rest).after [o] 0 := by
  cases isNeeded : found.needs with
  | none =>
      simp only [finish, isNeeded, Parsed.after_after]
      rfl
  | some os =>
      cases rest with
      | nil => simp [finish, isNeeded, Parsed.after]
      | cons value rest =>
          simp only [finish, isNeeded, Parsed.after_after]
          simp

/-! ## Outcomes and the table -/

/-- What an outcome says about the table. -/
def Outcome.Of (table : Table) : Outcome → Prop
  | .option os optarg => table os = some optarg.isSome
  | .unknown os => table os = none ∨ table (nameOf os) = none
  | .missing os => table os = some true
  | .unexpected os => table os = some false

/-- The outcomes of a part of the command line are outcomes of the table, and
the option in need of an argument takes one. -/
structure Found.Of (table : Table) (found : Found) : Prop where
  outcomes : ∀ o ∈ found.outcomes, o.Of table
  needs : ∀ os, found.needs = some os → table os = some true

theorem readPacked_of (table : Table) (cs : List UInt8) :
    (readPacked table cs).Of table := by
  induction cs with
  | nil => exact ⟨nofun, nofun⟩
  | cons c cs ih =>
      unfold readPacked
      cases isTable : table [45, c] with
      | none =>
          exact ⟨List.forall_mem_cons.mpr ⟨Or.inl isTable, ih.outcomes⟩,
            ih.needs⟩
      | some hasarg =>
          cases hasarg with
          | false =>
              exact ⟨List.forall_mem_cons.mpr ⟨isTable, ih.outcomes⟩, ih.needs⟩
          | true =>
              dsimp only
              split_ifs
              · refine ⟨nofun, ?_⟩
                rintro _ ⟨⟩
                exact isTable
              · exact ⟨List.forall_mem_singleton.mpr isTable, nofun⟩

theorem readLong_of (table : Table) (arg : List UInt8) :
    (readLong table arg).Of table := by
  unfold readLong
  cases isTable : table (nameOf arg) with
  | none => exact ⟨List.forall_mem_singleton.mpr (Or.inr isTable), nofun⟩
  | some hasarg =>
      cases hasarg with
      | false =>
          cases valueOf arg with
          | none => exact ⟨List.forall_mem_singleton.mpr isTable, nofun⟩
          | some value => exact ⟨List.forall_mem_singleton.mpr isTable, nofun⟩
      | true =>
          cases valueOf arg with
          | none =>
              refine ⟨nofun, ?_⟩
              rintro _ ⟨⟩
              exact isTable
          | some value => exact ⟨List.forall_mem_singleton.mpr isTable, nofun⟩

theorem readArg_of (table : Table) (arg : List UInt8) :
    (readArg table arg).Of table := by
  unfold readArg
  cases kindOf arg with
  | packed cs => exact readPacked_of table cs
  | ends | nonOption | long => exact readLong_of table arg

/-- The reference parser gives outcomes of its table. -/
theorem parse_of (table : Table) (args : List (List UInt8)) :
    ∀ o ∈ (parse table args).outcomes, o.Of table := by
  induction args using parse.induct table with
  | case1 => exact nofun
  | case2 arg rest isEnds =>
      rw [parse_ends isEnds]
      exact nofun
  | case3 arg rest notEnds isNonOption =>
      rw [parse_nonOption isNonOption]
      exact nofun
  | case4 arg notEnds isOption rest noNeed ih =>
      have found := readArg_of table arg
      rw [parse_option notEnds isOption]
      unfold finish
      rw [noNeed]
      exact List.forall_mem_append.mpr ⟨found.outcomes, ih⟩
  | case5 arg notEnds isOption os need =>
      have found := readArg_of table arg
      rw [parse_option notEnds isOption]
      unfold finish
      rw [need]
      exact List.forall_mem_append.mpr ⟨found.outcomes,
        List.forall_mem_singleton.mpr (found.needs os need)⟩
  | case6 arg notEnds isOption os value rest need ih =>
      have found := readArg_of table arg
      rw [parse_option notEnds isOption]
      unfold finish
      rw [need]
      refine List.forall_mem_append.mpr ⟨?_, ih⟩
      exact List.forall_mem_append.mpr ⟨found.outcomes,
        List.forall_mem_singleton.mpr (found.needs os need)⟩

end Libcperciva.Lib.CommandLine
