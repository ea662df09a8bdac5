import Mathlib.Algebra.GroupWithZero.Nat
import Libcperciva.Util.GetoptTable

/-!
# Runs of the option loop

Each turn of the loop finds the next outcome of the reference parser and goes
on at the position behind it: inside an argument with packed options, or at
the beginning of one.
-/

namespace Libcperciva.Util.GetoptRuns

open Libcperciva.Lib.CommandLine
open Libcperciva.Util.GetoptModel
open Libcperciva.Util.GetoptTable

variable {labels : List (Option Label)} {argv rest : List (List UInt8)}
  {os packed : List UInt8} {g after : Globals} {o : Outcome} {hasarg : Bool}

/-! ## Outcomes -/

/-- The string that `getopt` returns for an outcome. -/
def wordOf : Outcome → List UInt8
  | .option os _ | .unknown os | .missing os | .unexpected os => os

/-- The argument of an outcome. -/
def optargOf : Outcome → Option (List UInt8)
  | .option _ optarg => optarg
  | .unknown _ | .missing _ | .unexpected _ => none

/-- The line that an outcome leads to. -/
def lineFor (labels : List (Option Label)) : Outcome → Nat
  | .option os _ => lineOf labels os
  | .unknown _ | .unexpected _ => labels.length + 1
  | .missing _ => missingLine labels

/-- A turn with an outcome. -/
def turnOf (labels : List (Option Label)) (o : Outcome) : Turn :=
  ⟨lineFor labels o, .string (wordOf o), optargOf o⟩

/-- The outcome has been found. -/
structure Finds (labels : List (Option Label)) (g : Globals) (o : Outcome) :
    Prop where
  ready : Ready labels g
  optFound : g.optFound = lineFor labels o
  optarg : g.optarg = optargOf o
  registered : ∀ os optarg, o = .option os optarg →
    table labels os = some optarg.isSome

/-- `getopt` finds the outcome and goes on from there. -/
def Yields (labels : List (Option Label))
    (result : Except GetoptFault (Ch × Globals)) (o : Outcome) (optind : Nat)
    (packedopts : Option (List UInt8)) : Prop :=
  ∃ after, result = .ok (.string (wordOf o), after) ∧ Finds labels after o ∧
    after.optind = optind ∧ after.packedopts = packedopts

/-- The label for a missing argument is none of an option. -/
theorem missingLine_notOptarg (labels : List (Option Label))
    (os : List UInt8) :
    labels[missingLine labels]? ≠ some (some (.optarg os)) := by
  rcases missingLine_spec labels with isDefault | isMissing
  · rw [isDefault, List.getElem?_eq_none (Nat.le_succ _)]
    exact (Option.some_ne_none _).symm
  · rw [isMissing]
    intro same
    cases same

/-- The line of an outcome has `GETOPT_OPTARG` only if it has an argument. -/
theorem Finds.optarg_isSome (finds : Finds labels g o)
    (isLabel : labels[lineFor labels o]? = some (some (.optarg os))) :
    g.optarg.isSome = true := by
  cases o with
  | option os' optarg =>
      have isOption := table_eq_some (finds.registered os' optarg rfl)
      unfold optionAt at isOption
      rw [show labels[lineOf labels os']? = _ from isLabel] at isOption
      have same := congrArg Prod.snd (Option.some.inj isOption)
      rw [finds.optarg]
      exact same.symm
  | missing _ => exact absurd isLabel (missingLine_notOptarg labels os)
  | unknown _ | unexpected _ =>
      rw [lineFor, List.getElem?_eq_none (Nat.le_succ _)] at isLabel
      exact absurd isLabel (Option.some_ne_none _).symm

/-- No assertion of `getopt_lookup` fails. -/
theorem Finds.getoptLookup (finds : Finds labels g o) :
    getoptLookup (.string (wordOf o)) g = .ok (lineFor labels o) := by
  have ready := finds.ready
  have found : (g.optFound = g.optMissing || g.optFound = g.optDefault ||
      (g.optFound < g.nopts &&
        (g.opt g.optFound).any fun opt => Ch.string (wordOf o) =
          .string opt.os)) = true := by
    rw [finds.optFound, ready.optMissing, ready.optDefault, ready.nopts]
    cases o with
    | option os optarg =>
        have isOption := table_eq_some (finds.registered os optarg rfl)
        rw [lineFor, ready.opt_eq isOption]
        simp [optionAt_lt isOption, wordOf]
    | missing _ => simp [lineFor]
    | unknown _ | unexpected _ => simp [lineFor]
  have notDummy : Ch.string (wordOf o) ≠ .dummy := Ch.noConfusion
  unfold GetoptModel.getoptLookup
  rw [noReset_ok ready.notReset, assert_ok ready.initialized,
    assert_ok (decide_eq_true notDummy), assert_ok found, finds.optFound]
  rfl

/-- `GETOPT_SWITCH` jumps to the line of the outcome. -/
theorem Finds.getoptSwitch (finds : Finds labels g o) (allocated : Bool) :
    getoptSwitch labels allocated (.string (wordOf o)) g =
      .ok (some (lineFor labels o), g) := by
  unfold GetoptModel.getoptSwitch
  rw [if_pos finds.ready.initialized, finds.getoptLookup]
  dsimp only [bind, Except.bind]
  cases isLabel : labels[lineFor labels o]? with
  | none => rfl
  | some label =>
      rcases label with _ | _ | os | _
      · rfl
      · rfl
      · dsimp only
        rw [assert_ok (finds.optarg_isSome isLabel)]
      · rfl

/-! ## The option string -/

/-- What `getopt` changes does not concern the table. -/
theorem ready_update (ready : Ready labels g) (optarg : Option (List UInt8))
    (optind optFound : Nat) (packedopts : Option (List UInt8))
    (stderr : List Message) :
    Ready labels { g with optarg, optind, optFound, packedopts, stderr } :=
  ⟨ready.notReset, ready.initialized, ready.opts, ready.nopts,
    ready.optDefault, ready.optMissing⟩

/-- Printing a warning changes nothing else. -/
theorem warn_eq (text : String) (os : List UInt8) (g : Globals) :
    ∃ stderr, warn text os g = { g with stderr } := by
  unfold warn
  split_ifs
  · exact ⟨_, rfl⟩
  · exact ⟨_, rfl⟩
  · exact ⟨_, rfl⟩

section Option

variable (argv : List (List UInt8)) (valid : ValidLabels labels)
  (ready : Ready labels g) (noNul : 0 ∉ os)

include valid ready noNul

theorem processOption_unknown (isNone : table labels (nameOf os) = none)
    (noArg : g.optarg = none) :
    Yields labels (processOption argv os g) (.unknown os) g.optind
      g.packedopts := by
  have found := ready.searchopt_eq valid noNul
  rw [if_pos isNone] at found
  obtain ⟨stderr, warned⟩ := warn_eq "unknown option: " os
    { g with optFound := g.optDefault }
  unfold processOption
  dsimp only
  rw [found, if_pos rfl, warned]
  exact ⟨_, rfl, ⟨ready_update ready _ _ _ _ _, ready.optDefault, noArg,
    nofun⟩, rfl, rfl⟩

theorem processOption_registered
    (isSome : table labels (nameOf os) = some hasarg) :
    processOption argv os g =
      let g := { g with optFound := lineOf labels (nameOf os) }
      if hasarg then
        .ok (.string (nameOf os), takeArg argv os
          ⟨nameOf os, (nameOf os).length, hasarg⟩ g)
      else if valueOf os ≠ none then
        .ok (.string (nameOf os),
          { warn "option doesn't take an argument: " (nameOf os) g with
            optFound := g.optDefault })
      else .ok (.string (nameOf os), g) := by
  have found := ready.searchopt_eq valid noNul
  rw [if_neg fun isNone => Option.some_ne_none _ (isSome.symm.trans isNone)]
    at found
  have isOption := table_eq_some isSome
  have within := optionAt_lt isOption
  have notDefault : lineOf labels (nameOf os) ≠ g.optDefault := by
    rw [ready.optDefault]
    omega
  have isOpt := ready.opt_eq isOption
  have ends : charAt os (nameOf os).length = 61 ↔ valueOf os ≠ none := by
    rw [charAt_nameOf_length]
    split_ifs with isNone
    · exact iff_of_false (by decide) (not_not_intro isNone)
    · exact iff_of_true rfl isNone
  unfold processOption
  dsimp only
  rw [found, if_neg notDefault]
  rw [show Globals.opt { g with optFound := lineOf labels (nameOf os) }
    (lineOf labels (nameOf os)) = _ from isOpt]
  dsimp only
  simp only [ends]

theorem processOption_plain (isSome : table labels (nameOf os) = some false)
    (noValue : valueOf os = none) (noArg : g.optarg = none) :
    Yields labels (processOption argv os g) (.option (nameOf os) none)
      g.optind g.packedopts := by
  rw [processOption_registered argv valid ready noNul isSome]
  dsimp only
  rw [if_neg Bool.false_ne_true, if_neg (not_not_intro noValue)]
  refine ⟨_, rfl, ⟨ready_update ready _ _ _ _ _, rfl, noArg, ?_⟩, rfl, rfl⟩
  rintro _ _ ⟨⟩
  exact isSome

theorem processOption_unexpected
    (isSome : table labels (nameOf os) = some false)
    (hasValue : valueOf os ≠ none) (noArg : g.optarg = none) :
    Yields labels (processOption argv os g) (.unexpected (nameOf os))
      g.optind g.packedopts := by
  rw [processOption_registered argv valid ready noNul isSome]
  dsimp only
  rw [if_neg Bool.false_ne_true, if_pos hasValue]
  obtain ⟨stderr, warned⟩ := warn_eq "option doesn't take an argument: "
    (nameOf os) { g with optFound := lineOf labels (nameOf os) }
  rw [warned]
  exact ⟨_, rfl, ⟨ready_update ready _ _ _ _ _, ready.optDefault, noArg,
    nofun⟩, rfl, rfl⟩

/-- The rest of a packed argument is the argument of the option. -/
theorem processOption_packed (isSome : table labels (nameOf os) = some true)
    (noValue : valueOf os = none) (isPacked : g.packedopts = some packed) :
    Yields labels (processOption argv os g) (.option (nameOf os) (some packed))
      (g.optind + 1) none := by
  have noEquals : charAt os (nameOf os).length ≠ 61 := by
    rw [charAt_nameOf_length, if_pos noValue]
    decide
  rw [processOption_registered argv valid ready noNul isSome]
  dsimp only
  rw [if_pos rfl]
  unfold takeArg
  dsimp only
  rw [isPacked]
  dsimp only
  rw [if_neg noEquals]
  refine ⟨_, rfl, ⟨ready_update ready _ _ _ _ _, rfl, rfl, ?_⟩, rfl, rfl⟩
  rintro _ _ ⟨⟩
  exact isSome

/-- The value behind `=` is the argument of the option. -/
theorem processOption_value {value : List UInt8}
    (isSome : table labels (nameOf os) = some true)
    (isValue : valueOf os = some value) (notPacked : g.packedopts = none) :
    Yields labels (processOption argv os g) (.option (nameOf os) (some value))
      g.optind none := by
  have isEquals : charAt os (nameOf os).length = 61 := by
    rw [charAt_nameOf_length, isValue]
    rfl
  have dropped : os.drop ((nameOf os).length + 1) = value := by
    have behind : os.drop (nameOf os).length = os.dropWhile (· ≠ 61) := by
      have drops := congrArg (List.drop (nameOf os).length)
        (nameOf_append_value os)
      rw [List.drop_left] at drops
      exact drops.symm
    rw [← List.drop_drop, behind]
    unfold valueOf at isValue
    cases isRest : os.dropWhile (· ≠ 61) with
    | nil =>
        rw [isRest] at isValue
        exact absurd isValue (Option.some_ne_none _).symm
    | cons c rest =>
        rw [isRest] at isValue
        exact Option.some.inj isValue
  rw [processOption_registered argv valid ready noNul isSome]
  dsimp only
  rw [if_pos rfl]
  unfold takeArg
  dsimp only
  rw [notPacked]
  dsimp only
  rw [if_pos isEquals, dropped]
  dsimp only
  rw [if_neg (Option.some_ne_none _)]
  refine ⟨_, rfl, ⟨ready_update ready _ _ _ _ _, rfl, rfl, ?_⟩, rfl, rfl⟩
  rintro _ _ ⟨⟩
  exact isSome

/-- The next argument is the argument of the option. -/
theorem processOption_next {value : List UInt8}
    (isSome : table labels (nameOf os) = some true)
    (noValue : valueOf os = none) (notPacked : g.packedopts = none)
    (noArg : g.optarg = none) (isNext : argv[g.optind]? = some value) :
    Yields labels (processOption argv os g) (.option (nameOf os) (some value))
      (g.optind + 1) none := by
  have noEquals : charAt os (nameOf os).length ≠ 61 := by
    rw [charAt_nameOf_length, if_pos noValue]
    decide
  rw [processOption_registered argv valid ready noNul isSome]
  dsimp only
  rw [if_pos rfl]
  unfold takeArg
  dsimp only
  rw [notPacked]
  dsimp only
  rw [if_neg noEquals]
  dsimp only
  rw [noArg, isNext]
  dsimp only
  rw [if_neg (Option.some_ne_none _)]
  refine ⟨_, rfl, ⟨ready_update ready _ _ _ _ _, rfl, rfl, ?_⟩, rfl, rfl⟩
  rintro _ _ ⟨⟩
  exact isSome

/-- No argument is left for the option. -/
theorem processOption_missing (isSome : table labels (nameOf os) = some true)
    (noValue : valueOf os = none) (notPacked : g.packedopts = none)
    (noArg : g.optarg = none) (isLast : argv[g.optind]? = none) :
    Yields labels (processOption argv os g) (.missing (nameOf os)) g.optind
      none := by
  have noEquals : charAt os (nameOf os).length ≠ 61 := by
    rw [charAt_nameOf_length, if_pos noValue]
    decide
  rw [processOption_registered argv valid ready noNul isSome]
  dsimp only
  rw [if_pos rfl]
  unfold takeArg
  dsimp only
  rw [notPacked]
  dsimp only
  rw [if_neg noEquals]
  dsimp only
  rw [noArg, isLast]
  dsimp only
  rw [if_pos rfl]
  obtain ⟨stderr, warned⟩ := warn_eq "option requires an argument: "
    (nameOf os) { g with
      optFound := lineOf labels (nameOf os), optarg := none, packedopts := none }
  rw [warned]
  exact ⟨_, rfl, ⟨ready_update ready _ _ _ _ _, ready.optMissing, rfl,
    nofun⟩, rfl, rfl⟩

end Option

/-! ## Positions -/

/-- The loop is in the middle of the options `packed` of an argument, or at
the beginning of one if there are none, and `rest` is behind them. -/
structure At (labels : List (Option Label)) (argv : List (List UInt8))
    (g : Globals) (packed : List UInt8) (rest : List (List UInt8)) : Prop where
  ready : Ready labels g
  packedopts : g.packedopts = if packed = [] then none else some packed
  within : packed ≠ [] → g.optind < argv.length
  behind : argv.drop (g.optind + if packed = [] then 0 else 1) = rest
  noNul : 0 ∉ packed

/-- What the reference parser has left there. -/
def remaining (labels : List (Option Label)) (packed : List UInt8)
    (rest : List (List UInt8)) : Parsed :=
  if packed = [] then parse (table labels) rest
  else finish (table labels) (readPacked (table labels) packed) rest

/-- A bound on the turns that are left. -/
def size (packed : List UInt8) (rest : List (List UInt8)) : Nat :=
  packed.length + (rest.map fun arg => arg.length + 1).sum

/-- What a call of `getopt` does at a position. -/
inductive Next (labels : List (Option Label)) (argv : List (List UInt8))
    (optind : Nat) (packed : List UInt8) (rest : List (List UInt8)) :
    Except GetoptFault (Ch × Globals) → Prop where
  | ends {after : Globals} (consumed : Nat)
      (left : remaining labels packed rest = ⟨[], consumed⟩)
      (isOptind : after.optind = optind + consumed) :
      Next labels argv optind packed rest (.ok (.null, after))
  | finds {after : Globals} {o : Outcome} (consumed : Nat)
      {packed' : List UInt8} {rest' : List (List UInt8)}
      (finds : Finds labels after o) (at' : At labels argv after packed' rest')
      (left : remaining labels packed rest =
        (remaining labels packed' rest').after [o] consumed)
      (isOptind : after.optind = optind + consumed)
      (smaller : size packed' rest' < size packed rest) :
      Next labels argv optind packed rest (.ok (.string (wordOf o), after))

theorem remaining_nil (labels : List (Option Label))
    (rest : List (List UInt8)) :
    remaining labels [] rest = parse (table labels) rest := if_pos rfl

/-- An outcome at the end of an argument. -/
theorem remaining_last (o : Outcome) (rest : List (List UInt8)) :
    finish (table labels) ⟨[o], none⟩ rest =
      (remaining labels [] rest).after [o] 1 := by
  rw [remaining_nil]
  rfl

theorem size_rest {value : List UInt8} :
    size [] rest < size [] (value :: rest) := by
  simp [size]

theorem drop_succ {n : Nat} {value : List UInt8}
    (isRest : argv.drop n = value :: rest) : argv.drop (n + 1) = rest := by
  rw [← List.tail_drop, isRest]
  rfl

theorem getElem_drop {n : Nat} (isRest : argv.drop n = rest) :
    argv[n]? = rest.head? := by
  rw [← isRest, List.head?_drop]

/-! ## Single-character options -/

theorem valid_equals (valid : ValidLabels labels) : table labels [45] = none ∧
    table labels [45, 61] = none := by
  constructor
  · cases isSome : table labels [45] with
    | none => rfl
    | some hasarg =>
        have isWord := valid.table_isOption isSome
        exact absurd isWord.valid (by decide)
  · cases isSome : table labels [45, 61] with
    | none => rfl
    | some hasarg =>
        have isWord := valid.table_isOption isSome
        exact absurd (List.mem_cons_of_mem 45 List.mem_cons_self) isWord.plain

/-- `=` is no option, and no other character ends the name of one. -/
theorem table_char (valid : ValidLabels labels) (c : UInt8) :
    table labels (nameOf [45, c]) = table labels [45, c] ∧
      (table labels [45, c] ≠ none →
        nameOf [45, c] = [45, c] ∧ valueOf [45, c] = none) := by
  obtain ⟨noDash, noEquals⟩ := valid_equals valid
  by_cases isEquals : c = 61
  · rw [isEquals]
    refine ⟨noDash.trans noEquals.symm, fun isSome => absurd noEquals isSome⟩
  · have plain : 61 ∉ [45, c] := by
      rintro (_ | ⟨_, _ | ⟨_, ⟨⟩⟩⟩)
      exact isEquals rfl
    have isName := nameOf_self plain
    refine ⟨congrArg _ isName, fun _ => ⟨isName, ?_⟩⟩
    have rest := nameOf_append_value [45, c]
    rw [isName] at rest
    unfold valueOf
    rw [List.append_right_eq_self.mp rest]

/-- An outcome, and the position behind it. -/
theorem Yields.next {result : Except GetoptFault (Ch × Globals)}
    {optind optind' consumed : Nat} {packed' : List UInt8}
    {rest' : List (List UInt8)}
    {packedopts : Option (List UInt8)}
    (yields : Yields labels result o optind' packedopts)
    (isPacked : packedopts = if packed' = [] then none else some packed')
    (within : packed' ≠ [] → optind' < argv.length)
    (behind : argv.drop (optind' + if packed' = [] then 0 else 1) = rest')
    (noNul : 0 ∉ packed')
    (left : remaining labels packed rest =
      (remaining labels packed' rest').after [o] consumed)
    (isOptind : optind' = optind + consumed)
    (smaller : size packed' rest' < size packed rest) :
    Next labels argv optind packed rest result := by
  obtain ⟨after, rfl, finds, rfl, samePacked⟩ := yields
  exact .finds consumed finds
    ⟨finds.ready, samePacked.trans isPacked, within, behind, noNul⟩ left
    isOptind smaller

/-- An outcome, and the argument behind it. -/
theorem Yields.nextArg {result : Except GetoptFault (Ch × Globals)}
    {optind optind' consumed : Nat} {rest' : List (List UInt8)}
    {packedopts : Option (List UInt8)}
    (yields : Yields labels result o optind' packedopts)
    (notPacked : packedopts = none) (behind : argv.drop optind' = rest')
    (left : remaining labels packed rest =
      (remaining labels [] rest').after [o] consumed)
    (isOptind : optind' = optind + consumed)
    (smaller : size [] rest' < size packed rest) :
    Next labels argv optind packed rest result := by
  have isPacked : packedopts = if ([] : List UInt8) = [] then none
      else some [] := notPacked
  exact yields.next isPacked (fun some => absurd rfl some) behind
    List.not_mem_nil left isOptind smaller

/-- The state when `getopt` has done a character, in front of `cs`. -/
def pastChar (cs : List UInt8) (g : Globals) : Globals :=
  if cs = [] then { g with packedopts := none, optind := g.optind + 1 }
  else { g with packedopts := some cs }

theorem remaining_packed (labels : List (Option Label)) (c : UInt8)
    (cs : List UInt8) (rest : List (List UInt8)) :
    remaining labels (c :: cs) rest =
      finish (table labels) (readPacked (table labels) (c :: cs)) rest :=
  if_neg (List.cons_ne_nil c cs)

/-- The last character of packed options. -/
theorem lastChar_next {c : UInt8} (valid : ValidLabels labels)
    (notNul : c ≠ 0) (ready : Ready labels g) (noArg : g.optarg = none)
    (behind : argv.drop (g.optind + 1) = rest) :
    Next labels argv g.optind [c] rest
      (processOption argv [45, c] (pastChar [] g)) := by
  obtain ⟨sameTable, isChar⟩ := table_char valid c
  have noNul : 0 ∉ [45, c] := by simp [notNul.symm]
  have isPast : pastChar [] g =
      { g with packedopts := none, optind := g.optind + 1 } := if_pos rfl
  have ready' : Ready labels (pastChar [] g) := by
    rw [isPast]
    exact ready_update ready _ _ _ _ _
  have left := remaining_packed labels c [] rest
  have smaller : size [] rest < size [c] rest := by simp [size]
  rw [isPast] at ready' ⊢
  unfold readPacked at left
  cases isTable : table labels [45, c] with
  | none =>
      rw [isTable] at left sameTable
      have yields := processOption_unknown argv valid ready' noNul
        sameTable noArg
      exact yields.nextArg rfl behind
        (left.trans (remaining_last _ rest)) rfl smaller
  | some hasarg =>
      obtain ⟨isName, noValue⟩ := isChar (isTable ▸ Option.some_ne_none _)
      rw [isTable] at left sameTable
      cases hasarg with
      | false =>
          have yields := processOption_plain argv valid ready' noNul
            sameTable noValue noArg
          rw [isName] at yields
          exact yields.nextArg rfl behind
            (left.trans (remaining_last _ rest)) rfl smaller
      | true =>
          have next := getElem_drop behind
          cases rest with
          | nil =>
              have yields := processOption_missing argv valid ready'
                noNul sameTable noValue rfl noArg next
              rw [isName] at yields
              exact yields.nextArg rfl behind left rfl smaller
          | cons value rest =>
              have yields := processOption_next argv valid ready'
                noNul sameTable noValue rfl noArg next
              rw [isName] at yields
              exact yields.nextArg rfl (drop_succ behind)
                left rfl (Nat.lt_trans size_rest smaller)

/-- A character in front of other options, or of its argument. -/
theorem nextChar_next {c : UInt8} {cs : List UInt8}
    (valid : ValidLabels labels) (notNul : c ≠ 0) (more : cs ≠ [])
    (restNoNul : 0 ∉ cs)
    (ready : Ready labels g) (noArg : g.optarg = none)
    (within : g.optind < argv.length)
    (behind : argv.drop (g.optind + 1) = rest) :
    Next labels argv g.optind (c :: cs) rest
      (processOption argv [45, c] (pastChar cs g)) := by
  obtain ⟨sameTable, isChar⟩ := table_char valid c
  have noNul : 0 ∉ [45, c] := by simp [notNul.symm]
  have isPast : pastChar cs g = { g with packedopts := some cs } := if_neg more
  have ready' : Ready labels (pastChar cs g) := by
    rw [isPast]
    exact ready_update ready _ _ _ _ _
  have left := remaining_packed labels c cs rest
  have smaller : size cs rest < size (c :: cs) rest := by simp [size]
  have goesOn : remaining labels cs rest = _ := if_neg more
  have packedopts : some cs = if cs = [] then none else some cs :=
    (if_neg more).symm
  have behind' : argv.drop (g.optind + if cs = [] then 0 else 1) = rest := by
    rw [if_neg more]
    exact behind
  rw [isPast] at ready' ⊢
  unfold readPacked at left
  cases isTable : table labels [45, c] with
  | none =>
      rw [isTable] at left sameTable
      have yields := processOption_unknown argv valid ready' noNul
        sameTable noArg
      dsimp only at yields left
      rw [finish_cons, ← goesOn] at left
      exact yields.next packedopts (fun _ => within) behind' restNoNul left rfl smaller
  | some hasarg =>
      obtain ⟨isName, noValue⟩ := isChar (isTable ▸ Option.some_ne_none _)
      rw [isTable] at left sameTable
      cases hasarg with
      | false =>
          have yields := processOption_plain argv valid ready' noNul
            sameTable noValue noArg
          dsimp only at yields left
          rw [finish_cons, ← goesOn] at left
          rw [isName] at yields
          exact yields.next packedopts (fun _ => within) behind' restNoNul left rfl smaller
      | true =>
          have yields := processOption_packed argv valid ready' noNul
            sameTable noValue rfl
          rw [isName] at yields
          dsimp only at left
          rw [if_neg more, remaining_last] at left
          exact yields.nextArg rfl behind left rfl (by simp [size])

/-! ## A call of `getopt` -/

/-- Once the table is indexed, `getopt` goes on with the next option. -/
theorem getopt_ready (ready : Ready labels g) :
    getopt argv g = nextOption argv { g with optarg := none } := by
  have stays : (if g.optreset = true then reset argv { g with optarg := none }
      else { g with optarg := none }) = { g with optarg := none } :=
    if_neg (ne_true_of_eq_false ready.notReset)
  unfold getopt
  dsimp only
  rw [stays]
  exact if_neg (ne_false_of_eq_true ready.initialized)

theorem nextOption_packed {arg cs : List UInt8} {c : UInt8}
    (isArg : argv[g.optind]? = some arg)
    (isPacked : (startPacked arg g).packedopts = some (c :: cs)) :
    nextOption argv g = processOption argv [45, c] (pastChar cs g) := by
  have isStart : startPacked arg g = { g with packedopts := some (c :: cs) } := by
    rw [← isPacked]
    unfold startPacked
    split_ifs <;> rfl
  unfold nextOption
  rw [isArg]
  dsimp only
  rw [isStart]
  dsimp only
  unfold pastChar
  by_cases isLast : cs = []
  · rewrite [if_pos (show (c :: cs).tail = [] from isLast), if_pos isLast]
    rfl
  · rewrite [if_neg (show ¬ (c :: cs).tail = [] from isLast), if_neg isLast]
    rfl

/-- What the kinds of arguments look like. -/
theorem kindOf_spec (arg : List UInt8) :
    match kindOf arg with
    | .ends => arg = [45, 45]
    | .nonOption => charAt arg 0 ≠ 45 ∨ charAt arg 1 = 0
    | .long => ∃ c s, arg = 45 :: 45 :: c :: s
    | .packed cs => ∃ c s, cs = c :: s ∧ arg = 45 :: cs ∧ c ≠ 45 := by
  rcases arg with _ | ⟨c, _ | ⟨d, s⟩⟩
  · exact Or.inr rfl
  · exact Or.inr rfl
  · have isKind : kindOf (c :: d :: s) =
        if c ≠ 45 then .nonOption else if d ≠ 45 then .packed (d :: s)
        else if s = [] then .ends else .long := rfl
    rw [isKind]
    by_cases dash : c = 45
    · by_cases dashes : d = 45
      · rw [dash, dashes, if_neg (not_not_intro rfl),
          if_neg (not_not_intro rfl)]
        cases s with
        | nil => rfl
        | cons x s => exact ⟨x, s, rfl⟩
      · rw [dash, if_neg (not_not_intro rfl), if_pos dashes]
        exact ⟨d, s, rfl, rfl, dashes⟩
    · rw [if_pos dash]
      exact Or.inl dash

/-- The same position, described from another place. -/
theorem Next.of_same {optind : Nat} {packed' : List UInt8}
    {rest' : List (List UInt8)}
    {result : Except GetoptFault (Ch × Globals)}
    (next : Next labels argv optind packed' rest' result)
    (same : remaining labels packed rest = remaining labels packed' rest')
    (bound : size packed' rest' ≤ size packed rest) :
    Next labels argv optind packed rest result := by
  cases next with
  | ends consumed left isOptind =>
      exact .ends consumed (same.trans left) isOptind
  | finds consumed finds position left isOptind smaller =>
      exact .finds consumed finds position (same.trans left) isOptind
        (Nat.lt_of_lt_of_le smaller bound)

/-- Characters of packed options. -/
theorem char_next {c : UInt8} {cs : List UInt8} (valid : ValidLabels labels)
    (noNul : 0 ∉ c :: cs) (ready : Ready labels g) (noArg : g.optarg = none)
    (within : g.optind < argv.length)
    (behind : argv.drop (g.optind + 1) = rest) :
    Next labels argv g.optind (c :: cs) rest
      (processOption argv [45, c] (pastChar cs g)) := by
  have notNul : c ≠ 0 := fun isNul => noNul (isNul ▸ List.mem_cons_self)
  have restNoNul : 0 ∉ cs := fun member =>
    noNul (List.mem_cons_of_mem c member)
  by_cases isLast : cs = []
  · rw [isLast]
    exact lastChar_next valid notNul ready noArg behind
  · exact nextChar_next valid notNul isLast restNoNul ready noArg within behind

/-- A long option. -/
theorem long_next {arg : List UInt8} (valid : ValidLabels labels)
    (noNul : 0 ∉ arg) (ready : Ready labels g) (noArg : g.optarg = none)
    (notPacked : g.packedopts = none) (isLong : kindOf arg = .long)
    (behind : argv.drop (g.optind + 1) = rest) :
    Next labels argv g.optind [] (arg :: rest)
      (processOption argv arg { g with optind := g.optind + 1 }) := by
  have ready' : Ready labels { g with optind := g.optind + 1 } :=
    ready_update ready _ _ _ _ _
  have left : remaining labels [] (arg :: rest) =
      finish (table labels) (readLong (table labels) arg) rest := by
    rw [remaining_nil, parse_option, readArg, isLong]
    · rw [isLong]
      exact Kind.noConfusion
    · rw [isLong]
      exact Kind.noConfusion
  have smaller : size [] rest < size [] (arg :: rest) := size_rest
  unfold readLong at left
  cases isTable : table labels (nameOf arg) with
  | none =>
      rw [isTable] at left
      have yields := processOption_unknown argv valid ready' noNul isTable
        noArg
      exact yields.nextArg notPacked behind
        (left.trans (remaining_last _ rest)) rfl smaller
  | some hasarg =>
      rw [isTable] at left
      cases hasarg with
      | false =>
          cases isValue : valueOf arg with
          | none =>
              rw [isValue] at left
              have yields := processOption_plain argv valid ready' noNul
                isTable isValue noArg
              exact yields.nextArg notPacked behind
                (left.trans (remaining_last _ rest)) rfl smaller
          | some value =>
              rw [isValue] at left
              have yields := processOption_unexpected argv valid ready' noNul
                isTable (isValue ▸ Option.some_ne_none _) noArg
              exact yields.nextArg notPacked behind
                (left.trans (remaining_last _ rest)) rfl smaller
      | true =>
          cases isValue : valueOf arg with
          | some value =>
              rw [isValue] at left
              have yields := processOption_value argv valid ready' noNul
                isTable isValue notPacked
              exact yields.nextArg rfl behind
                (left.trans (remaining_last _ rest)) rfl smaller
          | none =>
              rw [isValue] at left
              have next := getElem_drop behind
              cases rest with
              | nil =>
                  have yields := processOption_missing argv valid ready' noNul
                    isTable isValue notPacked noArg next
                  exact yields.nextArg rfl behind left rfl smaller
              | cons value rest =>
                  have yields := processOption_next argv valid ready' noNul
                    isTable isValue notPacked noArg next
                  exact yields.nextArg rfl (drop_succ behind)
                    left rfl (Nat.lt_trans size_rest smaller)

/-- At the beginning of an argument. -/
theorem arg_next {arg : List UInt8} (valid : ValidLabels labels)
    (noNul : 0 ∉ arg) (ready : Ready labels g) (noArg : g.optarg = none)
    (notPacked : g.packedopts = none) (isArg : argv[g.optind]? = some arg)
    (behind : argv.drop (g.optind + 1) = rest) :
    Next labels argv g.optind [] (arg :: rest) (nextOption argv g) := by
  have spec := kindOf_spec arg
  have stays (noStart : ¬ (charAt arg 0 = 45 ∧ charAt arg 1 ≠ 45 ∧
      charAt arg 1 ≠ 0)) : startPacked arg g = g :=
    if_neg fun start => noStart start.2
  cases isKind : kindOf arg with
  | ends =>
      rw [isKind] at spec
      dsimp only at spec
      have noStart := stays (by rw [spec]; decide)
      unfold nextOption
      rw [isArg]
      dsimp only
      rw [noStart, notPacked, spec]
      refine .ends 1 ?_ rfl
      rw [remaining_nil]
      exact parse_ends rfl
  | nonOption =>
      rw [isKind] at spec
      dsimp only at spec
      have noStart := stays (by
        rintro ⟨dash, _, more⟩
        exact spec.elim (absurd dash) fun single => more single)
      have notDashes : ¬ (charAt arg 0 = 45 ∧ charAt arg 1 = 45) := by
        rintro ⟨dash, dashes⟩
        rcases spec with notDash | single
        · exact notDash dash
        · rw [dashes] at single
          exact absurd single (by decide)
      unfold nextOption
      rw [isArg]
      dsimp only
      rw [noStart, notPacked]
      dsimp only
      rw [if_neg notDashes]
      refine .ends 0 ?_ rfl
      rw [remaining_nil]
      exact parse_nonOption isKind
  | long =>
      rw [isKind] at spec
      obtain ⟨c, s, isText⟩ := spec
      have noStart := stays (by
        rw [isText]
        exact fun start => start.2.1 rfl)
      have more : charAt arg 2 ≠ 0 := by
        intro isNul
        have isNul : c = 0 := by
          rw [isText] at isNul
          exact isNul
        rw [isText, isNul] at noNul
        simp at noNul
      have dashes : charAt arg 0 = 45 ∧ charAt arg 1 = 45 := by
        rw [isText]
        exact ⟨rfl, rfl⟩
      unfold nextOption
      rw [isArg]
      dsimp only
      rw [noStart, notPacked]
      dsimp only
      rw [if_pos dashes, if_pos more]
      have next := long_next valid noNul ready noArg notPacked isKind behind
      rw [notPacked] at next
      exact next
  | packed cs =>
      rw [isKind] at spec
      obtain ⟨c, s, rfl, isText, notDash⟩ := spec
      have within : g.optind < argv.length :=
        (List.getElem?_eq_some_iff.mp isArg).1
      have restNoNul : 0 ∉ c :: s := by
        rw [isText] at noNul
        exact fun member => noNul (List.mem_cons_of_mem 45 member)
      have notNul : c ≠ 0 := fun isNul => restNoNul (isNul ▸ List.mem_cons_self)
      have isStart : (startPacked arg g).packedopts = some (c :: s) := by
        rw [isText]
        unfold startPacked
        rw [if_pos ⟨notPacked, rfl, notDash, notNul⟩]
        rfl
      rw [nextOption_packed isArg isStart]
      refine (char_next valid restNoNul ready noArg within behind).of_same ?_ ?_
      · rw [remaining_nil, parse_option, readArg, isKind, remaining_packed]
        · rw [isKind]
          exact Kind.noConfusion
        · rw [isKind]
          exact Kind.noConfusion
      · rw [isText]
        simp [size]

/-- What a call of `getopt` does. -/
theorem getopt_next (valid : ValidLabels labels)
    (noNul : ∀ arg ∈ argv, 0 ∉ arg) (position : At labels argv g packed rest) :
    Next labels argv g.optind packed rest (getopt argv g) := by
  have ready' : Ready labels { g with optarg := none } :=
    ready_update position.ready _ _ _ _ _
  have isPacked := position.packedopts
  have behind := position.behind
  rw [getopt_ready position.ready]
  cases packed with
  | cons c cs =>
      rw [if_neg (List.cons_ne_nil c cs)] at isPacked behind
      have within := position.within (List.cons_ne_nil c cs)
      have isArg := List.getElem?_eq_getElem within
      have isStart : (startPacked argv[g.optind]
          { g with optarg := none }).packedopts = some (c :: cs) := by
        unfold startPacked
        rw [if_neg]
        · exact isPacked
        · rintro ⟨isNone, _⟩
          exact Option.some_ne_none _ (isPacked.symm.trans isNone)
      rw [nextOption_packed (g := { g with optarg := none }) isArg isStart]
      exact char_next valid position.noNul ready' rfl within behind
  | nil =>
      rw [if_pos rfl] at isPacked behind
      cases rest with
      | nil =>
          have isLast : argv[g.optind]? = none := getElem_drop behind
          unfold nextOption
          rw [show argv[({ g with optarg := none } : Globals).optind]? = none
            from isLast]
          exact .ends 0 (remaining_nil labels []) rfl
      | cons arg rest =>
          have isArg : argv[g.optind]? = some arg := getElem_drop behind
          exact arg_next valid (noNul arg (List.mem_of_getElem? isArg)) ready'
            rfl isPacked isArg (drop_succ behind)

/-! ## Runs -/

/-- The loop from a position, where the table is indexed. -/
theorem getoptLoop_spec (valid : ValidLabels labels) (allocated : Bool)
    (noNul : ∀ arg ∈ argv, 0 ∉ arg) (turns : Nat)
    (position : At labels argv g packed rest)
    (enough : size packed rest < turns) :
    ∃ after, getoptLoop labels allocated argv turns g =
        .ok ((remaining labels packed rest).outcomes.map (turnOf labels),
          after) ∧
      after.optind = g.optind + (remaining labels packed rest).consumed := by
  induction turns generalizing g packed rest with
  | zero => exact absurd enough (Nat.not_lt_zero _)
  | succ turns ih =>
      have next := getopt_next valid noNul position
      rw [getoptLoop]
      generalize getopt argv g = result at next
      cases next with
      | ends consumed left isOptind =>
          rw [left]
          exact ⟨_, rfl, isOptind⟩
      | @finds g' o consumed packed' rest' finds position' left isOptind
          smaller =>
          obtain ⟨after, seen, isEnd⟩ := ih position'
            (Nat.lt_of_lt_of_le smaller (Nat.le_of_lt_succ enough))
          refine ⟨after, ?_, ?_⟩
          · dsimp only [bind, Except.bind]
            rw [if_neg Ch.noConfusion, finds.getoptSwitch allocated]
            dsimp only
            rw [seen, left, finds.optarg]
            rfl
          · rw [isEnd, isOptind, left]
            exact Nat.add_assoc _ _ _

/-! ## Outcomes are told apart -/

theorem option_ne_default {optarg : Option (List UInt8)}
    (isOption : (Outcome.option os optarg).Of (table labels)) :
    lineOf labels os ≠ labels.length + 1 :=
  Nat.ne_of_lt (Nat.lt_succ_of_lt (optionAt_lt (table_eq_some isOption)))

theorem option_ne_missing {optarg : Option (List UInt8)}
    (isOption : (Outcome.option os optarg).Of (table labels)) :
    lineOf labels os ≠ missingLine labels := by
  have isLabel := table_eq_some isOption
  rcases missingLine_spec labels with isDefault | isMissing
  · rw [isDefault]
    exact option_ne_default isOption
  · intro same
    rw [same] at isLabel
    unfold optionAt at isLabel
    rw [isMissing] at isLabel
    exact Option.some_ne_none _ isLabel.symm

/-- An unknown option string is that of no option. -/
theorem unknown_ne (valid : ValidLabels labels)
    (isUnknown : (Outcome.unknown os).Of (table labels)) :
    table labels os ≠ some hasarg := by
  intro isSome
  have isNone : table labels os = none := by
    rcases isUnknown with isNone | isNone
    · exact isNone
    · rw [nameOf_self (valid.table_isOption isSome).plain] at isNone
      exact isNone
  exact Option.some_ne_none _ (isSome.symm.trans isNone)

/-- Where the loop jumps, with which string and argument, tells the outcome. -/
theorem turnOf_inj (valid : ValidLabels labels) {o o' : Outcome}
    (isOutcome : o.Of (table labels)) (isOutcome' : o'.Of (table labels))
    (same : turnOf labels o = turnOf labels o') : o = o' := by
  have sameLine := congrArg Turn.ln same
  have sameWord : wordOf o = wordOf o' := Ch.string.inj (congrArg Turn.ch same)
  have sameArg := congrArg Turn.optarg same
  cases o with
  | option os optarg =>
      cases o' with
      | option _ _ =>
          cases sameWord
          cases sameArg
          rfl
      | missing _ => exact absurd sameLine (option_ne_missing isOutcome)
      | unknown _ | unexpected _ =>
          exact absurd sameLine (option_ne_default isOutcome)
  | unknown os =>
      cases o' with
      | option _ _ => exact absurd sameLine.symm (option_ne_default isOutcome')
      | unknown _ => exact congrArg Outcome.unknown sameWord
      | missing _ | unexpected _ =>
          cases sameWord
          exact absurd isOutcome' (unknown_ne valid isOutcome)
  | missing os =>
      cases o' with
      | option _ _ => exact absurd sameLine.symm (option_ne_missing isOutcome')
      | missing _ => exact congrArg Outcome.missing sameWord
      | unknown _ =>
          cases sameWord
          exact absurd isOutcome (unknown_ne valid isOutcome')
      | unexpected _ =>
          cases sameWord
          cases Option.some.inj (isOutcome.symm.trans isOutcome')
  | unexpected os =>
      cases o' with
      | option _ _ => exact absurd sameLine.symm (option_ne_default isOutcome')
      | unexpected _ => exact congrArg Outcome.unexpected sameWord
      | unknown _ =>
          cases sameWord
          exact absurd isOutcome (unknown_ne valid isOutcome')
      | missing _ =>
          cases sameWord
          cases Option.some.inj (isOutcome.symm.trans isOutcome')

/-- So the turns of a loop tell its outcomes. -/
theorem turns_inj (valid : ValidLabels labels) {outcomes seen : List Outcome}
    (areOutcomes : ∀ o ∈ outcomes, o.Of (table labels))
    (areSeen : ∀ o ∈ seen, o.Of (table labels))
    (same : outcomes.map (turnOf labels) = seen.map (turnOf labels)) :
    outcomes = seen := by
  induction outcomes generalizing seen with
  | nil => exact (List.map_eq_nil_iff.mp same.symm).symm
  | cons o outcomes ih =>
      cases seen with
      | nil => exact absurd same (List.cons_ne_nil _ _)
      | cons o' seen =>
          rw [List.forall_mem_cons] at areOutcomes areSeen
          obtain ⟨sameHead, sameTail⟩ := List.cons.inj same
          rw [turnOf_inj valid areOutcomes.1 areSeen.1 sameHead,
            ih areOutcomes.2 areSeen.2 sameTail]

/-- From a reset on, for any labels with distinct options and any arguments,
the loop gives the outcomes of the reference parser, which its turns tell, and
leaves its `optind`, without a failed assertion.  Without memory for the table
it dies. -/
theorem getopt_parses (valid : ValidLabels labels) (allocated : Bool)
    (noNul : ∀ arg ∈ argv, 0 ∉ arg) (isReset : g.optreset = true)
    (turns : Nat) (enough : size [] argv + 1 < turns) :
    if labels.length > 0 ∧ allocated = false then
      getoptLoop labels allocated argv turns g =
        .error (.dies "Failed to allocate memory in getopt" [])
    else
      ∃ seen after, getoptLoop labels allocated argv turns g =
          .ok (seen, after) ∧
        (∀ outcomes, (∀ o ∈ outcomes, o.Of (table labels)) →
          (outcomes.map (turnOf labels) = seen ↔
            outcomes = (parse (table labels) (argv.drop 1)).outcomes)) ∧
        after.optind = 1 + (parse (table labels) (argv.drop 1)).consumed := by
  obtain ⟨turns, rfl⟩ := Nat.exists_eq_add_of_lt (Nat.zero_lt_of_lt enough)
  rw [Nat.zero_add] at enough ⊢
  have first : getopt argv g =
      .ok (.dummy, reset argv { g with optarg := none }) := by
    unfold getopt
    dsimp only
    rw [if_pos isReset]
    rfl
  rw [getoptLoop, first]
  dsimp only [bind, Except.bind]
  rw [if_neg (show ¬ Ch.dummy = .null from Ch.noConfusion)]
  split_ifs with noMemory
  · rw [getoptSwitch_dies noMemory .dummy rfl rfl]
  · obtain ⟨indexed, isIndexed, ready, isOptind, isPacked⟩ :=
      getoptSwitch_indexes (g := reset argv { g with optarg := none }) valid
        noMemory .dummy rfl rfl
    have position : At labels argv indexed [] (argv.drop 1) :=
      ⟨ready, isPacked, fun some => absurd rfl some, by rw [isOptind]; rfl,
        List.not_mem_nil⟩
    have smaller : size [] (argv.drop 1) ≤ size [] argv := by
      cases argv with
      | nil => exact Nat.le_refl _
      | cons name args => exact Nat.le_of_lt size_rest
    obtain ⟨after, seen, isEnd⟩ := getoptLoop_spec valid allocated noNul turns
      position (by omega)
    rw [remaining_nil] at seen isEnd
    have areOutcomes := parse_of (table labels) (argv.drop 1)
    rw [isOptind] at isEnd
    refine ⟨(parse (table labels) (argv.drop 1)).outcomes.map
      (turnOf labels), after, ?_, ?_, isEnd⟩
    · rw [isIndexed]
      dsimp only
      rw [seen]
    · intro outcomes areOf
      constructor
      · exact turns_inj valid areOf areOutcomes
      · exact congrArg (List.map (turnOf labels))

/-- -b, --foo with an argument, and a label for a missing one; the arguments
are -bb, --foo=, x. -/
theorem getopt_parses_missingArg :
    let labels : List (Option Label) :=
      [some (.opt [45, 98]), none, some (.optarg [45, 45, 102]),
        some .missingArg]
    let argv : List (List UInt8) :=
      [[112], [45, 98, 98], [45, 45, 102, 61], [120]]
    ∃ seen after, getoptLoop labels true argv 20 {} = .ok (seen, after) ∧
      (∀ outcomes, (∀ o ∈ outcomes, o.Of (table labels)) →
        (outcomes.map (turnOf labels) = seen ↔
          outcomes = [.option [45, 98] none, .option [45, 98] none,
            .option [45, 45, 102] (some [])])) ∧
      after.optind = 3 := by
  intro labels argv
  have lines : ∀ ln ∈ List.range 4, ∀ ln' ∈ List.range 4,
      (∀ option ∈ optionAt labels ln, IsOption option.1) ∧
        ((optionAt labels ln).map Prod.fst = (optionAt labels ln').map Prod.fst →
          optionAt labels ln ≠ none → ln = ln') := by
    decide
  have line {ln : Nat} {option : List UInt8 × Bool}
      (isOption : optionAt labels ln = some option) : ln ∈ List.range 4 :=
    List.mem_range.mpr (optionAt_lt isOption)
  have valid : ValidLabels labels := by
    constructor
    · intro ln os hasarg isOption
      exact (lines ln (line isOption) ln (line isOption)).1 _ isOption
    · intro ln ln' os hasarg hasarg' isOption isOption'
      refine (lines ln (line isOption) ln' (line isOption')).2 ?_ ?_
      · rw [isOption, isOption']
        rfl
      · rw [isOption]
        exact Option.some_ne_none _
  have noNul : ∀ arg ∈ argv, 0 ∉ arg := by
    simp [argv]
  have isParsed : parse (table labels) (argv.drop 1) =
      ⟨[.option [45, 98] none, .option [45, 98] none,
        .option [45, 45, 102] (some [])], 2⟩ := by decide
  have result := getopt_parses valid true noNul (g := {}) rfl 20 (by decide)
  rw [if_neg (by decide), isParsed] at result
  exact result

end Libcperciva.Util.GetoptRuns
