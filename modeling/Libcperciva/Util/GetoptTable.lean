import Libcperciva.Lib.CommandLine
import Libcperciva.Util.GetoptModel
import Mathlib.Data.List.GetD

/-!
# The table of a `GETOPT_SWITCH`

`searchopt` finds the option whose string is the part of its own before the
first `=`.  The labels fill the table without a failed assertion, if their
options are well-formed and distinct.
-/

namespace Libcperciva.Util.GetoptTable

open Libcperciva.Lib.CommandLine
open Libcperciva.Util.GetoptModel

variable {s t r os : List UInt8} {labels : List (Option Label)}
  {g : Globals} {hasarg : Bool} {ln : Nat}

/-! ## Strings -/

theorem charAt_append_length (s r : List UInt8) :
    charAt (s ++ r) s.length = charAt r 0 := by
  unfold charAt
  rw [List.getD_append_right s r 0 s.length (Nat.le_refl _), Nat.sub_self]

/-- Only behind its end a string reads as a NUL. -/
theorem charAt_zero_eq_zero (noNul : 0 ∉ r) : charAt r 0 = 0 ↔ r = [] := by
  cases r with
  | nil => exact iff_of_true rfl rfl
  | cons c r =>
      refine iff_of_false ?_ (List.cons_ne_nil _ _)
      intro (isNul : c = 0)
      exact noNul (isNul ▸ List.mem_cons_self)

theorem strncmp_iff (s t : List UInt8) :
    strncmp s t s.length = true ↔ s <+: t := by
  induction s generalizing t with
  | nil => exact iff_of_true rfl List.nil_prefix
  | cons c s ih =>
      cases t with
      | nil =>
          exact iff_of_false Bool.false_ne_true
            fun isPrefix => List.cons_ne_nil c s (List.prefix_nil.mp isPrefix)
      | cons d t =>
          rw [List.cons_prefix_cons, ← ih t]
          simp [strncmp]

theorem nameOf_append (plain : 61 ∉ s) : nameOf (s ++ r) = s ++ nameOf r :=
  List.takeWhile_append_of_pos fun _ member =>
    decide_eq_true fun isEq => plain (isEq ▸ member)

theorem nameOf_self (plain : 61 ∉ s) : nameOf s = s := by
  rw [← List.append_nil s, nameOf_append plain]
  rfl

theorem nameOf_starts (t : List UInt8) : nameOf t <+: t :=
  List.takeWhile_prefix _

theorem nameOf_append_value (t : List UInt8) :
    nameOf t ++ t.dropWhile (· ≠ 61) = t :=
  List.takeWhile_append_dropWhile

/-- The name ends where the string does, or before a `=`. -/
theorem charAt_nameOf_length (t : List UInt8) :
    charAt t (nameOf t).length = if valueOf t = none then 0 else 61 := by
  have split := nameOf_append_value t
  have read := charAt_append_length (nameOf t) (t.dropWhile (· ≠ 61))
  rw [split] at read
  rw [read]
  unfold valueOf
  cases isRest : t.dropWhile (· ≠ 61) with
  | nil => rfl
  | cons c r =>
      have isEq := List.head?_dropWhile_not (· ≠ (61 : UInt8)) t
      rw [isRest] at isEq
      have isEq : c = 61 := by simpa using isEq
      exact isEq

/-- What `searchopt` compares. -/
theorem matches_iff (noNul : 0 ∉ t) (plain : 61 ∉ s) :
    (s <+: t ∧ (charAt t s.length = 0 ∨ charAt t s.length = 61)) ↔
      nameOf t = s := by
  constructor
  · rintro ⟨⟨r, rfl⟩, ends⟩
    rw [charAt_append_length] at ends
    rw [nameOf_append plain]
    rcases ends with isNul | isEq
    · have isNil : r = [] :=
        (charAt_zero_eq_zero fun member =>
          noNul (List.mem_append_right _ member)).mp isNul
      rw [isNil]
      exact List.append_nil s
    · cases r with
      | nil => exact absurd isEq (by decide)
      | cons c r =>
          have isEq : c = 61 := isEq
          rw [isEq]
          exact List.append_nil s
  · rintro rfl
    refine ⟨nameOf_starts t, ?_⟩
    rw [charAt_nameOf_length]
    by_cases isNone : valueOf t = none
    · exact Or.inl (if_pos isNone)
    · exact Or.inr (if_neg isNone)

/-! ## Labels -/

/-- The option of a label, and whether it takes an argument. -/
def option : Label → Option (List UInt8 × Bool)
  | .opt os => some (os, false)
  | .optarg os => some (os, true)
  | .missingArg => none

/-- The option of a line. -/
def optionAt (labels : List (Option Label)) (ln : Nat) :
    Option (List UInt8 × Bool) :=
  (labels[ln]?).join.bind option

/-- `-X` or `--name`, without `=`. -/
structure IsOption (os : List UInt8) : Prop where
  valid : notValid os = false
  noNul : 0 ∉ os
  plain : 61 ∉ os

instance : DecidablePred IsOption := fun os =>
  decidable_of_iff (notValid os = false ∧ 0 ∉ os ∧ 61 ∉ os)
    ⟨fun ⟨valid, noNul, plain⟩ => ⟨valid, noNul, plain⟩,
      fun ⟨valid, noNul, plain⟩ => ⟨valid, noNul, plain⟩⟩

/-- The options are well-formed and distinct. -/
structure ValidLabels (labels : List (Option Label)) : Prop where
  isOption : ∀ {ln os hasarg},
    optionAt labels ln = some (os, hasarg) → IsOption os
  distinct : ∀ {ln ln' os hasarg hasarg'},
    optionAt labels ln = some (os, hasarg) →
      optionAt labels ln' = some (os, hasarg') → ln = ln'

/-- Whether a line has a label with the option. -/
def registers (os : List UInt8) (label : Option Label) : Bool :=
  (label.bind option).any fun registered => registered.1 = os

/-- The first line with the option. -/
def lineOf (labels : List (Option Label)) (os : List UInt8) : Nat :=
  labels.findIdx (registers os)

/-- For each option of the labels, whether it takes an argument. -/
def table (labels : List (Option Label)) : Table := fun os =>
  (optionAt labels (lineOf labels os)).map (·.2)

/-- The line of the last `GETOPT_MISSING_ARG`. -/
def missingFrom : List (Option Label) → (ln missing : Nat) → Nat
  | [], _, missing => missing
  | some .missingArg :: labels, ln, _ => missingFrom labels (ln + 1) ln
  | _ :: labels, ln, missing => missingFrom labels (ln + 1) missing

/-- Where a missing argument leads. -/
def missingLine (labels : List (Option Label)) : Nat :=
  missingFrom labels 0 (labels.length + 1)

/-- The array of options. -/
def slots (labels : List (Option Label)) : List (Option Opt) :=
  labels.map fun label => (label.bind option).map fun registered =>
    ⟨registered.1, registered.1.length, registered.2⟩

theorem length_slots (labels : List (Option Label)) :
    (slots labels).length = labels.length := List.length_map ..

theorem slots_getElem (labels : List (Option Label)) (ln : Nat) :
    ((slots labels)[ln]?).join = (optionAt labels ln).map fun registered =>
      ⟨registered.1, registered.1.length, registered.2⟩ := by
  unfold slots optionAt
  rw [List.getElem?_map]
  cases labels[ln]? with
  | none => rfl
  | some label => rfl

theorem registers_iff {label : Option Label} :
    registers os label = true ↔
      ∃ hasarg, label.bind option = some (os, hasarg) := by
  unfold registers
  cases label.bind option with
  | none => simp
  | some registered =>
      rcases registered with ⟨os', hasarg⟩
      simp

theorem optionAt_lt (isOption : optionAt labels ln = some (os, hasarg)) :
    ln < labels.length := by
  by_contra beyond
  unfold optionAt at isOption
  rw [List.getElem?_eq_none (Nat.le_of_not_lt beyond)] at isOption
  exact Option.some_ne_none _ isOption.symm

theorem optionAt_lineOf (found : lineOf labels os < labels.length) :
    ∃ hasarg, optionAt labels (lineOf labels os) = some (os, hasarg) := by
  have isRegistered := List.findIdx_getElem (w := found)
  obtain ⟨hasarg, isOption⟩ := registers_iff.mp isRegistered
  refine ⟨hasarg, ?_⟩
  unfold optionAt
  rw [List.getElem?_eq_getElem found]
  exact isOption

theorem table_eq_none :
    table labels os = none ↔ labels.length ≤ lineOf labels os := by
  unfold table
  rw [Option.map_eq_none_iff]
  constructor
  · intro isNone
    by_contra found
    obtain ⟨hasarg, isOption⟩ := optionAt_lineOf (Nat.lt_of_not_le found)
    exact Option.some_ne_none _ (isOption.symm.trans isNone)
  · intro beyond
    unfold optionAt
    rw [List.getElem?_eq_none beyond]
    rfl

theorem table_eq_some (isSome : table labels os = some hasarg) :
    optionAt labels (lineOf labels os) = some (os, hasarg) := by
  have found : lineOf labels os < labels.length := by
    by_contra beyond
    have isNone := table_eq_none.mpr (Nat.le_of_not_lt beyond)
    exact Option.some_ne_none _ (isSome.symm.trans isNone)
  obtain ⟨hasarg', isOption⟩ := optionAt_lineOf found
  unfold table at isSome
  rw [isOption] at isSome ⊢
  rw [← Option.some.inj isSome]

/-! ## Searching -/

theorem searchFrom_slots (noNul : 0 ∉ t) (optDefault : Nat)
    (areOptions : ∀ ln os hasarg,
      optionAt labels ln = some (os, hasarg) → 61 ∉ os) (i : Nat) :
    searchFrom t optDefault (slots labels) i =
      if lineOf labels (nameOf t) < labels.length then
        i + lineOf labels (nameOf t)
      else optDefault := by
  induction labels generalizing i with
  | nil => rfl
  | cons label labels ih =>
      have ih := ih (fun ln => areOptions (ln + 1)) (i + 1)
      have next (other : registers (nameOf t) label = false) :
          (if lineOf labels (nameOf t) < labels.length then
            i + 1 + lineOf labels (nameOf t) else optDefault) =
          if lineOf (label :: labels) (nameOf t) < (label :: labels).length then
            i + lineOf (label :: labels) (nameOf t) else optDefault := by
        unfold lineOf
        rw [List.findIdx_cons, other]
        simp only [cond_false, List.length_cons, Nat.add_lt_add_iff_right]
        split <;> omega
      cases isOption : label.bind option with
      | none =>
          have other : registers (nameOf t) label = false := by
            unfold registers
            rw [isOption]
            rfl
          rw [← next other, ← ih]
          unfold slots
          rw [List.map_cons, isOption]
          rfl
      | some registered =>
          rcases registered with ⟨os, hasarg⟩
          have plain : 61 ∉ os := areOptions 0 os hasarg isOption
          have isMatch := matches_iff noNul plain
          have isSlot : slots (label :: labels) =
              some ⟨os, os.length, hasarg⟩ :: slots labels := by
            unfold slots
            rw [List.map_cons, isOption]
            rfl
          rw [isSlot, searchFrom]
          by_cases same : nameOf t = os
          · obtain ⟨isPrefix, ends⟩ := isMatch.mpr same
            have here : lineOf (label :: labels) (nameOf t) = 0 := by
              unfold lineOf
              rw [List.findIdx_cons,
                registers_iff.mpr ⟨hasarg, same ▸ isOption⟩]
              rfl
            have isEqual := (strncmp_iff os t).mpr isPrefix
            rw [if_neg (ne_false_of_eq_true isEqual), if_pos ends, here,
              if_pos (show 0 < (label :: labels).length from Nat.succ_pos _)]
            rfl
          · have other : registers (nameOf t) label = false := by
              rw [Bool.eq_false_iff]
              intro isRegistered
              obtain ⟨hasarg', isOption'⟩ := registers_iff.mp isRegistered
              rw [isOption] at isOption'
              exact same (congrArg Prod.fst (Option.some.inj isOption')).symm
            rw [← next other, ← ih]
            by_cases isPrefix : os <+: t
            · have isEqual := (strncmp_iff os t).mpr isPrefix
              rw [if_neg (ne_false_of_eq_true isEqual), if_neg]
              exact fun ends => same (isMatch.mp ⟨isPrefix, ends⟩)
            · have differs := mt (strncmp_iff os t).mp isPrefix
              rw [if_pos (Bool.eq_false_iff.mpr differs)]

/-! ## Registering -/

/-- The options are indexed. -/
structure Ready (labels : List (Option Label)) (g : Globals) : Prop where
  notReset : g.optreset = false
  initialized : g.initialized = true
  opts : g.opts.getD [] = slots labels
  nopts : g.nopts = labels.length
  optDefault : g.optDefault = labels.length + 1
  optMissing : g.optMissing = missingLine labels

/-- The first labels are registered, and those of `todo` are not. -/
structure Indexing (before todo : List (Option Label)) (g : Globals) :
    Prop where
  notReset : g.optreset = false
  notInitialized : g.initialized = false
  opts : g.opts = some (slots (before ++ List.replicate todo.length none))
  nopts : g.nopts = (before ++ todo).length
  optDefault : g.optDefault = (before ++ todo).length + 1

variable {before todo : List (Option Label)} {label : Label}

theorem noReset_ok (notReset : g.optreset = false) : noReset g = .ok () :=
  if_neg (ne_true_of_eq_false notReset)

theorem assert_ok {holds : Bool} (isTrue : holds = true) :
    assert holds = .ok () := if_pos isTrue

theorem optionAt_append (isOption : optionAt before ln = some (os, hasarg))
    (todo : List (Option Label)) :
    optionAt (before ++ todo) ln = some (os, hasarg) := by
  have within := optionAt_lt isOption
  unfold optionAt
  rw [List.getElem?_append_left within]
  exact isOption

theorem optionAt_replicate {n : Nat}
    (isOption : optionAt (before ++ List.replicate n none) ln =
      some (os, hasarg)) : optionAt before ln = some (os, hasarg) := by
  by_cases within : ln < before.length
  · unfold optionAt at isOption ⊢
    rw [List.getElem?_append_left within] at isOption
    exact isOption
  · unfold optionAt at isOption
    rw [List.getElem?_append_right (Nat.le_of_not_lt within),
      List.getElem?_replicate] at isOption
    split at isOption
    · exact absurd isOption (Option.some_ne_none _).symm
    · exact absurd isOption (Option.some_ne_none _).symm

theorem optionAt_length (label : Label) :
    optionAt (before ++ some label :: todo) before.length = option label := by
  unfold optionAt
  rw [List.getElem?_append_right (Nat.le_refl _), Nat.sub_self]
  rfl

/-- An option that is not registered yet is not found. -/
theorem searchopt_new (valid : ValidLabels (before ++ some label :: todo))
    (indexing : Indexing before (some label :: todo) g)
    (isOption : option label = some (os, hasarg)) :
    searchopt g os = g.optDefault := by
  have here : optionAt (before ++ some label :: todo) before.length =
      some (os, hasarg) := (optionAt_length label).trans isOption
  have isWord := valid.isOption here
  unfold searchopt
  rw [indexing.opts, indexing.nopts, Option.getD_some, List.take_of_length_le]
  · rw [searchFrom_slots isWord.noNul, nameOf_self isWord.plain, if_neg]
    · intro found
      obtain ⟨hasarg', isRegistered⟩ := optionAt_lineOf found
      have earlier := optionAt_replicate isRegistered
      have same := valid.distinct (optionAt_append earlier _) here
      exact absurd (optionAt_lt earlier) (same ▸ Nat.lt_irrefl _)
    · intro ln os hasarg isRegistered
      have earlier := optionAt_replicate isRegistered
      exact (valid.isOption (optionAt_append earlier _)).plain
  · refine Nat.le_of_eq ?_
    rw [length_slots, List.length_append, List.length_append,
      List.length_replicate]

theorem getoptRegisterOpt_new
    (valid : ValidLabels (before ++ some label :: todo))
    (indexing : Indexing before (some label :: todo) g)
    (isOption : option label = some (os, hasarg)) :
    getoptRegisterOpt os before.length hasarg g =
      .ok { g with
        opts := some (slots (before ++
          some label :: List.replicate todo.length none)) } := by
  have here : optionAt (before ++ some label :: todo) before.length =
      some (os, hasarg) := (optionAt_length label).trans isOption
  have isFree : (slots (before ++
      List.replicate (some label :: todo).length none))[before.length]? =
      some none := by
    unfold slots
    rw [List.map_append, List.getElem?_append_right (by simp)]
    simp [List.replicate_succ]
  have isSet : (slots (before ++
      List.replicate (some label :: todo).length none)).set before.length
        (some ⟨os, os.length, hasarg⟩) =
      slots (before ++ some label :: List.replicate todo.length none) := by
    unfold slots
    rw [List.map_append, List.set_append_right _ _ (by simp)]
    simp [List.replicate_succ, isOption]
  unfold getoptRegisterOpt
  rw [noReset_ok indexing.notReset,
    assert_ok (decide_eq_true indexing.notInitialized), indexing.opts]
  dsimp only [bind, Except.bind]
  rw [isFree]
  dsimp only
  rw [(valid.isOption here).valid, if_neg Bool.false_ne_true,
    searchopt_new valid indexing isOption, if_neg (not_not_intro rfl), isSet]

/-- A label registers itself and leaves the rest to the others. -/
theorem register_next (valid : ValidLabels (before ++ some label :: todo))
    (indexing : Indexing before (some label :: todo) g) :
    label.register before.length g =
      .ok { g with
        opts := some (slots (before ++
          some label :: List.replicate todo.length none))
        optMissing :=
          if label = .missingArg then before.length else g.optMissing } := by
  cases label with
  | opt os => exact getoptRegisterOpt_new valid indexing rfl
  | optarg os => exact getoptRegisterOpt_new valid indexing rfl
  | missingArg =>
      have same : slots (before ++ some .missingArg ::
          List.replicate todo.length none) =
          slots (before ++ List.replicate (todo.length + 1) none) := by
        simp [slots, List.replicate_succ, option]
      unfold Label.register getoptRegisterMissing
      rw [noReset_ok indexing.notReset,
        assert_ok (decide_eq_true indexing.notInitialized), if_pos rfl, same]
      exact congrArg (fun opts => Except.ok { g with
        opts, optMissing := before.length }) indexing.opts

theorem registerLabels_spec (valid : ValidLabels (before ++ todo))
    (indexing : Indexing before todo g) :
    registerLabels todo before.length g =
      .ok { g with
        opts := some (slots (before ++ todo))
        optMissing := missingFrom todo before.length g.optMissing } := by
  induction todo generalizing before g with
  | nil =>
      have isOpts := indexing.opts
      rw [List.length_nil, List.replicate_zero] at isOpts
      rw [← isOpts]
      rfl
  | cons label todo ih =>
      have moved : before ++ label :: todo = (before ++ [label]) ++ todo := by
        simp
      have line : before.length + 1 = (before ++ [label]).length := by simp
      have split (rest : List (Option Label)) :
          before ++ label :: rest = before ++ [label] ++ rest := by simp
      cases label with
      | none =>
          have next : Indexing (before ++ [none]) todo g := by
            refine ⟨indexing.notReset, indexing.notInitialized, ?_, ?_, ?_⟩
            · rw [indexing.opts, List.length_cons, List.replicate_succ, split]
            · rw [indexing.nopts, moved]
            · rw [indexing.optDefault, moved]
          rw [registerLabels, line, ih (moved ▸ valid) next, ← moved, ← line]
          rfl
      | some label =>
          rw [registerLabels, register_next valid indexing]
          dsimp only [bind, Except.bind]
          rw [line, ih (moved ▸ valid), ← moved, ← line]
          · cases label <;> rfl
          · refine ⟨indexing.notReset, indexing.notInitialized, ?_, ?_, ?_⟩
            · exact congrArg (some ∘ slots) (split _)
            · rw [← moved]
              exact indexing.nopts
            · rw [← moved]
              exact indexing.optDefault

/-- The first turn of the loop indexes the options. -/
theorem getoptSwitch_indexes {allocated : Bool} (valid : ValidLabels labels)
    (enough : ¬ (labels.length > 0 ∧ allocated = false)) (ch : Ch)
    (notReset : g.optreset = false) (notInitialized : g.initialized = false) :
    ∃ after, getoptSwitch labels allocated ch g = .ok (none, after) ∧
      Ready labels after ∧ after.optind = g.optind ∧
      after.packedopts = g.packedopts := by
  have ranged : getoptSetrange allocated labels.length g = .ok { g with
      opts := if allocated then some (List.replicate labels.length none)
        else none
      nopts := labels.length
      optMissing := labels.length + 1
      optDefault := labels.length + 1 } := by
    unfold getoptSetrange
    rw [noReset_ok notReset, assert_ok (decide_eq_true notInitialized)]
    exact if_neg enough
  unfold getoptSwitch
  rw [if_neg (ne_true_of_eq_false notInitialized), ranged]
  dsimp only [bind, Except.bind]
  cases allocated with
  | true =>
      have indexing : Indexing [] labels
          { g with
            opts := some (List.replicate labels.length none)
            nopts := labels.length
            optMissing := labels.length + 1
            optDefault := labels.length + 1 } := by
        refine ⟨notReset, notInitialized, ?_, rfl, rfl⟩
        simp [slots]
      have registered := registerLabels_spec
        (show ValidLabels ([] ++ labels) from valid) indexing
      rw [if_pos rfl, show registerLabels labels 0 _ = _ from registered]
      exact ⟨_, rfl, ⟨notReset, rfl, rfl, rfl, rfl, rfl⟩, rfl, rfl⟩
  | false =>
      have isNil : labels = [] :=
        List.length_eq_zero_iff.mp (Nat.eq_zero_of_not_pos fun positive =>
          enough ⟨positive, rfl⟩)
      rw [isNil]
      exact ⟨_, rfl, ⟨notReset, rfl, rfl, rfl, rfl, rfl⟩, rfl, rfl⟩

/-- Without memory for the table there is no first turn. -/
theorem getoptSwitch_dies {allocated : Bool}
    (noMemory : labels.length > 0 ∧ allocated = false) (ch : Ch)
    (notReset : g.optreset = false) (notInitialized : g.initialized = false) :
    getoptSwitch labels allocated ch g =
      .error (.dies "Failed to allocate memory in getopt" []) := by
  unfold getoptSwitch getoptSetrange
  rw [if_neg (ne_true_of_eq_false notInitialized), noReset_ok notReset,
    assert_ok (decide_eq_true notInitialized)]
  dsimp only [bind, Except.bind]
  rw [if_pos noMemory]

/-! ## The indexed table -/

theorem Ready.searchopt_eq (ready : Ready labels g)
    (valid : ValidLabels labels) (noNul : 0 ∉ t) :
    searchopt g t = if table labels (nameOf t) = none then g.optDefault
      else lineOf labels (nameOf t) := by
  unfold searchopt
  rw [ready.opts, ready.nopts,
    List.take_of_length_le (Nat.le_of_eq (length_slots labels)),
    searchFrom_slots noNul g.optDefault
      fun _ _ _ isOption => (valid.isOption isOption).plain]
  by_cases isNone : table labels (nameOf t) = none
  · rw [if_pos isNone, if_neg (Nat.not_lt_of_le (table_eq_none.mp isNone))]
  · have found := Nat.lt_of_not_le (mt table_eq_none.mpr isNone)
    rw [if_neg isNone, if_pos found, Nat.zero_add]

/-- The slot of an option. -/
theorem Ready.opt_eq (ready : Ready labels g)
    (isOption : optionAt labels ln = some (os, hasarg)) :
    g.opt ln = some ⟨os, os.length, hasarg⟩ := by
  unfold Globals.opt
  rw [ready.opts, slots_getElem, isOption]
  rfl

theorem missingFrom_spec (labels : List (Option Label)) (ln missing : Nat) :
    missingFrom labels ln missing = missing ∨
      ∃ i, missingFrom labels ln missing = ln + i ∧
        labels[i]? = some (some .missingArg) := by
  induction labels generalizing ln missing with
  | nil => exact Or.inl rfl
  | cons label labels ih =>
      have later (missing' : Nat) (i : Nat)
          (isLine : missingFrom labels (ln + 1) missing' = ln + 1 + i)
          (isMissing : labels[i]? = some (some .missingArg)) :
          ∃ i, missingFrom labels (ln + 1) missing' = ln + i ∧
            (label :: labels)[i]? = some (some .missingArg) :=
        ⟨i + 1, by omega, isMissing⟩
      have skips (isSame : missingFrom (label :: labels) ln missing =
          missingFrom labels (ln + 1) missing) :
          missingFrom (label :: labels) ln missing = missing ∨
            ∃ i, missingFrom (label :: labels) ln missing = ln + i ∧
              (label :: labels)[i]? = some (some .missingArg) := by
        rw [isSame]
        rcases ih (ln + 1) missing with same | ⟨i, isLine, isMissing⟩
        · exact Or.inl same
        · exact Or.inr (later missing i isLine isMissing)
      rcases label with _ | _ | _ | _
      · exact skips rfl
      · exact skips rfl
      · exact skips rfl
      · rcases ih (ln + 1) ln with same | ⟨i, isLine, isMissing⟩
        · exact Or.inr ⟨0, same, rfl⟩
        · exact Or.inr (later ln i isLine isMissing)

/-- A missing argument leads to `GETOPT_MISSING_ARG`, or to the default. -/
theorem missingLine_spec (labels : List (Option Label)) :
    missingLine labels = labels.length + 1 ∨
      labels[missingLine labels]? = some (some .missingArg) := by
  rcases missingFrom_spec labels 0 (labels.length + 1) with
    same | ⟨i, isLine, isMissing⟩
  · exact Or.inl same
  · refine Or.inr ?_
    rw [missingLine, isLine, Nat.zero_add]
    exact isMissing

/-- The options are strings, so `-=` and `-` are none. -/
theorem ValidLabels.table_isOption (valid : ValidLabels labels)
    (isSome : table labels os = some hasarg) : IsOption os :=
  valid.isOption (table_eq_some isSome)

end Libcperciva.Util.GetoptTable
