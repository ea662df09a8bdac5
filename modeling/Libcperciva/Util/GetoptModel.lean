import Mathlib.Algebra.Group.Nat.Defs
import Mathlib.Data.List.Basic
import Mathlib.Tactic.Common

/-!
# Command lines, `util/getopt.c` and `util/getopt.h`

A string is the list of its characters, without the NUL.  The labels of a
`GETOPT_SWITCH` are listed by their lines; the loop around it does nothing but
note where each turn jumps.  The `atexit` handler is left out.
-/

namespace Libcperciva.Util.GetoptModel

/-! ## Strings -/

/-- `s[i]`. -/
def charAt (s : List UInt8) (i : Nat) : UInt8 := s.getD i 0

/-- Whether `strncmp` returns 0. -/
def strncmp : (s t : List UInt8) → (n : Nat) → Bool
  | _, _, 0 => true
  | [], [], _ + 1 => true
  | c :: s, d :: t, n + 1 => c = d && strncmp s t n
  | _, _, _ + 1 => false

/-- The part behind the last slash of `s`, or else `p`. -/
def basename : (p s : List UInt8) → List UInt8
  | p, [] => p
  | p, c :: s => if c = 47 then basename s s else basename p s

/-! ## State -/

/-- `struct opt`. -/
structure Opt where
  os : List UInt8
  olen : Nat
  hasarg : Bool
deriving DecidableEq

/-- A line printed to `stderr`. -/
structure Message where
  cmdname : Option (List UInt8)
  text : String
  /-- What `%s` stands for. -/
  os : List UInt8
deriving DecidableEq

/-- The global and the static variables. -/
structure Globals where
  optarg : Option (List UInt8) := none
  optind : Nat := 1
  opterr : Bool := true
  optreset : Bool := true
  initialized : Bool := false
  cmdname : Option (List UInt8) := none
  /-- Probably a sparse array: some values, some NULLs. -/
  opts : Option (List (Option Opt)) := none
  /-- Maximum number of options. -/
  nopts : Nat := 0
  optMissing : Nat := 0
  optDefault : Nat := 0
  optFound : Nat := 0
  /-- The rest of the argument that it points into. -/
  packedopts : Option (List UInt8) := none
  stderr : List Message := []
deriving DecidableEq

/-- How the functions go wrong. -/
inductive GetoptFault where
  | dies (text : String) (os : List UInt8)
  | assertFails
  | outOfBounds
  /-- The loop has not ended yet. -/
  | turnsExhausted
deriving DecidableEq

/-- What `getopt` returns. -/
inductive Ch where
  | null
  /-- `GETOPT_DUMMY`. -/
  | dummy
  | string (os : List UInt8)
deriving DecidableEq

/-- `(size_t)(-1)`. -/
def NOT_FOUND : Nat := 2 ^ 64 - 1

/-- `WARN`. -/
def warn (text : String) (os : List UInt8) (g : Globals) : Globals :=
  if g.opterr = false then g
  else if g.optMissing ≠ g.optDefault then g
  else { g with stderr := g.stderr ++ [⟨g.cmdname, text, os⟩] }

/-! ## `getopt` -/

/-- `reset`. -/
def reset (argv : List (List UInt8)) (g : Globals) : Globals :=
  { g with
    cmdname := match argv with
      | [] => g.cmdname
      | name :: _ => some (basename name name)
    opts := none
    optind := 1
    packedopts := none
    optFound := NOT_FOUND
    initialized := false
    optreset := false }

/-- The loop of `searchopt`, from slot `i`. -/
def searchFrom (os : List UInt8) (optDefault : Nat) :
    List (Option Opt) → (i : Nat) → Nat
  | [], _ => optDefault
  | none :: opts, i => searchFrom os optDefault opts (i + 1)
  | some opt :: opts, i =>
      if strncmp opt.os os opt.olen = false then
        searchFrom os optDefault opts (i + 1)
      else if charAt os opt.olen = 0 ∨ charAt os opt.olen = 61 then i
      else searchFrom os optDefault opts (i + 1)

/-- `searchopt`. -/
def searchopt (g : Globals) (os : List UInt8) : Nat :=
  searchFrom os g.optDefault ((g.opts.getD []).take g.nopts) 0

/-- `opts[i]`, where an option is registered. -/
def Globals.opt (g : Globals) (i : Nat) : Option Opt :=
  ((g.opts.getD [])[i]?).join

/-- The argument of an option that takes one. -/
def takeArg (argv : List (List UInt8)) (os : List UInt8) (opt : Opt)
    (g : Globals) : Globals :=
  let g := match g.packedopts with
    | some packedopts =>
        { g with
          optarg := some packedopts, packedopts := none, optind := g.optind + 1 }
    | none => g
  let g := if charAt os opt.olen = 61 then
      { g with optarg := some (os.drop (opt.olen + 1)) }
    else g
  let g := match g.optarg, argv[g.optind]? with
    | none, some arg => { g with optarg := some arg, optind := g.optind + 1 }
    | _, _ => g
  if g.optarg = none then
    { warn "option requires an argument: " opt.os g with
      optFound := g.optMissing }
  else g

/-- The part of `getopt` that searches for the option string. -/
def processOption (argv : List (List UInt8)) (os : List UInt8) (g : Globals) :
    Except GetoptFault (Ch × Globals) :=
  let g := { g with optFound := searchopt g os }
  if g.optFound = g.optDefault then
    .ok (.string os, warn "unknown option: " os g)
  else
    match g.opt g.optFound with
    | none => .error .outOfBounds
    | some opt =>
        if opt.hasarg then .ok (.string opt.os, takeArg argv os opt g)
        else if charAt os opt.olen = 61 then
          .ok (.string opt.os,
            { warn "option doesn't take an argument: " opt.os g with
              optFound := g.optDefault })
        else .ok (.string opt.os, g)

/-- If we're not already in the middle of packed single-character options, see
if we should start. -/
def startPacked (arg : List UInt8) (g : Globals) : Globals :=
  if g.packedopts = none ∧ charAt arg 0 = 45 ∧ charAt arg 1 ≠ 45 ∧
      charAt arg 1 ≠ 0 then
    { g with packedopts := some (arg.drop 1) }
  else g

/-- `getopt`, once the options are indexed. -/
def nextOption (argv : List (List UInt8)) (g : Globals) :
    Except GetoptFault (Ch × Globals) :=
  match argv[g.optind]? with
  | none => .ok (.null, g)
  | some arg =>
      let g := startPacked arg g
      match g.packedopts with
      | some packedopts =>
          let popt := [45, charAt packedopts 0]
          let packedopts := packedopts.tail
          if packedopts = [] then
            processOption argv popt
              { g with packedopts := none, optind := g.optind + 1 }
          else processOption argv popt { g with packedopts := some packedopts }
      | none =>
          if charAt arg 0 = 45 ∧ charAt arg 1 = 45 then
            let g := { g with optind := g.optind + 1 }
            if charAt arg 2 ≠ 0 then processOption argv arg g
            else .ok (.null, g)
          else .ok (.null, g)

/-- `getopt`. -/
def getopt (argv : List (List UInt8)) (g : Globals) :
    Except GetoptFault (Ch × Globals) :=
  let g := { g with optarg := none }
  let g := if g.optreset then reset argv g else g
  if g.initialized = false then .ok (.dummy, g)
  else nextOption argv g

/-! ## The back end of `GETOPT_SWITCH` -/

/-- Can't reset here. -/
def noReset (g : Globals) : Except GetoptFault Unit :=
  if g.optreset then
    .error (.dies "Can't reset in the middle of getopt loop" [])
  else .ok ()

/-- `assert`. -/
def assert (holds : Bool) : Except GetoptFault Unit :=
  if holds then .ok () else .error .assertFails

/-- `getopt_lookup`. -/
def getoptLookup (ch : Ch) (g : Globals) : Except GetoptFault Nat := do
  noReset g
  assert g.initialized
  assert (ch ≠ .dummy)
  assert (g.optFound = g.optMissing || g.optFound = g.optDefault ||
    (g.optFound < g.nopts &&
      (g.opt g.optFound).any fun opt => ch = .string opt.os))
  .ok g.optFound

/-- Options should be "-X" or "--foo". -/
def notValid (os : List UInt8) : Bool :=
  charAt os 0 ≠ 45 || charAt os 1 = 0 || (charAt os 1 = 45 && charAt os 2 = 0) ||
    (charAt os 1 ≠ 45 && charAt os 2 ≠ 0)

/-- `getopt_register_opt`. -/
def getoptRegisterOpt (os : List UInt8) (ln : Nat) (hasarg : Bool)
    (g : Globals) : Except GetoptFault Globals := do
  noReset g
  assert (g.initialized = false)
  match g.opts with
  | none => .error .assertFails
  | some opts =>
      match opts[ln]? with
      | none => .error .outOfBounds
      | some (some _) => .error .assertFails
      | some none =>
          if notValid os then
            .error (.dies "Not a valid command-line option: " os)
          else if searchopt g os ≠ g.optDefault then
            .error (.dies "Command-line option registered twice: " os)
          else
            .ok { g with opts := some (opts.set ln (some ⟨os, os.length, hasarg⟩)) }

/-- `getopt_register_missing`. -/
def getoptRegisterMissing (ln : Nat) (g : Globals) :
    Except GetoptFault Globals := do
  noReset g
  assert (g.initialized = false)
  .ok { g with optMissing := ln }

/-- `getopt_setrange`; `allocated` is whether `malloc` succeeds. -/
def getoptSetrange (allocated : Bool) (maxopts : Nat) (g : Globals) :
    Except GetoptFault Globals := do
  noReset g
  assert (g.initialized = false)
  if maxopts > 0 ∧ allocated = false then
    .error (.dies "Failed to allocate memory in getopt" [])
  else
    .ok { g with
      opts := if allocated then some (List.replicate maxopts none) else none
      nopts := maxopts
      optMissing := maxopts + 1
      optDefault := maxopts + 1 }

/-! ## `GETOPT_SWITCH` -/

/-- The labels before `GETOPT_DEFAULT`. -/
inductive Label where
  /-- `GETOPT_OPT`. -/
  | opt (os : List UInt8)
  /-- `GETOPT_OPTARG`. -/
  | optarg (os : List UInt8)
  /-- `GETOPT_MISSING_ARG`. -/
  | missingArg
deriving DecidableEq

/-- What a label does during initialization. -/
def Label.register (ln : Nat) (g : Globals) :
    Label → Except GetoptFault Globals
  | .opt os => getoptRegisterOpt os ln false g
  | .optarg os => getoptRegisterOpt os ln true g
  | .missingArg => getoptRegisterMissing ln g

/-- Jumps to one line after the other. -/
def registerLabels : List (Option Label) → (ln : Nat) → Globals →
    Except GetoptFault Globals
  | [], _, g => .ok g
  | none :: labels, ln, g => registerLabels labels (ln + 1) g
  | some label :: labels, ln, g => do
      let g ← label.register ln g
      registerLabels labels (ln + 1) g

/-- `GETOPT_SWITCH`: the line of the label it jumps to, counted from its own,
or `none` when it has indexed the options. -/
def getoptSwitch (labels : List (Option Label)) (allocated : Bool) (ch : Ch)
    (g : Globals) : Except GetoptFault (Option Nat × Globals) :=
  if g.initialized then do
    let ln ← getoptLookup ch g
    match labels[ln]? with
    | some (some (.optarg _)) => assert g.optarg.isSome
    | _ => .ok ()
    .ok (some ln, g)
  else do
    let g ← getoptSetrange allocated labels.length g
    let g ← registerLabels labels 0 g
    .ok (none, { g with initialized := true })

/-- Where a turn of the loop jumps, and what it finds there. -/
structure Turn where
  ln : Nat
  ch : Ch
  optarg : Option (List UInt8)
deriving DecidableEq

/-- The loop `while ((ch = GETOPT(argc, argv)) != NULL)`. -/
def getoptLoop (labels : List (Option Label)) (allocated : Bool)
    (argv : List (List UInt8)) :
    (turns : Nat) → Globals → Except GetoptFault (List Turn × Globals)
  | 0, _ => .error .turnsExhausted
  | turns + 1, g => do
      let (ch, g) ← getopt argv g
      if ch = .null then .ok ([], g)
      else
        let (ln, g) ← getoptSwitch labels allocated ch g
        let (seen, after) ← getoptLoop labels allocated argv turns g
        match ln with
        | none => .ok (seen, after)
        | some ln => .ok (⟨ln, ch, g.optarg⟩ :: seen, after)

end Libcperciva.Util.GetoptModel
