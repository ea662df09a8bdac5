import Libcperciva.Util.ReadpassFileModel
import Mathlib.Data.List.TakeWhile
import Mathlib.Tactic.Common

/-!
# The contract of `readpass_file`

A file of one line is read whole; `fgetc` then tells whether there is more.
What is returned is that line up to its first NUL, `'\r'` or `'\n'`, which is
all of the passphrase only if these stand at the end of the line.
-/

namespace Libcperciva.Util.ReadpassFileContract

open Libcperciva.Util.ReadpassFileModel

variable {s content passbuf : List UInt8} {n : Nat}

/-! ## One line -/

theorem lineOf_prefix (n : Nat) (s : List UInt8) : lineOf n s <+: s := by
  induction n generalizing s with
  | zero => exact List.nil_prefix
  | succ n ih =>
      cases s with
      | nil => exact List.nil_prefix
      | cons c s =>
          unfold lineOf
          split_ifs with newline
          · subst newline
            exact List.prefix_append [10] s
          · exact (List.prefix_cons_inj c).mpr (ih s)

/-- All of the file is in the line if it is not longer and has no newline
before its end. -/
theorem lineOf_eq_self_iff :
    lineOf n s = s ↔ s.length ≤ n ∧ 10 ∉ s.dropLast := by
  induction n generalizing s with
  | zero =>
      cases s with
      | nil => exact iff_of_true rfl ⟨Nat.le_refl _, List.not_mem_nil⟩
      | cons c s => exact iff_of_false nofun fun both => absurd both.1 nofun
  | succ n ih =>
      cases s with
      | nil => exact iff_of_true rfl ⟨Nat.zero_le _, List.not_mem_nil⟩
      | cons c s =>
          unfold lineOf
          split_ifs with newline
          · subst newline
            cases s with
            | nil =>
                exact iff_of_true rfl
                  ⟨Nat.succ_le_succ (Nat.zero_le _), List.not_mem_nil⟩
            | cons d s =>
                refine iff_of_false (by simp) fun both => both.2 ?_
                rw [List.dropLast_cons_cons]
                exact List.mem_cons_self
          · rw [List.cons_inj_right, ih, List.length_cons,
              Nat.add_le_add_iff_right]
            cases s with
            | nil => exact Iff.rfl
            | cons d s =>
                rw [List.dropLast_cons_cons, List.mem_cons,
                  or_iff_right (Ne.symm newline)]

/-! ## The string in the buffer -/

/-- The bytes before the first NUL, `'\r'` or `'\n'`. -/
def plain (c : UInt8) : Bool := c ≠ 0 ∧ c ≠ 13 ∧ c ≠ 10

theorem strcspn_spec (s rest : List UInt8) :
    strcspn (s ++ 0 :: rest) [13, 10] = .ok (s.takeWhile plain).length := by
  induction s with
  | nil => rfl
  | cons c s ih =>
      rw [List.cons_append, strcspn, List.takeWhile_cons]
      by_cases isPlain : plain c = true
      · have both := of_decide_eq_true isPlain
        have goesOn : ¬ (c = 0 ∨ c ∈ [13, 10]) := by
          simp only [List.mem_cons, List.not_mem_nil, or_false]
          tauto
        rw [if_neg goesOn, if_pos isPlain, ih]
        rfl
      · have stops : c = 0 ∨ c ∈ [13, 10] := by
          have other := mt decide_eq_true isPlain
          simp only [List.mem_cons, List.not_mem_nil, or_false]
          tauto
        rw [if_pos stops, if_neg isPlain]
        rfl

theorem strdup_spec (noNul : 0 ∉ s) (rest : List UInt8) :
    strdup (s ++ 0 :: rest) = .ok s := by
  induction s with
  | nil => rfl
  | cons c s ih =>
      have isByte : c ≠ 0 := fun isNul => noNul (isNul ▸ List.mem_cons_self)
      have later : 0 ∉ s := fun member => noNul (List.mem_cons_of_mem _ member)
      rw [List.cons_append, strdup, if_neg isByte, ih later]
      rfl

theorem plain_of_mem {c : UInt8} (member : c ∈ s.takeWhile plain) :
    c ≠ 0 ∧ c ≠ 13 ∧ c ≠ 10 :=
  of_decide_eq_true (List.mem_takeWhile_imp (p := plain) member)

/-- The string after the truncation. -/
theorem strdup_truncated (s rest : List UInt8) :
    strdup ((s ++ 0 :: rest).set (s.takeWhile plain).length 0) =
      .ok (s.takeWhile plain) := by
  have noNul : 0 ∉ s.takeWhile plain := fun member =>
    (plain_of_mem member).1 rfl
  have split := List.takeWhile_append_dropWhile (p := plain) (l := s)
  generalize kept : s.takeWhile plain = front at *
  have whole : s ++ 0 :: rest = front ++ (s.dropWhile plain ++ 0 :: rest) := by
    rw [← List.append_assoc, split]
  rw [whole, List.set_append_right _ _ (Nat.le_refl _), Nat.sub_self]
  cases s.dropWhile plain with
  | nil => exact strdup_spec noNul rest
  | cons c s => exact strdup_spec noNul (s ++ 0 :: rest)

/-! ## What `readpass_file` does with a content -/

/-- A file that can be read. -/
def reads (content : List UInt8) : System :=
  { fopen := some { rest := content, broken := false, error := false },
    fcloseFails := false, strdupFails := false }

/-- A file that is not one short line is an error. -/
theorem readpassFile_long (passwd : Option (List UInt8)) (filename : String)
    (long : lineOf (MAXPASSLEN - 1) content ≠ content) :
    readpassFile (reads content) passbuf passwd filename =
      .ok { status := -1, passwd, passbuf := memzero, warnings :=
        [.warn0 ("line too long, or more than 1 line in " ++ filename)] } := by
  obtain ⟨behind, split⟩ := lineOf_prefix (MAXPASSLEN - 1) content
  generalize isLine : lineOf (MAXPASSLEN - 1) content = line at *
  have more : ∃ c s, content.drop line.length = c :: s := by
    rw [← split, List.drop_left]
    cases behind with
    | nil => exact absurd (split.symm.trans (List.append_nil _)).symm long
    | cons c s => exact ⟨c, s, rfl⟩
  obtain ⟨c, s, isMore⟩ := more
  have got : fgets passbuf MAXPASSLEN
      { rest := content, broken := false, error := false } =
      (if line = [] then (false, passbuf,
          { rest := c :: s, broken := false, error := false })
        else (true, line ++ 0 :: passbuf.drop (line.length + 1),
          { rest := c :: s, broken := false, error := false })) := by
    unfold fgets
    dsimp only
    rw [isLine, isMore, Bool.and_false]
    rfl
  unfold readpassFile reads
  dsimp only
  rw [got]
  by_cases empty : line = []
  · rw [if_pos empty]
    rfl
  · rw [if_neg empty]
    rfl

/-- One short line is returned up to its first NUL, `'\r'` or `'\n'`. -/
theorem readpassFile_short (passwd : Option (List UInt8)) (filename : String)
    (short : lineOf (MAXPASSLEN - 1) content = content)
    (size : passbuf.length = MAXPASSLEN) :
    readpassFile (reads content) passbuf passwd filename =
      .ok { status := 0, passwd := some (content.takeWhile plain),
            passbuf := memzero, warnings := [] } := by
  have got : fgets passbuf MAXPASSLEN
      { rest := content, broken := false, error := false } =
      (if content = [] then (false, passbuf,
          { rest := [], broken := false, error := false })
        else (true, content ++ 0 :: passbuf.drop (content.length + 1),
          { rest := [], broken := false, error := false })) := by
    unfold fgets
    dsimp only
    rw [short, List.drop_length, Bool.and_false]
    rfl
  have inBuffer : ∃ rest, (if decide (content ≠ []) then
      content ++ 0 :: passbuf.drop (content.length + 1)
      else passbuf.set 0 0) = content ++ 0 :: rest := by
    by_cases empty : content = []
    · subst empty
      cases passbuf with
      | nil => exact absurd size (by decide)
      | cons c rest => exact ⟨rest, rfl⟩
    · exact ⟨_, if_pos (decide_eq_true empty)⟩
  obtain ⟨rest, isBuffer⟩ := inBuffer
  have counted := strcspn_spec content rest
  have copied := strdup_truncated content rest
  unfold readpassFile reads
  dsimp only
  rw [got]
  by_cases empty : content = []
  · rw [if_neg (by rw [decide_eq_true_iff]; exact not_not_intro empty)]
      at isBuffer
    rw [if_pos empty]
    change (strcspn (passbuf.set 0 0) [13, 10] >>= fun span =>
      strdup ((passbuf.set 0 0).set span 0) >>= fun copy => _) = _
    rw [isBuffer, counted]
    change (strdup _ >>= _) = _
    rw [copied]
    rfl
  · rw [if_pos (decide_eq_true empty)] at isBuffer
    rw [if_neg empty]
    change (strcspn (content ++ 0 :: passbuf.drop (content.length + 1))
      [13, 10] >>= fun span =>
      strdup ((content ++ 0 :: passbuf.drop (content.length + 1)).set span
        0) >>= fun copy => _) = _
    rw [isBuffer, counted]
    change (strdup _ >>= _) = _
    rw [copied]
    rfl

/-- What an outcome tells: the buffer is wiped, and a warning is printed just
if there is no passphrase. -/
def Reported (outcome : Outcome) : Prop :=
  outcome.passbuf = memzero ∧ (outcome.status = 0 ↔ outcome.warnings = [])

theorem reported_err1 (passwd : Option (List UInt8)) (warning : Warning)
    (warnings : List Warning) :
    Reported (err1 passwd (warning :: warnings)) :=
  ⟨rfl, iff_of_false (show ¬ (-1 : Int) = 0 by decide)
    (List.cons_ne_nil _ _)⟩

theorem reported_err2 (sys : System) (passwd : Option (List UInt8))
    (warning : Warning) : Reported (err2 sys passwd [warning]) := by
  unfold err2
  split_ifs
  · exact reported_err1 passwd warning _
  · exact reported_err1 passwd warning _

/-- Whatever the system answers, the passphrase does not stay on the stack. -/
theorem readpassFile_reported {sys : System} {passwd : Option (List UInt8)}
    {filename : String} {outcome : Outcome}
    (result : readpassFile sys passbuf passwd filename = .ok outcome) :
    Reported outcome := by
  unfold readpassFile at result
  split at result
  · obtain rfl := Except.ok.inj result
    exact reported_err1 _ _ _
  · next f _ =>
      generalize fgets passbuf MAXPASSLEN f = got at result
      rcases got with ⟨line, got, f⟩
      dsimp only at result
      generalize (if line = true then got else got.set 0 0) = buf at result
      split at result
      · obtain rfl := Except.ok.inj result
        exact reported_err2 _ _ _
      generalize fgetc f = next at result
      rcases next with ⟨_ | more, f⟩
      · dsimp only at result
        split at result
        · obtain rfl := Except.ok.inj result
          exact reported_err2 _ _ _
        split at result
        · obtain rfl := Except.ok.inj result
          exact reported_err1 _ _ _
        generalize strcspn buf [13, 10] = spanned at result
        rcases spanned with _ | span
        · exact absurd result nofun
        change (strdup (buf.set span 0) >>= _) = _ at result
        generalize strdup (buf.set span 0) = copied at result
        rcases copied with _ | copy
        · exact absurd result nofun
        change (if _ then _ else _) = _ at result
        split at result
        · obtain rfl := Except.ok.inj result
          exact reported_err1 _ _ _
        · obtain rfl := Except.ok.inj result
          exact ⟨rfl, iff_of_true rfl rfl⟩
      · obtain rfl := Except.ok.inj result
        exact reported_err2 _ _ _

/-! ## The contract -/

/-- A content without its one final `"\r\n"`, `"\n"` or `"\r"`. -/
def stripEol (content : List UInt8) : List UInt8 :=
  match content.reverse with
  | 10 :: 13 :: s => s.reverse
  | 10 :: s => s.reverse
  | 13 :: s => s.reverse
  | s => s.reverse

/-- The contents that are a passphrase. -/
def IsPassphrase (content : List UInt8) : Prop :=
  content.length < MAXPASSLEN ∧ 10 ∉ content.dropLast ∧ 0 ∉ content

/-- `readpass_file` succeeds for a passphrase only, and then returns all of
it. -/
def MeetsContract (passbuf : List UInt8) (passwd : Option (List UInt8))
    (filename : String) (content : List UInt8) : Prop :=
  ∃ outcome, readpassFile (reads content) passbuf passwd filename =
      .ok outcome ∧
    (outcome.status = 0 ↔ IsPassphrase content) ∧
    (outcome.status = 0 → outcome.passwd = some (stripEol content))

/-- What is stripped is a line ending, and one is stripped if there is one. -/
theorem stripEol_spec (content : List UInt8) :
    ∃ eol, content = stripEol content ++ eol ∧
      (eol = [13, 10] ∨ eol = [10] ∨ eol = [13] ∨
        eol = [] ∧ content.getLast? ≠ some 10) := by
  unfold stripEol
  have back := List.reverse_reverse content
  have last : content.getLast? = content.reverse.head? :=
    List.head?_reverse.symm
  split
  · next s reversed =>
      rw [reversed] at back
      refine ⟨[13, 10], ?_, Or.inl rfl⟩
      rw [← back, List.reverse_cons, List.reverse_cons, List.append_assoc]
      rfl
  · next s _ reversed =>
      rw [reversed] at back
      refine ⟨[10], ?_, Or.inr (Or.inl rfl)⟩
      rw [← back, List.reverse_cons]
  · next s reversed =>
      rw [reversed] at back
      refine ⟨[13], ?_, Or.inr (Or.inr (Or.inl rfl))⟩
      rw [← back, List.reverse_cons]
  · next reversed other isNewline isReturn =>
      refine ⟨[], by rw [back, List.append_nil],
        Or.inr (Or.inr (Or.inr ⟨rfl, ?_⟩))⟩
      rw [last]
      cases isReversed : content.reverse with
      | nil => exact nofun
      | cons c s =>
          intro isLast
          exact isNewline s (isReversed.trans
            (congrArg (· :: s) (Option.some.inj isLast)))

/-- One line has no newline in what is left of it. -/
theorem noNewline_stripEol (oneLine : 10 ∉ content.dropLast) :
    10 ∉ stripEol content := by
  obtain ⟨eol, split, isEol⟩ := stripEol_spec content
  intro member
  apply oneLine
  rcases isEol with rfl | rfl | rfl | ⟨rfl, notLast⟩
  · rw [split, List.dropLast_append_of_ne_nil (by decide)]
    exact List.mem_append_left _ member
  · rw [split, List.dropLast_concat]
    exact member
  · rw [split, List.dropLast_concat]
    exact member
  · rw [List.append_nil] at split
    rw [← split] at member
    obtain ⟨front, last, isContent⟩ :=
      (List.eq_nil_or_concat' content).resolve_left (List.ne_nil_of_mem member)
    rw [isContent, List.dropLast_concat]
    rw [isContent, List.getLast?_concat] at notLast
    rw [isContent] at member
    rcases List.mem_append.mp member with inFront | isLast
    · exact inFront
    · exact absurd (congrArg some (List.mem_singleton.mp isLast).symm) notLast

/-- The truncation keeps what the line ending leaves if no `'\r'` is in it. -/
theorem takeWhile_plain_iff (oneLine : 10 ∉ content.dropLast)
    (noNul : 0 ∉ content) :
    content.takeWhile plain = stripEol content ↔ 13 ∉ stripEol content := by
  constructor
  · intro same member
    rw [← same] at member
    exact (plain_of_mem member).2.1 rfl
  · intro noReturn
    have noNewline := noNewline_stripEol oneLine
    obtain ⟨eol, split, isEol⟩ := stripEol_spec content
    generalize stripEol content = front at *
    have allPlain : ∀ c ∈ front, plain c = true := by
      intro c member
      refine decide_eq_true ⟨?_, ?_, ?_⟩
      · rintro rfl
        exact noNul (split ▸ List.mem_append_left _ member)
      · rintro rfl
        exact noReturn member
      · rintro rfl
        exact noNewline member
    rw [split, List.takeWhile_append_of_pos allPlain]
    rcases isEol with rfl | rfl | rfl | ⟨rfl, -⟩
    all_goals exact List.append_nil front

/-- Where `readpass_file` is right: the content is too long or has a second
line, or else it has no NUL, and no `'\r'` that is not in its line ending. -/
def HoldsWhen (content : List UInt8) : Prop :=
  MAXPASSLEN ≤ content.length ∨ 10 ∈ content.dropLast ∨
    0 ∉ content ∧ 13 ∉ stripEol content

theorem short_iff :
    lineOf (MAXPASSLEN - 1) content = content ↔
      content.length < MAXPASSLEN ∧ 10 ∉ content.dropLast :=
  lineOf_eq_self_iff.trans
    (and_congr_left' (Nat.le_sub_one_iff_lt (by decide)))

/-- **Passphrases from files.**  `readpass_file` returns the passphrase of a
file, all of it and of no other file, just if a NUL or a `'\r'` inside of the
line does not end the string before. -/
theorem readpass_file_contract (content passbuf : List UInt8)
    (passwd : Option (List UInt8)) (filename : String)
    (size : passbuf.length = MAXPASSLEN) :
    MeetsContract passbuf passwd filename content ↔ HoldsWhen content := by
  by_cases short : lineOf (MAXPASSLEN - 1) content = content
  · have code := readpassFile_short passwd filename short size
    obtain ⟨fits, oneLine⟩ := short_iff.mp short
    constructor
    · rintro ⟨outcome, result, accepts, returns⟩
      obtain rfl := Except.ok.inj (code.symm.trans result)
      have noNul := (accepts.mp rfl).2.2
      refine Or.inr (Or.inr ⟨noNul, ?_⟩)
      exact (takeWhile_plain_iff oneLine noNul).mp
        (Option.some.inj (returns rfl))
    · rintro (tooLong | second | ⟨noNul, noReturn⟩)
      · exact absurd fits (Nat.not_lt.mpr tooLong)
      · exact absurd second oneLine
      · refine ⟨_, code, iff_of_true rfl ⟨fits, oneLine, noNul⟩, fun _ => ?_⟩
        exact congrArg some
          ((takeWhile_plain_iff oneLine noNul).mpr noReturn)
  · have code := @readpassFile_long content passbuf passwd filename short
    have notOne : ¬ (content.length < MAXPASSLEN ∧ 10 ∉ content.dropLast) :=
      mt short_iff.mpr short
    constructor
    · intro _
      rw [not_and_or, Nat.not_lt, not_not] at notOne
      rcases notOne with tooLong | second
      · exact Or.inl tooLong
      · exact Or.inr (Or.inl second)
    · intro _
      have fails : ¬ (-1 : Int) = 0 := by decide
      refine ⟨_, code, iff_of_false fails ?_, fun success => ?_⟩
      · rintro ⟨fits, oneLine, -⟩
        exact notOne ⟨fits, oneLine⟩
      · exact absurd success fails

/-- `"a\n"`. -/
theorem readpass_file_contract_eol :
    MeetsContract memzero none "passwd" [97, 10] :=
  (readpass_file_contract [97, 10] memzero none "passwd"
    List.length_replicate).mpr (Or.inr (Or.inr (by decide)))

/-- `"a\rb"` is read as `"a"`. -/
theorem readpass_file_drops_b :
    ¬ MeetsContract memzero none "passwd" [97, 13, 98] := by
  rintro ⟨outcome, result, -, returns⟩
  have oneLine : lineOf (MAXPASSLEN - 1) [97, 13, 98] = [97, 13, 98] := by
    decide
  have size : memzero.length = MAXPASSLEN := List.length_replicate
  have code := readpassFile_short none "passwd" oneLine size
  obtain rfl := Except.ok.inj (code.symm.trans result)
  have same : [97, 13, 98].takeWhile plain = stripEol [97, 13, 98] :=
    Option.some.inj (returns rfl)
  exact absurd same (by decide)

end Libcperciva.Util.ReadpassFileContract
