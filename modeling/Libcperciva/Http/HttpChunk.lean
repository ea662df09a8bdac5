import Libcperciva.Http.HttpHeaders
import Libcperciva.Util.NumberForm
import Mathlib.Data.List.TakeWhile

/-!
# The header line of a chunk

The end of the line is looked for in the data that has arrived, but the number
is looked for in the memory where this data lies.  White space in front of a
number does not end at the end of the line.  So the line alone decides about
what is done with it if, and only if, there is something in it that is not
white space.
-/

namespace Libcperciva.Http.HttpChunk

open Libcperciva.Lib.Buffer
open Libcperciva.Lib.Lines
open Libcperciva.Util.Cstring
open Libcperciva.Util.NumberForm
open Libcperciva.Util.SizeT
open Libcperciva.Netbuf.ReadModel
open Libcperciva.Http.HttpModel
open Libcperciva.Http.HttpHeaders

variable {line rest tail text : List UInt8} {H : HttpCookie}

/-! ## Decisions -/

/-- What `callback_chunkedheader` does with a line: it is rejected, or there is
the length of a chunk, and a number of bytes is consumed. -/
def decided (decision : Option (Nat × Nat)) (H : HttpCookie) :
    Except HttpAssert Next :=
  match decision with
  | none => fail
  | some (clen, consumed) => do
      let H ← consume H consumed
      if clen = 0 then docallback H
      else if clen > sizeSub H.resBodylenMax H.res.bodylen then toobig H
      else if clen > SIZE_MAX - 2 then toobig H
      else
        .ok (.calls (.callback .readdata 0)
          { H with readlen := sizeAdd clen 2 })

/-- A line that can be consumed is not rejected when a number was found. -/
theorem decided_some_ne {clen consumed : Nat} {after : HttpCookie}
    (isOk : consume H consumed = .ok after) :
    decided (some (clen, consumed)) H ≠ decided none H := by
  show (consume H consumed >>= _) ≠ fail
  rw [isOk]
  show (if clen = 0 then docallback after
    else if clen > sizeSub after.resBodylenMax after.res.bodylen then
      toobig after
    else if clen > SIZE_MAX - 2 then toobig after
    else .ok (.calls (.callback .readdata 0)
      { after with readlen := sizeAdd clen 2 })) ≠ fail
  unfold toobig docallback fail
  split_ifs
  all_goals nofun

/-- The reader holds a line, its end, and something behind it. -/
def Holds (H : HttpCookie) (line : List UInt8) : Prop :=
  ∃ rest, netbufReadPeek H.R = line ++ crlf ++ rest

/-- Behind its white space, and a sign if there is one, a line has no
hexadecimal digit. -/
def NoNumber (line : List UInt8) : Prop :=
  ∀ b, (sign (line.dropWhile isspace)).2.head? = some b →
    isDigit 16 b = false

/-- What is done with a line is one decision, whatever is behind it; and a
line without hexadecimal digits, or with none where its number should begin,
is rejected. -/
def DecidedByLine (line : List UInt8) : Prop :=
  ∃ decision,
    (∀ env H, Holds H line →
      callbackChunkedheader env 0 H = decided decision H) ∧
    ((∀ b ∈ line, isDigit 16 b = false) → decision = none) ∧
    (NoNumber line → decision = none)

/-! ## The number in a line -/

theorem isDigit_return : isDigit 16 13 = false := rfl

/-- The sign is in front of what ends the line. -/
theorem sign_append (nonempty : text ≠ []) :
    sign (text ++ tail) = ((sign text).1, (sign text).2 ++ tail) := by
  rcases List.exists_cons_of_ne_nil nonempty with ⟨c, w, rfl⟩
  unfold sign
  split
  · next s isMinus =>
      rcases List.cons.inj isMinus with ⟨rfl, rfl⟩
      rfl
  · next s isPlus =>
      rcases List.cons.inj isPlus with ⟨rfl, rfl⟩
      rfl
  · next s notMinus notPlus =>
      split
      · next s' isMinus =>
          rcases List.cons.inj isMinus with ⟨rfl, rfl⟩
          exact absurd rfl (notMinus _)
      · next s' isPlus =>
          rcases List.cons.inj isPlus with ⟨rfl, rfl⟩
          exact absurd rfl (notPlus _)
      · rfl

/-- The prefix of a number is not cut by the end of the line. -/
theorem hasPrefix_append :
    hasPrefix (text ++ 13 :: tail) = hasPrefix text := by
  rcases text with _ | ⟨a, _ | ⟨x, _ | ⟨c, w⟩⟩⟩
  · rfl
  · by_cases zero : a = 48
    · subst zero
      cases tail <;> rfl
    · cases tail <;> simp [hasPrefix, zero]
  · by_cases zero : a = 48
    · subst zero
      show ((decide (x = 120) || decide (x = 88)) && isDigit 16 13) = false
      rw [isDigit_return, Bool.and_false]
    · simp [hasPrefix, zero]
  · by_cases zero : a = 48
    · subst zero
      rfl
    · simp [hasPrefix, zero]

theorem skipPrefix_append :
    skipPrefix 16 (text ++ 13 :: tail) = skipPrefix 16 text ++ 13 :: tail := by
  unfold skipPrefix
  rw [hasPrefix_append]
  split_ifs with skips
  · rcases text with _ | ⟨a, _ | ⟨x, w⟩⟩
    · exact absurd skips.2 nofun
    · exact absurd skips.2 (by simp [hasPrefix])
    · rfl
  · rfl

theorem takeWhile_append_stop {p : UInt8 → Bool} {c : UInt8}
    (stops : p c = false) :
    (text ++ c :: tail).takeWhile p = text.takeWhile p := by
  induction text with
  | nil => exact List.takeWhile_cons_of_neg (Bool.eq_false_iff.mp stops)
  | cons a text ih =>
      by_cases takes : p a = true
      · rw [List.cons_append, List.takeWhile_cons_of_pos takes,
          List.takeWhile_cons_of_pos takes, ih]
      · rw [List.cons_append, List.takeWhile_cons_of_neg takes,
          List.takeWhile_cons_of_neg takes]

/-- White space ends in a line that has something else. -/
theorem dropWhile_append_of_exists {p : UInt8 → Bool} (tail : List UInt8)
    (stops : ∃ b ∈ text, p b = false) :
    (text ++ tail).dropWhile p = text.dropWhile p ++ tail ∧
      text.dropWhile p ≠ [] := by
  induction text with
  | nil =>
      rcases stops with ⟨b, member, _⟩
      exact absurd member List.not_mem_nil
  | cons a text ih =>
      by_cases takes : p a = true
      · rw [List.cons_append, List.dropWhile_cons_of_pos takes,
          List.dropWhile_cons_of_pos takes]
        refine ih ?_
        rcases stops with ⟨b, member, isStop⟩
        rcases List.mem_cons.mp member with rfl | later
        · exact absurd takes (Bool.eq_false_iff.mp isStop)
        · exact ⟨b, later, isStop⟩
      · rw [List.cons_append, List.dropWhile_cons_of_neg takes,
          List.dropWhile_cons_of_neg takes]
        exact ⟨rfl, List.cons_ne_nil _ _⟩

/-- The number is a part of the line. -/
theorem subject_line (tail : List UInt8)
    (notBlank : ∃ b ∈ line, isspace b = false) :
    (subject 16 (line ++ 13 :: tail)).negative = (subject 16 line).negative ∧
      (subject 16 (line ++ 13 :: tail)).digits = (subject 16 line).digits ∧
      (subject 16 (line ++ 13 :: tail)).base = 16 ∧
      (subject 16 line).base = 16 := by
  obtain ⟨dropped, nonempty⟩ :=
    dropWhile_append_of_exists (13 :: tail) notBlank
  have root : ∀ s, radix 16 s = 16 := fun s => if_pos (by decide)
  unfold subject
  rw [dropped, sign_append nonempty]
  dsimp only
  rw [root, root, skipPrefix_append, takeWhile_append_stop isDigit_return]
  exact ⟨rfl, rfl, rfl, rfl⟩

theorem parsenumUnsigned_line {min max typemax : Nat}
    (notBlank : ∃ b ∈ line, isspace b = false) :
    parsenumUnsigned (line ++ 13 :: tail) min max typemax 16 true =
      parsenumUnsigned line min max typemax 16 true := by
  obtain ⟨sameSign, sameDigits, isBase, isBase'⟩ :=
    subject_line tail notBlank
  have sameMagnitude : (subject 16 (line ++ 13 :: tail)).magnitude =
      (subject 16 line).magnitude := by
    unfold Subject.magnitude
    rw [isBase, isBase', sameDigits]
  unfold parsenumUnsigned strtoumax
  simp only [sameDigits, sameMagnitude, sameSign, Bool.not_true,
    Bool.false_and, Bool.false_eq_true, if_false]
  split_ifs <;> rfl

theorem mem_of_mem_digits {b : UInt8} (member : b ∈ (subject 16 text).digits) :
    b ∈ text ∧ isDigit 16 b = true := by
  have root : ∀ s, radix 16 s = 16 := fun s => if_pos (by decide)
  rw [subject_eq] at member
  dsimp only [scanned] at member
  rw [root] at member
  refine ⟨?_, List.mem_takeWhile_imp member⟩
  rcases sign_spec (text.dropWhile isspace) with ⟨sgn, split, _⟩
  have skipped := (List.takeWhile_sublist _).subset member
  have unsigned : b ∈ (sign (text.dropWhile isspace)).2 := by
    unfold skipPrefix at skipped
    split_ifs at skipped
    · exact List.mem_of_mem_drop skipped
    · exact skipped
  have behind : b ∈ text.dropWhile isspace := by
    rw [split]
    exact List.mem_append_right _ unsigned
  exact (List.dropWhile_sublist _).subset behind

/-- What follows white space and sign begins with a digit, or is no number. -/
theorem NoNumber.digits (noNumber : NoNumber line) :
    (subject 16 line).digits = [] := by
  have root : ∀ s, radix 16 s = 16 := fun s => if_pos (by decide)
  unfold NoNumber at noNumber
  unfold subject
  dsimp only
  rw [root]
  generalize (sign (line.dropWhile isspace)).2 = s at *
  cases s with
  | nil => rfl
  | cons b s =>
      have notDigit := noNumber b rfl
      have notPrefix : hasPrefix (b :: s) = false := by
        by_contra isPrefix
        have zero : b = 48 := by
          unfold hasPrefix at isPrefix
          split at isPrefix
          · next equal => exact (List.cons.inj equal).1
          · exact absurd rfl isPrefix
        rw [zero] at notDigit
        exact absurd notDigit (by decide)
      unfold skipPrefix
      rw [notPrefix, if_neg (by simp)]
      exact List.takeWhile_cons_of_neg (Bool.eq_false_iff.mp notDigit)

theorem parsenumUnsigned_none {s : List UInt8} {min max typemax : Nat}
    {trailing : Bool} (nothing : (subject 16 s).digits = []) :
    parsenumUnsigned s min max typemax 16 trailing = none := by
  unfold parsenumUnsigned strtoumax
  dsimp only
  rw [if_pos nothing]

/-- White space is not a part of a number. -/
theorem parsenumUnsigned_blank {min max typemax : Nat} {trailing : Bool}
    (blank : ∀ b ∈ line, isspace b = true) (s : List UInt8) :
    parsenumUnsigned (line ++ s) min max typemax 16 trailing =
      parsenumUnsigned s min max typemax 16 trailing := by
  have same : subject 16 (line ++ s) = subject 16 s := by
    unfold subject
    rw [List.dropWhile_append_of_pos blank]
  unfold parsenumUnsigned strtoumax
  rw [same]

/-! ## Lines that decide -/

/-- What is decided about a line. -/
def lineDecision (line : List UInt8) : Option (Nat × Nat) :=
  (parsenumUnsigned line 0 SIZE_MAX SIZE_MAX 16 true).map
    fun clen => (clen, line.length + 2)

/-- The memory where the data lies begins with the data. -/
theorem Holds.memory (holds : Holds H line) :
    ∃ more, H.R.buf.drop H.R.bufpos = line ++ 13 :: more := by
  rcases holds with ⟨rest, peek⟩
  have split := (List.take_append_drop
    (sizeSub H.R.datalen H.R.bufpos) (H.R.buf.drop H.R.bufpos)).symm
  have isPeek : (H.R.buf.drop H.R.bufpos).take
      (sizeSub H.R.datalen H.R.bufpos) = line ++ crlf ++ rest := peek
  rw [isPeek, List.append_assoc, List.append_assoc] at split
  exact ⟨_, split⟩

/-- The line is found, and the number is looked for. -/
theorem callbackChunkedheader_eq (isLine : Line crlf line) (env : CallEnv)
    (holds : Holds H line) :
    callbackChunkedheader env 0 H = decided
      ((parsenumUnsigned (H.R.buf.drop H.R.bufpos ++ env.behind) 0 SIZE_MAX
        SIZE_MAX 16 true).map fun clen => (clen, line.length + 2)) H := by
  rcases holds with ⟨rest, peek⟩
  have found : findeol (line ++ crlf ++ rest) = line.length :=
    findeol_line isLine
  have inside : line.length ≠ (line ++ crlf ++ rest).length := by
    rw [List.length_append, List.length_append]
    change _ ≠ line.length + 2 + rest.length
    omega
  unfold callbackChunkedheader
  rw [if_neg (not_not.mpr rfl)]
  dsimp only
  rw [peek, found, if_pos inside]
  cases parsenumUnsigned (H.R.buf.drop H.R.bufpos ++ env.behind) 0 SIZE_MAX
    SIZE_MAX 16 true <;> rfl

/-- Nothing but the line is read. -/
theorem callbackChunkedheader_line (isLine : Line crlf line)
    (notBlank : ∃ b ∈ line, isspace b = false) (env : CallEnv)
    (holds : Holds H line) :
    callbackChunkedheader env 0 H = decided (lineDecision line) H := by
  rcases holds.memory with ⟨more, memory⟩
  rw [callbackChunkedheader_eq isLine env holds, memory,
    List.append_assoc, List.cons_append, parsenumUnsigned_line notBlank]
  rfl

theorem decidedByLine_of_not_blank (isLine : Line crlf line)
    (notBlank : ∃ b ∈ line, isspace b = false) : DecidedByLine line := by
  have rejects (nothing : (subject 16 line).digits = []) :
      lineDecision line = none := by
    unfold lineDecision
    rw [parsenumUnsigned_none nothing]
    rfl
  refine ⟨lineDecision line, fun env H holds => ?_, fun noDigit => ?_,
    fun noNumber => rejects noNumber.digits⟩
  · exact callbackChunkedheader_line isLine notBlank env holds
  · apply rejects
    refine List.eq_nil_iff_forall_not_mem.mpr fun b member => ?_
    have ⟨inLine, digit⟩ := mem_of_mem_digits member
    rw [noDigit b inLine] at digit
    exact Bool.noConfusion digit

/-! ## Lines that do not -/

/-- A client that reads the header of its first chunk. -/
def readingHeader (received : List UInt8) : HttpCookie where
  R := { buf := received, buflen := received.length, bufpos := 0,
         datalen := received.length }
  reqIshead := false
  chunked := true
  readlen := 0
  resBodylenMax := 100

theorem readingHeader_peek {received : List UInt8}
    (fits : received.length < 2 ^ 64) :
    netbufReadPeek (readingHeader received).R = received := by
  unfold netbufReadPeek readingHeader slice
  dsimp only
  rw [sizeSub_eq (Nat.zero_le _) fits, List.drop_zero, Nat.sub_zero,
    List.take_length]

theorem readingHeader_memory (received : List UInt8) :
    (readingHeader received).R.buf.drop (readingHeader received).R.bufpos ++
      ({} : CallEnv).behind = received := List.append_nil received

theorem readingHeader_consume {received : List UInt8} {consumed : Nat}
    (fits : received.length < 2 ^ 64) (enough : consumed ≤ received.length) :
    ∃ after, consume (readingHeader received) consumed = .ok after := by
  unfold consume netbufReadConsume readingHeader
  dsimp only
  rw [sizeSub_eq (Nat.zero_le _) fits, if_neg (by omega)]
  exact ⟨_, rfl⟩

theorem parsenumUnsigned_five :
    parsenumUnsigned (crlf ++ [53, 13, 10]) 0 SIZE_MAX SIZE_MAX 16 true =
      some 5 := by decide +kernel

theorem not_decidedByLine_of_blank (isLine : Line crlf line)
    (fits : line.length + 5 < 2 ^ 64)
    (blank : ∀ b ∈ line, isspace b = true) : ¬ DecidedByLine line := by
  rintro ⟨decision, decides, noDigit, _⟩
  have none_digit : ∀ b ∈ line, isDigit 16 b = false := by
    intro b member
    by_contra digit
    rw [Bool.not_eq_false] at digit
    have notSpace := not_isspace_of_digit digit
    rw [blank b member] at notSpace
    exact Bool.noConfusion notSpace
  -- With "5" on the next line, this one is not rejected.
  obtain ⟨received, isReceived⟩ :
      ∃ received, received = line ++ crlf ++ [53, 13, 10] := ⟨_, rfl⟩
  have length : received.length = line.length + 5 := by
    rw [isReceived, List.length_append, List.length_append]
    rfl
  have small : received.length < 2 ^ 64 := length ▸ fits
  have number : parsenumUnsigned received 0 SIZE_MAX SIZE_MAX 16 true =
      some 5 := by
    rw [isReceived, List.append_assoc, parsenumUnsigned_blank blank]
    exact parsenumUnsigned_five
  have holds : Holds (readingHeader received) line :=
    ⟨[53, 13, 10], (readingHeader_peek small).trans isReceived⟩
  have accepted := decides {} _ holds
  rw [noDigit none_digit, callbackChunkedheader_eq isLine {} holds,
    readingHeader_memory, number] at accepted
  rcases readingHeader_consume small
    (show line.length + 2 ≤ received.length by omega) with ⟨after, isOk⟩
  exact decided_some_ne isOk accepted

/-! ## The main result -/

/-- The line decides about what is done with it, exactly if it is not blank. -/
theorem chunkedheader_decided_iff (isLine : Line crlf line)
    (fits : line.length + 5 < 2 ^ 64) :
    DecidedByLine line ↔ ∃ b ∈ line, isspace b = false := by
  constructor
  · intro decides
    by_contra blank
    refine not_decidedByLine_of_blank isLine fits ?_ decides
    intro b member
    by_contra notSpace
    exact blank ⟨b, member, Bool.eq_false_iff.mpr notSpace⟩
  · exact decidedByLine_of_not_blank isLine

theorem line_of_length_lt {line : List UInt8} (short : line.length < 2) :
    Line crlf line := by
  intro i occurs
  have inside : i + 2 ≤ line.length := occurs.inside crlf_ne_nil
  omega

/-- The line "5" decides. -/
theorem chunkedheader_decided_five : DecidedByLine [53] :=
  (chunkedheader_decided_iff (line_of_length_lt (by decide))
    (by decide)).mpr ⟨53, List.mem_singleton.mpr rfl, rfl⟩

/-- An empty line does not: a number is read from the next line. -/
theorem chunkedheader_undecided_empty :
    ¬ DecidedByLine [] ∧
      Holds (readingHeader [13, 10, 53, 13, 10]) [] ∧
      callbackChunkedheader {} 0 (readingHeader [13, 10, 53, 13, 10]) ≠
        fail ∧
      Holds (readingHeader [13, 10, 103, 13, 10]) [] ∧
      callbackChunkedheader {} 0 (readingHeader [13, 10, 103, 13, 10]) =
        fail := by
  have empty : Line crlf [] := line_of_length_lt (by decide)
  have first : Holds (readingHeader [13, 10, 53, 13, 10]) [] :=
    ⟨[53, 13, 10], readingHeader_peek (by decide)⟩
  have second : Holds (readingHeader [13, 10, 103, 13, 10]) [] :=
    ⟨[103, 13, 10], readingHeader_peek (by decide)⟩
  refine ⟨not_decidedByLine_of_blank empty (by decide) nofun, first, ?_,
    second, ?_⟩
  · rw [callbackChunkedheader_eq empty {} first, readingHeader_memory]
    have small : ([13, 10, 53, 13, 10] : List UInt8).length < 2 ^ 64 := by
      decide
    have enough : 2 ≤ ([13, 10, 53, 13, 10] : List UInt8).length := by decide
    rcases readingHeader_consume small enough with ⟨after, isOk⟩
    have number : parsenumUnsigned [13, 10, 53, 13, 10] 0 SIZE_MAX SIZE_MAX
        16 true = some 5 := by decide +kernel
    rw [number]
    exact decided_some_ne isOk
  · have nothing : parsenumUnsigned [13, 10, 103, 13, 10] 0 SIZE_MAX
        SIZE_MAX 16 true = none := by decide +kernel
    rw [callbackChunkedheader_eq empty {} second, readingHeader_memory,
      nothing]
    rfl

end Libcperciva.Http.HttpChunk
