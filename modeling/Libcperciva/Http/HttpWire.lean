import Libcperciva.Http.HttpRuns

/-!
# Responses on the wire

A response is written as blocks of headers with 1xx, a block of headers, and a
body that is framed as the headers say.  The decoder reads back what has been
written; hence a client is given the same response in whatever portions it
arrives.
-/

namespace Libcperciva.Http.HttpWire

open Libcperciva.Lib.Lines
open Libcperciva.Util.Cstring
open Libcperciva.Util.NumberForm
open Libcperciva.Network.ReadModel
open Libcperciva.Http.HttpModel
open Libcperciva.Http.HttpOps
open Libcperciva.Http.HttpHeaders
open Libcperciva.Http.HttpSafety
open Libcperciva.Http.HttpDecoder
open Libcperciva.Http.HttpRefines
open Libcperciva.Http.HttpRuns

variable {base n : Nat} {text rest s : List UInt8} {overflow : Int → Int}
  {settings : Settings}

/-! ## Numbers -/

/-- The digits of a number. -/
structure Written (base n : Nat) where
  digits : List UInt8
  nonempty : digits ≠ []
  areDigits : ∀ b ∈ digits, isDigit base b = true
  value : digitsValue base digits = n

/-- A number ends here. -/
def Ends (base : Nat) (rest : List UInt8) : Prop :=
  ∀ b, rest.head? = some b → isDigit base b = false

theorem ends_nil : Ends base [] := by
  rintro b ⟨⟩

theorem takeWhile_digits (number : Written base n) (ends : Ends base rest) :
    (number.digits ++ rest).takeWhile (isDigit base) = number.digits ∧
      (number.digits ++ rest).dropWhile (isDigit base) = rest := by
  have stops : rest.takeWhile (isDigit base) = [] ∧
      rest.dropWhile (isDigit base) = rest := by
    cases rest with
    | nil => exact ⟨rfl, rfl⟩
    | cons c rest =>
        have notDigit := Bool.eq_false_iff.mp (ends c rfl)
        exact ⟨List.takeWhile_cons_of_neg notDigit,
          List.dropWhile_cons_of_neg notDigit⟩
  rw [List.takeWhile_append_of_pos number.areDigits,
    List.dropWhile_append_of_pos number.areDigits, stops.1, stops.2,
    List.append_nil]
  exact ⟨rfl, rfl⟩

/-- The scan finds the digits. -/
theorem subject_written (number : Written base n) (ends : Ends base rest)
    (known : base ≠ 0)
    (plain : skipPrefix base (number.digits ++ rest) =
      number.digits ++ rest) :
    subject base (number.digits ++ rest) =
      ⟨false, base, number.digits, rest⟩ := by
  obtain ⟨taken, dropped⟩ := takeWhile_digits number ends
  obtain ⟨c, digits, isCons⟩ := List.exists_cons_of_ne_nil number.nonempty
  have isDigit := number.areDigits c (isCons ▸ List.mem_cons_self)
  have notSpace : (number.digits ++ rest).dropWhile isspace =
      number.digits ++ rest := by
    rw [isCons]
    apply List.dropWhile_cons_of_neg
    rw [not_isspace_of_digit isDigit]
    exact Bool.false_ne_true
  have unsigned : sign (number.digits ++ rest) =
      (false, number.digits ++ rest) := by
    obtain ⟨notPlus, notMinus⟩ := digit_ne_sign isDigit
    rw [isCons]
    unfold sign
    split
    · next s isMinus => exact absurd (List.cons.inj isMinus).1 notMinus
    · next s isPlus => exact absurd (List.cons.inj isPlus).1 notPlus
    · rfl
  have root : radix base (number.digits ++ rest) = base := if_pos known
  unfold subject
  rw [notSpace, unsigned]
  dsimp only
  rw [root, plain, taken, dropped]

theorem skipPrefix_decimal (s : List UInt8) : skipPrefix 10 s = s :=
  if_neg fun both => absurd both.1 (by decide)

theorem skipPrefix_plain (plain : hasPrefix s = false) :
    skipPrefix 16 s = s := by
  apply if_neg
  rintro ⟨_, isPrefix⟩
  exact Bool.noConfusion (plain.symm.trans isPrefix)

/-- `%d` reads a number back. -/
theorem scanInt_written (number : Written 10 n) (ends : Ends 10 rest)
    (small : n < 2 ^ 31) :
    scanInt overflow (number.digits ++ rest) = some ((n : Int), rest) := by
  have found := subject_written number ends (by decide) (skipPrefix_decimal _)
  have inRange : -2 ^ 31 ≤ (n : Int) ∧ (n : Int) < 2 ^ 31 := by omega
  have magnitude : (⟨false, 10, number.digits, rest⟩ : Subject).magnitude =
      n := number.value
  unfold scanInt
  rw [found]
  dsimp only
  rw [magnitude, if_neg number.nonempty, if_neg Bool.false_ne_true,
    if_pos inRange]

/-- `parsenum_unsigned` reads a length back. -/
theorem parsenumUnsigned_written {trailing : Bool} (number : Written base n)
    (ends : Ends base rest) (known : base ≠ 0)
    (plain : skipPrefix base (number.digits ++ rest) =
      number.digits ++ rest)
    (small : n ≤ SIZE_MAX) (whole : trailing = false → rest = []) :
    parsenumUnsigned (number.digits ++ rest) 0 SIZE_MAX SIZE_MAX base
      trailing = some n := by
  have found := subject_written number ends known plain
  have magnitude : (⟨false, base, number.digits, rest⟩ : Subject).magnitude =
      n := number.value
  have inside : ¬ n > UINTMAX_MAX := Nat.not_lt.mpr small
  have converted : strtoumax (number.digits ++ rest) base =
      some ⟨n, rest, false⟩ := by
    unfold strtoumax
    rw [found]
    dsimp only
    rw [magnitude, if_neg number.nonempty, if_neg inside,
      if_neg Bool.false_ne_true]
  have noMore : ¬ (!trailing && decide (rest.headD 0 ≠ 0)) = true := by
    cases trailing with
    | true => exact Bool.false_ne_true
    | false =>
        rw [whole rfl]
        exact Bool.false_ne_true
  have inRange : ¬ (n < 0 ∨ n > SIZE_MAX ∨ n > SIZE_MAX) := by omega
  unfold parsenumUnsigned
  rw [converted]
  dsimp only
  rw [if_neg noMore, if_neg inRange, if_neg Bool.false_ne_true]

/-! ## Header lines -/

/-- A line without NUL. -/
structure IsLine (line : List UInt8) : Prop where
  noEnd : Line crlf line
  noNul : ¬ HasNul line

/-- A header line: a name, and a value between blanks. -/
structure Field where
  name : List UInt8
  before : List UInt8
  value : List UInt8
  after : List UInt8
  noColon : ∀ b ∈ name, b ≠ 0 ∧ b ≠ 58
  blankBefore : ∀ b ∈ before, b ∈ blanks
  blankAfter : ∀ b ∈ after, b ∈ blanks
  visibleFirst : ∀ b, value.head? = some b → b ∉ blanks
  visibleLast : ∀ b, value.getLast? = some b → b ∉ blanks
  isLine : IsLine (name ++ 58 :: (before ++ value ++ after))

/-- The line that is written. -/
def Field.line (field : Field) : List UInt8 :=
  field.name ++ 58 :: (field.before ++ field.value ++ field.after)

/-- What is meant. -/
def Field.header (field : Field) : HttpHeader := ⟨field.name, field.value⟩

theorem Field.line_ne_nil (field : Field) : field.line ≠ [] :=
  List.append_ne_nil_of_right_ne_nil _ (List.cons_ne_nil _ _)

theorem stripTrailing_blanks {front back : List UInt8}
    (blank : ∀ b ∈ back, b ∈ blanks)
    (visible : ∀ b, front.getLast? = some b → b ∉ blanks) :
    stripTrailing (front ++ back) = front := by
  unfold stripTrailing
  rw [List.reverse_append, List.dropWhile_append_of_pos]
  · cases isReverse : front.reverse with
    | nil => exact (List.reverse_eq_nil_iff.mp isReverse).symm
    | cons last others =>
        have isLast : front.getLast? = some last := by
          rw [List.getLast?_eq_head?_reverse, isReverse]
          rfl
        have notBlank : ¬ decide (last ∈ blanks) = true := by
          rw [decide_eq_true_eq]
          exact visible last isLast
        have stops : (last :: others).dropWhile (· ∈ blanks) =
            last :: others := List.dropWhile_cons_of_neg notBlank
        rw [stops, ← isReverse, List.reverse_reverse]
  · intro b member
    exact decide_eq_true (blank b (List.mem_reverse.mp member))

/-- The blanks at the end of the line are not a part of the value. -/
theorem Field.stripTrailing_line (field : Field) :
    ∃ between, stripTrailing field.line =
        field.name ++ 58 :: (between ++ field.value) ∧
      ∀ b ∈ between, b ∈ blanks := by
  rcases List.eq_nil_or_concat field.value with isNil | ⟨init, last, isConcat⟩
  · refine ⟨[], ?_, fun b member => absurd member List.not_mem_nil⟩
    have split : field.line =
        (field.name ++ [58]) ++ (field.before ++ field.after) := by
      unfold Field.line
      rw [isNil, List.append_nil, List.append_assoc]
      rfl
    rw [split, isNil]
    apply stripTrailing_blanks
    · intro b member
      rcases List.mem_append.mp member with front | back
      · exact field.blankBefore b front
      · exact field.blankAfter b back
    · intro b isLast
      rw [List.getLast?_concat] at isLast
      cases isLast
      decide
  · refine ⟨field.before, ?_, field.blankBefore⟩
    have split : field.line =
        (field.name ++ 58 :: (field.before ++ field.value)) ++
          field.after := by
      unfold Field.line
      rw [List.append_assoc field.name]
      rfl
    rw [split]
    apply stripTrailing_blanks field.blankAfter
    intro b isLast
    apply field.visibleLast b
    rw [isConcat] at isLast ⊢
    rw [List.concat_eq_append] at isLast ⊢
    rw [← List.cons_append, ← List.append_assoc, ← List.append_assoc,
      List.getLast?_concat] at isLast
    rw [List.getLast?_concat]
    exact isLast

theorem splitHeader_line (field : Field) :
    splitHeader field.line = field.header := by
  obtain ⟨between, stripped, blank⟩ := field.stripTrailing_line
  have cpos : strcspn (field.name ++ 58 :: (between ++ field.value)) 58 =
      field.name.length := by
    unfold strcspn
    rw [List.takeWhile_append_of_pos, List.takeWhile_cons_of_neg,
      List.append_nil]
    · decide
    · intro b member
      exact decide_eq_true (field.noColon b member)
  have behind : (field.name ++ 58 :: (between ++ field.value)).drop
      (field.name.length + 1) = between ++ field.value := by
    rw [← List.drop_drop, List.drop_left]
    rfl
  have span : strspn (between ++ field.value) blanks = between.length := by
    have stops : field.value.takeWhile (· ∈ blanks) = [] := by
      cases isValue : field.value with
      | nil => rfl
      | cons c value =>
          apply List.takeWhile_cons_of_neg
          rw [decide_eq_true_eq]
          exact field.visibleFirst c (by rw [isValue]; rfl)
    unfold strspn
    rw [List.takeWhile_append_of_pos, stops, List.append_nil]
    intro b member
    exact decide_eq_true (blank b member)
  unfold splitHeader Field.header
  rw [stripped]
  dsimp only
  rw [cpos, behind, span, List.take_left, List.drop_left]

/-! ## Blocks of headers -/

/-- A status line: the version 1.x, the status, and a reason. -/
structure StatusLine (status : Nat) where
  minor : Nat
  majorDigits : Written 10 1
  minorDigits : Written 10 minor
  statusDigits : Written 10 status
  reason : List UInt8
  smallMinor : minor < 2 ^ 31
  inRange : 100 ≤ status ∧ status ≤ 599
  isLine : IsLine (httpSlash ++ (majorDigits.digits ++
    46 :: (minorDigits.digits ++ 32 :: (statusDigits.digits ++
      32 :: reason))))

variable {status : Nat}

/-- The line that is written. -/
def StatusLine.line (statusLine : StatusLine status) : List UInt8 :=
  httpSlash ++ (statusLine.majorDigits.digits ++
    46 :: (statusLine.minorDigits.digits ++
      32 :: (statusLine.statusDigits.digits ++ 32 :: statusLine.reason)))

theorem StatusLine.line_ne_nil (statusLine : StatusLine status) :
    statusLine.line ≠ [] :=
  List.cons_ne_nil _ _

theorem scanLiteral_append (literal s : List UInt8) :
    scanLiteral literal (literal ++ s) = some s := by
  induction literal with
  | nil => rfl
  | cons a literal ih =>
      change (if a = a then scanLiteral literal (literal ++ s) else none) = _
      rw [if_pos rfl, ih]

theorem ends_cons {c : UInt8} (notDigit : isDigit base c = false) :
    Ends base (c :: rest) := by
  rintro b isHead
  cases isHead
  exact notDigit

theorem scanStatus_line (statusLine : StatusLine status) :
    scanStatus overflow statusLine.line =
      some (1, (statusLine.minor : Int), (status : Int)) := by
  have space (rest : List UInt8) : Ends 10 (32 :: rest) := ends_cons rfl
  have dot (rest : List UInt8) : Ends 10 (46 :: rest) := ends_cons rfl
  have small : status < 2 ^ 31 :=
    Nat.lt_of_le_of_lt statusLine.inRange.2 (by decide)
  have visible : (32 :: (statusLine.statusDigits.digits ++
      32 :: statusLine.reason)).dropWhile isspace =
        statusLine.statusDigits.digits ++ 32 :: statusLine.reason := by
    obtain ⟨c, digits, isCons⟩ :=
      List.exists_cons_of_ne_nil statusLine.statusDigits.nonempty
    have digit := statusLine.statusDigits.areDigits c
      (isCons ▸ List.mem_cons_self)
    rw [List.dropWhile_cons_of_pos rfl, isCons]
    apply List.dropWhile_cons_of_neg
    rw [not_isspace_of_digit digit]
    exact Bool.false_ne_true
  have scan {n : Nat} {rest : List UInt8} (number : Written 10 n)
      (ends : Ends 10 rest) (small : n < 2 ^ 31) :
      scanInt overflow (number.digits ++ rest) = some ((n : Int), rest) :=
    scanInt_written number ends small
  have major := scan statusLine.majorDigits (dot
    (statusLine.minorDigits.digits ++ 32 ::
      (statusLine.statusDigits.digits ++ 32 :: statusLine.reason)))
    (by decide)
  have minor := scan statusLine.minorDigits (space
    (statusLine.statusDigits.digits ++ 32 :: statusLine.reason))
    statusLine.smallMinor
  have code := scan statusLine.statusDigits (space statusLine.reason) small
  have point (s : List UInt8) : scanLiteral [46] (46 :: s) = some s :=
    scanLiteral_append [46] s
  unfold scanStatus StatusLine.line
  simp only [scanLiteral_append, major, point, minor, visible, code,
    Option.bind_eq_bind, Option.bind_some]
  rfl

/-- A block of headers. -/
structure Block (status : Nat) where
  statusLine : StatusLine status
  fields : List Field
  short : (joinLines crlf (statusLine.line :: fields.map Field.line) ++
    crlf).length ≤ MAXHDR + 1

/-- The lines that are written. -/
def Block.lines (block : Block status) : List (List UInt8) :=
  block.statusLine.line :: block.fields.map Field.line

/-- What is written. -/
def Block.wire (block : Block status) : List UInt8 :=
  joinLines crlf block.lines ++ crlf

/-- What is meant. -/
def Block.head (block : Block status) : Head :=
  ⟨status, block.fields.length, block.fields.map Field.header⟩

theorem Block.isLine (block : Block status) :
    ∀ l ∈ block.lines, IsLine l := by
  intro l member
  rcases List.mem_cons.mp member with rfl | isField
  · exact block.statusLine.isLine
  · obtain ⟨field, _, rfl⟩ := List.mem_map.mp isField
    exact field.isLine

theorem Block.line_ne_nil (block : Block status) :
    ∀ l ∈ block.lines, l ≠ [] := by
  intro l member
  rcases List.mem_cons.mp member with rfl | isField
  · exact block.statusLine.line_ne_nil
  · obtain ⟨field, _, rfl⟩ := List.mem_map.mp isField
    exact field.line_ne_nil

theorem parseLines_block (block : Block status) :
    parseLines overflow block.lines =
      some ((status : Int), block.fields.map Field.header) := by
  have inRange := block.statusLine.inRange
  have firstNoNul : ¬ HasNul block.statusLine.line :=
    block.statusLine.isLine.noNul
  have noNul : ¬ ∃ l ∈ block.fields.map Field.line, HasNul l := by
    rintro ⟨l, member, hasNul⟩
    exact (block.isLine l (List.mem_cons_of_mem _ member)).noNul hasNul
  have inside : ¬ ((status : Int) < 100 ∨ (status : Int) > 599) := by omega
  have headers : (block.fields.map Field.line).map splitHeader =
      block.fields.map Field.header := by
    rw [List.map_map]
    apply List.map_congr_left
    intro field _
    exact splitHeader_line field
  change parseBlock overflow block.statusLine.line
    (block.fields.map Field.line) = _
  unfold parseBlock
  rw [if_neg firstNoNul, scanStatus_line]
  dsimp only
  rw [if_neg (not_not_intro rfl), if_neg inside, if_neg noNul, headers]

/-- The first end of headers is the one behind the block. -/
theorem indexOf_block (block : Block status) (s : List UInt8) :
    indexOf endOfHeaders (block.wire ++ s) + 4 = block.wire.length := by
  have areLines : ∀ l ∈ block.lines, Line crlf l :=
    fun l member => (block.isLine l member).noEnd
  obtain ⟨front, isFront⟩ : ∃ front,
      joinLines crlf block.lines = front ++ crlf := by
    have last (line : List UInt8) (lines : List (List UInt8)) :
        ∃ front, joinLines crlf (line :: lines) = front ++ crlf := by
      induction lines generalizing line with
      | nil =>
          refine ⟨line, ?_⟩
          rw [joinLines_cons]
          exact List.append_nil _
      | cons next lines ih =>
          obtain ⟨front, isFront⟩ := ih next
          refine ⟨line ++ crlf ++ front, ?_⟩
          rw [joinLines_cons, isFront, ← List.append_assoc]
    exact last _ _
  have split : block.wire ++ s = front ++ (endOfHeaders ++ s) := by
    unfold Block.wire
    rw [isFront, List.append_assoc, List.append_assoc, ← List.append_assoc,
      List.append_assoc front, ← List.append_assoc crlf]
  have occurs : OccursAt endOfHeaders (block.wire ++ s) front.length := by
    rw [split, ← List.append_assoc]
    exact occursAt_length_append front s
  have lengths : (joinLines crlf block.lines).length = front.length + 2 := by
    rw [isFront, List.length_append]
    rfl
  have found : indexOf endOfHeaders (block.wire ++ s) = front.length := by
    apply indexOf_eq occurs (List.cons_ne_nil _ _)
    intro j other
    have bound := length_joinLines_le_of_occursAt crlf_unbordered areLines
      block.line_ne_nil other
    change _ ≤ j + 2 at bound
    omega
  unfold Block.wire at *
  rw [found, List.length_append, lengths]
  rfl

theorem decode_block (block : Block status) (s : List UInt8) :
    decode settings (block.wire ++ s) =
      decodeHead settings s
        (some ((status : Int), block.fields.map Field.header)) := by
  have first := indexOf_block block s
  have short : block.wire.length ≤ MAXHDR + 1 := block.short
  have found : indexOf endOfHeaders (block.wire ++ s) <
      (block.wire ++ s).length := by
    rw [List.length_append]
    omega
  have total : block.wire.length =
      (joinLines crlf block.lines).length + 2 := by
    unfold Block.wire
    rw [List.length_append]
    rfl
  have front : (block.wire ++ s).take
      (indexOf endOfHeaders (block.wire ++ s) + 2) =
        joinLines crlf block.lines := by
    have isPos : indexOf endOfHeaders (block.wire ++ s) + 2 =
        (joinLines crlf block.lines).length := by omega
    rw [isPos]
    unfold Block.wire
    rw [List.append_assoc, List.take_left]
  rw [decode_found found (first.symm ▸ short), front, first, List.drop_left,
    splitLines_joinLines fun l member => (block.isLine l member).noEnd,
    parseLines_block]

/-! ## Bodies -/

/-- The header line of a chunk: a number, and perhaps an extension. -/
structure ChunkLine (n : Nat) where
  number : Written 16 n
  extension : List UInt8
  ends : Ends 16 extension
  plain : hasPrefix (number.digits ++ extension) = false
  noEnd : Line crlf (number.digits ++ extension)
  short : (number.digits ++ extension).length + 2 ≤ MAXCHLEN

/-- The line that is written. -/
def ChunkLine.line (line : ChunkLine n) : List UInt8 :=
  line.number.digits ++ line.extension

/-- A chunk which is not the last one. -/
structure Chunk where
  data : List UInt8
  line : ChunkLine data.length
  nonempty : data ≠ []

/-- What is written. -/
def Chunk.wire (chunk : Chunk) : List UInt8 :=
  chunk.line.line ++ crlf ++ (chunk.data ++ crlf)

variable {maxrlen : Nat} {head : Head} {got : List UInt8}

/-- The decoder reads the number in the line. -/
theorem decodeChunks_line (line : ChunkLine n) (small : n ≤ SIZE_MAX)
    (s : List UInt8) :
    decodeChunks maxrlen head got (line.line ++ crlf ++ s) =
      decodeSized maxrlen head got s n := by
  have isEol : findeol (line.line ++ crlf ++ s) = line.line.length :=
    findeol_line line.noEnd
  have found : findeol (line.line ++ crlf ++ s) <
      (line.line ++ crlf ++ s).length := by
    rw [isEol, List.length_append, List.length_append]
    change _ < _ + 2 + _
    omega
  have short : findeol (line.line ++ crlf ++ s) + 2 ≤ MAXCHLEN := by
    rw [isEol]
    exact line.short
  have front : (line.line ++ crlf ++ s).take
      (findeol (line.line ++ crlf ++ s)) = line.line := by
    rw [isEol, List.append_assoc, List.take_left]
  have behind : (line.line ++ crlf ++ s).drop
      (findeol (line.line ++ crlf ++ s) + 2) = s := by
    rw [isEol]
    exact List.drop_left' (by rw [List.length_append]; rfl)
  have notBlank : ∃ b ∈ (line.line ++ crlf ++ s).take
      (findeol (line.line ++ crlf ++ s)), isspace b = false := by
    obtain ⟨c, digits, isCons⟩ :=
      List.exists_cons_of_ne_nil line.number.nonempty
    have member : c ∈ line.number.digits := isCons ▸ List.mem_cons_self
    refine ⟨c, ?_, not_isspace_of_digit (line.number.areDigits c member)⟩
    rw [front]
    exact List.mem_append_left _ member
  have parsed : parsenumUnsigned line.line 0 SIZE_MAX SIZE_MAX 16 true =
      some n :=
    parsenumUnsigned_written line.number line.ends (by decide)
      (skipPrefix_plain line.plain) small Bool.noConfusion
  rw [decodeChunks_found found short notBlank, front, behind, parsed]

/-- The data of chunks. -/
def chunkData (chunks : List Chunk) : List UInt8 :=
  chunks.flatMap Chunk.data

/-- What is written of chunks. -/
def chunksWire (chunks : List Chunk) : List UInt8 :=
  chunks.flatMap Chunk.wire

/-- A chunk that fits is added to the body. -/
theorem decodeChunks_chunk (chunk : Chunk) (size : maxrlen < 2 ^ 64)
    (fits : got.length + (chunk.data.length + 2) ≤ maxrlen)
    (s : List UInt8) :
    decodeChunks maxrlen head got (chunk.wire ++ s) =
      decodeChunks maxrlen head (got ++ chunk.data) s := by
  have isMax : SIZE_MAX = 2 ^ 64 - 1 := rfl
  have notZero : chunk.data.length ≠ 0 :=
    (List.length_pos_of_ne_nil chunk.nonempty).ne'
  have small : chunk.data.length ≤ SIZE_MAX := by omega
  have noLimit : ¬ chunk.data.length > maxrlen - got.length := by omega
  have noWrap : ¬ chunk.data.length > SIZE_MAX - 2 := by omega
  have split : chunk.wire ++ s =
      chunk.line.line ++ crlf ++ (chunk.data ++ crlf ++ s) := by
    unfold Chunk.wire
    rw [List.append_assoc]
  have length : (chunk.data ++ crlf).length = chunk.data.length + 2 := by
    rw [List.length_append]
    rfl
  have enough : ¬ (chunk.data ++ crlf ++ s).length <
      chunk.data.length + 2 := by
    rw [List.length_append, length]
    omega
  have data : (got ++ (chunk.data ++ crlf ++ s)).take
      (got.length + (chunk.data.length + 2) - 2) = got ++ chunk.data := by
    have isLength : got.length + (chunk.data.length + 2) - 2 =
        (got ++ chunk.data).length := by
      rw [List.length_append]
      omega
    rw [isLength, List.append_assoc chunk.data, ← List.append_assoc got,
      List.take_left]
  rw [split, decodeChunks_line chunk.line small]
  unfold decodeSized decodeChunk
  rw [if_neg notZero, if_neg noLimit, if_neg noWrap, if_neg enough,
    if_neg (Nat.not_lt.mpr fits), data, ← length, List.drop_left]

/-- The decoder reads the data of all chunks. -/
theorem decodeChunks_wire (chunks : List Chunk) (last : ChunkLine 0)
    (size : maxrlen < 2 ^ 64)
    (fits : got.length + (chunkData chunks).length + 2 ≤ maxrlen)
    (rest : List UInt8) :
    decodeChunks maxrlen head got
        (chunksWire chunks ++ (last.line ++ crlf ++ rest)) =
      .delivers (head.withBody (got ++ chunkData chunks)) := by
  induction chunks generalizing got with
  | nil =>
      change decodeChunks maxrlen head got (last.line ++ crlf ++ rest) =
        .delivers (head.withBody (got ++ []))
      rw [decodeChunks_line last (Nat.zero_le _), List.append_nil]
      rfl
  | cons chunk chunks ih =>
      have isData : chunkData (chunk :: chunks) =
          chunk.data ++ chunkData chunks := List.flatMap_cons
      have isWire : chunksWire (chunk :: chunks) =
          chunk.wire ++ chunksWire chunks := List.flatMap_cons
      rw [isData, List.length_append] at fits
      rw [isData, isWire, List.append_assoc, ← List.append_assoc got,
        decodeChunks_chunk chunk size (by omega)]
      apply ih
      rw [List.length_append]
      omega

/-- How a body can be written behind headers: not at all, in chunks, with its
length in the headers, or up to the end of the stream. -/
inductive Carries (settings : Settings) (head : Head) :
    (body : List UInt8) → Stream → Prop where
  | bodiless (rest : Stream) (bodiless : settings.Bodiless head.status) :
      Carries settings head [] rest
  | chunked (chunks : List Chunk) (last : ChunkLine 0) (rest : List UInt8)
      (ended : Bool) (bodied : ¬ settings.Bodiless head.status)
      (coding : (findValue head.headers transferEncoding).any
        (strstr · chunkedString) = true)
      (fits : (chunkData chunks).length + 2 ≤ settings.maxrlen) :
      Carries settings head (chunkData chunks)
        ⟨chunksWire chunks ++ (last.line ++ crlf ++ rest), ended⟩
  | length (body rest : List UInt8) (number : Written 10 body.length)
      (ended : Bool) (bodied : ¬ settings.Bodiless head.status)
      (coding : (findValue head.headers transferEncoding).any
        (strstr · chunkedString) = false)
      (field : findValue head.headers contentLength = some number.digits)
      (fits : body.length ≤ settings.maxrlen) :
      Carries settings head body ⟨body ++ rest, ended⟩
  | untilEof (body : List UInt8) (bodied : ¬ settings.Bodiless head.status)
      (coding : (findValue head.headers transferEncoding).any
        (strstr · chunkedString) = false)
      (field : findValue head.headers contentLength = none)
      (fits : body.length ≤ settings.maxrlen) :
      Carries settings head body ⟨body, true⟩

/-- The decoder reads a body back. -/
theorem decodeBody_carries {body : List UInt8} {stream : Stream}
    (size : settings.maxrlen < 2 ^ 64)
    (carries : Carries settings head body stream) :
    stream.close (decodeBody settings head stream.bytes) =
      .delivers (head.withBody body) := by
  cases carries with
  | bodiless rest bodiless =>
      unfold decodeBody
      rw [if_pos bodiless]
      exact close_delivers _
  | chunked chunks last rest ended bodied coding fits =>
      have isFraming : framing head.headers = .chunked := if_pos coding
      have decoded := @decodeChunks_wire settings.maxrlen head [] chunks last
        size (by rw [List.length_nil]; omega) rest
      unfold decodeBody
      rw [if_neg bodied, isFraming]
      dsimp only [decodeFramed]
      rw [decoded]
      exact close_delivers _
  | length body rest number ended bodied coding field fits =>
      have isMax : SIZE_MAX = 2 ^ 64 - 1 := rfl
      have nothing : Ends 10 ([] : List UInt8) := ends_nil
      have parsed : parsenumUnsigned (number.digits ++ []) 0 SIZE_MAX
          SIZE_MAX 10 false = some body.length :=
        parsenumUnsigned_written number nothing (by decide)
          (skipPrefix_decimal _) (by omega) (fun _ => rfl)
      rw [List.append_nil] at parsed
      have notChunked : ¬ (findValue head.headers transferEncoding).any
          (strstr · chunkedString) = true := Bool.eq_false_iff.mp coding
      have isFraming : framing head.headers = .length body.length := by
        unfold framing
        rw [if_neg notChunked, field]
        dsimp only
        rw [parsed]
      have whole : body.length ≤ (body ++ rest).length := by
        rw [List.length_append]
        exact Nat.le_add_right _ _
      unfold decodeBody
      rw [if_neg bodied, isFraming]
      dsimp only [decodeFramed, decodeLength]
      rw [if_neg (Nat.not_lt.mpr fits), if_pos whole, List.take_left]
      exact close_delivers _
  | untilEof body bodied coding field fits =>
      have notChunked : ¬ (findValue head.headers transferEncoding).any
          (strstr · chunkedString) = true := Bool.eq_false_iff.mp coding
      have isFraming : framing head.headers = .untilEof := by
        unfold framing
        rw [if_neg notChunked, field]
      have small : ¬ body.length >
          settings.maxrlen - ([] : List UInt8).length :=
        Nat.not_lt.mpr fits
      unfold decodeBody
      rw [if_neg bodied, isFraming]
      dsimp only [decodeFramed, decodeToeof]
      rw [if_neg small]
      rfl

/-! ## Responses -/

/-- A block of headers with 1xx. -/
structure Informational where
  status : Nat
  block : Block status
  isInformational : status ≤ 199

/-- The stream of a response: blocks with 1xx, a block, and a body. -/
structure Reply (settings : Settings) where
  informational : List Informational
  status : Nat
  block : Block status
  final : 200 ≤ status
  body : List UInt8
  rest : Stream
  carries : Carries settings block.head body rest

/-- What is written. -/
def Reply.stream (reply : Reply settings) : Stream :=
  { reply.rest with
    bytes := reply.informational.flatMap (fun i => i.block.wire) ++
      (reply.block.wire ++ reply.rest.bytes) }

/-- What is meant. -/
def Reply.response (reply : Reply settings) : HttpResponse :=
  reply.block.head.withBody reply.body

/-- Responses with 1xx are thrown away. -/
theorem decode_informational (informational : List Informational)
    (s : List UInt8) :
    decode settings (informational.flatMap (fun i => i.block.wire) ++ s) =
      decode settings s := by
  induction informational with
  | nil => rfl
  | cons first informational ih =>
      have isInformational : 100 ≤ (first.status : Int) ∧
          (first.status : Int) ≤ 199 := by
        have inRange := first.block.statusLine.inRange
        have bound := first.isInformational
        omega
      rw [List.flatMap_cons, List.append_assoc, decode_block,
        decodeHead_informational isInformational, ih]

/-- The decoder reads a response back. -/
theorem verdict_reply (size : settings.maxrlen < 2 ^ 64)
    (reply : Reply settings) :
    verdict settings reply.stream = .delivers reply.response := by
  have final : ¬ (100 ≤ (reply.status : Int) ∧
      (reply.status : Int) ≤ 199) := by
    have bound := reply.final
    omega
  have headers : (reply.block.fields.map Field.header).length =
      reply.block.fields.length := List.length_map _
  change reply.rest.close (decode settings (_ ++ (_ ++ reply.rest.bytes))) =
    .delivers reply.response
  rw [decode_informational, decode_block, decodeHead_final final, headers]
  exact decodeBody_carries size reply.carries

/-- In whatever portions a response arrives, the callback is invoked with the
status, the headers and the body that were written. -/
theorem http_delivers_reply (memory : Nat → UInt8)
    (reqIshead chunked : Bool) (readlen maxrlen : Nat) (overflow : Int → Int)
    (reply : Reply ⟨reqIshead, maxrlen, overflow⟩) (actions : List Action)
    (env : CallEnv) (size : maxrlen + maxBuffer < 2 ^ 64)
    (permitted : PermittedRun
      (start memory reqIshead chunked readlen maxrlen) actions)
    (succeeds : ∀ action ∈ actions, Succeeds overflow action)
    (provides : Provides overflow env)
    (arrives : streamOf actions = reply.stream) :
    ∃ calls, run (start memory reqIshead chunked readlen maxrlen)
        (actions ++ List.replicate calls (.call env)) =
      .ok (.responded (some reply.response)) := by
  have isVerdict : verdict ⟨reqIshead, maxrlen, overflow⟩
      (streamOf actions) = .delivers reply.response := by
    rw [arrives]
    apply verdict_reply
    show maxrlen < 2 ^ 64
    omega
  have legible : Legible (verdict ⟨reqIshead, maxrlen, overflow⟩
      (streamOf actions)) := by
    rw [isVerdict]
    constructor
    · exact Verdict.noConfusion
    · exact Verdict.noConfusion
  obtain ⟨calls, answers⟩ := http_response_run memory reqIshead chunked
    readlen maxrlen overflow actions env size permitted succeeds provides
    legible
  rw [isVerdict] at answers
  exact ⟨calls, answers_delivers answers⟩

/-! ## A response with one chunk -/

theorem line_of_indexOf {line : List UInt8}
    (missing : indexOf crlf line = line.length) : Line crlf line := by
  intro i occurs
  have inside := occurs.inside crlf_ne_nil
  have atMost := indexOf_le_of_occursAt occurs
  change i + 2 ≤ line.length at inside
  omega

/-- `"Transfer-Encoding: chunked"`. -/
def chunkedField : Field where
  name := transferEncoding
  before := [32]
  value := chunkedString
  after := []
  noColon := by decide +kernel
  blankBefore := by decide +kernel
  blankAfter := List.forall_mem_nil _
  visibleFirst := by
    rintro b ⟨⟩
    decide +kernel
  visibleLast := by
    rintro b ⟨⟩
    decide +kernel
  isLine := ⟨line_of_indexOf (by decide +kernel), by decide +kernel⟩

/-- `"HTTP/1.1 200 OK"`. -/
def statusOk : StatusLine 200 where
  minor := 1
  majorDigits := ⟨[49], by decide +kernel, by decide +kernel, rfl⟩
  minorDigits := ⟨[49], by decide +kernel, by decide +kernel, rfl⟩
  statusDigits := ⟨[50, 48, 48], by decide +kernel, by decide +kernel, rfl⟩
  reason := [79, 75]
  smallMinor := by decide
  inRange := by decide
  isLine := ⟨line_of_indexOf (by decide +kernel), by decide +kernel⟩

/-- `"abcd"`. -/
def abcd : Chunk where
  data := [97, 98, 99, 100]
  line := ⟨⟨[52], by decide +kernel, by decide +kernel, rfl⟩, [], ends_nil, rfl,
    line_of_indexOf (by decide +kernel), by decide⟩
  nonempty := by decide

/-- The last line. -/
def zeroLine : ChunkLine 0 :=
  ⟨⟨[48], by decide +kernel, by decide +kernel, rfl⟩, [], ends_nil, rfl,
    line_of_indexOf (by decide +kernel), by decide⟩

/-- `oneChunk`, as it was written. -/
def oneChunkReply : Reply ⟨false, 6, id⟩ where
  informational := []
  status := 200
  block := ⟨statusOk, [chunkedField], by decide +kernel⟩
  final := le_rfl
  body := chunkData [abcd]
  rest := ⟨chunksWire [abcd] ++ (zeroLine.line ++ crlf ++ crlf), false⟩
  carries := Carries.chunked [abcd] zeroLine crlf false (by decide +kernel)
    (by decide +kernel) (by decide +kernel)

theorem http_delivers_reply_oneChunk :
    ∃ calls, run (start (fun _ => 0) false false 0 6)
        ([.call {}, .readable (.data (oneChunk.take 20)) true, .call {},
          .readable (.data (oneChunk.drop 20)) true] ++
            List.replicate calls (.call {})) =
      .ok (.responded (some oneChunkReply.response)) := by
  have provides : Provides id {} :=
    ⟨rfl, rfl, rfl, ⟨rfl, Option.some_ne_none _, rfl, rfl⟩, rfl⟩
  apply http_delivers_reply (fun _ => 0) false false 0 6 id oneChunkReply
  · decide
  · decide +kernel
  · intro action member
    rcases List.mem_cons.mp member with rfl | member
    · exact provides
    rcases List.mem_cons.mp member with rfl | member
    · exact ⟨Recv.noConfusion, rfl⟩
    rcases List.mem_cons.mp member with rfl | member
    · exact provides
    rcases List.mem_singleton.mp member with rfl
    exact ⟨Recv.noConfusion, rfl⟩
  · exact provides
  · have bytes : (streamOf [.call {}, .readable (.data (oneChunk.take 20)) true,
        .call {}, .readable (.data (oneChunk.drop 20)) true]).bytes =
          oneChunkReply.stream.bytes := by decide +kernel
    exact congrArg (fun s => (⟨s, false⟩ : Stream)) bytes

end Libcperciva.Http.HttpWire
