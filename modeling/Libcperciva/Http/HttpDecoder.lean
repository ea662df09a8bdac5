import Libcperciva.Http.HttpHeaders

/-!
# A decoder of responses

What a response is, as far as it is known from the bytes that have come so
far.  The decoder sees all of these bytes at once; it knows nothing of a
buffer, of the lengths in which the bytes arrive, or of a wait.

The limits are about the stream, too: a block of headers ends within `MAXHDR`
bytes and one more, and the header line of a chunk, its EOL included, within
`MAXCHLEN` bytes.
-/

namespace Libcperciva.Http.HttpDecoder

open Libcperciva.Lib.Lines
open Libcperciva.Util.Cstring
open Libcperciva.Http.HttpModel
open Libcperciva.Http.HttpHeaders

/-! ## Verdicts -/

/-- Why a response is rejected. -/
inductive Rejection where
  | malformed
  /-- A block of headers, or the header line of a chunk, is too long. -/
  | tooLong
  /-- The stream ends too early. -/
  | truncated
  /-- It ends within a chunk that is, its EOL included, larger than the limit. -/
  | overrun
deriving DecidableEq

/-- What is known of a response. -/
inductive Verdict where
  /-- It goes on. -/
  | more
  /-- It goes on until the stream ends. -/
  | untilEof (response : HttpResponse)
  | rejects (why : Rejection)
  | delivers (response : HttpResponse)
  /-- It goes on within a chunk that is, its EOL included, larger than the
  limit. -/
  | exceeds
  /-- All of such a chunk is there. -/
  | aborts
  /-- There is a blank line in place of a number. -/
  | undetermined

/-- The verdict when the stream has ended. -/
def Verdict.atEof : Verdict → Verdict
  | .more => .rejects .truncated
  | .exceeds => .rejects .overrun
  | .untilEof response => .delivers response
  | verdict => verdict

/-- A status, and headers. -/
structure Head where
  status : Int
  nheaders : Nat
  headers : List HttpHeader

/-- The response with a body. -/
def Head.withBody (head : Head) (body : List UInt8) : HttpResponse :=
  ⟨head.status, head.nheaders, head.headers, body.length, body⟩

/-- The response whose body is too big. -/
def Head.tooBig (head : Head) : HttpResponse :=
  ⟨head.status, head.nheaders, head.headers, SIZE_MAX, []⟩

variable {maxrlen len : Nat} {head : Head} {got s more : List UInt8}

/-! ## Bodies -/

/-- What remains of a body of a known length. -/
def decodeLength (head : Head) (got : List UInt8) (len : Nat)
    (s : List UInt8) : Verdict :=
  if len ≤ s.length then .delivers (head.withBody (got ++ s.take len))
  else .more

theorem decodeLength_append (fits : s.length ≤ len) :
    decodeLength head got len (s ++ more) =
      decodeLength head (got ++ s) (len - s.length) more := by
  have same : len ≤ (s ++ more).length ↔ len - s.length ≤ more.length := by
    rw [List.length_append, Nat.sub_le_iff_le_add']
  unfold decodeLength
  rw [List.take_append, List.take_of_length_le fits, List.append_assoc]
  exact if_congr same rfl rfl

/-- What remains of a body that the end of the stream ends. -/
def decodeToeof (maxrlen : Nat) (head : Head) (got s : List UInt8) :
    Verdict :=
  if s.length > maxrlen - got.length then .delivers head.tooBig
  else .untilEof (head.withBody (got ++ s))

theorem decodeToeof_append (fits : got.length + s.length ≤ maxrlen) :
    decodeToeof maxrlen head got (s ++ more) =
      decodeToeof maxrlen head (got ++ s) more := by
  have same : (s ++ more).length > maxrlen - got.length ↔
      more.length > maxrlen - (got ++ s).length := by
    rw [List.length_append, List.length_append]
    omega
  unfold decodeToeof
  rw [List.append_assoc]
  exact if_congr same rfl rfl

theorem decodeToeof_nil :
    decodeToeof maxrlen head got [] = .untilEof (head.withBody got) := by
  have fits : ¬ ([] : List UInt8).length > maxrlen - got.length :=
    Nat.not_lt_zero _
  unfold decodeToeof
  rw [if_neg fits, List.append_nil]

/-- The verdict within a chunk, when so much of it and its EOL is left. -/
def withinChunk (maxrlen : Nat) (got : List UInt8) (len : Nat) : Verdict :=
  if maxrlen < got.length + len then .exceeds else .more

/-- What remains of a body in chunks, at the header line of a chunk. -/
def decodeChunks (maxrlen : Nat) (head : Head) (got s : List UInt8) :
    Verdict :=
  let eol := findeol s
  if eol < s.length ∧ eol + 2 ≤ MAXCHLEN then
    if (s.take eol).all isspace then .undetermined
    else
      match parsenumUnsigned (s.take eol) 0 SIZE_MAX SIZE_MAX 16 true with
      | none => .rejects .malformed
      | some clen =>
          if clen = 0 then .delivers (head.withBody got)
          else if clen > maxrlen - got.length then .delivers head.tooBig
          else if clen > SIZE_MAX - 2 then .delivers head.tooBig
          else
            let data := s.drop (eol + 2)
            if data.length < clen + 2 then
              withinChunk maxrlen got (clen + 2)
            else if maxrlen < got.length + (clen + 2) then .aborts
            else
              decodeChunks maxrlen head (got ++ data.take clen)
                (data.drop (clen + 2))
  else if MAXCHLEN ≤ s.length then .rejects .tooLong
  else .more
termination_by s.length
decreasing_by
  simp only [List.length_drop]
  omega

/-- What remains of a body in chunks, when so much of a chunk and its EOL is
left. -/
def decodeChunk (maxrlen : Nat) (head : Head) (got : List UInt8) (len : Nat)
    (s : List UInt8) : Verdict :=
  if s.length < len then withinChunk maxrlen got len
  else if maxrlen < got.length + len then .aborts
  else
    decodeChunks maxrlen head ((got ++ s).take (got.length + len - 2))
      (s.drop len)

/-- The chunks behind the header line of a chunk. -/
def decodeSized (maxrlen : Nat) (head : Head) (got s : List UInt8)
    (clen : Nat) : Verdict :=
  if clen = 0 then .delivers (head.withBody got)
  else if clen > maxrlen - got.length then .delivers head.tooBig
  else if clen > SIZE_MAX - 2 then .delivers head.tooBig
  else decodeChunk maxrlen head got (clen + 2) s

theorem decodeChunks_found (found : findeol s < s.length)
    (short : findeol s + 2 ≤ MAXCHLEN)
    (notBlank : ∃ b ∈ s.take (findeol s), isspace b = false) :
    decodeChunks maxrlen head got s =
      match parsenumUnsigned (s.take (findeol s)) 0 SIZE_MAX SIZE_MAX 16
        true with
      | none => .rejects .malformed
      | some clen =>
          decodeSized maxrlen head got (s.drop (findeol s + 2)) clen := by
  have visible : ¬ (s.take (findeol s)).all isspace = true := by
    rw [List.all_eq_true]
    rintro blank
    obtain ⟨b, member, notSpace⟩ := notBlank
    exact Bool.noConfusion ((blank b member).symm.trans notSpace)
  have stripped (data : List UInt8) (clen : Nat) :
      (got ++ data).take (got.length + (clen + 2) - 2) =
        got ++ data.take clen := by
    rw [Nat.add_sub_assoc (Nat.le_add_left 2 clen), Nat.add_sub_cancel,
      List.take_length_add_append]
  rw [decodeChunks]
  dsimp only
  rw [if_pos ⟨found, short⟩, if_neg visible]
  unfold decodeSized decodeChunk
  simp only [stripped]

theorem decodeChunks_missing (missing : ¬ findeol s < s.length)
    (short : s.length < MAXCHLEN) :
    decodeChunks maxrlen head got s = .more := by
  rw [decodeChunks]
  dsimp only
  rw [if_neg (fun both => missing both.1), if_neg (Nat.not_le.mpr short)]

/-- A line that has not ended within the limit is too long. -/
theorem decodeChunks_tooLong (missing : ¬ findeol s < s.length)
    (long : MAXCHLEN ≤ s.length) :
    decodeChunks maxrlen head got (s ++ more) = .rejects .tooLong := by
  have late : ¬ (findeol (s ++ more) < (s ++ more).length ∧
      findeol (s ++ more) + 2 ≤ MAXCHLEN) := by
    rintro ⟨found, short⟩
    have occurs := (occursAt_indexOf found).of_append
      (show findeol (s ++ more) + 2 ≤ s.length by omega)
    have inside := occurs.inside crlf_ne_nil
    have atMost : findeol s ≤ findeol (s ++ more) :=
      indexOf_le_of_occursAt occurs
    change findeol (s ++ more) + 2 ≤ s.length at inside
    omega
  have longer : MAXCHLEN ≤ (s ++ more).length := by
    rw [List.length_append]
    exact Nat.le_add_right_of_le long
  rw [decodeChunks]
  dsimp only
  rw [if_neg late, if_pos longer]

/-- So much of a chunk is too much for the body. -/
theorem decodeChunk_tooMuch
    (tooMuch : maxrlen < got.length + min len s.length) :
    decodeChunk maxrlen head got len (s ++ more) = .aborts ∨
      decodeChunk maxrlen head got len (s ++ more) = .exceeds := by
  have limit : maxrlen < got.length + len :=
    Nat.lt_of_lt_of_le tooMuch (Nat.add_le_add_left (Nat.min_le_left _ _) _)
  unfold decodeChunk withinChunk
  rw [if_pos limit, if_pos limit]
  split_ifs
  · exact Or.inr rfl
  · exact Or.inl rfl

theorem decodeChunk_short (short : s.length < len) :
    decodeChunk maxrlen head got len s = withinChunk maxrlen got len :=
  if_pos short

theorem decodeChunk_append (short : s.length ≤ len) :
    decodeChunk maxrlen head got len (s ++ more) =
      decodeChunk maxrlen head (got ++ s) (len - s.length) more := by
  have same : got.length + len =
      (got ++ s).length + (len - s.length) := by
    rw [List.length_append]
    omega
  have shorter : (s ++ more).length < len ↔
      more.length < len - s.length := by
    rw [List.length_append]
    omega
  unfold decodeChunk withinChunk
  rw [same, List.drop_append, List.drop_eq_nil_of_le short,
    List.nil_append, List.append_assoc]
  exact if_congr shorter rfl rfl

/-- Where nothing is left of a chunk, its EOL is stripped. -/
theorem decodeChunk_zero (fits : got.length ≤ maxrlen) :
    decodeChunk maxrlen head got 0 s =
      decodeChunks maxrlen head (got.take (got.length - 2)) s := by
  unfold decodeChunk
  rw [if_neg (Nat.not_lt_zero _), Nat.add_zero,
    if_neg (Nat.not_lt.mpr fits), List.drop_zero,
    List.take_append_of_le_length (Nat.sub_le _ _)]

/-- How long a body is. -/
inductive Framing where
  | chunked
  | length (len : Nat)
  | invalid
  | untilEof
deriving DecidableEq

/-- The value of the first header with this name. -/
def findValue (headers : List HttpHeader) (header : List UInt8) :
    Option (List UInt8) :=
  (headers.find? (·.header = header)).map (·.value)

/-- How long the body is, as the headers say. -/
def framing (headers : List HttpHeader) : Framing :=
  if (findValue headers transferEncoding).any (strstr · chunkedString) then
    .chunked
  else
    match findValue headers contentLength with
    | some clen =>
        match parsenumUnsigned clen 0 SIZE_MAX SIZE_MAX 10 false with
        | none => .invalid
        | some len => .length len
    | none => .untilEof

/-- A body, as the headers frame it. -/
def decodeFramed (maxrlen : Nat) (head : Head) (s : List UInt8) :
    Framing → Verdict
  | .chunked => decodeChunks maxrlen head [] s
  | .length len =>
      if len > maxrlen then .delivers head.tooBig
      else decodeLength head [] len s
  | .invalid => .rejects .malformed
  | .untilEof => decodeToeof maxrlen head [] s

/-! ## Headers -/

/-- What the request says about the response. -/
structure Settings where
  reqIshead : Bool
  maxrlen : Nat
  /-- What `%d` makes of a number that is not an `int`. -/
  overflow : Int → Int

/-- Is a body expected? -/
def Settings.Bodiless (settings : Settings) (status : Int) : Prop :=
  settings.reqIshead = true ∨ status = 204 ∨ status = 304

instance (settings : Settings) :
    DecidablePred settings.Bodiless := fun _ =>
  inferInstanceAs (Decidable (_ ∨ _))

/-- The lines of a list in which each line has its end. -/
def splitLines (s : List UInt8) : List (List UInt8) :=
  if findeol s < s.length then
    s.take (findeol s) :: splitLines (s.drop (findeol s + 2))
  else []
termination_by s.length
decreasing_by
  rw [List.length_drop]
  omega

theorem splitLines_joinLines {lines : List (List UInt8)}
    (areLines : ∀ l ∈ lines, Line crlf l) :
    splitLines (joinLines crlf lines) = lines := by
  induction lines with
  | nil =>
      rw [splitLines]
      rfl
  | cons line lines ih =>
      have isLine := areLines line List.mem_cons_self
      have found : findeol (line ++ crlf ++ joinLines crlf lines) =
          line.length := findeol_line isLine
      have inside : line.length <
          (line ++ crlf ++ joinLines crlf lines).length := by
        rw [List.length_append, List.length_append]
        change _ < line.length + 2 + _
        omega
      have front : (line ++ crlf ++ joinLines crlf lines).take line.length =
          line := by
        rw [List.append_assoc, List.take_left]
      have behind : (line ++ crlf ++ joinLines crlf lines).drop
          (line.length + 2) = joinLines crlf lines :=
        List.drop_left' (by rw [List.length_append]; rfl)
      rw [splitLines, joinLines_cons, found, if_pos inside, front, behind,
        ih fun l member => areLines l (List.mem_cons_of_mem line member)]

/-- The status and the headers of the lines of a block. -/
def parseLines (overflow : Int → Int) :
    List (List UInt8) → Option (Int × List HttpHeader)
  | [] => none
  | line :: lines => parseBlock overflow line lines

/-- What follows the headers of a final response. -/
def decodeBody (settings : Settings) (head : Head) (s : List UInt8) :
    Verdict :=
  if settings.Bodiless head.status then .delivers (head.withBody [])
  else decodeFramed settings.maxrlen head s (framing head.headers)

/-- A response, and blocks of headers with 1xx before it. -/
def decode (settings : Settings) (s : List UInt8) : Verdict :=
  let pos := indexOf endOfHeaders s
  if pos < s.length ∧ pos + 4 ≤ MAXHDR + 1 then
    match parseLines settings.overflow (splitLines (s.take (pos + 2))) with
    | none => .rejects .malformed
    | some (status, headers) =>
        if 100 ≤ status ∧ status ≤ 199 then
          decode settings (s.drop (pos + 4))
        else
          decodeBody settings ⟨status, headers.length, headers⟩
            (s.drop (pos + 4))
  else if MAXHDR < s.length then .rejects .tooLong
  else .more
termination_by s.length
decreasing_by
  rw [List.length_drop]
  omega

/-- What follows a block of headers. -/
def decodeHead (settings : Settings) (s : List UInt8) :
    Option (Int × List HttpHeader) → Verdict
  | none => .rejects .malformed
  | some (status, headers) =>
      if 100 ≤ status ∧ status ≤ 199 then decode settings s
      else decodeBody settings ⟨status, headers.length, headers⟩ s

variable {settings : Settings} {status : Int} {headers : List HttpHeader}

theorem decodeHead_informational
    (informational : 100 ≤ status ∧ status ≤ 199) :
    decodeHead settings s (some (status, headers)) = decode settings s :=
  if_pos informational

theorem decodeHead_final (final : ¬ (100 ≤ status ∧ status ≤ 199)) :
    decodeHead settings s (some (status, headers)) =
      decodeBody settings ⟨status, headers.length, headers⟩ s :=
  if_neg final

theorem decode_found (found : indexOf endOfHeaders s < s.length)
    (short : indexOf endOfHeaders s + 4 ≤ MAXHDR + 1) :
    decode settings s = decodeHead settings
      (s.drop (indexOf endOfHeaders s + 4))
      (parseLines settings.overflow
        (splitLines (s.take (indexOf endOfHeaders s + 2)))) := by
  rw [decode]
  rw [if_pos ⟨found, short⟩]
  cases parseLines settings.overflow
      (splitLines (s.take (indexOf endOfHeaders s + 2))) with
  | none => rfl
  | some block => rfl

theorem decode_missing (missing : ¬ indexOf endOfHeaders s < s.length)
    (short : s.length ≤ MAXHDR) : decode settings s = .more := by
  rw [decode]
  rw [if_neg (fun both => missing both.1), if_neg (Nat.not_lt.mpr short)]

/-- Headers that have not ended within the limit are too long. -/
theorem decode_tooLong (missing : ¬ indexOf endOfHeaders s < s.length)
    (long : MAXHDR < s.length) :
    decode settings (s ++ more) = .rejects .tooLong := by
  have late : ¬ (indexOf endOfHeaders (s ++ more) < (s ++ more).length ∧
      indexOf endOfHeaders (s ++ more) + 4 ≤ MAXHDR + 1) := by
    rintro ⟨found, short⟩
    have occurs := (occursAt_indexOf found).of_append
      (show indexOf endOfHeaders (s ++ more) + 4 ≤ s.length by omega)
    have atMost := indexOf_le_of_occursAt occurs
    omega
  have longer : MAXHDR < (s ++ more).length := by
    rw [List.length_append]
    exact Nat.lt_add_right _ long
  rw [decode]
  rw [if_neg late, if_pos longer]

end Libcperciva.Http.HttpDecoder
