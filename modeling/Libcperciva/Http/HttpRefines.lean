import Libcperciva.Http.HttpDecoder
import Libcperciva.Http.HttpChunk
import Libcperciva.Http.HttpSafety

/-!
# The HTTP client is a decoder

Between two steps, the cookie of a request knows where in the response the
bytes begin that are buffered.  So it determines what the decoder makes of
these bytes and those which have not come yet; and this is what the decoder
makes of the whole stream, however the bytes arrive.
-/

namespace Libcperciva.Http.HttpRefines

open Libcperciva.Lib.Lines
open Libcperciva.Lib.Postcondition
open Libcperciva.Util.Cstring
open Libcperciva.Util.SizeT
open Libcperciva.Network.ReadModel
open Libcperciva.Netbuf.ReadModel
open Libcperciva.Netbuf.ReadOps
open Libcperciva.Http.HttpModel
open Libcperciva.Http.HttpOps
open Libcperciva.Http.HttpHeaders
open Libcperciva.Http.HttpChunk
open Libcperciva.Http.HttpSafety
open Libcperciva.Http.HttpDecoder

variable {overflow : Int → Int} {maxrlen : Nat} {H : HttpCookie}
  {env : CallEnv} {function : HttpCallback} {x : List UInt8}
  {d : Verdict} {why : Rejection}

/-! ## What a cookie knows -/

/-- The body so far. -/
def got (H : HttpCookie) : List UInt8 := H.res.body.take H.res.bodylen

/-- The status and the headers. -/
def headOf (H : HttpCookie) : Head :=
  ⟨H.res.status, H.res.nheaders, H.res.headers⟩

/-- The settings of the request. -/
def settingsOf (overflow : Int → Int) (H : HttpCookie) : Settings :=
  ⟨H.reqIshead, H.resBodylenMax, overflow⟩

/-- What a function is there to make of bytes. -/
def decodeFrom (overflow : Int → Int) (H : HttpCookie) (s : List UInt8) :
    HttpCallback → Verdict
  | .readHeader => decode (settingsOf overflow H) s
  | .readdata =>
      if H.chunked then
        decodeChunk H.resBodylenMax (headOf H) (got H) H.readlen s
      else decodeLength (headOf H) (got H) H.readlen s
  | .chunkedheader => decodeChunks H.resBodylenMax (headOf H) (got H) s
  | .readToeof => decodeToeof H.resBodylenMax (headOf H) (got H) s

/-- The verdict as long as the bytes are not there which a function waits
for. -/
def undecided (H : HttpCookie) : HttpCallback → Verdict
  | .readToeof => .untilEof ((headOf H).withBody (got H))
  | .readdata =>
      if H.chunked then withinChunk H.resBodylenMax (got H) H.readlen
      else .more
  | _ => .more

theorem undecided_readdata (H : HttpCookie) :
    undecided H .readdata = .more ∨ undecided H .readdata = .exceeds := by
  unfold undecided withinChunk
  split_ifs
  · exact Or.inr rfl
  · exact Or.inl rfl
  · exact Or.inl rfl

/-- The functions do not look at the reader for this. -/
@[simp]
theorem decodeFrom_reader (R : NetbufRead HttpCallback) (s : List UInt8) :
    decodeFrom overflow { H with R } s function =
      decodeFrom overflow H s function := by
  cases function <;> rfl

/-- What has been done with the bytes so far. -/
structure InOrder (H : HttpCookie) (function : HttpCallback) : Prop where
  body : H.res.bodylen ≤ H.res.body.length
  scanned : function = .readHeader → ∀ j < H.hepos,
    j + 4 ≤ (netbufReadPeek H.R).length ∧
      ¬ OccursAt endOfHeaders (netbufReadPeek H.R) j

/-- Fewer bytes than those which are waited for decide nothing. -/
def Patient (overflow : Int → Int) (H : HttpCookie)
    (function : HttpCallback) (len : Nat) : Prop :=
  ∀ y, (netbufReadPeek H.R ++ y).length < len →
    decodeFrom overflow H (netbufReadPeek H.R ++ y) function =
      undecided H function

theorem InOrder.length_got (order : InOrder H function) :
    (got H).length = H.res.bodylen :=
  List.length_take_of_le order.body

/-- The scanned bytes stay the same when more arrive. -/
theorem InOrder.arrived (order : InOrder H function)
    {R : NetbufRead HttpCallback} {bytes : List UInt8}
    (peek : netbufReadPeek R = netbufReadPeek H.R ++ bytes) :
    InOrder { H with R } function := by
  refine ⟨order.body, fun isHeader j before => ?_⟩
  obtain ⟨fits, absent⟩ := order.scanned isHeader j before
  change j + 4 ≤ (netbufReadPeek R).length ∧
    ¬ OccursAt endOfHeaders (netbufReadPeek R) j
  rw [peek, List.length_append]
  exact ⟨Nat.le_add_right_of_le fits, fun occurs =>
    absent (occurs.of_append fits)⟩

/-! ## Calls -/

/-- The state after a call: of the bytes that are buffered and those which
follow, the client will make what the decoder makes of them. -/
def Continues (overflow : Int → Int) (x : List UInt8) (d : Verdict)
    (why : Rejection) : RequestState → Prop
  | .calling (.callback function status) H =>
      status = 0 ∧ InOrder H function ∧
        d = decodeFrom overflow H (netbufReadPeek H.R ++ x) function
  | .calling (.gotheaders buflen) H =>
      H.res.bodylen ≤ H.res.body.length ∧
        buflen = indexOf endOfHeaders (netbufReadPeek H.R) + 4 ∧
        buflen ≤ MAXHDR + 1 ∧
        d = decodeFrom overflow H (netbufReadPeek H.R ++ x) .readHeader
  | .waiting H =>
      ∃ function len C, Awaits H.R function len C ∧ InOrder H function ∧
        Patient overflow H function len ∧ pendingBytes H.R = [] ∧
        d = decodeFrom overflow H (netbufReadPeek H.R ++ x) function
  | .died => False
  | .responded none => d = .rejects why
  | .responded (some response) => d = .delivers response

/-- How a call ends.  The client may find that a chunk is too large before all
of it is there. -/
def Decodes (overflow : Int → Int) (x : List UInt8) (d : Verdict)
    (why : Rejection) : Except HttpAssert Next → Prop :=
  Ensures (fun _ => d = .aborts ∨ d = .exceeds) fun next =>
    Continues overflow x d why next.state

/-- The allocations of a call succeed. -/
structure Provides (overflow : Int → Int) (env : CallEnv) : Prop where
  resHead : env.resHead = true
  headers : env.headers = true
  realloc : env.realloc = true
  wait : Succeed env.wait
  overflow_eq : env.overflow = overflow

theorem fail_decodes (rejects : d = .rejects why) :
    Decodes overflow x d why fail := rejects

theorem docallback_decodes
    (delivers : d = .delivers ((headOf H).withBody (got H)))
    (body : H.res.bodylen ≤ H.res.body.length) :
    Decodes overflow x d why (docallback H) := by
  refine delivers.trans ?_
  unfold Head.withBody
  rw [show (got H).length = H.res.bodylen from List.length_take_of_le body]
  rfl

theorem toobig_decodes (delivers : d = .delivers (headOf H).tooBig) :
    Decodes overflow x d why (toobig H) := by
  refine delivers.trans ?_
  rfl

theorem waitFor_decodes {len : Nat} {allocs : WaitAllocs}
    (ready : Ready H.R) (succeed : Succeed allocs)
    (order : InOrder H function)
    (short : (netbufReadPeek H.R).length < len) (small : len ≤ 1024 * 1024)
    (patient : Patient overflow H function len)
    (isFrom : d = decodeFrom overflow H (netbufReadPeek H.R ++ x) function) :
    Decodes overflow x d why (waitFor allocs H len function) := by
  cases waitFor_spec ready allocs short small with
  | inl dies => exact absurd succeed dies.2
  | inr waits =>
      obtain ⟨R, C, result, awaits, peek, nothing⟩ := waits
      rw [result]
      refine ⟨function, len, C, awaits, ?_, ?_, nothing, ?_⟩
      · apply order.arrived
        rw [List.append_nil]
        exact peek
      · intro y fewer
        change decodeFrom overflow { H with R } (netbufReadPeek R ++ y)
          function = undecided H function
        rw [decodeFrom_reader, peek]
        apply patient
        rw [← peek]
        exact fewer
      · change d = decodeFrom overflow { H with R } (netbufReadPeek R ++ x)
          function
        rw [decodeFrom_reader, peek]
        exact isFrom

/-! ## Headers -/

theorem eq_nil_of_length_append_lt_succ {s y : List UInt8}
    (fewer : (s ++ y).length < s.length + 1) : y = [] := by
  rw [List.length_append] at fewer
  exact List.eq_nil_of_length_eq_zero (by omega)

/-- The scan finds what the decoder finds. -/
theorem scanHeaders_indexOf (buf : List UInt8) (hepos : Nat)
    (scanned : ∀ j < hepos,
      j + 4 ≤ buf.length ∧ ¬ OccursAt endOfHeaders buf j) :
    (∀ j < scanHeaders buf buf.length hepos,
      j + 4 ≤ buf.length ∧ ¬ OccursAt endOfHeaders buf j) ∧
    (scanHeaders buf buf.length hepos + 4 ≤ buf.length →
      indexOf endOfHeaders buf = scanHeaders buf buf.length hepos) ∧
    (¬ scanHeaders buf buf.length hepos + 4 ≤ buf.length →
      ¬ indexOf endOfHeaders buf < buf.length) := by
  obtain ⟨_, none, found⟩ := scanHeaders_spec buf buf.length hepos
    (Nat.le_add_left _ _)
  generalize scanHeaders buf buf.length hepos = pos at none found ⊢
  have before : ∀ j < pos,
      j + 4 ≤ buf.length ∧ ¬ OccursAt endOfHeaders buf j := by
    intro j less
    by_cases old : j < hepos
    · exact scanned j old
    · exact none j (not_lt.mp old) less
  refine ⟨before, fun fits => ?_, fun missing inside => ?_⟩
  · apply indexOf_eq (found fits) (List.cons_ne_nil _ _)
    intro j occurs
    by_contra less
    exact (before j (not_le.mp less)).2 occurs
  · have occurs := occursAt_indexOf inside
    have fits : indexOf endOfHeaders buf + 4 ≤ buf.length :=
      occurs.inside (List.cons_ne_nil _ _)
    exact (before _ (by omega)).2 occurs

/-- If the headers have ended, they have done so within the limit. -/
def HeadersInTime (H : HttpCookie) : Prop :=
  indexOf endOfHeaders (netbufReadPeek H.R) < (netbufReadPeek H.R).length →
    indexOf endOfHeaders (netbufReadPeek H.R) + 4 ≤ MAXHDR + 1

theorem callbackReadHeader_decodes (provides : Provides overflow env)
    (ready : Ready H.R) (order : InOrder H .readHeader)
    (inTime : HeadersInTime H) :
    Decodes overflow x
      (decodeFrom overflow H (netbufReadPeek H.R ++ x) .readHeader) .tooLong
      (callbackReadHeader env 0 H) := by
  obtain ⟨before, found, missing⟩ := scanHeaders_indexOf (netbufReadPeek H.R)
    H.hepos (order.scanned rfl)
  unfold callbackReadHeader
  rw [if_neg (not_not_intro rfl)]
  dsimp only
  generalize scanHeaders (netbufReadPeek H.R) (netbufReadPeek H.R).length
    H.hepos = hepos at before found missing ⊢
  have kept : InOrder { H with hepos } .readHeader :=
    ⟨order.body, fun _ => before⟩
  refine Ensures.ite (fun fits => ?_) fun unfound => ?_
  · have atPos := found fits
    refine ⟨order.body, congrArg (· + 4) atPos.symm, ?_, rfl⟩
    rw [← atPos]
    apply inTime
    omega
  · have nowhere := missing unfound
    refine Ensures.ite (fun long => ?_) fun small => ?_
    · exact fail_decodes (decode_tooLong nowhere long)
    · change ¬ (netbufReadPeek H.R).length > 65536 at small
      refine waitFor_decodes (H := { H with hepos }) ready provides.wait kept
        (Nat.lt_succ_self _) (by omega) (fun y fewer => ?_) rfl
      rw [eq_nil_of_length_append_lt_succ fewer, List.append_nil]
      exact decode_missing nowhere (Nat.not_lt.mp small)

/-- What is done with the headers of a final response that has a body. -/
def readFramed (H : HttpCookie) : Framing → Except HttpAssert Next
  | .chunked =>
      .ok (.calls (.callback .chunkedheader 0) { H with chunked := true })
  | .length len => getBodyGotclen H len
  | .invalid => fail
  | .untilEof => .ok (.calls (.callback .readToeof 0) H)

theorem handleHeaders_final
    (length : H.res.headers.length = H.res.nheaders)
    (final : ¬ (100 ≤ H.res.status ∧ H.res.status ≤ 199))
    (hasBody : ¬ (settingsOf overflow H).Bodiless H.res.status) :
    handleHeaders H = readFramed H (framing H.res.headers) := by
  have bodied : ¬ (H.reqIshead = true ∨ H.res.status = 204 ∨
      H.res.status = 304) := hasBody
  unfold handleHeaders framing
  rw [if_neg final, if_neg bodied, httpFindheader_ok length,
    httpFindheader_ok length]
  change (if (findValue H.res.headers transferEncoding).any
    (strstr · chunkedString) = true then _ else
      (Except.ok (findValue H.res.headers contentLength) >>= _)) = _
  split_ifs with chunked
  · rfl
  · dsimp only [bind, Except.bind]
    cases findValue H.res.headers contentLength with
    | none => rfl
    | some clen =>
        dsimp only
        cases parsenumUnsigned clen 0 SIZE_MAX SIZE_MAX 10 false <;> rfl

theorem got_of_empty (empty : H.res.bodylen = 0) : got H = [] := by
  unfold got
  rw [empty]
  rfl

theorem readFramed_decodes {by_ : Framing} (empty : H.res.bodylen = 0) :
    Decodes overflow x
      (decodeFramed H.resBodylenMax (headOf H) (netbufReadPeek H.R ++ x) by_)
      .malformed (readFramed H by_) := by
  have nothing := got_of_empty empty
  have held : H.res.bodylen ≤ H.res.body.length := by
    rw [empty]
    exact Nat.zero_le _
  cases by_ with
  | chunked =>
      refine ⟨rfl, ⟨held, nofun⟩, ?_⟩
      change _ = decodeChunks H.resBodylenMax (headOf H) (got H) _
      rw [nothing]
      rfl
  | length len =>
      unfold readFramed getBodyGotclen
      refine Ensures.ite (fun tooBig => ?_) fun fits => ?_
      · exact toobig_decodes (if_pos tooBig)
      · refine ⟨rfl, ⟨held, nofun⟩, (if_neg fits).trans ?_⟩
        change _ = decodeLength (headOf H) (got H) len _
        rw [nothing]
  | invalid => exact fail_decodes rfl
  | untilEof =>
      refine ⟨rfl, ⟨held, nofun⟩, ?_⟩
      change _ = decodeToeof H.resBodylenMax (headOf H) (got H) _
      rw [nothing]
      rfl

theorem handleHeaders_decodes (empty : H.res.bodylen = 0)
    (rescan : H.hepos = 0)
    (length : H.res.headers.length = H.res.nheaders) :
    Decodes overflow x
      (decodeHead (settingsOf overflow H) (netbufReadPeek H.R ++ x)
        (some (H.res.status, H.res.headers)))
      .malformed (handleHeaders H) := by
  have held : H.res.bodylen ≤ H.res.body.length := by
    rw [empty]
    exact Nat.zero_le _
  by_cases informational : 100 ≤ H.res.status ∧ H.res.status ≤ 199
  · unfold handleHeaders
    rw [if_pos informational, decodeHead_informational informational]
    refine ⟨rfl, ⟨held, fun _ j before => ?_⟩, rfl⟩
    change j < H.hepos at before
    rw [rescan] at before
    exact absurd before (Nat.not_lt_zero j)
  · rw [decodeHead_final informational]
    unfold decodeBody
    by_cases bodiless : (settingsOf overflow H).Bodiless H.res.status
    · have noBody : H.reqIshead = true ∨ H.res.status = 204 ∨
          H.res.status = 304 := bodiless
      unfold handleHeaders
      rw [if_neg informational, if_pos noBody, if_pos bodiless, length]
      rfl
    · rw [handleHeaders_final length informational bodiless,
        if_neg bodiless, length]
      exact readFramed_decodes empty

theorem gotheaders_decodes {buflen : Nat}
    (provides : Provides overflow env) (ready : Ready H.R)
    (empty : H.res.bodylen = 0)
    (isFirst : buflen = indexOf endOfHeaders (netbufReadPeek H.R) + 4)
    (inTime : buflen ≤ MAXHDR + 1)
    (inside : buflen ≤ (netbufReadPeek H.R).length) :
    Decodes overflow x
      (decodeFrom overflow H (netbufReadPeek H.R ++ x) .readHeader)
      .malformed (gotheaders env buflen H) := by
  subst isFirst
  have found : indexOf endOfHeaders (netbufReadPeek H.R) <
      (netbufReadPeek H.R).length := by omega
  have same : indexOf endOfHeaders (netbufReadPeek H.R ++ x) =
      indexOf endOfHeaders (netbufReadPeek H.R) :=
    indexOf_append (List.cons_ne_nil _ _) found
  have foundLater : indexOf endOfHeaders (netbufReadPeek H.R ++ x) <
      (netbufReadPeek H.R ++ x).length := by
    rw [same, List.length_append]
    exact Nat.lt_add_right _ found
  obtain ⟨line, lines, head, areLines⟩ :=
    exists_headerLines (occursAt_indexOf found)
  have front : (netbufReadPeek H.R).take
      (indexOf endOfHeaders (netbufReadPeek H.R) + 2) =
        joinLines crlf (line :: lines) := by
    have cut := congrArg
      (List.take (indexOf endOfHeaders (netbufReadPeek H.R) + 2)) head
    rw [List.take_take, Nat.min_eq_left (Nat.add_le_add_left (by decide) _)]
      at cut
    have lengths := congrArg List.length head
    rw [List.length_take_of_le inside, List.length_append] at lengths
    change _ = _ + 2 at lengths
    rw [cut, List.take_left' (by omega)]
  have decoded : decodeFrom overflow H (netbufReadPeek H.R ++ x)
      .readHeader =
        decodeHead (settingsOf overflow H)
          ((netbufReadPeek H.R).drop
            (indexOf endOfHeaders (netbufReadPeek H.R) + 4) ++ x)
          (parseBlock overflow line lines) := by
    change decode (settingsOf overflow H) _ = _
    rw [decode_found foundLater (by rw [same]; exact inTime), same,
      List.take_append_of_le_length (by omega), front,
      splitLines_joinLines areLines, List.drop_append_of_le_length inside]
    rfl
  rw [decoded]
  cases gotheaders_lines ready env inside head areLines with
  | inl dies =>
      exact absurd ⟨provides.resHead, provides.headers⟩ dies.2
  | inr result =>
      obtain ⟨R, readyR, peek, result⟩ := result
      rw [result, provides.overflow_eq, ← peek]
      cases parsed : parseBlock overflow line lines with
      | none => exact fail_decodes rfl
      | some block =>
          obtain ⟨status, headers⟩ := block
          exact handleHeaders_decodes
            (H := { H with
              R
              resHead := joinLines crlf (line :: lines) ++ crlf
              hepos := 0
              res := { H.res with
                status, nheaders := lines.length, headers } })
            empty rfl (length_of_parseBlock parsed)

/-! ## Bodies -/

theorem growBody_provides (H : HttpCookie) (size : Nat) :
    ∃ resBodylenAlloc,
      growBody true H size = some { H with resBodylenAlloc } := by
  unfold growBody
  by_cases grows : size > H.resBodylenAlloc
  · rw [if_pos grows]
    exact ⟨_, rfl⟩
  · rw [if_neg grows]
    exact ⟨_, rfl⟩

/-- The cookie when bytes have been added to the body, and consumed. -/
def gaining (H : HttpCookie) (R : NetbufRead HttpCallback)
    (resBodylenAlloc : Nat) (buf : List UInt8) : HttpCookie :=
  { H with
    R
    resBodylenAlloc
    res := { H.res with
      body := H.res.body.take H.res.bodylen ++ buf
      bodylen := H.res.bodylen + buf.length } }

theorem gaining_spec {buf rest : List UInt8} (sound : Sound maxrlen H)
    (ready : Ready H.R) (order : InOrder H function)
    (split : netbufReadPeek H.R = buf ++ rest)
    (fits : H.res.bodylen + buf.length ≤ maxrlen) :
    ∃ R resBodylenAlloc, Ready R ∧ netbufReadPeek R = rest ∧
      got (gaining H R resBodylenAlloc buf) = got H ++ buf ∧
      (gaining H R resBodylenAlloc buf).res.bodylen ≤
        (gaining H R resBodylenAlloc buf).res.body.length ∧
      ∃ added, addbody true H buf = .ok (some added) ∧
        consume added buf.length = .ok (gaining H R resBodylenAlloc buf) := by
  have inside : buf.length ≤ (netbufReadPeek H.R).length := by
    rw [split, List.length_append]
    exact Nat.le_add_right _ _
  have limit : ¬ ¬ H.res.bodylen + buf.length ≤ H.resBodylenMax := by
    rw [sound.isMax]
    exact not_not_intro fits
  have size := sound.size
  obtain ⟨resBodylenAlloc, grown⟩ :=
    growBody_provides H (H.res.bodylen + buf.length)
  obtain ⟨R, consumed, readyR, peek⟩ := consume_spec
    (H := { H with
      resBodylenAlloc
      res := { H.res with
        body := H.res.body.take H.res.bodylen ++ buf
        bodylen := H.res.bodylen + buf.length } }) ready inside
  have total : (H.res.body.take H.res.bodylen ++ buf).length =
      H.res.bodylen + buf.length := by
    rw [List.length_append, List.length_take_of_le order.body]
  refine ⟨R, resBodylenAlloc, readyR, ?_, ?_, total.ge, _, ?_, consumed⟩
  · rw [peek]
    change (netbufReadPeek H.R).drop buf.length = rest
    rw [split, List.drop_left]
  · exact List.take_of_length_le total.le
  · unfold addbody
    dsimp only
    rw [sizeAdd_eq (by omega), if_neg limit, grown]
    rfl

/-- The body, and what has arrived of it, is in memory. -/
def InMemory (H : HttpCookie) : Prop :=
  H.res.bodylen + min H.readlen (netbufReadPeek H.R).length < 2 ^ 64

/-- What the decoder makes of the rest, once bytes have been added. -/
theorem decodeFrom_gaining {R : NetbufRead HttpCallback}
    {resBodylenAlloc : Nat} {buf y : List UInt8}
    (atMost : buf.length ≤ H.readlen)
    (gains : got (gaining H R resBodylenAlloc buf) = got H ++ buf) :
    decodeFrom overflow H (buf ++ y) .readdata =
      decodeFrom overflow { gaining H R resBodylenAlloc buf with
        readlen := H.readlen - buf.length } y .readdata := by
  have kept : got { gaining H R resBodylenAlloc buf with
      readlen := H.readlen - buf.length } = got H ++ buf := gains
  unfold decodeFrom
  rw [kept, decodeChunk_append atMost, decodeLength_append atMost]
  rfl

/-- At the end of a chunk, its EOL is stripped. -/
theorem decodeFrom_chunkDone {s : List UInt8} (chunked : H.chunked = true)
    (done : H.readlen = 0) (order : H.res.bodylen ≤ H.res.body.length)
    (fits : (got H).length ≤ H.resBodylenMax) :
    decodeFrom overflow H s .readdata =
      decodeFrom overflow { H with res := { H.res with
        bodylen := H.res.bodylen - 2 } } s .chunkedheader := by
  have stripped : got { H with res := { H.res with
      bodylen := H.res.bodylen - 2 } } =
        (got H).take ((got H).length - 2) := by
    unfold got
    rw [List.length_take_of_le order, List.take_take,
      Nat.min_eq_left (Nat.sub_le _ _)]
  have left : decodeFrom overflow H s .readdata =
      decodeChunks H.resBodylenMax (headOf H)
        ((got H).take ((got H).length - 2)) s := by
    unfold decodeFrom
    rw [if_pos chunked, done, decodeChunk_zero fits]
  rw [left, ← stripped]
  rfl

theorem decodeFrom_lengthDone {s : List UInt8}
    (notChunked : ¬ H.chunked = true) (done : H.readlen = 0) :
    decodeFrom overflow H s .readdata =
      .delivers ((headOf H).withBody (got H)) := by
  unfold decodeFrom decodeLength
  rw [if_neg notChunked, done, if_pos (Nat.zero_le _), List.take_zero,
    List.append_nil]

/-- Data that are not complete decide nothing. -/
theorem decodeFrom_dataShort {s : List UInt8} (short : s.length < H.readlen) :
    decodeFrom overflow H s .readdata = undecided H .readdata := by
  unfold decodeFrom decodeLength undecided
  rw [decodeChunk_short short, if_neg (Nat.not_le.mpr short)]

/-- The end of `callback_readdata`. -/
theorem dataRead_decodes (provides : Provides overflow env)
    (ready : Ready H.R) (held : H.res.bodylen ≤ H.res.body.length)
    (limit : (got H).length ≤ H.resBodylenMax)
    (consumed : H.readlen = 0 ∨ netbufReadPeek H.R = [])
    (hasEol : H.chunked = true → H.readlen = 0 → 2 ≤ H.res.bodylen)
    (size : H.res.bodylen < 2 ^ 64) :
    Decodes overflow x
      (decodeFrom overflow H (netbufReadPeek H.R ++ x) .readdata) .malformed
      (if H.readlen = 0 then
        if H.chunked then
          .ok (.calls (.callback .chunkedheader 0) { H with
            res := { H.res with bodylen := sizeSub H.res.bodylen 2 } })
        else docallback H
      else
        waitFor env.wait H
          (if H.readlen > 1024 * 1024 then 1024 * 1024 else H.readlen)
          .readdata) := by
  refine Ensures.ite (fun done => ?_) fun more => ?_
  · refine Ensures.ite (fun chunked => ?_) fun notChunked => ?_
    · rw [decodeFrom_chunkDone chunked done held limit,
        sizeSub_eq (hasEol chunked done) size]
      exact ⟨rfl, ⟨(Nat.sub_le _ _).trans held, nofun⟩, rfl⟩
    · rw [decodeFrom_lengthDone notChunked done]
      exact docallback_decodes rfl held
  · have nothing : netbufReadPeek H.R = [] := consumed.resolve_left more
    refine waitFor_decodes ready provides.wait ⟨held, nofun⟩ ?_ ?_
      (fun y fewer => ?_) rfl
    · rw [nothing]
      change 0 < _
      split_ifs <;> omega
    · split_ifs <;> omega
    · apply decodeFrom_dataShort
      refine Nat.lt_of_lt_of_le fewer ?_
      split_ifs <;> omega

theorem callbackReaddata_decodes (provides : Provides overflow env)
    (sound : Sound maxrlen H) (ready : Ready H.R)
    (expects : Expects maxrlen H .readdata) (order : InOrder H .readdata)
    (inMemory : InMemory H) :
    Decodes overflow x
      (decodeFrom overflow H (netbufReadPeek H.R ++ x) .readdata) .malformed
      (callbackReaddata env 0 H) := by
  have size := sound.size
  have isMax := sound.isMax
  have isGot := order.length_got
  have length : ((netbufReadPeek H.R).take H.readlen).length =
      min H.readlen (netbufReadPeek H.R).length := List.length_take
  unfold InMemory at inMemory
  unfold Expects at expects
  unfold callbackReaddata
  rw [if_neg (not_not_intro rfl), provides.realloc]
  dsimp only
  by_cases fits : H.res.bodylen +
      ((netbufReadPeek H.R).take H.readlen).length ≤ maxrlen
  · obtain ⟨R, resBodylenAlloc, readyR, peek, gains, held, added, isAdded,
      consumed⟩ := gaining_spec sound ready order
        (List.take_append_drop H.readlen _).symm fits
    have small : H.readlen < 2 ^ 64 := by
      by_cases chunked : H.chunked = true
      · rw [if_pos chunked] at expects
        exact expects.size
      · rw [if_neg chunked] at expects
        omega
    have split : netbufReadPeek H.R ++ x =
        (netbufReadPeek H.R).take H.readlen ++ (netbufReadPeek R ++ x) := by
      rw [peek, ← List.append_assoc, List.take_append_drop]
    have rest := congrArg List.length peek
    rw [List.length_drop] at rest
    have limit : (got (gaining H R resBodylenAlloc
        ((netbufReadPeek H.R).take H.readlen))).length ≤ H.resBodylenMax := by
      rw [gains, List.length_append, isGot, isMax]
      exact fits
    generalize isBuf : (netbufReadPeek H.R).take H.readlen = buf at *
    have atMost : buf.length ≤ H.readlen := by omega
    rw [isAdded]
    change Decodes _ _ _ _ (consume added _ >>= _)
    rw [consumed, split, decodeFrom_gaining atMost gains]
    have left : sizeSub (gaining H R resBodylenAlloc buf).readlen buf.length =
        H.readlen - buf.length := sizeSub_eq atMost small
    change Decodes _ _ _ _ (if sizeSub (gaining H R resBodylenAlloc
      buf).readlen buf.length = 0 then _ else _)
    rw [left]
    refine dataRead_decodes (H := { gaining H R resBodylenAlloc buf with
      readlen := H.readlen - buf.length }) provides readyR held limit ?_ ?_
      (Nat.lt_of_le_of_lt fits size)
    · by_cases done : H.readlen - buf.length = 0
      · exact Or.inl done
      · refine Or.inr (List.eq_nil_of_length_eq_zero ?_)
        change (netbufReadPeek R).length = 0
        omega
    · intro chunked done
      change H.chunked = true at chunked
      change H.readlen - buf.length = 0 at done
      change 2 ≤ H.res.bodylen + buf.length
      rw [if_pos chunked] at expects
      have hasEol := expects.hasEol
      omega
  · have chunked : H.chunked = true := by
      by_contra notChunked
      rw [if_neg notChunked] at expects
      omega
    have fails : addbody true H ((netbufReadPeek H.R).take H.readlen) =
        .error .addbody := by
      unfold addbody
      dsimp only
      rw [length, sizeAdd_eq inMemory, isMax, ← length, if_pos fits]
    rw [fails]
    change decodeFrom overflow H (netbufReadPeek H.R ++ x) .readdata =
      .aborts ∨ _
    unfold decodeFrom
    rw [if_pos chunked]
    apply decodeChunk_tooMuch
    rw [isGot, isMax]
    omega

/-- If the header line of a chunk has ended, it has done so within the limit,
and it is not blank. -/
def LineInTime (H : HttpCookie) : Prop :=
  findeol (netbufReadPeek H.R) < (netbufReadPeek H.R).length →
    findeol (netbufReadPeek H.R) + 2 ≤ MAXCHLEN ∧
      ∃ b ∈ (netbufReadPeek H.R).take (findeol (netbufReadPeek H.R)),
        isspace b = false

/-- Why a header line is rejected. -/
def lineReason (H : HttpCookie) : Rejection :=
  if findeol (netbufReadPeek H.R) < (netbufReadPeek H.R).length then
    .malformed
  else .tooLong

theorem decided_decodes {clen eol : Nat} (sound : Sound maxrlen H)
    (ready : Ready H.R) (chunked : H.chunked = true)
    (held : H.res.bodylen ≤ H.res.body.length)
    (inside : eol + 2 ≤ (netbufReadPeek H.R).length) :
    Decodes overflow x
      (decodeSized H.resBodylenMax (headOf H) (got H)
        ((netbufReadPeek H.R).drop (eol + 2) ++ x) clen)
      why (decided (some (clen, eol + 2)) H) := by
  have isGot : (got H).length = H.res.bodylen :=
    List.length_take_of_le held
  have bodylen := sound.bodylen
  rw [← sound.isMax] at bodylen
  have size := sound.size
  rw [← sound.isMax] at size
  obtain ⟨R, consumed, readyR, peek⟩ := consume_spec ready inside
  have rest : sizeSub H.resBodylenMax H.res.bodylen =
      H.resBodylenMax - (got H).length := by
    rw [isGot]
    exact sizeSub_eq bodylen size
  unfold decided decodeSized
  dsimp only
  rw [consumed, ← peek]
  change Decodes _ _ _ _ (if clen = 0 then docallback _
    else if clen > sizeSub H.resBodylenMax H.res.bodylen then toobig _ else _)
  rw [rest]
  by_cases isZero : clen = 0
  · rw [if_pos isZero, if_pos isZero]
    exact docallback_decodes (H := { H with R }) rfl held
  · rw [if_neg isZero, if_neg isZero]
    by_cases limit : clen > H.resBodylenMax - (got H).length
    · rw [if_pos limit, if_pos limit]
      exact toobig_decodes (H := { H with R }) rfl
    · rw [if_neg limit, if_neg limit]
      by_cases wraps : clen > SIZE_MAX - 2
      · rw [if_pos wraps, if_pos wraps]
        exact toobig_decodes (H := { H with R }) rfl
      · have small : clen + 2 < 2 ^ 64 := by
          change ¬ clen > 2 ^ 64 - 1 - 2 at wraps
          omega
        rw [if_neg wraps, if_neg wraps, sizeAdd_eq small]
        refine ⟨rfl, ⟨held, nofun⟩, ?_⟩
        unfold decodeFrom
        dsimp only
        rw [if_pos chunked]
        rfl

theorem callbackChunkedheader_decodes (provides : Provides overflow env)
    (sound : Sound maxrlen H) (ready : Ready H.R)
    (chunked : H.chunked = true) (order : InOrder H .chunkedheader)
    (inTime : LineInTime H) :
    Decodes overflow x
      (decodeFrom overflow H (netbufReadPeek H.R ++ x) .chunkedheader)
      (lineReason H) (callbackChunkedheader env 0 H) := by
  by_cases found :
      findeol (netbufReadPeek H.R) < (netbufReadPeek H.R).length
  · obtain ⟨short, notBlank⟩ := inTime found
    obtain ⟨rest, split, isLine⟩ := exists_line crlf_ne_nil found
    have inside : findeol (netbufReadPeek H.R) + 2 ≤
        (netbufReadPeek H.R).length :=
      (occursAt_indexOf found).inside crlf_ne_nil
    have same : findeol (netbufReadPeek H.R ++ x) =
        findeol (netbufReadPeek H.R) := indexOf_append crlf_ne_nil found
    have foundLater : findeol (netbufReadPeek H.R ++ x) <
        (netbufReadPeek H.R ++ x).length := by
      rw [same, List.length_append]
      exact Nat.lt_add_right _ found
    have line : (netbufReadPeek H.R ++ x).take
        (findeol (netbufReadPeek H.R ++ x)) =
          (netbufReadPeek H.R).take (findeol (netbufReadPeek H.R)) := by
      rw [same, List.take_append_of_le_length found.le]
    have decoded := @decodeChunks_found H.resBodylenMax (headOf H)
      (got H) (netbufReadPeek H.R ++ x) foundLater (same.symm ▸ short)
      (line.symm ▸ notBlank)
    change decodeFrom overflow H _ .chunkedheader = _ at decoded
    have isShort : ((netbufReadPeek H.R).take
        (findeol (netbufReadPeek H.R))).length =
          findeol (netbufReadPeek H.R) := List.length_take_of_le found.le
    have reason : lineReason H = .malformed := if_pos found
    rw [callbackChunkedheader_line isLine notBlank env ⟨rest, split⟩, reason,
      decoded, line, same, List.drop_append_of_le_length inside]
    change Decodes _ _ _ _ (decided (lineDecision ((netbufReadPeek H.R).take
      (findeol (netbufReadPeek H.R)))) H)
    unfold lineDecision
    rw [isShort]
    cases parsenumUnsigned ((netbufReadPeek H.R).take
        (findeol (netbufReadPeek H.R))) 0 SIZE_MAX SIZE_MAX 16 true with
    | none => exact fail_decodes rfl
    | some clen => exact decided_decodes sound ready chunked order.body inside
  · have missing : ¬ findeol (netbufReadPeek H.R) ≠
        (netbufReadPeek H.R).length := by
      have atMost : findeol (netbufReadPeek H.R) ≤
          (netbufReadPeek H.R).length := indexOf_le _ _
      omega
    have reason : lineReason H = .tooLong := if_neg found
    unfold callbackChunkedheader
    rw [if_neg (not_not_intro rfl), reason]
    dsimp only
    rw [if_neg missing]
    refine Ensures.ite (fun long => ?_) fun small => ?_
    · exact fail_decodes (decodeChunks_tooLong found long)
    · change ¬ (netbufReadPeek H.R).length ≥ 256 at small
      refine waitFor_decodes ready provides.wait order
        (Nat.lt_succ_self _) (by omega) (fun y fewer => ?_) rfl
      rw [eq_nil_of_length_append_lt_succ fewer, List.append_nil]
      exact decodeChunks_missing found (not_le.mp small)

theorem callbackReadToeof_decodes (provides : Provides overflow env)
    (sound : Sound maxrlen H) (ready : Ready H.R)
    (order : InOrder H .readToeof) :
    Decodes overflow x
      (decodeFrom overflow H (netbufReadPeek H.R ++ x) .readToeof) .malformed
      (callbackReadToeof env 0 H) := by
  have isGot := order.length_got
  have isMax := sound.isMax
  have bodylen := sound.bodylen
  have size := sound.size
  have rest : sizeSub H.resBodylenMax H.res.bodylen =
      H.resBodylenMax - (got H).length := by
    rw [isGot, isMax]
    exact sizeSub_eq bodylen size
  unfold callbackReadToeof
  rw [if_neg (by decide), if_neg (by decide)]
  dsimp only
  rw [rest, provides.realloc]
  refine Ensures.ite (fun tooMuch => ?_) fun fits => ?_
  · apply toobig_decodes
    refine if_pos (Nat.lt_of_lt_of_le tooMuch ?_)
    rw [List.length_append]
    exact Nat.le_add_right _ _
  · rw [isGot, isMax] at fits
    obtain ⟨R, resBodylenAlloc, readyR, peek, gains, held, added, isAdded,
      consumed⟩ := gaining_spec sound ready order
        (List.append_nil (netbufReadPeek H.R)).symm (by omega)
    rw [isAdded]
    change Decodes _ _ _ _ (consume added _ >>= _)
    rw [consumed]
    change Decodes _ _ _ _ (waitFor env.wait _ 1 .readToeof)
    have same (s : List UInt8) : decodeFrom overflow H
        (netbufReadPeek H.R ++ s) .readToeof =
          decodeFrom overflow (gaining H R resBodylenAlloc
            (netbufReadPeek H.R)) s .readToeof := by
      unfold decodeFrom
      rw [gains, decodeToeof_append (by rw [isGot, isMax]; omega)]
      rfl
    refine waitFor_decodes (H := gaining H R resBodylenAlloc
      (netbufReadPeek H.R)) readyR provides.wait ⟨held, nofun⟩ ?_ (by decide)
      (fun y fewer => ?_) ?_
    · change (netbufReadPeek R).length < 1
      rw [peek]
      exact Nat.zero_lt_one
    · have nothing := List.eq_nil_of_length_eq_zero
        (Nat.lt_one_iff.mp fewer)
      rw [nothing]
      exact decodeToeof_nil
    · rw [same]
      change _ = decodeFrom overflow _ (netbufReadPeek R ++ x) .readToeof
      rw [peek]
      rfl

end Libcperciva.Http.HttpRefines
