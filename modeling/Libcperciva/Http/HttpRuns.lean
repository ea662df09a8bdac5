import Libcperciva.Http.HttpRefines

/-!
# Runs of a request

From the time when the request was sent until the callback is invoked, the
state of a request and the bytes which have not come yet determine the verdict
on the response.  So the callback is given what the decoder makes of the whole
stream, in whatever portions the stream arrives.
-/

namespace Libcperciva.Http.HttpRuns

open Libcperciva.Lib.Lines
open Libcperciva.Lib.Postcondition
open Libcperciva.Util.Cstring
open Libcperciva.Util.SizeT
open Libcperciva.Network.ReadModel
open Libcperciva.Netbuf.ReadModel
open Libcperciva.Netbuf.ReadOps
open Libcperciva.Http.HttpModel
open Libcperciva.Http.HttpOps
open Libcperciva.Http.HttpHeaders
open Libcperciva.Http.HttpSafety
open Libcperciva.Http.HttpDecoder
open Libcperciva.Http.HttpRefines

variable {overflow : Int → Int} {maxrlen : Nat} {H : HttpCookie}
  {env : CallEnv} {function : HttpCallback} {d : Verdict} {why : Rejection}

/-! ## Streams -/

/-- The bytes which are still to come, and whether the stream ends behind
them. -/
structure Stream where
  bytes : List UInt8
  ended : Bool

/-- Nothing has come. -/
def Stream.empty : Stream := ⟨[], false⟩

/-- The verdict on a stream, given the one on its bytes. -/
def Stream.close (stream : Stream) (verdict : Verdict) : Verdict :=
  if stream.ended then verdict.atEof else verdict

/-- The stream before an action. -/
def prepend (action : Action) (stream : Stream) : Stream :=
  match action with
  | .readable (.data bytes) _ => { stream with bytes := bytes ++ stream.bytes }
  | .readable .eof _ => ⟨[], true⟩
  | _ => stream

/-- What arrives in a run. -/
def streamOf (actions : List Action) : Stream :=
  actions.foldr prepend Stream.empty

variable {stream : Stream} {v : Verdict} {state next : RequestState}
  {action : Action}

/-- The verdict on the stream is what the request is going to find out. -/
def Foretells (overflow : Int → Int) (stream : Stream) (v : Verdict) :
    RequestState → Prop
  | .calling (.callback function status) H =>
      InOrder H function ∧
        (status = 0 ∧ v = stream.close (decodeFrom overflow H
            (netbufReadPeek H.R ++ stream.bytes) function) ∨
          status = 1 ∧ v = (undecided H function).atEof)
  | .calling (.gotheaders buflen) H =>
      H.res.bodylen ≤ H.res.body.length ∧
        buflen = indexOf endOfHeaders (netbufReadPeek H.R) + 4 ∧
        buflen ≤ MAXHDR + 1 ∧
        v = stream.close (decodeFrom overflow H
          (netbufReadPeek H.R ++ stream.bytes) .readHeader)
  | .waiting H =>
      ∃ function len C, Awaits H.R function len C ∧ InOrder H function ∧
        Patient overflow H function len ∧
        v = stream.close (decodeFrom overflow H
          (netbufReadPeek H.R ++ (pendingBytes H.R ++ stream.bytes)) function)
  | .died => False
  | .responded none => ∃ why, v = .rejects why
  | .responded (some response) => v = .delivers response

theorem close_rejects : stream.close (.rejects why) = .rejects why := by
  unfold Stream.close
  split_ifs <;> rfl

theorem close_delivers (response : HttpResponse) :
    stream.close (.delivers response) = .delivers response := by
  unfold Stream.close
  split_ifs <;> rfl

theorem close_undetermined :
    stream.close .undetermined = .undetermined := by
  unfold Stream.close
  split_ifs <;> rfl

theorem Continues.foretells
    (continues : Continues overflow stream.bytes d why state) :
    Foretells overflow stream (stream.close d) state := by
  cases state with
  | calling call H =>
      cases call with
      | callback function status =>
          obtain ⟨isZero, order, isFrom⟩ := continues
          exact ⟨order, Or.inl ⟨isZero, congrArg _ isFrom⟩⟩
      | gotheaders buflen =>
          obtain ⟨held, isFirst, inTime, isFrom⟩ := continues
          exact ⟨held, isFirst, inTime, congrArg _ isFrom⟩
  | waiting H =>
      obtain ⟨function, len, C, awaits, order, patient, nothing, isFrom⟩ :=
        continues
      refine ⟨function, len, C, awaits, order, patient, ?_⟩
      rw [nothing]
      exact congrArg _ isFrom
  | died => exact continues
  | responded response =>
      cases response with
      | none => exact ⟨why, (congrArg _ continues).trans close_rejects⟩
      | some response => exact (congrArg _ continues).trans (close_delivers _)

/-- The verdicts with which the client may abort: a chunk and its EOL are
larger than what the limit leaves for them. -/
def MayAbort (v : Verdict) : Prop :=
  v = .aborts ∨ v = .exceeds ∨ v = .rejects .overrun

theorem MayAbort.close (aborts : d = .aborts ∨ d = .exceeds) :
    MayAbort (stream.close d) := by
  unfold Stream.close
  rcases aborts with rfl | rfl
  · split_ifs
    · exact Or.inl rfl
    · exact Or.inl rfl
  · split_ifs
    · exact Or.inr (Or.inr rfl)
    · exact Or.inr (Or.inl rfl)

/-! ## Limits -/

/-- The limits are kept, and the header line of a chunk is not blank. -/
structure Legible (v : Verdict) : Prop where
  short : v ≠ .rejects .tooLong
  determined : v ≠ .undetermined

/-- Headers that can be found, but not within the limit, are too long. -/
theorem headersInTime {x : List UInt8}
    (short : decode (settingsOf overflow H) (netbufReadPeek H.R ++ x) ≠
      .rejects .tooLong) : HeadersInTime H := by
  intro found
  by_contra late
  apply short
  have same : indexOf endOfHeaders (netbufReadPeek H.R ++ x) =
      indexOf endOfHeaders (netbufReadPeek H.R) :=
    indexOf_append (List.cons_ne_nil _ _) found
  have inside : indexOf endOfHeaders (netbufReadPeek H.R) + 4 ≤
      (netbufReadPeek H.R).length :=
    (occursAt_indexOf found).inside (List.cons_ne_nil _ _)
  have longer : MAXHDR < (netbufReadPeek H.R ++ x).length := by
    rw [List.length_append]
    omega
  rw [decode]
  rw [same, if_neg (fun both => late both.2), if_pos longer]

/-- The same holds of the header line of a chunk. -/
theorem lineInTime {x : List UInt8} {max : Nat} {head : Head}
    {body : List UInt8}
    (legible : Legible (decodeChunks max head body
      (netbufReadPeek H.R ++ x))) : LineInTime H := by
  intro found
  have same : findeol (netbufReadPeek H.R ++ x) =
      findeol (netbufReadPeek H.R) := indexOf_append crlf_ne_nil found
  have inside : findeol (netbufReadPeek H.R) + 2 ≤
      (netbufReadPeek H.R).length :=
    (occursAt_indexOf found).inside crlf_ne_nil
  have foundLater : findeol (netbufReadPeek H.R) <
      (netbufReadPeek H.R ++ x).length := by
    rw [List.length_append]
    omega
  have short : findeol (netbufReadPeek H.R) + 2 ≤ MAXCHLEN := by
    by_contra late
    apply legible.short
    have longer : MAXCHLEN ≤ (netbufReadPeek H.R ++ x).length := by
      rw [List.length_append]
      omega
    rw [decodeChunks]
    dsimp only
    rw [same, if_neg (fun both => late both.2), if_pos longer]
  refine ⟨short, ?_⟩
  by_contra blank
  apply legible.determined
  have allBlank : ((netbufReadPeek H.R).take
      (findeol (netbufReadPeek H.R))).all isspace = true := by
    rw [List.all_eq_true]
    intro b member
    by_contra notSpace
    exact blank ⟨b, member, Bool.eq_false_iff.mpr notSpace⟩
  rw [decodeChunks]
  dsimp only
  rw [same, if_pos ⟨foundLater, short⟩,
    List.take_append_of_le_length found.le, if_pos allBlank]

theorem Legible.of_close (legible : Legible (stream.close d)) :
    Legible d := by
  constructor
  · rintro rfl
    exact legible.short close_rejects
  · rintro rfl
    exact legible.determined close_undetermined

/-! ## Steps -/

/-- Nothing fails that a step calls. -/
def Succeeds (overflow : Int → Int) : Action → Prop
  | .call env => Provides overflow env
  | .readable recv registered => recv ≠ .error ∧ registered = true
  | .immediate => True

/-- Why a call rejects a response. -/
def reason (function : HttpCallback) (H : HttpCookie) : Rejection :=
  match function with
  | .readHeader => .tooLong
  | .chunkedheader => lineReason H
  | _ => .malformed

/-- What is buffered is in memory together with the body. -/
theorem inMemory (sound : Sound maxrlen H) (ready : Ready H.R)
    (size : maxrlen + maxBuffer < 2 ^ 64) : InMemory H := by
  have length := ready.length_peek
  have bodylen := sound.bodylen
  unfold InMemory
  omega

theorem callback_decodes {x : List UInt8} (provides : Provides overflow env)
    (size : maxrlen + maxBuffer < 2 ^ 64)
    (invariant : HttpSafety.Invariant maxrlen
      (.calling (.callback function 0) H))
    (order : InOrder H function)
    (legible : Legible (decodeFrom overflow H (netbufReadPeek H.R ++ x)
      function)) :
    Decodes overflow x
      (decodeFrom overflow H (netbufReadPeek H.R ++ x) function)
      (reason function H) (perform env H (.callback function 0)) := by
  obtain ⟨sound, ready, expects⟩ := invariant
  cases function with
  | readHeader =>
      exact callbackReadHeader_decodes provides ready order
        (headersInTime legible.short)
  | readdata =>
      exact callbackReaddata_decodes provides sound ready expects order
        (inMemory sound ready size)
  | chunkedheader =>
      exact callbackChunkedheader_decodes provides sound ready expects order
        (lineInTime legible)
  | readToeof => exact callbackReadToeof_decodes provides sound ready order

/-- A callback that is told about the end of the stream. -/
theorem invoke_eof (order : InOrder H function) :
    ∃ response, perform env H (.callback function 1) =
        .ok (.responds response) ∧
      Foretells overflow stream (undecided H function).atEof
        (.responded response) := by
  cases function with
  | readToeof =>
      have decoded : Decodes overflow stream.bytes
          (.delivers ((headOf H).withBody (got H))) .malformed
          (docallback H) := docallback_decodes rfl order.body
      exact ⟨_, rfl, decoded⟩
  | readHeader => exact ⟨none, rfl, _, rfl⟩
  | readdata =>
      rcases undecided_readdata H with more | exceeds
      · exact ⟨none, rfl, _, congrArg Verdict.atEof more⟩
      · exact ⟨none, rfl, _, congrArg Verdict.atEof exceeds⟩
  | chunkedheader => exact ⟨none, rfl, _, rfl⟩

/-- The state after a call that decodes. -/
theorem Decodes.foretells {x : Except HttpAssert Next}
    (decodes : Decodes overflow stream.bytes d why x) :
    Ensures (fun _ => MayAbort (stream.close d))
      (Foretells overflow stream (stream.close d))
      (x >>= fun next => .ok next.state) := by
  cases x with
  | ok next => exact Continues.foretells decodes
  | error assertion => exact MayAbort.close decodes

theorem perform_foretells {call : Call} (provides : Provides overflow env)
    (size : maxrlen + maxBuffer < 2 ^ 64) (legible : Legible v)
    (invariant : HttpSafety.Invariant maxrlen (.calling call H))
    (foretells : Foretells overflow stream v (.calling call H)) :
    Ensures (fun _ => MayAbort v) (Foretells overflow stream v)
      (step (.calling call H) (.call env)) := by
  cases call with
  | gotheaders buflen =>
      obtain ⟨_, ready, empty, pos, isEnd, inside, _⟩ := invariant
      obtain ⟨_, isFirst, inTime, rfl⟩ := foretells
      apply Decodes.foretells
      exact gotheaders_decodes provides ready empty isFirst inTime inside
  | callback function status =>
      obtain ⟨order, goesOn | ended⟩ := foretells
      · obtain ⟨rfl, rfl⟩ := goesOn
        apply Decodes.foretells
        exact callback_decodes provides size invariant order legible.of_close
      · obtain ⟨rfl, rfl⟩ := ended
        obtain ⟨response, result, told⟩ :=
          @invoke_eof overflow H env function stream order
        have performed : step (.calling (.callback function 1) H)
            (.call env) = .ok (.responded response) := by
          change (perform env H (.callback function 1) >>= _) = _
          rw [result]
          rfl
        rw [performed]
        exact told

/-- A wait goes on where bytes arrive, or none. -/
theorem prepend_arrives {recv : Recv} {registered : Bool}
    (isRecv : recv = .again ∨ ∃ bytes, recv = .data bytes) :
    prepend (.readable recv registered) stream =
      { stream with bytes := recvBytes recv ++ stream.bytes } := by
  rcases isRecv with rfl | ⟨bytes, rfl⟩
  · rfl
  · rfl

/-- What a wait makes of an arrival. -/
theorem readable_foretells {recv : Recv} (notError : recv ≠ .error)
    (permitted : Permitted (.waiting H) (.readable recv true))
    (foretells : Foretells overflow (prepend (.readable recv true) stream) v
      (.waiting H)) :
    Ensures (fun _ => MayAbort v) (Foretells overflow stream v)
      (step (.waiting H) (.readable recv true)) := by
  obtain ⟨function, len, C, awaits, order, patient, isFrom⟩ := foretells
  obtain ⟨C', isCookie, recvFits⟩ := permitted
  obtain rfl := Option.some.inj (awaits.isCookie.symm.trans isCookie)
  obtain ⟨after, called, result, arrives⟩ := awaits.arrives recvFits true
  have stepped : step (.waiting H) (.readable recv true) =
      resume H after called := by
    unfold step
    dsimp only
    rw [isCookie]
    dsimp only
    rw [result]
  rw [stepped]
  cases arrives with
  | waits waiting peek received isRecv =>
      rw [prepend_arrives isRecv] at isFrom
      refine ⟨function, len, _, waiting, ?_, ?_, ?_⟩
      · apply order.arrived
        rw [List.append_nil]
        exact peek
      · intro y fewer
        change decodeFrom overflow { H with R := after }
          (netbufReadPeek after ++ y) function = undecided H function
        rw [decodeFrom_reader, peek]
        apply patient
        rw [← peek]
        exact fewer
      · change v = stream.close (decodeFrom overflow { H with R := after }
          (netbufReadPeek after ++ (pendingBytes after ++ stream.bytes))
          function)
        rw [decodeFrom_reader, peek, received, List.append_assoc]
        exact isFrom
  | @filled bytes isRecv ready peek enough =>
      rw [prepend_arrives (Or.inr ⟨bytes, isRecv⟩), isRecv] at isFrom
      refine ⟨order.arrived peek, Or.inl ⟨rfl, ?_⟩⟩
      change v = stream.close (decodeFrom overflow { H with R := after }
        (netbufReadPeek after ++ stream.bytes) function)
      rw [decodeFrom_reader, peek, List.append_assoc, List.append_assoc]
      exact isFrom
  | failed ready because =>
      rcases because with isError | unregistered
      · exact absurd isError notError
      · cases unregistered
  | eof isRecv ready peek =>
      subst isRecv
      have nothingMore : prepend (.readable .eof true) stream = ⟨[], true⟩ :=
        rfl
      have fewer : (netbufReadPeek H.R ++ pendingBytes H.R).length < len := by
        have pending := awaits.invariant.length_pendingBytes awaits.isCookie
        have reading := awaits.invariant.reading _ awaits.isCookie
        have left := reading.bufpos_lt
        have minlen := awaits.minlen
        rw [List.length_append]
        omega
      have isUndecided := patient _ fewer
      rw [nothingMore, List.append_nil, isUndecided] at isFrom
      have same : netbufReadPeek after = netbufReadPeek H.R ++ [] := by
        rw [List.append_nil]
        exact peek
      exact ⟨order.arrived same, Or.inr ⟨rfl, isFrom⟩⟩

theorem step_foretells (succeeds : Succeeds overflow action)
    (size : maxrlen + maxBuffer < 2 ^ 64) (legible : Legible v)
    (invariant : HttpSafety.Invariant maxrlen state)
    (permitted : Permitted state action)
    (foretells : Foretells overflow (prepend action stream) v state) :
    Ensures (fun _ => MayAbort v) (Foretells overflow stream v)
      (step state action) := by
  cases state with
  | calling call H =>
      cases action with
      | call env =>
          exact perform_foretells succeeds size legible invariant foretells
      | immediate => exact absurd permitted not_false
      | readable recv registered => exact absurd permitted not_false
  | waiting H =>
      cases action with
      | call env => exact absurd permitted not_false
      | immediate =>
          obtain ⟨_, function, len, C, awaits, _⟩ := invariant
          have reading : H.R.readCookie ≠ none := by
            rw [awaits.isCookie]
            exact Option.some_ne_none C
          have notImmediate := awaits.invariant.notBoth reading
          exact absurd (notImmediate.symm.trans permitted) Bool.noConfusion
      | readable recv registered =>
          obtain ⟨notError, rfl⟩ := succeeds
          exact readable_foretells notError permitted foretells
  | died => exact absurd permitted not_false
  | responded response => exact absurd permitted not_false

/-- A step that does not fail keeps the invariant. -/
theorem step_invariant (size : maxrlen + maxBuffer < 2 ^ 64)
    (invariant : HttpSafety.Invariant maxrlen state)
    (permitted : Permitted state action)
    (result : step state action = .ok next) :
    HttpSafety.Invariant maxrlen next := by
  by_cases fits : StepFits state
  · exact (step_safe invariant permitted fits).of_ok result
  · have noWrap : maxrlen + 2 < 2 ^ 64 := by
      have atLeast : 2 ≤ maxBuffer := by decide
      omega
    have fails := step_unsafe invariant permitted noWrap fits
    rw [fails] at result
    cases result

/-! ## Calls come to an end -/

/-- How many calls may still follow without a wait. -/
def work (H : HttpCookie) : Call → Nat
  | .callback .readHeader _ => 2 * (netbufReadPeek H.R).length + 1
  | _ => 2 * (netbufReadPeek H.R).length

/-- If another call is next, less work is left. -/
def Progresses (bound : Nat) : Except HttpAssert Next → Prop :=
  Ensures (fun _ => True) fun next =>
    ∀ call after, next = .calls call after → work after call < bound

variable {bound : Nat}

theorem work_le (H : HttpCookie) (call : Call) :
    work H call ≤ 2 * (netbufReadPeek H.R).length + 1 := by
  unfold work
  split
  · exact le_rfl
  · exact Nat.le_succ _

theorem fail_progresses : Progresses bound fail := by
  rintro _ _ ⟨⟩

theorem die_progresses : Progresses bound die := by
  rintro _ _ ⟨⟩

theorem docallback_progresses : Progresses bound (docallback H) := by
  rintro _ _ ⟨⟩

theorem toobig_progresses : Progresses bound (toobig H) :=
  docallback_progresses

theorem waitFor_progresses {allocs : WaitAllocs} {len : Nat} :
    Progresses bound (waitFor allocs H len function) := by
  unfold waitFor
  split
  · trivial
  · split_ifs
    · exact die_progresses
    · rintro _ _ ⟨⟩

theorem handleHeaders_progresses
    (less : 2 * (netbufReadPeek H.R).length + 1 < bound)
    (length : H.res.headers.length = H.res.nheaders) :
    Progresses bound (handleHeaders H) := by
  have calls (after : HttpCookie) (call : Call) (same : after.R = H.R) :
      Progresses bound (.ok (.calls call after)) := by
    rintro _ _ ⟨⟩
    apply Nat.lt_of_le_of_lt (work_le after call)
    rw [same]
    exact less
  unfold handleHeaders
  refine Ensures.ite (fun _ => calls _ _ rfl) fun _ => ?_
  refine Ensures.ite (fun _ => docallback_progresses) fun _ => ?_
  rw [httpFindheader_ok length, httpFindheader_ok length]
  refine Ensures.ite (fun _ => calls _ _ rfl) fun _ => ?_
  dsimp only [bind, Except.bind]
  split
  · split
    · exact fail_progresses
    · unfold getBodyGotclen
      exact Ensures.ite (fun _ => toobig_progresses) fun _ => calls _ _ rfl
  · exact calls _ _ rfl

theorem gotheaders_progresses {buflen pos : Nat} (ready : Ready H.R)
    (isEnd : buflen = pos + 4)
    (inside : buflen ≤ (netbufReadPeek H.R).length)
    (occurs : OccursAt endOfHeaders (netbufReadPeek H.R) pos) :
    Progresses (2 * (netbufReadPeek H.R).length)
      (gotheaders env buflen H) := by
  subst isEnd
  obtain ⟨line, lines, head, areLines⟩ := exists_headerLines occurs
  rcases gotheaders_lines ready env inside head areLines with dies | result
  · rw [dies.1]
    exact die_progresses
  · obtain ⟨R, _, peek, result⟩ := result
    rw [result]
    cases parsed : parseBlock env.overflow line lines with
    | none => exact fail_progresses
    | some block =>
        obtain ⟨status, headers⟩ := block
        apply handleHeaders_progresses
        · change 2 * (netbufReadPeek R).length + 1 < _
          rw [peek, List.length_drop]
          omega
        · exact length_of_parseBlock parsed

/-- Adding to the body changes neither the reader nor what is left. -/
theorem addbody_keeps {realloc : Bool} {buf : List UInt8}
    {after : HttpCookie}
    (result : addbody realloc H buf = .ok (some after)) :
    after.R = H.R ∧ after.readlen = H.readlen ∧
      after.chunked = H.chunked := by
  unfold addbody at result
  dsimp only at result
  split_ifs at result
  cases grown : growBody realloc H
      (sizeAdd H.res.bodylen buf.length) with
  | none =>
      rw [grown] at result
      cases result
  | some middle =>
      obtain ⟨resBodylenAlloc, rfl⟩ := growBody_eq grown
      rw [grown] at result
      cases result
      exact ⟨rfl, rfl, rfl⟩

theorem callbackReaddata_progresses {status : Int} (ready : Ready H.R)
    (expects : Expects maxrlen H .readdata) :
    Progresses (2 * (netbufReadPeek H.R).length)
      (callbackReaddata env status H) := by
  unfold callbackReaddata
  refine Ensures.ite (fun _ => fail_progresses) fun _ => ?_
  dsimp only
  have length : ((netbufReadPeek H.R).take H.readlen).length =
      min H.readlen (netbufReadPeek H.R).length := List.length_take
  generalize (netbufReadPeek H.R).take H.readlen = buf at length ⊢
  cases result : addbody env.realloc H buf with
  | error assertion => trivial
  | ok added =>
      cases added with
      | none => exact die_progresses
      | some after =>
          obtain ⟨sameR, sameLen, sameChunked⟩ := addbody_keeps result
          have enough : buf.length ≤ (netbufReadPeek after.R).length := by
            rw [sameR]
            omega
          obtain ⟨R, consumed, _, peek⟩ :=
            consume_spec (sameR.symm ▸ ready : Ready after.R) enough
          change Progresses _ (consume after buf.length >>= _)
          rw [consumed]
          change Progresses _
            (if sizeSub after.readlen buf.length = 0 then _ else _)
          rw [sameLen]
          refine Ensures.ite (fun done => ?_) fun _ => waitFor_progresses
          refine Ensures.ite (fun chunked => ?_)
            fun _ => docallback_progresses
          change after.chunked = true at chunked
          rw [sameChunked] at chunked
          unfold Expects at expects
          rw [if_pos chunked] at expects
          have more := expects.more
          rw [sizeSub_eq (by omega) expects.size] at done
          rintro _ _ ⟨⟩
          change 2 * (netbufReadPeek R).length < _
          rw [peek, sameR, List.length_drop]
          omega

theorem callbackChunkedheader_progresses {status : Int}
    (ready : Ready H.R) :
    Progresses (2 * (netbufReadPeek H.R).length)
      (callbackChunkedheader env status H) := by
  unfold callbackChunkedheader
  refine Ensures.ite (fun _ => fail_progresses) fun _ => ?_
  refine Ensures.ite (fun hasEol => ?_) fun _ => ?_
  · dsimp only
    split
    · exact fail_progresses
    · next clen parsed =>
        have found : findeol (netbufReadPeek H.R) <
            (netbufReadPeek H.R).length :=
          Nat.lt_of_le_of_ne (indexOf_le _ _) hasEol
        have enough : findeol (netbufReadPeek H.R) + 2 ≤
            (netbufReadPeek H.R).length :=
          (occursAt_indexOf found).inside crlf_ne_nil
        obtain ⟨R, consumed, _, peek⟩ := consume_spec ready enough
        rw [consumed]
        refine Ensures.ite (fun _ => docallback_progresses) fun _ => ?_
        refine Ensures.ite (fun _ => toobig_progresses) fun _ => ?_
        refine Ensures.ite (fun _ => toobig_progresses) fun _ => ?_
        rintro _ _ ⟨⟩
        change 2 * (netbufReadPeek R).length < _
        rw [peek, List.length_drop]
        omega
  · exact Ensures.ite (fun _ => fail_progresses) fun _ => waitFor_progresses

theorem perform_progresses {call : Call}
    (invariant : HttpSafety.Invariant maxrlen (.calling call H)) :
    Progresses (work H call) (perform env H call) := by
  cases call with
  | gotheaders buflen =>
      obtain ⟨_, ready, _, pos, isEnd, inside, occurs⟩ := invariant
      exact gotheaders_progresses ready isEnd inside occurs
  | callback function status =>
      obtain ⟨_, ready, expects⟩ := invariant
      cases function with
      | readdata => exact callbackReaddata_progresses ready expects
      | chunkedheader => exact callbackChunkedheader_progresses ready
      | readHeader =>
          change Progresses _ (callbackReadHeader env status H)
          unfold callbackReadHeader
          refine Ensures.ite (fun _ => fail_progresses) fun _ => ?_
          refine Ensures.ite (fun _ => ?_) fun _ => ?_
          · rintro _ _ ⟨⟩
            exact Nat.lt_succ_self _
          · exact Ensures.ite (fun _ => fail_progresses)
              fun _ => waitFor_progresses
      | readToeof =>
          change Progresses _ (callbackReadToeof env status H)
          unfold callbackReadToeof
          refine Ensures.ite (fun _ => fail_progresses) fun _ => ?_
          refine Ensures.ite (fun _ => docallback_progresses) fun _ => ?_
          refine Ensures.ite (fun _ => toobig_progresses) fun _ => ?_
          cases addbody env.realloc H (netbufReadPeek H.R) with
          | error assertion => trivial
          | ok added =>
              cases added with
              | none => exact die_progresses
              | some after =>
                  change Progresses _ (consume after _ >>= _)
                  cases consume after (netbufReadPeek H.R).length with
                  | error assertion => trivial
                  | ok consumed => exact waitFor_progresses

/-! ## Runs -/

/-- The verdict on a stream. -/
def verdict (settings : Settings) (stream : Stream) : Verdict :=
  stream.close (decode settings stream.bytes)

/-- What a request comes to when no call is left to be performed, by the
verdict on the stream. -/
def Answers (v : Verdict) : Except HttpAssert RequestState → Prop
  | .error _ => MayAbort v
  | .ok (.calling _ _) => False
  | .ok (.waiting _) =>
      v = .more ∨ v = .exceeds ∨ ∃ response, v = .untilEof response
  | .ok .died => False
  | .ok (.responded none) => ∃ why, v = .rejects why
  | .ok (.responded (some response)) => v = .delivers response

/-- Where a response is delivered, nothing else can happen. -/
theorem answers_delivers {response : HttpResponse}
    {result : Except HttpAssert RequestState}
    (answers : Answers (.delivers response) result) :
    result = .ok (.responded (some response)) := by
  rcases result with assertion | state
  · rcases answers with aborts | exceeds | overrun
    · cases aborts
    · cases exceeds
    · cases overrun
  · cases state with
    | calling call H => exact absurd answers not_false
    | died => exact absurd answers not_false
    | waiting H =>
        rcases answers with more | exceeds | ⟨_, untilEof⟩
        · cases more
        · cases exceeds
        · cases untilEof
    | responded answer =>
        cases answer with
        | none =>
            obtain ⟨_, rejects⟩ := answers
            cases rejects
        | some answer =>
            cases answers
            rfl

/-- What is known between two steps. -/
structure Known (overflow : Int → Int) (maxrlen : Nat) (stream : Stream)
    (v : Verdict) (state : RequestState) : Prop where
  invariant : HttpSafety.Invariant maxrlen state
  foretells : Foretells overflow stream v state

variable {actions : List Action}

theorem run_known (size : maxrlen + maxBuffer < 2 ^ 64)
    (legible : Legible v) (permitted : PermittedRun state actions)
    (succeeds : ∀ action ∈ actions, Succeeds overflow action)
    (known : Known overflow maxrlen (actions.foldr prepend stream) v state) :
    Ensures (fun _ => MayAbort v) (Known overflow maxrlen stream v)
      (run state actions) := by
  induction actions generalizing state with
  | nil => exact known
  | cons action actions ih =>
      have told := step_foretells (succeeds action List.mem_cons_self) size
        legible known.invariant permitted.1 known.foretells
      cases result : step state action with
      | error assertion =>
          change Ensures _ _ (step state action >>= _)
          rw [result]
          exact told.of_error result
      | ok next =>
          rw [run_cons result]
          apply ih (permitted.2 next result)
          · intro later member
            exact succeeds later (List.mem_cons_of_mem action member)
          · exact ⟨step_invariant size known.invariant permitted.1 result,
              told.of_ok result⟩

/-- A request that waits has not seen enough. -/
theorem waiting_answers
    (foretells : Foretells overflow Stream.empty v (.waiting H)) :
    Answers v (.ok (.waiting H)) := by
  obtain ⟨function, len, C, awaits, _, patient, rfl⟩ := foretells
  have fewer : (netbufReadPeek H.R ++ pendingBytes H.R).length < len := by
    have pending := awaits.invariant.length_pendingBytes awaits.isCookie
    have reading := awaits.invariant.reading _ awaits.isCookie
    have left := reading.bufpos_lt
    have minlen := awaits.minlen
    rw [List.length_append]
    omega
  have same : Stream.empty.close (decodeFrom overflow H (netbufReadPeek H.R ++
      (pendingBytes H.R ++ Stream.empty.bytes)) function) =
        undecided H function := by
    rw [show Stream.empty.bytes = [] from rfl, List.append_nil,
      patient _ fewer]
    rfl
  rw [same]
  cases function with
  | readToeof => exact Or.inr (Or.inr ⟨_, rfl⟩)
  | readHeader => exact Or.inl rfl
  | readdata =>
      exact (undecided_readdata H).imp_right fun exceeds => Or.inl exceeds
  | chunkedheader => exact Or.inl rfl

/-- The calls that are left come to an end. -/
theorem known_settles (provides : Provides overflow env)
    (size : maxrlen + maxBuffer < 2 ^ 64) (legible : Legible v)
    (known : Known overflow maxrlen Stream.empty v state) :
    ∃ calls, Answers v (run state (List.replicate calls (.call env))) := by
  cases state with
  | waiting H => exact ⟨0, waiting_answers known.foretells⟩
  | died => exact absurd known.foretells not_false
  | responded response =>
      refine ⟨0, ?_⟩
      cases response with
      | none => exact known.foretells
      | some response => exact known.foretells
  | calling call H =>
      induction left : work H call using Nat.strongRecOn
        generalizing call H with
      | ind n ih =>
          subst left
          have told := perform_foretells provides size legible
            known.invariant known.foretells
          have less : Progresses (work H call) (perform env H call) :=
            perform_progresses known.invariant
          have isStep : step (.calling call H) (.call env) =
              perform env H call >>= fun next => .ok next.state := rfl
          cases result : perform env H call with
          | error assertion =>
              rw [result] at isStep
              refine ⟨1, ?_⟩
              change Answers v (step (.calling call H) (.call env) >>= _)
              rw [isStep]
              exact told.of_error isStep
          | ok next =>
              rw [result] at isStep
              have permitted : Permitted (.calling call H) (.call env) :=
                trivial
              have after : Known overflow maxrlen Stream.empty v next.state :=
                ⟨step_invariant size known.invariant permitted isStep,
                  told.of_ok isStep⟩
              have first (rest : List Action) :
                  run (.calling call H) (.call env :: rest) =
                    run next.state rest := run_cons isStep
              cases next with
              | dies => exact absurd after.foretells not_false
              | waits H =>
                  refine ⟨1, ?_⟩
                  change Answers v (run _ [.call env])
                  rw [first]
                  exact waiting_answers after.foretells
              | responds response =>
                  refine ⟨1, ?_⟩
                  change Answers v (run _ [.call env])
                  rw [first]
                  cases response with
                  | none => exact after.foretells
                  | some response => exact after.foretells
              | calls call' H' =>
                  obtain ⟨calls, answers⟩ := ih _
                    (less.of_ok result call' H' rfl) call' H' after rfl
                  refine ⟨calls + 1, ?_⟩
                  rw [List.replicate_succ, first]
                  exact answers

theorem run_append (state : RequestState) (actions more : List Action) :
    run state (actions ++ more) =
      (run state actions >>= fun next => run next more) := by
  induction actions generalizing state with
  | nil => rfl
  | cons action actions ih =>
      change (step state action >>= fun next => run next (actions ++ more)) =
        (step state action >>= fun next => run next actions) >>= _
      cases step state action with
      | error assertion => rfl
      | ok next => exact ih next

theorem start_known (memory : Nat → UInt8) (reqIshead chunked : Bool)
    (readlen : Nat) (size : maxrlen < 2 ^ 64) :
    Known overflow maxrlen stream (verdict ⟨reqIshead, maxrlen, overflow⟩
      stream) (start memory reqIshead chunked readlen maxrlen) := by
  have empty : netbufReadPeek (netbufReadInit memory :
      NetbufRead HttpCallback) = [] := (netbufReadInit_spec memory).2.2.1
  refine ⟨start_invariant memory reqIshead chunked readlen size,
    ⟨Nat.zero_le _, fun _ j before => absurd before (Nat.not_lt_zero j)⟩,
    Or.inl ⟨rfl, ?_⟩⟩
  change verdict _ stream = stream.close (decode _
    (netbufReadPeek (netbufReadInit memory) ++ stream.bytes))
  rw [empty]
  rfl

/-- In whatever portions a stream arrives, once the calls that are left have
been performed the request has come to what the decoder makes of the stream. -/
theorem http_response_run (memory : Nat → UInt8) (reqIshead chunked : Bool)
    (readlen maxrlen : Nat) (overflow : Int → Int) (actions : List Action)
    (env : CallEnv) (size : maxrlen + maxBuffer < 2 ^ 64)
    (permitted : PermittedRun
      (start memory reqIshead chunked readlen maxrlen) actions)
    (succeeds : ∀ action ∈ actions, Succeeds overflow action)
    (provides : Provides overflow env)
    (legible : Legible (verdict ⟨reqIshead, maxrlen, overflow⟩
      (streamOf actions))) :
    ∃ calls, Answers
      (verdict ⟨reqIshead, maxrlen, overflow⟩ (streamOf actions))
      (run (start memory reqIshead chunked readlen maxrlen)
        (actions ++ List.replicate calls (.call env))) := by
  have known : Known overflow maxrlen (streamOf actions) _
      (start memory reqIshead chunked readlen maxrlen) :=
    start_known memory reqIshead chunked readlen (by omega)
  have after := run_known size legible permitted succeeds known
  cases result : run (start memory reqIshead chunked readlen maxrlen)
      actions with
  | error assertion =>
      refine ⟨0, ?_⟩
      rw [run_append, result]
      exact after.of_error result
  | ok final =>
      obtain ⟨calls, answers⟩ :=
        known_settles provides size legible (after.of_ok result)
      refine ⟨calls, ?_⟩
      rw [run_append, result]
      exact answers

/-- The client aborts only for a chunk at the limit: where the decoder finds
none, what has arrived of each chunk fits into the body. -/
theorem chunksFit_of_verdict (memory : Nat → UInt8)
    (reqIshead chunked : Bool) (readlen : Nat) {actions : List Action}
    (size : maxrlen + maxBuffer < 2 ^ 64)
    (permitted : PermittedRun
      (start memory reqIshead chunked readlen maxrlen) actions)
    (succeeds : ∀ action ∈ actions, Succeeds overflow action)
    (legible : Legible (verdict ⟨reqIshead, maxrlen, overflow⟩
      (streamOf actions)))
    (within : ¬ MayAbort (verdict ⟨reqIshead, maxrlen, overflow⟩
      (streamOf actions))) :
    ChunksFit (start memory reqIshead chunked readlen maxrlen) actions := by
  have noWrap : maxrlen + 2 < 2 ^ 64 := by
    have atLeast : 2 ≤ maxBuffer := by decide
    omega
  have known : Known overflow maxrlen (streamOf actions) _
      (start memory reqIshead chunked readlen maxrlen) :=
    start_known memory reqIshead chunked readlen (by omega)
  apply run_chunksFit known.invariant permitted noWrap
  have after := run_known size legible permitted succeeds known
  cases result : run (start memory reqIshead chunked readlen maxrlen)
      actions with
  | error assertion => exact absurd (after.of_error result) within
  | ok final => exact (after.of_ok result).invariant.delivers

/-- Of a response whose headers have not ended, more is expected. -/
theorem http_response_run_partial :
    ∃ calls, Answers
      (verdict ⟨false, 6, id⟩
        (streamOf [.call {}, .readable (.data (oneChunk.take 20)) true]))
      (run (start (fun _ => 0) false false 0 6)
        ([.call {}, .readable (.data (oneChunk.take 20)) true] ++
          List.replicate calls (.call {}))) := by
  have provides : Provides id {} :=
    ⟨rfl, rfl, rfl, ⟨rfl, Option.some_ne_none _, rfl, rfl⟩, rfl⟩
  apply http_response_run (fun _ => 0) false false 0 6 id
  · decide
  · decide +kernel
  · intro action member
    rcases List.mem_cons.mp member with rfl | member
    · exact provides
    rcases List.mem_singleton.mp member with rfl
    exact ⟨Recv.noConfusion, rfl⟩
  · exact provides
  · have isMore : decode ⟨false, 6, id⟩ (streamOf [.call {},
        .readable (.data (oneChunk.take 20)) true]).bytes = .more := by
      apply decode_missing
      · decide +kernel
      · decide +kernel
    unfold verdict
    rw [isMore]
    constructor
    · exact Verdict.noConfusion
    · exact Verdict.noConfusion

end Libcperciva.Http.HttpRuns
