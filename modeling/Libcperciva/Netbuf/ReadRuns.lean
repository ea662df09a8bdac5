import Libcperciva.Netbuf.ReadOps

/-!
# Every run of the buffered reader

A run waits, peeks and consumes in any order, except that it does not wait
while a wait is pending, and does not consume more than can be peeked at.  The
socket delivers a stream of bytes in pieces of any size; a read may also fail,
and every allocation may.

A read that fails forgets what it has received.  If `recv` returns data after
that, then these bytes are missing from the stream; the state remembers this.
-/

namespace Libcperciva.Netbuf.ReadRuns

open Libcperciva.Util.SizeT
open Libcperciva.Network.ReadModel
open Libcperciva.Netbuf.ReadModel
open Libcperciva.Netbuf.ReadOps

variable {κ : Type*}

/-! ## Runs -/

/-- The reader, its socket, and what has happened. -/
structure RunState (κ : Type*) where
  R : NetbufRead κ
  /-- The rest of the stream, which `recv` has not returned yet. -/
  unread : List UInt8
  consumed : List UInt8 := []
  /-- What the last wait has waited for. -/
  len : Nat := 0
  /-- Nothing has been consumed since the last wait. -/
  untouched : Bool := true
  /-- A read has failed. -/
  failed : Bool := false
  /-- After that `recv` has returned data. -/
  resumed : Bool := false

/-- A call of the application or of the event loop. -/
inductive Op (κ : Type*) where
  | wait (allocs : WaitAllocs) (len : Nat) (callback : κ)
  | consume (len : Nat)
  /-- The immediate event of the reader is invoked. -/
  | immediate
  /-- The network event of the pending read is invoked. -/
  | readable (recv : Recv) (registered : Bool)

/-- One call, and the status with which it invokes the callback if it does. -/
def step (state : RunState κ) :
    Op κ → Except NetbufAssert (RunState κ × Option Int)
  | .wait allocs len callback =>
      (netbufReadWait allocs state.R len callback).map fun (_, R) =>
        ({ state with R, len, untouched := true }, none)
  | .consume len =>
      (netbufReadConsume state.R len).map fun R =>
        ({ state with
          R
          consumed := state.consumed ++ (netbufReadPeek state.R).take len
          untouched := state.untouched && len == 0 }, none)
  | .immediate =>
      (callbackSuccess state.R).map fun (R, _, status) =>
        ({ state with R }, some status)
  | .readable recv registered =>
      match state.R.readCookie with
      | none => .error .reading
      | some C =>
          (callbackReadable registered recv state.R C).map fun (R, called) =>
            ({ state with
              R
              unread := state.unread.drop (recvBytes recv).length
              failed := state.failed || called.any fun call => call.2 == -1
              resumed := state.resumed ||
                (state.failed && recvBytes recv != []) },
              called.map Prod.snd)

/-- What is assumed of the application and of the socket. -/
def Allowed (state : RunState κ) : Op κ → Prop
  | .wait _ len _ => Idle state.R ∧ len < 2 ^ 64
  | .consume len => len ≤ (netbufReadPeek state.R).length
  | .immediate => state.R.immediateCookie = true
  | .readable recv _ => ∃ C, state.R.readCookie = some C ∧ recv.Fits C ∧
      recvBytes recv <+: state.unread ∧ (recv = .eof → state.unread = [])

/-- The states of a reader on a stream. -/
inductive Run (stream : List UInt8) : RunState κ → Prop where
  | start (memory : Nat → UInt8) :
      Run stream { R := netbufReadInit memory, unread := stream }
  | call {state after : RunState κ} {called : Option Int} (op : Op κ)
      (before : Run stream state) (allowed : Allowed state op)
      (returned : step state op = .ok (after, called)) : Run stream after

/-! ## The invariant of a run -/

/-- What holds between the calls of a run. -/
structure Invariant (stream : List UInt8) (state : RunState κ) : Prop where
  reader : ReadOps.Invariant state.R
  /-- A pending read completes what is waited for. -/
  completes : ∀ C, state.R.readCookie = some C → state.untouched = true →
    (netbufReadPeek state.R).length + C.minlen = state.len
  /-- There is nothing to complete for an immediate event. -/
  complete : state.R.immediateCookie = true → state.untouched = true →
    state.len ≤ (netbufReadPeek state.R).length
  /-- Bytes are lost only where the stream ends, or a read has failed. -/
  stream : state.resumed = false → ∃ lost,
    state.consumed ++ netbufReadPeek state.R ++ lost ++
        pendingBytes state.R ++ state.unread = stream ∧
      (lost ≠ [] → pendingBytes state.R = [] ∧
        (state.unread = [] ∨ state.failed = true))
  resumes : state.resumed = true → state.failed = true

variable {stream : List UInt8} {state after : RunState κ}
  {called : Option Int}

theorem start_invariant (memory : Nat → UInt8) :
    Invariant (κ := κ) stream
      { R := netbufReadInit memory, unread := stream } := by
  obtain ⟨reader, ⟨notReading, notImmediate⟩, peek, _⟩ :=
    netbufReadInit_spec (κ := κ) memory
  constructor
  · exact reader
  · intro C isCookie
    exact absurd (notReading.symm.trans isCookie) (Option.some_ne_none C).symm
  · intro isImmediate
    exact Bool.noConfusion (notImmediate.symm.trans isImmediate)
  · intro _
    refine ⟨[], ?_, fun nonempty => absurd rfl nonempty⟩
    dsimp only
    rw [peek, pendingBytes_idle notReading]
    rfl
  · exact fun isResumed => Bool.noConfusion isResumed

/-- The bytes of the stream, where the same bytes are buffered. -/
theorem Invariant.same_stream (invariant : Invariant stream state)
    {R : NetbufRead κ}
    (peek : netbufReadPeek R = netbufReadPeek state.R)
    (pending : pendingBytes R = pendingBytes state.R) :
    state.resumed = false → ∃ lost,
      state.consumed ++ netbufReadPeek R ++ lost ++ pendingBytes R ++
          state.unread = stream ∧
        (lost ≠ [] → pendingBytes R = [] ∧
          (state.unread = [] ∨ state.failed = true)) := by
  rw [peek, pending]
  exact invariant.stream

theorem Invariant.wait (invariant : Invariant stream state) {len : Nat}
    {callback : κ} {status : Int} {R : NetbufRead κ} (idle : Idle state.R)
    (waits : Waits state.R len callback (.ok (status, R))) :
    Invariant stream { state with R, len, untouched := true } := by
  have nothing := pendingBytes_idle idle.1
  cases waits with
  | failed reader peek idleAfter bound =>
      constructor
      · exact reader
      · intro C isCookie
        exact absurd (idleAfter.1.symm.trans isCookie)
          (Option.some_ne_none C).symm
      · intro isImmediate
        exact Bool.noConfusion (idleAfter.2.symm.trans isImmediate)
      · refine invariant.same_stream peek ?_
        rw [nothing, pendingBytes_idle idleAfter.1]
      · exact invariant.resumes
  | immediate enough idleBefore =>
      constructor
      · exact invariant.reader.idle idle.1
      · intro C isCookie
        exact absurd (idle.1.symm.trans isCookie) (Option.some_ne_none C).symm
      · exact fun _ _ => enough
      · exact invariant.stream
      · exact invariant.resumes
  | reading short reader peek isCookie minlen zero isCallback
      notImmediate bound =>
      constructor
      · exact reader
      · intro C' isCookie' _
        obtain rfl := Option.some.inj (isCookie.symm.trans isCookie')
        dsimp only
        rw [peek]
        exact minlen
      · intro isImmediate
        exact Bool.noConfusion (notImmediate.symm.trans isImmediate)
      · refine invariant.same_stream peek ?_
        rw [nothing, pendingBytes_reading isCookie, zero]
        exact Lib.Buffer.slice_zero _ _
      · exact invariant.resumes

theorem Invariant.consume (invariant : Invariant stream state) {len : Nat}
    {R : NetbufRead κ} (reader : ReadOps.Invariant R)
    (peek : netbufReadPeek R = (netbufReadPeek state.R).drop len)
    (pending : pendingBytes R = pendingBytes state.R)
    (sameCookie : R.readCookie = state.R.readCookie)
    (sameImmediate : R.immediateCookie = state.R.immediateCookie) :
    Invariant stream { state with
      R
      consumed := state.consumed ++ (netbufReadPeek state.R).take len
      untouched := state.untouched && len == 0 } := by
  -- Only a consume of no bytes counts as none.
  have unchanged : (state.untouched && len == 0) = true →
      state.untouched = true ∧ netbufReadPeek R = netbufReadPeek state.R := by
    intro untouched
    rw [Bool.and_eq_true, beq_iff_eq] at untouched
    refine ⟨untouched.1, ?_⟩
    rw [peek, untouched.2, List.drop_zero]
  constructor
  · exact reader
  · intro C isCookie untouched
    obtain ⟨before, same⟩ := unchanged untouched
    dsimp only
    rw [same]
    exact invariant.completes C (sameCookie ▸ isCookie) before
  · intro isImmediate untouched
    obtain ⟨before, same⟩ := unchanged untouched
    dsimp only
    rw [same]
    exact invariant.complete (sameImmediate ▸ isImmediate) before
  · intro notResumed
    obtain ⟨lost, split, condition⟩ := invariant.stream notResumed
    refine ⟨lost, ?_, ?_⟩
    · dsimp only
      rw [peek, pending, List.append_assoc state.consumed,
        List.take_append_drop]
      exact split
    · dsimp only
      rw [pending]
      exact condition
  · exact invariant.resumes

/-- The reader between reads; nothing is waited for. -/
theorem Invariant.ended {R : NetbufRead κ} {unread : List UInt8}
    {failed resumed : Bool} (reader : ReadOps.Invariant R) (idle : Idle R)
    (bytes : resumed = false → ∃ lost,
      state.consumed ++ netbufReadPeek R ++ lost ++ unread = stream ∧
        (lost ≠ [] → unread = [] ∨ failed = true))
    (resumes : resumed = true → failed = true) :
    Invariant stream { state with R, unread, failed, resumed } := by
  constructor
  · exact reader
  · intro C isCookie
    exact absurd (idle.1.symm.trans isCookie) (Option.some_ne_none C).symm
  · intro isImmediate
    exact Bool.noConfusion (idle.2.symm.trans isImmediate)
  · intro notResumed
    obtain ⟨lost, split, condition⟩ := bytes notResumed
    refine ⟨lost, ?_, fun isLost => ⟨pendingBytes_idle idle.1,
      condition isLost⟩⟩
    dsimp only
    rw [pendingBytes_idle idle.1, List.append_nil]
    exact split
  · exact resumes

/-- Nothing was lost if data arrives, unless it does so after a failure. -/
theorem Invariant.not_lost (invariant : Invariant stream state)
    {bytes : List UInt8} (nonempty : bytes ≠ [])
    (next : bytes <+: state.unread)
    (notResumed : (state.resumed || (state.failed && bytes != [])) = false) :
    state.resumed = false ∧ state.consumed ++ netbufReadPeek state.R ++
      pendingBytes state.R ++ state.unread = stream := by
  simp only [Bool.or_eq_false_iff, Bool.and_eq_false_iff,
    bne_eq_false_iff_eq] at notResumed
  obtain ⟨before, notFailed | empty⟩ := notResumed
  · refine ⟨before, ?_⟩
    obtain ⟨lost, split, condition⟩ := invariant.stream before
    by_cases isLost : lost = []
    · rw [isLost, List.append_nil] at split
      exact split
    · rcases (condition isLost).2 with atEnd | failed
      · rw [atEnd] at next
        exact absurd (List.prefix_nil.mp next) nonempty
      · rw [notFailed] at failed
        exact Bool.noConfusion failed
  · exact absurd empty nonempty

theorem drop_prefix_length {bytes unread : List UInt8} (next : bytes <+: unread) :
    bytes ++ unread.drop bytes.length = unread := by
  obtain ⟨rest, rfl⟩ := next
  rw [List.drop_left]

theorem Invariant.readable (invariant : Invariant stream state)
    {C : NetworkReadCookie} (isCookie : state.R.readCookie = some C)
    {recv : Recv} (fits : recv.Fits C) (next : recvBytes recv <+: state.unread)
    (atEnd : recv = .eof → state.unread = []) {R : NetbufRead κ}
    {call : Option (Option κ × Int)} (reads : Reads state.R C recv R call) :
    Invariant stream { state with
      R
      unread := state.unread.drop (recvBytes recv).length
      failed := state.failed || call.any fun call => call.2 == -1
      resumed := state.resumed ||
        (state.failed && recvBytes recv != []) } := by
  have resumes : ∀ failure, (state.resumed ||
      (state.failed && recvBytes recv != [])) = true →
      (state.failed || failure) = true := by
    intro failure isResumed
    rw [Bool.or_eq_true, Bool.and_eq_true] at isResumed
    rw [Bool.or_eq_true]
    exact Or.inl (isResumed.elim invariant.resumes And.left)
  cases reads with
  | @waits C' reader peek isCookie' minlen received isRecv =>
      constructor
      · exact reader
      · intro C'' isCookie'' untouched
        obtain rfl := Option.some.inj (isCookie'.symm.trans isCookie'')
        dsimp only
        rw [peek, minlen]
        exact invariant.completes C isCookie untouched
      · intro isImmediate
        have noImmediate := reader.notBoth (by simp [isCookie'])
        exact Bool.noConfusion (noImmediate.symm.trans isImmediate)
      · intro notResumed
        rcases isRecv with rfl | ⟨bytes, rfl⟩
        · have same : pendingBytes R = pendingBytes state.R :=
            received.trans (List.append_nil _)
          have before : state.resumed = false := by
            simpa [recvBytes] using notResumed
          obtain ⟨lost, split, condition⟩ := invariant.stream before
          refine ⟨lost, ?_, ?_⟩
          · dsimp only [recvBytes]
            rw [peek, same]
            exact split
          · intro isLost
            obtain ⟨nothing, ending⟩ := condition isLost
            exact ⟨same.trans nothing, ending.imp id
              fun failed => by simp [failed]⟩
        · obtain ⟨nonempty, _⟩ := fits bytes rfl
          obtain ⟨before, split⟩ :=
            invariant.not_lost nonempty next notResumed
          refine ⟨[], ?_, fun nonempty => absurd rfl nonempty⟩
          have rest := drop_prefix_length next
          dsimp only [recvBytes] at rest received ⊢
          simp only [List.append_assoc, List.append_nil] at split ⊢
          rw [peek, received, List.append_assoc, rest]
          exact split
      · exact resumes _
  | @filled bytes isRecv reader peek enough idle =>
      subst isRecv
      refine Invariant.ended reader idle ?_ (resumes _)
      intro notResumed
      obtain ⟨nonempty, _⟩ := fits bytes rfl
      obtain ⟨before, split⟩ := invariant.not_lost nonempty next notResumed
      refine ⟨[], ?_, fun nonempty => absurd rfl nonempty⟩
      have rest := drop_prefix_length next
      dsimp only [recvBytes] at rest ⊢
      rw [peek]
      simp only [List.append_assoc, List.append_nil] at split ⊢
      rw [rest]
      exact split
  | failed reader peek idle =>
      refine Invariant.ended reader idle ?_ (resumes _)
      intro notResumed
      rw [Bool.or_eq_false_iff] at notResumed
      obtain ⟨lost, split, condition⟩ := invariant.stream notResumed.1
      refine ⟨lost ++ (pendingBytes state.R ++ recvBytes recv), ?_,
        fun _ => Or.inr (by simp)⟩
      rw [peek]
      simp only [List.append_assoc] at split ⊢
      rw [drop_prefix_length next]
      exact split
  | eof isRecv reader peek idle =>
      subst isRecv
      have ending := atEnd rfl
      refine Invariant.ended reader idle ?_ (resumes _)
      intro notResumed
      rw [Bool.or_eq_false_iff] at notResumed
      obtain ⟨lost, split, condition⟩ := invariant.stream notResumed.1
      refine ⟨lost ++ pendingBytes state.R, ?_,
        fun _ => Or.inl (by rw [ending]; rfl)⟩
      dsimp only [recvBytes, List.length_nil, List.drop_zero]
      rw [peek, ← List.append_assoc]
      exact split

/-! ## What the application can rely on -/

/-- How a call of a run can end. -/
inductive Ends (stream : List UInt8) (state : RunState κ) (op : Op κ) :
    Except NetbufAssert (RunState κ × Option Int) → Prop where
  | returns {after : RunState κ} {called : Option Int}
      (invariant : Invariant stream after)
      (ready : called = some 0 → state.untouched = true →
        state.len ≤ (netbufReadPeek after.R).length) :
      Ends stream state op (.ok (after, called))
  | tooLarge {allocs : WaitAllocs} {len : Nat} {callback : κ}
      (isWait : op = .wait allocs len callback)
      (large : SSIZE_MAX < max state.R.buflen (2 * len)) :
      Ends stream state op (.error (.network .fits))

theorem Invariant.step (invariant : Invariant stream state) {op : Op κ}
    (allowed : Allowed state op) :
    Ends stream state op (step state op) := by
  cases op with
  | wait allocs len callback =>
      obtain ⟨idle, size⟩ := allowed
      have waits :=
        netbufReadWait_waits invariant.reader idle size allocs callback
      simp only [ReadRuns.step]
      generalize netbufReadWait allocs state.R len callback = result at waits
      cases result with
      | error assertion =>
          cases waits with
          | tooLarge large => exact Ends.tooLarge rfl large
      | ok returned =>
          exact Ends.returns (invariant.wait idle waits)
            fun noCall => absurd noCall (Option.some_ne_none 0).symm
  | consume len =>
      obtain ⟨R, result, reader, peek, pending, cookie, immediate, _⟩ :=
        netbufReadConsume_spec invariant.reader allowed
      simp only [ReadRuns.step]
      rw [result]
      exact Ends.returns
        (invariant.consume reader peek pending cookie immediate)
        fun noCall => absurd noCall (Option.some_ne_none 0).symm
  | immediate =>
      obtain ⟨R, result, reader, peek, idle, _⟩ :=
        callbackSuccess_spec invariant.reader allowed
      have notReading : state.R.readCookie = none := by
        by_contra isReading
        exact Bool.noConfusion
          ((invariant.reader.notBoth isReading).symm.trans allowed)
      simp only [ReadRuns.step]
      rw [result]
      refine Ends.returns ?_ fun _ untouched => ?_
      · refine Invariant.ended reader idle ?_ invariant.resumes
        rw [peek]
        intro notResumed
        obtain ⟨lost, split, condition⟩ := invariant.stream notResumed
        rw [pendingBytes_idle notReading, List.append_nil] at split
        exact ⟨lost, split, fun isLost => (condition isLost).2⟩
      · dsimp only
        rw [peek]
        exact invariant.complete allowed untouched
  | readable recv registered =>
      obtain ⟨C, isCookie, fits, next, atEnd⟩ := allowed
      obtain ⟨R, call, result, reads⟩ :=
        callbackReadable_reads invariant.reader isCookie fits registered
      simp only [ReadRuns.step]
      rw [isCookie]
      dsimp only
      rw [result]
      refine Ends.returns
        (invariant.readable isCookie fits next atEnd reads) ?_
      intro isReady untouched
      have waitedFor := invariant.completes C isCookie untouched
      cases reads with
      | waits => cases isReady
      | filled isRecv reader peek enough idle =>
          dsimp only
          rw [peek, List.length_append]
          omega
      | failed => cases isReady
      | eof => cases isReady

theorem Run.invariant (run : Run stream state) : Invariant stream state := by
  induction run with
  | start memory => exact start_invariant memory
  | call op before allowed returned invariant =>
      have ends := invariant.step allowed
      rw [returned] at ends
      cases ends with
      | returns invariant ready => exact invariant

/-- The contract of the reader at one moment of a run. -/
structure Correct (stream : List UInt8) (state : RunState κ) : Prop where
  /-- What was consumed and what can be peeked at starts the stream. -/
  inOrder : state.resumed = false →
    state.consumed ++ netbufReadPeek state.R <+: stream
  resumes : state.resumed = true → state.failed = true
  bounds : state.R.bufpos ≤ state.R.datalen ∧
    state.R.datalen ≤ state.R.buflen ∧
    state.R.buflen = state.R.buf.length
  /-- Every read is into a part of the buffer. -/
  requests : Idle state.R → ∀ len < 2 ^ 64,
    (netbufReadPeek state.R).length < len →
      ∀ (malloc : Option (Nat → UInt8)) (callback : κ)
        (after : NetbufRead κ),
        makeRoom malloc { state.R with callback := some callback } len =
            some after →
          ValidRequest after (readRequest after len)
  /-- No assertion of the reader fails, only one of `network_read`. -/
  asserts : ∀ op, Allowed state op → ∀ assertion,
    step state op = .error assertion → assertion = .network .fits ∧
      ∃ allocs len callback, op = .wait allocs len callback ∧
        SSIZE_MAX < max state.R.buflen (2 * len)
  /-- The bytes that were waited for are there. -/
  ready : ∀ op, Allowed state op → ∀ after,
    step state op = .ok (after, some 0) → state.untouched = true →
      state.len ≤ (netbufReadPeek after.R).length

/-- Every run of the reader refines its stream. -/
theorem netbuf_read_refines (run : Run stream state) :
    Correct stream state := by
  have invariant := run.invariant
  have reader := invariant.reader
  constructor
  · intro notResumed
    obtain ⟨lost, split, _⟩ := invariant.stream notResumed
    rw [List.append_assoc, List.append_assoc] at split
    exact ⟨_, split⟩
  · exact invariant.resumes
  · exact ⟨reader.bufpos_le, reader.datalen_le, reader.length.symm⟩
  · intro idle len size short malloc callback after result
    have start :
        ReadOps.Invariant { state.R with callback := some callback } :=
      reader.idle idle.1
    obtain ⟨moved, room, _⟩ := makeRoom_spec start idle size short result
    refine readRequest_valid moved.invariant ?_ room
    rw [moved.peek]
    exact short
  · intro op allowed assertion failed
    have ends := invariant.step allowed
    rw [failed] at ends
    cases ends with
    | tooLarge isWait large => exact ⟨rfl, _, _, _, isWait, large⟩
  · intro op allowed after returned untouched
    have ends := invariant.step allowed
    rw [returned] at ends
    cases ends with
    | returns invariant ready => exact ready rfl untouched

/-- A new reader on a stream of five bytes. -/
def newReader (memory : Nat → UInt8) : RunState Nat :=
  { R := netbufReadInit memory, unread := [1, 2, 3, 4, 5] }

/-- It waits for three bytes. -/
def waitingReader (memory : Nat → UInt8) : RunState Nat :=
  { R := { (netbufReadInit memory : NetbufRead Nat) with
      callback := some 7
      readCookie := some ⟨0, 4096, 3, 0⟩ }
    unread := [1, 2, 3, 4, 5]
    len := 3 }

theorem newReader_wait (memory : Nat → UInt8) :
    step (newReader memory) (.wait {} 3 7) =
      .ok (waitingReader memory, none) := by
  simp [step, newReader, waitingReader, netbufReadWait, netbufReadInit,
    makeRoom, moveData, readRequest, networkRead, sizeSub, sizeAdd,
    SSIZE_MAX, Except.map]

/-- The bytes arrive in two pieces. -/
theorem netbuf_read_refines_fiveBytes :
    ∃ state : RunState Nat, state.unread = [] ∧ state.resumed = false ∧
      Correct [1, 2, 3, 4, 5] state := by
  have started : Run [1, 2, 3, 4, 5] (newReader fun _ => 0) := Run.start _
  have waiting := started.call (.wait {} 3 7) ⟨⟨rfl, rfl⟩, by decide⟩
    (newReader_wait fun _ => 0)
  have first := waiting.call (.readable (.data [1, 2]) true)
    ⟨⟨0, 4096, 3, 0⟩, rfl, by rintro bytes ⟨⟩; decide, by decide,
      fun isEof => Recv.noConfusion isEof⟩ rfl
  have second := first.call (.readable (.data [3, 4, 5]) true)
    ⟨⟨0, 4096, 3, 2⟩, rfl, by rintro bytes ⟨⟩; decide, by decide,
      fun isEof => Recv.noConfusion isEof⟩ rfl
  exact ⟨_, rfl, rfl, netbuf_read_refines second⟩

end Libcperciva.Netbuf.ReadRuns
