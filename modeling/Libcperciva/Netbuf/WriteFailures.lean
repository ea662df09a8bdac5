import Libcperciva.Netbuf.WriteRuns

/-!
# Calls of the buffered writer that fail or are empty

Here any allocation may fail, and a call may write or consume no bytes.  A
reservation is marked before its buffer is allocated, bytes join the queue
before `network_write` is called, and an empty buffer may come to the head of
the queue.  So the writer stays as it was after a failure, and no assertion
fails, exactly in those runs where none of this happens.
-/

namespace Libcperciva.Netbuf.WriteFailures

open Libcperciva.Util.SizeT
open Libcperciva.Network.WriteModel
open Libcperciva.Netbuf.WriteModel
open Libcperciva.Netbuf.WriteOps
open Libcperciva.Netbuf.WriteRuns (RunState Op step record recordEnd sentBytes
  consumes)

variable {W after : NetbufWrite} {allocs : WriterAllocs} {len : Nat}
  {pointer : Nat × Nat}

/-! ## Runs -/

/-- The buffer that is allocated, if any, is a new one. -/
def Fresh (allocs : WriterAllocs) (W : NetbufWrite) : Prop :=
  ∀ address, allocs.writebuf = some address → W.memory address = none

/-- What is assumed of the application, the allocator and the socket.  As
documented, a reservation is consumed before the next one is made and before
control returns to the event loop. -/
def Allowed (state : RunState) : Op → Prop
  | .write allocs buf => state.reservation = none ∧
      buf.length < 2 ^ 64 ∧ Fresh allocs state.W
  | .reserve allocs len => state.reservation = none ∧ len < 2 ^ 64 ∧
      Fresh allocs state.W
  | .fill start bytes => ∃ pointer len,
      state.reservation = some (pointer, len) ∧ start + bytes.length ≤ len
  | .consume _ len => ∃ pointer reservedLen,
      state.reservation = some (pointer, reservedLen) ∧ len ≤ reservedLen
  | .writable _ send _ => state.reservation = none ∧
      ∃ C, state.W.writeCookie = some C ∧ send.Fits C

/-- Each call is allowed where it happens. -/
def AllowedRun (state : RunState) : List Op → Prop
  | [] => True
  | op :: ops => Allowed state op ∧
      ∀ after, step state op = .ok after → AllowedRun after ops

/-! ## What should hold -/

/-- The call returns NULL or a nonzero status. -/
def Fails (state : RunState) : Op → Prop
  | .write allocs buf => ∃ poked,
      netbufWriteWrite allocs state.W buf = .ok poked ∧ poked.status ≠ 0
  | .reserve allocs len => ∃ W,
      netbufWriteReserve allocs state.W len = .ok (none, W)
  | .consume allocs len => ∃ poked,
      netbufWriteConsume allocs state.W len = .ok poked ∧ poked.status ≠ 0
  | .fill _ _ | .writable _ _ _ => False

/-- The queue, the write in progress and the flag are as before. -/
structure Unchanged (W after : NetbufWrite) : Prop where
  queued : queued after = queued W
  writeCookie : after.writeCookie = W.writeCookie
  inFlight : inFlight after = inFlight W
  reserved : after.reserved = W.reserved

/-- No assertion fails, and a call that fails changes nothing. -/
def Usable (state : RunState) : List Op → Prop
  | [] => True
  | op :: ops => ∃ after, step state op = .ok after ∧
      (Fails state op → Unchanged state.W after.W) ∧ Usable after ops

/-! ## When it does hold -/

/-- There is room in the last buffer, or a new buffer can be allocated. -/
def CanReserve (allocs : WriterAllocs) (W : NetbufWrite) (len : Nat) :
    Prop :=
  room W len ≠ none ∨ allocs.writebuf ≠ none ∧ allocs.bytes ≠ none

/-- The length of the first buffer of the queue, when bytes have been added to
the last one or, without room there, to a new one. -/
def headWith (W : NetbufWrite) (len : Nat) : Nat :=
  (headData W).length +
    if W.buffers = [] ∨ W.buffers.length = 1 ∧ room W len ≠ none then len
    else 0

/-- `network_write` can be called with a buffer of this length. -/
def CanWrite (len : Nat) : Prop := 0 < len ∧ len ≤ SSIZE_MAX

/-- A reservation gets its buffer.  A write is launched only of a buffer that
is not empty, and it does not fail when bytes have just joined the queue or a
reservation has just ended. -/
def Careful (state : RunState) : Op → Prop
  | .write allocs buf => state.W.failed = true ∨
      CanReserve allocs state.W buf.length ∧
        (state.W.writeCookie = none →
          CanWrite (headWith state.W buf.length) ∧
          (buf = [] ∨ Succeeds allocs))
  | .reserve allocs len => CanReserve allocs state.W len
  | .fill _ _ => True
  | .consume allocs len => state.W.failed = true ∨
      (state.W.writeCookie = none →
        CanWrite (headWith state.W len) ∧ Succeeds allocs)
  | .writable _ send _ => ∀ C len, state.W.writeCookie = some C →
      send = .sent len → C.bufpos + len = C.buflen →
      state.W.buffers ≠ [] → CanWrite (headData state.W).length

/-- Each call of the run is like this. -/
def CarefulRun (state : RunState) : List Op → Prop
  | [] => True
  | op :: ops => Careful state op ∧
      ∀ after, step state op = .ok after → CarefulRun after ops

/-! ## The queue is poked -/

/-- How `poke` ends. -/
inductive PokeEnds (allocs : WriterAllocs) (W : NetbufWrite) :
    Except NetbufAssert Poked → Prop where
  | stays (notIdle : W.writeCookie ≠ none ∨ W.buffers = [] ∨
      W.failed = true) : PokeEnds allocs W (.ok ⟨0, none, W⟩)
  | starts {first : Nat} {rest : List Nat} (notFailed : W.failed = false)
      (writable : CanWrite (headData W).length)
      (succeeds : Succeeds allocs) (sane : Sane (started W first rest)) :
      PokeEnds allocs W
        (.ok ⟨0, some (headData W), started W first rest⟩)
  | fails (isIdle : W.writeCookie = none) (notFailed : W.failed = false)
      (writable : CanWrite (headData W).length)
      (notSucceeds : ¬ Succeeds allocs) :
      PokeEnds allocs W (.ok ⟨-1, none, W⟩)
  | asserts {assertion : NetbufAssert} (isIdle : W.writeCookie = none)
      (notFailed : W.failed = false) (nonempty : W.buffers ≠ [])
      (notWritable : ¬ CanWrite (headData W).length) :
      PokeEnds allocs W (.error assertion)

theorem poke_ends (sane : Sane W) (allocs : WriterAllocs) :
    PokeEnds allocs W (poke allocs W) := by
  by_cases stays : W.writeCookie ≠ none ∨ W.buffers = [] ∨ W.failed = true
  · rw [poke_stays stays]
    exact PokeEnds.stays stays
  rw [not_or, not_or, not_not, Bool.not_eq_true] at stays
  rcases stays with ⟨isIdle, nonempty, notFailed⟩
  rcases List.exists_cons_of_ne_nil nonempty with ⟨first, rest, queue⟩
  rw [poke_launches sane isIdle notFailed queue]
  split_ifs with isEmpty large noCookie noEvent
  · exact PokeEnds.asserts isIdle notFailed nonempty
      fun writable => writable.1.ne' isEmpty
  · exact PokeEnds.asserts isIdle notFailed nonempty
      fun writable => large.not_ge writable.2
  · apply PokeEnds.fails isIdle notFailed
      ⟨Nat.pos_of_ne_zero isEmpty, not_lt.mp large⟩
    rintro ⟨cookie, _⟩
    rw [cookie] at noCookie
    exact absurd noCookie (by decide)
  · apply PokeEnds.fails isIdle notFailed
      ⟨Nat.pos_of_ne_zero isEmpty, not_lt.mp large⟩
    rintro ⟨_, register⟩
    rw [register] at noEvent
    exact absurd noEvent (by decide)
  · apply PokeEnds.starts notFailed
      ⟨Nat.pos_of_ne_zero isEmpty, not_lt.mp large⟩
    · exact ⟨by simpa using noCookie, by simpa using noEvent⟩
    · exact sane.started notFailed queue isEmpty (not_lt.mp large)

/-! ## A reservation -/

theorem netbufWriteReserve_fails (sane : Sane W)
    (notReserved : W.reserved = false)
    (cannot : ¬ CanReserve allocs W len) :
    netbufWriteReserve allocs W len =
      .ok (none, { W with reserved := true }) := by
  unfold CanReserve at cannot
  rw [not_or, not_not] at cannot
  rcases cannot with ⟨noRoom, notAllocated⟩
  rw [netbufWriteReserve_eq sane notReserved, noRoom]
  unfold addBuffer
  cases isAddress : allocs.writebuf with
  | none => rfl
  | some address =>
      cases isBytes : allocs.bytes with
      | none => rfl
      | some bytes =>
          rw [isAddress, isBytes] at notAllocated
          exact absurd ⟨Option.some_ne_none _, Option.some_ne_none _⟩
            notAllocated

/-- Where space is reserved, only the number of buffers counts. -/
theorem headWith_reserved {reservedLen : Nat}
    (reserved : Reserved W pointer reservedLen) (bound : len ≤ reservedLen) :
    headWith W len = (headData W).length +
      if W.buffers.length = 1 then len else 0 := by
  rcases reserved.space with ⟨WB, here, _, space⟩
  have nonempty : W.buffers ≠ [] := by
    intro isEmpty
    have last := reserved.last
    rw [isEmpty] at last
    exact Option.some_ne_none _ last.symm
  have hasRoom : room W len ≠ none := by
    unfold room
    rw [reserved.last, Option.bind_some, here, Option.bind_some,
      if_pos (by omega)]
    exact Option.some_ne_none _
  unfold headWith
  simp only [nonempty, hasRoom, false_or, ne_eq, not_false_eq_true, and_true]

theorem netbufWriteReserve_succeeds (sane : Sane W)
    (notReserved : W.reserved = false) (size : len < 2 ^ 64)
    (fresh : Fresh allocs W) (can : CanReserve allocs W len) :
    ∃ pointer after, netbufWriteReserve allocs W len =
        .ok (some pointer, after) ∧
      Sane after ∧ Reserved after pointer len ∧ queued after = queued W ∧
      Kept W after ∧ headWith after len = headWith W len := by
  have startKept : Kept W { W with reserved := true } :=
    ⟨rfl, rfl, rfl, rfl⟩
  rw [netbufWriteReserve_eq sane notReserved]
  cases hasRoom : room W len with
  | some pointer =>
      exact ⟨pointer, _, rfl, sane.reserve, room_reserved hasRoom, rfl,
        startKept, rfl⟩
  | none =>
      have allocated : Allocated allocs { W with reserved := true } := by
        rcases can.resolve_left fun isSome => isSome hasRoom with
          ⟨hasAddress, hasBytes⟩
        rcases Option.ne_none_iff_exists'.mp hasAddress with
          ⟨address, isAddress⟩
        rcases Option.ne_none_iff_exists'.mp hasBytes with ⟨bytes, isBytes⟩
        exact ⟨address, bytes, isAddress, isBytes, fresh address isAddress⟩
      obtain ⟨address, new, added, result, isAdded, notQueued, isEmpty,
        enough, addedSane, reserved, sameData, same⟩ :=
        addBuffer_sane sane.reserve rfl size allocated
      refine ⟨_, added, congrArg Except.ok result, addedSane, reserved,
        sameData, startKept.trans same, ?_⟩
      rw [headWith_reserved reserved le_rfl]
      unfold headWith headData
      rw [hasRoom, isAdded]
      dsimp only
      cases queue : W.buffers with
      | nil =>
          have nothing : dataAt (Function.update W.memory address (some new))
              address = [] := by
            rw [dataAt_some (Function.update_self _ _ _)]
            unfold Writebuf.data
            rw [isEmpty]
            exact Lib.Buffer.slice_zero _ _
          simp [nothing]
      | cons first rest =>
          have different : first ≠ address := by
            rintro rfl
            exact notQueued (queue ▸ List.mem_cons_self)
          simp [dataAt_update different]

/-! ## Bytes are copied and consumed -/

theorem copyTo_keeps (sane : Sane W) {reservedLen : Nat}
    (reserved : Reserved W pointer reservedLen) {start : Nat}
    {bytes : List UInt8} (inside : start + bytes.length ≤ reservedLen) :
    let after := copyTo W (pointer.1, pointer.2 + start) bytes
    Sane after ∧ Reserved after pointer reservedLen ∧
      queued after = queued W ∧ Kept W after ∧
      headData after = headData W := by
  intro after
  obtain ⟨WB, changed, here, isAfter, datalen, buflen, data, sound⟩ :=
    copyTo_sane sane reserved inside
  obtain ⟨WB', here', isEnd, space⟩ := reserved.space
  obtain rfl : WB' = WB := Option.some.inj (here'.symm.trans here)
  have afterEq : after = _ := isAfter
  have notWriting : ∀ C, W.writeCookie = some C → C.buf ≠ pointer.1 :=
    fun C isCookie => sane.last_ne reserved.last isCookie
  have sameData : dataAt (Function.update W.memory pointer.1 (some changed))
      = dataAt W.memory := by
    ext1 address
    by_cases isPointer : address = pointer.1
    · rw [isPointer, dataAt_some (Function.update_self _ _ _), data,
        dataAt_some here]
    · exact dataAt_update isPointer _
  rw [afterEq]
  refine ⟨sane.update sound notWriting sane.nodup
    fun _ member => Or.inl member, ⟨reserved.isReserved, reserved.last,
    changed, Function.update_self _ _ _, ?_, ?_⟩, ?_,
    kept_update notWriting _, ?_⟩
  · rw [datalen, isEnd]
  · rw [datalen, buflen]
    exact space
  · unfold queued
    dsimp only
    rw [sameData]
  · unfold headData
    dsimp only
    rw [sameData]

theorem consumed_headData (sane : Sane W) {reservedLen : Nat}
    (reserved : Reserved W pointer reservedLen) (bound : len ≤ reservedLen)
    (consumedSane : Sane (consumed W pointer.1 len))
    (notFailed : W.failed = false) :
    (headData (consumed W pointer.1 len)).length = headWith W len := by
  rcases reserved.space with ⟨WB, here, _, space⟩
  rcases sane.split_last reserved.last with ⟨init, queue, notInit⟩
  have consumedQueue : (consumed W pointer.1 len).buffers =
      init ++ [pointer.1] := queue
  have advancedHere : (consumed W pointer.1 len).memory pointer.1 =
      some (advanced W WB len) := by
    unfold consumed
    dsimp only
    rw [Function.update_self, here]
    rfl
  rw [headWith_reserved reserved bound, queue]
  cases init with
  | nil =>
      rw [headData_cons consumedQueue, headData_cons queue,
        consumedSane.length_dataAt advancedHere, sane.length_dataAt here]
      unfold advanced
      rw [if_pos notFailed]
      rfl
  | cons first rest =>
      have different : first ≠ pointer.1 := by
        rintro rfl
        exact notInit List.mem_cons_self
      have two : ¬ (first :: rest ++ [pointer.1]).length = 1 := by simp
      have same : dataAt (consumed W pointer.1 len).memory first =
          dataAt W.memory first := dataAt_update different _
      rw [headData_cons consumedQueue, headData_cons queue, same,
        if_neg two]
      rfl

/-- How `netbuf_write_consume` ends. -/
inductive ConsumeEnds (allocs : WriterAllocs) (W : NetbufWrite)
    (bytes : List UInt8) (head : Nat) : Except NetbufAssert Poked → Prop where
  | stays {after : NetbufWrite} (notIdle : W.writeCookie ≠ none ∨
      W.failed = true) (sane : Sane after)
      (notReserved : after.reserved = false) :
      ConsumeEnds allocs W bytes head (.ok ⟨0, none, after⟩)
  | starts {after : NetbufWrite} {data : List UInt8}
      (writable : CanWrite head) (succeeds : Succeeds allocs)
      (sane : Sane after) (notReserved : after.reserved = false) :
      ConsumeEnds allocs W bytes head (.ok ⟨0, some data, after⟩)
  | fails {after : NetbufWrite} (isIdle : W.writeCookie = none)
      (notFailed : W.failed = false) (writable : CanWrite head)
      (notSucceeds : ¬ Succeeds allocs) (sane : Sane after)
      (notReserved : after.reserved = false)
      (sameCookie : after.writeCookie = W.writeCookie)
      (sameFlight : inFlight after = inFlight W)
      (queue : queued after = queued W ++ bytes) :
      ConsumeEnds allocs W bytes head (.ok ⟨-1, none, after⟩)
  | asserts {assertion : NetbufAssert} (isIdle : W.writeCookie = none)
      (notFailed : W.failed = false) (notWritable : ¬ CanWrite head) :
      ConsumeEnds allocs W bytes head (.error assertion)

theorem netbufWriteConsume_ends (sane : Sane W) {reservedLen : Nat}
    (reserved : Reserved W pointer reservedLen) (bound : len ≤ reservedLen)
    (allocs : WriterAllocs) :
    ConsumeEnds allocs W (reservedBytes W pointer len) (headWith W len)
      (netbufWriteConsume allocs W len) := by
  obtain ⟨result, consumedSane, kept, queue⟩ :=
    netbufWriteConsume_sane sane reserved bound allocs
  have head := consumed_headData sane reserved bound consumedSane
  have nonempty : (consumed W pointer.1 len).buffers ≠ [] :=
    List.ne_nil_of_mem (List.mem_of_getLast? reserved.last)
  have ends := poke_ends consumedSane allocs
  rw [result]
  generalize poke allocs (consumed W pointer.1 len) = poked at ends
  cases ends with
  | stays notIdle =>
      refine ConsumeEnds.stays ?_ consumedSane rfl
      rcases notIdle with isWriting | isEmpty | failed
      · exact Or.inl isWriting
      · exact absurd isEmpty nonempty
      · exact Or.inr failed
  | starts notFailed writable succeeds startedSane =>
      rw [head notFailed] at writable
      exact ConsumeEnds.starts writable succeeds startedSane rfl
  | fails isIdle notFailed writable notSucceeds =>
      rw [head notFailed] at writable
      have isQueue : queued (consumed W pointer.1 len) =
          queued W ++ reservedBytes W pointer len := by
        have stays : W.failed = false := notFailed
        rw [queue, if_neg (Bool.eq_false_iff.mp stays)]
      exact ConsumeEnds.fails isIdle notFailed writable notSucceeds
        consumedSane rfl rfl kept.inFlight isQueue
  | asserts isIdle notFailed nonempty notWritable =>
      rw [head notFailed] at notWritable
      exact ConsumeEnds.asserts isIdle notFailed notWritable

theorem netbufWriteWrite_ends (sane : Sane W)
    (notReserved : W.reserved = false) (notFailed : W.failed = false)
    {buf : List UInt8} (size : buf.length < 2 ^ 64) (fresh : Fresh allocs W)
    (can : CanReserve allocs W buf.length) :
    ConsumeEnds allocs W buf (headWith W buf.length)
      (netbufWriteWrite allocs W buf) := by
  obtain ⟨pointer, space, result, spaceSane, reserved, sameQueue, kept,
    sameHead⟩ :=
    netbufWriteReserve_succeeds sane notReserved size fresh can
  have inside : 0 + buf.length ≤ buf.length := (Nat.zero_add _).le
  obtain ⟨copiedSane, copiedReserved, copiedQueue, copiedKept,
    copiedHead⟩ :
      Sane (copyTo space pointer buf) ∧
        Reserved (copyTo space pointer buf) pointer buf.length ∧
        queued (copyTo space pointer buf) = queued space ∧
        Kept space (copyTo space pointer buf) ∧
        headData (copyTo space pointer buf) = headData space :=
    copyTo_keeps spaceSane reserved inside
  have keptAll := kept.trans copiedKept
  have copiedWith : headWith (copyTo space pointer buf) buf.length =
      headWith W buf.length := by
    rw [headWith_reserved copiedReserved le_rfl, copiedHead, ← sameHead,
      headWith_reserved reserved le_rfl]
    rfl
  have ends :=
    netbufWriteConsume_ends copiedSane copiedReserved le_rfl allocs
  rw [copiedWith, reservedBytes_copyTo spaceSane reserved] at ends
  unfold netbufWriteWrite
  rw [if_neg (Bool.eq_false_iff.mp notFailed), result]
  dsimp only
  generalize netbufWriteConsume allocs (copyTo space pointer buf) buf.length
    = poked at ends
  cases ends with
  | stays notIdle after free =>
      refine ConsumeEnds.stays ?_ after free
      rw [← keptAll.writeCookie, ← keptAll.failed]
      exact notIdle
  | starts writable succeeds after free =>
      exact ConsumeEnds.starts writable succeeds after free
  | fails isIdle notFailed writable notSucceeds after free sameCookie
      sameFlight queue =>
      refine ConsumeEnds.fails ?_ ?_ writable notSucceeds after free
        (sameCookie.trans keptAll.writeCookie)
        (sameFlight.trans keptAll.inFlight) ?_
      · rw [← keptAll.writeCookie]
        exact isIdle
      · rw [← keptAll.failed]
        exact notFailed
      · rw [queue, copiedQueue, sameQueue]
  | asserts isIdle notFailed notWritable =>
      refine ConsumeEnds.asserts ?_ ?_ notWritable
      · rw [← keptAll.writeCookie]
        exact isIdle
      · rw [← keptAll.failed]
        exact notFailed

/-! ## One call -/

/-- What holds between the calls of a run. -/
structure Ready (state : RunState) : Prop where
  sane : Sane state.W
  free : state.reservation = none → state.W.reserved = false
  reserved : ∀ pointer len, state.reservation = some (pointer, len) →
    Reserved state.W pointer len

/-- How a call ends. -/
inductive StepEnds (state : RunState) (op : Op) :
    Except NetbufAssert RunState → Prop where
  | keeps {after : RunState} (careful : Careful state op)
      (unchanged : Fails state op → Unchanged state.W after.W)
      (ready : Ready after) : StepEnds state op (.ok after)
  | changes {after : RunState} (careless : ¬ Careful state op)
      (fails : Fails state op) (changed : ¬ Unchanged state.W after.W) :
      StepEnds state op (.ok after)
  | asserts {assertion : NetbufAssert} (careless : ¬ Careful state op) :
      StepEnds state op (.error assertion)

variable {state : RunState}

theorem start_ready : Ready {} where
  sane := WriteOps.start_invariant.sane
  free _ := rfl
  reserved _ _ noReservation :=
    absurd noReservation (Option.some_ne_none _).symm

theorem record_W (base : RunState) (poked : Poked) :
    (record base poked).W = poked.W := by
  unfold record
  cases poked.handed <;> rfl

/-- A call that returns zero does not fail. -/
theorem not_fails_of_ok {outcome : Except NetbufAssert Poked}
    {handed : Option (List UInt8)} {W : NetbufWrite}
    (result : outcome = .ok ⟨0, handed, W⟩) :
    ¬ ∃ poked, outcome = .ok poked ∧ poked.status ≠ 0 := by
  rintro ⟨poked, isPoked, failed⟩
  cases result.symm.trans isPoked
  exact absurd rfl failed

theorem not_unchanged {W after : NetbufWrite} {reserved : Bool}
    (was : W.reserved = reserved) (now : after.reserved = !reserved) :
    ¬ Unchanged W after := by
  intro unchanged
  have same := unchanged.reserved
  rw [was, now] at same
  exact Bool.not_ne_self reserved same

theorem ready_record {base : RunState}
    (noReservation : base.reservation = none) {poked : Poked}
    (sane : Sane poked.W) (notReserved : poked.W.reserved = false) :
    Ready (record base poked) := by
  have sameReservation : (record base poked).reservation = none := by
    rw [← noReservation]
    unfold record
    cases poked.handed <;> rfl
  refine ⟨?_, ?_, ?_⟩
  · rw [record_W]
    exact sane
  · rw [record_W]
    exact fun _ => notReserved
  · intro pointer len isReservation
    rw [sameReservation] at isReservation
    exact absurd isReservation (Option.some_ne_none _).symm

theorem Ready.write (ready : Ready state) {buf : List UInt8}
    (allowed : Allowed state (.write allocs buf)) :
    StepEnds state (.write allocs buf) (step state (.write allocs buf)) := by
  rcases allowed with ⟨noReservation, size, fresh⟩
  have notReserved := ready.free noReservation
  change StepEnds state _ ((netbufWriteWrite allocs state.W buf).map
    (record { state with consumed := state.consumed ++ buf }))
  generalize isBase :
    { state with consumed := state.consumed ++ buf } = base
  have baseFree : base.reservation = none := by
    rw [← isBase]
    exact noReservation
  cases isFailed : state.W.failed with
  | true =>
      have result : netbufWriteWrite allocs state.W buf =
          .ok ⟨0, none, state.W⟩ := by
        unfold netbufWriteWrite
        rw [if_pos isFailed]
      rw [result]
      exact StepEnds.keeps (Or.inl isFailed) (absurd · (not_fails_of_ok result))
        (ready_record baseFree ready.sane notReserved)
  | false =>
      have notFailed : ¬ state.W.failed = true := Bool.eq_false_iff.mp isFailed
      by_cases can : CanReserve allocs state.W buf.length
      · have ends := netbufWriteWrite_ends ready.sane notReserved isFailed
          size fresh can
        generalize result : netbufWriteWrite allocs state.W buf = outcome
          at ends
        cases ends with
        | stays notIdle after free =>
            have isWriting := notIdle.resolve_right notFailed
            exact StepEnds.keeps
              (Or.inr ⟨can, fun isIdle => absurd isIdle isWriting⟩)
              (absurd · (not_fails_of_ok result))
              (ready_record baseFree after free)
        | starts writable succeeds after free =>
            exact StepEnds.keeps
              (Or.inr ⟨can, fun _ => ⟨writable, Or.inr succeeds⟩⟩)
              (absurd · (not_fails_of_ok result))
              (ready_record baseFree after free)
        | fails isIdle _ writable notSucceeds after free sameCookie
            sameFlight queue =>
            by_cases isEmpty : buf = []
            · refine StepEnds.keeps
                (Or.inr ⟨can, fun _ => ⟨writable, Or.inl isEmpty⟩⟩)
                (fun _ => ?_) (ready_record baseFree after free)
              rw [record_W]
              refine ⟨?_, sameCookie, sameFlight,
                free.trans notReserved.symm⟩
              rw [queue, isEmpty, List.append_nil]
            · refine StepEnds.changes ?_ ⟨_, result, by simp⟩ ?_
              · rintro (failed | ⟨_, launches⟩)
                · exact notFailed failed
                · rcases (launches isIdle).2 with noBytes | succeeds
                  · exact isEmpty noBytes
                  · exact notSucceeds succeeds
              · rw [record_W]
                intro unchanged
                have same := unchanged.queued
                rw [queue] at same
                exact isEmpty (List.append_right_eq_self.mp same)
        | asserts isIdle _ notWritable =>
            refine StepEnds.asserts ?_
            rintro (failed | ⟨_, launches⟩)
            · exact notFailed failed
            · exact notWritable (launches isIdle).1
      · have result : netbufWriteWrite allocs state.W buf =
            .ok ⟨-1, none, { state.W with reserved := true }⟩ := by
          unfold netbufWriteWrite
          rw [if_neg notFailed,
            netbufWriteReserve_fails ready.sane notReserved can]
        rw [result]
        refine StepEnds.changes ?_ ⟨_, result, by simp⟩ ?_
        · rintro (failed | ⟨canReserve, _⟩)
          · exact notFailed failed
          · exact can canReserve
        · rw [record_W]
          exact not_unchanged notReserved rfl

theorem Ready.reserve (ready : Ready state)
    (allowed : Allowed state (.reserve allocs len)) :
    StepEnds state (.reserve allocs len)
      (step state (.reserve allocs len)) := by
  rcases allowed with ⟨noReservation, size, fresh⟩
  have notReserved := ready.free noReservation
  simp only [step]
  by_cases can : CanReserve allocs state.W len
  · obtain ⟨pointer, after, result, sane, reserved, _, _, _⟩ :=
      netbufWriteReserve_succeeds ready.sane notReserved size fresh can
    rw [result]
    refine StepEnds.keeps can ?_
      ⟨sane, fun free => absurd free (Option.some_ne_none _), ?_⟩
    · rintro ⟨W, failed⟩
      cases result.symm.trans failed
    · rintro _ _ ⟨⟩
      exact reserved
  · have result := netbufWriteReserve_fails ready.sane notReserved can
    rw [result]
    exact StepEnds.changes can ⟨_, result⟩ (not_unchanged notReserved rfl)

theorem Ready.fill (ready : Ready state) {start : Nat} {bytes : List UInt8}
    (allowed : Allowed state (.fill start bytes)) :
    StepEnds state (.fill start bytes) (step state (.fill start bytes)) := by
  rcases allowed with ⟨pointer, len, isReservation, inside⟩
  have reserved := ready.reserved pointer len isReservation
  obtain ⟨sane, reservedAfter, _, _, _⟩ :=
    copyTo_keeps ready.sane reserved inside
  simp only [step]
  rw [isReservation]
  refine StepEnds.keeps trivial (fun failed => failed.elim)
    ⟨sane, fun free => absurd free (Option.some_ne_none _), ?_⟩
  rintro _ _ ⟨⟩
  exact reservedAfter

theorem Ready.consume (ready : Ready state)
    (allowed : Allowed state (.consume allocs len)) :
    StepEnds state (.consume allocs len)
      (step state (.consume allocs len)) := by
  rcases allowed with ⟨pointer, reservedLen, isReservation, bound⟩
  have reserved := ready.reserved pointer reservedLen isReservation
  have ends := netbufWriteConsume_ends ready.sane reserved bound allocs
  change StepEnds state _ ((netbufWriteConsume allocs state.W len).map
    (record { state with
      consumed := state.consumed ++ consumes state (.consume allocs len)
      reservation := none }))
  generalize isBase : ({ state with
      consumed := state.consumed ++ consumes state (.consume allocs len)
      reservation := none } : RunState) = base
  have baseFree : base.reservation = none := by rw [← isBase]
  generalize result : netbufWriteConsume allocs state.W len = outcome at ends
  cases ends with
  | stays notIdle after free =>
      refine StepEnds.keeps ?_ (absurd · (not_fails_of_ok result))
        (ready_record baseFree after free)
      rcases notIdle with isWriting | failed
      · exact Or.inr fun isIdle => absurd isIdle isWriting
      · exact Or.inl failed
  | starts writable succeeds after free =>
      exact StepEnds.keeps (Or.inr fun _ => ⟨writable, succeeds⟩)
        (absurd · (not_fails_of_ok result)) (ready_record baseFree after free)
  | fails isIdle notFailed writable notSucceeds after free =>
      refine StepEnds.changes ?_ ⟨_, result, by simp⟩ ?_
      · rintro (failed | launches)
        · exact Bool.eq_false_iff.mp notFailed failed
        · exact notSucceeds (launches isIdle).2
      · rw [record_W]
        exact not_unchanged reserved.isReserved free
  | asserts isIdle notFailed notWritable =>
      refine StepEnds.asserts ?_
      rintro (failed | launches)
      · exact Bool.eq_false_iff.mp notFailed failed
      · exact notWritable (launches isIdle).1

/-! ## The socket is writable -/

section Writable

variable {C : NetworkWriteCookie} {send : Send} {registered : Bool}

/-- How the network event ends. -/
inductive BufEnds (send : Send) (C : NetworkWriteCookie) :
    Except WriteAssert WriteResult → Prop where
  | waits {bufpos : Nat} (before : bufpos < C.buflen)
      (notAll : ∀ len, send = .sent len → C.bufpos + len ≠ C.buflen) :
      BufEnds send C (.ok (.waits { C with bufpos }))
  | fails (notAll : ∀ len, send = .sent len → C.bufpos + len ≠ C.buflen) :
      BufEnds send C (.ok (.calls (-1)))
  | completes {len : Nat} (isSent : send = .sent len)
      (all : C.bufpos + len = C.buflen) :
      BufEnds send C (.ok (.calls C.buflen))

theorem callbackBuf_ends (writing : Writing W C) (fits : send.Fits C)
    (registered : Bool) : BufEnds send C (callbackBuf registered send C) := by
  have bufpos_lt := writing.bufpos_lt
  have minlen := writing.minlen
  have small := writing.small
  have smallMax : SSIZE_MAX < 2 ^ 64 := by decide
  cases send with
  | error => exact BufEnds.fails nofun
  | again =>
      cases registered with
      | false => exact BufEnds.fails nofun
      | true => exact BufEnds.waits bufpos_lt nofun
  | sent n =>
      rcases fits n rfl with ⟨positive, bound⟩
      rw [sizeSub_eq (by omega) (by omega)] at bound
      unfold callbackBuf
      dsimp only
      rw [if_neg (not_not.mpr positive.ne'), sizeAdd_eq (by omega)]
      by_cases short : C.bufpos + n < C.minlen
      · have notAll : ∀ len, Send.sent n = .sent len →
            C.bufpos + len ≠ C.buflen := by
          rintro len ⟨⟩
          omega
        rw [if_pos short]
        cases registered with
        | false => exact BufEnds.fails notAll
        | true => exact BufEnds.waits (minlen ▸ short) notAll
      · have isAll : C.bufpos + n = C.buflen := by omega
        rw [if_neg short, if_neg (by omega), isAll]
        exact BufEnds.completes rfl isAll

/-- The write goes on. -/
theorem Ready.waits (ready : Ready state)
    (isCookie : state.W.writeCookie = some C) {bufpos : Nat}
    (before : bufpos < C.buflen) (sent : List UInt8) :
    Ready { state with
      W := { state.W with writeCookie := some { C with bufpos } }
      sent } := by
  have sane := ready.sane
  have writing := sane.writing C isCookie
  refine ⟨⟨sane.allocated, sane.sound, sane.nodup, ?_, nofun, ?_⟩,
    ready.free, fun pointer len isReservation =>
      have reserved := ready.reserved pointer len isReservation
      ⟨reserved.isReserved, reserved.last, reserved.space⟩⟩
  · rintro C' ⟨⟩
    exact ⟨writing.curr, writing.notQueued, writing.allocated,
      writing.minlen, before, writing.small⟩
  · exact fun isFailed => absurd isFailed
      (Bool.eq_false_iff.mp (sane.notFailed isCookie))

theorem Ready.writable (ready : Ready state)
    (allowed : Allowed state (.writable allocs send registered)) :
    StepEnds state (.writable allocs send registered)
      (step state (.writable allocs send registered)) := by
  rcases allowed with ⟨noReservation, C, isCookie, fits⟩
  have notReserved := ready.free noReservation
  have sane := ready.sane
  have neverFails : Fails state (.writable allocs send registered) →
      ∀ after, Unchanged state.W after := fun failed => failed.elim
  have careful (notAll : ∀ len, send = .sent len →
      C.bufpos + len ≠ C.buflen) :
      Careful state (.writable allocs send registered) := by
    intro C' len isCookie' isSent all
    cases isCookie.symm.trans isCookie'
    exact absurd all (notAll len isSent)
  have endReady : ∀ failed poked, Sane poked.W → poked.W.reserved = false →
      Ready (record (recordEnd { state with
        sent := state.sent ++ sentBytes state.W C send } failed) poked) :=
    fun _ _ sane free => ready_record (by exact noReservation) sane free
  have ends := callbackBuf_ends (sane.writing C isCookie) fits registered
  simp only [step]
  rw [isCookie]
  dsimp only
  generalize callbackBuf registered send C = outcome at ends
  cases ends with
  | waits before notAll =>
      exact StepEnds.keeps (careful notAll)
        (fun failed => neverFails failed _) (ready.waits isCookie before _)
  | fails notAll =>
      dsimp only
      rw [writbuf_failed sane notReserved isCookie]
      refine StepEnds.keeps (careful notAll)
        (fun failed => neverFails failed _)
        (endReady true _ ?_ notReserved)
      exact (sane.ended isCookie true).1
  | @completes len isSent all =>
      obtain ⟨endedSane, sameMemory⟩ := sane.ended isCookie false
      have sameHead : headData (ended state.W C false) =
          headData state.W := by
        cases queue : state.W.buffers with
        | nil =>
            have queue' : (ended state.W C false).buffers = [] := queue
            unfold headData
            rw [queue, queue']
            rfl
        | cons first rest =>
            have queue' : (ended state.W C false).buffers =
                first :: rest := queue
            rw [headData_cons queue, headData_cons queue']
            unfold dataAt
            rw [sameMemory first (queue ▸ List.mem_cons_self)]
      have pokes := poke_ends endedSane allocs
      dsimp only
      rw [writbuf_complete sane notReserved isCookie]
      generalize poke allocs (ended state.W C false) = poked at pokes
      have carefulIf (writable : state.W.buffers ≠ [] →
          CanWrite (headData state.W).length) :
          Careful state (.writable allocs send registered) :=
        fun _ _ _ _ _ nonempty => writable nonempty
      cases pokes with
      | stays notIdle =>
          refine StepEnds.keeps (carefulIf ?_)
            (fun failed => neverFails failed _)
            (endReady false _ endedSane notReserved)
          intro nonempty
          rcases notIdle with isWriting | isEmpty | failed
          · exact absurd rfl isWriting
          · exact absurd isEmpty nonempty
          · exact Bool.noConfusion failed
      | starts _ writable _ startedSane =>
          rw [sameHead] at writable
          exact StepEnds.keeps (carefulIf fun _ => writable)
            (fun failed => neverFails failed _)
            (endReady false _ startedSane notReserved)
      | fails _ _ writable _ =>
          rw [sameHead] at writable
          exact StepEnds.keeps (carefulIf fun _ => writable)
            (fun failed => neverFails failed _)
            (endReady false _ endedSane notReserved)
      | asserts _ _ nonempty notWritable =>
          rw [sameHead] at notWritable
          refine StepEnds.asserts fun isCareful => notWritable ?_
          exact isCareful C len isCookie isSent all nonempty

end Writable

theorem Ready.step (ready : Ready state) {op : Op}
    (allowed : Allowed state op) : StepEnds state op (step state op) := by
  cases op with
  | write allocs buf => exact ready.write allowed
  | reserve allocs len => exact ready.reserve allowed
  | fill start bytes => exact ready.fill allowed
  | consume allocs len => exact ready.consume allowed
  | writable allocs send registered => exact ready.writable allowed

/-! ## Runs -/

theorem usable_iff {ops : List Op} (ready : Ready state)
    (allowed : AllowedRun state ops) :
    Usable state ops ↔ CarefulRun state ops := by
  induction ops generalizing state with
  | nil => exact Iff.rfl
  | cons op ops ih =>
      rcases allowed with ⟨first, rest⟩
      have ends := ready.step first
      unfold Usable CarefulRun
      generalize result : WriteRuns.step state op = outcome at ends
      cases ends with
      | @keeps after careful unchanged readyAfter =>
          have later := ih readyAfter (rest after result)
          constructor
          · rintro ⟨_, ⟨⟩, _, usable⟩
            refine ⟨careful, ?_⟩
            rintro _ ⟨⟩
            exact later.mp usable
          · rintro ⟨_, carefulRun⟩
            exact ⟨after, rfl, unchanged, later.mpr (carefulRun after rfl)⟩
      | changes careless fails changed =>
          constructor
          · rintro ⟨_, ⟨⟩, unchanged, _⟩
            exact absurd (unchanged fails) changed
          · rintro ⟨careful, _⟩
            exact absurd careful careless
      | asserts careless =>
          constructor
          · rintro ⟨_, ⟨⟩, _⟩
          · rintro ⟨careful, _⟩
            exact absurd careful careless

/-- In a run of a new writer, no assertion fails and a call that fails changes
nothing, if and only if each call is careful where it happens. -/
theorem netbuf_write_usable_iff (ops : List Op)
    (allowed : AllowedRun {} ops) : Usable {} ops ↔ CarefulRun {} ops :=
  usable_iff start_ready allowed

/-- Three bytes are written, then a byte while they are in flight; when they
are sent, `network_write` fails for the last byte. -/
def laterFailure : List Op :=
  [.write {} [1, 2, 3], .write { writebuf := some 1 } [7],
    .writable { write := { cookie := false } } (.sent 3) true]

theorem netbuf_write_usable_iff_laterFailure : Usable {} laterFailure := by
  refine (netbuf_write_usable_iff laterFailure ?_).mpr ?_
  · refine ⟨⟨rfl, by decide, fun _ _ => rfl⟩, ?_⟩
    rintro _ ⟨⟩
    refine ⟨⟨rfl, by decide, ?_⟩, ?_⟩
    · rintro _ ⟨⟩
      rfl
    rintro _ ⟨⟩
    refine ⟨⟨rfl, _, rfl, ?_⟩, fun _ _ => trivial⟩
    rintro len ⟨⟩
    decide
  · refine ⟨Or.inr ⟨Or.inr ⟨nofun, nofun⟩, fun _ => ?_⟩, ?_⟩
    · exact ⟨⟨by decide, by decide⟩, Or.inr ⟨rfl, rfl⟩⟩
    rintro _ ⟨⟩
    refine ⟨Or.inr ⟨Or.inr ⟨nofun, nofun⟩, nofun⟩, ?_⟩
    rintro _ ⟨⟩
    refine ⟨fun _ _ _ _ _ _ => ⟨by decide, by decide⟩, ?_⟩
    exact fun _ _ => trivial

/-- A reservation gets no buffer, and the next write fails an assertion; so
does an empty write. -/
theorem netbuf_write_not_usable :
    (AllowedRun {} [.reserve { writebuf := none } 1, .write {} [5]] ∧
      (∃ after, step {} (.reserve { writebuf := none } 1) = .ok after ∧
        step after (.write {} [5]) = .error .reserveReserved) ∧
      ¬ Usable {} [.reserve { writebuf := none } 1, .write {} [5]]) ∧
    AllowedRun {} [.write {} []] ∧
      step {} (.write {} []) = .error (.network .nonempty) ∧
      ¬ Usable {} [.write {} []] := by
  refine ⟨⟨⟨⟨rfl, by decide, nofun⟩, ?_⟩, ⟨_, rfl, rfl⟩, ?_⟩,
    ⟨⟨rfl, by decide, fun _ _ => rfl⟩, nofun⟩, rfl, ?_⟩
  · rintro _ ⟨⟩
    exact ⟨⟨rfl, by decide, fun _ _ => rfl⟩, fun _ _ => trivial⟩
  · rintro ⟨_, ⟨⟩, _, _, asserts, _⟩
    cases asserts
  · rintro ⟨_, asserts, _⟩
    cases asserts

end Libcperciva.Netbuf.WriteFailures
