import Libcperciva.Netbuf.WriteOps

/-!
# Every run of the buffered writer

A run writes, reserves and consumes in any order, and the socket takes the
bytes in pieces of any size, or fails.  As documented, a reservation is
consumed before the next one is made and before control returns to the event
loop; at least one byte is consumed, and no more than was reserved.
-/

namespace Libcperciva.Netbuf.WriteRuns

open Libcperciva.Lib.Buffer
open Libcperciva.Util.SizeT
open Libcperciva.Network.WriteModel
open Libcperciva.Netbuf.WriteModel
open Libcperciva.Netbuf.WriteOps

/-! ## Runs -/

/-- The writer, and what has happened. -/
structure RunState where
  W : NetbufWrite := {}
  /-- What the last reservation has returned, until it is consumed. -/
  reservation : Option ((Nat × Nat) × Nat) := none
  /-- All bytes that were written or consumed. -/
  consumed : List UInt8 := []
  /-- The bytes handed to `network_write`, in this order. -/
  handed : List UInt8 := []
  /-- Those of the last write. -/
  snapshot : List UInt8 := []
  /-- Those of the writes that have succeeded. -/
  written : List UInt8 := []
  /-- The bytes that `send` has taken. -/
  sent : List UInt8 := []
  /-- The number of writes that have started and not ended. -/
  outstanding : Nat := 0
  /-- The number of times the failure callback was invoked. -/
  failCalls : Nat := 0

/-- A call of the application or of the event loop. -/
inductive Op where
  | write (allocs : WriterAllocs) (buf : List UInt8)
  | reserve (allocs : WriterAllocs) (len : Nat)
  /-- The application writes to its reservation. -/
  | fill (start : Nat) (bytes : List UInt8)
  | consume (allocs : WriterAllocs) (len : Nat)
  /-- The network event of the write in progress is invoked. -/
  | writable (allocs : WriterAllocs) (send : Send) (registered : Bool)

/-- The bytes which a call consumes. -/
def consumes (state : RunState) : Op → List UInt8
  | .write _ buf => buf
  | .consume _ len =>
      (state.reservation.map fun reservation =>
        reservedBytes state.W reservation.1 len).getD []
  | _ => []

/-- A write that is started is recorded. -/
def record (state : RunState) (poked : Poked) : RunState :=
  match poked.handed with
  | none => { state with W := poked.W }
  | some bytes =>
      { state with
        W := poked.W
        handed := state.handed ++ bytes
        snapshot := bytes
        outstanding := state.outstanding + 1 }

/-- The bytes which `send` takes from a buffer. -/
def sentBytes (W : NetbufWrite) (C : NetworkWriteCookie) :
    Send → List UInt8
  | .sent len => slice (dataAt W.memory C.buf) C.bufpos len
  | _ => []

/-- The write in progress has ended. -/
def recordEnd (state : RunState) (failed : Bool) : RunState :=
  { state with
    written := if failed then state.written
      else state.written ++ state.snapshot
    outstanding := state.outstanding - 1
    failCalls := if failed then state.failCalls + 1 else state.failCalls }

/-- One call. -/
def step (state : RunState) (op : Op) : Except NetbufAssert RunState :=
  let consumed := state.consumed ++ consumes state op
  match op with
  | .write allocs buf =>
      (netbufWriteWrite allocs state.W buf).map fun poked =>
        record { state with consumed } poked
  | .reserve allocs len =>
      (netbufWriteReserve allocs state.W len).map fun (pointer, W) =>
        { state with W, reservation := pointer.map fun p => (p, len) }
  | .fill start bytes =>
      match state.reservation with
      | none => .error .memory
      | some (pointer, _) =>
          .ok { state with
            W := copyTo state.W (pointer.1, pointer.2 + start) bytes }
  | .consume allocs len =>
      (netbufWriteConsume allocs state.W len).map fun poked =>
        record { state with consumed, reservation := none } poked
  | .writable allocs send registered =>
      match state.W.writeCookie with
      | none => .error .writbufCookie
      | some C =>
          let state := { state with
            sent := state.sent ++ sentBytes state.W C send }
          match callbackBuf registered send C with
          | .error assertion => .error (.network assertion)
          | .ok (.waits C) =>
              .ok { state with W := { state.W with writeCookie := some C } }
          | .ok (.calls lenwrit) =>
              (writbuf allocs state.W lenwrit).map fun (failed, poked) =>
                record (recordEnd state failed) poked

/-- What is assumed of the application, the allocator and the socket. -/
def Allowed (state : RunState) : Op → Prop
  | .write allocs buf => state.reservation = none ∧ buf ≠ [] ∧
      buf.length < 2 ^ 64 ∧ Allocated allocs state.W
  | .reserve allocs len => state.reservation = none ∧ len < 2 ^ 64 ∧
      Allocated allocs state.W
  | .fill start bytes => ∃ pointer len,
      state.reservation = some (pointer, len) ∧ start + bytes.length ≤ len
  | .consume _ len => 0 < len ∧ ∃ pointer reservedLen,
      state.reservation = some (pointer, reservedLen) ∧ len ≤ reservedLen
  | .writable _ send _ => state.reservation = none ∧
      ∃ C, state.W.writeCookie = some C ∧ send.Fits C

/-- The states of a run. -/
inductive Run : RunState → Prop where
  | start : Run {}
  | call {state after : RunState} (op : Op) (before : Run state)
      (allowed : Allowed state op) (returned : step state op = .ok after) :
      Run after

/-! ## The invariant of a run -/

/-- How much of the write in progress was sent. -/
def progress (W : NetbufWrite) : Nat :=
  (W.writeCookie.map NetworkWriteCookie.bufpos).getD 0

/-- What holds between the calls of a run. -/
structure Invariant (state : RunState) : Prop where
  writer : WriteOps.Invariant state.W
  free : state.reservation = none → state.W.reserved = false
  reserved : ∀ pointer len, state.reservation = some (pointer, len) →
    Reserved state.W pointer len
  snapshot : state.W.writeCookie ≠ none →
    inFlight state.W = state.snapshot
  outstanding : state.outstanding = state.W.writeCookie.isSome.toNat
  handed : state.W.failed = false →
    state.handed = state.written ++ inFlight state.W
  consumed : ∃ rest, state.consumed = state.handed ++ rest ∧
    (state.W.failed = false → rest = queued state.W)
  failCalls : state.failCalls = state.W.failed.toNat
  sent : state.sent <+: state.handed
  sentNow : state.W.failed = false → state.sent =
    state.written ++ (inFlight state.W).take (progress state.W)

variable {state after : RunState}

theorem start_invariant : Invariant {} where
  writer := WriteOps.start_invariant
  free _ := rfl
  reserved _ _ noReservation :=
    absurd noReservation (Option.some_ne_none _).symm
  snapshot noCookie := absurd rfl noCookie
  outstanding := rfl
  handed _ := rfl
  consumed := ⟨[], rfl, fun _ => rfl⟩
  failCalls := rfl
  sent := List.prefix_rfl
  sentNow _ := rfl

/-- Bytes join the queue, and the write in progress is the same. -/
theorem Invariant.enqueue (invariant : Invariant state) {W : NetbufWrite}
    {bytes : List UInt8} {reservation : Option ((Nat × Nat) × Nat)}
    (writer : WriteOps.Invariant W) (kept : Kept state.W W)
    (queue : state.W.failed = false →
      queued W = queued state.W ++ bytes)
    (free : reservation = none → W.reserved = false)
    (reserved : ∀ pointer len, reservation = some (pointer, len) →
      Reserved W pointer len) :
    Invariant { state with
      W
      reservation
      consumed := state.consumed ++ bytes } := by
  have sameProgress : progress W = progress state.W := by
    unfold progress
    rw [kept.writeCookie]
  constructor <;> dsimp only
  · exact writer
  · exact free
  · exact reserved
  · rw [kept.writeCookie, kept.inFlight]
    exact invariant.snapshot
  · rw [kept.writeCookie]
    exact invariant.outstanding
  · rw [kept.failed, kept.inFlight]
    exact invariant.handed
  · obtain ⟨rest, split, isQueue⟩ := invariant.consumed
    refine ⟨rest ++ bytes, ?_, ?_⟩
    · rw [split, List.append_assoc]
    · intro notFailed
      rw [kept.failed] at notFailed
      rw [isQueue notFailed, queue notFailed]
  · rw [kept.failed]
    exact invariant.failCalls
  · exact invariant.sent
  · rw [kept.failed, kept.inFlight, sameProgress]
    exact invariant.sentNow

/-- How a call of a run can end. -/
inductive Continues (state : RunState) (op : Op) :
    Except NetbufAssert RunState → Prop where
  | returns {after : RunState} (invariant : Invariant after)
      (stays : state.W.failed = true →
        after.W.failed = true ∧ after.handed = state.handed) :
      Continues state op (.ok after)
  | tooLarge (large : SSIZE_MAX <
      (state.consumed ++ consumes state op).length) :
      Continues state op (.error (.network .fits))

/-- A buffer of the queue holds bytes that were consumed. -/
theorem Invariant.datalen_le (invariant : Invariant state)
    (notFailed : state.W.failed = false) {address : Nat}
    (member : address ∈ state.W.buffers) {WB : Writebuf}
    (here : state.W.memory address = some WB) :
    WB.datalen ≤ state.consumed.length := by
  obtain ⟨rest, split, isQueue⟩ := invariant.consumed
  have sound := invariant.writer.sound address WB here
  have datalen_le := sound.datalen_le
  have length := sound.length
  have dataLength : (dataAt state.W.memory address).length = WB.datalen := by
    rw [dataAt_some here]
    exact length_slice (by omega)
  have inQueue : (dataAt state.W.memory address).length ≤
      (queued state.W).length := by
    obtain ⟨front, back, buffers⟩ := List.append_of_mem member
    unfold queued
    rw [buffers, List.flatMap_append, List.flatMap_cons,
      List.length_append, List.length_append]
    omega
  rw [split, isQueue notFailed, List.length_append]
  omega

/-- The queue is poked after a change. -/
theorem Invariant.poked {op : Op} {base : RunState}
    (invariant : Invariant base) (notReserved : base.reservation = none)
    (sameConsumed : base.consumed = state.consumed ++ consumes state op)
    (stays : state.W.failed = true →
      base.W.failed = true ∧ base.handed = state.handed)
    {result : Except NetbufAssert Poked} (pokes : Pokes base.W result) :
    Continues state op (result.map (record base)) := by
  cases pokes with
  | unchanged => exact Continues.returns invariant stays
  | @started after bytes notFailed isIdle writer split isWriting
      inFlightAfter sameFailed sameReserved =>
      obtain ⟨C, isCookie, atStart⟩ := isWriting
      have nothing := inFlight_idle isIdle
      have noProgress : progress base.W = 0 := by
        unfold progress
        rw [isIdle]
        rfl
      have noProgressAfter : progress after = 0 := by
        unfold progress
        rw [isCookie]
        exact atStart
      refine Continues.returns ?_ ?_
      · constructor <;> dsimp only [record]
        · exact writer
        · intro noReservation
          rw [sameReserved]
          exact invariant.free noReservation
        · intro pointer len isReservation
          rw [notReserved] at isReservation
          exact absurd isReservation (Option.some_ne_none _).symm
        · exact fun _ => inFlightAfter
        · rw [invariant.outstanding, isIdle, isCookie]
          rfl
        · intro _
          rw [invariant.handed notFailed, nothing, List.append_nil,
            inFlightAfter]
        · obtain ⟨rest, consumedSplit, isQueue⟩ := invariant.consumed
          refine ⟨queued after, ?_, fun _ => rfl⟩
          rw [consumedSplit, isQueue notFailed, split, List.append_assoc]
        · rw [sameFailed]
          exact invariant.failCalls
        · exact invariant.sent.trans (List.prefix_append _ _)
        · intro _
          rw [noProgressAfter, List.take_zero]
          have sent := invariant.sentNow notFailed
          rwa [noProgress, List.take_zero] at sent
      · intro isFailed
        obtain ⟨baseFailed, _⟩ := stays isFailed
        rw [notFailed] at baseFailed
        exact Bool.noConfusion baseFailed
  | tooLarge notFailed member here large =>
      refine Continues.tooLarge ?_
      rw [← sameConsumed]
      exact large.trans_le (invariant.datalen_le notFailed member here)

/-- The data is where it was. -/
theorem Invariant.rearrange (invariant : Invariant state) {W : NetbufWrite}
    {reservation : Option ((Nat × Nat) × Nat)}
    (writer : WriteOps.Invariant W) (kept : Kept state.W W)
    (queue : queued W = queued state.W)
    (free : reservation = none → W.reserved = false)
    (reserved : ∀ pointer len, reservation = some (pointer, len) →
      Reserved W pointer len) :
    Invariant { state with W, reservation } := by
  have enqueued : Invariant { state with
      W
      reservation
      consumed := state.consumed ++ [] } :=
    invariant.enqueue writer kept
      (fun _ => by rw [queue, List.append_nil]) free reserved
  rwa [List.append_nil] at enqueued

/-! ## One call -/

theorem Invariant.write (invariant : Invariant state)
    {allocs : WriterAllocs} {buf : List UInt8}
    (allowed : Allowed state (.write allocs buf)) :
    Continues state (.write allocs buf)
      (step state (.write allocs buf)) := by
  obtain ⟨noReservation, nonempty, size, allocated⟩ := allowed
  have notReserved := invariant.free noReservation
  have noPointer : ∀ {W : NetbufWrite} pointer len,
      state.reservation = some (pointer, len) → Reserved W pointer len := by
    intro W pointer len isReservation
    rw [noReservation] at isReservation
    exact absurd isReservation (Option.some_ne_none _).symm
  simp only [step, netbufWriteWrite]
  by_cases failed : state.W.failed = true
  · rw [if_pos failed]
    have kept : Invariant { state with consumed := state.consumed ++ buf } :=
      invariant.enqueue invariant.writer ⟨rfl, rfl, rfl, rfl⟩
        (fun notFailed => absurd failed (Bool.eq_false_iff.mp notFailed))
        invariant.free invariant.reserved
    exact Continues.returns kept fun isFailed => ⟨isFailed, rfl⟩
  rw [if_neg failed]
  obtain ⟨pointer, space, result, writer, reserved, sameQueue, kept⟩ :=
    netbufWriteReserve_spec invariant.writer notReserved size allocated
  have inside : 0 + buf.length ≤ buf.length := (Nat.zero_add _).le
  obtain ⟨copied, reservedCopy, sameCopy, keptCopy⟩ :
      WriteOps.Invariant (copyTo space pointer buf) ∧
        Reserved (copyTo space pointer buf) pointer buf.length ∧
        queued (copyTo space pointer buf) = queued space ∧
        Kept space (copyTo space pointer buf) :=
    copyTo_spec writer reserved inside
  obtain ⟨middle, consumed, consumer, free, keptMiddle, queue⟩ :=
    netbufWriteConsume_spec copied reservedCopy
      (List.length_pos_of_ne_nil nonempty) le_rfl allocs
  have notFailedCopy : ¬ (copyTo space pointer buf).failed = true := by
    rw [keptCopy.failed, kept.failed]
    exact failed
  rw [if_neg notFailedCopy, reservedBytes_copyTo writer.sane reserved,
    sameCopy,
    sameQueue] at queue
  have base : Invariant { state with
      W := middle
      consumed := state.consumed ++ buf } :=
    invariant.enqueue consumer (kept.trans (keptCopy.trans keptMiddle))
      (fun _ => queue) (fun _ => free) noPointer
  rw [result]
  dsimp only
  rw [consumed]
  have continues : Continues state (.write allocs buf)
      ((poke allocs middle).map (record { state with
        W := middle
        consumed := state.consumed ++ buf })) :=
    base.poked noReservation rfl (fun isFailed => absurd isFailed failed)
      (poke_pokes consumer free allocs)
  generalize poke allocs middle = poked at continues ⊢
  cases poked with
  | error assertion => exact continues
  | ok poked =>
      obtain ⟨status, _ | bytes, after⟩ := poked <;> exact continues

theorem Invariant.reserve (invariant : Invariant state)
    {allocs : WriterAllocs} {len : Nat}
    (allowed : Allowed state (.reserve allocs len)) :
    Continues state (.reserve allocs len)
      (step state (.reserve allocs len)) := by
  obtain ⟨noReservation, size, allocated⟩ := allowed
  obtain ⟨pointer, space, result, writer, reserved, sameQueue, kept⟩ :=
    netbufWriteReserve_spec invariant.writer (invariant.free noReservation)
      size allocated
  have after : Invariant { state with
      W := space
      reservation := some (pointer, len) } :=
    invariant.rearrange writer kept sameQueue
      (fun isNone => absurd isNone (Option.some_ne_none _))
      fun _ _ same => by
        obtain ⟨rfl, rfl⟩ := Prod.mk.inj (Option.some.inj same)
        exact reserved
  simp only [step]
  rw [result]
  exact Continues.returns after fun isFailed =>
    ⟨kept.failed.trans isFailed, rfl⟩

theorem Invariant.fill (invariant : Invariant state) {start : Nat}
    {bytes : List UInt8} (allowed : Allowed state (.fill start bytes)) :
    Continues state (.fill start bytes)
      (step state (.fill start bytes)) := by
  obtain ⟨pointer, len, isReservation, inside⟩ := allowed
  have reserved := invariant.reserved pointer len isReservation
  obtain ⟨writer, reservedAfter, sameQueue, kept⟩ :=
    copyTo_spec invariant.writer reserved inside
  have after : Invariant { state with
      W := copyTo state.W (pointer.1, pointer.2 + start) bytes } := by
    refine invariant.rearrange writer kept sameQueue ?_ ?_
    · intro noReservation
      rw [isReservation] at noReservation
      exact absurd noReservation (Option.some_ne_none _)
    · intro pointer' len' same
      rw [isReservation] at same
      obtain ⟨rfl, rfl⟩ := Prod.mk.inj (Option.some.inj same)
      exact reservedAfter
  have result : step state (.fill start bytes) = .ok { state with
      W := copyTo state.W (pointer.1, pointer.2 + start) bytes } := by
    simp only [step]
    rw [isReservation]
  rw [result]
  exact Continues.returns after fun isFailed =>
    ⟨kept.failed.trans isFailed, rfl⟩

theorem Invariant.consume (invariant : Invariant state)
    {allocs : WriterAllocs} {len : Nat}
    (allowed : Allowed state (.consume allocs len)) :
    Continues state (.consume allocs len)
      (step state (.consume allocs len)) := by
  obtain ⟨positive, pointer, reservedLen, isReservation, bound⟩ := allowed
  have reserved := invariant.reserved pointer reservedLen isReservation
  obtain ⟨middle, consumed, writer, free, kept, queue⟩ :=
    netbufWriteConsume_spec invariant.writer reserved positive bound allocs
  have isBytes : consumes state (.consume allocs len) =
      reservedBytes state.W pointer len := by
    simp only [consumes, isReservation, Option.map_some, Option.getD_some]
  have base : Invariant { state with
      W := middle
      reservation := none
      consumed := state.consumed ++ consumes state (.consume allocs len) } := by
    rw [isBytes]
    refine invariant.enqueue writer kept ?_ (fun _ => free)
      fun _ _ noReservation =>
        absurd noReservation (Option.some_ne_none _).symm
    intro notFailed
    rw [queue, if_neg (Bool.eq_false_iff.mp notFailed)]
  simp only [step]
  rw [consumed]
  have continues : Continues state (.consume allocs len) _ :=
    base.poked rfl rfl
      (fun isFailed => ⟨kept.failed.trans isFailed, rfl⟩)
      (poke_pokes writer free allocs)
  generalize poke allocs middle = poked at continues ⊢
  cases poked with
  | error assertion => exact continues
  | ok poked =>
      obtain ⟨status, _ | bytes, after⟩ := poked <;> exact continues

/-! ## The socket is writable -/

section Writable

variable {C : NetworkWriteCookie} {allocs : WriterAllocs} {send : Send}
  {registered : Bool}

/-- What `send` takes is the next part of the write in progress. -/
theorem Invariant.sends (invariant : Invariant state)
    (isCookie : state.W.writeCookie = some C) (fits : send.Fits C) :
    ∃ len, C.bufpos + len ≤ C.buflen ∧
      state.sent ++ sentBytes state.W C send =
        state.written ++ (inFlight state.W).take (C.bufpos + len) ∧
      (∀ n, send = .sent n → n = len) ∧ (send = .again → len = 0) := by
  have notFailed := invariant.writer.notFailed isCookie
  have writing := invariant.writer.writing C isCookie
  have bufpos_lt := writing.bufpos_lt
  have small := writing.small
  have smallMax : SSIZE_MAX < 2 ^ 64 := by decide
  have isProgress : progress state.W = C.bufpos := by
    unfold progress
    rw [isCookie]
    rfl
  have sent := invariant.sentNow notFailed
  rw [isProgress] at sent
  have data : inFlight state.W = dataAt state.W.memory C.buf := by
    unfold inFlight
    rw [isCookie]
  cases send with
  | sent len =>
      obtain ⟨_, bound⟩ := fits len rfl
      rw [sizeSub_eq (by omega) (by omega)] at bound
      refine ⟨len, by omega, ?_, fun n same => (Send.sent.inj same).symm,
        fun same => Send.noConfusion same⟩
      rw [sent, List.append_assoc, List.take_add, data]
      rfl
  | again =>
      refine ⟨0, by omega, ?_, fun n same => Send.noConfusion same,
        fun _ => rfl⟩
      rw [sent, Nat.add_zero]
      exact List.append_nil _
  | error =>
      refine ⟨0, by omega, ?_, fun n same => Send.noConfusion same,
        fun _ => rfl⟩
      rw [sent, Nat.add_zero]
      exact List.append_nil _

/-- The write goes on. -/
theorem Invariant.waits (invariant : Invariant state)
    (isCookie : state.W.writeCookie = some C) {len : Nat}
    (bound : C.bufpos + len < C.buflen) {sent : List UInt8}
    (isSent : sent =
      state.written ++ (inFlight state.W).take (C.bufpos + len)) :
    Invariant { state with
      W := { state.W with
        writeCookie := some { C with bufpos := C.bufpos + len } }
      sent } := by
  have notFailed := invariant.writer.notFailed isCookie
  have writing := invariant.writer.writing C isCookie
  have writer := invariant.writer
  have data : inFlight state.W = dataAt state.W.memory C.buf := by
    unfold inFlight
    rw [isCookie]
  constructor <;> dsimp only
  · refine ⟨writer.allocated, writer.sound, writer.nodup, writer.nonempty,
      ?_, fun noCookie => absurd noCookie (Option.some_ne_none _),
      fun isFailed => absurd isFailed (Bool.eq_false_iff.mp notFailed)⟩
    rintro C' ⟨⟩
    exact ⟨writing.curr, writing.notQueued, writing.allocated,
      writing.minlen, bound, writing.small⟩
  · exact invariant.free
  · intro pointer len' isReservation
    have reserved := invariant.reserved pointer len' isReservation
    exact ⟨reserved.isReserved, reserved.last, reserved.space⟩
  · intro _
    rw [← invariant.snapshot (by simp [isCookie]), data]
    rfl
  · rw [invariant.outstanding, isCookie]
    rfl
  · intro _
    rw [invariant.handed notFailed, data]
    rfl
  · exact invariant.consumed
  · exact invariant.failCalls
  · rw [isSent, invariant.handed notFailed]
    exact (List.prefix_append_right_inj _).mpr (List.take_prefix _ _)
  · intro _
    rw [isSent, data]
    rfl

/-- The write has ended. -/
theorem Invariant.ends (invariant : Invariant state)
    (noReservation : state.reservation = none)
    (isCookie : state.W.writeCookie = some C) {sent : List UInt8}
    (failed : Bool) (isSent : sent <+: state.handed)
    (complete : failed = false → sent = state.handed) :
    Invariant { recordEnd { state with sent } failed with
      W := ended state.W C failed } := by
  have notFailed := invariant.writer.notFailed isCookie
  have notReserved := invariant.free noReservation
  have snapshot := invariant.snapshot (by simp [isCookie])
  have handed := invariant.handed notFailed
  rw [snapshot] at handed
  obtain ⟨writer, sameQueue⟩ :=
    ended_invariant invariant.writer notReserved isCookie failed
  have nothing : inFlight (ended state.W C failed) = [] := rfl
  constructor <;> dsimp only [recordEnd]
  · exact writer
  · exact fun _ => notReserved
  · intro pointer len isReservation
    rw [noReservation] at isReservation
    exact absurd isReservation (Option.some_ne_none _).symm
  · exact fun noCookie => absurd rfl noCookie
  · rw [invariant.outstanding, isCookie]
    rfl
  · intro isComplete
    obtain rfl : failed = false := isComplete
    rw [nothing, List.append_nil]
    exact handed
  · obtain ⟨rest, split, isQueue⟩ := invariant.consumed
    refine ⟨rest, split, fun _ => ?_⟩
    rw [sameQueue]
    exact isQueue notFailed
  · have none_yet := invariant.failCalls
    rw [notFailed] at none_yet
    rw [none_yet]
    cases failed <;> rfl
  · exact isSent
  · intro isComplete
    obtain rfl : failed = false := isComplete
    rw [nothing, List.take_nil, List.append_nil, complete rfl]
    exact handed

theorem Invariant.fails (invariant : Invariant state)
    (allocs : WriterAllocs) (noReservation : state.reservation = none)
    (isCookie : state.W.writeCookie = some C) {sent : List UInt8}
    (isSent : sent <+: state.handed) {op : Op} :
    Continues state op ((writbuf allocs state.W (-1)).map
      fun (failed, poked) =>
        record (recordEnd { state with sent } failed) poked) := by
  have notFailed := invariant.writer.notFailed isCookie
  rw [writbuf_failed invariant.writer.sane
    (invariant.free noReservation) isCookie]
  exact Continues.returns
    (invariant.ends noReservation isCookie true isSent
      fun complete => Bool.noConfusion complete)
    fun isFailed => absurd isFailed (Bool.eq_false_iff.mp notFailed)

theorem Invariant.writable (invariant : Invariant state)
    (allowed : Allowed state (.writable allocs send registered)) :
    Continues state (.writable allocs send registered)
      (step state (.writable allocs send registered)) := by
  obtain ⟨noReservation, C, isCookie, fits⟩ := allowed
  have notReserved := invariant.free noReservation
  have notFailed := invariant.writer.notFailed isCookie
  have writing := invariant.writer.writing C isCookie
  have bufpos_lt := writing.bufpos_lt
  have minlen := writing.minlen
  have small := writing.small
  have smallMax : SSIZE_MAX < 2 ^ 64 := by decide
  obtain ⟨WB, here, isData, dataLength⟩ :=
    writing.inFlight isCookie invariant.writer
  obtain ⟨len, bound, isSent, isLen, isZero⟩ :=
    invariant.sends isCookie fits
  have handed := invariant.handed notFailed
  have sentPrefix : state.sent ++ sentBytes state.W C send <+:
      state.handed := by
    rw [isSent, handed]
    exact (List.prefix_append_right_inj _).mpr (List.take_prefix _ _)
  have notStopped : ∀ {after : RunState}, state.W.failed = true →
      after.W.failed = true ∧ after.handed = state.handed :=
    fun isFailed => absurd isFailed (Bool.eq_false_iff.mp notFailed)
  have fails : Continues state (.writable allocs send registered) _ :=
    invariant.fails allocs noReservation isCookie sentPrefix
  simp only [step]
  rw [isCookie]
  dsimp only
  cases send with
  | error => exact fails
  | again =>
      cases registered with
      | false => exact fails
      | true =>
          obtain rfl := isZero rfl
          exact Continues.returns (invariant.waits isCookie bufpos_lt isSent)
            notStopped
  | sent n =>
      obtain rfl := isLen n rfl
      obtain ⟨positive, _⟩ := fits n rfl
      unfold callbackBuf
      dsimp only
      rw [if_neg (not_not.mpr positive.ne'), sizeAdd_eq (by omega)]
      by_cases short : C.bufpos + n < C.minlen
      · rw [if_pos short]
        cases registered with
        | false => exact fails
        | true =>
            exact Continues.returns
              (invariant.waits isCookie (minlen ▸ short) isSent) notStopped
      · have isAll : C.bufpos + n = C.buflen := by omega
        have complete : state.sent ++ sentBytes state.W C (.sent n) =
            state.handed := by
          rw [isSent, handed, isData,
            List.take_of_length_le (by omega)]
        have base := invariant.ends noReservation isCookie false
          sentPrefix fun _ => complete
        obtain ⟨writer, _⟩ :=
          ended_invariant invariant.writer notReserved isCookie false
        have continues : Continues state
            (.writable allocs (.sent n) registered) _ :=
          base.poked noReservation (List.append_nil _).symm notStopped
            (poke_pokes writer notReserved allocs)
        rw [if_neg short, if_neg (by omega), isAll]
        dsimp only
        rw [writbuf_complete invariant.writer.sane notReserved isCookie]
        generalize poke allocs (ended state.W C false) = poked
          at continues ⊢
        cases poked with
        | error assertion => exact continues
        | ok poked =>
            obtain ⟨status, _ | bytes, after⟩ := poked <;> exact continues

end Writable

theorem Invariant.step (invariant : Invariant state) {op : Op}
    (allowed : Allowed state op) : Continues state op (step state op) := by
  cases op with
  | write allocs buf => exact invariant.write allowed
  | reserve allocs len => exact invariant.reserve allowed
  | fill start bytes => exact invariant.fill allowed
  | consume allocs len => exact invariant.consume allowed
  | writable allocs send registered => exact invariant.writable allowed

theorem Run.invariant (run : Run state) : Invariant state := by
  induction run with
  | start => exact start_invariant
  | call op before allowed returned invariant =>
      have continues := invariant.step allowed
      rw [returned] at continues
      cases continues with
      | returns invariant stays => exact invariant

/-! ## What the application can rely on -/

/-- The contract of the writer at one moment of a run. -/
structure Correct (state : RunState) : Prop where
  /-- What is handed to `network_write` was consumed, in this order. -/
  inOrder : state.handed <+: state.consumed
  /-- What is sent was handed to `network_write`, in this order. -/
  sent : state.sent <+: state.handed
  /-- There is one write at most, the one the writer knows of. -/
  single : state.outstanding ≤ 1 ∧
    (state.outstanding = 1 ↔ state.W.writeCookie ≠ none)
  /-- No buffer has changed since its write started. -/
  unchanged : ∀ C, state.W.writeCookie = some C → ∃ WB,
    state.W.memory C.buf = some WB ∧ C.buf ∉ state.W.buffers ∧
      slice WB.buf 0 C.buflen = state.snapshot
  /-- Nothing is lost before a failure. -/
  kept : state.W.failed = false → state.consumed =
    state.written ++ inFlight state.W ++ queued state.W
  /-- The failure callback is invoked once. -/
  failCalls : state.failCalls = state.W.failed.toNat
  /-- After a failure nothing more is handed to `network_write`. -/
  stopped : state.W.failed = true → ∀ op after, Allowed state op →
    step state op = .ok after →
      after.W.failed = true ∧ after.handed = state.handed
  /-- No assertion of the writer fails, only one of `network_write`. -/
  asserts : ∀ op, Allowed state op → ∀ assertion,
    step state op = .error assertion → assertion = .network .fits ∧
      SSIZE_MAX < (state.consumed ++ consumes state op).length

/-- Every run of the writer refines the stream of what is consumed. -/
theorem netbuf_write_refines (run : Run state) : Correct state := by
  have invariant := run.invariant
  constructor
  · obtain ⟨rest, split, _⟩ := invariant.consumed
    exact ⟨rest, split.symm⟩
  · exact invariant.sent
  · rw [invariant.outstanding]
    cases state.W.writeCookie <;> simp
  · intro C isCookie
    have writing := invariant.writer.writing C isCookie
    obtain ⟨WB, here, buflen⟩ := writing.allocated
    refine ⟨WB, here, writing.notQueued, ?_⟩
    rw [← invariant.snapshot (by simp [isCookie]), buflen]
    unfold inFlight
    rw [isCookie]
    exact (dataAt_some here).symm
  · intro notFailed
    obtain ⟨rest, split, isQueue⟩ := invariant.consumed
    rw [split, isQueue notFailed, invariant.handed notFailed]
  · exact invariant.failCalls
  · intro isFailed op after allowed returned
    have continues := invariant.step allowed
    rw [returned] at continues
    cases continues with
    | returns invariant stays => exact stays isFailed
  · intro op allowed assertion failed
    have continues := invariant.step allowed
    rw [failed] at continues
    cases continues with
    | tooLarge large => exact ⟨rfl, large⟩

/-- A write and a reservation, then a part of the first write is sent. -/
theorem netbuf_write_refines_twoWrites :
    ∃ state, state.consumed = [1, 2, 3, 7] ∧ state.sent = [1, 2] ∧
      Correct state := by
  have first := Run.start.call (.write {} [1, 2, 3])
    ⟨rfl, by decide, by decide, 0, _, rfl, rfl, rfl⟩ rfl
  have reserved := first.call (.reserve { writebuf := some 1 } 2)
    ⟨rfl, by decide, 1, _, rfl, rfl, rfl⟩ rfl
  have filled := reserved.call (.fill 0 [7])
    ⟨(1, 0), 2, rfl, by decide⟩ rfl
  have consumed := filled.call (.consume {} 1)
    ⟨by decide, (1, 0), 2, rfl, by decide⟩ rfl
  have sent := consumed.call (.writable {} (.sent 2) true)
    ⟨rfl, ⟨0, 3, 3, 0⟩, rfl, by rintro len ⟨⟩; decide⟩ rfl
  exact ⟨_, rfl, rfl, netbuf_write_refines sent⟩

end Libcperciva.Netbuf.WriteRuns
