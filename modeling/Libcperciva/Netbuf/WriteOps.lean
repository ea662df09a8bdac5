import Libcperciva.Netbuf.WriteModel
import Mathlib.Algebra.Order.Group.Nat
import Mathlib.Data.List.Nodup

/-!
# What the buffered writer does

The data of a writer is in its queue and in the write that is in progress.
Each function has a theorem that says what becomes of this data, and that no
buffer changes whose write has started.
-/

namespace Libcperciva.Netbuf.WriteOps

open Libcperciva.Lib.Buffer
open Libcperciva.Util.SizeT
open Libcperciva.Network.WriteModel
open Libcperciva.Netbuf.WriteModel

variable {W after : NetbufWrite} {WB : Writebuf}

/-! ## The data of a writer -/

/-- The data at an address. -/
def dataAt (memory : Nat → Option Writebuf) (address : Nat) : List UInt8 :=
  ((memory address).map Writebuf.data).getD []

/-- The data in the queue. -/
def queued (W : NetbufWrite) : List UInt8 :=
  W.buffers.flatMap (dataAt W.memory)

/-- The data of the write in progress. -/
def inFlight (W : NetbufWrite) : List UInt8 :=
  match W.writeCookie with
  | none => []
  | some C => dataAt W.memory C.buf

theorem dataAt_some {memory : Nat → Option Writebuf} {address : Nat}
    (here : memory address = some WB) : dataAt memory address = WB.data := by
  unfold dataAt
  rw [here]
  rfl

/-- A change at another address is not seen. -/
theorem dataAt_update {memory : Nat → Option Writebuf} {address other : Nat}
    (different : address ≠ other) (entry : Option Writebuf) :
    dataAt (Function.update memory other entry) address =
      dataAt memory address := by
  unfold dataAt
  rw [Function.update_of_ne different]

theorem flatMap_update {memory : Nat → Option Writebuf} {other : Nat}
    (entry : Option Writebuf) :
    ∀ {addresses : List Nat}, other ∉ addresses →
      addresses.flatMap (dataAt (Function.update memory other entry)) =
        addresses.flatMap (dataAt memory) := by
  intro addresses notMember
  refine List.flatMap_congr ?_
  intro address member
  have different : address ≠ other := by
    rintro rfl
    exact notMember member
  exact dataAt_update different entry

/-! ## The invariant -/

/-- A write is in progress. -/
structure Writing (W : NetbufWrite) (C : NetworkWriteCookie) : Prop where
  curr : W.curr = some C.buf
  notQueued : C.buf ∉ W.buffers
  allocated : ∃ WB, W.memory C.buf = some WB ∧ C.buflen = WB.datalen
  minlen : C.minlen = C.buflen
  bufpos_lt : C.bufpos < C.buflen
  small : C.buflen ≤ SSIZE_MAX

/-- A buffer has room for its data. -/
structure Sound (WB : Writebuf) : Prop where
  length : WB.buf.length = WB.buflen
  datalen_le : WB.datalen ≤ WB.buflen
  fits : WB.buflen < 2 ^ 64

/-- What holds of a writer between calls. -/
structure Invariant (W : NetbufWrite) : Prop where
  allocated : ∀ address ∈ W.buffers, ∃ WB, W.memory address = some WB
  sound : ∀ address WB, W.memory address = some WB → Sound WB
  nodup : W.buffers.Nodup
  /-- Only a buffer with space reserved may be empty. -/
  nonempty : W.failed = false → ∀ address ∈ W.buffers, ∀ WB,
    W.memory address = some WB → 0 < WB.datalen ∨
      W.reserved = true ∧ W.buffers.getLast? = some address
  writing : ∀ C, W.writeCookie = some C → Writing W C
  idle : W.writeCookie = none → W.curr = none
  stopped : W.failed = true → W.writeCookie = none

/-- What holds of a writer even if buffers of its queue are empty. -/
structure Sane (W : NetbufWrite) : Prop where
  allocated : ∀ address ∈ W.buffers, ∃ WB, W.memory address = some WB
  sound : ∀ address WB, W.memory address = some WB → Sound WB
  nodup : W.buffers.Nodup
  writing : ∀ C, W.writeCookie = some C → Writing W C
  idle : W.writeCookie = none → W.curr = none
  stopped : W.failed = true → W.writeCookie = none

/-- Only a buffer with space reserved is empty. -/
def Filled (W : NetbufWrite) : Prop :=
  W.failed = false → ∀ address ∈ W.buffers, ∀ WB,
    W.memory address = some WB → 0 < WB.datalen ∨
      W.reserved = true ∧ W.buffers.getLast? = some address

theorem Invariant.sane (invariant : Invariant W) : Sane W :=
  ⟨invariant.allocated, invariant.sound, invariant.nodup,
    invariant.writing, invariant.idle, invariant.stopped⟩

theorem Sane.invariant (sane : Sane W) (filled : Filled W) : Invariant W :=
  ⟨sane.allocated, sane.sound, sane.nodup, filled, sane.writing, sane.idle,
    sane.stopped⟩

/-- Space is reserved at the end of the queue. -/
structure Reserved (W : NetbufWrite) (pointer : Nat × Nat) (len : Nat) :
    Prop where
  isReserved : W.reserved = true
  last : W.buffers.getLast? = some pointer.1
  space : ∃ WB, W.memory pointer.1 = some WB ∧ pointer.2 = WB.datalen ∧
    WB.datalen + len ≤ WB.buflen

theorem start_invariant : Invariant {} where
  allocated _ member := absurd member List.not_mem_nil
  sound _ _ noBuffer := absurd noBuffer (Option.some_ne_none _).symm
  nodup := List.nodup_nil
  nonempty _ _ member := absurd member List.not_mem_nil
  writing _ noCookie := absurd noCookie (Option.some_ne_none _).symm
  idle _ := rfl
  stopped _ := rfl

theorem Writing.inFlight {C : NetworkWriteCookie} (writing : Writing W C)
    (isCookie : W.writeCookie = some C) (invariant : Invariant W) :
    ∃ WB, W.memory C.buf = some WB ∧ inFlight W = WB.data ∧
      WB.data.length = C.buflen := by
  obtain ⟨WB, here, buflen⟩ := writing.allocated
  have sound := invariant.sound _ _ here
  refine ⟨WB, here, ?_, ?_⟩
  · unfold WriteOps.inFlight
    rw [isCookie]
    exact dataAt_some here
  · unfold Writebuf.data
    have length := sound.length
    have datalen_le := sound.datalen_le
    rw [length_slice (by omega), buflen]

theorem inFlight_idle (isIdle : W.writeCookie = none) : inFlight W = [] := by
  unfold inFlight
  rw [isIdle]

/-- The queue up to its last buffer. -/
theorem Sane.split_last (sane : Sane W) {last : Nat}
    (isLast : W.buffers.getLast? = some last) :
    ∃ init, W.buffers = init ++ [last] ∧ last ∉ init := by
  obtain ⟨init, split⟩ := List.getLast?_eq_some_iff.mp isLast
  refine ⟨init, split, ?_⟩
  have nodup := sane.nodup
  rw [split, List.nodup_append] at nodup
  intro member
  exact nodup.2.2 last member last List.mem_cons_self rfl

/-- A buffer which is in progress is not the last one of the queue. -/
theorem Sane.last_ne (sane : Sane W) {last : Nat}
    (isLast : W.buffers.getLast? = some last) {C : NetworkWriteCookie}
    (isCookie : W.writeCookie = some C) : C.buf ≠ last := by
  rintro rfl
  exact (sane.writing C isCookie).notQueued
    (List.mem_of_getLast? isLast)

/-! ## `poke` -/

/-- How `poke` ends. -/
inductive Pokes (W : NetbufWrite) : Except NetbufAssert Poked → Prop where
  | unchanged {status : Int} : Pokes W (.ok ⟨status, none, W⟩)
  | started {after : NetbufWrite} {bytes : List UInt8}
      (notFailed : W.failed = false) (isIdle : W.writeCookie = none)
      (invariant : Invariant after)
      (split : queued W = bytes ++ queued after)
      (isWriting : ∃ C, after.writeCookie = some C ∧ C.bufpos = 0)
      (inFlight : inFlight after = bytes)
      (sameFailed : after.failed = W.failed)
      (sameReserved : after.reserved = W.reserved) :
      Pokes W (.ok ⟨0, some bytes, after⟩)
  | tooLarge {address : Nat} {WB : Writebuf} (notFailed : W.failed = false)
      (member : address ∈ W.buffers)
      (here : W.memory address = some WB) (large : SSIZE_MAX < WB.datalen) :
      Pokes W (.error (.network .fits))

/-- `network_write` succeeds, if it is called with a buffer it can write. -/
def Succeeds (allocs : WriterAllocs) : Prop :=
  allocs.write.cookie = true ∧ allocs.write.register = true

/-- The data of the first buffer of the queue. -/
def headData (W : NetbufWrite) : List UInt8 :=
  (W.buffers.head?.map (dataAt W.memory)).getD []

/-- The first buffer of the queue is being written. -/
def started (W : NetbufWrite) (first : Nat) (rest : List Nat) :
    NetbufWrite :=
  { W with
    writeCookie := some
      ⟨first, (headData W).length, (headData W).length, 0⟩
    curr := some first
    buffers := rest }

theorem Sane.length_dataAt (sane : Sane W) {address : Nat}
    (here : W.memory address = some WB) :
    (dataAt W.memory address).length = WB.datalen := by
  have sound := sane.sound address WB here
  rw [dataAt_some here]
  exact length_slice ((Nat.zero_add _).trans_le
    (sound.datalen_le.trans sound.length.ge))

theorem headData_cons {first : Nat} {rest : List Nat}
    (queue : W.buffers = first :: rest) :
    headData W = dataAt W.memory first := by
  unfold headData
  rw [queue]
  rfl

/-- Nothing is launched. -/
theorem poke_stays (stays : W.writeCookie ≠ none ∨ W.buffers = [] ∨
    W.failed = true) (allocs : WriterAllocs) :
    poke allocs W = .ok ⟨0, none, W⟩ := by
  unfold poke
  cases isCookie : W.writeCookie with
  | some C => rfl
  | none =>
      cases queue : W.buffers with
      | nil => rfl
      | cons first rest =>
          have failed : W.failed = true := by
            rcases stays with isWriting | isEmpty | failed
            · exact absurd isCookie isWriting
            · rw [queue] at isEmpty
              exact absurd isEmpty (List.cons_ne_nil _ _)
            · exact failed
          dsimp only
          rw [if_pos failed]

/-- The first buffer is handed to `network_write`. -/
theorem poke_launches (sane : Sane W) (isIdle : W.writeCookie = none)
    (notFailed : W.failed = false) {first : Nat} {rest : List Nat}
    (queue : W.buffers = first :: rest) (allocs : WriterAllocs) :
    poke allocs W =
      if (headData W).length = 0 then .error (.network .nonempty)
      else if SSIZE_MAX < (headData W).length then .error (.network .fits)
      else if !allocs.write.cookie then .ok ⟨-1, none, W⟩
      else if !allocs.write.register then .ok ⟨-1, none, W⟩
      else .ok ⟨0, some (headData W), started W first rest⟩ := by
  obtain ⟨WB, here⟩ :=
    sane.allocated first (queue ▸ List.mem_cons_self)
  have noCurr := sane.idle isIdle
  have length : (headData W).length = WB.datalen := by
    rw [headData_cons queue]
    exact sane.length_dataAt here
  have data : headData W = WB.data := by
    rw [headData_cons queue]
    exact dataAt_some here
  unfold poke
  rw [isIdle, queue]
  dsimp only
  rw [if_neg (Bool.eq_false_iff.mp notFailed), if_neg (not_not.mpr noCurr),
    here]
  dsimp only
  unfold networkWrite
  rw [length]
  by_cases isEmpty : WB.datalen = 0
  · rw [if_pos (not_not.mpr isEmpty), if_pos isEmpty]
  rw [if_neg (not_not.mpr isEmpty), if_neg isEmpty]
  by_cases isSmall : WB.datalen ≤ SSIZE_MAX
  · rw [if_neg (not_not.mpr isSmall), if_neg (not_lt.mpr isSmall)]
    unfold started
    rw [length, data]
    cases allocs.write.cookie <;> cases allocs.write.register <;> rfl
  · rw [if_pos isSmall, if_pos (not_le.mp isSmall)]

theorem Sane.started (sane : Sane W) {first : Nat} {rest : List Nat}
    (notFailed : W.failed = false) (queue : W.buffers = first :: rest)
    (nonempty : (headData W).length ≠ 0)
    (small : (headData W).length ≤ SSIZE_MAX) :
    Sane (started W first rest) := by
  have nodup := sane.nodup
  rw [queue, List.nodup_cons] at nodup
  obtain ⟨WB, here⟩ := sane.allocated first (queue ▸ List.mem_cons_self)
  have length : (headData W).length = WB.datalen := by
    rw [headData_cons queue]
    exact sane.length_dataAt here
  refine ⟨?_, sane.sound, nodup.2, ?_,
    fun noCookie => absurd noCookie (Option.some_ne_none _),
    fun isFailed => absurd isFailed (Bool.eq_false_iff.mp notFailed)⟩
  · intro address inRest
    exact sane.allocated address (queue ▸ List.mem_cons_of_mem _ inRest)
  · rintro C ⟨⟩
    exact ⟨rfl, nodup.1, ⟨WB, here, length⟩, rfl,
      Nat.pos_of_ne_zero nonempty, small⟩

theorem poke_pokes (invariant : Invariant W)
    (notReserved : W.reserved = false) (allocs : WriterAllocs) :
    Pokes W (poke allocs W) := by
  have sane := invariant.sane
  by_cases stays : W.writeCookie ≠ none ∨ W.buffers = [] ∨ W.failed = true
  · rw [poke_stays stays]
    exact Pokes.unchanged
  rw [not_or, not_or, not_not, Bool.not_eq_true] at stays
  obtain ⟨isIdle, nonempty, notFailed⟩ := stays
  obtain ⟨first, rest, queue⟩ := List.exists_cons_of_ne_nil nonempty
  have filled : ∀ address ∈ W.buffers, ∀ WB,
      W.memory address = some WB → 0 < WB.datalen := by
    intro address member WB here
    rcases invariant.nonempty notFailed address member WB here with
      positive | ⟨isReserved, _⟩
    · exact positive
    · rw [notReserved] at isReserved
      exact Bool.noConfusion isReserved
  have member : first ∈ W.buffers := queue ▸ List.mem_cons_self
  obtain ⟨WB, here⟩ := sane.allocated first member
  have positive := filled first member WB here
  have length : (headData W).length = WB.datalen := by
    rw [headData_cons queue]
    exact sane.length_dataAt here
  have notEmpty : (headData W).length ≠ 0 := length ▸ positive.ne'
  rw [poke_launches sane isIdle notFailed queue, if_neg notEmpty]
  split_ifs with large noCookie noEvent
  · exact Pokes.tooLarge notFailed member here (length ▸ large)
  · exact Pokes.unchanged
  · exact Pokes.unchanged
  · have startedSane :=
      sane.started notFailed queue notEmpty (not_lt.mp large)
    have startedFilled : Filled (started W first rest) :=
      fun _ address inRest WB' here' => Or.inl
        (filled address (queue ▸ List.mem_cons_of_mem _ inRest) WB' here')
    refine Pokes.started notFailed isIdle
      (startedSane.invariant startedFilled) ?_ ⟨_, rfl, rfl⟩ ?_ rfl rfl
    · rw [headData_cons queue]
      unfold queued started
      rw [queue, List.flatMap_cons]
    · rw [headData_cons queue]
      rfl

/-! ## Reservations -/

/-- The write in progress is the same, and so is its data. -/
structure Kept (W after : NetbufWrite) : Prop where
  failed : after.failed = W.failed
  writeCookie : after.writeCookie = W.writeCookie
  curr : after.curr = W.curr
  inFlight : inFlight after = inFlight W

theorem Kept.trans {middle : NetbufWrite} (first : Kept W middle)
    (second : Kept middle after) : Kept W after :=
  ⟨second.failed.trans first.failed,
    second.writeCookie.trans first.writeCookie,
    second.curr.trans first.curr, second.inFlight.trans first.inFlight⟩

/-- The last buffer, or a new one, changes. -/
theorem kept_update {address : Nat}
    (notWriting : ∀ C, W.writeCookie = some C → C.buf ≠ address)
    (entry : Option Writebuf) {buffers : List Nat} {reserved : Bool} :
    Kept W { W with
      reserved
      buffers
      memory := Function.update W.memory address entry } where
  failed := rfl
  writeCookie := rfl
  curr := rfl
  inFlight := by
    unfold inFlight
    cases isCookie : W.writeCookie with
    | none => rfl
    | some C => exact dataAt_update (notWriting C isCookie) entry

/-- A sound buffer is stored which is not being written. -/
theorem Sane.update (sane : Sane W) {address : Nat} (sound : Sound WB)
    (notWriting : ∀ C, W.writeCookie = some C → C.buf ≠ address)
    {buffers : List Nat} (nodup : buffers.Nodup)
    (queue : ∀ other ∈ buffers, other ∈ W.buffers ∨ other = address)
    {reserved : Bool} :
    Sane { W with
      reserved
      buffers
      memory := Function.update W.memory address (some WB) } where
  allocated other member := by
    by_cases same : other = address
    · exact ⟨WB, same ▸ Function.update_self _ _ _⟩
    · have before := (queue other member).resolve_right same
      obtain ⟨WB', here⟩ := sane.allocated other before
      exact ⟨WB', (Function.update_of_ne same _ _).trans here⟩
  sound other WB' here := by
    dsimp only at here
    by_cases same : other = address
    · subst same
      rw [Function.update_self, Option.some.injEq] at here
      exact here ▸ sound
    · rw [Function.update_of_ne same] at here
      exact sane.sound other WB' here
  nodup := nodup
  writing C isCookie := by
    have writing := sane.writing C isCookie
    obtain ⟨WB', here, buflen⟩ := writing.allocated
    refine ⟨writing.curr, ?_, ⟨WB', ?_, buflen⟩, writing.minlen,
      writing.bufpos_lt, writing.small⟩
    · intro member
      rcases queue C.buf member with before | isAddress
      · exact writing.notQueued before
      · exact notWriting C isCookie isAddress
    · exact (Function.update_of_ne (notWriting C isCookie) _ _).trans here
  idle := sane.idle
  stopped := sane.stopped

/-- The flag of a reservation is set. -/
theorem Sane.reserve (sane : Sane W) : Sane { W with reserved := true } :=
  ⟨sane.allocated, sane.sound, sane.nodup, fun C isCookie =>
    have writing := sane.writing C isCookie
    ⟨writing.curr, writing.notQueued, writing.allocated, writing.minlen,
      writing.bufpos_lt, writing.small⟩, sane.idle, sane.stopped⟩

/-- The allocations succeed, and the buffer is a new one. -/
def Allocated (allocs : WriterAllocs) (W : NetbufWrite) : Prop :=
  ∃ address bytes, allocs.writebuf = some address ∧
    allocs.bytes = some bytes ∧ W.memory address = none

/-- A new buffer is at the end of the queue, with all of its space. -/
theorem addBuffer_sane (sane : Sane W) (isReserved : W.reserved = true)
    {len : Nat} (size : len < 2 ^ 64) {allocs : WriterAllocs}
    (allocated : Allocated allocs W) :
    ∃ address new after,
      addBuffer allocs W len = (some (address, 0), after) ∧
      after = { W with
        buffers := W.buffers ++ [address]
        memory := Function.update W.memory address (some new) } ∧
      address ∉ W.buffers ∧ new.datalen = 0 ∧ len ≤ new.buflen ∧
      Sane after ∧ Reserved after (address, 0) len ∧
      queued after = queued W ∧ Kept W after := by
  obtain ⟨address, bytes, isAddress, isBytes, free⟩ := allocated
  have notQueued : address ∉ W.buffers := by
    intro member
    obtain ⟨WB, here⟩ := sane.allocated address member
    rw [free] at here
    exact absurd here (Option.some_ne_none WB).symm
  have notWriting : ∀ C, W.writeCookie = some C → C.buf ≠ address := by
    rintro C isCookie rfl
    obtain ⟨WB, here, _⟩ := (sane.writing C isCookie).allocated
    rw [free] at here
    exact absurd here (Option.some_ne_none WB).symm
  have bound : len ≤ newBuflen len ∧ newBuflen len < 2 ^ 64 := by
    unfold newBuflen WBUFLEN
    split_ifs <;> omega
  let new : Writebuf :=
    ⟨(List.range (newBuflen len)).map bytes, newBuflen len, 0⟩
  have newSound : Sound new :=
    ⟨by rw [List.length_map, List.length_range], Nat.zero_le _, bound.2⟩
  have newHere : Function.update W.memory address (some new) address =
      some new := Function.update_self _ _ _
  have nodup : (W.buffers ++ [address]).Nodup := by
    refine List.nodup_append.mpr
      ⟨sane.nodup, List.nodup_singleton _, ?_⟩
    rintro other member _ isNew rfl
    exact notQueued (List.mem_singleton.mp isNew ▸ member)
  unfold addBuffer
  rw [isAddress, isBytes]
  refine ⟨address, new, _, rfl, rfl, notQueued, rfl, bound.1,
    sane.update newSound notWriting nodup ?_,
    ⟨isReserved, List.getLast?_concat, new, newHere, rfl,
      (Nat.zero_add len).symm ▸ bound.1⟩, ?_, kept_update notWriting _⟩
  · intro other member
    exact (List.mem_append.mp member).imp id List.mem_singleton.mp
  · unfold queued
    dsimp only
    rw [List.flatMap_append, flatMap_update _ notQueued,
      List.flatMap_singleton, dataAt_some newHere]
    exact List.append_nil _

/-- The space of the last buffer, if it is enough. -/
def room (W : NetbufWrite) (len : Nat) : Option (Nat × Nat) :=
  W.buffers.getLast?.bind fun last => (W.memory last).bind fun WB =>
    if WB.datalen + len ≤ WB.buflen then some (last, WB.datalen) else none

theorem room_reserved {len : Nat} {pointer : Nat × Nat}
    (hasRoom : room W len = some pointer) :
    Reserved { W with reserved := true } pointer len := by
  unfold room at hasRoom
  rw [Option.bind_eq_some_iff] at hasRoom
  obtain ⟨last, isLast, hasRoom⟩ := hasRoom
  rw [Option.bind_eq_some_iff] at hasRoom
  obtain ⟨WB, here, hasRoom⟩ := hasRoom
  rw [Option.ite_none_right_eq_some] at hasRoom
  obtain ⟨space, isPointer⟩ := hasRoom
  cases isPointer
  exact ⟨rfl, isLast, WB, here, rfl, space⟩

/-- Only if the last buffer has not enough space, a new one is added. -/
theorem netbufWriteReserve_eq (sane : Sane W)
    (notReserved : W.reserved = false) (allocs : WriterAllocs) (len : Nat) :
    netbufWriteReserve allocs W len = .ok (match room W len with
      | some pointer => (some pointer, { W with reserved := true })
      | none => addBuffer allocs { W with reserved := true } len) := by
  unfold netbufWriteReserve room
  rw [if_neg (not_not.mpr notReserved)]
  dsimp only
  cases isLast : W.buffers.getLast? with
  | none => rfl
  | some last =>
      obtain ⟨WB, here⟩ :=
        sane.allocated last (List.mem_of_getLast? isLast)
      have sound := sane.sound last WB here
      have datalen_le := sound.datalen_le
      simp only [Option.bind_some, here]
      rw [sizeSub_eq datalen_le sound.fits]
      by_cases space : WB.datalen + len ≤ WB.buflen
      · have enough : WB.buflen - WB.datalen ≥ len := by omega
        rw [if_pos space, if_pos enough]
      · have tooLittle : ¬ WB.buflen - WB.datalen ≥ len := by omega
        rw [if_neg space, if_neg tooLittle]

theorem netbufWriteReserve_spec (invariant : Invariant W)
    (notReserved : W.reserved = false) {len : Nat} (size : len < 2 ^ 64)
    {allocs : WriterAllocs} (allocated : Allocated allocs W) :
    ∃ pointer after, netbufWriteReserve allocs W len =
        .ok (some pointer, after) ∧
      Invariant after ∧ Reserved after pointer len ∧
      queued after = queued W ∧ Kept W after := by
  have nonempty : W.failed = false → ∀ address ∈ W.buffers, ∀ WB,
      W.memory address = some WB → 0 < WB.datalen := by
    intro notFailed address member WB here
    rcases invariant.nonempty notFailed address member WB here with
      positive | ⟨isReserved, _⟩
    · exact positive
    · rw [notReserved] at isReserved
      exact Bool.noConfusion isReserved
  have start := invariant.sane.reserve
  obtain ⟨address, new, added, result, isAdded, notQueued, _, _, sane,
    reserved, sameData, same⟩ := addBuffer_sane start rfl size allocated
  have filled : Filled added := by
    intro notFailed other member WB here
    subst isAdded
    by_cases isNew : other = address
    · exact Or.inr ⟨rfl, isNew ▸ List.getLast?_concat⟩
    · have before : other ∈ W.buffers :=
        (List.mem_append.mp member).resolve_right fun inNew =>
          isNew (List.mem_singleton.mp inNew)
      dsimp only at here
      rw [Function.update_of_ne isNew] at here
      exact Or.inl (nonempty notFailed other before WB here)
  have startKept : Kept W { W with reserved := true } :=
    ⟨rfl, rfl, rfl, rfl⟩
  have sameQueue : queued added = queued W := sameData
  rw [netbufWriteReserve_eq invariant.sane notReserved]
  cases hasRoom : room W len with
  | none =>
      exact ⟨_, added, congrArg Except.ok result, sane.invariant filled,
        reserved, sameQueue, startKept.trans same⟩
  | some pointer =>
      have stillFilled : Filled { W with reserved := true } :=
        fun notFailed address member WB here =>
          Or.inl (nonempty notFailed address member WB here)
      exact ⟨pointer, _, rfl, start.invariant stillFilled,
        room_reserved hasRoom, rfl, startKept⟩

/-- The bytes in a reservation. -/
def reservedBytes (W : NetbufWrite) (pointer : Nat × Nat) (len : Nat) :
    List UInt8 :=
  ((W.memory pointer.1).map fun WB => slice WB.buf pointer.2 len).getD []

/-- The application writes to a reservation. -/
theorem copyTo_sane (sane : Sane W) {pointer : Nat × Nat} {len : Nat}
    (reserved : Reserved W pointer len) {start : Nat} {bytes : List UInt8}
    (inside : start + bytes.length ≤ len) :
    ∃ WB changed, W.memory pointer.1 = some WB ∧
      copyTo W (pointer.1, pointer.2 + start) bytes = { W with
        memory := Function.update W.memory pointer.1 (some changed) } ∧
      changed.datalen = WB.datalen ∧ changed.buflen = WB.buflen ∧
      changed.data = WB.data ∧ Sound changed := by
  obtain ⟨WB, here, isEnd, space⟩ := reserved.space
  have sound := sane.sound _ _ here
  have length := sound.length
  let changed : Writebuf :=
    { WB with buf := write WB.buf (pointer.2 + start) bytes }
  have changedSound : Sound changed :=
    ⟨(length_write (by omega)).trans length, sound.datalen_le, sound.fits⟩
  have sameData : changed.data = WB.data := by
    change slice (write WB.buf (pointer.2 + start) bytes) 0 WB.datalen = _
    exact slice_write_of_le (by omega) (by omega)
  refine ⟨WB, changed, here, ?_, rfl, rfl, sameData, changedSound⟩
  unfold copyTo
  dsimp only
  rw [here]
  rfl

/-- The queue holds the same data when the last buffer does. -/
theorem queued_update_last (sane : Sane W) {last : Nat}
    (isLast : W.buffers.getLast? = some last)
    (here : W.memory last = some WB) {changed : Writebuf}
    {bytes : List UInt8} (data : changed.data = WB.data ++ bytes)
    (reserved : Bool) :
    queued { W with
      reserved
      memory := Function.update W.memory last (some changed) } =
      queued W ++ bytes := by
  obtain ⟨init, split, notInit⟩ := sane.split_last isLast
  unfold queued
  dsimp only
  rw [split, List.flatMap_append, List.flatMap_append,
    flatMap_update _ notInit, List.flatMap_singleton,
    List.flatMap_singleton,
    dataAt_some (Function.update_self last (some changed) W.memory),
    dataAt_some here, data, List.append_assoc]

theorem copyTo_spec (invariant : Invariant W) {pointer : Nat × Nat}
    {len : Nat} (reserved : Reserved W pointer len) {start : Nat}
    {bytes : List UInt8} (inside : start + bytes.length ≤ len) :
    let after := copyTo W (pointer.1, pointer.2 + start) bytes
    Invariant after ∧ Reserved after pointer len ∧
      queued after = queued W ∧ Kept W after := by
  intro after
  have sane := invariant.sane
  obtain ⟨WB, changed, here, isAfter, datalen, buflen, data, sound⟩ :=
    copyTo_sane sane reserved inside
  obtain ⟨WB', here', isEnd, space⟩ := reserved.space
  obtain rfl : WB' = WB := Option.some.inj (here'.symm.trans here)
  have afterEq : after = _ := isAfter
  have notWriting : ∀ C, W.writeCookie = some C → C.buf ≠ pointer.1 :=
    fun C isCookie => sane.last_ne reserved.last isCookie
  have filled : Filled after := by
    rw [afterEq]
    intro notFailed other member WB here
    by_cases same : other = pointer.1
    · exact Or.inr ⟨reserved.isReserved, same ▸ reserved.last⟩
    · dsimp only at here
      rw [Function.update_of_ne same] at here
      exact invariant.nonempty notFailed other member WB here
  have saneAfter : Sane after := by
    rw [afterEq]
    exact sane.update sound notWriting sane.nodup
      fun _ member => Or.inl member
  refine ⟨saneAfter.invariant filled, ?_, ?_, ?_⟩
  · rw [afterEq]
    refine ⟨reserved.isReserved, reserved.last, changed,
      Function.update_self _ _ _, ?_, ?_⟩
    · rw [datalen, isEnd]
    · rw [datalen, buflen]
      exact space
  · rw [afterEq]
    have same := queued_update_last sane reserved.last here
      (data.trans (List.append_nil _).symm) W.reserved
    rw [List.append_nil] at same
    exact same
  · rw [afterEq]
    exact kept_update notWriting _

theorem reservedBytes_copyTo (sane : Sane W)
    {pointer : Nat × Nat} {bytes : List UInt8}
    (reserved : Reserved W pointer bytes.length) :
    reservedBytes (copyTo W pointer bytes) pointer bytes.length = bytes := by
  obtain ⟨WB, here, isEnd, space⟩ := reserved.space
  have length := (sane.sound _ _ here).length
  unfold reservedBytes copyTo
  dsimp only
  rw [Function.update_self, here]
  exact slice_write_self (by omega)

/-- The last buffer, when part of the reserved space is consumed. -/
def advanced (W : NetbufWrite) (WB : Writebuf) (len : Nat) : Writebuf :=
  if W.failed = false then { WB with datalen := WB.datalen + len } else WB

/-- The writer, when part of the reservation is consumed. -/
def consumed (W : NetbufWrite) (last len : Nat) : NetbufWrite :=
  { W with
    reserved := false
    memory := Function.update W.memory last
      ((W.memory last).map fun WB => advanced W WB len) }

/-- What is consumed of a reservation joins the queue. -/
theorem netbufWriteConsume_sane (sane : Sane W) {pointer : Nat × Nat}
    {reservedLen : Nat} (reserved : Reserved W pointer reservedLen)
    {len : Nat} (bound : len ≤ reservedLen) (allocs : WriterAllocs) :
    netbufWriteConsume allocs W len =
        poke allocs (consumed W pointer.1 len) ∧
      Sane (consumed W pointer.1 len) ∧ Kept W (consumed W pointer.1 len) ∧
      queued (consumed W pointer.1 len) = queued W ++
        if W.failed = true then [] else reservedBytes W pointer len := by
  obtain ⟨WB, here, isEnd, space⟩ := reserved.space
  have sound := sane.sound _ _ here
  have datalen_le := sound.datalen_le
  have fits := sound.fits
  have notWriting : ∀ C, W.writeCookie = some C → C.buf ≠ pointer.1 :=
    fun C isCookie => sane.last_ne reserved.last isCookie
  have advancedEq : (if W.failed = false then
      { WB with datalen := sizeAdd WB.datalen len } else WB) =
        advanced W WB len := by
    rw [sizeAdd_eq (by omega)]
    rfl
  have advancedSound : Sound (advanced W WB len) := by
    unfold advanced
    split_ifs
    · exact ⟨sound.length, le_trans (Nat.add_le_add_left bound _) space,
        fits⟩
    · exact sound
  have data : (advanced W WB len).data = WB.data ++
      if W.failed = true then [] else reservedBytes W pointer len := by
    unfold advanced
    cases isFailed : W.failed with
    | true => exact (List.append_nil _).symm
    | false =>
        rw [if_pos rfl, if_neg Bool.false_ne_true]
        unfold reservedBytes Writebuf.data
        rw [here]
        dsimp only
        rw [slice_add, Nat.zero_add, ← isEnd]
        rfl
  have consumedEq : consumed W pointer.1 len = { W with
      reserved := false
      memory := Function.update W.memory pointer.1
        (some (advanced W WB len)) } := by
    unfold consumed
    rw [here]
    rfl
  rw [consumedEq]
  refine ⟨?_, sane.update advancedSound notWriting sane.nodup
    fun _ member => Or.inl member, kept_update notWriting _,
    queued_update_last sane reserved.last here data false⟩
  unfold netbufWriteConsume
  rw [if_neg (not_not.mpr reserved.isReserved), reserved.last]
  dsimp only
  rw [here]
  dsimp only
  rw [sizeSub_eq datalen_le fits, if_neg (not_not.mpr (by omega)),
    advancedEq]

theorem netbufWriteConsume_spec (invariant : Invariant W)
    {pointer : Nat × Nat} {reservedLen : Nat}
    (reserved : Reserved W pointer reservedLen) {len : Nat}
    (positive : 0 < len) (bound : len ≤ reservedLen)
    (allocs : WriterAllocs) :
    ∃ middle, netbufWriteConsume allocs W len = poke allocs middle ∧
      Invariant middle ∧ middle.reserved = false ∧ Kept W middle ∧
      queued middle = queued W ++
        if W.failed = true then [] else reservedBytes W pointer len := by
  obtain ⟨result, sane, kept, queue⟩ :=
    netbufWriteConsume_sane invariant.sane reserved bound allocs
  refine ⟨_, result, sane.invariant ?_, rfl, kept, queue⟩
  intro notFailed other member WB here
  have wasNotFailed : W.failed = false := notFailed
  by_cases same : other = pointer.1
  · subst same
    obtain ⟨WB', before, _⟩ := reserved.space
    unfold consumed at here
    dsimp only at here
    rw [Function.update_self, before, Option.map_some, Option.some.injEq]
      at here
    subst here
    unfold advanced
    rw [if_pos wasNotFailed]
    exact Or.inl (Nat.add_pos_right _ positive)
  · unfold consumed at here
    dsimp only at here
    rw [Function.update_of_ne same] at here
    rcases invariant.nonempty notFailed other member WB here with
      positive' | ⟨_, isLast⟩
    · exact Or.inl positive'
    · exact absurd (Option.some.inj (isLast.symm.trans reserved.last)) same

/-! ## `writbuf` -/

theorem Sane.notFailed (sane : Sane W) {C : NetworkWriteCookie}
    (isCookie : W.writeCookie = some C) : W.failed = false := by
  rw [← Bool.not_eq_true]
  intro isFailed
  rw [sane.stopped isFailed] at isCookie
  exact absurd isCookie (Option.some_ne_none C).symm

theorem Invariant.notFailed (invariant : Invariant W)
    {C : NetworkWriteCookie} (isCookie : W.writeCookie = some C) :
    W.failed = false :=
  invariant.sane.notFailed isCookie

/-- The writer when the write in progress has ended. -/
def ended (W : NetbufWrite) (C : NetworkWriteCookie) (failed : Bool) :
    NetbufWrite :=
  { W with
    writeCookie := none
    curr := none
    failed
    memory := Function.update W.memory C.buf none }

/-- The write in progress ends, and its buffer is freed. -/
theorem Sane.ended (sane : Sane W) {C : NetworkWriteCookie}
    (isCookie : W.writeCookie = some C) (failed : Bool) :
    Sane (ended W C failed) ∧ ∀ address ∈ W.buffers,
      (ended W C failed).memory address = W.memory address := by
  have writing := sane.writing C isCookie
  have same : ∀ address ∈ W.buffers,
      (WriteOps.ended W C failed).memory address = W.memory address := by
    intro address member
    have other : address ≠ C.buf := by
      rintro rfl
      exact writing.notQueued member
    exact Function.update_of_ne other _ _
  refine ⟨⟨?_, ?_, sane.nodup,
    fun _ noCookie => absurd noCookie (Option.some_ne_none _).symm,
    fun _ => rfl, fun _ => rfl⟩, same⟩
  · intro address member
    rw [same address member]
    exact sane.allocated address member
  · intro address WB here
    dsimp only [WriteOps.ended] at here
    by_cases isBuf : address = C.buf
    · rw [isBuf, Function.update_self] at here
      exact absurd here (Option.some_ne_none WB).symm
    · rw [Function.update_of_ne isBuf] at here
      exact sane.sound address WB here

theorem ended_invariant (invariant : Invariant W)
    (notReserved : W.reserved = false) {C : NetworkWriteCookie}
    (isCookie : W.writeCookie = some C) (failed : Bool) :
    Invariant (ended W C failed) ∧ queued (ended W C failed) = queued W := by
  have notFailed := invariant.notFailed isCookie
  obtain ⟨sane, same⟩ := invariant.sane.ended isCookie failed
  refine ⟨sane.invariant ?_,
    flatMap_update none (invariant.writing C isCookie).notQueued⟩
  intro _ address member WB here
  rw [same address member] at here
  rcases invariant.nonempty notFailed address member WB here with
    positive | ⟨isReserved, _⟩
  · exact Or.inl positive
  · rw [notReserved] at isReserved
    exact Bool.noConfusion isReserved

theorem writbuf_eq (sane : Sane W) (notReserved : W.reserved = false)
    {C : NetworkWriteCookie} (isCookie : W.writeCookie = some C)
    (allocs : WriterAllocs) (writelen : Int) :
    writbuf allocs W writelen =
      if toSize writelen ≠ C.buflen then
        .ok (true, ⟨allocs.failCallback, none, ended W C true⟩)
      else (poke allocs (ended W C false)).map fun poked =>
        (false, poked) := by
  have writing := sane.writing C isCookie
  obtain ⟨WB, here, buflen⟩ := writing.allocated
  have hasCookie : ¬ ¬ W.writeCookie ≠ none := by simp [isCookie]
  unfold writbuf
  rw [if_neg (not_not.mpr notReserved), if_neg hasCookie, writing.curr]
  dsimp only
  rw [if_neg (not_not.mpr (sane.notFailed isCookie)), here]
  dsimp only
  rw [← buflen]
  by_cases wrong : toSize writelen ≠ C.buflen
  · rw [if_pos wrong, if_pos (decide_eq_true wrong), decide_eq_true wrong]
    rfl
  · rw [if_neg wrong, decide_eq_false wrong, if_neg Bool.false_ne_true]
    rfl

/-- All was written, and the queue is poked. -/
theorem writbuf_complete (sane : Sane W)
    (notReserved : W.reserved = false) {C : NetworkWriteCookie}
    (isCookie : W.writeCookie = some C) (allocs : WriterAllocs) :
    writbuf allocs W C.buflen =
      (poke allocs (ended W C false)).map fun poked => (false, poked) := by
  have small := (sane.writing C isCookie).small
  have smallMax : SSIZE_MAX < 2 ^ 64 := by decide
  have right : ¬ toSize (C.buflen : Int) ≠ C.buflen := by
    unfold toSize
    omega
  rw [writbuf_eq sane notReserved isCookie, if_neg right]

/-- The write failed, and the failure callback is invoked. -/
theorem writbuf_failed (sane : Sane W)
    (notReserved : W.reserved = false) {C : NetworkWriteCookie}
    (isCookie : W.writeCookie = some C) (allocs : WriterAllocs) :
    writbuf allocs W (-1) =
      .ok (true, ⟨allocs.failCallback, none, ended W C true⟩) := by
  have small := (sane.writing C isCookie).small
  have smallMax : SSIZE_MAX < 2 ^ 64 - 1 := by decide
  have wrong : toSize (-1) ≠ C.buflen := by
    unfold toSize
    omega
  rw [writbuf_eq sane notReserved isCookie, if_pos wrong]

end Libcperciva.Netbuf.WriteOps
