import Libcperciva.Netbuf.ReadOps

/-!
# Waits of the buffered reader that end early

The bytes which a pending read has received are not counted as data of the
reader before the read is complete.  When the wait is cancelled, or ends at
the end of the stream, these bytes are forgotten.  So everything that `recv`
has delivered can be peeked at after such a wait if, and only if, no wait that
ended without success had received anything.
-/

namespace Libcperciva.Netbuf.ReadCancel

open Libcperciva.Network.ReadModel
open Libcperciva.Netbuf.ReadModel
open Libcperciva.Netbuf.ReadOps

variable {κ : Type*}

/-! ## Runs -/

/-- The reader, and what has happened. -/
structure History (κ : Type*) where
  R : NetbufRead κ
  /-- The bytes that `recv` has returned. -/
  delivered : List UInt8 := []
  consumed : List UInt8 := []

/-- A call of the application or of the event loop. -/
inductive Op (κ : Type*) where
  | wait (allocs : WaitAllocs) (len : Nat) (callback : κ)
  | consume (len : Nat)
  | waitCancel
  /-- The immediate event of the reader is invoked. -/
  | immediate
  /-- The network event of the pending read is invoked. -/
  | readable (recv : Recv) (registered : Bool)

/-- One call, and the status with which it invokes the callback if it does. -/
def step (state : History κ) :
    Op κ → Except NetbufAssert (History κ × Option Int)
  | .wait allocs len callback =>
      (netbufReadWait allocs state.R len callback).map fun (_, R) =>
        ({ state with R }, none)
  | .consume len =>
      (netbufReadConsume state.R len).map fun R =>
        ({ state with
          R
          consumed := state.consumed ++ (netbufReadPeek state.R).take len },
          none)
  | .waitCancel => .ok ({ state with R := netbufReadWaitCancel state.R }, none)
  | .immediate =>
      (callbackSuccess state.R).map fun (R, _, status) =>
        ({ state with R }, some status)
  | .readable recv registered =>
      match state.R.readCookie with
      | none => .error .reading
      | some C =>
          (callbackReadable registered recv state.R C).map fun (R, called) =>
            ({ state with
              R
              delivered := state.delivered ++ recvBytes recv },
              called.map Prod.snd)

/-- What is assumed of the application and of the socket. -/
def Allowed (state : History κ) : Op κ → Prop
  | .wait _ len _ => Idle state.R ∧ len < 2 ^ 64
  | .consume len => len ≤ (netbufReadPeek state.R).length
  | .waitCancel => True
  | .immediate => state.R.immediateCookie = true
  | .readable recv _ => ∃ C, state.R.readCookie = some C ∧ recv.Fits C

/-- Each call is allowed where it happens. -/
def AllowedRun (state : History κ) : List (Op κ) → Prop
  | [] => True
  | op :: ops => Allowed state op ∧ ∀ after called,
      step state op = .ok (after, called) → AllowedRun after ops

/-! ## What should hold, and when it does -/

/-- A pending wait is cancelled, or the callback is told about the end of the
stream. -/
def EndsEarly (state : History κ) (op : Op κ) (called : Option Int) : Prop :=
  match op with
  | .waitCancel => ¬ Idle state.R
  | _ => called = some 1

/-- What `recv` has delivered was consumed, or can be peeked at. -/
def Available (state : History κ) : Prop :=
  state.consumed ++ netbufReadPeek state.R = state.delivered

/-- This is so after each wait of a run that ends early. -/
def NoneLost (state : History κ) : List (Op κ) → Prop
  | [] => True
  | op :: ops => ∀ after called, step state op = .ok (after, called) →
      (EndsEarly state op called → Available after) ∧ NoneLost after ops

/-- The bytes which the read of a wait has received when the wait ends without
success. -/
def droppedBy (state : History κ) (op : Op κ) (called : Option Int) : Nat :=
  match op, state.R.readCookie with
  | .waitCancel, some C => C.bufpos
  | .readable recv _, some C =>
      if called = none ∨ called = some 0 then 0
      else C.bufpos + (recvBytes recv).length
  | _, _ => 0

/-- When a wait of a run ends early, neither it nor an earlier wait that ended
without success had received anything; the number is what the waits before
the run had received. -/
def NothingReceived (dropped : Nat) (state : History κ) :
    List (Op κ) → Prop
  | [] => True
  | op :: ops => ∀ after called, step state op = .ok (after, called) →
      (EndsEarly state op called →
        dropped + droppedBy state op called = 0) ∧
      NothingReceived (dropped + droppedBy state op called) after ops

/-! ## One step -/

/-- Consumed bytes, bytes that can be peeked at, and those that a pending read
has received. -/
def held (state : History κ) : List UInt8 :=
  state.consumed ++ netbufReadPeek state.R ++ pendingBytes state.R

/-- The bytes that are not held any more have been dropped. -/
structure Invariant (dropped : Nat) (state : History κ) : Prop where
  reader : ReadOps.Invariant state.R
  whole : dropped = 0 → held state = state.delivered
  length : (held state).length + dropped = state.delivered.length

variable {dropped : Nat} {state after : History κ} {called : Option Int}
  {op : Op κ} {ops : List (Op κ)}

theorem start_invariant (memory : Nat → UInt8) :
    Invariant 0 ({ R := netbufReadInit memory } : History κ) := by
  obtain ⟨reader, idle, peek, _⟩ := netbufReadInit_spec (κ := κ) memory
  have nothing : held ({ R := netbufReadInit memory } : History κ) = [] := by
    unfold held
    dsimp only
    rw [peek, pendingBytes_idle idle.1]
    rfl
  refine ⟨reader, fun _ => nothing, ?_⟩
  rw [nothing]
  rfl

/-- The same bytes are held, and those that arrive. -/
theorem Invariant.grows (invariant : Invariant dropped state)
    (bytes : List UInt8) (reader : ReadOps.Invariant after.R)
    (holds : held after = held state ++ bytes)
    (delivers : after.delivered = state.delivered ++ bytes) :
    Invariant dropped after := by
  refine ⟨reader, fun none => ?_, ?_⟩
  · rw [holds, delivers, invariant.whole none]
  · have length := invariant.length
    rw [holds, delivers, List.length_append, List.length_append]
    omega

/-- The read ends without success. -/
theorem Invariant.drops (invariant : Invariant dropped state)
    (bytes : List UInt8) (reader : ReadOps.Invariant after.R)
    (idle : Idle after.R)
    (sameConsumed : after.consumed = state.consumed)
    (peek : netbufReadPeek after.R = netbufReadPeek state.R)
    (delivers : after.delivered = state.delivered ++ bytes) :
    Invariant (dropped + ((pendingBytes state.R).length + bytes.length))
      after := by
  have holds : held after = state.consumed ++ netbufReadPeek state.R := by
    unfold held
    rw [sameConsumed, peek, pendingBytes_idle idle.1, List.append_nil]
  have length := invariant.length
  have heldBefore : (held state).length =
      (held after).length + (pendingBytes state.R).length := by
    rw [holds]
    exact List.length_append
  refine ⟨reader, fun none => ?_, ?_⟩
  · have noBytes : bytes = [] := List.eq_nil_of_length_eq_zero (by omega)
    have noPending : pendingBytes state.R = [] :=
      List.eq_nil_of_length_eq_zero (by omega)
    have whole := invariant.whole (by omega)
    unfold held at whole
    rw [noPending, List.append_nil] at whole
    rw [holds, whole, delivers, noBytes, List.append_nil]
  · rw [delivers, List.length_append]
    omega

/-- What a step preserves, and how it leaves the reader. -/
structure Steps (dropped : Nat) (state after : History κ) (op : Op κ)
    (called : Option Int) : Prop where
  invariant : Invariant (dropped + droppedBy state op called) after
  idle : EndsEarly state op called → Idle after.R

theorem Invariant.wait (invariant : Invariant dropped state)
    {allocs : WaitAllocs} {len : Nat} {callback : κ} (idle : Idle state.R)
    (size : len < 2 ^ 64)
    (result : step state (.wait allocs len callback) = .ok (after, called)) :
    Steps dropped state after (.wait allocs len callback) called := by
  have waits := netbufReadWait_waits invariant.reader idle size allocs callback
  have nothing := pendingBytes_idle idle.1
  have grows (R : NetbufRead κ) (reader : ReadOps.Invariant R)
      (peek : netbufReadPeek R = netbufReadPeek state.R)
      (pending : pendingBytes R = []) :
      Steps dropped state { state with R } (.wait allocs len callback)
        none := by
    have holds : held { state with R } = held state ++ [] := by
      unfold held
      rw [List.append_nil, nothing]
      dsimp only
      rw [peek, pending]
    exact ⟨invariant.grows [] reader holds (List.append_nil _).symm, nofun⟩
  simp only [step] at result
  generalize netbufReadWait allocs state.R len callback = outcome
    at waits result
  cases waits with
  | failed reader peek idleAfter bound =>
      cases result
      exact grows _ reader peek (pendingBytes_idle idleAfter.1)
  | immediate enough idleBefore =>
      cases result
      exact grows _ (invariant.reader.idle idle.1) rfl
        (pendingBytes_idle idle.1)
  | reading short reader peek isCookie minlen zero isCallback notImmediate
      bound =>
      cases result
      apply grows _ reader peek
      rw [pendingBytes_reading isCookie, zero]
      exact Lib.Buffer.slice_zero _ _
  | tooLarge large => cases result

theorem Invariant.consume (invariant : Invariant dropped state) {len : Nat}
    (enough : len ≤ (netbufReadPeek state.R).length)
    (result : step state (.consume len) = .ok (after, called)) :
    Steps dropped state after (.consume len) called := by
  obtain ⟨R, consumes, reader, peek, pending, _⟩ :=
    netbufReadConsume_spec invariant.reader enough
  simp only [step] at result
  rw [consumes] at result
  cases result
  refine ⟨invariant.grows [] reader ?_ (List.append_nil _).symm,
    nofun⟩
  unfold held
  dsimp only
  rw [peek, pending, List.append_assoc state.consumed, List.take_append_drop,
    List.append_nil]

theorem Invariant.immediate (invariant : Invariant dropped state)
    (isPending : state.R.immediateCookie = true)
    (result : step state .immediate = .ok (after, called)) :
    Steps dropped state after .immediate called := by
  obtain ⟨R, calls, reader, peek, idle, _⟩ :=
    callbackSuccess_spec invariant.reader isPending
  have notReading : state.R.readCookie = none := by
    by_contra isReading
    have noImmediate := invariant.reader.notBoth isReading
    rw [isPending] at noImmediate
    exact Bool.noConfusion noImmediate
  simp only [step] at result
  rw [calls] at result
  cases result
  refine ⟨invariant.grows [] reader ?_ (List.append_nil _).symm,
    nofun⟩
  unfold held
  dsimp only
  rw [peek, pendingBytes_idle idle.1, pendingBytes_idle notReading,
    List.append_nil, List.append_nil]

/-- Only the data that was complete stays when a wait is cancelled. -/
theorem netbufReadWaitCancel_spec {R : NetbufRead κ}
    (reader : ReadOps.Invariant R) :
    ReadOps.Invariant (netbufReadWaitCancel R) ∧
      Idle (netbufReadWaitCancel R) ∧
      netbufReadPeek (netbufReadWaitCancel R) = netbufReadPeek R := by
  refine ⟨⟨reader.length, reader.fits, reader.bufpos_le, reader.datalen_le,
    nofun, fun isReading => absurd rfl isReading⟩, ⟨rfl, rfl⟩, rfl⟩

theorem Invariant.waitCancel (invariant : Invariant dropped state)
    (result : step state .waitCancel = .ok (after, called)) :
    Steps dropped state after .waitCancel called := by
  obtain ⟨reader, idle, peek⟩ := netbufReadWaitCancel_spec invariant.reader
  cases result
  have drops : Invariant _
      { state with R := netbufReadWaitCancel state.R } :=
    invariant.drops [] reader idle rfl peek (List.append_nil _).symm
  refine ⟨?_, fun _ => idle⟩
  have isDropped : droppedBy state .waitCancel none =
      (pendingBytes state.R).length + ([] : List UInt8).length := by
    unfold droppedBy
    cases isCookie : state.R.readCookie with
    | none => rw [pendingBytes_idle isCookie]; rfl
    | some C => exact (invariant.reader.length_pendingBytes isCookie).symm
  rw [isDropped]
  exact drops

theorem Invariant.readable (invariant : Invariant dropped state)
    {C : NetworkReadCookie} {recv : Recv} {registered : Bool}
    (isCookie : state.R.readCookie = some C) (fits : recv.Fits C)
    (result : step state (.readable recv registered) = .ok (after, called)) :
    Steps dropped state after (.readable recv registered) called := by
  obtain ⟨R, call, reads, how⟩ :=
    callbackReadable_reads invariant.reader isCookie fits registered
  have received := invariant.reader.length_pendingBytes isCookie
  simp only [step] at result
  rw [isCookie] at result
  dsimp only at result
  rw [reads] at result
  cases result
  have isDropped : ∀ called, droppedBy state (.readable recv registered)
      called = if called = none ∨ called = some 0 then 0
        else (pendingBytes state.R).length + (recvBytes recv).length := by
    intro called
    unfold droppedBy
    rw [isCookie, received]
  cases how with
  | waits reader peek isCookie' minlen pending isRecv sameCallback
      sameBuflen =>
      refine ⟨?_, nofun⟩
      rw [isDropped]
      dsimp only [Option.map_none]
      rw [if_pos (Or.inl rfl)]
      refine invariant.grows (recvBytes recv) reader ?_ rfl
      unfold held
      dsimp only
      rw [peek, pending, List.append_assoc, List.append_assoc,
        List.append_assoc]
  | @filled bytes isRecv reader peek enough idle sameBuflen =>
      subst isRecv
      refine ⟨?_, fun _ => idle⟩
      rw [isDropped]
      dsimp only [Option.map_some]
      rw [if_pos (Or.inr rfl)]
      refine invariant.grows bytes reader ?_ rfl
      unfold held
      dsimp only [recvBytes]
      rw [peek, pendingBytes_idle idle.1, List.append_nil]
      simp only [List.append_assoc]
  | failed reader peek idle sameBuflen =>
      refine ⟨?_, fun _ => idle⟩
      rw [isDropped]
      dsimp only [Option.map_some]
      rw [if_neg (by decide)]
      exact invariant.drops (recvBytes recv) reader idle rfl peek rfl
  | eof isRecv reader peek idle sameBuflen =>
      refine ⟨?_, fun _ => idle⟩
      rw [isDropped]
      dsimp only [Option.map_some]
      rw [if_neg (by decide)]
      exact invariant.drops (recvBytes recv) reader idle rfl peek rfl

theorem Invariant.step (invariant : Invariant dropped state)
    (allowed : Allowed state op)
    (result : step state op = .ok (after, called)) :
    Steps dropped state after op called := by
  cases op with
  | wait allocs len callback =>
      exact invariant.wait allowed.1 allowed.2 result
  | consume len => exact invariant.consume allowed result
  | waitCancel => exact invariant.waitCancel result
  | immediate => exact invariant.immediate allowed result
  | readable recv registered =>
      rcases allowed with ⟨C, isCookie, fits⟩
      exact invariant.readable isCookie fits result

/-! ## Runs -/

/-- In an idle reader everything is there exactly if nothing was dropped. -/
theorem Invariant.available_iff (invariant : Invariant dropped state)
    (idle : Idle state.R) : Available state ↔ dropped = 0 := by
  have isHeld : held state = state.consumed ++ netbufReadPeek state.R := by
    unfold held
    rw [pendingBytes_idle idle.1, List.append_nil]
  unfold Available
  rw [← isHeld]
  constructor
  · intro whole
    have length := invariant.length
    rw [whole] at length
    omega
  · exact invariant.whole

theorem noneLost_iff (invariant : Invariant dropped state)
    (allowed : AllowedRun state ops) :
    NoneLost state ops ↔ NothingReceived dropped state ops := by
  induction ops generalizing state dropped with
  | nil => exact Iff.rfl
  | cons op ops ih =>
      rcases allowed with ⟨first, rest⟩
      apply forall_congr'
      intro after
      apply forall_congr'
      intro called
      apply forall_congr'
      intro result
      have steps := invariant.step first result
      apply and_congr
      · apply forall_congr'
        intro endsEarly
        exact steps.invariant.available_iff (steps.idle endsEarly)
      · exact ih steps.invariant (rest after called result)

/-- In a run of a new reader, nothing is lost when a wait ends early, if and
only if no wait that ended without success had received anything. -/
theorem netbuf_read_cancel_keeps_iff (memory : Nat → UInt8)
    (ops : List (Op κ))
    (allowed : AllowedRun { R := netbufReadInit memory } ops) :
    NoneLost { R := netbufReadInit memory } ops ↔
      NothingReceived 0 { R := netbufReadInit memory } ops :=
  noneLost_iff (start_invariant memory) allowed

/-- A new reader. -/
def newReader (memory : Nat → UInt8) : History Nat :=
  { R := netbufReadInit memory }

/-- It waits for three bytes. -/
def waitingReader (memory : Nat → UInt8) : History Nat :=
  { R := { (netbufReadInit memory : NetbufRead Nat) with
      callback := some 7
      readCookie := some ⟨0, 4096, 3, 0⟩ } }

theorem newReader_wait (memory : Nat → UInt8) :
    step (newReader memory) (.wait {} 3 7) =
      .ok (waitingReader memory, none) := by
  simp [step, newReader, waitingReader, netbufReadWait, netbufReadInit,
    makeRoom, moveData, readRequest, networkRead, Util.SizeT.sizeSub,
    Util.SizeT.sizeAdd, Util.SizeT.SSIZE_MAX, Except.map]

/-- The wait is cancelled when the socket was found readable once. -/
def cancelledWait (recv : Recv) : List (Op Nat) :=
  [.wait {} 3 7, .readable recv true, .waitCancel]

theorem cancelledWait_allowed (memory : Nat → UInt8) {recv : Recv}
    (fits : recv.Fits ⟨0, 4096, 3, 0⟩) :
    AllowedRun (newReader memory) (cancelledWait recv) := by
  refine ⟨⟨⟨rfl, rfl⟩, by decide⟩, ?_⟩
  intro after called result
  cases (newReader_wait memory).symm.trans result
  refine ⟨⟨_, rfl, fits⟩, ?_⟩
  intro after called result
  exact ⟨trivial, fun _ _ _ => trivial⟩

/-- Nothing has arrived when the wait is cancelled. -/
theorem netbuf_read_cancel_keeps_iff_again :
    NoneLost (newReader fun _ => 0) (cancelledWait .again) := by
  have fits : Recv.again.Fits ⟨0, 4096, 3, 0⟩ := by
    rintro bytes ⟨⟩
  refine (netbuf_read_cancel_keeps_iff _ _
    (cancelledWait_allowed _ fits)).mpr ?_
  intro after called result
  cases (newReader_wait _).symm.trans result
  refine ⟨nofun, ?_⟩
  rintro after called ⟨⟩
  refine ⟨nofun, ?_⟩
  rintro after called ⟨⟩
  exact ⟨fun _ => rfl, trivial⟩

/-- Two bytes of three have arrived when the wait is cancelled. -/
theorem netbuf_read_cancel_loses :
    ¬ ∀ ops : List (Op Nat), AllowedRun (newReader fun _ => 0) ops →
      NoneLost (newReader fun _ => 0) ops := by
  intro keeps
  have fits : (Recv.data [1, 2]).Fits ⟨0, 4096, 3, 0⟩ := by
    rintro bytes ⟨⟩
    decide
  have waited := keeps (cancelledWait (.data [1, 2]))
    (cancelledWait_allowed _ fits) _ _ (newReader_wait _)
  have received := waited.2 _ _ rfl
  have cancelled := received.2 _ _ rfl
  have available := cancelled.1 fun idle => Option.some_ne_none _ idle.1
  have lengths : 0 = 2 := congrArg List.length available
  exact absurd lengths (by decide)

end Libcperciva.Netbuf.ReadCancel
