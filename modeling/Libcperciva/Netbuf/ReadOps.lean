import Libcperciva.Netbuf.ReadModel
import Mathlib.Algebra.Order.Group.Nat

/-!
# What the buffered reader does

The buffer of a reader holds the bytes that can be peeked at, and after them
those which a pending read has received so far.  Each function has a theorem
that says what becomes of these bytes.
-/

namespace Libcperciva.Netbuf.ReadOps

open Libcperciva.Lib.Buffer
open Libcperciva.Util.SizeT
open Libcperciva.Network.ReadModel
open Libcperciva.Netbuf.ReadModel

variable {κ : Type*} {R after : NetbufRead κ} {C : NetworkReadCookie}

/-! ## The invariant -/

/-- A pending read has a part of the buffer to itself. -/
structure Reading (R : NetbufRead κ) (C : NetworkReadCookie) : Prop where
  buf : C.buf = R.datalen
  inside : C.buf + C.buflen = R.buflen
  minlen_le : C.minlen ≤ C.buflen
  bufpos_lt : C.bufpos < C.minlen
  small : C.buflen ≤ SSIZE_MAX

/-- What holds of a reader between calls. -/
structure Invariant (R : NetbufRead κ) : Prop where
  length : R.buf.length = R.buflen
  fits : R.buflen < 2 ^ 64
  bufpos_le : R.bufpos ≤ R.datalen
  datalen_le : R.datalen ≤ R.buflen
  reading : ∀ C, R.readCookie = some C → Reading R C
  notBoth : R.readCookie ≠ none → R.immediateCookie = false

/-- Nothing is said about the callback, and little where none is pending. -/
theorem Invariant.idle (invariant : Invariant R)
    (notReading : R.readCookie = none) {callback : Option κ}
    {immediateCookie : Bool} :
    Invariant { R with callback, immediateCookie } :=
  ⟨invariant.length, invariant.fits, invariant.bufpos_le,
    invariant.datalen_le, fun C isCookie =>
      absurd (notReading.symm.trans isCookie) (Option.some_ne_none C).symm,
    fun isReading => absurd notReading isReading⟩

/-- No wait is pending. -/
def Idle (R : NetbufRead κ) : Prop :=
  R.readCookie = none ∧ R.immediateCookie = false

/-- The bytes which a pending read has received. -/
def pendingBytes (R : NetbufRead κ) : List UInt8 :=
  match R.readCookie with
  | none => []
  | some C => slice R.buf C.buf C.bufpos

theorem Invariant.peek (invariant : Invariant R) :
    netbufReadPeek R = slice R.buf R.bufpos (R.datalen - R.bufpos) := by
  have := invariant.fits
  have := invariant.bufpos_le
  have := invariant.datalen_le
  unfold netbufReadPeek
  rw [sizeSub_eq (by omega) (by omega)]

theorem Invariant.length_peek (invariant : Invariant R) :
    (netbufReadPeek R).length = R.datalen - R.bufpos := by
  have := invariant.length
  have := invariant.bufpos_le
  have := invariant.datalen_le
  rw [invariant.peek, length_slice (by omega)]

theorem Invariant.buffered (invariant : Invariant R) :
    sizeSub R.datalen R.bufpos = (netbufReadPeek R).length := by
  have := invariant.fits
  have := invariant.bufpos_le
  have := invariant.datalen_le
  rw [invariant.length_peek, sizeSub_eq (by omega) (by omega)]

theorem pendingBytes_idle (idle : R.readCookie = none) :
    pendingBytes R = [] := by
  unfold pendingBytes
  rw [idle]

theorem pendingBytes_reading (isCookie : R.readCookie = some C) :
    pendingBytes R = slice R.buf C.buf C.bufpos := by
  unfold pendingBytes
  rw [isCookie]

/-- A pending read has received as many bytes as its cookie says. -/
theorem Invariant.length_pendingBytes (invariant : Invariant R)
    (isCookie : R.readCookie = some C) :
    (pendingBytes R).length = C.bufpos := by
  have length := invariant.length
  have reading := invariant.reading C isCookie
  have inside := reading.inside
  have minlen_le := reading.minlen_le
  have bufpos_lt := reading.bufpos_lt
  rw [pendingBytes_reading isCookie, length_slice (by omega)]

/-- A new reader holds no bytes. -/
theorem netbufReadInit_spec (memory : Nat → UInt8) :
    Invariant (netbufReadInit memory : NetbufRead κ) ∧
      Idle (netbufReadInit memory : NetbufRead κ) ∧
      netbufReadPeek (netbufReadInit memory : NetbufRead κ) = [] ∧
      (netbufReadInit memory : NetbufRead κ).buflen = 4096 := by
  have invariant : Invariant (netbufReadInit memory : NetbufRead κ) :=
    { length := by
        unfold netbufReadInit
        rw [List.length_map, List.length_range]
      fits := by
        have small : 4096 < 2 ^ 64 := by decide
        exact small
      bufpos_le := le_rfl
      datalen_le := Nat.zero_le _
      reading := fun C noCookie => absurd noCookie (Option.some_ne_none C).symm
      notBoth := fun noCookie => absurd rfl noCookie }
  refine ⟨invariant, ⟨rfl, rfl⟩, ?_, rfl⟩
  rw [invariant.peek]
  exact slice_zero _ _

/-! ## `netbuf_read_wait` -/

/-- The reader with its buffered bytes at another place, perhaps. -/
structure Moved (R after : NetbufRead κ) : Prop where
  invariant : Invariant after
  peek : netbufReadPeek after = netbufReadPeek R
  idle : Idle after
  callback : after.callback = R.callback

theorem Moved.refl (invariant : Invariant R) (idle : Idle R) : Moved R R :=
  ⟨invariant, rfl, idle, rfl⟩

theorem Moved.trans {middle : NetbufRead κ} (first : Moved R middle)
    (second : Moved middle after) : Moved R after :=
  ⟨second.invariant, second.peek.trans first.peek, second.idle,
    second.callback.trans first.callback⟩

/-- The bytes move to the start of a buffer which has room for them. -/
theorem moved_to_start (invariant : Invariant R) (idle : Idle R)
    (buf : List UInt8) (fits : buf.length < 2 ^ 64)
    (room : (netbufReadPeek R).length ≤ buf.length) :
    Moved R { R with
      buf := write buf 0
        (slice R.buf R.bufpos (sizeSub R.datalen R.bufpos))
      buflen := buf.length
      datalen := sizeSub R.datalen R.bufpos
      bufpos := 0 } := by
  change Moved R { R with
    buf := write buf 0 (netbufReadPeek R)
    buflen := buf.length
    datalen := sizeSub R.datalen R.bufpos
    bufpos := 0 }
  rw [invariant.buffered]
  have kept : Invariant { R with
      buf := write buf 0 (netbufReadPeek R)
      buflen := buf.length
      datalen := (netbufReadPeek R).length
      bufpos := 0 } :=
    { length := length_write (by omega)
      fits := fits
      bufpos_le := Nat.zero_le _
      datalen_le := room
      reading := fun C isCookie =>
        absurd (idle.1.symm.trans isCookie) (Option.some_ne_none C).symm
      notBoth := fun _ => idle.2 }
  refine ⟨kept, ?_, idle, rfl⟩
  rw [kept.peek]
  exact slice_write_self (Nat.zero_le _)

theorem netbufReadResizeBuffer_spec (invariant : Invariant R)
    (idle : Idle R) {len : Nat} (size : len < 2 ^ 64)
    (short : (netbufReadPeek R).length < len) (isSmall : R.buflen < len)
    {malloc : Option (Nat → UInt8)}
    (result : netbufReadResizeBuffer malloc R len = some after) :
    Moved R after ∧ len ≤ after.buflen ∧ after.buflen ≤ 2 * len := by
  unfold netbufReadResizeBuffer at result
  obtain ⟨memory, _, rfl⟩ := Option.map_eq_some_iff.mp result
  have double := sizeMul_lt R.buflen 2
  have double_le : sizeMul R.buflen 2 ≤ R.buflen * 2 := Nat.mod_le _ _
  generalize nbuflenEq : (if sizeMul R.buflen 2 < len then len
    else sizeMul R.buflen 2) = nbuflen
  have enough : len ≤ nbuflen ∧ nbuflen < 2 ^ 64 ∧ nbuflen ≤ 2 * len := by
    split_ifs at nbuflenEq <;> omega
  have length : ((List.range nbuflen).map memory).length = nbuflen := by
    rw [List.length_map, List.length_range]
  have moved := moved_to_start invariant idle
    ((List.range nbuflen).map memory) (by omega) (by omega)
  rw [length] at moved
  exact ⟨moved, enough.1, enough.2.2⟩

theorem moveData_spec (invariant : Invariant R) (idle : Idle R) {len : Nat}
    (short : (netbufReadPeek R).length < len) (room : len ≤ R.buflen) :
    Moved R (moveData R len) ∧ (moveData R len).buflen = R.buflen ∧
      (moveData R len).bufpos + len ≤ R.buflen := by
  have length := invariant.length
  have fits := invariant.fits
  have bufpos_le := invariant.bufpos_le
  have datalen_le := invariant.datalen_le
  unfold moveData
  split_ifs with noRoom
  · have moved := moved_to_start invariant idle R.buf (by omega) (by omega)
    rw [length] at moved
    exact ⟨moved, rfl, by dsimp only; omega⟩
  · rw [sizeSub_eq (by omega) fits] at noRoom
    exact ⟨Moved.refl invariant idle, rfl, by omega⟩

/-- There is room for the bytes that are waited for. -/
theorem makeRoom_spec (invariant : Invariant R) (idle : Idle R) {len : Nat}
    (size : len < 2 ^ 64) (short : (netbufReadPeek R).length < len)
    {malloc : Option (Nat → UInt8)}
    (result : makeRoom malloc R len = some after) :
    Moved R after ∧ after.bufpos + len ≤ after.buflen ∧
      after.buflen ≤ max R.buflen (2 * len) := by
  unfold makeRoom at result
  obtain ⟨middle, resized, rfl⟩ := Option.map_eq_some_iff.mp result
  have grown : Moved R middle ∧ len ≤ middle.buflen ∧
      middle.buflen ≤ max R.buflen (2 * len) := by
    split_ifs at resized with isSmall
    · obtain ⟨moved, room, bound⟩ := netbufReadResizeBuffer_spec invariant
        idle size short isSmall resized
      exact ⟨moved, room, le_max_of_le_right bound⟩
    · obtain rfl := Option.some.inj resized
      exact ⟨Moved.refl invariant idle, by omega, le_max_left _ _⟩
  obtain ⟨first, room, bound⟩ := grown
  rw [← first.peek] at short
  obtain ⟨second, sameBuflen, inside⟩ :=
    moveData_spec first.invariant first.idle short room
  rw [sameBuflen]
  exact ⟨first.trans second, inside, bound⟩

/-- A read of at least one byte into a part of the buffer. -/
structure ValidRequest (R : NetbufRead κ) (request : ReadRequest) :
    Prop where
  nonempty : 0 < request.buflen
  inside : request.buf + request.buflen ≤ R.buf.length
  minread_pos : 1 ≤ request.minread
  minread_le : request.minread ≤ request.buflen

theorem readRequest_eq (invariant : Invariant R) {len : Nat}
    (short : (netbufReadPeek R).length < len)
    (room : R.bufpos + len ≤ R.buflen) :
    readRequest R len = ⟨R.datalen, R.buflen - R.datalen,
      len - (netbufReadPeek R).length⟩ := by
  have fits := invariant.fits
  have bufpos_le := invariant.bufpos_le
  have datalen_le := invariant.datalen_le
  have peekLength := invariant.length_peek
  unfold readRequest
  rw [sizeSub_eq datalen_le fits, sizeAdd_eq (by omega),
    sizeSub_eq (by omega) (by omega), peekLength]
  congr 1
  omega

theorem readRequest_valid (invariant : Invariant R) {len : Nat}
    (short : (netbufReadPeek R).length < len)
    (room : R.bufpos + len ≤ R.buflen) :
    ValidRequest R (readRequest R len) := by
  have length := invariant.length
  have bufpos_le := invariant.bufpos_le
  have datalen_le := invariant.datalen_le
  have peekLength := invariant.length_peek
  rw [readRequest_eq invariant short room]
  constructor <;> dsimp only <;> omega

/-- How `netbuf_read_wait` ends. -/
inductive Waits (R : NetbufRead κ) (len : Nat) (callback : κ) :
    Except NetbufAssert (Int × NetbufRead κ) → Prop where
  | failed {after : NetbufRead κ} (invariant : Invariant after)
      (peek : netbufReadPeek after = netbufReadPeek R) (idle : Idle after)
      (bound : after.buflen ≤ max R.buflen (2 * len)) :
      Waits R len callback (.ok (-1, after))
  | immediate (enough : len ≤ (netbufReadPeek R).length)
      (idle : Idle R) :
      Waits R len callback (.ok (0, { R with
        callback := some callback
        immediateCookie := true }))
  | reading {after : NetbufRead κ} {C : NetworkReadCookie}
      (short : (netbufReadPeek R).length < len)
      (invariant : Invariant after)
      (peek : netbufReadPeek after = netbufReadPeek R)
      (isCookie : after.readCookie = some C)
      (minlen : (netbufReadPeek R).length + C.minlen = len)
      (nothing : C.bufpos = 0)
      (isCallback : after.callback = some callback)
      (notImmediate : after.immediateCookie = false)
      (bound : after.buflen ≤ max R.buflen (2 * len)) :
      Waits R len callback (.ok (0, after))
  | tooLarge (large : SSIZE_MAX < max R.buflen (2 * len)) :
      Waits R len callback (.error (.network .fits))

theorem netbufReadWait_waits (invariant : Invariant R) (idle : Idle R)
    {len : Nat} (size : len < 2 ^ 64) (allocs : WaitAllocs) (callback : κ) :
    Waits R len callback (netbufReadWait allocs R len callback) := by
  obtain ⟨notReading, notImmediate⟩ := idle
  have start : Invariant { R with callback := some callback } :=
    invariant.idle notReading
  unfold netbufReadWait
  rw [if_neg (not_not.mpr notReading), if_neg (not_not.mpr notImmediate)]
  dsimp only
  rw [invariant.buffered]
  split_ifs with enough allocated
  · exact Waits.immediate enough ⟨notReading, notImmediate⟩
  · exact Waits.failed start rfl ⟨notReading, notImmediate⟩
      (le_max_left _ _)
  · have short := not_le.mp enough
    cases result : makeRoom allocs.malloc
        { R with callback := some callback } len with
    | none =>
        exact Waits.failed start rfl ⟨notReading, notImmediate⟩
          (le_max_left _ _)
    | some after =>
        obtain ⟨moved, room, bound⟩ := makeRoom_spec start
          ⟨notReading, notImmediate⟩ size short result
        have kept := moved.invariant
        have samePeek : netbufReadPeek after = netbufReadPeek R := moved.peek
        have shortAfter : (netbufReadPeek after).length < len := by
          rw [samePeek]
          exact short
        have valid := readRequest_valid kept shortAfter room
        have requestEq := readRequest_eq kept shortAfter room
        have fits := kept.fits
        have datalen_le := kept.datalen_le
        dsimp only
        unfold networkRead
        rw [if_neg (not_not.mpr valid.nonempty.ne')]
        by_cases isSmall : (readRequest after len).buflen ≤ SSIZE_MAX
        · rw [if_neg (not_not.mpr isSmall)]
          have failed : Waits R len callback (.ok (-1, after)) :=
            Waits.failed kept samePeek moved.idle bound
          split_ifs with noCookie noEvent
          · exact failed
          · exact failed
          · refine Waits.reading (C := ⟨_, _, _, 0⟩) short ?_ samePeek rfl ?_
              rfl moved.callback moved.idle.2 bound
            · refine ⟨kept.length, kept.fits, kept.bufpos_le,
                kept.datalen_le, ?_, fun _ => moved.idle.2⟩
              rintro C ⟨⟩
              have minread_pos := valid.minread_pos
              have minread_le := valid.minread_le
              rw [requestEq] at *
              constructor <;> dsimp only at * <;> omega
            · rw [requestEq, samePeek]
              dsimp only
              omega
        · rw [if_pos isSmall]
          refine Waits.tooLarge (lt_of_lt_of_le (not_le.mp isSmall) ?_)
          rw [requestEq]
          dsimp only at bound ⊢
          omega

/-! ## The callbacks -/

/-- `callback_success` reports that the bytes waited for are there. -/
theorem callbackSuccess_spec (invariant : Invariant R)
    (isPending : R.immediateCookie = true) :
    ∃ after, callbackSuccess R = .ok (after, R.callback, 0) ∧
      Invariant after ∧ netbufReadPeek after = netbufReadPeek R ∧
      Idle after ∧ after.buflen = R.buflen := by
  have notReading : R.readCookie = none := by
    by_contra isReading
    have noImmediate := invariant.notBoth isReading
    rw [isPending] at noImmediate
    exact Bool.noConfusion noImmediate
  unfold callbackSuccess
  rw [isPending, if_neg (not_not.mpr Bool.true_eq_false.mp)]
  exact ⟨_, rfl, invariant.idle notReading, rfl, ⟨notReading, rfl⟩, rfl⟩

/-- How a readable socket changes a reader with a pending read. -/
inductive Reads (R : NetbufRead κ) (C : NetworkReadCookie) (recv : Recv) :
    NetbufRead κ → Option (Option κ × Int) → Prop where
  /-- The read goes on. -/
  | waits {after : NetbufRead κ} {C' : NetworkReadCookie}
      (invariant : Invariant after)
      (peek : netbufReadPeek after = netbufReadPeek R)
      (isCookie : after.readCookie = some C')
      (minlen : C'.minlen = C.minlen)
      (received : pendingBytes after = pendingBytes R ++ recvBytes recv)
      (isRecv : recv = .again ∨ ∃ bytes, recv = .data bytes)
      (sameCallback : after.callback = R.callback)
      (sameBuflen : after.buflen = R.buflen) :
      Reads R C recv after none
  /-- The read is complete. -/
  | filled {after : NetbufRead κ} {bytes : List UInt8}
      (isRecv : recv = .data bytes) (invariant : Invariant after)
      (peek : netbufReadPeek after =
        netbufReadPeek R ++ (pendingBytes R ++ bytes))
      (enough : C.minlen ≤ (pendingBytes R ++ bytes).length)
      (idle : Idle after) (sameBuflen : after.buflen = R.buflen) :
      Reads R C recv after (some (R.callback, 0))
  /-- The read fails, and what it has received is lost. -/
  | failed {after : NetbufRead κ} (invariant : Invariant after)
      (peek : netbufReadPeek after = netbufReadPeek R) (idle : Idle after)
      (sameBuflen : after.buflen = R.buflen) :
      Reads R C recv after (some (R.callback, -1))
  /-- The read ends at the end of the stream. -/
  | eof {after : NetbufRead κ} (isRecv : recv = .eof)
      (invariant : Invariant after)
      (peek : netbufReadPeek after = netbufReadPeek R) (idle : Idle after)
      (sameBuflen : after.buflen = R.buflen) :
      Reads R C recv after (some (R.callback, 1))

/-- The reader once bytes have arrived for its pending read. -/
def arrived (R : NetbufRead κ) (C : NetworkReadCookie)
    (bytes : List UInt8) : NetbufRead κ :=
  { R with buf := write R.buf (C.buf + C.bufpos) bytes }

section Arrived

variable (invariant : Invariant R) (isCookie : R.readCookie = some C)
  {bytes : List UInt8} (room : C.bufpos + bytes.length ≤ C.buflen)

include invariant isCookie room

theorem arrived_length : (arrived R C bytes).buf.length = R.buflen := by
  have inside := (invariant.reading C isCookie).inside
  have length := invariant.length
  unfold arrived
  dsimp only
  rw [length_write (by omega), length]

/-- The bytes that can be peeked at are not touched. -/
theorem arrived_peek (start n : Nat) (before : start + n ≤ R.datalen) :
    slice (arrived R C bytes).buf start n = slice R.buf start n := by
  have reading := invariant.reading C isCookie
  have inside := reading.inside
  have atDatalen := reading.buf
  have length := invariant.length
  exact slice_write_of_le (by omega) (by omega)

theorem arrived_pending :
    slice (arrived R C bytes).buf C.buf (C.bufpos + bytes.length) =
      pendingBytes R ++ bytes := by
  have inside := (invariant.reading C isCookie).inside
  have length := invariant.length
  rw [slice_add, pendingBytes_reading isCookie]
  unfold arrived
  dsimp only
  rw [slice_write_of_le le_rfl (by omega), slice_write_self (by omega)]

/-- The read goes on. -/
theorem arrived_waits (short : C.bufpos + bytes.length < C.minlen) :
    let after : NetbufRead κ := { arrived R C bytes with
      readCookie := some { C with bufpos := C.bufpos + bytes.length } }
    Invariant after ∧ netbufReadPeek after = netbufReadPeek R ∧
      pendingBytes after = pendingBytes R ++ bytes := by
  intro after
  have reading := invariant.reading C isCookie
  have length := arrived_length invariant isCookie room
  have kept : Invariant after :=
    { length := length
      fits := invariant.fits
      bufpos_le := invariant.bufpos_le
      datalen_le := invariant.datalen_le
      reading := by
        rintro C' ⟨⟩
        exact ⟨reading.buf, reading.inside, reading.minlen_le, short,
          reading.small⟩
      notBoth := fun _ => invariant.notBoth (by simp [isCookie]) }
  have bufpos_le := invariant.bufpos_le
  refine ⟨kept, ?_, ?_⟩
  · rw [kept.peek, invariant.peek]
    refine arrived_peek invariant isCookie room _ _ ?_
    dsimp only [after, arrived]
    omega
  · rw [pendingBytes_reading rfl]
    exact arrived_pending invariant isCookie room

/-- The read is complete. -/
theorem arrived_filled :
    let after : NetbufRead κ := { arrived R C bytes with
      readCookie := none
      datalen := R.datalen + (C.bufpos + bytes.length) }
    Invariant after ∧
      netbufReadPeek after =
        netbufReadPeek R ++ (pendingBytes R ++ bytes) := by
  intro after
  have reading := invariant.reading C isCookie
  have inside := reading.inside
  have atDatalen := reading.buf
  have bufpos_le := invariant.bufpos_le
  have length := arrived_length invariant isCookie room
  have kept : Invariant after :=
    { length := length
      fits := invariant.fits
      bufpos_le := by dsimp only [after, arrived]; omega
      datalen_le := by dsimp only [after, arrived]; omega
      reading := fun C noCookie =>
        absurd noCookie (Option.some_ne_none C).symm
      notBoth := fun noCookie => absurd rfl noCookie }
  refine ⟨kept, ?_⟩
  rw [kept.peek, invariant.peek]
  have split : R.datalen + (C.bufpos + bytes.length) - R.bufpos =
      (R.datalen - R.bufpos) + (C.bufpos + bytes.length) := by omega
  have start : R.bufpos + (R.datalen - R.bufpos) = C.buf := by omega
  change slice (arrived R C bytes).buf R.bufpos
    (R.datalen + (C.bufpos + bytes.length) - R.bufpos) = _
  rw [split, slice_add, start, arrived_pending invariant isCookie room,
    arrived_peek invariant isCookie room _ _ (by omega)]

end Arrived

/-- A read that ends without data leaves the buffered bytes as they are. -/
theorem ended_spec (invariant : Invariant R)
    (isCookie : R.readCookie = some C) {buf : List UInt8}
    (length : buf.length = R.buflen)
    (same : slice buf R.bufpos (R.datalen - R.bufpos) = netbufReadPeek R) :
    let after : NetbufRead κ := { R with buf, readCookie := none }
    Invariant after ∧ netbufReadPeek after = netbufReadPeek R ∧
      Idle after := by
  intro after
  have kept : Invariant after :=
    { length := length
      fits := invariant.fits
      bufpos_le := invariant.bufpos_le
      datalen_le := invariant.datalen_le
      reading := fun C noCookie =>
        absurd noCookie (Option.some_ne_none C).symm
      notBoth := fun noCookie => absurd rfl noCookie }
  refine ⟨kept, ?_, rfl, invariant.notBoth (by simp [isCookie])⟩
  rw [kept.peek]
  exact same

theorem callbackReadable_reads (invariant : Invariant R)
    (isCookie : R.readCookie = some C) {recv : Recv}
    (fits : recv.Fits C) (registered : Bool) :
    ∃ after called, callbackReadable registered recv R C =
        .ok (after, called) ∧ Reads R C recv after called := by
  have reading := invariant.reading C isCookie
  have inside := reading.inside
  have minlen_le := reading.minlen_le
  have bufpos_lt := reading.bufpos_lt
  have small := reading.small
  have size := invariant.fits
  have isReading : ¬ ¬ R.readCookie ≠ none := by simp [isCookie]
  obtain ⟨endedInvariant, endedPeek, endedIdle⟩ :=
    ended_spec invariant isCookie invariant.length invariant.peek.symm
  unfold callbackReadable callbackBuf
  cases recv with
  | error =>
      simp only [callbackRead, if_neg isReading]
      exact ⟨_, _, rfl, Reads.failed endedInvariant endedPeek endedIdle rfl⟩
  | eof =>
      simp only [callbackRead, if_neg isReading]
      exact ⟨_, _, rfl, Reads.eof rfl endedInvariant endedPeek endedIdle rfl⟩
  | again =>
      cases registered with
      | false =>
          simp only [tryagain, callbackRead, if_neg isReading,
            Bool.false_eq_true, if_false]
          exact ⟨_, _, rfl,
            Reads.failed endedInvariant endedPeek endedIdle rfl⟩
      | true =>
          simp only [tryagain, if_true]
          have same : ({ R with readCookie := some C } : NetbufRead κ) = R := by
            rw [← isCookie]
          refine ⟨_, _, rfl, ?_⟩
          rw [same]
          exact Reads.waits invariant rfl isCookie rfl
            (List.append_nil _).symm (Or.inl rfl) rfl rfl
  | data bytes =>
      obtain ⟨nonempty, length_le⟩ := fits bytes rfl
      rw [sizeSub_eq (by omega) (by omega)] at length_le
      have room : C.bufpos + bytes.length ≤ C.buflen := by omega
      have positive : 0 < bytes.length := List.length_pos_of_ne_nil nonempty
      have smallMax : SSIZE_MAX < 2 ^ 64 := by decide
      dsimp only
      rw [sizeAdd_eq (by omega)]
      by_cases short : C.bufpos + bytes.length < C.minlen
      · rw [if_pos short]
        cases registered with
        | false =>
            obtain ⟨lostInvariant, lostPeek, lostIdle⟩ :=
              ended_spec invariant isCookie
                (arrived_length invariant isCookie room)
                ((arrived_peek invariant isCookie room _ _ (by
                  have := invariant.bufpos_le
                  omega)).trans invariant.peek.symm)
            simp only [tryagain, callbackRead, if_neg isReading,
              Bool.false_eq_true, if_false]
            exact ⟨_, _, rfl,
              Reads.failed lostInvariant lostPeek lostIdle rfl⟩
        | true =>
            obtain ⟨kept, peek, pending⟩ :=
              arrived_waits invariant isCookie room short
            simp only [tryagain, if_true]
            exact ⟨_, _, rfl, Reads.waits kept peek rfl rfl pending
              (Or.inr ⟨bytes, rfl⟩) rfl rfl⟩
      · obtain ⟨kept, peek⟩ := arrived_filled invariant isCookie room
        have notNegative : ¬ ((C.bufpos + bytes.length : Nat) : Int) < 0 := by
          omega
        have notZero : ¬ ((C.bufpos + bytes.length : Nat) : Int) = 0 := by
          omega
        have pendingLength := invariant.length_pendingBytes isCookie
        have atDatalen := reading.buf
        rw [if_neg short, if_neg (by omega)]
        simp only [callbackRead, if_neg isReading, if_neg notNegative,
          if_neg notZero, Int.toNat_natCast]
        rw [sizeAdd_eq (by omega)]
        refine ⟨_, _, rfl, Reads.filled rfl kept peek ?_
          ⟨rfl, invariant.notBoth (by simp [isCookie])⟩ rfl⟩
        rw [List.length_append, pendingLength]
        omega

/-! ## `netbuf_read_consume` -/

theorem netbufReadConsume_spec (invariant : Invariant R) {len : Nat}
    (enough : len ≤ (netbufReadPeek R).length) :
    ∃ after, netbufReadConsume R len = .ok after ∧ Invariant after ∧
      netbufReadPeek after = (netbufReadPeek R).drop len ∧
      pendingBytes after = pendingBytes R ∧
      after.readCookie = R.readCookie ∧
      after.immediateCookie = R.immediateCookie ∧
      after.callback = R.callback ∧ after.buflen = R.buflen := by
  have fits := invariant.fits
  have bufpos_le := invariant.bufpos_le
  have datalen_le := invariant.datalen_le
  have peekLength := invariant.length_peek
  unfold netbufReadConsume
  rw [invariant.buffered, if_neg (not_not.mpr enough),
    sizeAdd_eq (by omega)]
  have kept : Invariant { R with bufpos := R.bufpos + len } :=
    { length := invariant.length
      fits := fits
      bufpos_le := by dsimp only; omega
      datalen_le := datalen_le
      reading := fun C isCookie =>
        have reading := invariant.reading C isCookie
        ⟨reading.buf, reading.inside, reading.minlen_le, reading.bufpos_lt,
          reading.small⟩
      notBoth := invariant.notBoth }
  refine ⟨_, rfl, kept, ?_, rfl, rfl, rfl, rfl, rfl⟩
  have split : R.datalen - R.bufpos = len + (R.datalen - (R.bufpos + len)) := by
    omega
  rw [kept.peek, invariant.peek, split, drop_slice]

end Libcperciva.Netbuf.ReadOps
