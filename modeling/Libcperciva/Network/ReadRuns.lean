import Libcperciva.Lib.Transfers
import Libcperciva.Network.ReadModel

/-!
# Runs of `network_read`

A request that was accepted is a transfer of bytes into the caller's buffer.
The event loop invokes `callback_buf` only while the network event is
registered, and removes the event before it does; the cookie lives as long as
the event.
-/

namespace Libcperciva.Network.ReadRuns

open Libcperciva.Lib.Buffer
open Libcperciva.Lib.Transfers
open Libcperciva.Util.SizeT
open Libcperciva.Network.ReadModel

/-- A request, and what has happened. -/
structure Request where
  /-- The cookie, until it is freed. -/
  C : Option NetworkReadCookie
  /-- Whether the network event is registered. -/
  event : Bool
  memory : List UInt8
  /-- The bytes that `recv` has returned. -/
  received : List UInt8 := []
  /-- The lengths that the callback was passed. -/
  calls : List Int := []
  cancelled : Bool := false
  eof : Bool := false
  /-- `recv` or a registration has failed. -/
  failed : Bool := false

/-- What happens to a request. -/
inductive Op where
  /-- The socket is readable; the callback would return `rc`. -/
  | readable (recv : Recv) (registered : Bool) (rc : Int)
  | cancel

/-- `callback_buf` under the event loop, and `network_read_cancel`; with what
is returned to the event loop. -/
def step (state : Request) :
    Op → Except ReadAssert (Request × Option Int)
  | .readable recv registered rc =>
      match state.C with
      | none => .ok (state, none)
      | some C => do
          let (result, memory) ← callbackBuf registered recv C state.memory
          let state := { state with
            memory
            received := state.received ++ recvBytes recv
            eof := state.eof || recv = Recv.eof
            failed := state.failed || recv = Recv.error || !registered }
          match result with
          | .waits C => .ok ({ state with C := some C, event := true }, some 0)
          | .calls lenread =>
              .ok ({ state with
                C := none
                event := false
                calls := state.calls ++ [lenread] }, some rc)
  | .cancel =>
      .ok ({ state with C := none, event := false, cancelled := true }, none)

/-- What the event loop, the socket and the caller may do. -/
def Allowed (state : Request) : Op → Prop
  | .readable recv _ _ => state.event = true ∧
      ∀ C, state.C = some C → recv.Fits C
  | .cancel => state.C ≠ none

/-- The states that a request reaches. -/
inductive Reaches (start : Request) : Request → Prop where
  | start : Reaches start start
  | step {state after : Request} {op : Op} {status : Option Int}
      (reaches : Reaches start state) (allowed : Allowed state op)
      (result : step state op = .ok (after, status)) : Reaches start after

/-- The transfer of a request. -/
def transferOf (state : Request) : Transfer where
  moved := state.received.length
  waiting := state.event
  reports := state.calls
  cancelled := state.cancelled
  closed := state.eof
  failed := state.failed

/-- What holds of a request for `buflen` bytes at `buf`, of which at least
`minread`, that started with `memory`. -/
structure Correct (memory : List UInt8) (buf buflen minread : Nat)
    (state : Request) : Prop where
  stands : Stands minread buflen (transferOf state)
  cookie : state.C = if state.event then
    some ⟨buf, buflen, minread, state.received.length⟩ else none
  /-- What has been received is in the buffer, and nothing else has changed. -/
  memory : state.memory = write memory buf state.received

variable {memory : List UInt8} {buf buflen minread : Nat} {state : Request}

/-- The position of a pending request. -/
theorem Correct.pending (correct : Correct memory buf buflen minread state)
    (isEvent : state.event = true) :
    state.C = some ⟨buf, buflen, minread, state.received.length⟩ ∧
      state.received.length < minread ∧ state.calls = [] := by
  have cookie := correct.cookie
  rw [if_pos isEvent] at cookie
  refine ⟨cookie, ?_⟩
  cases correct.stands with
  | waits _ short silent _ => exact ⟨short, silent⟩
  | done idle _ _ _ _ | closed idle _ _ _ _ | failed idle _ _ _ _
  | cancelled idle _ _ _ =>
      exact absurd isEvent (ne_true_of_eq_false idle)

theorem networkRead_correct (memory : List UInt8) {allocs : ReadAllocs}
    {C : NetworkReadCookie}
    (positive : 1 ≤ minread)
    (accepted : networkRead allocs buf buflen minread = .ok (some C)) :
    C = ⟨buf, buflen, minread, 0⟩ ∧ buflen ≤ SSIZE_MAX ∧
      Correct memory buf buflen minread
        { C := some C, event := true, memory } := by
  unfold networkRead at accepted
  split_ifs at accepted with _ large _ _
  · exact absurd (Except.ok.inj accepted) (Option.some_ne_none _).symm
  · exact absurd (Except.ok.inj accepted) (Option.some_ne_none _).symm
  obtain rfl := Option.some.inj (Except.ok.inj accepted)
  exact ⟨rfl, large, .start positive, rfl, (write_nil memory buf).symm⟩

section Readable

variable {bytes memory' : List UInt8}
  (correct : Correct memory buf buflen minread state)
  (inside : buf + buflen ≤ memory.length)
  (isEvent : state.event = true)
  (isWritten : memory' = write state.memory (buf + state.received.length) bytes)

include correct inside isWritten in
theorem Correct.written :
    memory' = write memory buf (state.received ++ bytes) := by
  rw [isWritten, correct.memory, write_write (by omega)]

include correct inside isEvent isWritten

/-- The request waits again. -/
theorem Correct.waits
    (fits : state.received.length + bytes.length ≤ buflen) (eof failed : Bool)
    (short : state.received.length + bytes.length < minread) :
    Correct memory buf buflen minread { state with
      memory := memory'
      received := state.received ++ bytes
      eof
      failed
      C := some ⟨buf, buflen, minread, state.received.length + bytes.length⟩
      event := true } := by
  have isLength : (state.received ++ bytes).length =
      state.received.length + bytes.length := List.length_append
  refine ⟨?_, ?_, correct.written inside isWritten⟩
  · have moved := correct.stands.step
      (Step.moves bytes.length eof failed isEvent fits short)
    unfold transferOf at moved ⊢
    rw [isEvent] at moved
    rw [isLength]
    exact moved
  · rw [isLength]
    rfl

/-- The request is over: the callback is passed a length. -/
theorem Correct.calls
    (fits : state.received.length + bytes.length ≤ buflen) (eof failed : Bool)
    {lenread : Int}
    (reported :
      (lenread = ((state.received.length + bytes.length : Nat) : Int) ∧
        minread ≤ state.received.length + bytes.length) ∨
      (lenread = 0 ∧ eof = true ∧ bytes = []) ∨
      (lenread = -1 ∧ failed = true)) :
    Correct memory buf buflen minread { state with
      memory := memory'
      received := state.received ++ bytes
      eof
      failed
      C := none
      event := false
      calls := state.calls ++ [lenread] } := by
  have isLength : (state.received ++ bytes).length =
      state.received.length + bytes.length := List.length_append
  refine ⟨?_, rfl, correct.written inside isWritten⟩
  unfold transferOf
  rw [isLength]
  rcases reported with ⟨rfl, enough⟩ | ⟨rfl, rfl, rfl⟩ | ⟨rfl, rfl⟩
  · exact correct.stands.step
      (Step.completes bytes.length eof failed isEvent fits enough)
  · exact correct.stands.step (Step.closes failed isEvent)
  · exact correct.stands.step (Step.fails bytes.length eof isEvent fits)

end Readable

/-- `callback_buf` under the event loop: no assertion fails, and the status of
the callback is returned. -/
theorem Correct.readable (correct : Correct memory buf buflen minread state)
    (le : minread ≤ buflen) (small : buflen ≤ SSIZE_MAX)
    (inside : buf + buflen ≤ memory.length) {recv : Recv} (registered : Bool)
    (rc : Int) (allowed : Allowed state (.readable recv registered rc)) :
    ∃ after status, step state (.readable recv registered rc) =
        .ok (after, some status) ∧
      Correct memory buf buflen minread after ∧
      status = if after.calls = [] then 0 else rc := by
  obtain ⟨isEvent, fits⟩ := allowed
  obtain ⟨isCookie, short, silent⟩ := correct.pending isEvent
  have fits := fits _ isCookie
  have smallMax : SSIZE_MAX < 2 ^ 63 := by decide
  have idle : state.received.length + ([] : List UInt8).length ≤ buflen :=
    Nat.le_trans (Nat.le_of_lt short) le
  have same := (write_nil state.memory (buf + state.received.length)).symm
  have called (lenread : Int) : state.calls ++ [lenread] ≠ [] := by simp
  unfold step
  rw [isCookie]
  cases recv with
  | error =>
      refine ⟨_, _, rfl, correct.calls inside isEvent same idle _ _
        (Or.inr (Or.inr ⟨rfl, ?_⟩)), (if_neg (called _)).symm⟩
      simp
  | eof =>
      refine ⟨_, _, rfl, correct.calls inside isEvent same idle _ _
        (Or.inr (Or.inl ⟨rfl, ?_, rfl⟩)), (if_neg (called _)).symm⟩
      simp
  | again =>
      cases registered with
      | true =>
          exact ⟨_, _, rfl, correct.waits inside isEvent same idle _ _ short,
            (if_pos silent).symm⟩
      | false =>
          refine ⟨_, _, rfl, correct.calls inside isEvent same idle _ _
            (Or.inr (Or.inr ⟨rfl, ?_⟩)), (if_neg (called _)).symm⟩
          simp
  | data bytes =>
      have bound : bytes.length ≤ sizeSub buflen state.received.length :=
        (fits bytes rfl).2
      rw [sizeSub_eq (by omega) (by omega)] at bound
      have moved : state.received.length + bytes.length ≤ buflen := by omega
      have isPos : sizeAdd state.received.length bytes.length =
          state.received.length + bytes.length := sizeAdd_eq (by omega)
      unfold callbackBuf
      dsimp only
      rw [isPos]
      by_cases again : state.received.length + bytes.length < minread
      · rw [if_pos again]
        cases registered with
        | true =>
            exact ⟨_, _, rfl, correct.waits inside isEvent rfl moved _ _ again,
              (if_pos silent).symm⟩
        | false =>
            refine ⟨_, _, rfl, correct.calls inside isEvent rfl moved _ _
              (Or.inr (Or.inr ⟨rfl, ?_⟩)), (if_neg (called _)).symm⟩
            simp
      · rw [if_neg again, if_neg (by omega)]
        exact ⟨_, _, rfl, correct.calls inside isEvent rfl moved _ _
          (Or.inl ⟨rfl, Nat.le_of_not_lt again⟩), (if_neg (called _)).symm⟩

/-- `network_read_cancel`. -/
theorem Correct.cancel (correct : Correct memory buf buflen minread state)
    (pending : state.C ≠ none) :
    Correct memory buf buflen minread
      { state with C := none, event := false, cancelled := true } := by
  have isEvent : state.event = true := by
    by_contra notEvent
    exact pending (correct.cookie.trans (if_neg notEvent))
  exact ⟨correct.stands.step (Step.cancels isEvent), rfl, correct.memory⟩

/-- A request of `network_read` which was accepted is correct in each state
that it reaches: it calls back at most once, unless it is cancelled exactly
once when it is over, and with what is in the buffer; and no assertion fails,
`recv` is asked for the rest of the buffer, and the event loop is returned the
status of the callback. -/
theorem network_read_run {allocs : ReadAllocs} {C : NetworkReadCookie}
    (positive : 1 ≤ minread) (le : minread ≤ buflen)
    (inside : buf + buflen ≤ memory.length)
    (accepted : networkRead allocs buf buflen minread = .ok (some C))
    (reaches : Reaches { C := some C, event := true, memory } state) :
    Correct memory buf buflen minread state ∧
      (state.calls.length ≤ 1 ∧ (state.cancelled = true → state.calls = []) ∧
        (state.C = none → state.cancelled = false →
          state.calls.length = 1)) ∧
      (∀ C, state.C = some C → C.buf = buf ∧
        C.bufpos = state.received.length ∧ C.bufpos < buflen ∧
        sizeSub C.buflen C.bufpos = buflen - C.bufpos) ∧
      ∀ recv registered rc, Allowed state (.readable recv registered rc) →
        ∃ after, step state (.readable recv registered rc) =
          .ok (after, some (if after.calls = [] then 0 else rc)) := by
  obtain ⟨_, small, start⟩ := networkRead_correct memory positive accepted
  have smallMax : SSIZE_MAX < 2 ^ 63 := by decide
  have correct : Correct memory buf buflen minread state := by
    induction reaches with
    | start => exact start
    | @step state after op status _ allowed result ih =>
        cases op with
        | readable recv registered rc =>
            obtain ⟨_, _, isAfter, correct, _⟩ :=
              ih.readable le small inside registered rc allowed
            cases result.symm.trans isAfter
            exact correct
        | cancel =>
            cases Except.ok.inj result
            exact ih.cancel allowed
  obtain ⟨once, silent, exactly⟩ := correct.stands.reports_le
  refine ⟨correct, ⟨once, silent, fun isNone => exactly ?_⟩, ?_, ?_⟩
  · by_contra isEvent
    have isSome := correct.cookie.trans (if_pos (Bool.not_eq_false _ ▸ isEvent))
    exact Option.some_ne_none _ (isSome.symm.trans isNone)
  · intro C isCookie
    have isEvent : state.event = true := by
      by_contra notEvent
      have isNone := correct.cookie.trans (if_neg notEvent)
      exact Option.some_ne_none _ (isCookie.symm.trans isNone)
    obtain ⟨isCookie', short, _⟩ := correct.pending isEvent
    obtain rfl := Option.some.inj (isCookie.symm.trans isCookie')
    have before := Nat.lt_of_lt_of_le short le
    have fits : buflen < 2 ^ 64 := by omega
    exact ⟨rfl, rfl, before, sizeSub_eq (Nat.le_of_lt before) fits⟩
  · intro recv registered rc allowed
    obtain ⟨after, status, isAfter, _, isStatus⟩ :=
      correct.readable le small inside registered rc allowed
    exact ⟨after, isStatus ▸ isAfter⟩

/-- Two of four bytes are wanted; one arrives, then two. -/
theorem network_read_run_twoParts :
    let start : Request :=
      { C := some ⟨1, 4, 2, 0⟩, event := true, memory := [0, 0, 0, 0, 0, 0] }
    let done : Request :=
      { C := none, event := false, memory := [0, 7, 8, 9, 0, 0]
        received := [7, 8, 9], calls := [3] }
    Reaches start done ∧ Correct [0, 0, 0, 0, 0, 0] 1 4 2 done := by
  intro start done
  let middle : Request :=
    { C := some ⟨1, 4, 2, 1⟩, event := true, memory := [0, 7, 0, 0, 0, 0]
      received := [7] }
  have first : Allowed start (.readable (.data [7]) true 0) := by
    refine ⟨rfl, ?_⟩
    rintro _ ⟨⟩ _ ⟨⟩
    decide
  have second : Allowed middle (.readable (.data [8, 9]) true 5) := by
    refine ⟨rfl, ?_⟩
    rintro _ ⟨⟩ _ ⟨⟩
    decide
  have atMiddle : Reaches start middle := .step .start first rfl
  have atDone : Reaches start done := .step atMiddle second rfl
  have accepted : networkRead {} 1 4 2 = .ok (some ⟨1, 4, 2, 0⟩) := rfl
  exact ⟨atDone, (network_read_run (by decide) (by decide) (by decide)
    accepted atDone).1⟩

end Libcperciva.Network.ReadRuns
