import Libcperciva.Lib.Buffer
import Libcperciva.Lib.Transfers
import Libcperciva.Network.WriteModel

/-!
# Runs of `network_write`

A request that was accepted is a transfer of bytes from the caller's buffer,
which nobody changes while the request is pending.
-/

namespace Libcperciva.Network.WriteRuns

open Libcperciva.Lib.Buffer
open Libcperciva.Lib.Transfers
open Libcperciva.Util.SizeT
open Libcperciva.Network.WriteModel

/-- A request, and what has happened. -/
structure Request where
  /-- The cookie, until it is freed. -/
  C : Option NetworkWriteCookie
  /-- Whether the network event is registered. -/
  event : Bool
  /-- The bytes that `send` was given and has sent. -/
  sent : List UInt8 := []
  /-- The lengths that the callback was passed. -/
  calls : List Int := []
  cancelled : Bool := false
  /-- `send` or a registration has failed. -/
  failed : Bool := false

/-- What happens to a request. -/
inductive Op where
  /-- The socket is writable; the callback would return `rc`. -/
  | writable (send : Send) (registered : Bool) (rc : Int)
  | cancel

/-- The bytes that `send` takes from the memory behind `C->buf + C->bufpos`. -/
def sentBytes (memory : List UInt8) (C : NetworkWriteCookie) :
    Send → List UInt8
  | .sent len => slice memory (C.buf + C.bufpos) len
  | .again | .error => []

/-- `callback_buf` under the event loop, and `network_write_cancel`; with what
is returned to the event loop. -/
def step (memory : List UInt8) (state : Request) :
    Op → Except WriteAssert (Request × Option Int)
  | .writable send registered rc =>
      match state.C with
      | none => .ok (state, none)
      | some C => do
          let result ← callbackBuf registered send C
          let state := { state with
            sent := state.sent ++ sentBytes memory C send
            failed := state.failed || send = Send.error || !registered }
          match result with
          | .waits C => .ok ({ state with C := some C, event := true }, some 0)
          | .calls lenwrit =>
              .ok ({ state with
                C := none
                event := false
                calls := state.calls ++ [lenwrit] }, some rc)
  | .cancel =>
      .ok ({ state with C := none, event := false, cancelled := true }, none)

/-- What the event loop, the socket and the caller may do. -/
def Allowed (state : Request) : Op → Prop
  | .writable send _ _ => state.event = true ∧
      ∀ C, state.C = some C → send.Fits C
  | .cancel => state.C ≠ none

/-- The states that a request reaches. -/
inductive Reaches (memory : List UInt8) (start : Request) : Request → Prop where
  | start : Reaches memory start start
  | step {state after : Request} {op : Op} {status : Option Int}
      (reaches : Reaches memory start state) (allowed : Allowed state op)
      (result : step memory state op = .ok (after, status)) :
      Reaches memory start after

/-- The transfer of a request. -/
def transferOf (state : Request) : Transfer where
  moved := state.sent.length
  waiting := state.event
  reports := state.calls
  cancelled := state.cancelled
  failed := state.failed

/-- What holds of a request for `buflen` bytes at `buf`, of which at least
`minwrite`. -/
structure Correct (memory : List UInt8) (buf buflen minwrite : Nat)
    (state : Request) : Prop where
  stands : Stands minwrite buflen (transferOf state)
  cookie : state.C = if state.event then
    some ⟨buf, buflen, minwrite, state.sent.length⟩ else none
  /-- The first bytes of the buffer have been sent, each once and in order. -/
  sent : state.sent = slice memory buf state.sent.length

variable {memory : List UInt8} {buf buflen minwrite : Nat} {state : Request}

/-- The position of a pending request. -/
theorem Correct.pending (correct : Correct memory buf buflen minwrite state)
    (isEvent : state.event = true) :
    state.C = some ⟨buf, buflen, minwrite, state.sent.length⟩ ∧
      state.sent.length < minwrite ∧ state.calls = [] := by
  have cookie := correct.cookie
  rw [if_pos isEvent] at cookie
  refine ⟨cookie, ?_⟩
  cases correct.stands with
  | waits _ short silent _ => exact ⟨short, silent⟩
  | done idle _ _ _ _ | closed idle _ _ _ _ | failed idle _ _ _ _
  | cancelled idle _ _ _ =>
      exact absurd isEvent (ne_true_of_eq_false idle)

theorem networkWrite_correct (memory : List UInt8) {allocs : WriteAllocs}
    {C : NetworkWriteCookie}
    (positive : 1 ≤ minwrite)
    (accepted : networkWrite allocs buf buflen minwrite = .ok (some C)) :
    C = ⟨buf, buflen, minwrite, 0⟩ ∧ buflen ≤ SSIZE_MAX ∧
      Correct memory buf buflen minwrite { C := some C, event := true } := by
  unfold networkWrite at accepted
  split_ifs at accepted with _ large _ _
  · exact absurd (Except.ok.inj accepted) (Option.some_ne_none _).symm
  · exact absurd (Except.ok.inj accepted) (Option.some_ne_none _).symm
  obtain rfl := Option.some.inj (Except.ok.inj accepted)
  exact ⟨rfl, large, .start positive, rfl, rfl⟩

section Writable

variable {len : Nat} (correct : Correct memory buf buflen minwrite state)
  (inside : buf + buflen ≤ memory.length) (isEvent : state.event = true)
  (fits : state.sent.length + len ≤ buflen)

include correct inside fits in
/-- `send` is given the bytes behind those which were sent. -/
theorem Correct.sent_append :
    let after := state.sent ++ slice memory (buf + state.sent.length) len
    after.length = state.sent.length + len ∧
      after = slice memory buf after.length := by
  intro after
  have isLength : after.length = state.sent.length + len := by
    rw [List.length_append, length_slice (by omega)]
  refine ⟨isLength, ?_⟩
  rw [isLength, slice_add, ← correct.sent]

include correct inside isEvent fits

/-- The request waits again. -/
theorem Correct.waits (failed : Bool)
    (short : state.sent.length + len < minwrite) :
    Correct memory buf buflen minwrite { state with
      sent := state.sent ++ slice memory (buf + state.sent.length) len
      failed
      C := some ⟨buf, buflen, minwrite, state.sent.length + len⟩
      event := true } := by
  obtain ⟨isLength, isSent⟩ := correct.sent_append inside fits
  refine ⟨?_, ?_, isSent⟩
  · have moved := correct.stands.step
      (Step.moves len false failed isEvent fits short)
    unfold transferOf at moved ⊢
    rw [isEvent] at moved
    rw [isLength]
    exact moved
  · rw [isLength]
    rfl

/-- The request is over: the callback is passed a length. -/
theorem Correct.calls (failed : Bool) {lenwrit : Int}
    (reported : (lenwrit = ((state.sent.length + len : Nat) : Int) ∧
        minwrite ≤ state.sent.length + len) ∨
      (lenwrit = -1 ∧ failed = true)) :
    Correct memory buf buflen minwrite { state with
      sent := state.sent ++ slice memory (buf + state.sent.length) len
      failed
      C := none
      event := false
      calls := state.calls ++ [lenwrit] } := by
  obtain ⟨isLength, isSent⟩ := correct.sent_append inside fits
  refine ⟨?_, rfl, isSent⟩
  unfold transferOf
  rw [isLength]
  rcases reported with ⟨rfl, enough⟩ | ⟨rfl, rfl⟩
  · exact correct.stands.step
      (Step.completes len false failed isEvent fits enough)
  · exact correct.stands.step (Step.fails len false isEvent fits)

end Writable

/-- `callback_buf` under the event loop: no assertion fails, and the status of
the callback is returned. -/
theorem Correct.writable (correct : Correct memory buf buflen minwrite state)
    (le : minwrite ≤ buflen) (small : buflen ≤ SSIZE_MAX)
    (inside : buf + buflen ≤ memory.length) {send : Send} (registered : Bool)
    (rc : Int) (allowed : Allowed state (.writable send registered rc)) :
    ∃ after status, step memory state (.writable send registered rc) =
        .ok (after, some status) ∧
      Correct memory buf buflen minwrite after ∧
      status = if after.calls = [] then 0 else rc := by
  obtain ⟨isEvent, fits⟩ := allowed
  obtain ⟨isCookie, short, silent⟩ := correct.pending isEvent
  have fits := fits _ isCookie
  have smallMax : SSIZE_MAX < 2 ^ 63 := by decide
  have idle : state.sent.length + 0 ≤ buflen :=
    Nat.le_trans (Nat.le_of_lt short) le
  have called (lenwrit : Int) : state.calls ++ [lenwrit] ≠ [] := by simp
  unfold step
  rw [isCookie]
  cases send with
  | error =>
      refine ⟨_, _, rfl, correct.calls inside isEvent idle _
        (Or.inr ⟨rfl, ?_⟩), (if_neg (called _)).symm⟩
      simp
  | again =>
      cases registered with
      | true =>
          exact ⟨_, _, rfl, correct.waits inside isEvent idle _ short,
            (if_pos silent).symm⟩
      | false =>
          refine ⟨_, _, rfl, correct.calls inside isEvent idle _
            (Or.inr ⟨rfl, ?_⟩), (if_neg (called _)).symm⟩
          simp
  | sent len =>
      have positive : 0 < len := (fits len rfl).1
      have bound : len ≤ sizeSub buflen state.sent.length := (fits len rfl).2
      rw [sizeSub_eq (by omega) (by omega)] at bound
      have moved : state.sent.length + len ≤ buflen := by omega
      have isPos : sizeAdd state.sent.length len = state.sent.length + len :=
        sizeAdd_eq (by omega)
      unfold callbackBuf
      dsimp only
      rw [if_neg (not_not.mpr (Nat.ne_of_gt positive)), isPos]
      by_cases again : state.sent.length + len < minwrite
      · rw [if_pos again]
        cases registered with
        | true =>
            exact ⟨_, _, rfl, correct.waits inside isEvent moved _ again,
              (if_pos silent).symm⟩
        | false =>
            refine ⟨_, _, rfl, correct.calls inside isEvent moved _
              (Or.inr ⟨rfl, ?_⟩), (if_neg (called _)).symm⟩
            simp
      · rw [if_neg again, if_neg (by omega)]
        exact ⟨_, _, rfl, correct.calls inside isEvent moved _
          (Or.inl ⟨rfl, Nat.le_of_not_lt again⟩), (if_neg (called _)).symm⟩

/-- `network_write_cancel`. -/
theorem Correct.cancel (correct : Correct memory buf buflen minwrite state)
    (pending : state.C ≠ none) :
    Correct memory buf buflen minwrite
      { state with C := none, event := false, cancelled := true } := by
  have isEvent : state.event = true := by
    by_contra notEvent
    exact pending (correct.cookie.trans (if_neg notEvent))
  exact ⟨correct.stands.step (Step.cancels isEvent), rfl, correct.sent⟩

/-- A request of `network_write` which was accepted is correct in each state
that it reaches: it calls back at most once, unless it is cancelled exactly
once when it is over, and the bytes sent are the first ones of the buffer; and
no assertion fails, `send` is given the rest of the buffer, and the event loop
is returned the status of the callback. -/
theorem network_write_run {allocs : WriteAllocs} {C : NetworkWriteCookie}
    (positive : 1 ≤ minwrite) (le : minwrite ≤ buflen)
    (inside : buf + buflen ≤ memory.length)
    (accepted : networkWrite allocs buf buflen minwrite = .ok (some C))
    (reaches : Reaches memory { C := some C, event := true } state) :
    Correct memory buf buflen minwrite state ∧
      (state.calls.length ≤ 1 ∧ (state.cancelled = true → state.calls = []) ∧
        (state.C = none → state.cancelled = false →
          state.calls.length = 1)) ∧
      (∀ C, state.C = some C → C.buf = buf ∧
        C.bufpos = state.sent.length ∧ C.bufpos < buflen ∧
        sizeSub C.buflen C.bufpos = buflen - C.bufpos) ∧
      ∀ send registered rc, Allowed state (.writable send registered rc) →
        ∃ after, step memory state (.writable send registered rc) =
          .ok (after, some (if after.calls = [] then 0 else rc)) := by
  obtain ⟨_, small, start⟩ := networkWrite_correct memory positive accepted
  have smallMax : SSIZE_MAX < 2 ^ 63 := by decide
  have correct : Correct memory buf buflen minwrite state := by
    induction reaches with
    | start => exact start
    | @step state after op status _ allowed result ih =>
        cases op with
        | writable send registered rc =>
            obtain ⟨_, _, isAfter, correct, _⟩ :=
              ih.writable le small inside registered rc allowed
            cases result.symm.trans isAfter
            exact correct
        | cancel =>
            cases Except.ok.inj result
            exact ih.cancel allowed
  obtain ⟨once, silent, exactly⟩ := correct.stands.reports_le
  refine ⟨correct, ⟨once, silent, fun isNone => exactly ?_⟩, ?_, ?_⟩
  · by_contra isEvent
    have isSome := correct.cookie.trans (if_pos (Bool.not_eq_false _ ▸ isEvent))
    exact Option.some_ne_none _ (isSome.symm.trans isNone)
  · intro C isCookie
    have isEvent : state.event = true := by
      by_contra notEvent
      have isNone := correct.cookie.trans (if_neg notEvent)
      exact Option.some_ne_none _ (isCookie.symm.trans isNone)
    obtain ⟨isCookie', short, _⟩ := correct.pending isEvent
    obtain rfl := Option.some.inj (isCookie.symm.trans isCookie')
    have before := Nat.lt_of_lt_of_le short le
    have fits : buflen < 2 ^ 64 := by omega
    exact ⟨rfl, rfl, before, sizeSub_eq (Nat.le_of_lt before) fits⟩
  · intro send registered rc allowed
    obtain ⟨after, status, isAfter, _, isStatus⟩ :=
      correct.writable le small inside registered rc allowed
    exact ⟨after, isStatus ▸ isAfter⟩

/-- Four bytes are sent, one, then three; the callback returns 5. -/
theorem network_write_run_twoParts :
    let memory : List UInt8 := [0, 7, 8, 9, 6, 0]
    let start : Request := { C := some ⟨1, 4, 4, 0⟩, event := true }
    let done : Request :=
      { C := none, event := false, sent := [7, 8, 9, 6], calls := [4] }
    Reaches memory start done ∧ Correct memory 1 4 4 done := by
  intro memory start done
  let middle : Request :=
    { C := some ⟨1, 4, 4, 1⟩, event := true, sent := [7] }
  have first : Allowed start (.writable (.sent 1) true 0) := by
    refine ⟨rfl, ?_⟩
    rintro _ ⟨⟩ _ ⟨⟩
    decide
  have second : Allowed middle (.writable (.sent 3) true 5) := by
    refine ⟨rfl, ?_⟩
    rintro _ ⟨⟩ _ ⟨⟩
    decide
  have atMiddle : Reaches memory start middle := .step .start first rfl
  have atDone : Reaches memory start done := .step atMiddle second rfl
  have accepted : networkWrite {} 1 4 4 = .ok (some ⟨1, 4, 4, 0⟩) := rfl
  exact ⟨atDone, (network_write_run (by decide) (by decide) (by decide)
    accepted atDone).1⟩

end Libcperciva.Network.WriteRuns
