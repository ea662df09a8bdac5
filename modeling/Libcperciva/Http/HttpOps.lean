import Libcperciva.Http.HttpModel
import Libcperciva.Netbuf.ReadOps

/-!
# How the HTTP client uses its reader

The reader is between two waits whenever a function of the client is called.
The functions wait only when they have looked at all buffered data, so that a
wait always reads.
-/

namespace Libcperciva.Http.HttpOps

open Libcperciva.Lib.Buffer
open Libcperciva.Lib.Lines
open Libcperciva.Util.Cstring
open Libcperciva.Util.SizeT
open Libcperciva.Network.ReadModel
open Libcperciva.Netbuf.ReadModel
open Libcperciva.Netbuf.ReadOps
open Libcperciva.Http.HttpModel

variable {H : HttpCookie} {R after : NetbufRead HttpCallback}
  {function : HttpCallback} {len : Nat}

/-! ## The reader -/

/-- What the buffer of the reader can grow to. -/
def maxBuffer : Nat := 2 * (1024 * 1024)

/-- The reader when no wait is pending. -/
structure Ready (R : NetbufRead HttpCallback) : Prop where
  invariant : Invariant R
  idle : Idle R
  size : R.buflen ≤ maxBuffer

/-- The reader waits for so many bytes. -/
structure Awaits (R : NetbufRead HttpCallback) (function : HttpCallback)
    (len : Nat) (C : NetworkReadCookie) : Prop where
  invariant : Invariant R
  size : R.buflen ≤ maxBuffer
  isCookie : R.readCookie = some C
  minlen : (netbufReadPeek R).length + C.minlen = len
  isCallback : R.callback = some function

theorem netbufReadInit_ready (memory : Nat → UInt8) :
    Ready (netbufReadInit memory) := by
  obtain ⟨invariant, idle, _⟩ :=
    netbufReadInit_spec (κ := HttpCallback) memory
  exact ⟨invariant, idle, (by decide : 4096 ≤ maxBuffer)⟩

theorem Ready.length_peek (ready : Ready R) :
    (netbufReadPeek R).length ≤ maxBuffer := by
  have := ready.invariant.length_peek
  have := ready.invariant.datalen_le
  have := ready.size
  omega

/-- Nothing that the wait calls fails. -/
structure Succeed (allocs : WaitAllocs) : Prop where
  immediate : allocs.immediate = true
  malloc : allocs.malloc ≠ none
  cookie : allocs.read.cookie = true
  register : allocs.read.register = true

theorem makeRoom_ne_none {malloc : Option (Nat → UInt8)}
    (succeeds : malloc ≠ none) : makeRoom malloc R len ≠ none := by
  obtain ⟨memory, isMemory⟩ := Option.ne_none_iff_exists'.mp succeeds
  unfold makeRoom netbufReadResizeBuffer
  rw [isMemory]
  dsimp only
  split_ifs
  all_goals exact Option.some_ne_none _

theorem networkRead_succeeds {allocs : WaitAllocs} {buf minread : Nat}
    (succeed : Succeed allocs) :
    networkRead allocs.read buf len minread ≠ .ok none := by
  unfold networkRead
  simp only [succeed.cookie, succeed.register, Bool.not_true,
    Bool.false_eq_true, if_false]
  split_ifs
  all_goals nofun

theorem netbufReadWait_succeeds {allocs : WaitAllocs} {status : Int}
    (succeed : Succeed allocs)
    (result : netbufReadWait allocs R len function = .ok (status, after)) :
    status = 0 := by
  unfold netbufReadWait at result
  dsimp only at result
  rw [succeed.immediate, if_pos rfl] at result
  split_ifs at result with reading pending enough
  · cases result
    rfl
  · cases room : makeRoom allocs.malloc
        { R with callback := some function } len with
    | none => exact absurd room (makeRoom_ne_none succeed.malloc)
    | some grown =>
        rw [room] at result
        dsimp only at result
        split at result
        · exact absurd result nofun
        · next noCookie => exact absurd noCookie (networkRead_succeeds succeed)
        · cases result
          rfl

/-- A wait for more than what is buffered begins to read. -/
theorem waitFor_spec (ready : Ready H.R) (allocs : WaitAllocs)
    (short : (netbufReadPeek H.R).length < len) (small : len ≤ 1024 * 1024) :
    (waitFor allocs H len function = .ok .dies ∧ ¬ Succeed allocs) ∨
      ∃ R C, waitFor allocs H len function = .ok (.waits { H with R }) ∧
        Awaits R function len C ∧
        netbufReadPeek R = netbufReadPeek H.R ∧ pendingBytes R = [] := by
  have waits := netbufReadWait_waits ready.invariant ready.idle
    (by omega : len < 2 ^ 64) allocs function
  have grown : max H.R.buflen (2 * len) ≤ maxBuffer :=
    max_le ready.size (Nat.mul_le_mul_left 2 small)
  unfold waitFor
  generalize result : netbufReadWait allocs H.R len function = outcome at waits
  cases waits with
  | failed invariant peek idle bound =>
      refine Or.inl ⟨rfl, fun succeed => ?_⟩
      exact absurd (netbufReadWait_succeeds succeed result) (by decide)
  | immediate enough idle => exact absurd enough (by omega)
  | @reading after C short invariant peek isCookie minlen nothing isCallback
      notImmediate bound =>
      refine Or.inr ⟨after, C, rfl,
        ⟨invariant, bound.trans grown, isCookie, ?_, isCallback⟩, peek, ?_⟩
      · rw [peek]
        exact minlen
      · rw [pendingBytes_reading isCookie, nothing]
        exact slice_zero _ _
  | tooLarge large =>
      exact absurd (lt_of_lt_of_le large grown) (by decide)

/-- Consuming buffered bytes changes nothing but the reader. -/
theorem consume_spec (ready : Ready H.R)
    (enough : len ≤ (netbufReadPeek H.R).length) :
    ∃ R, consume H len = .ok { H with R } ∧ Ready R ∧
      netbufReadPeek R = (netbufReadPeek H.R).drop len := by
  obtain ⟨after, result, invariant, peek, _, sameCookie, sameImmediate, _,
    sameBuflen⟩ := netbufReadConsume_spec ready.invariant enough
  refine ⟨after, ?_, ⟨invariant, ⟨?_, ?_⟩, ?_⟩, peek⟩
  · unfold consume
    rw [result]
  · rw [sameCookie]
    exact ready.idle.1
  · rw [sameImmediate]
    exact ready.idle.2
  · rw [sameBuflen]
    exact ready.size

/-- How a readable socket changes a reader that waits. -/
inductive Arrives (R : NetbufRead HttpCallback) (function : HttpCallback)
    (len : Nat) (recv : Recv) (registered : Bool) :
    NetbufRead HttpCallback → Option (Option HttpCallback × Int) →
      Prop where
  | waits {after : NetbufRead HttpCallback} {C : NetworkReadCookie}
      (awaits : Awaits after function len C)
      (peek : netbufReadPeek after = netbufReadPeek R)
      (received : pendingBytes after = pendingBytes R ++ recvBytes recv)
      (isRecv : recv = .again ∨ ∃ bytes, recv = .data bytes) :
      Arrives R function len recv registered after none
  | filled {after : NetbufRead HttpCallback} {bytes : List UInt8}
      (isRecv : recv = .data bytes) (ready : Ready after)
      (peek : netbufReadPeek after =
        netbufReadPeek R ++ (pendingBytes R ++ bytes))
      (enough : len ≤ (netbufReadPeek after).length) :
      Arrives R function len recv registered after (some (some function, 0))
  | failed {after : NetbufRead HttpCallback} (ready : Ready after)
      (because : recv = .error ∨ registered = false) :
      Arrives R function len recv registered after
        (some (some function, -1))
  | eof {after : NetbufRead HttpCallback} (isRecv : recv = .eof)
      (ready : Ready after)
      (peek : netbufReadPeek after = netbufReadPeek R) :
      Arrives R function len recv registered after (some (some function, 1))

variable {C : NetworkReadCookie} {recv : Recv} {registered : Bool}

theorem callbackRead_failed {called : Option HttpCallback} {lenread : Int}
    (result : callbackRead R lenread = .ok (after, called, -1)) :
    lenread < 0 := by
  by_contra notNegative
  unfold callbackRead at result
  dsimp only at result
  rw [if_neg notNegative] at result
  split_ifs at result <;> cases result

theorem callbackBuf_failed {buf memory : List UInt8} {lenread : Int}
    (result : callbackBuf registered recv C memory =
      .ok (.calls lenread, buf)) (negative : lenread < 0) :
    recv = .error ∨ registered = false := by
  unfold callbackBuf at result
  cases recv with
  | error => exact Or.inl rfl
  | again =>
      cases registered with
      | false => exact Or.inr rfl
      | true => cases result
  | eof =>
      cases result
      exact absurd negative (by decide)
  | data bytes =>
      cases registered with
      | false => exact Or.inr rfl
      | true =>
          dsimp only at result
          split_ifs at result
          · cases result
          · cases result
            omega

/-- Only an error, or an event that cannot be registered, is reported as a
failure. -/
theorem callbackReadable_failed {called : Option HttpCallback}
    (result : callbackReadable registered recv R C =
      .ok (after, some (called, -1))) :
    recv = .error ∨ registered = false := by
  unfold callbackReadable at result
  split at result
  · exact absurd result nofun
  · exact absurd result nofun
  · next lenread buf isResult =>
      split at result
      · exact absurd result nofun
      · next R' called' isRead =>
          cases result
          exact callbackBuf_failed isResult (callbackRead_failed isRead)

theorem Awaits.arrives (awaits : Awaits R function len C)
    (fits : recv.Fits C) (registered : Bool) :
    ∃ after called, callbackReadable registered recv R C =
        .ok (after, called) ∧
      Arrives R function len recv registered after called := by
  obtain ⟨after, called, result, reads⟩ := callbackReadable_reads
    awaits.invariant awaits.isCookie fits registered
  refine ⟨after, called, result, ?_⟩
  have size := awaits.size
  cases reads with
  | waits invariant peek isCookie minlen received isRecv sameCallback
      sameBuflen =>
      refine Arrives.waits ⟨invariant, ?_, isCookie, ?_, ?_⟩ peek received
        isRecv
      · rw [sameBuflen]
        exact size
      · rw [peek, minlen]
        exact awaits.minlen
      · rw [sameCallback]
        exact awaits.isCallback
  | filled isRecv invariant peek enough idle sameBuflen =>
      rw [awaits.isCallback]
      refine Arrives.filled isRecv ⟨invariant, idle, ?_⟩ peek ?_
      · rw [sameBuflen]
        exact size
      · have minlen := awaits.minlen
        rw [peek, List.length_append]
        omega
  | failed invariant peek idle sameBuflen =>
      have because := callbackReadable_failed result
      rw [awaits.isCallback]
      refine Arrives.failed ⟨invariant, idle, ?_⟩ because
      rw [sameBuflen]
      exact size
  | eof isRecv invariant peek idle sameBuflen =>
      rw [awaits.isCallback]
      refine Arrives.eof isRecv ⟨invariant, idle, ?_⟩ peek
      rw [sameBuflen]
      exact size

end Libcperciva.Http.HttpOps
