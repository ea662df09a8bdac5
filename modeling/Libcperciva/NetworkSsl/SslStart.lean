import Libcperciva.NetworkSsl.SslClose

/-!
# Operations of the TLS transport that are not started

`network_ssl_read` and `network_ssl_write` record the details of an operation
before they register the immediate event.  When the registration fails they
return NULL, and the operation stays recorded: its callback can be invoked,
another operation cannot be started, and the context cannot be closed.
-/

namespace Libcperciva.NetworkSsl.SslStart

open Libcperciva.Events.NetworkModel (NetworkOp)
open Libcperciva.Util.SizeT
open Libcperciva.NetworkSsl.SslModel
open Libcperciva.NetworkSsl.SslOps
open Libcperciva.NetworkSsl.SslClose

variable {κ : Type*} {sys after : System κ} {op : NetworkOp}
  {args : Arguments κ}

/-! ## What should hold after a failure -/

/-- The other operation. -/
def other : NetworkOp → NetworkOp
  | .read => .write
  | .write => .read

/-- A call that starts a read or a write. -/
def request (op : NetworkOp) (args : Arguments κ) : Request κ :=
  match op with
  | .read => .read args
  | .write => .write args

/-- The action starts the operation. -/
def Starts (op : NetworkOp) (action : Action κ) : Prop :=
  ∃ args, action = .request (request op args)

/-- The systems that are reached while the operation is not started. -/
inductive Later (op : NetworkOp) (sys : System κ) : System κ → Prop where
  | now : Later op sys sys
  | step {before after : System κ} (action : Action κ) (reply : Reply κ)
      (later : Later op sys before) (permitted : Permitted before action)
      (notStarted : ¬ Starts op action)
      (result : action.progress before = .ok (reply, after)) :
      Later op sys after

/-- The length of the buffer is one that a caller may pass. -/
def Valid (args : Arguments κ) : Prop :=
  args.buflen ≠ 0 ∧ args.buflen ≤ SSIZE_MAX

/-- No callback of the operation is invoked. -/
def Uninvoked (op : NetworkOp) (sys : System κ) : Prop :=
  ∀ before, Later op sys before → ∀ action, Permitted before action →
    ¬ Starts op action → ∀ callback len after,
      action.progress before ≠ .ok (.invoked op callback len, after)

/-- The operation can be started. -/
def Startable (op : NetworkOp) (sys : System κ) : Prop :=
  ∀ later, Later op sys later → later.closed = false →
    ∀ args, Valid args → ∀ failed,
      networkSslStart op args later ≠ .error (.assertion failed)

/-- When the other operation is idle, the context can be closed. -/
def Closable (op : NetworkOp) (sys : System κ) : Prop :=
  ∀ later, Later op sys later → later.closed = false →
    (later.ssl.pending (other op)).callback = none → ∀ failed,
      networkSslClose later ≠ .error (.assertion failed)

/-- Nothing of the operation is left. -/
structure NothingPending (op : NetworkOp) (sys : System κ) : Prop where
  uninvoked : Uninvoked op sys
  startable : Startable op sys
  closable : Closable op sys

/-! ## The state after a failure -/

theorem one_le_SSIZE_MAX : 1 ≤ SSIZE_MAX := by decide

theorem pending_setPending (ssl : NetworkSslCtx κ) (op x : NetworkOp)
    (pending : Pending κ) :
    (ssl.setPending op pending).pending x =
      if x = op then pending else ssl.pending x := by
  cases op <;> cases x <;> rfl

/-- A call that can be made: the context is open, the operation is idle and
the length is valid. -/
structure Callable (op : NetworkOp) (args : Arguments κ) (sys : System κ) :
    Prop where
  opened : sys.closed = false
  valid : Valid args
  idle : (sys.ssl.pending op).callback = none

theorem networkSslStart_eq (callable : Callable op args sys) :
    networkSslStart op args sys =
      match sys.ssl.immediateCookie, args.immediate with
      | some _, _ => .ok (true,
          { sys with ssl := sys.ssl.setPending op (recorded args) })
      | none, none => .ok (false,
          { sys with ssl := sys.ssl.setPending op (recorded args) })
      | none, some cookie => .ok (true, { sys with
          ssl := { sys.ssl.setPending op (recorded args) with
            immediateCookie := some cookie }
          events := { sys.events with
            immediates := sys.events.immediates ++ [cookie] } }) := by
  have isIdle : (sys.ssl.pending op).callback.isNone = true := by
    rw [callable.idle]
    rfl
  have sameCookie : ∀ pending, (sys.ssl.setPending op pending).immediateCookie =
      sys.ssl.immediateCookie := by
    intro pending
    cases op <;> rfl
  unfold networkSslStart
  rw [if_neg (not_not_intro callable.valid.1),
    if_neg (not_not_intro callable.valid.2), deref_opened callable.opened]
  dsimp only [bind, Except.bind]
  rw [if_neg (not_not_intro isIdle)]
  show (match (sys.ssl.setPending op (recorded args)).immediateCookie,
    args.immediate with
    | some _, _ => _
    | none, none => _
    | none, some cookie => _) = _
  rw [sameCookie]
  rfl

/-- An operation is recorded, and nothing is going to poke it. -/
structure Recorded (op : NetworkOp) (callback : κ) (sys : System κ) :
    Prop where
  opened : sys.closed = false
  callback : (sys.ssl.pending op).callback = some callback
  ready : (sys.ssl.pending op).ready = true
  immediateCookie : sys.ssl.immediateCookie = none

theorem networkSslStart_recorded (callable : Callable op args sys)
    (failed : networkSslStart op args sys = .ok (false, after)) :
    Recorded op args.callback after := by
  have isPending : (sys.ssl.setPending op (recorded args)).pending op =
      recorded args := by
    rw [pending_setPending, if_pos rfl]
  rw [networkSslStart_eq callable] at failed
  cases isCookie : sys.ssl.immediateCookie with
  | some cookie =>
      rw [isCookie] at failed
      cases failed
  | none =>
      cases granted : args.immediate with
      | some cookie =>
          rw [isCookie, granted] at failed
          cases failed
      | none =>
          rw [isCookie, granted] at failed
          cases failed
          refine ⟨callable.opened, ?_, ?_, ?_⟩
          · dsimp only
            rw [isPending]
            rfl
          · dsimp only
            rw [isPending]
            rfl
          · cases op <;> exact isCookie

/-- The assertion of `network_ssl_read` or `network_ssl_write` fails. -/
theorem Recorded.start_aborts {callback : κ} (recorded : Recorded op callback sys)
    (valid : Valid args) :
    networkSslStart op args sys = .error (.assertion (.idle op)) := by
  have notIdle : ¬ (sys.ssl.pending op).callback.isNone = true := by
    rw [recorded.callback]
    exact Bool.noConfusion
  unfold networkSslStart
  rw [if_neg (not_not_intro valid.1), if_neg (not_not_intro valid.2),
    deref_opened recorded.opened]
  exact if_pos notIdle

theorem Recorded.not_startable {callback : κ}
    (recorded : Recorded op callback sys) : ¬ Startable op sys := by
  intro startable
  have valid : Valid (⟨callback, [], 1, 1, none⟩ : Arguments κ) :=
    ⟨Nat.one_ne_zero, one_le_SSIZE_MAX⟩
  exact startable sys Later.now recorded.opened _ valid _
    (recorded.start_aborts valid)

/-! ## The other operation is cancelled -/

/-- What `setupevents` does not change. -/
structure Kept (before after : System κ) : Prop where
  closed : after.closed = before.closed
  pending : ∀ x, after.ssl.pending x = before.ssl.pending x
  immediateCookie : after.ssl.immediateCookie = before.ssl.immediateCookie

theorem Kept.refl (sys : System κ) : Kept sys sys := ⟨rfl, fun _ => rfl, rfl⟩

theorem Kept.trans {first second third : System κ}
    (one : Kept first second) (two : Kept second third) :
    Kept first third where
  closed := two.closed.trans one.closed
  pending x := (two.pending x).trans (one.pending x)
  immediateCookie := two.immediateCookie.trans one.immediateCookie

theorem kept_setWaiting (sys : System κ) (op : NetworkOp) (waiting : Bool)
    (events : Registered) :
    Kept sys { sys with events, ssl := sys.ssl.setWaiting op waiting } := by
  cases op with
  | read => exact ⟨rfl, fun x => by cases x <;> rfl, rfl⟩
  | write => exact ⟨rfl, fun x => by cases x <;> rfl, rfl⟩

theorem cancelUnneeded_kept (op : NetworkOp) (sys : System κ) :
    Kept sys (cancelUnneeded op sys).2 := by
  unfold cancelUnneeded
  dsimp only
  split_ifs
  · exact ⟨rfl, fun _ => rfl, rfl⟩
  · exact kept_setWaiting sys op false _
  · exact Kept.refl sys

theorem registerNeeded_kept (granted : Bool) (op : NetworkOp)
    (sys : System κ) : Kept sys (registerNeeded granted op sys).2 := by
  unfold registerNeeded
  dsimp only
  split_ifs
  · exact ⟨rfl, fun _ => rfl, rfl⟩
  · exact kept_setWaiting sys op true _
  · exact Kept.refl sys

theorem setupevents_kept (grants : Grants) (opened : sys.closed = false) :
    ∃ status after, setupevents grants sys = .ok (status, after) ∧
      Kept sys after := by
  have one := cancelUnneeded_kept .read sys
  have two := one.trans (cancelUnneeded_kept .write _)
  have three := two.trans (registerNeeded_kept grants.readable .read _)
  have four := three.trans (registerNeeded_kept grants.writable .write _)
  unfold setupevents
  rw [deref_opened opened]
  dsimp only [bind, Except.bind]
  split_ifs
  · exact ⟨_, _, rfl, one⟩
  · exact ⟨_, _, rfl, two⟩
  · exact ⟨_, _, rfl, three⟩
  · exact ⟨_, _, rfl, four⟩
  · exact ⟨_, _, rfl, four⟩

theorem other_ne (op : NetworkOp) : op ≠ other op := by
  cases op <;> exact nofun

/-- The system when the other operation has been cancelled. -/
theorem networkSslCancel_other (opened : sys.closed = false)
    (grants : Grants) :
    ∃ after, networkSslCancel (other op) grants sys = .ok after ∧
      after.closed = false ∧
      after.ssl.pending op = sys.ssl.pending op ∧
      (after.ssl.pending (other op)).callback = none ∧
      after.ssl.immediateCookie = sys.ssl.immediateCookie := by
  obtain ⟨cancelled, isCancelled⟩ : ∃ cancelled : System κ, cancelled =
      { sys with ssl := sys.ssl.setPending (other op) (idled
        (sys.ssl.pending (other op))) } := ⟨_, rfl⟩
  have stillOpened : cancelled.closed = false := by
    rw [isCancelled]
    exact opened
  obtain ⟨status, after, result, kept⟩ :=
    setupevents_kept grants stillOpened
  have called : networkSslCancel (other op) grants sys =
      (setupevents grants cancelled >>= fun result => .ok result.2) := by
    unfold networkSslCancel
    rw [deref_opened opened, isCancelled]
    rfl
  rw [called, result]
  refine ⟨after, rfl, kept.closed.trans stillOpened, ?_, ?_, ?_⟩
  · rw [kept.pending, isCancelled]
    dsimp only
    rw [pending_setPending, if_neg (other_ne op)]
  · rw [kept.pending, isCancelled]
    dsimp only
    rw [pending_setPending, if_pos rfl]
    rfl
  · rw [kept.immediateCookie, isCancelled]
    cases op <;> rfl

/-! ## What can happen after a failure -/

/-- A call that cancels a read or a write. -/
def cancelRequest (op : NetworkOp) (grants : Grants) : Request κ :=
  match op with
  | .read => .readCancel grants
  | .write => .writeCancel grants

theorem perform_request (op : NetworkOp) (args : Arguments κ)
    (sys : System κ) :
    (request op args).perform sys =
      (networkSslStart op args sys >>= fun result =>
        .ok (.cookie result.1, result.2)) := by
  cases op <;> rfl

theorem perform_cancelRequest (op : NetworkOp) (grants : Grants)
    (sys : System κ) :
    (cancelRequest op grants).perform sys =
      (networkSslCancel op grants sys >>= fun after => .ok (.done, after)) := by
  cases op <;> rfl

theorem not_starts_cancelRequest (op x : NetworkOp) (grants : Grants) :
    ¬ Starts (κ := κ) op (.request (cancelRequest x grants)) := by
  rintro ⟨args, equal⟩
  cases op <;> cases x <;> cases equal

theorem not_starts_other (op : NetworkOp) (args : Arguments κ) :
    ¬ Starts op (.request (request (other op) args)) := by
  rintro ⟨args', equal⟩
  cases op <;> cases equal

/-- The other operation may be cancelled. -/
theorem later_cancelOther (grants : Grants)
    (result : networkSslCancel (other op) grants sys = .ok after)
    (opened : sys.closed = false) : Later op sys after := by
  have cancelled : (Action.request (cancelRequest (other op) grants)).progress
      sys = .ok (.done, after) := by
    show (cancelRequest (other op) grants).perform sys = _
    rw [perform_cancelRequest, result]
    rfl
  exact Later.step (.request (cancelRequest (other op) grants)) _ Later.now
    opened (not_starts_cancelRequest op (other op) grants) cancelled

/-- The context can not be closed. -/
theorem Recorded.not_closable {callback : κ}
    (recorded : Recorded op callback sys) : ¬ Closable op sys := by
  intro closes
  rcases networkSslCancel_other recorded.opened {} with
    ⟨after, result, opened, same, isIdle, _⟩
  have later := later_cancelOther {} result recorded.opened
  refine closes after later opened isIdle (.closeIdle op) ?_
  have notIdle : ¬ (after.ssl.pending op).callback.isNone = true := by
    rw [same, recorded.callback]
    exact Bool.noConfusion
  unfold networkSslClose
  rw [deref_opened opened]
  dsimp only [bind, Except.bind]
  cases op with
  | read => exact if_pos notIdle
  | write =>
      have readIdle : after.ssl.read.callback.isNone = true := by
        have none : after.ssl.read.callback = none := isIdle
        rw [none]
        rfl
      rw [if_neg (not_not_intro readIdle)]
      exact if_pos notIdle

/-- Both operations are recorded, and there is an immediate event. -/
structure Poked (op : NetworkOp) (callback : κ) (sys : System κ) : Prop where
  opened : sys.closed = false
  frame : sys.frame = .eventLoop
  event : 0 ∈ sys.events.immediates
  callback : (sys.ssl.pending op).callback = some callback
  ready : (sys.ssl.pending op).ready = true
  otherReady : (sys.ssl.pending (other op)).ready = true

/-- The immediate event can end with the callback. -/
theorem Poked.invokes {callback : κ} (poked : Poked op callback sys) :
    ∃ io next, (Action.immediate 0 io).progress sys =
      .ok (.invoked op callback (-1), next) := by
  have opened := poked.opened
  have isCallback := poked.callback
  have ready := poked.ready
  have otherReady := poked.otherReady
  cases op with
  | read =>
      refine ⟨{ read := { error := .ssl } }, ?_⟩
      have isPending : sys.ssl.read.callback = some callback := isCallback
      have isReady : sys.ssl.read.ready = true := ready
      simp [Action.progress, callbackImmediate, deref, opened, poke, isReady,
        doread, readSome, docallback, NetworkSslCtx.pending, isPending,
        Progress.andThen, Progress.settle, bind, Except.bind]
  | write =>
      refine ⟨{ read := { error := .wantRead }
                write := { error := .ssl } }, ?_⟩
      have isPending : sys.ssl.write.callback = some callback := isCallback
      have isReady : sys.ssl.write.ready = true := ready
      have readReady : sys.ssl.read.ready = true := otherReady
      simp [Action.progress, callbackImmediate, deref, opened, poke, isReady,
        readReady, doread, readSome, pokeAfterRead, pokeWrite, dowrite,
        writeSome, docallback, NetworkSslCtx.pending, isPending,
        Progress.andThen, Progress.settle, bind, Except.bind]

/-- The other operation may be started, and then both are poked. -/
theorem Recorded.later_poked {callback : κ}
    (recorded : Recorded op callback sys) :
    ∃ later, Later op sys later ∧ Poked op callback later := by
  rcases networkSslCancel_other recorded.opened {} with
    ⟨idle, cancelled, opened, same, isIdle, sameCookie⟩
  have laterIdle := later_cancelOther {} cancelled recorded.opened
  have noCookie : idle.ssl.immediateCookie = none :=
    sameCookie.trans recorded.immediateCookie
  have callable : Callable (other op) ⟨callback, [], 1, 1, some 0⟩ idle :=
    ⟨opened, ⟨Nat.one_ne_zero, one_le_SSIZE_MAX⟩, isIdle⟩
  have started := networkSslStart_eq callable
  rw [noCookie] at started
  dsimp only at started
  generalize isBoth : ({ idle with
    ssl := { idle.ssl.setPending (other op) _ with
      immediateCookie := some 0 }
    events := { idle.events with
      immediates := idle.events.immediates ++ [0] } } : System κ) = both
    at started
  have laterBoth : Later op sys both := by
    have performed : (Action.request (request (other op)
        ⟨callback, [], 1, 1, some 0⟩)).progress idle =
          .ok (.cookie true, both) := by
      show (request (other op) _).perform idle = _
      rw [perform_request, started]
      rfl
    exact Later.step (.request (request (other op) _)) _ laterIdle opened
      (not_starts_other op _) performed
  have isOpened : both.closed = false := by
    rw [← isBoth]
    exact opened
  have event : 0 ∈ both.events.immediates := by
    rw [← isBoth]
    exact List.mem_append_right _ (List.mem_singleton_self 0)
  have pendingOp : both.ssl.pending op = sys.ssl.pending op := by
    rw [← same, ← isBoth]
    cases op <;> rfl
  have pendingOther : (both.ssl.pending (other op)).ready = true := by
    rw [← isBoth]
    cases op <;> rfl
  have poked (frame : both.frame = .eventLoop) : Poked op callback both :=
    ⟨isOpened, frame, event, pendingOp ▸ recorded.callback,
      pendingOp ▸ recorded.ready, pendingOther⟩
  by_cases frame : both.frame = .eventLoop
  · exact ⟨both, laterBoth, poked frame⟩
  · -- A callback that is running can return -1.
    have returned : (Action.returns (-1) {}).progress both =
        .ok (.returned (-1), { both with frame := .eventLoop }) := by
      rw [progress_returns, resume_nonzero {} (by decide) frame]
      rfl
    have notStarts : ¬ Starts op (Action.returns (κ := κ) (-1) {}) := by
      rintro ⟨args, equal⟩
      cases equal
    exact ⟨_, Later.step (.returns (-1) {}) _ laterBoth frame notStarts
      returned,
      isOpened, rfl, event, pendingOp ▸ recorded.callback,
      pendingOp ▸ recorded.ready, pendingOther⟩

/-- The callback can be invoked. -/
theorem Recorded.not_uninvoked {callback : κ}
    (recorded : Recorded op callback sys) : ¬ Uninvoked op sys := by
  intro uninvoked
  rcases recorded.later_poked with ⟨later, isLater, poked⟩
  rcases poked.invokes with ⟨io, next, result⟩
  refine uninvoked later isLater (.immediate 0 io)
    ⟨poked.frame, poked.event⟩ ?_ callback (-1) next result
  rintro ⟨args, equal⟩
  cases op <;> cases equal

/-! ## The main result -/

/-- If `network_ssl_read` or `network_ssl_write` returns NULL, nothing of the
operation is left. -/
def FailsCleanly (op : NetworkOp) (args : Arguments κ) (sys : System κ) :
    Prop :=
  ∀ after, networkSslStart op args sys = .ok (false, after) →
    NothingPending op after

/-- A call fails cleanly exactly if it does not fail: an immediate event is
already pending, or one can be registered. -/
theorem network_ssl_start_clean_iff (callable : Callable op args sys) :
    FailsCleanly op args sys ↔
      sys.ssl.immediateCookie ≠ none ∨ args.immediate ≠ none := by
  constructor
  · intro clean
    by_contra neither
    rw [not_or, not_not, not_not] at neither
    have fails := networkSslStart_eq callable
    rw [neither.1, neither.2] at fails
    have recorded := networkSslStart_recorded callable fails
    exact recorded.not_startable (clean _ fails).startable
  · intro registered after fails
    rw [networkSslStart_eq callable] at fails
    cases isCookie : sys.ssl.immediateCookie with
    | some cookie =>
        rw [isCookie] at fails
        cases fails
    | none =>
        cases granted : args.immediate with
        | some cookie =>
            rw [isCookie, granted] at fails
            cases fails
        | none =>
            rcases registered with pending | given
            · exact absurd isCookie pending
            · exact absurd granted given

/-- After a failure, no part of the requirement holds. -/
theorem failed_start_pending (callable : Callable op args sys)
    (fails : networkSslStart op args sys = .ok (false, after)) :
    ¬ Uninvoked op after ∧ ¬ Startable op after ∧ ¬ Closable op after := by
  have recorded := networkSslStart_recorded callable fails
  exact ⟨recorded.not_uninvoked, recorded.not_startable,
    recorded.not_closable⟩

/-- A read of one byte. -/
def readOne (immediate : Option Nat) : Arguments Unit :=
  ⟨(), [0], 1, 1, immediate⟩

theorem readOne_callable (immediate : Option Nat) :
    Callable .read (readOne immediate) networkSslOpen :=
  ⟨rfl, ⟨Nat.one_ne_zero, one_le_SSIZE_MAX⟩, rfl⟩

theorem network_ssl_start_clean_iff_readOne :
    FailsCleanly .read (readOne (some 7)) networkSslOpen :=
  (network_ssl_start_clean_iff (readOne_callable (some 7))).mpr
    (Or.inr nofun)

/-- The first read of a connection, when there is no memory for the immediate
event. -/
theorem network_ssl_start_not_clean :
    ¬ FailsCleanly .read (readOne none) networkSslOpen ∧
      ∃ after, networkSslStart .read (readOne none) networkSslOpen =
          .ok (false, after) ∧
        ¬ Uninvoked .read after ∧ ¬ Startable .read after ∧
          ¬ Closable .read after := by
  have callable := readOne_callable none
  have fails := networkSslStart_eq callable
  have broken := failed_start_pending callable fails
  exact ⟨fun clean => broken.2.1 (clean _ fails).startable, _, fails, broken⟩

end Libcperciva.NetworkSsl.SslStart
