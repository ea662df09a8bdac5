import Libcperciva.NetworkSsl.SslOps

/-!
# No lost wake-up in the TLS transport

When the control is in the event loop, each pending operation is going to be
poked: by the immediate event, or by an event of the socket that is registered
because the operation needs it.

The steps considered here are those of a user that does not close the context,
whose callbacks return 0, and of a system on which registrations and the calls
of `signal` succeed.  The TLS library may answer anything.
-/

namespace Libcperciva.NetworkSsl.SslWakeup

open Libcperciva.Events.NetworkModel (NetworkOp)
open Libcperciva.Lib.Postcondition
open Libcperciva.NetworkSsl.SslModel
open Libcperciva.NetworkSsl.SslOps

variable {κ : Type*} {sys : System κ} {op : NetworkOp} {io : PokeIo}

/-! ## The steps -/

/-- The registrations of a call of `setupevents` succeed. -/
def Grants.All (grants : Grants) : Prop :=
  grants.readable = true ∧ grants.writable = true

/-- What `poke` calls succeeds, apart from the TLS library. -/
structure SmoothIo (io : PokeIo) : Prop where
  readIgnored : io.read.ignored = true
  readRestored : io.read.restored = true
  writeIgnored : io.write.ignored = true
  writeRestored : io.write.restored = true
  grants : Grants.All io.grants

/-- The steps considered here. -/
def Smooth : Action κ → Prop
  | .request (.read args) => args.immediate ≠ none
  | .request (.readCancel grants) => Grants.All grants
  | .request (.write args) => args.immediate ≠ none
  | .request (.writeCancel grants) => Grants.All grants
  | .request .close => False
  | .readable io => SmoothIo io
  | .writable io => SmoothIo io
  | .immediate _ io => SmoothIo io
  | .returns status io => status = 0 ∧ SmoothIo io

/-- Each action is permitted and smooth where it happens. -/
def SmoothRun (sys : System κ) : List (Action κ) → Prop
  | [] => True
  | action :: actions =>
      Permitted sys action ∧ Smooth action ∧ ∀ reply next,
        action.progress sys = .ok (reply, next) → SmoothRun next actions

/-- The assertions about what the user and the TLS library pass: the user
starts an operation with a buffer, and while there is none; the library
transfers no more than it was asked to. -/
inductive Foreign : Fault → Prop where
  | nonempty : Foreign (.assertion .nonempty)
  | fits : Foreign (.assertion .fits)
  | idle (op : NetworkOp) : Foreign (.assertion (.idle op))
  | position (op : NetworkOp) : Foreign (.assertion (.position op))

/-! ## The invariant -/

/-- The event an operation needs. -/
def needsOf (pending : Pending κ) : NetworkOp → Bool
  | .read => pending.needsR
  | .write => pending.needsW

/-- Only an operation that is pending needs events. -/
def Quiet (pending : Pending κ) : Prop :=
  pending.callback = none → ∀ x, needsOf pending x = false

/-- An operation that is pending is going to be poked, once the events it needs
are registered. -/
def Awake (immediateCookie : Option Nat) (pending : Pending κ) : Prop :=
  pending.callback ≠ none →
    immediateCookie ≠ none ∨ ∃ x, needsOf pending x = true

/-- What holds all the time. -/
structure Consistent (sys : System κ) : Prop where
  live : Live sys
  waiting : ∀ x, sys.ssl.waiting x = true → sys.ssl.needs x = true
  quiet : ∀ op, Quiet (sys.ssl.pending op)

/-- What holds between steps.  In the callback of a read, the write is still
to be poked; in a callback, events are still to be registered. -/
structure Invariant (sys : System κ) : Prop where
  consistent : Consistent sys
  read : Awake sys.ssl.immediateCookie sys.ssl.read
  write : sys.frame ≠ .callback .read →
    Awake sys.ssl.immediateCookie sys.ssl.write
  exact : sys.frame = .eventLoop →
    ∀ x, sys.ssl.waiting x = sys.ssl.needs x

theorem needs_eq (ssl : NetworkSslCtx κ) (x : NetworkOp) :
    ssl.needs x = (needsOf ssl.read x || needsOf ssl.write x) := by
  cases x with
  | read => rfl
  | write => rfl

theorem networkSslOpen_invariant : Invariant (networkSslOpen (κ := κ)) where
  consistent := {
    live := networkSslOpen_live
    waiting := by
      intro x waiting
      cases x with
      | read => cases waiting
      | write => cases waiting
    quiet := by
      intro op _ x
      cases op with
      | read => cases x <;> rfl
      | write => cases x <;> rfl }
  read noCallback := absurd rfl noCallback
  write _ noCallback := absurd rfl noCallback
  exact _ x := by
    cases x with
    | read => rfl
    | write => rfl

/-- An operation that was idle, or that needs no less, may be replaced. -/
theorem Consistent.setPending (consistent : Consistent sys) (op : NetworkOp)
    (pending : Pending κ) (quiet : Quiet pending)
    (noLess : ∀ x, needsOf (sys.ssl.pending op) x = true →
      needsOf pending x = true) :
    Consistent { sys with ssl := sys.ssl.setPending op pending } := by
  refine ⟨consistent.live.setPending op pending, ?_, ?_⟩
  · intro x waiting
    have same : sys.ssl.waiting x = true := by
      cases op with
      | read => cases x <;> exact waiting
      | write => cases x <;> exact waiting
    have needed := consistent.waiting x same
    dsimp only
    rw [needs_eq, Bool.or_eq_true] at needed ⊢
    cases op with
    | read => exact needed.imp_left (noLess x)
    | write => exact needed.imp_right (noLess x)
  · intro other
    have before := consistent.quiet other
    cases op with
    | read =>
        cases other with
        | read => exact quiet
        | write => exact before
    | write =>
        cases other with
        | read => exact before
        | write => exact quiet

/-! ## `setupevents` -/

/-- The pending operations stay as they are. -/
structure SameOperations (before after : System κ) : Prop where
  read : after.ssl.read = before.ssl.read
  write : after.ssl.write = before.ssl.write
  immediateCookie : after.ssl.immediateCookie = before.ssl.immediateCookie
  frame : after.frame = before.frame

theorem SameOperations.trans {first second third : System κ}
    (one : SameOperations first second) (two : SameOperations second third) :
    SameOperations first third where
  read := two.read.trans one.read
  write := two.write.trans one.write
  immediateCookie := two.immediateCookie.trans one.immediateCookie
  frame := two.frame.trans one.frame

theorem SameOperations.needs {before after : System κ}
    (same : SameOperations before after) (x : NetworkOp) :
    after.ssl.needs x = before.ssl.needs x := by
  rw [needs_eq, needs_eq, same.read, same.write]

theorem waiting_setWaiting (ssl : NetworkSslCtx κ) (op x : NetworkOp)
    (waiting : Bool) :
    (ssl.setWaiting op waiting).waiting x =
      if x = op then waiting else ssl.waiting x := by
  cases op <;> cases x <;> rfl

theorem sameOperations_setWaiting (sys : System κ) (op : NetworkOp)
    (waiting : Bool) (events : Registered) :
    SameOperations sys
      { sys with events, ssl := sys.ssl.setWaiting op waiting } := by
  cases op with
  | read => exact ⟨rfl, rfl, rfl, rfl⟩
  | write => exact ⟨rfl, rfl, rfl, rfl⟩

theorem cancelUnneeded_spec (live : Live sys) (op : NetworkOp) :
    ∃ after, cancelUnneeded op sys = (0, after) ∧ Live after ∧
      SameOperations sys after ∧
      ∀ x, after.ssl.waiting x =
        if x = op then sys.ssl.waiting op && sys.ssl.needs op
        else sys.ssl.waiting x := by
  have kept := cancelUnneeded_live op live
  unfold cancelUnneeded eventsNetworkCancel at kept ⊢
  by_cases unneeded : (sys.ssl.waiting op && !sys.ssl.needs op) = true
  · have registered : sys.events.network op = true := by
      rw [live.network]
      exact (Bool.and_eq_true_iff.mp unneeded).1
    have notNeeded : sys.ssl.needs op = false := by
      simpa using (Bool.and_eq_true_iff.mp unneeded).2
    rw [if_pos unneeded, if_pos registered] at kept ⊢
    refine ⟨_, rfl, kept, sameOperations_setWaiting sys op false _, ?_⟩
    intro x
    rw [notNeeded, Bool.and_false]
    exact waiting_setWaiting sys.ssl op x false
  · rw [if_neg unneeded] at kept ⊢
    refine ⟨sys, rfl, kept, ⟨rfl, rfl, rfl, rfl⟩, ?_⟩
    intro x
    split_ifs with same
    · rw [same]
      revert unneeded
      cases sys.ssl.waiting op <;> cases sys.ssl.needs op <;> simp
    · rfl

theorem registerNeeded_spec (live : Live sys) (op : NetworkOp) :
    ∃ after, registerNeeded true op sys = (0, after) ∧ Live after ∧
      SameOperations sys after ∧
      ∀ x, after.ssl.waiting x =
        if x = op then sys.ssl.waiting op || sys.ssl.needs op
        else sys.ssl.waiting x := by
  have kept := registerNeeded_live op true live
  unfold registerNeeded eventsNetworkRegister at kept ⊢
  by_cases needed : (!sys.ssl.waiting op && sys.ssl.needs op) = true
  · have registers : (true && !sys.events.network op) = true := by
      rw [live.network, Bool.true_and]
      exact (Bool.and_eq_true_iff.mp needed).1
    have isNeeded := (Bool.and_eq_true_iff.mp needed).2
    rw [if_pos needed, if_pos registers] at kept ⊢
    refine ⟨_, rfl, kept, sameOperations_setWaiting sys op true _, ?_⟩
    intro x
    rw [isNeeded, Bool.or_true]
    exact waiting_setWaiting sys.ssl op x true
  · rw [if_neg needed] at kept ⊢
    refine ⟨sys, rfl, kept, ⟨rfl, rfl, rfl, rfl⟩, ?_⟩
    intro x
    split_ifs with same
    · rw [same]
      revert needed
      cases sys.ssl.waiting op <;> cases sys.ssl.needs op <;> simp
    · rfl

/-- Afterwards the events that are needed are registered, and no others. -/
theorem setupevents_spec {grants : Grants} (live : Live sys)
    (all : Grants.All grants) :
    ∃ after, setupevents grants sys = .ok (0, after) ∧ Live after ∧
      SameOperations sys after ∧
      ∀ x, after.ssl.waiting x = after.ssl.needs x := by
  obtain ⟨one, cancelRead, liveOne, sameOne, waitingOne⟩ :=
    cancelUnneeded_spec live .read
  obtain ⟨two, cancelWrite, liveTwo, sameTwo, waitingTwo⟩ :=
    cancelUnneeded_spec liveOne .write
  obtain ⟨three, registerRead, liveThree, sameThree, waitingThree⟩ :=
    registerNeeded_spec liveTwo .read
  obtain ⟨four, registerWrite, liveFour, sameFour, waitingFour⟩ :=
    registerNeeded_spec liveThree .write
  refine ⟨four, ?_, liveFour,
    sameOne.trans (sameTwo.trans (sameThree.trans sameFour)), ?_⟩
  · unfold setupevents
    rw [deref_opened live.opened, cancelRead, all.1, all.2]
    dsimp only [bind, Except.bind]
    rw [if_neg (not_not_intro rfl), cancelWrite]
    dsimp only
    rw [if_neg (not_not_intro rfl), registerRead]
    dsimp only
    rw [if_neg (not_not_intro rfl), registerWrite]
    rfl
  · intro x
    simp only [waitingFour, waitingThree, waitingTwo, waitingOne,
      sameFour.needs, sameThree.needs, sameTwo.needs, sameOne.needs]
    cases x with
    | read =>
        simp only [reduceCtorEq, if_true, if_false]
        cases sys.ssl.waiting .read <;> cases sys.ssl.needs .read <;> rfl
    | write =>
        simp only [reduceCtorEq, if_true, if_false]
        cases sys.ssl.waiting .write <;> cases sys.ssl.needs .write <;> rfl

/-! ## `doread` and `dowrite` -/

/-- The operation was not changed, apart from its buffer. -/
structure SameNeeds (before after : Pending κ) : Prop where
  callback : after.callback = before.callback
  needs : ∀ x, needsOf after x = needsOf before x

theorem readSome_spec (transfers : List (List UInt8)) (pending : Pending κ) :
    Ensures Foreign (fun result => SameNeeds pending result.2)
      (readSome pending transfers) := by
  induction transfers generalizing pending with
  | nil => exact ⟨rfl, fun _ => rfl⟩
  | cons bytes transfers ih =>
      apply Ensures.ite
      · exact fun _ => .position .read
      · intro _
        apply Ensures.ite
        · exact fun _ => ⟨rfl, fun x => by cases x <;> rfl⟩
        · intro _
          apply (ih _).mono
          intro result same
          refine ⟨same.callback, fun x => (same.needs x).trans ?_⟩
          cases x <;> rfl

theorem writeSome_spec (transfers : List Nat) (pending : Pending κ) :
    Ensures Foreign (fun result => SameNeeds pending result.2)
      (writeSome pending transfers) := by
  induction transfers generalizing pending with
  | nil => exact ⟨rfl, fun _ => rfl⟩
  | cons len transfers ih =>
      apply Ensures.ite
      · exact fun _ => .position .write
      · intro _
        apply Ensures.ite
        · exact fun _ => ⟨rfl, fun x => by cases x <;> rfl⟩
        · intro _
          apply (ih _).mono
          intro result same
          refine ⟨same.callback, fun x => (same.needs x).trans ?_⟩
          cases x <;> rfl

/-- The operation is pending and needs nothing. -/
structure Ready (pending : Pending κ) : Prop where
  callback : pending.callback ≠ none
  needs : ∀ x, needsOf pending x = false

theorem ready_of_true {pending : Pending κ} (isReady : pending.ready = true) :
    Ready pending := by
  unfold Pending.ready at isReady
  rw [Bool.and_eq_true, Bool.and_eq_true, Bool.not_eq_true',
    Bool.not_eq_true'] at isReady
  rcases isReady with ⟨⟨isSome, noRead⟩, noWrite⟩
  refine ⟨Option.isSome_iff_ne_none.mp isSome, fun x => ?_⟩
  cases x with
  | read => exact noRead
  | write => exact noWrite

/-- An operation that `poke` leaves alone is awake. -/
theorem awake_of_not_ready {pending : Pending κ}
    (notReady : ¬ pending.ready = true) (immediateCookie : Option Nat) :
    Awake immediateCookie pending := by
  intro isPending
  apply Or.inr
  by_contra noneNeeded
  apply notReady
  have needs : ∀ x, needsOf pending x = false := fun x =>
    Bool.eq_false_of_not_eq_true fun needed => noneNeeded ⟨x, needed⟩
  have noRead : pending.needsR = false := needs .read
  have noWrite : pending.needsW = false := needs .write
  unfold Pending.ready
  rw [noRead, noWrite, Option.isSome_iff_ne_none.mpr isPending]
  rfl

theorem SameNeeds.ready {before after : Pending κ}
    (same : SameNeeds before after) (ready : Ready before) : Ready after where
  callback := by
    rw [same.callback]
    exact ready.callback
  needs x := (same.needs x).trans (ready.needs x)

/-- What holds when `doread` or `dowrite` returns or invokes the callback. -/
structure Attempted (op : NetworkOp) (before after : System κ) : Prop where
  consistent : Consistent after
  awake : Awake after.ssl.immediateCookie (after.ssl.pending op)
  other : ∀ x, x ≠ op → after.ssl.pending x = before.ssl.pending x
  immediateCookie : after.ssl.immediateCookie = before.ssl.immediateCookie

/-- `doread` and `dowrite` return 0, or invoke the callback of their
operation. -/
def Attempts (op : NetworkOp) (before : System κ) : Progress κ → Prop
  | .returned status after => status = 0 ∧ Attempted op before after
  | .invokes invoked _ _ after => invoked = op ∧ Attempted op before after

/-- Replace an operation that was ready. -/
theorem attempted_setPending (consistent : Consistent sys)
    (ready : Ready (sys.ssl.pending op)) (pending : Pending κ)
    (quiet : Quiet pending)
    (awake : Awake sys.ssl.immediateCookie pending) :
    Attempted op sys
      { sys with ssl := sys.ssl.setPending op pending } := by
  refine ⟨consistent.setPending op pending quiet ?_, ?_, ?_, ?_⟩
  · intro x needed
    rw [ready.needs x] at needed
    cases needed
  · cases op <;> exact awake
  · intro x other
    cases op <;> cases x <;> first | rfl | exact absurd rfl other
  · cases op <;> rfl

theorem docallback_attempts (consistent : Consistent sys)
    (ready : Ready (sys.ssl.pending op)) {pending : Pending κ}
    (readyAfter : Ready pending) (len : Int) :
    Ensures Foreign (Attempts op sys)
      (docallback op len
        { sys with ssl := sys.ssl.setPending op pending }) := by
  have stored : (sys.ssl.setPending op pending).pending op = pending := by
    cases op <;> rfl
  have replaced : (sys.ssl.setPending op pending).setPending op
      { pending with callback := none } =
        sys.ssl.setPending op { pending with callback := none } := by
    cases op <;> rfl
  unfold docallback
  dsimp only
  rw [stored, replaced]
  cases isPending : pending.callback with
  | none => exact absurd isPending readyAfter.callback
  | some callback =>
      refine ⟨rfl, attempted_setPending consistent ready _ ?_ ?_⟩
      · intro _ x
        have noneNeeded := readyAfter.needs x
        cases x <;> exact noneNeeded
      · intro noCallback
        exact absurd rfl noCallback

/-- The library wants the operation to wait for an event. -/
theorem wants_attempted (consistent : Consistent sys)
    (ready : Ready (sys.ssl.pending op)) {pending : Pending κ}
    (callback : pending.callback ≠ none) {x : NetworkOp}
    (needed : needsOf pending x = true) :
    Attempted op sys { sys with ssl := sys.ssl.setPending op pending } := by
  apply attempted_setPending consistent ready
  · exact fun noCallback => absurd noCallback callback
  · exact fun _ => Or.inr ⟨x, needed⟩

theorem doread_attempts {io : SslIo (List UInt8)}
    (consistent : Consistent sys) (ready : Ready sys.ssl.read)
    (ignored : io.ignored = true) (restored : io.restored = true) :
    Ensures Foreign (Attempts .read sys) (doread io sys) := by
  unfold doread
  rw [deref_opened consistent.live.opened, ignored, restored]
  apply (readSome_spec io.transfers sys.ssl.read).bind
  intro result same
  have readyAfter := same.ready ready
  have invokes := fun len =>
    @docallback_attempts _ _ .read consistent ready _ readyAfter len
  apply Ensures.ite
  · exact nofun
  intro _
  apply Ensures.ite
  · exact fun _ => invokes _
  · intro _
    cases io.error with
    | wantRead =>
        exact ⟨rfl, @wants_attempted _ _ .read consistent ready _
          readyAfter.callback .read rfl⟩
    | wantWrite =>
        exact ⟨rfl, @wants_attempted _ _ .read consistent ready _
          readyAfter.callback .write rfl⟩
    | syscall errno => exact invokes _
    | zeroReturn => exact invokes _
    | ssl => exact invokes _
    | other sslerr => exact invokes _

theorem dowrite_attempts {io : SslIo Nat}
    (consistent : Consistent sys) (ready : Ready sys.ssl.write)
    (ignored : io.ignored = true) (restored : io.restored = true) :
    Ensures Foreign (Attempts .write sys) (dowrite io sys) := by
  unfold dowrite
  rw [deref_opened consistent.live.opened, ignored, restored]
  apply (writeSome_spec io.transfers sys.ssl.write).bind
  intro result same
  have readyAfter := same.ready ready
  have invokes := fun len =>
    @docallback_attempts _ _ .write consistent ready _ readyAfter len
  apply Ensures.ite
  · exact nofun
  intro _
  apply Ensures.ite
  · exact fun _ => invokes _
  · intro _
    cases io.error with
    | wantRead =>
        exact ⟨rfl, @wants_attempted _ _ .write consistent ready _
          readyAfter.callback .read rfl⟩
    | wantWrite =>
        exact ⟨rfl, @wants_attempted _ _ .write consistent ready _
          readyAfter.callback .write rfl⟩
    | syscall errno => exact invokes _
    | zeroReturn => exact invokes _
    | ssl => exact invokes _
    | other sslerr => exact invokes _

/-! ## `poke` -/

/-- What holds when `poke` returns or invokes a callback. -/
def Poked : Progress κ → Prop
  | .returned status after =>
      status = 0 ∧ Invariant { after with frame := .eventLoop }
  | .invokes op _ _ after =>
      Invariant { after with frame := .callback op }

theorem pokeEvents_poked (consistent : Consistent sys)
    (read : Awake sys.ssl.immediateCookie sys.ssl.read)
    (write : Awake sys.ssl.immediateCookie sys.ssl.write)
    (smooth : SmoothIo io) :
    Ensures Foreign Poked (pokeEvents io sys) := by
  rcases setupevents_spec consistent.live smooth.grants with
    ⟨after, result, live, same, exact⟩
  unfold pokeEvents
  rw [result]
  refine ⟨rfl, ⟨⟨live.opened, live.readable, live.writable,
    live.immediates⟩, ?_, ?_⟩, ?_, ?_, fun _ => exact⟩
  · intro x waiting
    rw [← exact]
    exact waiting
  · intro op
    have quiet := consistent.quiet op
    cases op with
    | read =>
        show Quiet after.ssl.read
        rw [same.read]
        exact quiet
    | write =>
        show Quiet after.ssl.write
        rw [same.write]
        exact quiet
  · show Awake after.ssl.immediateCookie after.ssl.read
    rw [same.read, same.immediateCookie]
    exact read
  · intro _
    show Awake after.ssl.immediateCookie after.ssl.write
    rw [same.write, same.immediateCookie]
    exact write

theorem pokeWrite_poked (consistent : Consistent sys)
    (read : Awake sys.ssl.immediateCookie sys.ssl.read)
    (smooth : SmoothIo io) :
    Ensures Foreign Poked (pokeWrite io sys) := by
  unfold pokeWrite
  rw [deref_opened consistent.live.opened]
  apply Ensures.ite
  · intro isReady
    apply (dowrite_attempts consistent (ready_of_true isReady)
      smooth.writeIgnored smooth.writeRestored).bind
    intro progress attempts
    cases progress with
    | returned status after =>
        rcases attempts with ⟨rfl, attempted⟩
        have sameRead : after.ssl.read = sys.ssl.read :=
          attempted.other .read nofun
        apply pokeEvents_poked attempted.consistent _ attempted.awake smooth
        rw [sameRead, attempted.immediateCookie]
        exact read
    | invokes op callback len after =>
        rcases attempts with ⟨rfl, attempted⟩
        have sameRead : after.ssl.read = sys.ssl.read :=
          attempted.other .read nofun
        have live := attempted.consistent.live
        refine ⟨⟨⟨live.opened, live.readable, live.writable,
          live.immediates⟩, attempted.consistent.waiting,
          attempted.consistent.quiet⟩, ?_, fun _ => attempted.awake, nofun⟩
        show Awake after.ssl.immediateCookie after.ssl.read
        rw [sameRead, attempted.immediateCookie]
        exact read
  · intro notReady
    exact pokeEvents_poked consistent read
      (awake_of_not_ready notReady _) smooth

theorem poke_poked (consistent : Consistent sys) (smooth : SmoothIo io) :
    Ensures Foreign Poked (poke io sys) := by
  unfold poke
  rw [deref_opened consistent.live.opened]
  apply Ensures.ite
  · intro isReady
    apply (doread_attempts consistent (ready_of_true isReady)
      smooth.readIgnored smooth.readRestored).bind
    intro progress attempts
    cases progress with
    | returned status after =>
        rcases attempts with ⟨rfl, attempted⟩
        exact pokeWrite_poked attempted.consistent attempted.awake smooth
    | invokes op callback len after =>
        rcases attempts with ⟨rfl, attempted⟩
        have live := attempted.consistent.live
        exact ⟨⟨⟨live.opened, live.readable, live.writable,
          live.immediates⟩, attempted.consistent.waiting,
          attempted.consistent.quiet⟩, attempted.awake,
          fun other => absurd rfl other, nofun⟩
  · intro notReady
    exact pokeWrite_poked consistent (awake_of_not_ready notReady _) smooth

/-! ## Requests -/

theorem needsOf_recorded (args : Arguments κ) (x : NetworkOp) :
    needsOf (recorded args) x = false := by
  cases x <;> rfl

/-- A new operation needs nothing. -/
theorem needs_recorded (consistent : Consistent sys)
    (idle : (sys.ssl.pending op).callback = none) (args : Arguments κ)
    (x : NetworkOp) :
    (sys.ssl.setPending op (recorded args)).needs x = sys.ssl.needs x := by
  have nothing := consistent.quiet op idle x
  rw [needs_eq, needs_eq]
  cases op with
  | read =>
      show (needsOf (recorded args) x || needsOf sys.ssl.write x) = _
      rw [needsOf_recorded args x, ← nothing]
      rfl
  | write =>
      show (needsOf sys.ssl.read x || needsOf (recorded args) x) = _
      rw [needsOf_recorded args x, ← nothing]
      rfl

/-- A new operation is going to be poked by the immediate event. -/
theorem recorded_invariant (invariant : Invariant sys)
    (idle : (sys.ssl.pending op).callback = none) (args : Arguments κ)
    {immediateCookie : Option Nat} {events : Registered}
    (scheduled : immediateCookie ≠ none)
    (live : Live { sys with
      events
      ssl := { sys.ssl.setPending op (recorded args) with
        immediateCookie } }) :
    Invariant { sys with
      events
      ssl := { sys.ssl.setPending op (recorded args) with
        immediateCookie } } := by
  have consistent := invariant.consistent
  have stored := consistent.setPending op (recorded args) nofun (by
    intro x needed
    rw [consistent.quiet op idle x] at needed
    cases needed)
  refine ⟨⟨live, ?_, ?_⟩, fun _ => Or.inl scheduled,
    fun _ _ => Or.inl scheduled, ?_⟩
  · intro x waiting
    apply (stored.waiting x _)
    cases x <;> exact waiting
  · intro other
    have quiet := stored.quiet other
    cases other <;> exact quiet
  · intro frame x
    have waits : (sys.ssl.setPending op (recorded args)).waiting x =
        sys.ssl.waiting x := by
      cases op <;> cases x <;> rfl
    have same := (waits.trans (invariant.exact frame x)).trans
      (needs_recorded consistent idle args x).symm
    cases x <;> exact same

theorem networkSslStart_invariant {args : Arguments κ}
    (invariant : Invariant sys) (immediate : args.immediate ≠ none) :
    Ensures Foreign (fun result => Invariant result.2)
      (networkSslStart op args sys) := by
  have live := invariant.consistent.live
  unfold networkSslStart
  apply Ensures.ite
  · exact fun _ => .nonempty
  intro _
  apply Ensures.ite
  · exact fun _ => .fits
  intro _
  rw [deref_opened live.opened]
  apply Ensures.ite
  · exact fun _ => .idle op
  intro isIdle
  have idle := Option.isNone_iff_eq_none.mp (not_not.mp isIdle)
  have stored := live.setPending op (recorded args)
  split
  · next _ cookie scheduled =>
      have isScheduled : (sys.ssl.setPending op
          (recorded args)).immediateCookie = some cookie := scheduled
      have notNone : (sys.ssl.setPending op
          (recorded args)).immediateCookie ≠ none := by
        rw [isScheduled]
        exact Option.some_ne_none cookie
      exact recorded_invariant invariant idle args notNone stored
  · next noCookie => exact absurd noCookie immediate
  · next cookie absent _ =>
      have isAbsent : (sys.ssl.setPending op
          (recorded args)).immediateCookie = none := absent
      refine recorded_invariant invariant idle args
        (Option.some_ne_none cookie)
        ⟨stored.opened, stored.readable, stored.writable, ?_⟩
      have none := stored.immediates
      dsimp only at none ⊢
      rw [none, isAbsent]
      rfl

theorem networkSslCancel_invariant {grants : Grants}
    (invariant : Invariant sys) (all : Grants.All grants) :
    Ensures Foreign Invariant (networkSslCancel op grants sys) := by
  have consistent := invariant.consistent
  have stored := consistent.live.setPending op
    (idled (sys.ssl.pending op))
  rcases setupevents_spec stored all with
    ⟨after, result, live, same, exact⟩
  have sameCookie : after.ssl.immediateCookie = sys.ssl.immediateCookie := by
    rw [same.immediateCookie]
    cases op <;> rfl
  have nothing : ∀ x, needsOf (idled (sys.ssl.pending op)) x = false := by
    intro x
    cases x <;> rfl
  unfold networkSslCancel
  rw [deref_opened consistent.live.opened]
  show Ensures Foreign Invariant
    (setupevents grants { sys with
      ssl := sys.ssl.setPending op (idled (sys.ssl.pending op)) } >>= _)
  rw [result]
  refine ⟨⟨live, fun x waiting => exact x ▸ waiting, ?_⟩, ?_, ?_,
    fun _ => exact⟩
  · intro other
    have quiet := consistent.quiet other
    cases other with
    | read =>
        show Quiet after.ssl.read
        rw [same.read]
        cases op with
        | read => exact fun _ => nothing
        | write => exact quiet
    | write =>
        show Quiet after.ssl.write
        rw [same.write]
        cases op with
        | read => exact quiet
        | write => exact fun _ => nothing
  · show Awake after.ssl.immediateCookie after.ssl.read
    rw [sameCookie, same.read]
    cases op with
    | read => exact fun noCallback => absurd rfl noCallback
    | write => exact invariant.read
  · intro called
    show Awake after.ssl.immediateCookie after.ssl.write
    rw [sameCookie, same.write]
    cases op with
    | read => exact invariant.write (same.frame ▸ called)
    | write => exact fun noCallback => absurd rfl noCallback

/-! ## One step -/

theorem settle_invariant {result : Except Fault (Progress κ)}
    (poked : Ensures Foreign Poked result) :
    Ensures Foreign (fun result => Invariant result.2)
      (do .ok (← result).settle) := by
  apply poked.bind
  intro progress kept
  cases progress with
  | returned status sys => exact kept.2
  | invokes op callback len sys => exact kept

theorem perform_invariant (invariant : Invariant sys) (call : Request κ)
    (smooth : Smooth (.request call)) :
    Ensures Foreign (fun result => Invariant result.2) (call.perform sys) := by
  cases call with
  | read args =>
      exact (networkSslStart_invariant invariant smooth).bind
        fun _ kept => kept
  | readCancel grants =>
      exact (networkSslCancel_invariant invariant smooth).bind
        fun _ kept => kept
  | write args =>
      exact (networkSslStart_invariant invariant smooth).bind
        fun _ kept => kept
  | writeCancel grants =>
      exact (networkSslCancel_invariant invariant smooth).bind
        fun _ kept => kept
  | close => exact absurd smooth not_false

/-- `poke` goes on where the callback was invoked. -/
theorem resume_poked (invariant : Invariant sys) (smooth : SmoothIo io)
    (called : sys.frame ≠ .eventLoop) :
    Ensures Foreign Poked (resume io 0 sys) := by
  unfold resume
  split
  · next frame => exact absurd frame called
  · exact pokeWrite_poked invariant.consistent invariant.read smooth
  · next frame =>
      have write := invariant.write (by rw [frame]; exact nofun)
      exact pokeEvents_poked invariant.consistent invariant.read write smooth

theorem callbackRead_poked (consistent : Consistent sys)
    (smooth : SmoothIo io) :
    Ensures Foreign Poked
      (callbackRead io
        { sys with events := sys.events.setNetwork .read false }) := by
  have live := consistent.live
  have opened : deref { sys with
      events := sys.events.setNetwork .read false } = .ok sys.ssl :=
    deref_opened live.opened
  unfold callbackRead
  rw [opened]
  apply poke_poked _ smooth
  refine ⟨⟨live.opened, rfl, live.writable, live.immediates⟩, ?_, ?_⟩
  · intro x waiting
    cases x with
    | read => cases waiting
    | write => exact consistent.waiting .write waiting
  · intro op noCallback x
    have quiet := consistent.quiet op
    cases op with
    | read =>
        cases x with
        | read => rfl
        | write => exact quiet noCallback .write
    | write =>
        cases x with
        | read => rfl
        | write => exact quiet noCallback .write

theorem callbackWrite_poked (consistent : Consistent sys)
    (smooth : SmoothIo io) :
    Ensures Foreign Poked
      (callbackWrite io
        { sys with events := sys.events.setNetwork .write false }) := by
  have live := consistent.live
  have opened : deref { sys with
      events := sys.events.setNetwork .write false } = .ok sys.ssl :=
    deref_opened live.opened
  unfold callbackWrite
  rw [opened]
  apply poke_poked _ smooth
  refine ⟨⟨live.opened, live.readable, rfl, live.immediates⟩, ?_, ?_⟩
  · intro x waiting
    cases x with
    | read => exact consistent.waiting .read waiting
    | write => cases waiting
  · intro op noCallback x
    have quiet := consistent.quiet op
    cases op with
    | read =>
        cases x with
        | read => exact quiet noCallback .read
        | write => rfl
    | write =>
        cases x with
        | read => exact quiet noCallback .read
        | write => rfl

theorem callbackImmediate_poked (consistent : Consistent sys)
    (smooth : SmoothIo io) {cookie : Nat}
    (there : cookie ∈ sys.events.immediates) :
    Ensures Foreign Poked
      (callbackImmediate io
        { sys with events := { sys.events with
            immediates := sys.events.immediates.erase cookie } }) := by
  have live := consistent.live
  have opened : deref { sys with events := { sys.events with
      immediates := sys.events.immediates.erase cookie } } = .ok sys.ssl :=
    deref_opened live.opened
  unfold callbackImmediate
  rw [opened]
  apply poke_poked _ smooth
  exact ⟨⟨live.opened, live.readable, live.writable,
    live.erase_immediate there⟩, consistent.waiting, consistent.quiet⟩

theorem progress_invariant {action : Action κ} (invariant : Invariant sys)
    (permitted : Permitted sys action) (smooth : Smooth action) :
    Ensures Foreign (fun result => Invariant result.2)
      (action.progress sys) := by
  have consistent := invariant.consistent
  cases action with
  | request call => exact perform_invariant invariant call smooth
  | readable io =>
      exact settle_invariant (callbackRead_poked consistent smooth)
  | writable io =>
      exact settle_invariant (callbackWrite_poked consistent smooth)
  | immediate cookie io =>
      exact settle_invariant
        (callbackImmediate_poked consistent smooth permitted.2)
  | returns status io =>
      rcases smooth with ⟨rfl, smooth⟩
      exact settle_invariant (resume_poked invariant smooth permitted)

/-! ## Every run -/

theorem run_invariant {actions : List (Action κ)} (invariant : Invariant sys)
    (smooth : SmoothRun sys actions) :
    Ensures Foreign Invariant (run sys actions) := by
  induction actions generalizing sys with
  | nil => exact invariant
  | cons action actions ih =>
      rcases smooth with ⟨permitted, smooth, rest⟩
      have kept := progress_invariant invariant permitted smooth
      show Ensures Foreign Invariant
        (action.progress sys >>= fun after => run after.2 actions)
      cases result : action.progress sys with
      | ok after => exact ih (kept.of_ok result) (rest after.1 after.2 result)
      | error fault => exact kept.of_error result

/-- What the context and the event loop look like when the control is in the
event loop. -/
structure Woken (sys : System κ) : Prop where
  /-- The event is registered if and only if the context waits for it. -/
  readable : sys.events.readable = sys.ssl.waitingR
  writable : sys.events.writable = sys.ssl.waitingW
  /-- The context waits for what an operation needs. -/
  waiting : ∀ x, sys.ssl.waiting x = sys.ssl.needs x
  /-- Only a pending operation needs something. -/
  quiet : ∀ op, Quiet (sys.ssl.pending op)
  /-- The immediate event is scheduled if the context knows it. -/
  immediates : sys.events.immediates = sys.ssl.immediateCookie.toList
  /-- Each pending operation is going to be poked. -/
  awake : ∀ op, (sys.ssl.pending op).callback ≠ none →
    sys.ssl.immediateCookie ≠ none ∨
      ∃ x, needsOf (sys.ssl.pending op) x = true ∧
        sys.events.network x = true

theorem needs_of_pending (ssl : NetworkSslCtx κ) {op x : NetworkOp}
    (needed : needsOf (ssl.pending op) x = true) : ssl.needs x = true := by
  rw [needs_eq, Bool.or_eq_true]
  cases op with
  | read => exact Or.inl needed
  | write => exact Or.inr needed

theorem Invariant.woken (invariant : Invariant sys)
    (frame : sys.frame = .eventLoop) : Woken sys where
  readable := invariant.consistent.live.readable
  writable := invariant.consistent.live.writable
  waiting := invariant.exact frame
  quiet := invariant.consistent.quiet
  immediates := invariant.consistent.live.immediates
  awake op isPending := by
    have awake : Awake sys.ssl.immediateCookie (sys.ssl.pending op) := by
      cases op with
      | read => exact invariant.read
      | write => exact invariant.write (by rw [frame]; exact nofun)
    rcases awake isPending with scheduled | ⟨x, needed⟩
    · exact Or.inl scheduled
    · refine Or.inr ⟨x, needed, ?_⟩
      rw [invariant.consistent.live.network, invariant.exact frame]
      exact needs_of_pending sys.ssl needed

/-- No assertion of `network_ssl_close` fails if no operation is pending. -/
theorem Consistent.close (consistent : Consistent sys)
    (idle : ∀ op, (sys.ssl.pending op).callback = none) :
    ∃ closed, networkSslClose sys = .ok closed := by
  have notWaiting : ∀ x, ¬ sys.ssl.waiting x = true := by
    intro x waiting
    have needed := consistent.waiting x waiting
    have noRead : needsOf sys.ssl.read x = false :=
      consistent.quiet .read (idle .read) x
    have noWrite : needsOf sys.ssl.write x = false :=
      consistent.quiet .write (idle .write) x
    rw [needs_eq, noRead, noWrite] at needed
    cases needed
  have noRead : sys.ssl.read.callback = none := idle .read
  have noWrite : sys.ssl.write.callback = none := idle .write
  unfold networkSslClose
  rw [deref_opened consistent.live.opened]
  dsimp only [bind, Except.bind]
  have noReadable : ¬ sys.ssl.waitingR = true := notWaiting .read
  have noWritable : ¬ sys.ssl.waitingW = true := notWaiting .write
  rw [if_neg (by simp [noRead]), if_neg (by simp [noWrite]),
    if_neg noReadable, if_neg noWritable]
  exact ⟨_, rfl⟩

/--
In every run of the steps considered here, no wake-up is lost: whenever the
control is in the event loop, each pending operation waits for an event that
is registered.  The context can be closed whenever no operation is pending.
Only assertions about what the user and the TLS library pass may fail.
-/
theorem network_ssl_no_lost_wakeup (actions : List (Action κ))
    (smooth : SmoothRun networkSslOpen actions) :
    Ensures Foreign
      (fun sys => (sys.frame = .eventLoop → Woken sys) ∧
        ((∀ op, (sys.ssl.pending op).callback = none) →
          ∃ closed, networkSslClose sys = .ok closed))
      (run networkSslOpen actions) := by
  apply (run_invariant networkSslOpen_invariant smooth).mono
  intro sys invariant
  exact ⟨invariant.woken, invariant.consistent.close⟩

/-- A read waits for writability; then the socket is writable, and the read
is done. -/
def wantingRun : List (Action Unit) :=
  [ .request (.read ⟨(), [0], 1, 1, some 7⟩),
    .immediate 7 { read := { error := .wantWrite } },
    .writable { read := { transfers := [[65]] } },
    .returns 0 {} ]

theorem network_ssl_no_lost_wakeup_wanting :
    Ensures Foreign
      (fun sys => (sys.frame = .eventLoop → Woken sys) ∧
        ((∀ op, (sys.ssl.pending op).callback = none) →
          ∃ closed, networkSslClose sys = .ok closed))
      (run networkSslOpen wantingRun) := by
  apply network_ssl_no_lost_wakeup
  refine ⟨rfl, Option.some_ne_none 7, ?_⟩
  rintro _ _ ⟨⟩
  refine ⟨⟨rfl, List.mem_singleton_self 7⟩,
    ⟨rfl, rfl, rfl, rfl, rfl, rfl⟩, ?_⟩
  rintro _ _ ⟨⟩
  refine ⟨⟨rfl, rfl⟩, ⟨rfl, rfl, rfl, rfl, rfl, rfl⟩, ?_⟩
  rintro _ _ ⟨⟩
  refine ⟨nofun, ⟨rfl, ⟨rfl, rfl, rfl, rfl, rfl, rfl⟩⟩, ?_⟩
  rintro _ _ _
  trivial

end Libcperciva.NetworkSsl.SslWakeup
