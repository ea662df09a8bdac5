import Libcperciva.Lib.Postcondition
import Libcperciva.NetworkSsl.SslModel

/-!
# What the functions of the TLS transport keep

As long as the context is open, the events that are registered for it are the
ones it knows of.  The functions of `network_ssl.c` keep this and, since none
of them closes the context before it uses it, they do not use it after it was
closed.
-/

namespace Libcperciva.NetworkSsl.SslOps

open Libcperciva.Events.NetworkModel (NetworkOp)
open Libcperciva.Lib.Postcondition
open Libcperciva.NetworkSsl.SslModel

variable {κ : Type*} {sys : System κ} {op : NetworkOp} {io : PokeIo}

/-- The context is open and knows the events that are registered for it. -/
structure Live (sys : System κ) : Prop where
  opened : sys.closed = false
  readable : sys.events.readable = sys.ssl.waitingR
  writable : sys.events.writable = sys.ssl.waitingW
  immediates : sys.events.immediates = sys.ssl.immediateCookie.toList

/-- A fault other than the use of a context that was closed. -/
def Harmless (fault : Fault) : Prop := fault ≠ .useAfterClose

theorem harmless_assertion (failed : SslAssert) :
    Harmless (.assertion failed) := by
  intro equal
  cases equal

theorem harmless_nullCallback : Harmless .nullCallback := by
  intro equal
  cases equal

theorem networkSslOpen_live : Live (networkSslOpen (κ := κ)) where
  opened := rfl
  readable := rfl
  writable := rfl
  immediates := rfl

theorem deref_opened (opened : sys.closed = false) :
    deref sys = .ok sys.ssl := by
  unfold deref
  rw [opened]
  rfl

theorem deref_closed (closed : sys.closed = true) :
    deref sys = .error .useAfterClose := by
  unfold deref
  rw [closed]
  rfl

/-! ## Changes of the context -/

/-- The fields of the pending operations say nothing about events. -/
theorem Live.setPending (live : Live sys) (op : NetworkOp)
    (pending : Pending κ) :
    Live { sys with ssl := sys.ssl.setPending op pending } := by
  cases op with
  | read =>
      exact ⟨live.opened, live.readable, live.writable, live.immediates⟩
  | write =>
      exact ⟨live.opened, live.readable, live.writable, live.immediates⟩

theorem Live.network (live : Live sys) (op : NetworkOp) :
    sys.events.network op = sys.ssl.waiting op := by
  cases op with
  | read => exact live.readable
  | write => exact live.writable

/-- An event and the field that stands for it change together. -/
theorem Live.setWaiting (live : Live sys) (op : NetworkOp)
    (waiting : Bool) :
    Live { sys with
      events := sys.events.setNetwork op waiting
      ssl := sys.ssl.setWaiting op waiting } := by
  cases op with
  | read => exact ⟨live.opened, rfl, live.writable, live.immediates⟩
  | write => exact ⟨live.opened, live.readable, rfl, live.immediates⟩

/-- The frame is not a matter of the context. -/
theorem Live.setFrame (live : Live sys) (frame : Frame) :
    Live { sys with frame } :=
  ⟨live.opened, live.readable, live.writable, live.immediates⟩

/-! ## `setupevents` -/

theorem cancelUnneeded_live (op : NetworkOp) (live : Live sys) :
    Live (cancelUnneeded op sys).2 := by
  unfold cancelUnneeded eventsNetworkCancel
  split
  · by_cases registered : sys.events.network op = true
    · rw [if_pos registered]
      exact live.setWaiting op false
    · rw [if_neg registered]
      exact live
  · exact live

theorem registerNeeded_live (op : NetworkOp) (granted : Bool)
    (live : Live sys) :
    Live (registerNeeded granted op sys).2 := by
  unfold registerNeeded eventsNetworkRegister
  split
  · by_cases registers : (granted && !sys.events.network op) = true
    · rw [if_pos registers]
      exact live.setWaiting op true
    · rw [if_neg registers]
      exact live
  · exact live

theorem setupevents_live {grants : Grants} (live : Live sys) :
    Ensures Harmless (fun result => Live result.2)
      (setupevents grants sys) := by
  have readGone : Live (cancelUnneeded .read sys).2 :=
    cancelUnneeded_live .read live
  have writeGone := cancelUnneeded_live .write readGone
  have readThere := registerNeeded_live .read grants.readable writeGone
  have writeThere := registerNeeded_live .write grants.writable readThere
  unfold setupevents
  rw [deref_opened live.opened]
  refine Ensures.ite (fun _ => readGone) fun _ => ?_
  refine Ensures.ite (fun _ => writeGone) fun _ => ?_
  refine Ensures.ite (fun _ => readThere) fun _ => ?_
  exact Ensures.ite (fun _ => writeThere) fun _ => writeThere

/-! ## `doread` and `dowrite` -/

theorem docallback_live {len : Int} (live : Live sys) :
    Ensures Harmless (fun progress => Live progress.sys)
      (docallback op len sys) := by
  unfold docallback
  dsimp only
  split
  · exact harmless_nullCallback
  · exact live.setPending op _

theorem readSome_harmless (transfers : List (List UInt8))
    (pending : Pending κ) :
    Ensures Harmless (fun _ => True) (readSome pending transfers) := by
  induction transfers generalizing pending with
  | nil => exact trivial
  | cons bytes transfers ih =>
      refine Ensures.ite (fun _ => harmless_assertion _) fun _ => ?_
      exact Ensures.ite (fun _ => trivial) fun _ => ih _

theorem writeSome_harmless (transfers : List Nat) (pending : Pending κ) :
    Ensures Harmless (fun _ => True) (writeSome pending transfers) := by
  induction transfers generalizing pending with
  | nil => exact trivial
  | cons len transfers ih =>
      refine Ensures.ite (fun _ => harmless_assertion _) fun _ => ?_
      exact Ensures.ite (fun _ => trivial) fun _ => ih _

theorem doread_live {io : SslIo (List UInt8)} (live : Live sys) :
    Ensures Harmless (fun progress => Live progress.sys)
      (doread io sys) := by
  unfold doread
  rw [deref_opened live.opened]
  refine Ensures.ite (fun _ => live) fun _ => ?_
  refine (readSome_harmless io.transfers sys.ssl.read).bind ?_
  intro result _
  have stored := live.setPending .read result.2
  refine Ensures.ite (fun _ => stored) fun _ => ?_
  refine Ensures.ite (fun _ => docallback_live stored) fun _ => ?_
  cases io.error with
  | wantRead => exact live.setPending .read _
  | wantWrite => exact live.setPending .read _
  | syscall errno => exact docallback_live stored
  | zeroReturn => exact docallback_live stored
  | ssl => exact docallback_live stored
  | other sslerr => exact docallback_live stored

theorem dowrite_live {io : SslIo Nat} (live : Live sys) :
    Ensures Harmless (fun progress => Live progress.sys)
      (dowrite io sys) := by
  unfold dowrite
  rw [deref_opened live.opened]
  refine Ensures.ite (fun _ => live) fun _ => ?_
  refine (writeSome_harmless io.transfers sys.ssl.write).bind ?_
  intro result _
  have stored := live.setPending .write result.2
  refine Ensures.ite (fun _ => stored) fun _ => ?_
  refine Ensures.ite (fun _ => docallback_live stored) fun _ => ?_
  cases io.error with
  | wantRead => exact live.setPending .write _
  | wantWrite => exact live.setPending .write _
  | syscall errno => exact docallback_live stored
  | zeroReturn => exact docallback_live stored
  | ssl => exact docallback_live stored
  | other sslerr => exact docallback_live stored

/-! ## `poke` and the event callbacks -/

/-- What holds when a function returns and when it invokes a callback. -/
theorem andThen_live {progress : Progress κ}
    {next : Int → System κ → Except Fault (Progress κ)}
    (live : Live progress.sys)
    (keeps : ∀ status sys, Live sys →
      Ensures Harmless (fun progress => Live progress.sys)
        (next status sys)) :
    Ensures Harmless (fun progress => Live progress.sys)
      (progress.andThen next) := by
  cases progress with
  | returned status sys => exact keeps status sys live
  | invokes op callback len sys => exact live

theorem pokeEvents_live (live : Live sys) :
    Ensures Harmless (fun progress => Live progress.sys)
      (pokeEvents io sys) := by
  refine (setupevents_live live).bind ?_
  intro result kept
  exact kept

theorem pokeAfterWrite_live (status : Int) (live : Live sys) :
    Ensures Harmless (fun progress => Live progress.sys)
      (pokeAfterWrite io status sys) :=
  Ensures.ite (fun _ => live) fun _ => pokeEvents_live live

theorem pokeWrite_live (live : Live sys) :
    Ensures Harmless (fun progress => Live progress.sys)
      (pokeWrite io sys) := by
  unfold pokeWrite
  rw [deref_opened live.opened]
  refine Ensures.ite (fun _ => ?_) fun _ => pokeEvents_live live
  refine (dowrite_live live).bind fun progress kept => ?_
  exact andThen_live kept fun status _ => pokeAfterWrite_live status

theorem pokeAfterRead_live (status : Int) (live : Live sys) :
    Ensures Harmless (fun progress => Live progress.sys)
      (pokeAfterRead io status sys) :=
  Ensures.ite (fun _ => live) fun _ => pokeWrite_live live

theorem poke_live (live : Live sys) :
    Ensures Harmless (fun progress => Live progress.sys) (poke io sys) := by
  unfold poke
  rw [deref_opened live.opened]
  refine Ensures.ite (fun _ => ?_) fun _ => pokeWrite_live live
  refine (doread_live live).bind fun progress kept => ?_
  exact andThen_live kept fun status _ => pokeAfterRead_live status

/-- An event callback drops the field of its event and pokes. -/
theorem callbackRead_live
    (live : Live { sys with ssl := { sys.ssl with waitingR := false } }) :
    Ensures Harmless (fun progress => Live progress.sys)
      (callbackRead io sys) := by
  have opened : sys.closed = false := live.opened
  unfold callbackRead
  rw [deref_opened opened]
  exact poke_live
    ⟨live.opened, live.readable, live.writable, live.immediates⟩

theorem callbackWrite_live
    (live : Live { sys with ssl := { sys.ssl with waitingW := false } }) :
    Ensures Harmless (fun progress => Live progress.sys)
      (callbackWrite io sys) := by
  have opened : sys.closed = false := live.opened
  unfold callbackWrite
  rw [deref_opened opened]
  exact poke_live
    ⟨live.opened, live.readable, live.writable, live.immediates⟩

theorem callbackImmediate_live
    (live : Live { sys with
      ssl := { sys.ssl with immediateCookie := none } }) :
    Ensures Harmless (fun progress => Live progress.sys)
      (callbackImmediate io sys) := by
  have opened : sys.closed = false := live.opened
  unfold callbackImmediate
  rw [deref_opened opened]
  exact poke_live live

/-- The only immediate event of the context is the one it knows. -/
theorem Live.erase_immediate (live : Live sys) {cookie : Nat}
    (there : cookie ∈ sys.events.immediates) :
    sys.events.immediates.erase cookie = [] := by
  rw [live.immediates, Option.mem_toList] at there
  rw [live.immediates, there]
  simp

/-! ## The interface -/

/-- What `network_ssl_read` and `network_ssl_write` record. -/
def recorded (args : Arguments κ) : Pending κ where
  callback := some args.callback
  buf := args.buf
  buflen := args.buflen
  minlen := args.minlen

/-- What is left of an operation that is cancelled. -/
def idled (pending : Pending κ) : Pending κ :=
  { pending with callback := none, needsR := false, needsW := false }

theorem networkSslStart_live {args : Arguments κ} (live : Live sys) :
    Ensures Harmless (fun result => Live result.2)
      (networkSslStart op args sys) := by
  unfold networkSslStart
  refine Ensures.ite (fun _ => harmless_assertion _) fun _ => ?_
  refine Ensures.ite (fun _ => harmless_assertion _) fun _ => ?_
  rw [deref_opened live.opened]
  refine Ensures.ite (fun _ => harmless_assertion _) fun _ => ?_
  have stored := live.setPending op (recorded args)
  split
  · exact stored
  · exact stored
  · next cookie absent _ =>
      refine ⟨stored.opened, stored.readable, stored.writable, ?_⟩
      have isAbsent : (sys.ssl.setPending op
          (recorded args)).immediateCookie = none := absent
      have none := stored.immediates
      dsimp only at none ⊢
      rw [none, isAbsent]
      rfl

theorem networkSslCancel_live {grants : Grants} (live : Live sys) :
    Ensures Harmless Live (networkSslCancel op grants sys) := by
  unfold networkSslCancel
  rw [deref_opened live.opened]
  have stored := live.setPending op (idled (sys.ssl.pending op))
  apply (setupevents_live stored).bind
  intro result kept
  exact kept

/-- The context was closed, and no event of it is registered. -/
structure Dead (sys : System κ) : Prop where
  closed : sys.closed = true
  events : sys.events = {}

theorem networkSslClose_dead (live : Live sys) :
    Ensures Harmless Dead (networkSslClose sys) := by
  unfold networkSslClose
  rw [deref_opened live.opened]
  refine Ensures.ite (fun _ => harmless_assertion _) fun _ => ?_
  refine Ensures.ite (fun _ => harmless_assertion _) fun _ => ?_
  refine Ensures.ite (fun _ => harmless_assertion _) fun waitingR => ?_
  refine Ensures.ite (fun _ => harmless_assertion _) fun waitingW => ?_
  refine ⟨rfl, ?_⟩
  have readable : sys.events.readable = false := by
    rw [live.readable]
    exact Bool.eq_false_of_not_eq_true waitingR
  have writable : sys.events.writable = false := by
    rw [live.writable]
    exact Bool.eq_false_of_not_eq_true waitingW
  have immediates := live.immediates
  dsimp only
  generalize sys.events = events at readable writable immediates
  obtain ⟨_, _, _⟩ := events
  cases cookie : sys.ssl.immediateCookie with
  | none => simp_all [cancelImmediate]
  | some cookie => simp_all [cancelImmediate]

end Libcperciva.NetworkSsl.SslOps
