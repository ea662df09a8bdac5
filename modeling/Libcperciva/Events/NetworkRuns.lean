import Libcperciva.Events.NetworkCalls

/-!
# Every sequence of calls on the network event tables

A run makes the four calls in any order, with any arguments and any outcome of
the allocations.  It ends where an assertion fails; of the four only
`events_network_register` can fail one, for a descriptor of `INT_MAX`.
-/

namespace Libcperciva.Events.NetworkRuns

open Libcperciva.Util.Time
open Libcperciva.Events.NetworkModel
open Libcperciva.Events.NetworkInvariant
open Libcperciva.Events.NetworkOps
open Libcperciva.Events.NetworkRegister
open Libcperciva.Events.NetworkCalls

variable {ε : Type*} {net after : Network ε}

/-- The states of the tables between calls. -/
inductive Reachable : Network ε → Prop where
  | start : Reachable {}
  | register {net after : Network ε} {status : Int} (allocs : Allocs)
      (event : ε) (s op : Int) (before : Reachable net)
      (returned : eventsNetworkRegister allocs net event s op =
        some (status, after)) : Reachable after
  | cancel {net : Network ε} (allocs : Allocs) (s op : Int)
      (before : Reachable net) :
      Reachable (eventsNetworkCancel allocs net s op).2
  | select {net : Network ε} (allocs : Allocs)
      (poll : List Pollfd → Int → PollResult) (tv : Option Timeval)
      (before : Reachable net) (sound : PollSound poll) :
      Reachable (eventsNetworkSelect allocs poll tv net).2
  | get {net after : Network ε} {event : Option ε} (before : Reachable net)
      (returned : eventsNetworkGet net = some (event, after)) :
      Reachable after

/-! ## The invariant holds between calls -/

theorem start_invariant : Invariant ({} : Network ε) where
  inside _ below := absurd below (Nat.not_lt_zero _)
  back _ below := absurd below (Nat.not_lt_zero _)
  forth _ below := absurd below (Nat.not_lt_zero _)
  listed _ op some := absurd (event_new op) some
  unlisted _ _ := rfl
  masks _ below := absurd below (Nat.not_lt_zero _)
  only _ below := absurd below (Nat.not_lt_zero _)
  wanted _ below := absurd below (Nat.not_lt_zero _)
  valid _ below := absurd below (Nat.not_lt_zero _)
  fits := ⟨le_rfl, Nat.zero_le _⟩
  allocated some := absurd rfl some
  fresh _ := rfl

/-- The position of the scan is no part of the invariant. -/
theorem moved_invariant (invariant : Invariant net) (fdscanpos : Nat) :
    Invariant { net with fdscanpos } :=
  have same : SameTables net { net with fdscanpos } :=
    ⟨fun _ => rfl, rfl, le_rfl⟩
  same.invariant invariant invariant.fits invariant.allocated
    invariant.fresh

theorem registers_invariant {event : ε} {s op status : Int}
    {allocs : Allocs}
    (registers : Registers allocs net event s op (some (status, after))) :
    Invariant after := by
  cases registers with
  | failed cause invariant same scanpos => exact invariant
  | entered isOp isSocket invariant same scanpos free entered =>
      exact entered.invariant invariant

theorem cancels_invariant {s op : Int} {result : Int × Network ε}
    {allocs : Allocs} (cancels : Cancels allocs net s op result) :
    Invariant result.2 := by
  cases cancels with
  | failed cause invariant same scanpos => exact invariant
  | dropped isOp isSocket invariant same scanpos held =>
      exact dropEvent_invariant invariant (invariant.listed _ _ held) _

/-- A ready entry belongs to a descriptor that is where it says. -/
theorem found_listed {mid : Network ε} (scanned : Scanned net mid)
    (invariant : Invariant mid) {position : Nat}
    (inside : position < net.nfds) :
    (mid.sock (net.pollfd position).fd).pollpos = position := by
  have back := invariant.back position (scanned.nfds ▸ inside)
  rwa [scanned.fd] at back

theorem gets_invariant (invariant : Invariant net) {pos : Nat}
    {result : Option ε × Network ε} (gets : Gets net pos result) :
    Invariant result.2 := by
  cases gets with
  | beyond outside => exact moved_invariant invariant pos
  | finished inside scanned invariant' idle =>
      exact moved_invariant invariant' SIZE_MAX
  | found inside bound scanned invariant' isReady isEvent idle =>
      refine moved_invariant (dropEvent_invariant invariant' ?_ _) _
      rw [found_listed scanned invariant' inside]
      exact scanned.nfds ▸ inside

theorem Reachable.invariant (reachable : Reachable net) :
    Invariant net := by
  induction reachable with
  | start => exact start_invariant
  | register allocs event s op before returned invariant =>
      have registers :=
        eventsNetworkRegister_registers invariant allocs event s op
      rw [returned] at registers
      exact registers_invariant registers
  | cancel allocs s op before invariant =>
      exact cancels_invariant
        (eventsNetworkCancel_cancels invariant allocs s op)
  | select allocs poll tv before sound invariant =>
      exact (eventsNetworkSelect_selects invariant allocs sound tv).invariant
  | get before returned invariant =>
      obtain ⟨result, equal, gets⟩ := eventsNetworkGet_gets invariant
      rw [returned, Option.some.injEq] at equal
      exact gets_invariant invariant (equal ▸ gets)

/-! ## Which registrations a call changes -/

/-- The registrations with that of one pair replaced. -/
def changed (registrations : Nat → NetworkOp → Option ε)
    (fd : Nat) (op : NetworkOp) (event : Option ε) :
    Nat → NetworkOp → Option ε :=
  fun i o => if i = fd ∧ o = op then event else registrations i o

theorem registers_registered {event : ε} {s op status : Int}
    {allocs : Allocs}
    (registers : Registers allocs net event s op (some (status, after))) :
    (status ≠ 0 ∧ Refused allocs net s op ∧
        registered after = registered net) ∨
      status = 0 ∧ 0 ≤ s ∧ ∃ o, networkOp op = some o ∧
        registered net s.toNat o = none ∧
        registered after = changed (registered net) s.toNat o (some event) := by
  cases registers with
  | failed cause invariant same scanpos =>
      exact Or.inl ⟨by decide, cause, same.registered⟩
  | entered isOp isSocket invariant same scanpos free entered =>
      rw [same.registered] at free
      refine Or.inr ⟨rfl, isSocket, _, isOp, free, ?_⟩
      funext i o
      rw [entered.registered, same.registered]
      rfl

theorem cancels_registered {s op : Int} {result : Int × Network ε}
    {allocs : Allocs} (cancels : Cancels allocs net s op result) :
    (result.1 ≠ 0 ∧ NotCancelled allocs net s op ∧
        registered result.2 = registered net) ∨
      result.1 = 0 ∧ 0 ≤ s ∧ ∃ o, networkOp op = some o ∧
        registered net s.toNat o ≠ none ∧
        registered result.2 = changed (registered net) s.toNat o none := by
  cases cancels with
  | failed cause invariant same scanpos =>
      exact Or.inl ⟨by simp, cause, same.registered⟩
  | dropped isOp isSocket invariant same scanpos held =>
      have below := invariant.listed _ _ held
      have dropped := registered_dropEvent invariant below
      rw [same.registered] at held
      refine Or.inr ⟨rfl, isSocket, _, isOp, held, ?_⟩
      funext i o
      rw [dropped, same.registered]
      rfl

/-- An event that is returned was registered, and is no longer. -/
theorem gets_registered {pos : Nat} {event : Option ε}
    (gets : Gets net pos (event, after)) :
    (event = none ∧ registered after = registered net) ∨
      ∃ fd op, event ≠ none ∧ registered net fd op = event ∧
        registered after = changed (registered net) fd op none := by
  cases gets with
  | beyond outside => exact Or.inl ⟨rfl, rfl⟩
  | finished inside scanned invariant idle =>
      exact Or.inl ⟨rfl, scanned.registered⟩
  | found inside bound scanned invariant isReady isEvent idle =>
      refine Or.inr ⟨_, _, Option.some_ne_none _, isEvent, ?_⟩
      have listed := found_listed scanned invariant inside
      rw [← listed, ← scanned.nfds] at inside
      have dropped := registered_dropEvent invariant inside
      funext i o
      exact (dropped _ i o).trans (by rw [scanned.registered]; rfl)

/-! ## What the caller can rely on -/

/-- The contract of the network events at one moment of a run. -/
structure Correct (net : Network ε) : Prop where
  documented : Documented net
  /-- A failed register changes no registration, another one only its own. -/
  register : ∀ allocs event s op status after,
    eventsNetworkRegister allocs net event s op = some (status, after) →
    (status ≠ 0 ∧ Refused allocs net s op ∧
        registered after = registered net) ∨
      status = 0 ∧ 0 ≤ s ∧ ∃ o, networkOp op = some o ∧
        registered net s.toNat o = none ∧
        registered after = changed (registered net) s.toNat o (some event)
  register_aborts : ∀ allocs event s op,
    eventsNetworkRegister allocs net event s op = none → INT_MAX ≤ s
  /-- A failed cancel changes no registration, another one only its own. -/
  cancel : ∀ allocs s op status after,
    eventsNetworkCancel allocs net s op = (status, after) →
    (status ≠ 0 ∧ NotCancelled allocs net s op ∧
        registered after = registered net) ∨
      status = 0 ∧ 0 ≤ s ∧ ∃ o, networkOp op = some o ∧
        registered net s.toNat o ≠ none ∧
        registered after = changed (registered net) s.toNat o none
  select : ∀ allocs poll tv, PollSound poll →
    registered (eventsNetworkSelect allocs poll tv net).2 = registered net
  /-- A get takes the event it returns. -/
  get : ∃ event after, eventsNetworkGet net = some (event, after) ∧
    ((event = none ∧ registered after = registered net) ∨
      ∃ fd op, event ≠ none ∧ registered net fd op = event ∧
        registered after = changed (registered net) fd op none)

/-- Every sequence of calls keeps the network event tables correct. -/
theorem network_tables_correct (reachable : Reachable net) :
    Correct net := by
  have invariant := reachable.invariant
  constructor
  · exact invariant.documented
  · intro allocs event s op status after returned
    have registers :=
      eventsNetworkRegister_registers invariant allocs event s op
    rw [returned] at registers
    exact registers_registered registers
  · intro allocs event s op aborted
    have registers :=
      eventsNetworkRegister_registers invariant allocs event s op
    rw [aborted] at registers
    cases registers with
    | aborted tooLarge => exact tooLarge
  · intro allocs s op status after returned
    have cancels := eventsNetworkCancel_cancels invariant allocs s op
    rw [returned] at cancels
    exact cancels_registered cancels
  · intro allocs poll tv sound
    exact (eventsNetworkSelect_selects invariant allocs sound tv).registered
  · obtain ⟨⟨event, after⟩, returned, gets⟩ :=
      eventsNetworkGet_gets invariant
    exact ⟨event, after, returned, gets_registered gets⟩

/-- A poll that finds all descriptors readable for which that is asked. -/
def pollReadable : List Pollfd → Int → PollResult :=
  fun fds _ => .ready fun fd =>
    { pollin := fds.all fun pfd => pfd.fd ≠ fd || pfd.events.pollin }

theorem pollReadable_sound : PollSound pollReadable := by
  rintro fds timeout revents returned pfd member
  cases returned
  refine ⟨rfl, ?_⟩
  intro op
  cases op with
  | read =>
      intro all
      have here := List.all_eq_true.mp all pfd member
      simpa [PollFlags.has] using here
  | write => exact fun flag => Bool.noConfusion flag

/-- The descriptors 0 and 1 are registered for reading. -/
def twoRegistered : Network Nat where
  S := some [⟨some 10, none, 0⟩, ⟨some 11, none, 1⟩, Socketrec.new Nat]
  fds := [⟨0, { pollin := true }, {}⟩, ⟨1, { pollin := true }, {}⟩]
  fdsAlloc := 16

/-- A select has found both of them readable. -/
def twoReady : Network Nat where
  S := twoRegistered.S
  fds := [⟨0, { pollin := true }, { pollin := true }⟩,
    ⟨1, { pollin := true }, { pollin := true }⟩]
  fdsAlloc := 16
  fdscanpos := 1

/-- One of their events has been returned. -/
def oneReturned : Network Nat where
  S := some [⟨some 10, none, 0⟩, Socketrec.new Nat, Socketrec.new Nat]
  fds := [⟨0, { pollin := true }, { pollin := true }⟩]
  fdsAlloc := 16
  fdscanpos := 1

theorem twoRegistered_reachable : Reachable twoRegistered := by
  have refused := Reachable.start.register { eventrec := false } 9 2 1 rfl
  have first := refused.register {} 10 0 0 rfl
  exact first.register {} 11 1 0 rfl

theorem network_tables_correct_oneReturned : Correct oneReturned := by
  have selected : Reachable twoReady :=
    twoRegistered_reachable.select {} pollReadable none pollReadable_sound
  have returned : eventsNetworkGet twoReady = some (some 11, oneReturned) :=
    rfl
  exact network_tables_correct (selected.get returned)

end Libcperciva.Events.NetworkRuns
