import Libcperciva.Events.NetworkRuns

/-!
# The scan for ready network events

After a successful `events_network_select` the ready events are pending until
they are returned or cancelled.  `events_network_get` is documented to return
NULL only if none is left.  It keeps to this as long as the scan position stays
inside the array.  The position is left outside when the array shrinks while
the scan is at the last entry; this file says exactly which calls do that.
-/

namespace Libcperciva.Events.NetworkScan

open Libcperciva.Util.Time
open Libcperciva.Events.NetworkModel
open Libcperciva.Events.NetworkInvariant
open Libcperciva.Events.NetworkOps
open Libcperciva.Events.NetworkRegister
open Libcperciva.Events.NetworkCalls
open Libcperciva.Events.NetworkRuns

variable {ε : Type*} {net after : Network ε}

/-! ## Runs after a select -/

/-- A call between two selects. -/
inductive Call (ε : Type*) where
  | register (allocs : Allocs) (event : ε) (s op : Int)
  | cancel (allocs : Allocs) (s op : Int)
  | get

/-- The tables after a call, if no assertion fails. -/
def call (net : Network ε) : Call ε → Option (Network ε)
  | .register allocs event s op =>
      (eventsNetworkRegister allocs net event s op).map Prod.snd
  | .cancel allocs s op => some (eventsNetworkCancel allocs net s op).2
  | .get => (eventsNetworkGet net).map Prod.snd

/-- The pairs of which a registration is pending. -/
abbrev Pending := Nat → NetworkOp → Prop

/-- The pairs that are registered and reported ready. -/
def reported (net : Network ε) (revents : Nat → PollFlags) : Pending :=
  fun fd op => registered net fd op ≠ none ∧
    ((revents fd).has op = true ∨
      ((revents fd).pollerr || (revents fd).pollhup) = true)

/-- The pending registrations which a call has neither returned nor cancelled. -/
def left (pending : Pending) (after : Network ε) : Pending :=
  fun fd op => pending fd op ∧ registered after fd op ≠ none

/--
A select whose `poll` is not interrupted, and any calls after it which meet a
condition on the tables, on what is pending and on the call itself.
-/
inductive ScanRun (allowed : Network ε → Pending → Call ε → Prop) :
    Network ε → Pending → Prop where
  | select {net after : Network ε} {allocs : Allocs}
      {poll : List Pollfd → Int → PollResult} {tv : Option Timeval}
      {revents : Nat → PollFlags} (before : Reachable net)
      (sound : PollSound poll)
      (answer : poll net.fds (pollTimeout tv) = .ready revents)
      (returned : eventsNetworkSelect allocs poll tv net = (0, after)) :
      ScanRun allowed after (reported net revents)
  | call {net after : Network ε} {pending : Pending} {next : Call ε}
      (before : ScanRun allowed net pending)
      (meets : allowed net pending next)
      (returned : call net next = some after) :
      ScanRun allowed after (left pending after)

/-- If there is nothing to get then nothing is pending. -/
def Complete (net : Network ε) (pending : Pending) : Prop :=
  ∀ after, eventsNetworkGet net = some (none, after) →
    ∀ fd op, ¬ pending fd op

/-- The pair has the only event that is registered for its descriptor. -/
def OnlyEvent (net : Network ε) (fd : Nat) (op : NetworkOp) : Prop :=
  registered net fd op ≠ none ∧
    ∀ other, other ≠ op → registered net fd other = none

/--
The calls after which the scan is outside the array: the scan is at the last
entry, the call takes the only event of a descriptor, so that the array
shrinks, and an event of another descriptor is pending.
-/
inductive LosesScan (net : Network ε) (pending : Pending) :
    Call ε → Prop where
  | cancel {allocs : Allocs} {s op : Int} {o other : NetworkOp} {fd : Nat}
      (atLast : net.fdscanpos + 1 = net.nfds)
      (isSocket : 0 ≤ s) (isOp : networkOp op = some o)
      (only : OnlyEvent net s.toNat o)
      (isPending : pending fd other) (different : fd ≠ s.toNat) :
      LosesScan net pending (.cancel allocs s op)
  | get {o other : NetworkOp} {fd : Nat}
      (atLast : net.fdscanpos + 1 = net.nfds)
      (isReady : Ready (net.pollfd net.fdscanpos) o)
      (only : OnlyEvent net (net.pollfd net.fdscanpos).fd o)
      (isPending : pending fd other)
      (different : fd ≠ (net.pollfd net.fdscanpos).fd) :
      LosesScan net pending .get

/-! ## Pending events stay in position -/

/-- A registered event whose entry the scan has still to visit. -/
structure InPosition (net : Network ε) (fd : Nat) (op : NetworkOp) :
    Prop where
  held : registered net fd op ≠ none
  isReady : Ready (net.pollfd (net.sock fd).pollpos) op
  ahead : (net.sock fd).pollpos ≤ net.fdscanpos
  inside : net.fdscanpos < net.nfds

/-- What holds of the tables and the pending registrations between calls. -/
structure ScanInvariant (net : Network ε) (pending : Pending) : Prop where
  invariant : Invariant net
  inPosition : ∀ fd op, pending fd op → InPosition net fd op

theorem select_inPosition (invariant : Invariant net)
    {revents : Nat → PollFlags} {fd : Nat} {op : NetworkOp}
    (isReported : reported net revents fd op) :
    InPosition (polled net revents) fd op := by
  obtain ⟨held, flags⟩ := isReported
  have listed := invariant.listed fd op held
  have bound := invariant.nfds_lt
  have nfdsEq := polled_nfds net revents
  have scanpos : (polled net revents).fdscanpos = net.nfds - 1 :=
    if_neg (by omega)
  have events : (net.pollfd (net.sock fd).pollpos).events.has op = true := by
    rw [← invariant.masks _ listed, invariant.forth fd listed]
    exact Option.isSome_iff_ne_none.mpr held
  constructor
  · exact held
  · change Ready ((polled net revents).pollfd (net.sock fd).pollpos) op
    rw [polled_pollfd revents listed, invariant.forth fd listed]
    exact flags.imp id fun errors => ⟨errors, events⟩
  · rw [scanpos]
    exact Nat.le_sub_one_of_lt listed
  · rw [scanpos, nfdsEq]
    omega

theorem sameTables_inPosition (same : SameTables net after)
    (scanpos : after.fdscanpos = net.fdscanpos) {fd : Nat} {op : NetworkOp}
    (before : InPosition net fd op) : InPosition after fd op where
  held := by
    rw [same.registered]
    exact before.held
  isReady := by
    rw [same.sock, same.pollfd]
    exact before.isReady
  ahead := by
    rw [same.sock, scanpos]
    exact before.ahead
  inside := by
    rw [same.nfds, scanpos]
    exact before.inside

/-- Registering another event leaves a pending one in position. -/
theorem entered_inPosition (invariant : Invariant net) {i : Nat}
    {o : NetworkOp} {event : ε} {pos : Nat}
    (entered : Entered net after i o event pos)
    {fd : Nat} {op : NetworkOp} (before : InPosition net fd op) :
    InPosition after fd op := by
  have listed := invariant.listed fd op before.held
  have bound := invariant.nfds_lt
  have pollposEq : (after.sock fd).pollpos = (net.sock fd).pollpos := by
    rw [entered.sock]
    split_ifs with here
    · subst here
      rcases entered.place with ⟨atPos, _, _⟩ | ⟨_, unlisted, _⟩
      · exact atPos
      · omega
    · rfl
  constructor
  · rw [entered.registered]
    split_ifs
    · exact Option.some_ne_none event
    · exact before.held
  · rw [pollposEq, entered.pollfd _ (listed.trans_le entered.nfds_le)]
    split_ifs with here
    · have old : entry net i pos = net.pollfd (net.sock fd).pollpos := by
        unfold entry
        rw [← here, if_pos listed]
      rw [old]
      rcases before.isReady with flag | ⟨errors, wanted⟩
      · exact Or.inl flag
      · refine Or.inr ⟨errors, ?_⟩
        rw [has_set, wanted, Bool.true_or]
    · exact before.isReady
  · rw [pollposEq, entered.fdscanpos]
    exact before.ahead
  · rw [entered.fdscanpos]
    exact before.inside.trans_le entered.nfds_le

theorem cleared_ready (pfd : Pollfd) {op other : NetworkOp}
    (different : other ≠ op) :
    Ready (cleared pfd op) other ↔ Ready pfd other := by
  have errors : ((pfd.revents.clear op).pollerr ||
      (pfd.revents.clear op).pollhup) =
      (pfd.revents.pollerr || pfd.revents.pollhup) := by
    cases op <;> rfl
  unfold Ready cleared
  simp [has_clear, errors, different.symm]

/-- The entry of another event after an event has left. -/
theorem dropEvent_ready (invariant : Invariant net) {i : Nat}
    {o : NetworkOp} (below : (net.sock i).pollpos < net.nfds)
    {fd : Nat} {op : NetworkOp}
    (stays : registered (dropEvent net i o) fd op ≠ none)
    (isReady : Ready (net.pollfd (net.sock fd).pollpos) op) :
    Ready ((dropEvent net i o).pollfd
        ((dropEvent net i o).sock fd).pollpos) op ∧
      ((dropEvent net i o).sock fd).pollpos ≤ (net.sock fd).pollpos := by
  have held := stays
  rw [registered_dropEvent invariant below] at held
  have notSame : ¬ (fd = i ∧ op = o) := by
    intro same
    rw [if_pos same] at held
    exact held rfl
  rw [if_neg notSame] at held
  have listed := invariant.listed fd op held
  by_cases gone : ∀ other, other ≠ o → registered net i other = none
  · have notFd : fd ≠ i := by
      rintro rfl
      exact held (gone op fun same => notSame ⟨rfl, same⟩)
    have notPos : (net.sock fd).pollpos ≠ (net.sock i).pollpos := by
      intro same
      have forth := invariant.forth fd listed
      rw [same, invariant.forth i below] at forth
      exact notFd forth.symm
    obtain ⟨nfdsEq, _, pollfdEq, sockEq⟩ :=
      dropEvent_views_gone invariant below gone
    rw [sockEq, if_neg notFd]
    split_ifs with isLast
    · have lastBack := invariant.back (net.nfds - 1) (by omega)
      rw [← isLast] at lastBack
      change Ready ((dropEvent net i o).pollfd (net.sock i).pollpos) op ∧
        (net.sock i).pollpos ≤ _
      rw [pollfdEq _ (by omega), if_pos rfl, ← lastBack]
      exact ⟨isReady, by omega⟩
    · have notLast : (net.sock fd).pollpos ≠ net.nfds - 1 := by
        intro same
        have forth := invariant.forth fd listed
        rw [same] at forth
        exact isLast forth.symm
      rw [pollfdEq _ (by omega), if_neg notPos]
      exact ⟨isReady, le_rfl⟩
  · push Not at gone
    obtain ⟨other, different, kept⟩ := gone
    obtain ⟨_, _, pollfdEq, sockEq⟩ :=
      dropEvent_views_stay invariant below different kept
    have pollposEq : ((dropEvent net i o).sock fd).pollpos =
        (net.sock fd).pollpos := by
      rw [sockEq]
      split_ifs
      · exact pollpos_setEvent _ _ _
      · rfl
    rw [pollposEq, pollfdEq]
    refine ⟨?_, le_rfl⟩
    split_ifs with here
    · have sameFd : fd = i := by
        have forth := invariant.forth fd listed
        rw [here, invariant.forth i below] at forth
        exact forth.symm
      exact (cleared_ready _ fun same => notSame ⟨sameFd, same⟩).mpr isReady
    · exact isReady

theorem InPosition.initialized {fd : Nat} {op : NetworkOp}
    (position : InPosition net fd op) (invariant : Invariant net) :
    net.S ≠ none := by
  intro fresh
  have inside := position.inside
  simp [Network.nfds, invariant.fresh fresh] at inside

/-- An event has left, and the scan position is still in the array. -/
theorem dropEvent_inPosition (invariant : Invariant net) {i : Nat}
    {o : NetworkOp} (below : (net.sock i).pollpos < net.nfds)
    {fd : Nat} {op : NetworkOp}
    (before : Ready (net.pollfd (net.sock fd).pollpos) op)
    (stays : registered (dropEvent net i o) fd op ≠ none) {pos : Nat}
    (ahead : (net.sock fd).pollpos ≤ pos)
    (inside : pos < (dropEvent net i o).nfds) :
    InPosition { dropEvent net i o with fdscanpos := pos } fd op := by
  obtain ⟨isReady, notAfter⟩ :=
    dropEvent_ready invariant below stays before
  exact ⟨stays, isReady, notAfter.trans ahead, inside⟩

/-- Only the last event of a descriptor shrinks the array. -/
theorem dropEvent_nfds (invariant : Invariant net) {i : Nat}
    {o : NetworkOp} (below : (net.sock i).pollpos < net.nfds)
    (held : registered net i o ≠ none) :
    (dropEvent net i o).nfds = net.nfds ∨
      OnlyEvent net i o ∧ (dropEvent net i o).nfds = net.nfds - 1 := by
  by_cases gone : ∀ other, other ≠ o → registered net i other = none
  · exact Or.inr ⟨⟨held, gone⟩,
      (dropEvent_views_gone invariant below gone).1⟩
  · push Not at gone
    obtain ⟨other, different, kept⟩ := gone
    exact Or.inl (dropEvent_views_stay invariant below different kept).1

theorem OnlyEvent.congr (same : registered after = registered net)
    {fd : Nat} {op : NetworkOp} :
    OnlyEvent after fd op ↔ OnlyEvent net fd op := by
  unfold OnlyEvent
  rw [same]

/-- What stays registered is an event of another descriptor. -/
theorem OnlyEvent.other_fd {i fd : Nat} {o op : NetworkOp}
    (only : OnlyEvent net i o)
    (below : (net.sock i).pollpos < net.nfds) (invariant : Invariant net)
    (stays : registered (dropEvent net i o) fd op ≠ none) : fd ≠ i := by
  rintro rfl
  rw [registered_dropEvent invariant below] at stays
  split_ifs at stays with same
  · exact stays rfl
  · exact stays (only.2 op fun sameOp => same ⟨rfl, sameOp⟩)

variable {pending : Pending} {next : Call ε}

theorem ScanInvariant.register
    (scan : ScanInvariant net pending) {allocs : Allocs} {event : ε}
    {s op status : Int}
    (returned : eventsNetworkRegister allocs net event s op =
      some (status, after)) :
    ScanInvariant after (left pending after) := by
  have registers :=
    eventsNetworkRegister_registers scan.invariant allocs event s op
  rw [returned] at registers
  refine ⟨registers_invariant registers, ?_⟩
  rintro fd o ⟨isPending, _⟩
  have before := scan.inPosition fd o isPending
  have initialized := before.initialized scan.invariant
  cases registers with
  | failed _ invariant same scanpos =>
      exact sameTables_inPosition same (scanpos initialized) before
  | entered isOp isSocket invariant same scanpos free entered =>
      exact entered_inPosition invariant entered
        (sameTables_inPosition same (scanpos initialized) before)

theorem ScanInvariant.cancel
    (scan : ScanInvariant net pending) {allocs : Allocs} {s op : Int}
    (keeps : ¬ LosesScan net pending (.cancel allocs s op)) :
    ScanInvariant (eventsNetworkCancel allocs net s op).2
      (left pending (eventsNetworkCancel allocs net s op).2) := by
  have cancels := eventsNetworkCancel_cancels scan.invariant allocs s op
  refine ⟨cancels_invariant cancels, ?_⟩
  rintro fd op ⟨isPending, stays⟩
  have atNet := scan.inPosition fd op isPending
  have initialized := atNet.initialized scan.invariant
  generalize eventsNetworkCancel allocs net s _ = result at *
  cases cancels with
  | failed _ invariant same scanpos =>
      exact sameTables_inPosition same (scanpos initialized) atNet
  | @dropped start o isOp isSocket invariant same scanpos held =>
      have before :=
        sameTables_inPosition same (scanpos initialized) atNet
      have below := invariant.listed _ _ held
      have inside : start.fdscanpos < (dropEvent start s.toNat o).nfds := by
        have insideBefore := before.inside
        rcases dropEvent_nfds invariant below held with
          nfdsEq | ⟨only, nfdsEq⟩
        · omega
        · by_contra outside
          refine keeps (LosesScan.cancel ?_ isSocket isOp
            ((OnlyEvent.congr same.registered).mp only) isPending
            (only.other_fd below invariant stays))
          rw [← scanpos initialized, ← same.nfds]
          omega
      have scanposEq := (dropEvent_rest start s.toNat o).2.1
      have position := dropEvent_inPosition invariant below
        before.isReady stays before.ahead inside
      rwa [← scanposEq] at position

theorem ScanInvariant.get (scan : ScanInvariant net pending)
    {event : Option ε}
    (returned : eventsNetworkGet net = some (event, after))
    (keeps : ¬ LosesScan net pending .get) :
    ScanInvariant after (left pending after) := by
  obtain ⟨result, equal, gets⟩ := eventsNetworkGet_gets scan.invariant
  rw [returned, Option.some.injEq] at equal
  subst equal
  refine ⟨gets_invariant scan.invariant gets, ?_⟩
  rintro fd op ⟨isPending, stays⟩
  have atNet := scan.inPosition fd op isPending
  cases gets with
  | beyond outside => exact absurd atNet.inside (not_lt.mpr outside)
  | finished inside scanned invariant idle =>
      exact absurd atNet.isReady (idle _ atNet.ahead op)
  | @found mid o event position inside bound scanned invariant isReady
      isEvent idle =>
      have listed := found_listed scanned invariant inside
      have below : (mid.sock (net.pollfd position).fd).pollpos < mid.nfds := by
        rw [listed, scanned.nfds]
        exact inside
      have held : registered mid (net.pollfd position).fd o ≠ none := by
        rw [scanned.registered, isEvent]
        exact Option.some_ne_none event
      have midReady : Ready (mid.pollfd (mid.sock fd).pollpos) op := by
        rw [scanned.sock]
        exact (scanned.ready _ op).mpr atNet.isReady
      have ahead : (net.sock fd).pollpos ≤ position := by
        by_contra above
        exact idle _ (not_le.mp above) atNet.ahead op atNet.isReady
      have insideAfter :
          position < (dropEvent mid (net.pollfd position).fd o).nfds := by
        have nfdsMid := scanned.nfds
        rcases dropEvent_nfds invariant below held with
          nfdsEq | ⟨only, nfdsEq⟩
        · omega
        · by_contra outside
          have insideBefore := atNet.inside
          have scanAtLast : net.fdscanpos = position := by omega
          subst scanAtLast
          exact keeps (LosesScan.get (by omega) isReady
            ((OnlyEvent.congr scanned.registered).mp only) isPending
            (only.other_fd below invariant stays))
      rw [← scanned.sock] at ahead
      exact dropEvent_inPosition invariant below midReady stays ahead
        insideAfter

theorem ScanInvariant.call (scan : ScanInvariant net pending)
    (returned : call net next = some after)
    (keeps : ¬ LosesScan net pending next) :
    ScanInvariant after (left pending after) := by
  cases next with
  | register allocs event s op =>
      obtain ⟨⟨status, result⟩, called, rfl⟩ := Option.map_eq_some_iff.mp returned
      exact scan.register called
  | cancel allocs s op =>
      obtain rfl := Option.some.inj returned
      exact scan.cancel keeps
  | get =>
      obtain ⟨⟨event, result⟩, called, rfl⟩ := Option.map_eq_some_iff.mp returned
      exact scan.get called keeps

theorem ScanInvariant.complete (scan : ScanInvariant net pending) :
    Complete net pending := by
  intro after returned fd op isPending
  have position := scan.inPosition fd op isPending
  obtain ⟨result, equal, gets⟩ := eventsNetworkGet_gets scan.invariant
  rw [returned, Option.some.injEq] at equal
  subst equal
  cases gets with
  | beyond outside => exact absurd position.inside (not_lt.mpr outside)
  | finished inside scanned invariant idle =>
      exact idle _ position.ahead op position.isReady

/-! ## The calls that lose the scan -/

/-- Outside the array the scan finds nothing. -/
theorem eventsNetworkGet_beyond (outside : net.nfds ≤ net.fdscanpos) :
    eventsNetworkGet net = some (none, net) := by
  unfold eventsNetworkGet scanFrom
  rw [if_neg (not_lt.mpr outside)]

/-- An event leaves the array with the scan at its end. -/
theorem not_complete_of_drop (invariant : Invariant net) {i fd : Nat}
    {o op : NetworkOp} (only : OnlyEvent net i o) (different : fd ≠ i)
    (isPending : pending fd op) (held : registered net fd op ≠ none)
    {pos : Nat} (atLast : pos + 1 = net.nfds) :
    ¬ Complete { dropEvent net i o with fdscanpos := pos }
      (left pending { dropEvent net i o with fdscanpos := pos }) := by
  intro complete
  have below := invariant.listed _ _ only.1
  have nfdsEq := (dropEvent_views_gone invariant below only.2).1
  refine complete _ (eventsNetworkGet_beyond ?_) fd op ⟨isPending, ?_⟩
  · change (dropEvent net i o).nfds ≤ pos
    omega
  · change registered (dropEvent net i o) fd op ≠ none
    rw [registered_dropEvent invariant below,
      if_neg fun both => different both.1]
    exact held

/-- Cancelling an event that is registered succeeds. -/
theorem eventsNetworkCancel_held (invariant : Invariant net)
    (initialized : net.S ≠ none) {s op : Int} {o : NetworkOp}
    (isSocket : 0 ≤ s) (isOp : networkOp op = some o)
    (held : registered net s.toNat o ≠ none) (allocs : Allocs) :
    eventsNetworkCancel allocs net s op = (0, dropEvent net s.toNat o) := by
  have below := invariant.listed _ _ held
  have inside : s.toNat < net.size := by
    have within := invariant.inside _ below
    rwa [invariant.forth _ below] at within
  have started : init allocs net = (0, net) := by
    obtain ⟨list, sockets⟩ := Option.ne_none_iff_exists'.mp initialized
    unfold init
    rw [sockets]
  have notFree : ¬ ((net.sock s.toNat).event o).isNone = true :=
    fun free => held (Option.isNone_iff_eq_none.mp free)
  have pollposEq : ((net.modifySock s.toNat fun rec =>
      rec.setEvent o none).sock s.toNat).pollpos =
      (net.sock s.toNat).pollpos := by
    rw [sock_modifySock inside, if_pos rfl, pollpos_setEvent]
  unfold eventsNetworkCancel
  rw [started]
  dsimp only
  rw [if_neg (not_not.mpr rfl), if_neg (not_lt.mpr isSocket), isOp]
  dsimp only
  rw [if_neg (not_le.mpr inside), if_neg notFree, pollposEq]
  rfl

theorem ScanInvariant.loses (scan : ScanInvariant net pending)
    (returned : NetworkScan.call net next = some after)
    (loses : LosesScan net pending next) :
    ¬ Complete after (left pending after) := by
  have invariant := scan.invariant
  cases loses with
  | @cancel allocs s op o other fd atLast isSocket isOp only isPending
      different =>
      have position := scan.inPosition fd other isPending
      have called := eventsNetworkCancel_held invariant
        (position.initialized invariant) isSocket isOp only.1 allocs
      obtain rfl := Option.some.inj returned
      rw [called]
      have scanposEq := (dropEvent_rest net s.toNat o).2.1
      have incomplete := not_complete_of_drop invariant only different
        isPending position.held atLast
      rwa [← scanposEq] at incomplete
  | @get o other fd atLast isReady only isPending different =>
      have position := scan.inPosition fd other isPending
      obtain ⟨⟨event, result⟩, called, rfl⟩ :=
        Option.map_eq_some_iff.mp returned
      obtain ⟨result', equal, gets⟩ := eventsNetworkGet_gets invariant
      rw [called, Option.some.injEq] at equal
      subst equal
      cases gets with
      | beyond outside => exact absurd outside (by omega)
      | finished inside scanned invariant' idle =>
          exact absurd isReady (idle _ le_rfl o)
      | @found mid o' event' found inside bound scanned invariant' isReady'
          isEvent idle =>
          have atScan : found = net.fdscanpos := by
            by_contra lower
            exact idle _ (by omega) le_rfl o isReady
          subst atScan
          have sameOp : o' = o := by
            by_contra other
            rw [only.2 o' other] at isEvent
            exact Option.some_ne_none event' isEvent.symm
          subst sameOp
          refine not_complete_of_drop invariant'
            ((OnlyEvent.congr scanned.registered).mpr only) different
            isPending ?_ (atLast.trans scanned.nfds.symm)
          rw [scanned.registered]
          exact position.held

/-! ## The scan is complete as long as no call loses it -/

/-- The calls that keep the scan inside the array. -/
def KeepsScan (net : Network ε) (pending : Pending) (next : Call ε) : Prop :=
  ¬ LosesScan net pending next

/-- A select that succeeds with an answer of `poll` stores the answer. -/
theorem eventsNetworkSelect_ready (invariant : Invariant net)
    {allocs : Allocs} {poll : List Pollfd → Int → PollResult}
    {tv : Option Timeval} {revents : Nat → PollFlags}
    (answer : poll net.fds (pollTimeout tv) = .ready revents)
    (returned : eventsNetworkSelect allocs poll tv net = (0, after)) :
    ∃ start, Invariant start ∧ SameTables net start ∧
      after = polled start revents := by
  obtain ⟨invariantInit, same, _⟩ := init_spec invariant allocs
  unfold eventsNetworkSelect at returned
  generalize init allocs net = started at *
  obtain ⟨status, start⟩ := started
  dsimp only at *
  rw [← same.fds] at answer
  rw [answer] at returned
  split_ifs at returned with failed
  · cases returned
  · obtain rfl := congrArg Prod.snd returned
    exact ⟨start, invariantInit, same, rfl⟩

theorem ScanRun.invariant (run : ScanRun KeepsScan net pending) :
    ScanInvariant net pending := by
  induction run with
  | @select net after allocs poll tv revents before sound answer returned =>
      have selects :=
        eventsNetworkSelect_selects before.invariant allocs sound tv
      rw [returned] at selects
      refine ⟨selects.invariant, ?_⟩
      obtain ⟨start, started, same, rfl⟩ :=
        eventsNetworkSelect_ready before.invariant answer returned
      intro fd op isReported
      unfold reported at isReported
      rw [← same.registered] at isReported
      exact select_inPosition started isReported
  | call before meets returned scan => exact scan.call returned meets

/--
A run whose calls all keep the scan reaches complete states only, and the next
call leads to a complete state if and only if it keeps the scan as well.
-/
theorem network_scan_complete (run : ScanRun KeepsScan net pending) :
    Complete net pending ∧
      ∀ next after, call net next = some after →
        (Complete after (left pending after) ↔
          KeepsScan net pending next) := by
  have scan := run.invariant
  refine ⟨scan.complete, ?_⟩
  intro next after returned
  constructor
  · intro complete loses
    exact scan.loses returned loses complete
  · intro keeps
    exact (scan.call returned keeps).complete

theorem twoReady_run (allowed : Network Nat → Pending → Call Nat → Prop) :
    ∃ pending, ScanRun allowed twoReady pending ∧ pending 0 .read := by
  have returned : eventsNetworkSelect {} pollReadable none twoRegistered =
    (0, twoReady) := rfl
  have selected : ScanRun allowed twoReady _ :=
    ScanRun.select twoRegistered_reachable pollReadable_sound rfl returned
  exact ⟨_, selected, Option.some_ne_none 10, Or.inl rfl⟩

/-- One of them is returned; the other one is pending, but cannot be got. -/
theorem network_scan_incomplete :
    ¬ ∀ (net : Network Nat) (pending : Pending),
      ScanRun (fun _ _ _ => True) net pending → Complete net pending := by
  intro complete
  obtain ⟨pending, run, isPending⟩ := twoReady_run fun _ _ _ => True
  have got : call twoReady .get = some oneReturned := rfl
  have nothing :=
    complete _ _ (run.call trivial got) oneReturned rfl 0 .read
  exact nothing ⟨isPending, Option.some_ne_none 10⟩

/-- Here the next get would lose the scan. -/
theorem network_scan_complete_twoReady :
    ∃ pending, Complete twoReady pending ∧
      ∀ next after, call twoReady next = some after →
        (Complete after (left pending after) ↔
          KeepsScan twoReady pending next) := by
  obtain ⟨pending, run, _⟩ := twoReady_run KeepsScan
  exact ⟨pending, network_scan_complete run⟩

end Libcperciva.Events.NetworkScan
