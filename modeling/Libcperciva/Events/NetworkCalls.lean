import Libcperciva.Events.NetworkRegister

/-!
# Cancelling, selecting and getting network events

One theorem for each of the other functions: how it ends, and what it does to
the tables.
-/

namespace Libcperciva.Events.NetworkCalls

open Libcperciva.Util.Time
open Libcperciva.Events.NetworkModel
open Libcperciva.Events.NetworkInvariant
open Libcperciva.Events.NetworkOps
open Libcperciva.Events.NetworkRegister

variable {ε : Type*} {net : Network ε}

/-! ## `events_network_cancel` -/

theorem registered_beyond {fd : Nat} (beyond : net.size ≤ fd)
    (op : NetworkOp) : registered net fd op = none := by
  have noSock : net.sock fd = Socketrec.new ε := by
    unfold Network.sock
    rw [List.getElem?_eq_none beyond]
    rfl
  unfold registered
  rw [noSock]
  exact event_new op

/-- Why `events_network_cancel` fails. -/
inductive NotCancelled (allocs : Allocs) (net : Network ε) (s op : Int) :
    Prop where
  | negative (below : s < 0)
  | invalid (noOp : networkOp op = none)
  | free {o : NetworkOp} (isOp : networkOp op = some o)
      (notHeld : registered net s.toNat o = none)
  | noMemory (short : allocs ≠ {})

/-- How `events_network_cancel` ends. -/
inductive Cancels (allocs : Allocs) (net : Network ε) (s op : Int) :
    Int × Network ε → Prop where
  | failed {after : Network ε} (cause : NotCancelled allocs net s op)
      (invariant : Invariant after) (same : SameTables net after)
      (scanpos : net.S ≠ none → after.fdscanpos = net.fdscanpos) :
      Cancels allocs net s op (-1, after)
  | dropped {start : Network ε} {o : NetworkOp}
      (isOp : networkOp op = some o) (isSocket : 0 ≤ s)
      (invariant : Invariant start) (same : SameTables net start)
      (scanpos : net.S ≠ none → start.fdscanpos = net.fdscanpos)
      (held : registered start s.toNat o ≠ none) :
      Cancels allocs net s op (0, dropEvent start s.toNat o)

/-- `events_network_cancel`: one event leaves, or nothing changes. -/
theorem eventsNetworkCancel_cancels (invariant : Invariant net)
    (allocs : Allocs) (s op : Int) :
    Cancels allocs net s op (eventsNetworkCancel allocs net s op) := by
  obtain ⟨invariantInit, sameInit, _, unchanged⟩ :=
    init_spec invariant allocs
  have initFailed : (init allocs net).1 ≠ 0 → allocs ≠ {} := init_failed
  unfold eventsNetworkCancel
  generalize init allocs net = started at *
  obtain ⟨status, start⟩ := started
  have scanposInit : net.S ≠ none → start.fdscanpos = net.fdscanpos :=
    fun some => congrArg Network.fdscanpos (unchanged some)
  dsimp only at *
  have refused (cause : NotCancelled allocs net s op) :
      Cancels allocs net s op (-1, start) :=
    Cancels.failed cause invariantInit sameInit scanposInit
  by_cases failed : status = 0
  swap
  · rw [if_pos failed]
    exact refused (NotCancelled.noMemory (initFailed failed))
  rw [if_neg (not_not.mpr failed)]
  by_cases negative : s < 0
  · rw [if_pos negative]
    exact refused (NotCancelled.negative negative)
  rw [if_neg negative]
  cases isOp : networkOp op with
  | none => exact refused (NotCancelled.invalid isOp)
  | some o =>
      dsimp only
      by_cases beyond : s.toNat ≥ start.size
      · rw [if_pos beyond]
        apply refused
        apply NotCancelled.free isOp
        rw [← sameInit.registered]
        exact registered_beyond beyond o
      rw [if_neg beyond]
      by_cases free : ((start.sock s.toNat).event o).isNone = true
      · rw [if_pos free]
        apply refused
        apply NotCancelled.free isOp
        rw [← sameInit.registered]
        exact Option.isNone_iff_eq_none.mp free
      rw [if_neg free]
      have held : registered start s.toNat o ≠ none := by
        intro none
        exact free (Option.isNone_iff_eq_none.mpr none)
      have pollposEq : ((start.modifySock s.toNat fun rec =>
          rec.setEvent o none).sock s.toNat).pollpos =
          (start.sock s.toNat).pollpos := by
        rw [sock_modifySock (not_le.mp beyond), if_pos rfl, pollpos_setEvent]
      rw [pollposEq]
      exact Cancels.dropped isOp (not_lt.mp negative) invariantInit
        sameInit scanposInit held

/-! ## `events_network_select` -/

/-- What is assumed of `poll`: it reports requested events and errors. -/
def PollSound (poll : List Pollfd → Int → PollResult) : Prop :=
  ∀ fds timeout revents, poll fds timeout = .ready revents →
    ∀ pfd ∈ fds, (revents pfd.fd).pollnval = false ∧
      ∀ op, (revents pfd.fd).has op = true → pfd.events.has op = true

theorem pollfd_mem {j : Nat} (below : j < net.nfds) :
    net.pollfd j ∈ net.fds := by
  have within : j < net.fds.length := below
  unfold Network.pollfd
  rw [List.getD_eq_getElem _ _ within]
  exact List.getElem_mem within

/-- The poll structures with the flags `poll` has returned. -/
def polled (net : Network ε) (revents : Nat → PollFlags) : Network ε :=
  { net with
    fds := net.fds.map fun pfd => { pfd with revents := revents pfd.fd }
    fdscanpos := sizePred net.nfds }

theorem polled_nfds (net : Network ε) (revents : Nat → PollFlags) :
    (polled net revents).nfds = net.nfds := by
  simp [polled, Network.nfds]

theorem polled_pollfd (revents : Nat → PollFlags) {j : Nat}
    (below : j < net.nfds) : (polled net revents).pollfd j =
      { net.pollfd j with revents := revents (net.pollfd j).fd } := by
  have within : j < net.fds.length := below
  simp [polled, Network.pollfd, within]

theorem polled_invariant (invariant : Invariant net)
    {revents : Nat → PollFlags}
    (sound : ∀ pfd ∈ net.fds, (revents pfd.fd).pollnval = false ∧
      ∀ op, (revents pfd.fd).has op = true → pfd.events.has op = true) :
    Invariant (polled net revents) := by
  have nfdsEq := polled_nfds net revents
  have pollfdEq : ∀ {j}, j < net.nfds → _ := polled_pollfd revents
  constructor
  · intro j below
    rw [nfdsEq] at below
    rw [pollfdEq below]
    exact invariant.inside j below
  · intro j below
    rw [nfdsEq] at below
    rw [pollfdEq below]
    exact invariant.back j below
  · intro i below
    rw [nfdsEq] at below
    rw [pollfdEq below]
    exact invariant.forth i below
  · intro i op some
    rw [nfdsEq]
    exact invariant.listed i op some
  · exact invariant.unlisted
  · intro j below op
    rw [nfdsEq] at below
    rw [pollfdEq below]
    exact invariant.masks j below op
  · intro j below
    rw [nfdsEq] at below
    rw [pollfdEq below]
    exact invariant.only j below
  · intro j below op
    rw [nfdsEq] at below
    rw [pollfdEq below]
    exact (sound _ (pollfd_mem below)).2 op
  · intro j below
    rw [nfdsEq] at below
    rw [pollfdEq below]
    exact (sound _ (pollfd_mem below)).1
  · rw [nfdsEq]
    exact invariant.fits
  · exact invariant.allocated
  · intro fresh
    exact List.map_eq_nil_iff.mpr (invariant.fresh fresh)

/-- How `events_network_select` ends. -/
inductive Selects (net : Network ε) : Int × Network ε → Prop where
  | failed {after : Network ε} (invariant : Invariant after)
      (same : SameTables net after) : Selects net (-1, after)
  | interrupted {after : Network ε} (invariant : Invariant after)
      (same : SameTables net after) : Selects net (0, after)
  | ready {start : Network ε} {revents : Nat → PollFlags}
      (invariant : Invariant start) (same : SameTables net start)
      (initialized : start.S ≠ none)
      (sound : ∀ pfd ∈ start.fds, (revents pfd.fd).pollnval = false ∧
        ∀ op, (revents pfd.fd).has op = true → pfd.events.has op = true) :
      Selects net (0, polled start revents)

theorem eventsNetworkSelect_selects (invariant : Invariant net)
    (allocs : Allocs) {poll : List Pollfd → Int → PollResult}
    (sound : PollSound poll) (tv : Option Timeval) :
    Selects net (eventsNetworkSelect allocs poll tv net) := by
  obtain ⟨invariantInit, sameInit, initialized, _⟩ :=
    init_spec invariant allocs
  unfold eventsNetworkSelect
  generalize init allocs net = started at *
  obtain ⟨status, start⟩ := started
  dsimp only at *
  by_cases failed : status = 0
  · rw [if_neg (not_not.mpr failed)]
    cases answer : poll start.fds (pollTimeout tv) with
    | failed => exact Selects.failed invariantInit sameInit
    | interrupted =>
        have same : SameTables start
            { start with fdscanpos := sizePred start.nfds } :=
          ⟨fun _ => rfl, rfl, le_rfl⟩
        exact Selects.interrupted
          (same.invariant invariantInit invariantInit.fits
            invariantInit.allocated invariantInit.fresh)
          (sameInit.trans same)
    | ready revents =>
        exact Selects.ready invariantInit sameInit (initialized failed)
          (sound start.fds _ revents answer)
  · rw [if_pos failed]
    exact Selects.failed invariantInit sameInit

theorem Selects.invariant {result : Int × Network ε}
    (selects : Selects net result) : Invariant result.2 := by
  cases selects with
  | failed invariant same => exact invariant
  | interrupted invariant same => exact invariant
  | ready invariant same initialized sound =>
      exact polled_invariant invariant sound

theorem Selects.registered {result : Int × Network ε}
    (selects : Selects net result) :
    registered result.2 = registered net := by
  cases selects with
  | failed invariant same => exact same.registered
  | interrupted invariant same => exact same.registered
  | ready invariant same initialized sound => exact same.registered

/-! ## `events_network_get` -/

/-- The scan will find the event of an operation at an entry. -/
def Ready (pfd : Pollfd) (op : NetworkOp) : Prop :=
  pfd.revents.has op = true ∨
    (pfd.revents.pollerr || pfd.revents.pollhup) = true ∧
      pfd.events.has op = true

theorem expandErrors_ready (pfd : Pollfd) (op : NetworkOp) :
    Ready (expandErrors pfd) op ↔ Ready pfd op := by
  unfold expandErrors
  split_ifs with errors
  · cases op <;>
      simp only [Ready, PollFlags.union, PollFlags.has, errors,
        Bool.or_eq_true] <;>
      tauto
  · rfl

/-- The same tables, with errors expanded in some of the entries. -/
structure Scanned (net after : Network ε) : Prop where
  sock : after.sock = net.sock
  nfds : after.nfds = net.nfds
  fd : ∀ j, (after.pollfd j).fd = (net.pollfd j).fd
  ready : ∀ j op, Ready (after.pollfd j) op ↔ Ready (net.pollfd j) op
  sockets : after.S = net.S

theorem Scanned.trans {middle after : Network ε}
    (first : Scanned net middle) (second : Scanned middle after) :
    Scanned net after where
  sock := second.sock.trans first.sock
  nfds := second.nfds.trans first.nfds
  fd j := (second.fd j).trans (first.fd j)
  ready j op := (second.ready j op).trans (first.ready j op)
  sockets := second.sockets.trans first.sockets

theorem Scanned.registered {after : Network ε}
    (scanned : Scanned net after) : registered after = registered net := by
  funext i op
  exact congrArg (fun sock => (sock i).event op) scanned.sock

/-- Expand the errors in one entry. -/
def expandAt (net : Network ε) (pos : Nat) : Network ε :=
  net.setPollfd pos (expandErrors (net.pollfd pos))

theorem expandErrors_rest (pfd : Pollfd) :
    (expandErrors pfd).fd = pfd.fd ∧
      (expandErrors pfd).events = pfd.events := by
  unfold expandErrors
  split_ifs <;> exact ⟨rfl, rfl⟩

/-- No error remains, so that the entry is ready as its flags say. -/
theorem expandErrors_has (pfd : Pollfd) (only : EventsOnly pfd.events)
    (op : NetworkOp) :
    (expandErrors pfd).revents.has op = true ↔ Ready pfd op := by
  obtain ⟨noErr, noHup, _⟩ := only
  unfold expandErrors Ready
  split_ifs with errors
  · simp [errors, has_union]
    cases op <;> simp [PollFlags.has]
  · simp [errors]

section ExpandAt

variable {pos : Nat} (below : pos < net.nfds)
include below

theorem expandAt_pollfd (j : Nat) : (expandAt net pos).pollfd j =
    if j = pos then expandErrors (net.pollfd j) else net.pollfd j := by
  refine (pollfd_setPollfd below _ j).trans ?_
  split_ifs with here
  · rw [here]
  · rfl

theorem expandAt_scanned : Scanned net (expandAt net pos) where
  sock := rfl
  nfds := nfds_setPollfd _ _
  fd j := by
    rw [expandAt_pollfd below]
    split_ifs
    · exact (expandErrors_rest _).1
    · rfl
  ready j op := by
    rw [expandAt_pollfd below]
    split_ifs
    · exact expandErrors_ready _ op
    · rfl
  sockets := rfl

theorem expandAt_invariant (invariant : Invariant net) :
    Invariant (expandAt net pos) := by
  have scanned := expandAt_scanned below
  have pollfdEq := expandAt_pollfd below
  have eventsEq : ∀ j, ((expandAt net pos).pollfd j).events =
      (net.pollfd j).events := by
    intro j
    rw [pollfdEq]
    split_ifs
    · exact (expandErrors_rest _).2
    · rfl
  constructor
  · intro j jBelow
    rw [scanned.fd]
    exact invariant.inside j (scanned.nfds ▸ jBelow)
  · intro j jBelow
    rw [scanned.fd]
    exact invariant.back j (scanned.nfds ▸ jBelow)
  · intro i iBelow
    rw [scanned.fd]
    exact invariant.forth i (scanned.nfds ▸ iBelow)
  · intro i op some
    rw [scanned.nfds]
    exact invariant.listed i op some
  · exact invariant.unlisted
  · intro j jBelow op
    rw [scanned.fd, eventsEq]
    exact invariant.masks j (scanned.nfds ▸ jBelow) op
  · intro j jBelow
    rw [eventsEq]
    exact invariant.only j (scanned.nfds ▸ jBelow)
  · intro j jBelow op
    rw [scanned.nfds] at jBelow
    rw [eventsEq, pollfdEq]
    split_ifs with here
    · rw [expandErrors_has _ (invariant.only j jBelow)]
      rintro (isReady | ⟨_, wanted⟩)
      · exact invariant.wanted j jBelow op isReady
      · exact wanted
    · exact invariant.wanted j jBelow op
  · intro j jBelow
    rw [scanned.nfds] at jBelow
    have valid := invariant.valid j jBelow
    obtain ⟨_, _, noInvalid⟩ := invariant.only j jBelow
    rw [pollfdEq]
    split_ifs
    · unfold expandErrors
      split_ifs
      · simp [PollFlags.union, valid, noInvalid]
      · exact valid
    · exact valid
  · rw [scanned.nfds]
    exact invariant.fits
  · exact invariant.allocated
  · intro fresh
    have empty := invariant.fresh fresh
    simp [Network.nfds, empty] at below

end ExpandAt

/-- How a scan of the loop from a position downwards ends. -/
inductive Gets (net : Network ε) (pos : Nat) :
    Option ε × Network ε → Prop where
  /-- The position is not one of the array. -/
  | beyond (outside : net.nfds ≤ pos) :
      Gets net pos (none, { net with fdscanpos := pos })
  /-- Nothing is ready up to the position. -/
  | finished {mid : Network ε} (inside : pos < net.nfds)
      (scanned : Scanned net mid) (invariant : Invariant mid)
      (idle : ∀ j ≤ pos, ∀ op, ¬ Ready (net.pollfd j) op) :
      Gets net pos (none, { mid with fdscanpos := SIZE_MAX })
  /-- An event is found, and it leaves. -/
  | found {mid : Network ε} {op : NetworkOp} {event : ε} {position : Nat}
      (inside : position < net.nfds) (bound : position ≤ pos)
      (scanned : Scanned net mid) (invariant : Invariant mid)
      (isReady : Ready (net.pollfd position) op)
      (isEvent : registered net (net.pollfd position).fd op = some event)
      (idle : ∀ j, position < j → j ≤ pos → ∀ op, ¬ Ready (net.pollfd j) op) :
      Gets net pos (some event,
        { dropEvent mid (net.pollfd position).fd op with fdscanpos := position })

/-- One iteration of the loop, at a position of the array. -/
theorem scanAt_eq (invariant : Invariant net) {pos : Nat}
    (below : pos < net.nfds) :
    ((∀ op, ¬ Ready (net.pollfd pos) op) ∧
      scanAt net pos = some (.inr (expandAt net pos))) ∨
    ∃ op event, Ready (net.pollfd pos) op ∧
      registered net (net.pollfd pos).fd op = some event ∧
      scanAt net pos = some (.inl (some event,
        dropEvent (expandAt net pos) (net.pollfd pos).fd op)) := by
  have scanned := expandAt_scanned below
  have expanded := expandAt_invariant below invariant
  have pollfdEq : (expandAt net pos).pollfd pos =
      expandErrors (net.pollfd pos) := by
    rw [expandAt_pollfd below, if_pos rfl]
  have has := expandErrors_has _ (invariant.only pos below)
  have noInvalid := invariant.valid pos below
  -- A ready event is registered, and it is the one that is taken.
  have taken : ∀ op, Ready (net.pollfd pos) op →
      ∃ event, registered net (net.pollfd pos).fd op = some event ∧
        takeEvent (expandAt net pos) pos op = (some event,
          dropEvent (expandAt net pos) (net.pollfd pos).fd op) := by
    intro op isReady
    have belowExpanded : pos < (expandAt net pos).nfds :=
      scanned.nfds ▸ below
    have flag : ((expandAt net pos).pollfd pos).revents.has op = true := by
      rw [pollfdEq, has]
      exact isReady
    have wanted := expanded.wanted pos belowExpanded op flag
    rw [← expanded.masks pos belowExpanded, scanned.fd,
      scanned.registered] at wanted
    obtain ⟨event, isEvent⟩ := Option.isSome_iff_exists.mp wanted
    refine ⟨event, isEvent, ?_⟩
    unfold takeEvent dropEvent
    rw [scanned.fd]
    have back := expanded.back pos belowExpanded
    rw [scanned.fd] at back
    rw [back]
    exact congrArg (fun event => (event, _)) isEvent
  have scanEq : scanAt net pos =
      if (net.pollfd pos).revents.pollnval then none
      else if (expandErrors (net.pollfd pos)).revents.has .read then
        some (.inl (takeEvent (expandAt net pos) pos .read))
      else if (expandErrors (net.pollfd pos)).revents.has .write then
        some (.inl (takeEvent (expandAt net pos) pos .write))
      else some (.inr (expandAt net pos)) := rfl
  rw [scanEq, if_neg (by simp [noInvalid])]
  by_cases readReady : Ready (net.pollfd pos) .read
  · obtain ⟨event, isEvent, take⟩ := taken .read readReady
    rw [if_pos ((has .read).mpr readReady), take]
    exact Or.inr ⟨.read, event, readReady, isEvent, rfl⟩
  rw [if_neg fun flag => readReady ((has .read).mp flag)]
  by_cases writeReady : Ready (net.pollfd pos) .write
  · obtain ⟨event, isEvent, take⟩ := taken .write writeReady
    rw [if_pos ((has .write).mpr writeReady), take]
    exact Or.inr ⟨.write, event, writeReady, isEvent, rfl⟩
  rw [if_neg fun flag => writeReady ((has .write).mp flag)]
  refine Or.inl ⟨?_, rfl⟩
  intro op
  cases op with
  | read => exact readReady
  | write => exact writeReady

theorem scanFrom_gets (invariant : Invariant net) (pos : Nat) :
    ∃ result, scanFrom pos net = some result ∧ Gets net pos result := by
  induction pos generalizing net with
  | zero =>
      unfold scanFrom
      by_cases below : 0 < net.nfds
      · rw [if_pos below]
        rcases scanAt_eq invariant below with
          ⟨idle, result⟩ | ⟨op, event, isReady, isEvent, result⟩
        · rw [result]
          refine ⟨_, rfl, Gets.finished below (expandAt_scanned below)
            (expandAt_invariant below invariant) ?_⟩
          intro j atZero
          rw [Nat.le_zero.mp atZero]
          exact idle
        · rw [result]
          refine ⟨_, rfl, Gets.found below le_rfl (expandAt_scanned below)
            (expandAt_invariant below invariant) isReady isEvent ?_⟩
          intro j above atMost
          omega
      · rw [if_neg below]
        exact ⟨_, rfl, Gets.beyond (not_lt.mp below)⟩
  | succ pos next =>
      unfold scanFrom
      by_cases below : pos + 1 < net.nfds
      · rw [if_pos below]
        have scanned := expandAt_scanned below
        have expanded := expandAt_invariant below invariant
        rcases scanAt_eq invariant below with
          ⟨idle, result⟩ | ⟨op, event, isReady, isEvent, result⟩
        · rw [result]
          have idleFrom : ∀ lower, (∀ j, lower < j → j ≤ pos → ∀ op,
              ¬ Ready ((expandAt net (pos + 1)).pollfd j) op) →
              ∀ j, lower < j → j ≤ pos + 1 → ∀ op,
                ¬ Ready (net.pollfd j) op := by
            intro lower rest j above atMost op
            rcases Nat.le_succ_iff.mp atMost with further | here
            · exact fun isReady =>
                rest j above further op ((scanned.ready j op).mpr isReady)
            · rw [here]
              exact idle op
          obtain ⟨result, equal, gets⟩ := next expanded
          refine ⟨result, equal, ?_⟩
          cases gets with
          | beyond outside =>
              rw [scanned.nfds] at outside
              omega
          | finished inside scanned' invariant' idle' =>
              refine Gets.finished below (scanned.trans scanned')
                invariant' ?_
              intro j atMost op isReady
              rcases Nat.le_succ_iff.mp atMost with further | here
              · exact idle' j further op ((scanned.ready j op).mpr isReady)
              · rw [here] at isReady
                exact idle op isReady
          | found inside bound scanned' invariant' isReady isEvent idle' =>
              rw [scanned.nfds] at inside
              rw [scanned.fd] at isEvent ⊢
              rw [scanned.registered] at isEvent
              exact Gets.found inside (by omega) (scanned.trans scanned')
                invariant' ((scanned.ready _ _).mp isReady) isEvent
                (idleFrom _ idle')
        · rw [result]
          refine ⟨_, rfl, Gets.found below le_rfl scanned expanded
            isReady isEvent ?_⟩
          intro j above atMost
          omega
      · rw [if_neg below]
        exact ⟨_, rfl, Gets.beyond (not_lt.mp below)⟩

/-- `events_network_get` never fails an assertion. -/
theorem eventsNetworkGet_gets (invariant : Invariant net) :
    ∃ result, eventsNetworkGet net = some result ∧
      Gets net net.fdscanpos result :=
  scanFrom_gets invariant net.fdscanpos

end Libcperciva.Events.NetworkCalls
