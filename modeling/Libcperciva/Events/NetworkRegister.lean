import Libcperciva.Events.NetworkOps
import Mathlib.Data.List.GetD

/-!
# Registering a network event

`events_network_register` may create the tables, grow both of them and add a
poll structure before the event enters.  `Entered` says what the tables look
like afterwards, in terms of the views of the tables alone.
-/

namespace Libcperciva.Events.NetworkRegister

open Libcperciva.Events.NetworkModel
open Libcperciva.Events.NetworkInvariant
open Libcperciva.Events.NetworkOps

variable {ε : Type*} {net : Network ε}

/-! ## Growing the tables -/

/-- Equal tables, up to records of sockets that have no events. -/
structure SameTables (net after : Network ε) : Prop where
  sock : ∀ i, after.sock i = net.sock i
  fds : after.fds = net.fds
  size : net.size ≤ after.size

theorem SameTables.refl (net : Network ε) : SameTables net net :=
  ⟨fun _ => rfl, rfl, le_rfl⟩

theorem SameTables.trans {middle after : Network ε}
    (first : SameTables net middle) (second : SameTables middle after) :
    SameTables net after where
  sock i := (second.sock i).trans (first.sock i)
  fds := second.fds.trans first.fds
  size := first.size.trans second.size

theorem SameTables.registered {after : Network ε}
    (same : SameTables net after) : registered after = registered net := by
  funext i op
  exact congrArg (fun rec => rec.event op) (same.sock i)

theorem SameTables.pollfd {after : Network ε}
    (same : SameTables net after) : after.pollfd = net.pollfd := by
  funext j
  exact congrArg (fun fds => fds.getD j default) same.fds

theorem SameTables.nfds {after : Network ε}
    (same : SameTables net after) : after.nfds = net.nfds :=
  congrArg List.length same.fds

theorem SameTables.invariant {after : Network ε}
    (same : SameTables net after) (invariant : Invariant net)
    (fits : net.nfds ≤ after.fdsAlloc ∧
      after.fdsAlloc ≤ SIZE_MAX / sizeofPollfd)
    (allocated : after.S ≠ none → 16 ≤ after.fdsAlloc)
    (fresh : after.S = none → net.fds = []) : Invariant after where
  inside := by
    rw [same.nfds, same.pollfd]
    exact fun j below => (invariant.inside j below).trans_le same.size
  back := by
    rw [same.nfds, same.pollfd]
    simpa only [same.sock] using invariant.back
  forth := by
    rw [same.nfds, same.pollfd]
    simpa only [same.sock] using invariant.forth
  listed := by
    rw [same.nfds, same.registered]
    simpa only [same.sock] using invariant.listed
  unlisted := by
    rw [same.registered]
    simpa only [same.sock] using invariant.unlisted
  masks := by
    rw [same.nfds, same.pollfd, same.registered]
    exact invariant.masks
  only := by
    rw [same.nfds, same.pollfd]
    exact invariant.only
  wanted := by
    rw [same.nfds, same.pollfd]
    exact invariant.wanted
  valid := by
    rw [same.nfds, same.pollfd]
    exact invariant.valid
  fits := same.nfds.symm ▸ fits
  allocated := allocated
  fresh := fun none => same.fds.trans (fresh none)

/-- `init` leaves the tables as they are; if it succeeds there are some. -/
theorem init_spec (invariant : Invariant net) (allocs : Allocs) :
    Invariant (init allocs net).2 ∧
      SameTables net (init allocs net).2 ∧
      ((init allocs net).1 = 0 → (init allocs net).2.S ≠ none) ∧
      (net.S ≠ none → (init allocs net).2 = net) := by
  unfold init
  cases sockets : net.S with
  | some list =>
      exact ⟨invariant, SameTables.refl net, by simp [sockets], by simp⟩
  | none =>
      have empty := invariant.fresh sockets
      have sixteenFits : 16 ≤ SIZE_MAX / sizeofPollfd := by decide
      have sockNew : ∀ i, net.sock i = Socketrec.new ε := by
        simp [Network.sock, sockets]
      have sizeZero : net.size = 0 := by
        simp [Network.size, sockets]
      dsimp only
      split_ifs with noList noAtexit noFds
      · exact ⟨invariant, SameTables.refl net, by simp, by simp⟩
      · exact ⟨invariant, SameTables.refl net, by simp, by simp⟩
      · have same : SameTables net
            ⟨none, [], 16, 0⟩ :=
          ⟨fun i => (sockNew i).symm, empty.symm, sizeZero.le⟩
        refine ⟨same.invariant invariant ?_ (fun _ => le_rfl) fun _ => empty,
          same, by simp, by simp⟩
        simp [Network.nfds, empty, sixteenFits]
      · have same : SameTables net
            ⟨some [], [], 16, 0⟩ :=
          ⟨fun i => (sockNew i).symm, empty.symm, sizeZero.le⟩
        refine ⟨same.invariant invariant ?_ (fun _ => le_rfl) fun _ => empty,
          same, by simp, by simp⟩
        simp [Network.nfds, empty, sixteenFits]

theorem init_failed {allocs : Allocs} (failed : (init allocs net).1 ≠ 0) :
    allocs ≠ {} := by
  rintro rfl
  unfold init at failed
  cases sockets : net.S with
  | some list => simp [sockets] at failed
  | none => simp [sockets] at failed

theorem growsocketlist_failed {allocs : Allocs} {nrec : Nat}
    (failed : (growsocketlist allocs net nrec).1 ≠ 0) : allocs ≠ {} := by
  rintro rfl
  exact failed rfl

theorem growsocketlist_spec (invariant : Invariant net)
    (initialized : net.S ≠ none) (allocs : Allocs) (nrec : Nat) :
    Invariant (growsocketlist allocs net nrec).2 ∧
      SameTables net (growsocketlist allocs net nrec).2 ∧
      (growsocketlist allocs net nrec).2.S ≠ none ∧
      (growsocketlist allocs net nrec).2.fdscanpos = net.fdscanpos ∧
      ((growsocketlist allocs net nrec).1 = 0 →
        nrec ≤ (growsocketlist allocs net nrec).2.size) := by
  obtain ⟨list, isList⟩ := Option.ne_none_iff_exists'.mp initialized
  unfold growsocketlist
  split_ifs with failed
  · exact ⟨invariant, SameTables.refl net, initialized, rfl, by simp⟩
  · rw [isList, Option.map_some]
    let grown :=
      list ++ List.replicate (nrec - list.length) (Socketrec.new ε)
    have same : SameTables net { net with S := some grown } := by
      refine ⟨?_, rfl, by simp [Network.size, isList, grown]⟩
      intro i
      simp only [Network.sock, isList, Option.getD_some, grown]
      by_cases below : i < list.length
      · rw [List.getElem?_append_left below]
      · rw [List.getElem?_append_right (by omega), List.getElem?_replicate]
        rw [List.getElem?_eq_none (by omega)]
        split_ifs <;> rfl
    refine ⟨same.invariant invariant invariant.fits
      (fun _ => invariant.allocated initialized) (by simp), same,
      by simp, rfl, ?_⟩
    intro _
    simp only [Network.size, Option.getD_some,
      List.length_append, List.length_replicate]
    omega

/-! ## An event enters -/

/-- The poll structure an event enters, before its flag is set. -/
def entry (net : Network ε) (fd pos : Nat) : Pollfd :=
  if pos < net.nfds then net.pollfd pos else ⟨fd, {}, {}⟩

/-- The tables after an event has entered them at a position. -/
structure Entered (net after : Network ε) (fd : Nat) (op : NetworkOp)
    (event : ε) (pos : Nat) : Prop where
  place : (pos = (net.sock fd).pollpos ∧ pos < net.nfds ∧
      after.nfds = net.nfds) ∨
    (pos = net.nfds ∧ (net.sock fd).pollpos = SIZE_MAX ∧
      after.nfds = net.nfds + 1)
  pollfd : ∀ j < after.nfds, after.pollfd j =
    if j = pos then
      { entry net fd pos with events := (entry net fd pos).events.set op }
    else net.pollfd j
  sock : ∀ k, after.sock k =
    if k = fd then { (net.sock k).setEvent op (some event) with pollpos := pos }
    else net.sock k
  inside : fd < net.size
  size : after.size = net.size
  fits : after.nfds ≤ after.fdsAlloc ∧
    after.fdsAlloc ≤ SIZE_MAX / sizeofPollfd ∧ 16 ≤ after.fdsAlloc
  initialized : after.S ≠ none
  fdscanpos : after.fdscanpos = net.fdscanpos

section Entered

variable {after : Network ε} {fd : Nat} {op : NetworkOp} {event : ε}
  {pos : Nat}

theorem Entered.nfds_le (entered : Entered net after fd op event pos) :
    net.nfds ≤ after.nfds := by
  rcases entered.place with ⟨_, _, same⟩ | ⟨_, _, more⟩ <;> omega

theorem Entered.pos_lt (entered : Entered net after fd op event pos) :
    pos < after.nfds := by
  rcases entered.place with ⟨_, _, same⟩ | ⟨_, _, more⟩ <;> omega

/-- Apart from the entry itself, all positions were there before. -/
theorem Entered.old (entered : Entered net after fd op event pos) {j : Nat}
    (below : j < after.nfds) (elsewhere : j ≠ pos) : j < net.nfds := by
  rcases entered.place with ⟨_, _, same⟩ | ⟨_, _, more⟩ <;> omega

theorem Entered.registered (entered : Entered net after fd op event pos)
    (i : Nat) (o : NetworkOp) :
    registered after i o =
      if i = fd ∧ o = op then some event else registered net i o := by
  unfold NetworkInvariant.registered
  rw [entered.sock]
  by_cases here : i = fd
  · simp [here, eq_comm]
  · simp [here]

theorem Entered.entry_fd (entered : Entered net after fd op event pos)
    (invariant : Invariant net) : (entry net fd pos).fd = fd := by
  unfold entry
  split_ifs with below
  · rcases entered.place with ⟨rfl, _, _⟩ | ⟨atEnd, _, _⟩
    · exact invariant.forth fd below
    · omega
  · rfl

theorem Entered.pollfd_fd (entered : Entered net after fd op event pos)
    (invariant : Invariant net) {j : Nat} (below : j < after.nfds) :
    (after.pollfd j).fd = if j = pos then fd else (net.pollfd j).fd := by
  rw [entered.pollfd j below]
  split_ifs
  · exact entered.entry_fd invariant
  · rfl

/-- The other entries are of other descriptors. -/
theorem Entered.other_fd (entered : Entered net after fd op event pos)
    (invariant : Invariant net) {j : Nat} (below : j < net.nfds)
    (elsewhere : j ≠ pos) : (net.pollfd j).fd ≠ fd := by
  intro same
  have back := invariant.back j below
  rw [same] at back
  have bound := invariant.nfds_lt
  rcases entered.place with ⟨atPos, _, _⟩ | ⟨_, unlisted, _⟩ <;> omega

/-- The entry has the flags of the other events of the descriptor. -/
theorem Entered.entry_masks (entered : Entered net after fd op event pos)
    (invariant : Invariant net) (o : NetworkOp) :
    (entry net fd pos).events.has o =
      (NetworkInvariant.registered net fd o).isSome := by
  unfold entry
  split_ifs with below
  · rcases entered.place with ⟨atPos, _, _⟩ | ⟨atEnd, _, _⟩
    · rw [← invariant.masks pos below, atPos,
        invariant.forth fd (atPos ▸ below)]
    · omega
  · rcases entered.place with ⟨_, inside, _⟩ | ⟨_, unlisted, _⟩
    · exact absurd inside below
    · rw [invariant.registered_none unlisted]
      cases o <;> rfl

theorem entry_wanted (invariant : Invariant net) (fd pos : Nat) :
    EventsOnly (entry net fd pos).events ∧
      (∀ o, (entry net fd pos).revents.has o = true →
        (entry net fd pos).events.has o = true) ∧
      (entry net fd pos).revents.pollnval = false := by
  unfold entry
  split_ifs with below
  · exact ⟨invariant.only pos below, invariant.wanted pos below,
      invariant.valid pos below⟩
  · refine ⟨⟨rfl, rfl, rfl⟩, ?_, rfl⟩
    intro o
    cases o <;> exact id

theorem Entered.invariant (entered : Entered net after fd op event pos)
    (invariant : Invariant net) : Invariant after := by
  have bound := invariant.nfds_lt
  have pollfdFd := fun {j} => entered.pollfd_fd (j := j) invariant
  have masks := entered.entry_masks invariant
  obtain ⟨only, wanted, valid⟩ := entry_wanted invariant fd pos
  constructor
  · intro j below
    rw [pollfdFd below, entered.size]
    split_ifs with here
    · exact entered.inside
    · exact invariant.inside j (entered.old below here)
  · intro j below
    rw [pollfdFd below, entered.sock]
    by_cases here : j = pos
    · simp [here]
    · have old := entered.old below here
      rw [if_neg here, if_neg (entered.other_fd invariant old here)]
      exact invariant.back j old
  · intro i
    rw [entered.sock]
    split_ifs with isFd
    · intro below
      rw [pollfdFd below]
      simp [isFd]
    · intro below
      rw [pollfdFd below]
      have old : (net.sock i).pollpos < net.nfds := by
        rcases entered.place with ⟨_, _, same⟩ | ⟨_, _, more⟩
        · omega
        · by_contra beyond
          have none := invariant.registered_none (i := i)
          have notListed : (net.sock i).pollpos = SIZE_MAX := by
            apply invariant.unlisted
            intro o
            by_contra some
            exact beyond (invariant.listed i o some)
          omega
      have forth := invariant.forth i old
      split_ifs with here
      · rcases entered.place with ⟨atPos, inside, _⟩ | ⟨atEnd, _, _⟩
        · rw [here, atPos, invariant.forth fd (atPos ▸ inside)] at forth
          exact forth
        · omega
      · exact forth
  · intro i o some
    rw [entered.sock]
    split_ifs with isFd
    · exact entered.pos_lt
    · rw [entered.registered, if_neg (fun both => isFd both.1)] at some
      exact (invariant.listed i o some).trans_le entered.nfds_le
  · intro i none
    rw [entered.sock]
    have notFd : i ≠ fd := by
      rintro rfl
      have noneOp := none op
      rw [entered.registered, if_pos ⟨rfl, rfl⟩] at noneOp
      exact absurd noneOp (by simp)
    rw [if_neg notFd]
    apply invariant.unlisted
    intro o
    have noneAfter := none o
    rwa [entered.registered, if_neg (fun both => notFd both.1)] at noneAfter
  · intro j below o
    rw [pollfdFd below, entered.registered, entered.pollfd j below]
    by_cases here : j = pos
    · simp only [here, if_true, true_and, has_set, masks]
      by_cases sameOp : o = op
      · simp [sameOp]
      · simp [sameOp, Ne.symm sameOp]
    · have old := entered.old below here
      have other := entered.other_fd invariant old here
      rw [if_neg here, if_neg here, if_neg (fun both => other both.1)]
      exact invariant.masks j old o
  · intro j below
    rw [entered.pollfd j below]
    split_ifs with here
    · exact eventsOnly_set only op
    · exact invariant.only j (entered.old below here)
  · intro j below o
    rw [entered.pollfd j below]
    split_ifs with here
    · simp only [has_set, Bool.or_eq_true]
      exact fun isReady => Or.inl (wanted o isReady)
    · exact invariant.wanted j (entered.old below here) o
  · intro j below
    rw [entered.pollfd j below]
    split_ifs with here
    · exact valid
    · exact invariant.valid j (entered.old below here)
  · exact ⟨entered.fits.1, entered.fits.2.1⟩
  · exact fun _ => entered.fits.2.2
  · exact fun none => absurd none entered.initialized

end Entered

/-! ## `events_network_register` -/

/-- A pointer set and reset to NULL leaves the tables as they were. -/
theorem sameTables_undo {fd : Nat} {op : NetworkOp} (event : ε)
    (inside : fd < net.size) (free : registered net fd op = none) :
    SameTables net ((net.modifySock fd fun rec =>
      rec.setEvent op (some event)).modifySock fd fun rec =>
        rec.setEvent op none) where
  sock k := by
    rw [sock_modifySock (by simpa using inside), sock_modifySock inside]
    split_ifs with here
    · subst here
      change (net.sock k).event op = none at free
      cases op
      · change { net.sock k with reader := none } = net.sock k
        rw [← show (net.sock k).reader = none from free]
      · change { net.sock k with writer := none } = net.sock k
        rw [← show (net.sock k).writer = none from free]
    · rfl
  fds := rfl
  size := by simp

/-- There is no room for another poll structure. -/
def Full (allocs : Allocs) (net : Network ε) : Prop :=
  allocs ≠ {} ∨ SIZE_MAX / sizeofPollfd < 2 * net.nfds

/-- How `growpollfd` ends. -/
inductive Grown (allocs : Allocs) (net : Network ε) (fd : Nat) :
    Option (Int × Network ε) → Prop where
  | aborted (tooLarge : INT_MAX ≤ fd) : Grown allocs net fd none
  | failed (full : Full allocs net) : Grown allocs net fd (some (-1, net))
  | appended {fdsAlloc : Nat} (fits : net.nfds < fdsAlloc)
      (bounded : fdsAlloc ≤ SIZE_MAX / sizeofPollfd)
      (sixteen : 16 ≤ fdsAlloc) :
      Grown allocs net fd (some (0, appendPollfd { net with fdsAlloc } fd))

theorem growpollfd_grown (net : Network ε) {fd : Nat}
    (fits : net.nfds ≤ net.fdsAlloc ∧
      net.fdsAlloc ≤ SIZE_MAX / sizeofPollfd)
    (sixteen : 16 ≤ net.fdsAlloc)
    (notListed : (net.sock fd).pollpos = SIZE_MAX) (allocs : Allocs) :
    Grown allocs net fd (growpollfd allocs net fd) := by
  have modulus : SIZE_MAX / sizeofPollfd < 2 ^ 61 := by decide
  unfold growpollfd
  rw [if_neg (by simpa using notListed), if_neg (by omega)]
  have doubled : net.fdsAlloc * 2 % 2 ^ 64 = net.fdsAlloc * 2 := by omega
  simp only [doubled]
  by_cases refused : net.fdsAlloc = net.nfds ∧
      (net.fdsAlloc * 2 > SIZE_MAX / sizeofPollfd ∨
        allocs.fdsRealloc = false)
  · rw [if_pos refused]
    obtain ⟨full, tooLarge | noMemory⟩ := refused
    · exact Grown.failed (Or.inr (by omega))
    · refine Grown.failed (Or.inl ?_)
      rintro rfl
      cases noMemory
  · rw [if_neg refused]
    by_cases full : net.fdsAlloc = net.nfds
    · have room : net.nfds < net.fdsAlloc * 2 := by omega
      rw [if_pos full]
      change Grown allocs net fd (if ¬ net.nfds < net.fdsAlloc * 2 then none
        else if ¬ fd < INT_MAX then none
        else some (0, appendPollfd
          { net with fdsAlloc := net.fdsAlloc * 2 } fd))
      rw [if_neg (not_not.mpr room)]
      split_ifs with fdBelow
      · exact Grown.appended room (by omega) (by omega)
      · exact Grown.aborted (by omega)
    · have room : net.nfds < net.fdsAlloc := by omega
      rw [if_neg full, if_neg (not_not.mpr room)]
      split_ifs with fdBelow
      · exact Grown.appended room fits.2 sixteen
      · exact Grown.aborted (by omega)

/-- Why `events_network_register` fails. -/
inductive Refused (allocs : Allocs) (net : Network ε) (s op : Int) :
    Prop where
  | negative (below : s < 0)
  | invalid (noOp : networkOp op = none)
  | occupied {o : NetworkOp} (isOp : networkOp op = some o)
      (held : registered net s.toNat o ≠ none)
  | noRoom (full : Full allocs net)

/-- How `events_network_register` ends. -/
inductive Registers (allocs : Allocs) (net : Network ε) (event : ε)
    (s op : Int) : Option (Int × Network ε) → Prop where
  /-- The descriptor is `INT_MAX`, and an assertion fails. -/
  | aborted (tooLarge : INT_MAX ≤ s) : Registers allocs net event s op none
  | failed {after : Network ε} (cause : Refused allocs net s op)
      (invariant : Invariant after) (same : SameTables net after)
      (scanpos : net.S ≠ none → after.fdscanpos = net.fdscanpos) :
      Registers allocs net event s op (some (-1, after))
  | entered {grown after : Network ε} {o : NetworkOp} {pos : Nat}
      (isOp : networkOp op = some o) (isSocket : 0 ≤ s)
      (invariant : Invariant grown) (same : SameTables net grown)
      (scanpos : net.S ≠ none → grown.fdscanpos = net.fdscanpos)
      (free : registered grown s.toNat o = none)
      (entered : Entered grown after s.toNat o event pos) :
      Registers allocs net event s op (some (0, after))

section Enter

variable {fd : Nat} (inside : fd < net.size) (op : NetworkOp) (event : ε)
include inside

/-- The descriptor is in the array already. -/
theorem entered_listed (invariant : Invariant net)
    (initialized : net.S ≠ none) (listed : (net.sock fd).pollpos ≠ SIZE_MAX) :
    Entered net (setFlag (net.modifySock fd fun rec =>
      rec.setEvent op (some event)) fd op) fd op event
      (net.sock fd).pollpos := by
  have sockEq := sock_modifySock inside
    (fun rec : Socketrec ε => rec.setEvent op (some event))
  have below : (net.sock fd).pollpos < net.nfds := by
    by_contra beyond
    apply listed
    apply invariant.unlisted
    intro o
    by_contra some
    exact beyond (invariant.listed fd o some)
  unfold setFlag
  rw [sockEq, if_pos rfl, pollpos_setEvent]
  constructor
  · exact Or.inl ⟨rfl, below, by simp⟩
  · intro j _
    rw [pollfd_setPollfd (by simpa using below)]
    simp [entry, below]
  · intro k
    rw [sock_setPollfd, sockEq]
    split_ifs with here
    · subst here
      cases op <;> rfl
    · rfl
  · exact inside
  · simp
  · have fits := invariant.fits
    have sixteen := invariant.allocated initialized
    rw [nfds_setPollfd, nfds_modifySock]
    exact ⟨fits.1, fits.2, sixteen⟩
  · simpa [Network.modifySock, Network.setPollfd] using initialized
  · rfl

/-- A poll structure is added for the descriptor. -/
theorem entered_unlisted (initialized : net.S ≠ none)
    (unlisted : (net.sock fd).pollpos = SIZE_MAX) {fdsAlloc : Nat}
    (fits : net.nfds < fdsAlloc)
    (bounded : fdsAlloc ≤ SIZE_MAX / sizeofPollfd) (sixteen : 16 ≤ fdsAlloc) :
    Entered net (setFlag (appendPollfd { net.modifySock fd (fun rec =>
      rec.setEvent op (some event)) with fdsAlloc } fd) fd op) fd op event
      net.nfds := by
  let pointed : Network ε := { net.modifySock fd (fun rec =>
    rec.setEvent op (some event)) with fdsAlloc }
  have pointedSock : ∀ k, pointed.sock k = if k = fd then
      (net.sock k).setEvent op (some event) else net.sock k :=
    sock_modifySock inside _
  have pointedInside : fd < pointed.size :=
    inside.trans_eq (size_modifySock net _ _).symm
  have sockEq : ∀ k, (appendPollfd pointed fd).sock k =
      if k = fd then { (net.sock k).setEvent op (some event) with
        pollpos := net.nfds } else net.sock k := by
    intro k
    refine (sock_modifySock pointedInside _ k).trans ?_
    rw [pointedSock]
    split_ifs <;> rfl
  have nfdsEq : (appendPollfd pointed fd).nfds = net.nfds + 1 := by
    simp [appendPollfd, pointed, Network.nfds, Network.modifySock]
  have pollfdEq : ∀ j < net.nfds + 1, (appendPollfd pointed fd).pollfd j =
      if j = net.nfds then ⟨fd, {}, {}⟩ else net.pollfd j := by
    intro j below
    change (net.fds ++ [(⟨fd, {}, {}⟩ : Pollfd)]).getD j default = _
    split_ifs with atEnd
    · subst atEnd
      exact (List.getD_append_right _ _ _ _ le_rfl).trans (by simp)
    · have old : j < net.fds.length := by
        change j < net.nfds
        omega
      rw [List.getD_append _ _ _ _ old]
      rfl
  have pollposEq :
      ((appendPollfd pointed fd).sock fd).pollpos = net.nfds := by
    rw [sockEq, if_pos rfl]
  have below : net.nfds < net.nfds + 1 := by omega
  change Entered net (setFlag (appendPollfd pointed fd) fd op) _ _ _ _
  unfold setFlag
  rw [pollposEq]
  constructor
  · exact Or.inr ⟨rfl, unlisted, by rw [nfds_setPollfd, nfdsEq]⟩
  · have noEntry : entry net fd net.nfds = ⟨fd, {}, {}⟩ :=
      if_neg (lt_irrefl _)
    intro j jBelow
    rw [nfds_setPollfd, nfdsEq] at jBelow
    rw [pollfd_setPollfd (nfdsEq ▸ below), pollfdEq _ below, if_pos rfl,
      noEntry]
    split_ifs with atEnd
    · rfl
    · rw [pollfdEq j jBelow, if_neg atEnd]
  · intro k
    rw [sock_setPollfd, sockEq]
  · exact inside
  · exact (size_modifySock pointed _ _).trans (size_modifySock net _ _)
  · rw [nfds_setPollfd, nfdsEq]
    exact ⟨fits, bounded, sixteen⟩
  · simpa [setFlag, appendPollfd, pointed, Network.modifySock,
      Network.setPollfd] using initialized
  · rfl

end Enter

/-- The event enters tables which are large enough. -/
theorem registerEvent_registers (invariant : Invariant net)
    (initialized : net.S ≠ none) {fd : Nat} (inside : fd < net.size)
    (op : NetworkOp) (event : ε) (allocs : Allocs) :
    (registerEvent allocs net event fd op = none ∧ INT_MAX ≤ fd) ∨
      (∃ after, registerEvent allocs net event fd op = some (-1, after) ∧
        (registered net fd op ≠ none ∨ Full allocs net) ∧
        Invariant after ∧ SameTables net after ∧
        after.fdscanpos = net.fdscanpos) ∨
      (∃ after pos, registerEvent allocs net event fd op = some (0, after) ∧
        registered net fd op = none ∧
        Entered net after fd op event pos) := by
  unfold registerEvent
  by_cases occupied : ((net.sock fd).event op).isSome
  · rw [if_pos occupied]
    have held := Option.isSome_iff_ne_none.mp occupied
    exact Or.inr (Or.inl
      ⟨net, rfl, Or.inl held, invariant, SameTables.refl net, rfl⟩)
  have free : registered net fd op = none :=
    Option.not_isSome_iff_eq_none.mp occupied
  rw [if_neg occupied]
  by_cases refused : (!allocs.eventrec) = true
  · rw [if_pos refused]
    have noMemory : allocs ≠ {} := by
      rintro rfl
      cases refused
    exact Or.inr (Or.inl ⟨net, rfl, Or.inr (Or.inl noMemory), invariant,
      SameTables.refl net, rfl⟩)
  rw [if_neg refused]
  have pollposEq : ((net.modifySock fd fun rec =>
      rec.setEvent op (some event)).sock fd).pollpos =
      (net.sock fd).pollpos := by
    rw [sock_modifySock inside, if_pos rfl, pollpos_setEvent]
  have fits := invariant.fits
  have sixteen := invariant.allocated initialized
  by_cases unlisted : (net.sock fd).pollpos = SIZE_MAX
  · have grown := growpollfd_grown
      (net.modifySock fd fun rec => rec.setEvent op (some event))
      fits sixteen (pollposEq.trans unlisted) allocs
    simp only [pollposEq, unlisted, if_true]
    generalize growpollfd allocs _ fd = result at grown
    cases grown with
    | aborted tooLarge => exact Or.inl ⟨rfl, tooLarge⟩
    | failed full =>
        have same := sameTables_undo event inside free
        have undone := same.invariant invariant fits (fun _ => sixteen)
          (by simpa [Network.modifySock] using
            fun none => absurd none initialized)
        exact Or.inr (Or.inl ⟨_, rfl, Or.inr full, undone, same, rfl⟩)
    | appended room bounded sixteen =>
        have entered := entered_unlisted inside op event initialized
          unlisted room bounded sixteen
        exact Or.inr (Or.inr ⟨_, _, rfl, free, entered⟩)
  · simp only [pollposEq, unlisted, if_false]
    have entered := entered_listed inside op event invariant initialized
      unlisted
    exact Or.inr (Or.inr ⟨_, _, rfl, free, entered⟩)

/-- The list of sockets is large enough, or could not grow. -/
theorem enoughSockets (invariant : Invariant net)
    (initialized : net.S ≠ none) (allocs : Allocs) (s : Nat) :
    ∃ status grown,
      (if s ≥ net.size then growsocketlist allocs net (s + 1)
        else (0, net)) = (status, grown) ∧
      (status ≠ 0 → allocs ≠ {}) ∧ Invariant grown ∧
      SameTables net grown ∧ grown.S ≠ none ∧
      grown.fdscanpos = net.fdscanpos ∧ (status = 0 → s < grown.size) := by
  by_cases large : s ≥ net.size
  · rw [if_pos large]
    exact ⟨_, _, rfl, growsocketlist_failed,
      growsocketlist_spec invariant initialized allocs (s + 1)⟩
  · rw [if_neg large]
    exact ⟨_, _, rfl, absurd rfl, invariant, SameTables.refl net,
      initialized, rfl, fun _ => not_le.mp large⟩

/-- `events_network_register`: one event enters, or nothing changes. -/
theorem eventsNetworkRegister_registers (invariant : Invariant net)
    (allocs : Allocs) (event : ε) (s op : Int) :
    Registers allocs net event s op
      (eventsNetworkRegister allocs net event s op) := by
  obtain ⟨invariantInit, sameInit, initialized, unchanged⟩ :=
    init_spec invariant allocs
  have initFailed : (init allocs net).1 ≠ 0 → allocs ≠ {} := init_failed
  unfold eventsNetworkRegister
  generalize init allocs net = started at *
  obtain ⟨status, start⟩ := started
  have scanposInit : net.S ≠ none → start.fdscanpos = net.fdscanpos :=
    fun some => congrArg Network.fdscanpos (unchanged some)
  dsimp only at *
  have refused (cause : Refused allocs net s op) :
      Registers allocs net event s op (some (-1, start)) :=
    Registers.failed cause invariantInit sameInit scanposInit
  by_cases failed : status = 0
  swap
  · rw [if_pos failed]
    exact refused (Refused.noRoom (Or.inl (initFailed failed)))
  rw [if_neg (not_not.mpr failed)]
  by_cases negative : s < 0
  · rw [if_pos negative]
    exact refused (Refused.negative negative)
  rw [if_neg negative]
  cases isOp : networkOp op with
  | none => exact refused (Refused.invalid isOp)
  | some o =>
      obtain ⟨status, grown, grownEq, growFailed, invariantGrow, sameGrow,
          initializedGrow, scanposGrow, sized⟩ :=
        enoughSockets invariantInit (initialized failed) allocs s.toNat
      have same := sameInit.trans sameGrow
      have scanpos : net.S ≠ none → grown.fdscanpos = net.fdscanpos :=
        fun some => scanposGrow.trans (scanposInit some)
      rw [grownEq]
      dsimp only
      by_cases failedGrow : status = 0
      · rw [if_neg (not_not.mpr failedGrow)]
        rcases registerEvent_registers invariantGrow initializedGrow
            (sized failedGrow) o event allocs with
          ⟨result, tooLarge⟩ |
          ⟨after, result, cause, invariantAfter, sameAfter, scanposAfter⟩ |
          ⟨after, pos, result, free, entered⟩
        · rw [result]
          exact Registers.aborted (by omega)
        · rw [result]
          refine Registers.failed ?_ invariantAfter (same.trans sameAfter)
            fun some => scanposAfter.trans (scanpos some)
          rcases cause with held | full
          · rw [same.registered] at held
            exact Refused.occupied isOp held
          · unfold Full at full
            rw [same.nfds] at full
            exact Refused.noRoom full
        · rw [result]
          exact Registers.entered isOp (not_lt.mp negative) invariantGrow
            same scanpos free entered
      · rw [if_pos failedGrow]
        exact Registers.failed
          (Refused.noRoom (Or.inl (growFailed failedGrow))) invariantGrow
          same scanpos

end Libcperciva.Events.NetworkRegister
