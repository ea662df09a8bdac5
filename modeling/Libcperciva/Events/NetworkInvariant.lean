import Libcperciva.Events.NetworkModel
import Mathlib.Tactic.Common

/-!
# The invariants of the network event tables

The list of sockets and the array of poll structures point at each other.
The operations are seen through `sock`, `pollfd` and `nfds`: each static
function has a lemma that says which entries it changes, and the invariants
follow from these lemmas alone.
-/

namespace Libcperciva.Events.NetworkInvariant

open Libcperciva.Events.NetworkModel

variable {ε : Type*} {net : Network ε}

/-- The event registered for a descriptor and an operation. -/
def registered (net : Network ε) (fd : Nat) (op : NetworkOp) : Option ε :=
  (net.sock fd).event op

/-! ## Flags and records -/

theorem has_clear (flags : PollFlags) (op other : NetworkOp) :
    (flags.clear op).has other = (flags.has other && op != other) := by
  cases op <;> cases other <;> simp [PollFlags.clear, PollFlags.has]

theorem has_set (flags : PollFlags) (op other : NetworkOp) :
    (flags.set op).has other = (flags.has other || op == other) := by
  cases op <;> cases other <;> simp [PollFlags.set, PollFlags.has]

theorem has_union (left right : PollFlags) (op : NetworkOp) :
    (left.union right).has op = (left.has op || right.has op) := by
  cases op <;> rfl

/-- The flags of `events`: those of the operations and no other. -/
def EventsOnly (flags : PollFlags) : Prop :=
  flags.pollerr = false ∧ flags.pollhup = false ∧ flags.pollnval = false

theorem eventsOnly_clear {flags : PollFlags} (only : EventsOnly flags)
    (op : NetworkOp) : EventsOnly (flags.clear op) := by
  cases op <;> exact only

theorem eventsOnly_set {flags : PollFlags} (only : EventsOnly flags)
    (op : NetworkOp) : EventsOnly (flags.set op) := by
  cases op <;> exact only

theorem eq_empty_iff {flags : PollFlags} (only : EventsOnly flags) :
    flags = {} ↔ ∀ op, flags.has op = false := by
  obtain ⟨pollin, pollout, pollerr, pollhup, pollnval⟩ := flags
  obtain ⟨rfl, rfl, rfl⟩ := only
  constructor
  · intro empty op
    rw [empty]
    cases op <;> rfl
  · intro none
    have noRead : pollin = false := none .read
    have noWrite : pollout = false := none .write
    rw [noRead, noWrite]

@[simp]
theorem event_setEvent (rec : Socketrec ε) (op other : NetworkOp)
    (event : Option ε) :
    (rec.setEvent op event).event other =
      if op = other then event else rec.event other := by
  cases op <;> cases other <;> simp [Socketrec.setEvent, Socketrec.event]

@[simp]
theorem pollpos_setEvent (rec : Socketrec ε) (op : NetworkOp)
    (event : Option ε) :
    (rec.setEvent op event).pollpos = rec.pollpos := by
  cases op <;> rfl

@[simp]
theorem event_pollpos (rec : Socketrec ε) (pollpos : Nat) (op : NetworkOp) :
    ({ rec with pollpos } : Socketrec ε).event op = rec.event op := by
  cases op <;> rfl

@[simp]
theorem event_new (op : NetworkOp) : (Socketrec.new ε).event op = none := by
  cases op <;> rfl

/-! ## Views of the primitive updates -/

@[simp]
theorem size_modifySock (net : Network ε) (i : Nat) (update : Socketrec ε → Socketrec ε) :
    (net.modifySock i update).size = net.size := by
  cases list : net.S <;> simp [Network.modifySock, Network.size, list]

theorem sock_modifySock {net : Network ε} {i : Nat} (below : i < net.size)
    (update : Socketrec ε → Socketrec ε) (k : Nat) :
    (net.modifySock i update).sock k =
      if k = i then update (net.sock k) else net.sock k := by
  cases list : net.S with
  | none => simp [Network.size, list] at below
  | some socks =>
      simp only [Network.size, list, Option.getD_some] at below
      by_cases same : k = i
      · subst k
        simp [Network.modifySock, Network.sock, list, below]
      · simp [Network.modifySock, Network.sock, list, same, Ne.symm same]

@[simp]
theorem pollfd_modifySock (i : Nat) (update : Socketrec ε → Socketrec ε)
    (j : Nat) : (net.modifySock i update).pollfd j = net.pollfd j :=
  rfl

@[simp]
theorem nfds_modifySock (i : Nat) (update : Socketrec ε → Socketrec ε) :
    (net.modifySock i update).nfds = net.nfds :=
  rfl

@[simp]
theorem sock_setPollfd (j : Nat) (pfd : Pollfd) (i : Nat) :
    (net.setPollfd j pfd).sock i = net.sock i :=
  rfl

@[simp]
theorem size_setPollfd (j : Nat) (pfd : Pollfd) :
    (net.setPollfd j pfd).size = net.size :=
  rfl

@[simp]
theorem nfds_setPollfd (j : Nat) (pfd : Pollfd) :
    (net.setPollfd j pfd).nfds = net.nfds := by
  simp [Network.setPollfd, Network.nfds]

theorem pollfd_setPollfd {j : Nat} (below : j < net.nfds) (pfd : Pollfd)
    (k : Nat) :
    (net.setPollfd j pfd).pollfd k =
      if k = j then pfd else net.pollfd k := by
  have below' : j < net.fds.length := below
  by_cases same : k = j
  · subst k
    simp [Network.setPollfd, Network.pollfd, below']
  · simp [Network.setPollfd, Network.pollfd, same,
      List.getElem?_set_ne (Ne.symm same)]

/-! ## The invariants -/

/-- Invariants 1 to 5 of the source, as documented there. -/
structure Documented (net : Network ε) : Prop where
  /-- `S[i].pollpos < nfds ==> fds[S[i].pollpos].fd == i` -/
  forth : ∀ i, (net.sock i).pollpos < net.nfds →
    (net.pollfd (net.sock i).pollpos).fd = i
  /-- `j < nfds ==> S[fds[j].fd].pollpos == j` -/
  back : ∀ j < net.nfds, (net.sock (net.pollfd j).fd).pollpos = j
  /-- A descriptor with a reader or a writer is in the right place. -/
  listed : ∀ i op, registered net i op ≠ none →
    (net.sock i).pollpos < net.nfds
  /-- A descriptor without events is not in the way. -/
  unlisted : ∀ i, (∀ op, registered net i op = none) →
    (net.sock i).pollpos = SIZE_MAX
  /-- Descriptors with events registered have the right masks. -/
  masks : ∀ i op, registered net i op ≠ none ↔
    (net.sock i).pollpos < net.nfds ∧
      (net.pollfd (net.sock i).pollpos).events.has op = true
  /-- We don't have events ready which we don't want. -/
  wanted : ∀ j < net.nfds, ∀ op, (net.pollfd j).revents.has op = true →
    (net.pollfd j).events.has op = true

/-- What holds of the tables between calls. -/
structure Invariant (net : Network ε) : Prop where
  inside : ∀ j < net.nfds, (net.pollfd j).fd < net.size
  back : ∀ j < net.nfds, (net.sock (net.pollfd j).fd).pollpos = j
  forth : ∀ i, (net.sock i).pollpos < net.nfds →
    (net.pollfd (net.sock i).pollpos).fd = i
  listed : ∀ i op, registered net i op ≠ none →
    (net.sock i).pollpos < net.nfds
  unlisted : ∀ i, (∀ op, registered net i op = none) →
    (net.sock i).pollpos = SIZE_MAX
  masks : ∀ j < net.nfds, ∀ op,
    (registered net (net.pollfd j).fd op).isSome =
      (net.pollfd j).events.has op
  only : ∀ j < net.nfds, EventsOnly (net.pollfd j).events
  wanted : ∀ j < net.nfds, ∀ op, (net.pollfd j).revents.has op = true →
    (net.pollfd j).events.has op = true
  valid : ∀ j < net.nfds, (net.pollfd j).revents.pollnval = false
  fits : net.nfds ≤ net.fdsAlloc ∧ net.fdsAlloc ≤ SIZE_MAX / sizeofPollfd
  allocated : net.S ≠ none → 16 ≤ net.fdsAlloc
  fresh : net.S = none → net.fds = []

theorem Invariant.nfds_lt (invariant : Invariant net) :
    net.nfds < SIZE_MAX := by
  have fits := invariant.fits
  unfold SIZE_MAX sizeofPollfd at *
  omega

/-- A descriptor that is not in the array has no events. -/
theorem Invariant.registered_none (invariant : Invariant net) {i : Nat}
    (notListed : (net.sock i).pollpos = SIZE_MAX) (op : NetworkOp) :
    registered net i op = none := by
  by_contra some
  have below := invariant.listed i op some
  have := invariant.nfds_lt
  omega

theorem Invariant.documented (invariant : Invariant net) :
    Documented net where
  forth := invariant.forth
  back := invariant.back
  listed := invariant.listed
  unlisted := invariant.unlisted
  masks i op := by
    constructor
    · intro some
      have below := invariant.listed i op some
      refine ⟨below, ?_⟩
      rw [← invariant.masks _ below, invariant.forth i below]
      exact Option.isSome_iff_ne_none.mpr some
    · rintro ⟨below, flag⟩
      rw [← invariant.masks _ below, invariant.forth i below] at flag
      exact Option.isSome_iff_ne_none.mp flag
  wanted := invariant.wanted

end Libcperciva.Events.NetworkInvariant
