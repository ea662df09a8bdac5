import Libcperciva.Events.NetworkInvariant

/-!
# What the operations do to the network event tables

An event leaves the tables in one way, whether it is cancelled or returned:
its pointer is cleared and `clearbit` is called for it.  An event enters them
through `events_network_register`.  Both keep the invariant and change one
registration; the other functions change no registration at all.
-/

namespace Libcperciva.Events.NetworkOps

open Libcperciva.Events.NetworkModel
open Libcperciva.Events.NetworkInvariant

variable {ε : Type*} {net : Network ε}

/-! ## Removing a poll structure -/

theorem pollfd_dropLast {j : Nat} (below : j < net.nfds - 1) :
    ({ net with fds := net.fds.dropLast } : Network ε).pollfd j =
      net.pollfd j := by
  have within : j < net.fds.length := by
    unfold Network.nfds at below
    omega
  have below' : j < net.fds.length - 1 := below
  simp [Network.pollfd, below', within]

/-- The entries after `removePollfd`: the last one has taken the place. -/
theorem removePollfd_views {pos : Nat}
    (below : pos < net.nfds)
    (inside : ∀ j < net.nfds, (net.pollfd j).fd < net.size) :
    (removePollfd net pos).nfds = net.nfds - 1 ∧
      (removePollfd net pos).size = net.size ∧
      (∀ j < net.nfds - 1, (removePollfd net pos).pollfd j =
        if j = pos then net.pollfd (net.nfds - 1) else net.pollfd j) ∧
      ∀ k, (removePollfd net pos).sock k =
        if pos ≠ net.nfds - 1 ∧ k = (net.pollfd (net.nfds - 1)).fd then
          { net.sock k with pollpos := pos }
        else if k = (net.pollfd pos).fd then
          { net.sock k with pollpos := SIZE_MAX }
        else net.sock k := by
  have lastBelow : net.nfds - 1 < net.nfds := by omega
  have posInside := inside pos below
  have lastInside := inside (net.nfds - 1) lastBelow
  unfold removePollfd
  by_cases atLast : pos = net.nfds - 1
  · simp only [ne_eq, atLast, not_true_eq_false, if_false, false_and]
    refine ⟨by simp [Network.nfds, Network.modifySock], ?_, ?_, ?_⟩
    · exact size_modifySock _ _ _
    · intro j jBelow
      rw [pollfd_dropLast (by simpa using jBelow), if_neg (by omega)]
      rfl
    · intro k
      exact sock_modifySock lastInside _ k
  · simp only [ne_eq, atLast, not_false_eq_true, if_true, true_and]
    refine ⟨?_, ?_, ?_, ?_⟩
    · simp [Network.nfds, Network.modifySock, Network.setPollfd]
    · exact (size_modifySock _ _ _).trans (size_modifySock _ _ _)
    · intro j jBelow
      rw [pollfd_dropLast (by simpa using jBelow)]
      exact pollfd_setPollfd (by simpa using below) _ j
    · intro k
      have first := sock_modifySock posInside
        (fun rec => { rec with pollpos := SIZE_MAX }) k
      have movedInside : (net.pollfd (net.nfds - 1)).fd <
          ((net.modifySock (net.pollfd pos).fd
            fun rec => { rec with pollpos := SIZE_MAX }).setPollfd pos
              (net.pollfd (net.nfds - 1))).size := by
        simpa using lastInside
      have second := sock_modifySock movedInside
        (fun rec => { rec with pollpos := pos }) k
      refine second.trans ?_
      rw [sock_setPollfd, first]
      split_ifs with moved removed <;> rfl

/-! ## An event leaves -/

/-- Clear the event pointer of a pair and the poll flags for it. -/
def dropEvent (net : Network ε) (fd : Nat) (op : NetworkOp) : Network ε :=
  clearbit (net.modifySock fd fun rec => rec.setEvent op none)
    (net.sock fd).pollpos op

/-- The poll structure of a descriptor without the flags of an operation. -/
def cleared (pfd : Pollfd) (op : NetworkOp) : Pollfd :=
  { pfd with events := pfd.events.clear op, revents := pfd.revents.clear op }

/-- No other event is registered for the descriptor. -/
theorem cleared_empty_iff (invariant : Invariant net) {fd : Nat}
    (below : (net.sock fd).pollpos < net.nfds) (op : NetworkOp) :
    (cleared (net.pollfd (net.sock fd).pollpos) op).events = {} ↔
      ∀ other, other ≠ op → registered net fd other = none := by
  have only := invariant.only _ below
  have masks := invariant.masks _ below
  rw [invariant.forth fd below] at masks
  unfold cleared
  rw [eq_empty_iff (eventsOnly_clear only op)]
  constructor
  · intro empty other different
    have clear := empty other
    rw [has_clear, ← masks other] at clear
    simpa [different.symm] using clear
  · intro none other
    rw [has_clear, ← masks other]
    by_cases same : other = op
    · simp [same]
    · simp [none other same]

/-- An event leaves and another one stays for the descriptor. -/
theorem dropEvent_views_stay (invariant : Invariant net) {fd : Nat}
    (below : (net.sock fd).pollpos < net.nfds) {op other : NetworkOp}
    (different : other ≠ op) (stays : registered net fd other ≠ none) :
    (dropEvent net fd op).nfds = net.nfds ∧
      (dropEvent net fd op).size = net.size ∧
      (∀ j, (dropEvent net fd op).pollfd j =
        if j = (net.sock fd).pollpos then cleared (net.pollfd j) op
        else net.pollfd j) ∧
      ∀ k, (dropEvent net fd op).sock k =
        if k = fd then (net.sock k).setEvent op none else net.sock k := by
  have notEmpty :
      (cleared (net.pollfd (net.sock fd).pollpos) op).events ≠ {} := by
    intro empty
    exact stays ((cleared_empty_iff invariant below op).mp empty
      other different)
  have fdInside : fd < net.size := by
    have inside := invariant.inside _ below
    rwa [invariant.forth fd below] at inside
  have dropped : dropEvent net fd op =
      (net.modifySock fd fun rec => rec.setEvent op none).setPollfd
        (net.sock fd).pollpos
        (cleared (net.pollfd (net.sock fd).pollpos) op) :=
    if_neg notEmpty
  rw [dropped]
  refine ⟨by simp, by simp, ?_, ?_⟩
  · intro j
    rw [pollfd_setPollfd (by simpa using below)]
    split_ifs with here
    · rw [here]
    · rfl
  · intro k
    rw [sock_setPollfd]
    exact sock_modifySock fdInside _ k

/-- The last event of a descriptor leaves, and with it the poll structure. -/
theorem dropEvent_views_gone (invariant : Invariant net) {fd : Nat}
    (below : (net.sock fd).pollpos < net.nfds) {op : NetworkOp}
    (gone : ∀ other, other ≠ op → registered net fd other = none) :
    (dropEvent net fd op).nfds = net.nfds - 1 ∧
      (dropEvent net fd op).size = net.size ∧
      (∀ j < net.nfds - 1, (dropEvent net fd op).pollfd j =
        if j = (net.sock fd).pollpos then net.pollfd (net.nfds - 1)
        else net.pollfd j) ∧
      ∀ k, (dropEvent net fd op).sock k =
        if k = fd then
          { (net.sock k).setEvent op none with pollpos := SIZE_MAX }
        else if k = (net.pollfd (net.nfds - 1)).fd then
          { net.sock k with pollpos := (net.sock fd).pollpos }
        else net.sock k := by
  have empty :=
    (cleared_empty_iff invariant below op).mpr gone
  have forth := invariant.forth fd below
  have inside := invariant.inside
  have fdInside : fd < net.size := forth ▸ inside _ below
  have lastBelow : net.nfds - 1 < net.nfds := by omega
  let middle :=
    (net.modifySock fd fun rec => rec.setEvent op none).setPollfd
      (net.sock fd).pollpos
      (cleared (net.pollfd (net.sock fd).pollpos) op)
  have middleSock : ∀ k, middle.sock k =
      if k = fd then (net.sock k).setEvent op none else net.sock k :=
    fun k => sock_modifySock fdInside _ k
  have middlePollfd : ∀ j, middle.pollfd j =
      if j = (net.sock fd).pollpos then cleared (net.pollfd j) op
      else net.pollfd j := by
    intro j
    refine (pollfd_setPollfd (by simpa using below) _ j).trans ?_
    split_ifs with here
    · rw [here]
    · rfl
  have middleFd : ∀ j, (middle.pollfd j).fd = (net.pollfd j).fd := by
    intro j
    rw [middlePollfd]
    split_ifs <;> rfl
  have middleNfds : middle.nfds = net.nfds := by
    simp [middle]
  have middleSize : middle.size = net.size := by
    simp [middle]
  have dropped : dropEvent net fd op =
      removePollfd middle (net.sock fd).pollpos :=
    if_pos empty
  obtain ⟨nfdsEq, sizeEq, pollfdEq, sockEq⟩ :=
    removePollfd_views
      (show (net.sock fd).pollpos < middle.nfds from
        below.trans_eq middleNfds.symm)
      (by simpa [middleNfds, middleSize, middleFd] using inside)
  rw [dropped]
  rw [middleNfds] at nfdsEq pollfdEq sockEq
  refine ⟨nfdsEq, sizeEq.trans middleSize, ?_, ?_⟩
  · intro j jBelow
    rw [pollfdEq j jBelow]
    split_ifs with here
    · rw [middlePollfd, if_neg (by omega)]
    · rw [middlePollfd, if_neg here]
  · intro k
    rw [sockEq k, middleFd, middleFd, forth, middleSock]
    by_cases atLast : (net.sock fd).pollpos = net.nfds - 1
    · have lastFd : (net.pollfd (net.nfds - 1)).fd = fd := atLast ▸ forth
      simp only [ne_eq, atLast, not_true_eq_false, false_and, if_false,
        lastFd]
      split_ifs with here <;> rfl
    · have lastFd : (net.pollfd (net.nfds - 1)).fd ≠ fd := by
        intro same
        have back := invariant.back _ lastBelow
        rw [same] at back
        exact atLast back
      simp only [ne_eq, atLast, not_false_eq_true, true_and]
      by_cases here : k = fd
      · subst k
        simp [lastFd.symm]
      · simp [here]

/-! ## Parts of the state a drop leaves alone -/

theorem removePollfd_rest (net : Network ε) (pos : Nat) :
    (removePollfd net pos).fdsAlloc = net.fdsAlloc ∧
      (removePollfd net pos).fdscanpos = net.fdscanpos ∧
      ((removePollfd net pos).S = none ↔ net.S = none) := by
  unfold removePollfd
  by_cases atLast : pos = net.nfds - 1
  · simp [atLast, Network.modifySock]
  · simp [atLast, Network.modifySock, Network.setPollfd]

theorem clearbit_rest (net : Network ε) (pos : Nat) (op : NetworkOp) :
    (clearbit net pos op).fdsAlloc = net.fdsAlloc ∧
      (clearbit net pos op).fdscanpos = net.fdscanpos ∧
      ((clearbit net pos op).S = none ↔ net.S = none) := by
  by_cases empty : (cleared (net.pollfd pos) op).events = {}
  · have removed : clearbit net pos op =
        removePollfd (net.setPollfd pos (cleared (net.pollfd pos) op)) pos :=
      if_pos empty
    rw [removed]
    exact removePollfd_rest _ pos
  · have kept : clearbit net pos op =
        net.setPollfd pos (cleared (net.pollfd pos) op) :=
      if_neg empty
    rw [kept]
    exact ⟨rfl, rfl, Iff.rfl⟩

theorem dropEvent_rest (net : Network ε) (fd : Nat) (op : NetworkOp) :
    (dropEvent net fd op).fdsAlloc = net.fdsAlloc ∧
      (dropEvent net fd op).fdscanpos = net.fdscanpos ∧
      ((dropEvent net fd op).S = none ↔ net.S = none) := by
  obtain ⟨alloc, scanpos, sockets⟩ := clearbit_rest
    (net.modifySock fd fun rec => rec.setEvent op none)
    (net.sock fd).pollpos op
  exact ⟨alloc, scanpos, sockets.trans (by simp [Network.modifySock])⟩

/-! ## A drop keeps the invariant -/

theorem registered_dropEvent (invariant : Invariant net) {fd : Nat}
    (below : (net.sock fd).pollpos < net.nfds) (op : NetworkOp)
    (i : Nat) (other : NetworkOp) :
    registered (dropEvent net fd op) i other =
      if i = fd ∧ other = op then none else registered net i other := by
  unfold registered
  by_cases gone : ∀ other, other ≠ op → registered net fd other = none
  · rw [(dropEvent_views_gone invariant below gone).2.2.2 i]
    by_cases here : i = fd
    · simp [here, eq_comm]
    · simp only [here, if_false, false_and]
      split_ifs with moved
      · exact event_pollpos _ _ _
      · rfl
  · push Not at gone
    obtain ⟨stay, different, stays⟩ := gone
    rw [(dropEvent_views_stay invariant below different stays).2.2.2 i]
    by_cases here : i = fd
    · simp [here, eq_comm]
    · simp [here]

theorem dropEvent_stay_invariant (invariant : Invariant net) {fd : Nat}
    (below : (net.sock fd).pollpos < net.nfds) {op other : NetworkOp}
    (different : other ≠ op) (stays : registered net fd other ≠ none) :
    Invariant (dropEvent net fd op) := by
  obtain ⟨nfdsEq, sizeEq, pollfdEq, sockEq⟩ :=
    dropEvent_views_stay invariant below different stays
  obtain ⟨allocEq, _, sockets⟩ := dropEvent_rest net fd op
  have registeredEq := registered_dropEvent invariant below op
  have fdEq : ∀ j, ((dropEvent net fd op).pollfd j).fd =
      (net.pollfd j).fd := by
    intro j
    rw [pollfdEq]
    split_ifs <;> rfl
  have pollposEq : ∀ i, ((dropEvent net fd op).sock i).pollpos =
      (net.sock i).pollpos := by
    intro i
    rw [sockEq]
    split_ifs
    · exact pollpos_setEvent _ _ _
    · rfl
  -- The entry of another descriptor is another entry.
  have otherFd : ∀ j < net.nfds, j ≠ (net.sock fd).pollpos →
      (net.pollfd j).fd ≠ fd := by
    intro j jBelow elsewhere same
    have back := invariant.back j jBelow
    rw [same] at back
    exact elsewhere back.symm
  constructor
  · intro j jBelow
    rw [fdEq, sizeEq]
    exact invariant.inside j (nfdsEq ▸ jBelow)
  · intro j jBelow
    rw [fdEq, pollposEq]
    exact invariant.back j (nfdsEq ▸ jBelow)
  · intro i iBelow
    rw [pollposEq, nfdsEq] at iBelow
    rw [fdEq, pollposEq]
    exact invariant.forth i iBelow
  · intro i o some
    rw [pollposEq, nfdsEq]
    apply invariant.listed i o
    rw [registeredEq] at some
    split_ifs at some with both
    · exact absurd rfl some
    · exact some
  · intro i none
    rw [pollposEq]
    apply invariant.unlisted
    intro o
    have noneAfter := none o
    rw [registeredEq] at noneAfter
    split_ifs at noneAfter with both
    · exact absurd ((registeredEq fd other).symm.trans
        (both.1 ▸ none other)) (by simp [different, stays])
    · exact noneAfter
  · intro j jBelow o
    rw [nfdsEq] at jBelow
    have masks := invariant.masks j jBelow o
    rw [fdEq, registeredEq, pollfdEq]
    by_cases here : j = (net.sock fd).pollpos
    · have sameFd : (net.pollfd j).fd = fd :=
        here ▸ invariant.forth fd below
      rw [if_pos here]
      simp only [cleared, has_clear, ← masks, sameFd, true_and]
      by_cases sameOp : o = op
      · simp [sameOp]
      · simp [sameOp, Ne.symm sameOp]
    · rw [if_neg here, if_neg (fun both => otherFd j jBelow here both.1)]
      exact masks
  · intro j jBelow
    rw [nfdsEq] at jBelow
    rw [pollfdEq]
    split_ifs
    · exact eventsOnly_clear (invariant.only j jBelow) op
    · exact invariant.only j jBelow
  · intro j jBelow o
    rw [nfdsEq] at jBelow
    have wanted := invariant.wanted j jBelow o
    rw [pollfdEq]
    split_ifs
    · simp only [cleared, has_clear, Bool.and_eq_true]
      exact fun ⟨isReady, notCleared⟩ => ⟨wanted isReady, notCleared⟩
    · exact wanted
  · intro j jBelow
    rw [nfdsEq] at jBelow
    have valid := invariant.valid j jBelow
    rw [pollfdEq]
    split_ifs
    · cases op <;> exact valid
    · exact valid
  · rw [nfdsEq, allocEq]
    exact invariant.fits
  · rw [allocEq]
    intro initialized
    exact invariant.allocated (fun fresh => initialized (sockets.mpr fresh))
  · intro fresh
    have empty := invariant.fresh (sockets.mp fresh)
    unfold Network.nfds at below
    simp [empty] at below

theorem dropEvent_gone_invariant (invariant : Invariant net) {fd : Nat}
    (below : (net.sock fd).pollpos < net.nfds) {op : NetworkOp}
    (gone : ∀ other, other ≠ op → registered net fd other = none) :
    Invariant (dropEvent net fd op) := by
  obtain ⟨nfdsEq, sizeEq, pollfdEq, sockEq⟩ :=
    dropEvent_views_gone invariant below gone
  obtain ⟨allocEq, _, sockets⟩ := dropEvent_rest net fd op
  have registeredEq := registered_dropEvent invariant below op
  have bound := invariant.nfds_lt
  have lastBelow : net.nfds - 1 < net.nfds := by omega
  have lastBack := invariant.back _ lastBelow
  -- Each entry is an old one, of another descriptor than `fd`.
  have origin : ∀ j < net.nfds - 1, ∃ old < net.nfds,
      (net.pollfd old).fd ≠ fd ∧
      (dropEvent net fd op).pollfd j = net.pollfd old ∧
      old = if j = (net.sock fd).pollpos then net.nfds - 1 else j := by
    intro j jBelow
    have elsewhere : ∀ old < net.nfds, old ≠ (net.sock fd).pollpos →
        (net.pollfd old).fd ≠ fd := by
      intro old oldBelow different same
      have back := invariant.back old oldBelow
      rw [same] at back
      exact different back.symm
    rw [pollfdEq j jBelow]
    split_ifs with here
    · exact ⟨_, lastBelow, elsewhere _ lastBelow (by omega), rfl, rfl⟩
    · exact ⟨j, by omega, elsewhere j (by omega) here, rfl, rfl⟩
  have registeredFd : ∀ o, registered (dropEvent net fd op) fd o = none := by
    intro o
    rw [registeredEq]
    split_ifs with both
    · rfl
    · exact gone o (fun same => both ⟨rfl, same⟩)
  have registeredOther : ∀ i, i ≠ fd → ∀ o,
      registered (dropEvent net fd op) i o = registered net i o := by
    intro i different o
    rw [registeredEq, if_neg (fun both => different both.1)]
  constructor
  · intro j jBelow
    rw [nfdsEq] at jBelow
    obtain ⟨old, oldBelow, _, pollfdOld, _⟩ := origin j jBelow
    rw [pollfdOld, sizeEq]
    exact invariant.inside old oldBelow
  · intro j jBelow
    rw [nfdsEq] at jBelow
    obtain ⟨old, oldBelow, notFd, pollfdOld, isOld⟩ := origin j jBelow
    have back := invariant.back old oldBelow
    rw [pollfdOld, sockEq, if_neg notFd]
    by_cases here : j = (net.sock fd).pollpos
    · rw [if_pos here] at isOld
      rw [isOld, if_pos rfl, here]
    · rw [if_neg here] at isOld
      subst isOld
      have notLast : (net.pollfd old).fd ≠
          (net.pollfd (net.nfds - 1)).fd := by
        intro same
        rw [same, lastBack] at back
        omega
      rw [if_neg notLast]
      exact back
  · intro i
    rw [nfdsEq, sockEq]
    split_ifs with isFd isLast
    · intro impossible
      change SIZE_MAX < _ at impossible
      omega
    · intro posBelow
      change (net.sock fd).pollpos < _ at posBelow
      change ((dropEvent net fd op).pollfd (net.sock fd).pollpos).fd = i
      rw [pollfdEq _ posBelow, if_pos rfl, isLast]
    · intro posBelow
      have forth := invariant.forth i (by omega)
      have notHere : (net.sock i).pollpos ≠ (net.sock fd).pollpos := by
        intro same
        rw [same, invariant.forth fd below] at forth
        exact isFd forth.symm
      rw [pollfdEq _ posBelow, if_neg notHere]
      exact forth
  · intro i o some
    have notFd : i ≠ fd := by
      rintro rfl
      exact some (registeredFd o)
    rw [registeredOther i notFd] at some
    have listed := invariant.listed i o some
    rw [nfdsEq, sockEq, if_neg notFd]
    split_ifs with isLast
    · change (net.sock fd).pollpos < _
      have notSame : (net.sock fd).pollpos ≠ net.nfds - 1 := by
        intro same
        have forth := invariant.forth fd below
        rw [same] at forth
        exact notFd (isLast.trans forth)
      omega
    · have notSame : (net.sock i).pollpos ≠ net.nfds - 1 := by
        intro same
        have forth := invariant.forth i listed
        rw [same] at forth
        exact isLast forth.symm
      omega
  · intro i none
    rw [sockEq]
    split_ifs with isFd isLast
    · rfl
    · have unlisted := invariant.unlisted i
        (fun o => (registeredOther i isFd o).symm.trans (none o))
      rw [isLast, lastBack] at unlisted
      omega
    · exact invariant.unlisted i
        (fun o => (registeredOther i isFd o).symm.trans (none o))
  · intro j jBelow o
    rw [nfdsEq] at jBelow
    obtain ⟨old, oldBelow, notFd, pollfdOld, _⟩ := origin j jBelow
    rw [pollfdOld, registeredOther _ notFd]
    exact invariant.masks old oldBelow o
  · intro j jBelow
    rw [nfdsEq] at jBelow
    obtain ⟨old, oldBelow, _, pollfdOld, _⟩ := origin j jBelow
    rw [pollfdOld]
    exact invariant.only old oldBelow
  · intro j jBelow o
    rw [nfdsEq] at jBelow
    obtain ⟨old, oldBelow, _, pollfdOld, _⟩ := origin j jBelow
    rw [pollfdOld]
    exact invariant.wanted old oldBelow o
  · intro j jBelow
    rw [nfdsEq] at jBelow
    obtain ⟨old, oldBelow, _, pollfdOld, _⟩ := origin j jBelow
    rw [pollfdOld]
    exact invariant.valid old oldBelow
  · rw [nfdsEq, allocEq]
    have fits := invariant.fits
    omega
  · rw [allocEq]
    intro initialized
    exact invariant.allocated (fun fresh => initialized (sockets.mpr fresh))
  · intro fresh
    have empty := invariant.fresh (sockets.mp fresh)
    unfold Network.nfds at below
    simp [empty] at below

/-- An event that leaves keeps the invariant. -/
theorem dropEvent_invariant (invariant : Invariant net) {fd : Nat}
    (below : (net.sock fd).pollpos < net.nfds) (op : NetworkOp) :
    Invariant (dropEvent net fd op) := by
  by_cases gone : ∀ other, other ≠ op → registered net fd other = none
  · exact dropEvent_gone_invariant invariant below gone
  · push Not at gone
    obtain ⟨other, different, stays⟩ := gone
    exact dropEvent_stay_invariant invariant below different stays

end Libcperciva.Events.NetworkOps
