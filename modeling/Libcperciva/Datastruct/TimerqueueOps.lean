import Libcperciva.Datastruct.PtrheapRuns
import Libcperciva.Datastruct.TimerqueueModel
import Mathlib.Data.List.Induction

/-!
# The timer queue as a set of timed pointers

The abstract content of a timer queue maps the cookie of each pair to the
pair.  `timerqueue_add`, `timerqueue_delete` and `timerqueue_increase` update
this map at one cookie, and `timerqueue_getmin` and `timerqueue_getptr` find
an entry with the least time.  The cookies which the heap stores in the
records are exact, because each of them repeats the last call for its record.
-/

namespace Libcperciva.Datastruct.TimerqueueOps

open Libcperciva.Util.Time
open Libcperciva.Lib.BinaryHeap
open Libcperciva.Datastruct.PtrheapModel
open Libcperciva.Datastruct.PtrheapSift
open Libcperciva.Datastruct.PtrheapOps
open Libcperciva.Datastruct.PtrheapRuns
open Libcperciva.Datastruct.TimerqueueModel

variable {τ : Type*} {Q after : Timerqueue τ}

/-! ## Comparing times -/

theorem tvcmp_le_iff (x y : Timeval) :
    tvcmp x y ≤ 0 ↔
      x.tvSec.toInt < y.tvSec.toInt ∨
        x.tvSec.toInt = y.tvSec.toInt ∧
          x.tvUsec.toInt ≤ y.tvUsec.toInt := by
  unfold tvcmp
  simp only [gt_iff_lt, Int64.lt_iff_toInt_lt]
  split_ifs <;> omega

theorem tvcmp_flip (x y : Timeval) : tvcmp x y < 0 ↔ 0 < tvcmp y x := by
  unfold tvcmp
  simp only [gt_iff_lt, Int64.lt_iff_toInt_lt]
  split_ifs <;> omega

/-- For normalized times the comparison is that of the microseconds. -/
theorem tvcmp_le_iff_usecs {x y : Timeval} (xNormalized : x.Normalized)
    (yNormalized : y.Normalized) : tvcmp x y ≤ 0 ↔ x.usecs ≤ y.usecs := by
  obtain ⟨xLow, xHigh⟩ := xNormalized.bounds
  obtain ⟨yLow, yHigh⟩ := yNormalized.bounds
  rw [tvcmp_le_iff]
  unfold Timeval.usecs
  omega

theorem compar_preorder (recs : Memory τ) : TotalPreorder (compar recs) where
  flip left right := tvcmp_flip _ _
  trans := by
    intro first second third left right
    unfold compar at *
    rw [tvcmp_le_iff] at *
    omega

/-! ## Storing record cookies -/

theorem lastCookie_append (log calls : List (CookieCall Nat)) (addr : Nat) :
    lastCookie (log ++ calls) addr =
      (lastCookie calls addr).or (lastCookie log addr) := by
  induction calls using List.reverseRecOn with
  | nil => simp [lastCookie]
  | append_singleton calls call earlier =>
      obtain ⟨ptr, rc⟩ := call
      rw [← List.append_assoc, lastCookie_concat, lastCookie_concat, earlier]
      split_ifs <;> rfl

theorem lastCookie_eq_none {calls : List (CookieCall Nat)} {addr : Nat}
    (noCall : lastCookie calls addr = none) :
    ∀ call ∈ calls, call.1 ≠ addr := by
  unfold lastCookie at noCall
  rw [Option.map_eq_none_iff, List.find?_eq_none] at noCall
  intro call member
  simpa using noCall call (List.mem_reverse.mpr member)

theorem setreccookies_concat (recs : Memory τ)
    (calls : List (CookieCall Nat)) (call : CookieCall Nat) :
    setreccookies recs (calls ++ [call]) =
      setreccookie (setreccookies recs calls) call :=
  List.foldl_concat _ _ _ _

/-- Each record gets the cookie of the last call for it. -/
theorem setreccookies_apply (recs : Memory τ)
    (calls : List (CookieCall Nat)) (addr : Nat) :
    setreccookies recs calls addr = (recs addr).map fun rec =>
      { rec with rc := (lastCookie calls addr).getD rec.rc } := by
  induction calls using List.reverseRecOn with
  | nil => simp [setreccookies, lastCookie]
  | append_singleton calls call earlier =>
      obtain ⟨ptr, rc⟩ := call
      rw [setreccookies_concat, lastCookie_concat]
      unfold setreccookie
      by_cases here : ptr = addr
      · subst here
        rw [Function.update_self, earlier]
        cases recs ptr <;> simp
      · rw [Function.update_of_ne (Ne.symm here), earlier, if_neg here]

theorem setreccookies_recTv (recs : Memory τ)
    (calls : List (CookieCall Nat)) (addr : Nat) :
    recTv (setreccookies recs calls) addr = recTv recs addr := by
  unfold recTv
  rw [setreccookies_apply]
  cases recs addr <;> rfl

/-! ## The invariant -/

/-- The pairs in the records of a memory. -/
def pairs (recs : Memory τ) (cookie : Nat) : Option (Timeval × τ) :=
  (recs cookie).map fun rec => (rec.tv, rec.ptr)

/-- The pair stored under a cookie. -/
def entry (Q : Timerqueue τ) : Nat → Option (Timeval × τ) := pairs Q.recs

/-- Each record stores the cookie of the last call made for it. -/
def Stored (recs : Memory τ) (log : List (CookieCall Nat)) : Prop :=
  ∀ addr rec, recs addr = some rec → lastCookie log addr = some rec.rc

/-- What holds of a timer queue between calls. -/
structure QueueInvariant (Q : Timerqueue τ) : Prop where
  enabled : Q.H.setreccookie = true
  /-- The heap holds the records that are allocated. -/
  allocated : ∀ addr, addr ∈ Q.H.elems ↔ entry Q addr ≠ none
  valid : ∃ log, Valid (compar Q.recs) (fun _ => True) Q.H log ∧
    Stored Q.recs log

@[simp]
theorem pairs_setreccookies (recs : Memory τ)
    (calls : List (CookieCall Nat)) :
    pairs (setreccookies recs calls) = pairs recs := by
  funext addr
  unfold pairs
  rw [setreccookies_apply]
  cases recs addr <;> rfl

theorem pairs_update (recs : Memory τ) (cookie : Nat)
    (rec : Option (Timerrec τ)) :
    pairs (Function.update recs cookie rec) =
      Function.update (pairs recs) cookie
        (rec.map fun rec => (rec.tv, rec.ptr)) := by
  funext addr
  unfold pairs
  by_cases here : addr = cookie
  · subst here
    simp
  · simp [here]

theorem recTv_eq_of_pairs {recs other : Memory τ} {addr : Nat}
    (same : pairs other addr = pairs recs addr) :
    recTv other addr = recTv recs addr := by
  have times := congrArg (Option.map Prod.fst) same
  unfold pairs at times
  rw [Option.map_map, Option.map_map] at times
  exact congrArg (fun tv => tv.getD ⟨0, 0⟩) times

/-- Records without a call must have been exact before. -/
theorem stored_append {recs : Memory τ} {log calls : List (CookieCall Nat)}
    (stored : ∀ addr rec, recs addr = some rec →
      lastCookie calls addr = none → lastCookie log addr = some rec.rc) :
    Stored (setreccookies recs calls) (log ++ calls) := by
  intro addr rec isRec
  rw [setreccookies_apply] at isRec
  obtain ⟨old, isOld, rfl⟩ := Option.map_eq_some_iff.mp isRec
  rw [lastCookie_append]
  cases last : lastCookie calls addr with
  | none => rw [stored addr old isOld last]; rfl
  | some rc => rfl

/-- The validity of a heap depends on the times of its own records only. -/
theorem valid_congr {recs other : Memory τ} {H : Ptrheap Nat}
    {log : List (CookieCall Nat)}
    (valid : Valid (compar recs) (fun _ => True) H log)
    (same : ∀ addr ∈ H.elems, recTv other addr = recTv recs addr) :
    Valid (compar other) (fun _ => True) H log where
  sized := valid.sized
  order := by
    refine HeapOrder.mono valid.order ?_
    intro i iBelow j jBelow le
    have member : ∀ pos < H.nelems, ptrlistGet H.elems pos ∈ H.elems :=
      fun pos below => mem_elems_iff.mpr ⟨pos, valid.sized ▸ below, rfl⟩
    unfold leOf compar at *
    rwa [same _ (member i iBelow), same _ (member j jBelow)]
  tracked := valid.tracked

/-- A valid heap whose records are told apart holds no pointer twice. -/
theorem elems_nodup {compar : Nat → Nat → Int} {H : Ptrheap Nat}
    {log : List (CookieCall Nat)} (enabled : H.setreccookie = true)
    (valid : Valid compar (fun _ => True) H log) : H.elems.Nodup := by
  rw [List.nodup_iff_injective_getElem]
  intro left right same
  have values : ptrlistGet H.elems left = ptrlistGet H.elems right := by
    rwa [ptrlistGet_eq_getElem left.isLt, ptrlistGet_eq_getElem right.isLt]
  exact Fin.ext ((valid.tracked enabled).position_unique
    (valid.sized ▸ left.isLt) (valid.sized ▸ right.isLt) trivial values)

theorem entry_eq_none {cookie : Nat} :
    entry Q cookie = none ↔ Q.recs cookie = none :=
  Option.map_eq_none_iff

/-- The cookie in a record is the position of the record. -/
theorem QueueInvariant.position (invariant : QueueInvariant Q) {cookie : Nat}
    {rec : Timerrec τ} (isRec : Q.recs cookie = some rec) :
    rec.rc < Q.H.nelems ∧ ptrlistGet Q.H.elems rec.rc = cookie := by
  obtain ⟨log, valid, stored⟩ := invariant.valid
  have member : cookie ∈ Q.H.elems := by
    rw [invariant.allocated, Ne, entry_eq_none, isRec]
    exact Option.some_ne_none rec
  obtain ⟨pos, below, isPos⟩ := mem_elems_iff.mp member
  have posBelow : pos < Q.H.nelems := valid.sized ▸ below
  have tracked := (valid.tracked invariant.enabled).ofPointer pos posBelow
    trivial
  rw [isPos, stored cookie rec isRec, Option.some.injEq] at tracked
  exact tracked ▸ ⟨posBelow, isPos⟩

/-! ## Adding a pair -/

theorem timerqueueInit_empty {allocs : QueueAllocs}
    (created : timerqueueInit allocs = some Q) :
    QueueInvariant Q ∧ ∀ cookie, entry Q cookie = none := by
  unfold timerqueueInit at created
  split_ifs at created with failed
  cases heap : ptrheapInit (compar (τ := τ) fun _ => none) true
      allocs.ptrheap allocs.ptrlist with
  | none => simp [heap] at created
  | some result =>
      obtain ⟨H, calls⟩ := result
      rw [heap, Option.some.injEq] at created
      subst created
      obtain ⟨valid, perm⟩ :=
        ptrheapCreate_valid (compar_preorder _) (fun _ _ => by simp) heap
      have noPairs : ∀ cookie, entry ⟨H, fun _ => none⟩ cookie =
        (none : Option (Timeval × τ)) := fun _ => rfl
      have enabled : H.setreccookie = true := by
        unfold ptrheapInit ptrheapCreate at heap
        split_ifs at heap
        exact (congrArg (fun result => result.1.setreccookie)
          (Option.some.inj heap)).symm
      refine ⟨⟨enabled, ?_, calls, valid, ?_⟩, noPairs⟩
      · intro addr
        simp [perm.mem_iff, noPairs]
      · intro addr rec isRec
        exact absurd isRec (Option.some_ne_none rec).symm

/-- Only a failed allocation leaves no queue. -/
theorem timerqueueInit_eq_none {allocs : QueueAllocs} :
    timerqueueInit (τ := τ) allocs = none ↔
      ¬(allocs.timerqueue = true ∧ allocs.ptrheap = true ∧
        allocs.ptrlist = true) := by
  have heap := ptrheapCreate_eq_none (compar (τ := τ) fun _ => none) true
    allocs.ptrheap allocs.ptrlist []
  unfold timerqueueInit ptrheapInit
  cases allocs.timerqueue with
  | false => simp
  | true =>
      generalize ptrheapCreate (compar (τ := τ) fun _ => none) true
        allocs.ptrheap allocs.ptrlist [] = created at *
      cases created with
      | none => simpa using heap
      | some result => simpa using heap

/--
`timerqueue_add` enters a pair under a new cookie; if an allocation fails, it
changes nothing.
-/
theorem timerqueueAdd_spec (invariant : QueueInvariant Q) {allocs : QueueAllocs}
    (fresh : ∀ r, allocs.timerrec = some r → Q.recs r = none)
    (tv : Timeval) (ptr : τ) :
    (timerqueueAdd allocs Q tv ptr = (none, Q) ∧
        ¬(allocs.timerrec ≠ none ∧ allocs.append = true)) ∨
      ∃ r after, timerqueueAdd allocs Q tv ptr = (some r, after) ∧
        allocs.timerrec = some r ∧ allocs.append = true ∧
        QueueInvariant after ∧
        entry after = Function.update (entry Q) r (some (tv, ptr)) := by
  unfold timerqueueAdd
  cases isRec : allocs.timerrec with
  | none => exact Or.inl ⟨rfl, fun succeed => succeed.1 rfl⟩
  | some r =>
      have free := fresh r isRec
      let recs := Function.update Q.recs r (some ⟨tv, 0, ptr⟩)
      cases isAppend : allocs.append with
      | false =>
          have undone : Function.update recs r none = Q.recs := by
            unfold recs
            rw [Function.update_idem, Function.update_eq_self_iff]
            exact free.symm
          left
          constructor
          · show (none, Timerqueue.mk Q.H (Function.update recs r none)) = _
            rw [undone]
          · rintro ⟨_, ⟨⟩⟩
      | true =>
          let added := ptrheapAdd (compar recs) true Q.H r
          obtain ⟨log, valid, stored⟩ := invariant.valid
          have notIn : r ∉ Q.H.elems := by
            rw [invariant.allocated, not_not, entry_eq_none]
            exact free
          have validNow : Valid (compar recs) (fun _ => True) Q.H log := by
            apply valid_congr valid
            intro addr member
            apply recTv_eq_of_pairs
            rw [pairs_update, Function.update_of_ne]
            rintro rfl
            exact notIn member
          obtain ⟨validAdded, perm⟩ :=
            ptrheapAdd_valid (compar_preorder recs) validNow
              fun _ => notIn
          have entries : pairs (setreccookies recs added.2.2) =
              Function.update (entry Q) r (some (tv, ptr)) := by
            rw [pairs_setreccookies, pairs_update]
            rfl
          refine Or.inr ⟨r, ⟨added.2.1, setreccookies recs added.2.2⟩,
            rfl, rfl, rfl,
            ⟨invariant.enabled, ?_, log ++ added.2.2, ?_, ?_⟩, entries⟩
          · intro addr
            rw [perm.mem_iff, List.mem_cons, invariant.allocated]
            unfold entry
            rw [entries]
            by_cases here : addr = r
            · simp [here]
            · simp [here, entry]
          · exact valid_congr validAdded
              fun addr _ => setreccookies_recTv recs _ addr
          · apply stored_append
            intro addr rec isRec noCall
            have here : addr ≠ r := by
              have first : (r, Q.H.nelems) ∈ added.2.2 := by
                simp [added, ptrheapAdd, ptrlistAppend, invariant.enabled]
              exact (lastCookie_eq_none noCall _ first).symm
            refine stored addr rec ?_
            exact (Function.update_of_ne here _ _).symm.trans isRec

/-! ## Deleting a pair -/

/-- Deleting the record at a position of the heap. -/
theorem delete_at (invariant : QueueInvariant Q) {rc : Nat}
    (below : rc < Q.H.nelems) :
    let deleted := ptrheapDelete (compar Q.recs) Q.H rc
    let cookie := ptrlistGet Q.H.elems rc
    let recs :=
      Function.update (setreccookies Q.recs deleted.2) cookie none
    QueueInvariant ⟨deleted.1, recs⟩ ∧
      pairs recs = Function.update (entry Q) cookie none := by
  intro deleted cookie recs
  obtain ⟨log, valid, stored⟩ := invariant.valid
  obtain ⟨validAfter, perm⟩ :=
    ptrheapDelete_valid (compar_preorder Q.recs) valid below
  have nodup := elems_nodup invariant.enabled valid
  rw [← perm.nodup_iff, List.nodup_cons] at nodup
  have entries : pairs recs = Function.update (entry Q) cookie none := by
    rw [pairs_update, pairs_setreccookies]
    rfl
  refine ⟨⟨invariant.enabled, ?_, log ++ deleted.2, ?_, ?_⟩, entries⟩
  · intro addr
    have memberIff : addr ∈ Q.H.elems ↔
        addr = cookie ∨ addr ∈ deleted.1.elems := by
      rw [← perm.mem_iff, List.mem_cons]
    unfold entry
    rw [entries]
    by_cases here : addr = cookie
    · simp only [here, Function.update_self, ne_eq, not_true_eq_false,
        iff_false]
      exact nodup.1
    · rw [Function.update_of_ne here, ← invariant.allocated, memberIff]
      simp [here]
  · apply valid_congr validAfter
    intro addr member
    apply recTv_eq_of_pairs
    rw [entries, Function.update_of_ne]
    · rfl
    · rintro rfl
      exact nodup.1 member
  · intro addr rec isRec
    have here : addr ≠ cookie := by
      rintro rfl
      simp [recs] at isRec
    refine stored_append (fun addr rec isRec _ => stored addr rec isRec)
      addr rec ?_
    exact (Function.update_of_ne here _ _).symm.trans isRec

/-- `timerqueue_delete` removes the pair stored under the cookie. -/
theorem timerqueueDelete_spec (invariant : QueueInvariant Q) {cookie : Nat}
    (held : entry Q cookie ≠ none) :
    ∃ after, timerqueueDelete Q cookie = some after ∧ QueueInvariant after ∧
      entry after = Function.update (entry Q) cookie none := by
  obtain ⟨rec, isRec⟩ :=
    Option.ne_none_iff_exists'.mp (mt entry_eq_none.mpr held)
  obtain ⟨below, isCookie⟩ := invariant.position isRec
  have deleted := delete_at invariant below
  rw [isCookie] at deleted
  unfold timerqueueDelete
  rw [isRec]
  exact ⟨_, rfl, deleted⟩

/-! ## Increasing a time -/

/-- `timerqueue_increase` finds its record, whatever the new time is. -/
theorem timerqueueIncrease_total {cookie : Nat} (held : entry Q cookie ≠ none)
    (tv : Timeval) : ∃ after, timerqueueIncrease Q cookie tv = some after := by
  obtain ⟨rec, isRec⟩ :=
    Option.ne_none_iff_exists'.mp (mt entry_eq_none.mpr held)
  unfold timerqueueIncrease
  rw [isRec]
  exact ⟨_, rfl⟩

/-- `timerqueue_increase` replaces the time of a pair by one not before it. -/
theorem timerqueueIncrease_spec (invariant : QueueInvariant Q) {cookie : Nat}
    {old tv : Timeval} {ptr : τ} (held : entry Q cookie = some (old, ptr))
    (increases : tvcmp old tv ≤ 0) :
    ∃ after, timerqueueIncrease Q cookie tv = some after ∧
      QueueInvariant after ∧
      entry after = Function.update (entry Q) cookie (some (tv, ptr)) := by
  obtain ⟨rec, isRec, isPair⟩ := Option.map_eq_some_iff.mp held
  obtain ⟨rfl, rfl⟩ := Prod.mk.inj isPair
  obtain ⟨below, isCookie⟩ := invariant.position isRec
  obtain ⟨log, valid, stored⟩ := invariant.valid
  let recs := Function.update Q.recs cookie (some { rec with tv })
  let increased := ptrheapIncrease (compar recs) Q.H rec.rc
  have tvHere : recTv recs cookie = tv := by
    simp [recTv, recs]
  have tvBefore : recTv Q.recs cookie = rec.tv := by
    simp [recTv, isRec]
  have tvOther : ∀ i < Q.H.nelems, i ≠ rec.rc →
      recTv recs (ptrlistGet Q.H.elems i) =
        recTv Q.recs (ptrlistGet Q.H.elems i) := by
    intro i iBelow elsewhere
    have different : ptrlistGet Q.H.elems i ≠ cookie := by
      intro same
      exact elsewhere ((valid.tracked invariant.enabled).position_unique
        iBelow below trivial (same.trans isCookie.symm))
    apply recTv_eq_of_pairs
    rw [pairs_update, Function.update_of_ne different]
  have key : KeyIncreased (compar Q.recs) (compar recs) Q.H rec.rc := by
    constructor
    · intro i iBelow j jBelow iElsewhere jElsewhere
      unfold leOf compar
      rw [tvOther i iBelow iElsewhere, tvOther j jBelow jElsewhere]
    · intro i iBelow iElsewhere le
      unfold leOf compar at *
      rw [isCookie] at *
      rw [tvBefore] at le
      rw [tvOther i iBelow iElsewhere, tvHere]
      rw [tvcmp_le_iff] at *
      omega
  obtain ⟨validAfter, perm⟩ := ptrheapIncrease_valid
    (compar_preorder Q.recs) (compar_preorder recs) valid below key
  have entries : pairs (setreccookies recs increased.2) =
      Function.update (entry Q) cookie (some (tv, rec.ptr)) := by
    rw [pairs_setreccookies, pairs_update]
    rfl
  unfold timerqueueIncrease
  rw [isRec]
  refine ⟨⟨increased.1, setreccookies recs increased.2⟩, rfl,
    ⟨invariant.enabled, ?_, log ++ increased.2, ?_, ?_⟩, entries⟩
  · intro addr
    rw [perm.mem_iff, invariant.allocated]
    unfold entry at *
    rw [entries]
    by_cases here : addr = cookie
    · simp [here, held]
    · simp [here]
  · exact valid_congr validAfter
      fun addr _ => setreccookies_recTv recs _ addr
  · apply stored_append
    intro addr other isOther _
    by_cases here : addr = cookie
    · subst here
      have same := (Function.update_self addr _ _).symm.trans isOther
      rw [← Option.some.inj same]
      exact stored addr rec isRec
    · exact stored addr other
        ((Function.update_of_ne here _ _).symm.trans isOther)

/-! ## The least time -/

/-- A pair of the queue with the least time. -/
structure Least (Q : Timerqueue τ) (cookie : Nat) (tv : Timeval)
    (ptr : τ) : Prop where
  held : entry Q cookie = some (tv, ptr)
  least : ∀ other pair, entry Q other = some pair → tvcmp tv pair.1 ≤ 0

theorem getmin_cases (invariant : QueueInvariant Q) :
    (ptrheapGetmin Q.H = none ∧ ∀ cookie, entry Q cookie = none) ∨
      ∃ cookie rec, ptrheapGetmin Q.H = some cookie ∧
        Q.recs cookie = some rec ∧ 0 < Q.H.nelems ∧
        ptrlistGet Q.H.elems 0 = cookie ∧
        Least Q cookie rec.tv rec.ptr := by
  obtain ⟨log, valid, stored⟩ := invariant.valid
  by_cases empty : Q.H.nelems = 0
  · left
    refine ⟨by simp [ptrheapGetmin, empty], ?_⟩
    have noElems : Q.H.elems = [] :=
      List.length_eq_zero_iff.mp (valid.sized.trans empty)
    intro cookie
    by_contra held
    have member := (invariant.allocated cookie).mpr held
    simp [noElems] at member
  · right
    have nonempty : 0 < Q.H.nelems := Nat.pos_of_ne_zero empty
    have member : ptrlistGet Q.H.elems 0 ∈ Q.H.elems :=
      mem_elems_iff.mpr ⟨0, valid.sized ▸ nonempty, rfl⟩
    rw [invariant.allocated, Ne, entry_eq_none] at member
    obtain ⟨rec, isRec⟩ := Option.ne_none_iff_exists'.mp member
    refine ⟨_, rec, ptrheapGetmin_eq Q.H nonempty, isRec, nonempty, rfl,
      ?_, ?_⟩
    · exact Option.map_eq_some_iff.mpr ⟨rec, isRec, rfl⟩
    · intro other pair isPair
      have otherMember := (invariant.allocated other).mpr
        (by rw [isPair]; exact Option.some_ne_none pair)
      obtain ⟨pos, below, rfl⟩ := mem_elems_iff.mp otherMember
      obtain ⟨otherRec, isOther, rfl⟩ := Option.map_eq_some_iff.mp isPair
      have preorder := compar_preorder Q.recs
      have rootLe := valid.order.root_le preorder.refl preorder.le_trans
        pos (valid.sized ▸ below)
      unfold leOf compar at rootLe
      simpa [recTv, isRec, isOther] using rootLe

/-- `timerqueue_getmin` returns the least time, or NULL for an empty queue. -/
theorem timerqueueGetmin_spec (invariant : QueueInvariant Q) :
    (timerqueueGetmin Q = some none ∧ ∀ cookie, entry Q cookie = none) ∨
      ∃ cookie tv ptr, timerqueueGetmin Q = some (some tv) ∧
        Least Q cookie tv ptr := by
  unfold timerqueueGetmin
  rcases getmin_cases invariant with
    ⟨isNone, empty⟩ | ⟨cookie, rec, isMin, isRec, _, _, least⟩
  · rw [isNone]
    exact Or.inl ⟨rfl, empty⟩
  · rw [isMin]
    exact Or.inr ⟨cookie, rec.tv, rec.ptr, by simp [isRec], least⟩

/-- `timerqueue_getptr` takes a pair with the least time, if it is due. -/
theorem timerqueueGetptr_spec (invariant : QueueInvariant Q) (tv : Timeval) :
    (timerqueueGetptr Q tv = some (none, Q) ∧
        ∀ cookie pair, entry Q cookie = some pair → 0 < tvcmp pair.1 tv) ∨
      ∃ cookie due ptr after,
        timerqueueGetptr Q tv = some (some ptr, after) ∧
        Least Q cookie due ptr ∧ tvcmp due tv ≤ 0 ∧ QueueInvariant after ∧
        entry after = Function.update (entry Q) cookie none := by
  unfold timerqueueGetptr
  rcases getmin_cases invariant with
    ⟨isNone, empty⟩ | ⟨cookie, rec, isMin, isRec, nonempty, atRoot, least⟩
  · rw [isNone]
    refine Or.inl ⟨rfl, ?_⟩
    intro cookie pair isPair
    rw [empty] at isPair
    exact absurd isPair (Option.some_ne_none pair).symm
  · rw [isMin]
    dsimp only
    rw [isRec]
    dsimp only
    split_ifs with later
    · refine Or.inl ⟨rfl, ?_⟩
      intro other pair isPair
      have le := least.least other pair isPair
      by_contra notLater
      refine absurd later (not_lt.mpr ?_)
      rw [not_lt] at notLater
      rw [tvcmp_le_iff] at *
      omega
    · have deleted := delete_at invariant nonempty
      rw [atRoot] at deleted
      exact Or.inr ⟨cookie, rec.tv, rec.ptr, _, rfl, least,
        not_lt.mp later, deleted⟩

end Libcperciva.Datastruct.TimerqueueOps
