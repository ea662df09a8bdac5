import Libcperciva.Datastruct.SeqptrmapRuns
import Libcperciva.Datastruct.ElasticqueueRuns
import Mathlib.Order.Bounds.Basic
import Mathlib.Tactic.Linarith

/-!
# The memory of a sequential pointer map

NULLs are removed from the front of the queue only.  The queue thus reaches
from the smallest number in use to the newest number, and its buffer is as
large as the numbers in use allow just as long as one of these is new.
-/

namespace Libcperciva.Datastruct.SeqptrmapMemory

open Libcperciva.Lib.Numbering
open Libcperciva.Datastruct.ElasticarrayModel
open Libcperciva.Datastruct.ElasticarrayOps
open Libcperciva.Datastruct.ElasticqueueModel
open Libcperciva.Datastruct.ElasticqueueOps
open Libcperciva.Datastruct.SeqptrmapModel
open Libcperciva.Datastruct.SeqptrmapOps
open Libcperciva.Datastruct.SeqptrmapRuns

variable {w n k : Nat} {M after : Seqptrmap} {recs : List (List UInt8)}
  {map : NumberedMap (List UInt8)} {i : Int} {ptr : List UInt8}

/-! ## Memory is given back -/

theorem givesBack (memory : Nat → UInt8) (EQ : Elasticqueue) :
    GivesBack w (some memory) EQ :=
  fun _ _ notShrunk => Option.some_ne_none memory notShrunk.1

theorem deleteNulls_tight {turns : Nat} {memory : Nat → Nat → UInt8}
    (represents : Represents w n M recs map) (enough : recs.length ≤ turns)
    (tight : Tight M.ptrs.EA)
    (result : deleteNulls w n turns (fun turn => some (memory turn)) M =
      .ok after) : Tight after.ptrs.EA := by
  induction turns generalizing M recs memory with
  | zero =>
      have nil : recs = [] :=
        List.eq_nil_of_length_eq_zero (Nat.le_zero.mp enough)
      subst nil
      rw [deleteNulls_nil represents] at result
      cases result
      exact tight
  | succ turns ih =>
      cases recs with
      | nil =>
          rw [deleteNulls_nil represents] at result
          cases result
          exact tight
      | cons first rest =>
          have nonempty : elasticqueueGetlen M.ptrs > 0 := by
            have : rest.length + 1 = M.ptrs.len := represents.holds.length
            unfold elasticqueueGetlen
            omega
          obtain ⟨place, found, record⟩ :=
            deref_spec represents.holds (Nat.succ_pos rest.length)
          unfold deleteNulls at result
          rw [if_pos nonempty, found] at result
          dsimp only [bind, Except.bind] at result
          rw [record] at result
          change (if first = null n then _ else _) = _ at result
          by_cases isNull : first = null n
          · subst isNull
            obtain ⟨ptrs, deleted, holds, reclen, _, tightAfter⟩ :=
              elasticqueueDelete_spec represents.holds (some (memory 0))
            rw [if_pos rfl, deleted] at result
            exact ih (represents.tail holds (reclen.trans represents.reclen))
              (Nat.le_of_succ_le_succ enough)
              (tightAfter tight (givesBack (memory 0) M.ptrs)) result
          · rw [if_neg isNull] at result
            cases result
            exact tight

theorem seqptrmapDelete_tight {memory : Nat → Nat → UInt8}
    (represents : Represents w n M recs map) (isInt64 : IsInt64 i)
    (tight : Tight M.ptrs.EA)
    (result : seqptrmapDelete w n (fun turn => some (memory turn)) M i =
      .ok after) : Tight after.ptrs.EA := by
  unfold seqptrmapDelete at result
  cases found represents isInt64 with
  | before before =>
      rw [if_pos before] at result
      cases result
      exact tight
  | beyond le large outside =>
      rw [if_neg le, if_pos large] at result
      cases result
      exact tight
  | inside le small inside =>
      have length : (null n).length = M.ptrs.reclen := by
        unfold null
        rw [List.length_replicate, represents.reclen]
      obtain ⟨place, EA, get, copied, holds⟩ :=
        copyIn_spec represents.holds inside length
      have cleared := represents.clear (Int.not_lt.mp le) inside holds
      have same : EA.alloc = M.ptrs.EA.alloc ∧ EA.size = M.ptrs.EA.size := by
        unfold copyIn at copied
        cases isBuf : M.ptrs.EA.buf with
        | none =>
            rw [isBuf] at copied
            cases copied
        | some buf =>
            rw [isBuf] at copied
            cases copied
            exact ⟨rfl, rfl⟩
      have tightCleared : Tight EA := by
        unfold Tight
        rw [same.1, same.2]
        exact tight
      rw [if_neg le, if_neg small, represents.toSize_eq le inside] at result
      unfold deref at result
      rw [get] at result
      dsimp only [bind, Except.bind] at result
      rw [copied] at result
      exact deleteNulls_tight cleared cleared.holds.length.le tightCleared
        result

/-! ## Runs -/

/-- The states of a map if no (re)allocation fails, and the deletes meet a
condition on the map before them. -/
inductive RunWhere (w n : Nat)
    (condition : NumberedMap (List UInt8) → Int → Prop) :
    Seqptrmap → NumberedMap (List UInt8) → Prop where
  | init {memory : Nat → UInt8} {M : Seqptrmap}
      (result : seqptrmapInit w n true true true (some memory) =
        .ok (some M)) :
      RunWhere w n condition M NumberedMap.empty
  | add {M after : Seqptrmap} {map : NumberedMap (List UInt8)}
      {memory : Nat → UInt8} {ptr : List UInt8} {number : Int}
      (before : RunWhere w n condition M map) (mayAdd : MayAdd n map ptr)
      (result : seqptrmapAdd w (some memory) M ptr = .ok (number, after)) :
      RunWhere w n condition after (added number map ptr)
  | delete {M after : Seqptrmap} {map : NumberedMap (List UInt8)}
      {memory : Nat → Nat → UInt8} {i : Int}
      (before : RunWhere w n condition M map) (meets : condition map i)
      (isInt64 : IsInt64 i)
      (result : seqptrmapDelete w n (fun turn => some (memory turn)) M i =
        .ok after) :
      RunWhere w n condition after (map.delete i)

variable {condition : NumberedMap (List UInt8) → Int → Prop}

theorem RunWhere.run (run : RunWhere w n condition M map) :
    Run w n M map := by
  induction run with
  | init result => exact .init result
  | add _ mayAdd result ih => exact .add ih mayAdd result
  | delete _ _ isInt64 result ih => exact .delete ih isInt64 result

theorem RunWhere.tight (positive : 0 < n)
    (run : RunWhere w n condition M map) : Tight M.ptrs.EA := by
  induction run with
  | @init memory M result =>
      unfold seqptrmapInit at result
      simp only [Bool.not_true, Bool.false_eq_true, if_false] at result
      cases elasticqueueInit_spec (w := w) positive true true
          (some memory) with
      | inl failed =>
          rw [failed.1] at result
          cases result
      | inr done =>
          obtain ⟨EQ, resultEQ, _, _, tight⟩ := done
          rw [resultEQ] at result
          cases result
          exact tight
  | @add M after map memory ptr number before mayAdd result ih =>
      obtain ⟨recs, represents, -⟩ := before.run.represents positive
      unfold seqptrmapAdd at result
      cases elasticqueueAdd_spec represents.holds
          (mayAdd.length.trans represents.reclen.symm) (some memory) with
      | inl failed =>
          rw [failed.1] at result
          cases result
          exact ih
      | inr done =>
          obtain ⟨ptrs, resultEQ, _, _, tight⟩ := done
          rw [resultEQ] at result
          dsimp only [queue, bind, Except.bind] at result
          rw [if_neg (not_not_intro rfl)] at result
          split_ifs at result
          cases result
          exact tight
  | delete before _ isInt64 result ih =>
      obtain ⟨recs, represents, -⟩ := before.run.represents positive
      exact seqptrmapDelete_tight represents isInt64 ih result

/-! ## The bound -/

/-- The numbers in use. -/
def inUse (map : NumberedMap (List UInt8)) : Set Int :=
  {i | map.lookup i ≠ none}

/-- The bound of the documentation, with a value for its `O(1)`. -/
def Bounded (C n : Nat) (M : Seqptrmap)
    (map : NumberedMap (List UInt8)) : Prop :=
  ∀ min max, IsLeast (inUse map) min → IsGreatest (inUse map) max →
    (M.ptrs.EA.alloc : Int) ≤ 8 * n * (max - min + 1) + C

/-- One of the last `k + 1` numbers is in use, or none at all. -/
def NewInUse (k : Nat) (map : NumberedMap (List UInt8)) : Prop :=
  (∃ j, map.lookup j ≠ none ∧ map.issued ≤ j + k + 1) ∨
    ∀ j, map.lookup j = none

/-- One of the last `k + 1` numbers other than `i` is in use, or no other
number at all. -/
def KeepsNew (k : Nat) (map : NumberedMap (List UInt8)) (i : Int) : Prop :=
  (∃ j, j ≠ i ∧ map.lookup j ≠ none ∧ map.issued ≤ j + k + 1) ∨
    ∀ j, j ≠ i → map.lookup j = none

theorem newInUse_add (k : Nat) (map : NumberedMap (List UInt8))
    (ptr : List UInt8) : NewInUse k (map.add ptr) := by
  refine Or.inl ⟨map.issued, ?_, ?_⟩
  · rw [NumberedMap.lookup_add_self]
    exact Option.some_ne_none ptr
  · change ((map.issued + 1 : Nat) : Int) ≤ _
    omega

theorem KeepsNew.delete (keeps : KeepsNew k map i) :
    NewInUse k (map.delete i) := by
  rcases keeps with ⟨j, other, used, new⟩ | unused
  · refine Or.inl ⟨j, ?_, new⟩
    rw [NumberedMap.lookup_delete_of_ne other]
    exact used
  · right
    intro j
    by_cases other : j = i
    · rw [other, NumberedMap.lookup_delete_self]
    · rw [NumberedMap.lookup_delete_of_ne other]
      exact unused j other

theorem RunWhere.newInUse (run : RunWhere w n (KeepsNew k) M map) :
    NewInUse k map := by
  induction run with
  | init _ => exact Or.inr fun _ => rfl
  | @add M after map memory ptr number _ _ _ ih =>
      unfold added
      split_ifs
      · exact ih
      · exact newInUse_add k map ptr
  | delete _ meets _ _ _ => exact meets.delete

/-- The queue reaches from the smallest number in use to the newest one. -/
theorem length_eq (represents : Represents w n M recs map)
    (front : FrontInUse n recs) {min : Int}
    (least : IsLeast (inUse map) min) :
    (recs.length : Int) = map.issued - min := by
  have issued := represents.issued
  have used : map.lookup min ≠ none := least.1
  rw [represents.lookup] at used
  have notBefore : ¬ min < M.offset := fun before =>
    used (stored_of_lt before)
  have inside : (min - M.offset).toNat < recs.length := by
    by_contra outside
    exact used (stored_of_ge (Int.not_lt.mp notBefore)
      (Nat.not_lt.mp outside))
  have isFirst : M.offset ∈ inUse map := by
    have zero : (M.offset - M.offset).toNat = 0 := by omega
    have inFront : (M.offset - M.offset).toNat < recs.length := by omega
    have first : recs[(M.offset - M.offset).toNat] ≠ null n := by
      refine front _ ?_
      rw [List.head?_eq_getElem?, List.getElem?_eq_getElem (by omega)]
      exact congrArg some (getElem_congr_idx zero.symm)
    change map.lookup M.offset ≠ none
    rw [represents.lookup, stored_inside (Int.le_refl _) inFront,
      if_neg first]
    exact Option.some_ne_none _
  have least := least.2 isFirst
  omega

theorem bounded_of_new (represents : Represents w n M recs map)
    (front : FrontInUse n recs) (tight : Tight M.ptrs.EA)
    (newInUse : NewInUse k map) : Bounded (8 * n * k + 3) n M map := by
  intro min max least greatest
  have length := length_eq represents front least
  have alloc : M.ptrs.EA.alloc ≤ 8 * recs.length * n + 3 := by
    have invariant : ElasticqueueRuns.Invariant w n M.ptrs recs True :=
      ⟨represents.holds, represents.reclen, fun _ => tight⟩
    rw [represents.holds.length]
    exact invariant.alloc_le trivial
  have near : (recs.length : Int) ≤ max - min + 1 + k := by
    rcases newInUse with ⟨j, used, new⟩ | unused
    · have below : j ≤ max := greatest.2 used
      omega
    · exact absurd (unused max) greatest.1
  calc (M.ptrs.EA.alloc : Int)
      ≤ 8 * recs.length * n + 3 := by exact_mod_cast alloc
    _ ≤ 8 * (max - min + 1 + k) * n + 3 := by
      have nonneg : (0 : Int) ≤ n := Int.natCast_nonneg n
      nlinarith
    _ = 8 * n * (max - min + 1) + (8 * n * k + 3 : Nat) := by
      push_cast
      ring

/-- **The memory bound.**  As long as no delete takes the last one in use of
the `k + 1` newest pointers while an older one is in use, the buffer is not
larger than documented, and the constant is that of the elastic queue and of
the pointers which may be deleted behind the newest one in use. -/
theorem seqptrmap_memory (w n k : Nat) (positive : 0 < n)
    (run : RunWhere w n (KeepsNew k) M map) :
    Bounded (8 * n * k + 3) n M map := by
  obtain ⟨recs, represents, front⟩ := run.run.represents positive
  exact bounded_of_new represents front (run.tight positive) run.newInUse

/-- Two pointers are added and the first is deleted. -/
theorem seqptrmap_memory_two :
    ∃ M, Bounded 3 1 M (((NumberedMap.empty.add [7]).add [8]).delete 0) := by
  have empty : RunWhere 64 1 (KeepsNew 0) ⟨⟨⟨0, 0, none⟩, 0, 0, 1⟩, 0, 0⟩
      NumberedMap.empty := @RunWhere.init 64 1 _ (fun _ => 0) _ (by rfl)
  have one := @RunWhere.add 64 1 _ _ ⟨⟨⟨1, 1, some [7]⟩, 0, 1, 1⟩, 0, 1⟩ _
    (fun _ => 0) [7] 0 empty ⟨rfl, by decide, by decide⟩ (by rfl)
  have two := @RunWhere.add 64 1 _ _ ⟨⟨⟨2, 2, some [7, 8]⟩, 0, 2, 1⟩, 0, 2⟩ _
    (fun _ => 0) [8] 1 one ⟨rfl, by decide, by decide⟩ (by rfl)
  have keeps : KeepsNew 0 ((NumberedMap.empty.add [7]).add [8]) 0 :=
    Or.inl ⟨1, by decide, by decide, by decide⟩
  have three := @RunWhere.delete 64 1 _ _
    ⟨⟨⟨2, 2, some [0, 8]⟩, 1, 1, 1⟩, 1, 1⟩ _ (fun _ _ => 0) 0 two keeps
    ⟨by decide, by decide⟩ (by rfl)
  exact ⟨_, seqptrmap_memory 64 1 0 (by decide) three⟩

/-! ## Without the condition -/

/-- A pointer for which there is room is added. -/
theorem seqptrmapAdd_some (memory : Nat → UInt8)
    (represents : Represents w n M recs map) (mayAdd : MayAdd n map ptr)
    (room : (2 * recs.length + 1) * n < 2 ^ w) :
    ∃ after, seqptrmapAdd w (some memory) M ptr = .ok (map.issued, after) ∧
      Represents w n after (recs ++ [ptr]) (map.add ptr) := by
  rcases seqptrmapAdd_spec represents mayAdd.length mayAdd.notNull mayAdd.few
    (some memory) with ⟨_, noMemory | tooLarge⟩ | done
  · exact absurd noMemory (Option.some_ne_none memory)
  · exact absurd room (Nat.not_lt.mpr tooLarge)
  · exact done

/-- A pointer that is not NULL. -/
def pointer : List UInt8 := List.replicate 8 1

/-- Any number of pointers can be added that memory has room for. -/
theorem exists_added (N : Nat) (few : N < 2 ^ 59) :
    ∃ M map, RunWhere 64 8 (fun _ _ => True) M map ∧ map.issued = N ∧
      ∀ j : Int, 0 ≤ j → j < N → map.lookup j ≠ none := by
  induction N with
  | zero =>
      have empty : RunWhere 64 8 (fun _ _ => True)
          ⟨⟨⟨0, 0, none⟩, 0, 0, 8⟩, 0, 0⟩ NumberedMap.empty :=
        @RunWhere.init 64 8 _ (fun _ => 0) _ (by rfl)
      exact ⟨_, _, empty, rfl, fun j low high => by omega⟩
  | succ N ih =>
      obtain ⟨M, map, run, issued, used⟩ := ih (Nat.lt_of_succ_lt few)
      obtain ⟨recs, represents, -⟩ := run.run.represents (by decide)
      have offset := represents.offset
      have total := represents.issued
      have mayAdd : MayAdd 8 map pointer := by
        refine ⟨List.length_replicate, by decide, ?_⟩
        rw [issued]
        unfold int64Max
        omega
      obtain ⟨after, result, -⟩ := seqptrmapAdd_some (fun _ => 0) represents
        mayAdd (by omega)
      have more := RunWhere.add run mayAdd result
      unfold added at more
      rw [if_neg (by omega)] at more
      refine ⟨after, _, more, congrArg (· + 1) issued, ?_⟩
      intro j low high
      by_cases isNew : j = map.issued
      · rw [isNew, NumberedMap.lookup_add_self]
        exact Option.some_ne_none pointer
      · rw [NumberedMap.lookup_add_of_ne isNew]
        exact used j low (by omega)

/-- All pointers but the first can be deleted. -/
theorem exists_deleted (N m : Nat) (few : N < 2 ^ 59) (positive : 0 < N) :
    ∃ M map, RunWhere 64 8 (fun _ _ => True) M map ∧ map.issued = N ∧
      map.lookup 0 ≠ none ∧
      ∀ j : Int, 1 ≤ j → j ≤ m → map.lookup j = none := by
  induction m with
  | zero =>
      obtain ⟨M, map, run, issued, used⟩ := exists_added N few
      exact ⟨M, map, run, issued, used 0 (Int.le_refl 0) (by omega),
        fun j low high => by omega⟩
  | succ m ih =>
      obtain ⟨M, map, run, issued, first, unused⟩ := ih
      obtain ⟨recs, represents, front⟩ := run.run.represents (by decide)
      by_cases isInt64 : IsInt64 (m + 1 : Nat)
      · obtain ⟨after, _, result, -⟩ := seqptrmapDelete_spec represents front
          isInt64 (fun _ => some fun _ => 0)
        refine ⟨after, _, .delete run trivial isInt64 result, issued, ?_, ?_⟩
        · rw [NumberedMap.lookup_delete_of_ne (by omega)]
          exact first
        · intro j low high
          by_cases isLast : j = (m + 1 : Nat)
          · rw [isLast, NumberedMap.lookup_delete_self]
          · rw [NumberedMap.lookup_delete_of_ne isLast]
            exact unused j low (by omega)
      · refine ⟨M, map, run, issued, first, ?_⟩
        intro j low high
        by_contra used
        have small := (wellNumbered represents j used).2
        unfold IsInt64 int64Max at isInt64
        exact used (unused j low (by omega))

/-- Without the condition, no constant makes the bound true that is itself
smaller than memory. -/
theorem seqptrmap_memory_unbounded :
    ¬ ∃ C < 2 ^ 60, ∀ M map, RunWhere 64 8 (fun _ _ => True) M map →
      Bounded C 8 M map := by
  rintro ⟨C, small, bounded⟩
  obtain ⟨M, map, run, issued, first, unused⟩ :=
    exists_deleted (C / 8 + 10) (C / 8 + 10) (by omega) (Nat.succ_pos _)
  obtain ⟨recs, represents, front⟩ := run.run.represents (by decide)
  have onlyFirst : ∀ j, map.lookup j ≠ none → j = 0 := by
    intro j used
    obtain ⟨low, high⟩ := wellNumbered represents j used
    by_contra other
    exact used (unused j (by omega) (by omega))
  have least : IsLeast (inUse map) 0 :=
    ⟨first, fun j used => (onlyFirst j used).ge⟩
  have greatest : IsGreatest (inUse map) 0 :=
    ⟨first, fun j used => (onlyFirst j used).le⟩
  have length := length_eq represents front least
  have alloc := bounded M map run 0 0 least greatest
  have holds := represents.holds
  have size := holds.size
  rw [represents.reclen] at size
  have inside := holds.array.size_le
  have total := holds.length
  omega

end Libcperciva.Datastruct.SeqptrmapMemory
