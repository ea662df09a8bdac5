import Libcperciva.Datastruct.SeqptrmapModel
import Libcperciva.Datastruct.ElasticqueueOps
import Libcperciva.Lib.Numbering

/-!
# What the sequential pointer map does

The queue holds the pointers from `offset` on; a deleted pointer is NULL until
it is removed from the front.
-/

namespace Libcperciva.Datastruct.SeqptrmapOps

open Libcperciva.Lib.Numbering
open Libcperciva.Datastruct.ElasticarrayModel
open Libcperciva.Datastruct.ElasticqueueModel
open Libcperciva.Datastruct.ElasticqueueOps
open Libcperciva.Datastruct.SeqptrmapModel

variable {w n : Nat} {M : Seqptrmap} {recs : List (List UInt8)}
  {map : NumberedMap (List UInt8)} {i : Int} {ptr : List UInt8}

/-- The pointer under a number, if the queue has one that is not NULL. -/
def stored (n : Nat) (recs : List (List UInt8)) (offset i : Int) :
    Option (List UInt8) :=
  if i < offset then none
  else recs[(i - offset).toNat]?.filter (· ≠ null n)

/-- The map holds the pointers of a numbered map. -/
structure Represents (w n : Nat) (M : Seqptrmap) (recs : List (List UInt8))
    (map : NumberedMap (List UInt8)) : Prop where
  holds : Holds w M.ptrs recs
  reclen : M.ptrs.reclen = n
  len : M.len = recs.length
  offset : 0 ≤ M.offset
  issued : M.offset + recs.length = map.issued
  bounded : map.issued ≤ int64Max
  lookup : ∀ i, map.lookup i = stored n recs M.offset i

/-- The first pointer is not NULL. -/
def FrontInUse (n : Nat) (recs : List (List UInt8)) : Prop :=
  ∀ ptr, recs.head? = some ptr → ptr ≠ null n

/-! ## Conversions -/

theorem toUint64_sub {offset : Int} (isInt64 : IsInt64 i)
    (nonneg : 0 ≤ offset) (le : offset ≤ i) :
    toUint64 (i - offset) = (i - offset).toNat := by
  have upper := isInt64.2
  unfold int64Max at upper
  unfold toUint64
  rw [Int.emod_eq_of_lt (by omega) (by omega)]

theorem toSize_eq (nonneg : 0 ≤ i) (small : i.toNat < 2 ^ w) :
    toSize w i = i.toNat := by
  have natural : i = (i.toNat : Int) := (Int.toNat_of_nonneg nonneg).symm
  unfold toSize
  rw [natural]
  norm_cast
  exact Nat.mod_eq_of_lt small

/-! ## Positions -/

theorem deref_spec {EQ : Elasticqueue} (holds : Holds w EQ recs) {pos : Nat}
    (inside : pos < recs.length) :
    ∃ place, deref w EQ pos = .ok place ∧
      recordAt EQ place = recs[pos] := by
  have found := elasticqueueGet_spec holds pos
  rw [List.getElem?_eq_getElem inside] at found
  unfold deref
  cases get : elasticqueueGet w EQ pos with
  | none =>
      rw [get] at found
      cases found
  | some place =>
      rw [get] at found
      exact ⟨place, rfl, Option.some.inj found⟩

/-- Where a number in use lies in the queue. -/
theorem stored_of_lt {offset : Int} (before : i < offset) :
    stored n recs offset i = none :=
  if_pos before

theorem stored_of_ge {offset : Int} (le : offset ≤ i)
    (outside : recs.length ≤ (i - offset).toNat) :
    stored n recs offset i = none := by
  unfold stored
  rw [if_neg (by omega), List.getElem?_eq_none outside]
  rfl

theorem stored_inside {offset : Int} (le : offset ≤ i)
    (inside : (i - offset).toNat < recs.length) :
    stored n recs offset i =
      if recs[(i - offset).toNat] = null n then none
      else some recs[(i - offset).toNat] := by
  unfold stored
  rw [if_neg (by omega), List.getElem?_eq_getElem inside, Option.filter_some]
  by_cases isNull : recs[(i - offset).toNat] = null n
  · rw [if_pos isNull, if_neg (by simpa using isNull)]
  · rw [if_neg isNull, if_pos (by simpa using isNull)]

/-- The checks of `seqptrmap_get` and `seqptrmap_delete`. -/
inductive Found (M : Seqptrmap) (recs : List (List UInt8)) (i : Int) :
    Prop where
  | before (before : i < M.offset)
  | beyond (le : ¬ i < M.offset) (large : toUint64 (i - M.offset) ≥ M.len)
      (outside : recs.length ≤ (i - M.offset).toNat)
  | inside (le : ¬ i < M.offset) (small : ¬ toUint64 (i - M.offset) ≥ M.len)
      (inside : (i - M.offset).toNat < recs.length)

theorem found (represents : Represents w n M recs map)
    (isInt64 : IsInt64 i) : Found M recs i := by
  have len := represents.len
  by_cases before : i < M.offset
  · exact .before before
  · have exact := toUint64_sub isInt64 represents.offset (by omega)
    by_cases large : toUint64 (i - M.offset) ≥ M.len
    · exact .beyond before large (by omega)
    · exact .inside before large (by omega)

theorem Represents.toSize_eq (represents : Represents w n M recs map)
    (le : ¬ i < M.offset) (inside : (i - M.offset).toNat < recs.length) :
    toSize w (i - M.offset) = (i - M.offset).toNat := by
  have small := represents.holds.length_lt
  have length := represents.holds.length
  exact SeqptrmapOps.toSize_eq (by omega) (by omega)

/-! ## `seqptrmap_get` and `seqptrmap_getmin` -/

theorem seqptrmapGet_spec (represents : Represents w n M recs map)
    (isInt64 : IsInt64 i) :
    seqptrmapGet w n M i = .ok ((map.lookup i).getD (null n)) := by
  rw [represents.lookup]
  unfold seqptrmapGet
  cases found represents isInt64 with
  | before before =>
      rw [if_pos before, stored_of_lt before]
      rfl
  | beyond le large outside =>
      rw [if_neg le, if_pos large, stored_of_ge (by omega) outside]
      rfl
  | inside le small inside =>
      obtain ⟨place, result, record⟩ := deref_spec represents.holds inside
      rw [if_neg le, if_neg small, represents.toSize_eq le inside, result,
        stored_inside (by omega) inside]
      dsimp only [bind, Except.bind]
      rw [record]
      split_ifs with isNull
      · rw [isNull]
        rfl
      · rfl

theorem seqptrmapGetmin_spec (represents : Represents w n M recs map)
    (front : FrontInUse n recs) :
    (seqptrmapGetmin M = -1 ∧ ∀ i, map.lookup i = none) ∨
      (0 ≤ seqptrmapGetmin M ∧ map.lookup (seqptrmapGetmin M) ≠ none ∧
        ∀ i, i < seqptrmapGetmin M → map.lookup i = none) := by
  have length := represents.holds.length
  unfold seqptrmapGetmin elasticqueueGetlen
  split_ifs with empty
  · refine Or.inl ⟨rfl, ?_⟩
    intro i
    rw [represents.lookup]
    by_cases before : i < M.offset
    · exact stored_of_lt before
    · exact stored_of_ge (by omega) (by omega)
  · have inside : (M.offset - M.offset).toNat < recs.length := by omega
    refine Or.inr ⟨represents.offset, ?_, ?_⟩
    · have first : recs[(M.offset - M.offset).toNat] ≠ null n := by
        refine front _ ?_
        rw [List.head?_eq_getElem?, List.getElem?_eq_getElem (by omega)]
        exact congrArg some (getElem_congr_idx (by omega))
      rw [represents.lookup, stored_inside (Int.le_refl _) inside,
        if_neg first]
      exact Option.some_ne_none _
    · intro i before
      rw [represents.lookup]
      exact stored_of_lt before

/-! ## `seqptrmap_init` and `seqptrmap_add` -/

theorem seqptrmapInit_spec (positive : 0 < n)
    (malloc queueMalloc arrayMalloc : Bool) (realloc : Malloc) :
    (seqptrmapInit w n malloc queueMalloc arrayMalloc realloc = .ok none ∧
        (malloc = false ∨ queueMalloc = false ∨ arrayMalloc = false ∨
          realloc = none)) ∨
      ∃ M, seqptrmapInit w n malloc queueMalloc arrayMalloc realloc =
          .ok (some M) ∧
        Represents w n M [] NumberedMap.empty := by
  unfold seqptrmapInit
  cases malloc with
  | false => exact Or.inl ⟨rfl, Or.inl rfl⟩
  | true =>
      simp only [Bool.not_true, Bool.false_eq_true, if_false]
      cases elasticqueueInit_spec (w := w) positive queueMalloc arrayMalloc
          realloc with
      | inl failed =>
          obtain ⟨result, cause⟩ := failed
          rw [result]
          exact Or.inl ⟨rfl, Or.inr cause⟩
      | inr done =>
          obtain ⟨EQ, result, holds, reclen, _⟩ := done
          rw [result]
          refine Or.inr ⟨_, rfl, holds, reclen, rfl, Int.le_refl 0, rfl, ?_,
            ?_⟩
          · decide
          · intro i
            dsimp only
            by_cases before : i < 0
            · exact (stored_of_lt before).symm
            · exact (stored_of_ge (by omega) (Nat.zero_le _)).symm

theorem stored_append {offset : Int} (notNull : ptr ≠ null n) (i : Int) :
    stored n (recs ++ [ptr]) offset i =
      if i = offset + recs.length then some ptr
      else stored n recs offset i := by
  have length : (recs ++ [ptr]).length = recs.length + 1 :=
    List.length_append
  by_cases before : i < offset
  · rw [stored_of_lt before, stored_of_lt before, if_neg (by omega)]
  · by_cases new : i = offset + recs.length
    · have last : (i - offset).toNat = recs.length := by omega
      rw [stored_inside (by omega) (by omega), if_pos new]
      have eq : (recs ++ [ptr])[(i - offset).toNat] = ptr := by
        simp only [last, List.getElem_concat_length]
      rw [eq, if_neg notNull]
    · rw [if_neg new]
      by_cases inside : (i - offset).toNat < recs.length
      · rw [stored_inside (by omega) (by omega),
          stored_inside (by omega) inside, List.getElem_append_left inside]
      · rw [stored_of_ge (by omega) (by omega),
          stored_of_ge (by omega) (by omega)]

theorem seqptrmapAdd_spec (represents : Represents w n M recs map)
    (length : ptr.length = n) (notNull : ptr ≠ null n)
    (few : map.issued < int64Max) (realloc : Malloc) :
    (seqptrmapAdd w realloc M ptr = .ok (-1, M) ∧
        (realloc = none ∨ 2 ^ w ≤ (2 * recs.length + 1) * n)) ∨
      ∃ after, seqptrmapAdd w realloc M ptr = .ok (map.issued, after) ∧
        Represents w n after (recs ++ [ptr]) (map.add ptr) := by
  unfold seqptrmapAdd
  have issued := represents.issued
  have len := represents.len
  cases elasticqueueAdd_spec represents.holds
      (length.trans represents.reclen.symm) realloc with
  | inl failed =>
      obtain ⟨result, cause⟩ := failed
      rw [represents.reclen] at cause
      rw [result]
      exact Or.inl ⟨rfl, cause⟩
  | inr done =>
      obtain ⟨ptrs, result, holds, reclen, _⟩ := done
      rw [result]
      have lengthAfter : (recs ++ [ptr]).length = recs.length + 1 :=
        List.length_append
      have noWrap : (M.len + 1) % 2 ^ w = recs.length + 1 := by
        have small := holds.length_lt
        have := holds.length
        rw [len]
        exact Nat.mod_eq_of_lt (by omega)
      refine Or.inr ⟨{ M with ptrs, len := (M.len + 1) % 2 ^ w }, ?_, holds,
        reclen.trans represents.reclen, ?_, represents.offset, ?_, ?_, ?_⟩
      · dsimp only [queue, bind, Except.bind]
        have offset := represents.offset
        rw [noWrap, if_neg (not_not_intro rfl), if_neg (by push_cast; omega),
          if_neg (by push_cast; omega)]
        refine congrArg (fun number => Except.ok (number, _)) ?_
        push_cast
        omega
      · rw [noWrap, lengthAfter]
      · rw [lengthAfter]
        change M.offset + (recs.length + 1 : Nat) = (map.issued + 1 : Nat)
        push_cast
        omega
      · change (map.issued + 1 : Nat) ≤ int64Max
        push_cast
        omega
      · intro i
        rw [stored_append notNull, issued]
        split_ifs with new
        · rw [new]
          exact NumberedMap.lookup_add_self map ptr
        · rw [← represents.lookup]
          exact NumberedMap.lookup_add_of_ne new

theorem FrontInUse.append (front : FrontInUse n recs)
    (notNull : ptr ≠ null n) : FrontInUse n (recs ++ [ptr]) := by
  intro first isFirst
  cases recs with
  | nil =>
      cases isFirst
      exact notNull
  | cons head rest => exact front first isFirst

/-! ## `seqptrmap_delete` -/

theorem stored_tail {offset : Int} {rest : List (List UInt8)} (i : Int) :
    stored n (null n :: rest) offset i = stored n rest (offset + 1) i := by
  by_cases before : i < offset
  · rw [stored_of_lt before, stored_of_lt (by omega)]
  · by_cases front : i = offset
    · subst front
      have first : (i - i).toNat = 0 := by omega
      unfold stored
      rw [if_neg before, if_pos (by omega), first]
      simp
    · unfold stored
      have position : (i - offset).toNat = (i - (offset + 1)).toNat + 1 := by
        omega
      rw [if_neg before, if_neg (by omega), position, List.getElem?_cons_succ]

theorem deleteNulls_nil (represents : Represents w n M [] map)
    (turns : Nat) (realloc : Nat → Malloc) :
    deleteNulls w n turns realloc M = .ok M := by
  have empty : ¬ elasticqueueGetlen M.ptrs > 0 := by
    have : 0 = M.ptrs.len := represents.holds.length
    unfold elasticqueueGetlen
    omega
  unfold deleteNulls
  rw [if_neg empty]

/-- What a turn of the loop that removes a pointer leaves. -/
theorem Represents.tail {rest : List (List UInt8)} {ptrs : Elasticqueue}
    (represents : Represents w n M (null n :: rest) map)
    (holds : Holds w ptrs rest) (reclen : ptrs.reclen = n) :
    Represents w n { ptrs
                     offset := M.offset + 1
                     len := (M.len + (2 ^ w - 1)) % 2 ^ w } rest map := by
  have length : (null n :: rest).length = rest.length + 1 := rfl
  have len := represents.len
  have offset := represents.offset
  have issued := represents.issued
  refine ⟨holds, reclen, ?_, ?_, ?_, represents.bounded, ?_⟩
  · have small := holds.length_lt
    have := holds.length
    have power := Nat.two_pow_pos w
    have wrapped : M.len + (2 ^ w - 1) = rest.length + 2 ^ w := by omega
    dsimp only
    rw [wrapped, Nat.add_mod_right, Nat.mod_eq_of_lt (by omega)]
  · dsimp only
    omega
  · dsimp only
    omega
  · intro i
    rw [represents.lookup, stored_tail]

/-- The loop removes NULLs from the front, until the first pointer is in
use. -/
theorem deleteNulls_spec {turns : Nat}
    (represents : Represents w n M recs map) (enough : recs.length ≤ turns)
    (realloc : Nat → Malloc) :
    ∃ after left, deleteNulls w n turns realloc M = .ok after ∧
      Represents w n after left map ∧ FrontInUse n left := by
  induction turns generalizing M recs realloc with
  | zero =>
      have nil : recs = [] :=
        List.eq_nil_of_length_eq_zero (Nat.le_zero.mp enough)
      subst nil
      refine ⟨M, [], deleteNulls_nil represents 0 realloc, represents, ?_⟩
      intro ptr isFirst
      cases isFirst
  | succ turns ih =>
      cases recs with
      | nil =>
          refine ⟨M, [], deleteNulls_nil represents _ realloc, represents, ?_⟩
          intro ptr isFirst
          cases isFirst
      | cons first rest =>
          have nonempty : elasticqueueGetlen M.ptrs > 0 := by
            have : rest.length + 1 = M.ptrs.len := represents.holds.length
            unfold elasticqueueGetlen
            omega
          obtain ⟨place, result, record⟩ :=
            deref_spec represents.holds (Nat.succ_pos rest.length)
          unfold deleteNulls
          rw [if_pos nonempty, result]
          dsimp only [bind, Except.bind]
          rw [record]
          change ∃ after left, (if first = null n then _ else _) = _ ∧ _
          by_cases isNull : first = null n
          · subst isNull
            obtain ⟨ptrs, deleted, holds, reclen, _, _⟩ :=
              elasticqueueDelete_spec represents.holds (realloc 0)
            rw [if_pos rfl, deleted]
            exact ih (represents.tail holds (reclen.trans represents.reclen))
              (Nat.le_of_succ_le_succ enough) _
          · rw [if_neg isNull]
            refine ⟨M, first :: rest, rfl, represents, ?_⟩
            intro ptr isFirst
            cases isFirst
            exact isNull

theorem stored_set {offset : Int} (le : offset ≤ i)
    (inside : (i - offset).toNat < recs.length) (j : Int) :
    stored n (recs.set (i - offset).toNat (null n)) offset j =
      if j = i then none else stored n recs offset j := by
  by_cases before : j < offset
  · rw [stored_of_lt before, stored_of_lt before, ite_self]
  · by_cases same : j = i
    · subst same
      rw [if_pos rfl, stored_inside le (by rwa [List.length_set]),
        List.getElem_set_self, if_pos rfl]
    · have other : (i - offset).toNat ≠ (j - offset).toNat := by omega
      rw [if_neg same]
      unfold stored
      rw [List.getElem?_set_ne other]

/-- A pointer that is overwritten with NULL is deleted. -/
theorem Represents.clear {EA : Elasticarray}
    (represents : Represents w n M recs map) (le : M.offset ≤ i)
    (inside : (i - M.offset).toNat < recs.length)
    (holds : Holds w { M.ptrs with EA }
      (recs.set (i - M.offset).toNat (null n))) :
    Represents w n { M with ptrs := { M.ptrs with EA } }
      (recs.set (i - M.offset).toNat (null n)) (map.delete i) := by
  refine ⟨holds, represents.reclen, ?_, represents.offset, ?_,
    represents.bounded, ?_⟩
  · rw [List.length_set]
    exact represents.len
  · rw [List.length_set]
    exact represents.issued
  · intro j
    rw [stored_set le inside]
    split_ifs with same
    · rw [same, NumberedMap.lookup_delete_self]
    · rw [NumberedMap.lookup_delete_of_ne same, represents.lookup]

theorem seqptrmapDelete_spec (represents : Represents w n M recs map)
    (front : FrontInUse n recs) (isInt64 : IsInt64 i)
    (realloc : Nat → Malloc) :
    ∃ after left, seqptrmapDelete w n realloc M i = .ok after ∧
      Represents w n after left (map.delete i) ∧ FrontInUse n left := by
  unfold seqptrmapDelete
  cases found represents isInt64 with
  | before before =>
      have unused : map.lookup i = none := by
        rw [represents.lookup, stored_of_lt before]
      rw [if_pos before, NumberedMap.delete_unused unused]
      exact ⟨M, recs, rfl, represents, front⟩
  | beyond le large outside =>
      have unused : map.lookup i = none := by
        rw [represents.lookup, stored_of_ge (by omega) outside]
      rw [if_neg le, if_pos large, NumberedMap.delete_unused unused]
      exact ⟨M, recs, rfl, represents, front⟩
  | inside le small inside =>
      have length : (null n).length = M.ptrs.reclen := by
        unfold null
        rw [List.length_replicate, represents.reclen]
      obtain ⟨place, EA, get, copied, holds⟩ :=
        copyIn_spec represents.holds inside length
      have cleared := represents.clear (Int.not_lt.mp le) inside holds
      rw [if_neg le, if_neg small, represents.toSize_eq le inside]
      unfold deref
      rw [get]
      dsimp only [bind, Except.bind]
      rw [copied]
      refine deleteNulls_spec cleared ?_ realloc
      exact cleared.holds.length.le

end Libcperciva.Datastruct.SeqptrmapOps
