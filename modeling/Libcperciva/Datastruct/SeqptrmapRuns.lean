import Libcperciva.Datastruct.SeqptrmapOps

/-!
# Every run of a sequential pointer map

Next to the map a run keeps a numbered map, to which the pointers are added
that `seqptrmap_add` reports as added.  `seqptrmap_get` and
`seqptrmap_getmin` leave the map as it is.
-/

namespace Libcperciva.Datastruct.SeqptrmapRuns

open Libcperciva.Lib.Numbering
open Libcperciva.Datastruct.ElasticarrayModel
open Libcperciva.Datastruct.ElasticqueueModel
open Libcperciva.Datastruct.SeqptrmapModel
open Libcperciva.Datastruct.SeqptrmapOps

variable {w n : Nat} {M : Seqptrmap} {map : NumberedMap (List UInt8)}

/-- What may be added: a pointer that is not NULL, as long as there is a
number for it. -/
structure MayAdd (n : Nat) (map : NumberedMap (List UInt8))
    (ptr : List UInt8) : Prop where
  length : ptr.length = n
  notNull : ptr ≠ null n
  few : map.issued < int64Max

/-- The numbered map after `seqptrmap_add` has returned. -/
def added (number : Int) (map : NumberedMap (List UInt8))
    (ptr : List UInt8) : NumberedMap (List UInt8) :=
  if number = -1 then map else map.add ptr

/-- The states of a map, with any outcomes of the allocations. -/
inductive Run (w n : Nat) :
    Seqptrmap → NumberedMap (List UInt8) → Prop where
  | init {malloc queueMalloc arrayMalloc : Bool} {realloc : Malloc}
      {M : Seqptrmap}
      (result : seqptrmapInit w n malloc queueMalloc arrayMalloc realloc =
        .ok (some M)) :
      Run w n M NumberedMap.empty
  | add {M after : Seqptrmap} {map : NumberedMap (List UInt8)}
      {realloc : Malloc} {ptr : List UInt8} {number : Int}
      (before : Run w n M map) (mayAdd : MayAdd n map ptr)
      (result : seqptrmapAdd w realloc M ptr = .ok (number, after)) :
      Run w n after (added number map ptr)
  | delete {M after : Seqptrmap} {map : NumberedMap (List UInt8)}
      {realloc : Nat → Malloc} {i : Int}
      (before : Run w n M map) (isInt64 : IsInt64 i)
      (result : seqptrmapDelete w n realloc M i = .ok after) :
      Run w n after (map.delete i)

theorem Run.represents (positive : 0 < n) (run : Run w n M map) :
    ∃ recs, Represents w n M recs map ∧ FrontInUse n recs := by
  induction run with
  | @init malloc queueMalloc arrayMalloc realloc M result =>
      cases seqptrmapInit_spec positive malloc queueMalloc arrayMalloc
          realloc with
      | inl failed =>
          rw [result] at failed
          cases failed.1
      | inr done =>
          obtain ⟨made, resultMade, represents⟩ := done
          rw [result] at resultMade
          cases resultMade
          refine ⟨[], represents, ?_⟩
          intro ptr isFirst
          cases isFirst
  | @add M after map realloc ptr number _ mayAdd result before =>
      obtain ⟨recs, represents, front⟩ := before
      cases seqptrmapAdd_spec represents mayAdd.length mayAdd.notNull
          mayAdd.few realloc with
      | inl failed =>
          rw [result] at failed
          cases failed.1
          exact ⟨recs, represents, front⟩
      | inr done =>
          obtain ⟨made, resultMade, representsMade⟩ := done
          rw [result] at resultMade
          cases resultMade
          have issued : (map.issued : Int) ≠ -1 := by omega
          unfold added
          rw [if_neg issued]
          exact ⟨_, representsMade, front.append mayAdd.notNull⟩
  | @delete M after map realloc i _ isInt64 result before =>
      obtain ⟨recs, represents, front⟩ := before
      obtain ⟨made, left, resultMade, representsMade, frontMade⟩ :=
        seqptrmapDelete_spec represents front isInt64 realloc
      rw [result] at resultMade
      cases resultMade
      exact ⟨left, representsMade, frontMade⟩

theorem wellNumbered {recs : List (List UInt8)}
    (represents : Represents w n M recs map) : map.WellNumbered := by
  intro i used
  rw [represents.lookup] at used
  have offset := represents.offset
  have issued := represents.issued
  by_cases before : i < M.offset
  · exact absurd (stored_of_lt before) used
  · by_cases inside : (i - M.offset).toNat < recs.length
    · exact ⟨by omega, by omega⟩
    · exact absurd (stored_of_ge (by omega) (by omega)) used

/-! ## Every run -/

/-- What the functions return and do in a state. -/
structure Refines (w n : Nat) (M : Seqptrmap)
    (map : NumberedMap (List UInt8)) : Prop where
  wellNumbered : map.WellNumbered
  len : elasticqueueGetlen M.ptrs = M.len
  get : ∀ i, IsInt64 i →
    seqptrmapGet w n M i = .ok ((map.lookup i).getD (null n))
  /-- The smallest number in use, or -1 if there is none. -/
  getmin : (seqptrmapGetmin M = -1 ∧ ∀ i, map.lookup i = none) ∨
    (0 ≤ seqptrmapGetmin M ∧ map.lookup (seqptrmapGetmin M) ≠ none ∧
      ∀ i, i < seqptrmapGetmin M → map.lookup i = none)
  /-- An add returns how many were added before, or fails where there is no
  memory and changes nothing. -/
  add : ∀ realloc ptr, MayAdd n map ptr →
    (seqptrmapAdd w realloc M ptr = .ok (-1, M) ∧
        (realloc = none ∨ 2 ^ w ≤ (2 * M.len + 1) * n)) ∨
      ∃ after, seqptrmapAdd w realloc M ptr = .ok (map.issued, after)
  delete : ∀ realloc i, IsInt64 i →
    ∃ after, seqptrmapDelete w n realloc M i = .ok after

/--
A sequential pointer map is a numbered map: in every run the functions return
what the numbered map says, and no assertion fails.
-/
theorem seqptrmap_refines_numbered (w n : Nat) (positive : 0 < n) :
    (∀ malloc queueMalloc arrayMalloc realloc,
      (seqptrmapInit w n malloc queueMalloc arrayMalloc realloc = .ok none ∧
          (malloc = false ∨ queueMalloc = false ∨ arrayMalloc = false ∨
            realloc = none)) ∨
        ∃ M, seqptrmapInit w n malloc queueMalloc arrayMalloc realloc =
          .ok (some M)) ∧
      ∀ M map, Run w n M map → Refines w n M map := by
  constructor
  · intro malloc queueMalloc arrayMalloc realloc
    refine (seqptrmapInit_spec positive malloc queueMalloc arrayMalloc
      realloc).imp_right ?_
    rintro ⟨M, result, _⟩
    exact ⟨M, result⟩
  · intro M map run
    obtain ⟨recs, represents, front⟩ := run.represents positive
    refine ⟨wellNumbered represents, ?_,
      fun i isInt64 => seqptrmapGet_spec represents isInt64,
      seqptrmapGetmin_spec represents front, ?_, ?_⟩
    · rw [represents.len]
      exact represents.holds.length.symm
    · intro realloc ptr mayAdd
      rw [represents.len]
      refine (seqptrmapAdd_spec represents mayAdd.length mayAdd.notNull
        mayAdd.few realloc).imp_right ?_
      rintro ⟨after, result, _⟩
      exact ⟨after, result⟩
    · intro realloc i isInt64
      obtain ⟨after, _, result, _⟩ :=
        seqptrmapDelete_spec represents front isInt64 realloc
      exact ⟨after, result⟩

/-- Two pointers are added and the first is deleted. -/
theorem seqptrmap_refines_numbered_example :
    ∃ M, Refines 64 1 M (((NumberedMap.empty.add [7]).add [8]).delete 0) := by
  have empty : Run 64 1 ⟨⟨⟨0, 0, none⟩, 0, 0, 1⟩, 0, 0⟩ NumberedMap.empty :=
    @Run.init 64 1 true true true none _ (by rfl)
  have one := @Run.add 64 1 _ ⟨⟨⟨1, 1, some [7]⟩, 0, 1, 1⟩, 0, 1⟩ _
    (some fun _ => 0) [7] 0 empty ⟨rfl, by decide, by decide⟩ (by rfl)
  have two := @Run.add 64 1 _ ⟨⟨⟨2, 2, some [7, 8]⟩, 0, 2, 1⟩, 0, 2⟩ _
    (some fun _ => 0) [8] 1 one ⟨rfl, by decide, by decide⟩ (by rfl)
  have three := @Run.delete 64 1 _ ⟨⟨⟨2, 2, some [0, 8]⟩, 1, 1, 1⟩, 1, 1⟩ _
    (fun _ => none) 0 two ⟨by decide, by decide⟩ (by rfl)
  exact ⟨_, (seqptrmap_refines_numbered 64 1 (by decide)).2 _ _ three⟩

end Libcperciva.Datastruct.SeqptrmapRuns
