import Libcperciva.Datastruct.ElasticqueueOps
import Mathlib.Tactic.Ring

/-!
# Every run of an elastic queue

Next to the queue a run keeps the list of the records that were added
successfully and not deleted.
-/

namespace Libcperciva.Datastruct.ElasticqueueRuns

open Libcperciva.Datastruct.ElasticarrayModel
open Libcperciva.Datastruct.ElasticarrayOps
open Libcperciva.Datastruct.ElasticqueueModel
open Libcperciva.Datastruct.ElasticqueueOps

variable {w reclen : Nat} {EQ : Elasticqueue} {recs : List (List UInt8)}
  {gaveBack : Prop}

/-- The list after `elasticqueue_add` has returned. -/
def enqueued (status : Int) (recs : List (List UInt8))
    (rec : List UInt8) : List (List UInt8) :=
  if status = 0 then recs ++ [rec] else recs

/--
The states of a queue, with any outcomes of the allocations: the queue, the
list, and whether every `realloc` that was to give memory back did so.  That
leaves out the `realloc`s of `elasticqueue_add`, which changes nothing if
they fail.
-/
inductive Run (w reclen : Nat) :
    Elasticqueue → List (List UInt8) → Prop → Prop where
  | init {malloc arrayMalloc : Bool} {realloc : Malloc} {EQ : Elasticqueue}
      (result : elasticqueueInit w malloc arrayMalloc realloc reclen =
        .ok (some EQ)) :
      Run w reclen EQ [] True
  | add {EQ after : Elasticqueue} {recs : List (List UInt8)}
      {gaveBack : Prop} {realloc : Malloc} {rec : List UInt8} {status : Int}
      (before : Run w reclen EQ recs gaveBack)
      (length : rec.length = reclen)
      (result : elasticqueueAdd w realloc EQ rec = .ok (status, after)) :
      Run w reclen after (enqueued status recs rec) gaveBack
  | delete {EQ after : Elasticqueue} {recs : List (List UInt8)}
      {gaveBack : Prop} {realloc : Malloc}
      (before : Run w reclen EQ recs gaveBack)
      (result : elasticqueueDelete w realloc EQ = .ok after) :
      Run w reclen after recs.tail (gaveBack ∧ GivesBack w realloc EQ)

/-! ## The invariant of a run -/

/-- The queue holds the list, and is not too large if memory was given back. -/
structure Invariant (w reclen : Nat) (EQ : Elasticqueue)
    (recs : List (List UInt8)) (gaveBack : Prop) : Prop where
  holds : Holds w EQ recs
  reclen : EQ.reclen = reclen
  tight : gaveBack → Tight EQ.EA

theorem Run.invariant (positive : 0 < reclen)
    (run : Run w reclen EQ recs gaveBack) :
    Invariant w reclen EQ recs gaveBack := by
  induction run with
  | @init malloc arrayMalloc realloc EQ result =>
      cases elasticqueueInit_spec positive malloc arrayMalloc realloc with
      | inl failed =>
          rw [result] at failed
          cases failed.1
      | inr done =>
          obtain ⟨made, resultMade, holds, same, tight⟩ := done
          rw [result] at resultMade
          cases resultMade
          exact ⟨holds, same, fun _ => tight⟩
  | @add EQ after recs gaveBack realloc rec status _ length result before =>
      cases elasticqueueAdd_spec before.holds
          (length.trans before.reclen.symm) realloc with
      | inl failed =>
          rw [result] at failed
          cases failed.1
          exact before
      | inr done =>
          obtain ⟨made, resultMade, holds, same, tight⟩ := done
          rw [result] at resultMade
          cases resultMade
          exact ⟨holds, same.trans before.reclen, fun _ => tight⟩
  | @delete EQ after recs gaveBack realloc _ result before =>
      obtain ⟨made, resultMade, holds, same, _, tight⟩ :=
        elasticqueueDelete_spec before.holds realloc
      rw [result] at resultMade
      cases resultMade
      refine ⟨holds, same.trans before.reclen, ?_⟩
      rintro ⟨gaveBack, givesBack⟩
      exact tight (before.tight gaveBack) givesBack

/-- A queue occupies at most eight times what its records need. -/
theorem Invariant.alloc_le (invariant : Invariant w reclen EQ recs gaveBack)
    (allGiven : gaveBack) :
    EQ.EA.alloc ≤ 8 * EQ.len * reclen + 3 := by
  have tight : EQ.EA.alloc ≤ 4 * EQ.EA.size + 3 := invariant.tight allGiven
  have half : EQ.EA.size ≤ (EQ.len + EQ.len) * EQ.reclen := by
    rw [invariant.holds.size]
    exact Nat.mul_le_mul_right EQ.reclen
      (Nat.add_le_add_right invariant.holds.offset_le EQ.len)
  calc EQ.EA.alloc ≤ 4 * ((EQ.len + EQ.len) * EQ.reclen) + 3 := by omega
    _ = 8 * EQ.len * reclen + 3 := by
      rw [invariant.reclen]
      ring

/-! ## Every run -/

/-- What the functions do in a state, and what the state looks like. -/
structure Refines (w reclen : Nat) (EQ : Elasticqueue)
    (recs : List (List UInt8)) (gaveBack : Prop) : Prop where
  offset_le : EQ.offset ≤ EQ.len
  size : EQ.EA.size = (EQ.offset + EQ.len) * reclen
  getlen : elasticqueueGetlen EQ = recs.length
  get : ∀ pos, (elasticqueueGet w EQ pos).map (recordAt EQ) = recs[pos]?
  alloc_le : gaveBack → EQ.EA.alloc ≤ 8 * EQ.len * reclen + 3
  /-- An add fails only where there is no memory, and then leaves the queue
  unchanged. -/
  add : ∀ realloc rec, rec.length = reclen →
    (elasticqueueAdd w realloc EQ rec = .ok (-1, EQ) ∧
        (realloc = none ∨ 2 ^ w ≤ (2 * recs.length + 1) * reclen)) ∨
      ∃ after, elasticqueueAdd w realloc EQ rec = .ok (0, after)
  delete : ∀ realloc, ∃ after, elasticqueueDelete w realloc EQ = .ok after ∧
    (recs = [] → after = EQ)
  /-- The loop writes before the places from which it still has to read. -/
  ahead : ∀ i j, i ≤ j → j < EQ.len - 1 →
    elasticarrayGet w i reclen + reclen ≤
        elasticarrayGet w ((j + (EQ.offset + 1)) % 2 ^ w) reclen ∧
      elasticarrayGet w ((j + (EQ.offset + 1)) % 2 ^ w) reclen + reclen ≤
        EQ.EA.size

/--
A queue is a first in, first out list of records: in every run the functions
return its length and its records, no assertion fails, and the buffer is not
too large unless memory could not be given back.
-/
theorem elasticqueue_refines_fifo (w reclen : Nat) (positive : 0 < reclen) :
    (∀ malloc arrayMalloc realloc,
      (elasticqueueInit w malloc arrayMalloc realloc reclen = .ok none ∧
          (malloc = false ∨ arrayMalloc = false ∨ realloc = none)) ∨
        ∃ EQ, elasticqueueInit w malloc arrayMalloc realloc reclen =
          .ok (some EQ)) ∧
      ∀ EQ recs gaveBack, Run w reclen EQ recs gaveBack →
        Refines w reclen EQ recs gaveBack := by
  constructor
  · intro malloc arrayMalloc realloc
    refine (elasticqueueInit_spec positive malloc arrayMalloc
      realloc).imp_right ?_
    rintro ⟨EQ, result, _⟩
    exact ⟨EQ, result⟩
  · intro EQ recs gaveBack run
    have invariant := run.invariant positive
    have holds := invariant.holds
    have alloc_le := invariant.alloc_le
    obtain rfl := invariant.reclen
    refine ⟨holds.offset_le, holds.size, holds.length.symm,
      elasticqueueGet_spec holds, alloc_le, ?_, ?_, ?_⟩
    · intro realloc rec length
      refine (elasticqueueAdd_spec holds length realloc).imp_right ?_
      rintro ⟨after, result, _⟩
      exact ⟨after, result⟩
    · intro realloc
      obtain ⟨after, result, _, _, unchanged, _⟩ :=
        elasticqueueDelete_spec holds realloc
      exact ⟨after, result, unchanged⟩
    · intro i j notAfter inside
      exact moveRecords_ahead holds notAfter inside

/-- Two records of one byte are added and one is deleted. -/
theorem elasticqueue_refines_fifo_example :
    ∃ EQ gaveBack, Refines 64 1 EQ [[8]] gaveBack := by
  have empty : Run 64 1 ⟨⟨0, 0, none⟩, 0, 0, 1⟩ [] True :=
    @Run.init 64 1 true true none _ (by rfl)
  have one : Run 64 1 ⟨⟨1, 1, some [7]⟩, 0, 1, 1⟩ [[7]] True :=
    @Run.add 64 1 _ _ _ _ (some fun _ => 0) [7] 0 empty rfl (by rfl)
  have two : Run 64 1 ⟨⟨2, 2, some [7, 8]⟩, 0, 2, 1⟩ [[7], [8]] True :=
    @Run.add 64 1 _ _ _ _ (some fun _ => 0) [8] 0 one rfl (by rfl)
  exact ⟨_, _, (elasticqueue_refines_fifo 64 1 (by decide)).2 _ _ _
    (@Run.delete 64 1 _ ⟨⟨2, 2, some [7, 8]⟩, 1, 1, 1⟩ _ _ none two
      (by rfl))⟩

end Libcperciva.Datastruct.ElasticqueueRuns
