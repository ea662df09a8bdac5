import Libcperciva.Datastruct.ElasticqueueModel
import Libcperciva.Datastruct.ElasticarrayOps

/-!
# What the elastic queue does

The bytes of the array behind the offset are the records of the queue, one
after the other.
-/

namespace Libcperciva.Datastruct.ElasticqueueOps

open Libcperciva.Lib.Buffer
open Libcperciva.Datastruct.ElasticarrayModel
open Libcperciva.Datastruct.ElasticarrayOps
open Libcperciva.Datastruct.ElasticqueueModel

variable {w pos reclen : Nat} {EA : Elasticarray} {EQ : Elasticqueue}
  {recs : List (List UInt8)} {rec : List UInt8}

/-- The queue holds a list of records. -/
structure Holds (w : Nat) (EQ : Elasticqueue)
    (recs : List (List UInt8)) : Prop where
  positive : 0 < EQ.reclen
  array : Invariant w EQ.EA
  offset_le : EQ.offset ≤ EQ.len
  size : EQ.EA.size = (EQ.offset + EQ.len) * EQ.reclen
  length : recs.length = EQ.len
  uniform : ∀ rec ∈ recs, rec.length = EQ.reclen
  records :
    (contents EQ.EA).drop (EQ.offset * EQ.reclen) = recs.flatten

/-! ## Positions -/

/-- Nothing wraps for a record that lies in the array. -/
theorem elasticarrayGet_inside (positive : 0 < reclen)
    (invariant : Invariant w EA)
    (inside : (pos + 1) * reclen ≤ EA.size) :
    elasticarrayGet w (pos % 2 ^ w) reclen = pos * reclen := by
  have small : (pos + 1) * reclen < 2 ^ w :=
    (inside.trans invariant.size_le).trans_lt invariant.alloc_lt
  have index := Nat.le_mul_of_pos_right (pos + 1) positive
  rw [Nat.succ_mul] at small index
  unfold elasticarrayGet
  rw [Nat.mod_eq_of_lt (by omega : pos < 2 ^ w), Nat.mod_eq_of_lt (by omega)]

/-- What is read from the buffer are the contents. -/
theorem slice_contents {n : Nat} (inside : pos + n ≤ EA.size) :
    slice (EA.buf.getD []) pos n = slice (contents EA) pos n := by
  unfold slice contents
  rw [List.drop_take, List.take_take, Nat.min_eq_left (by omega)]

theorem Holds.inside (holds : Holds w EQ recs) (pos_lt : pos < EQ.len) :
    (pos + EQ.offset + 1) * EQ.reclen ≤ EQ.EA.size := by
  rw [holds.size]
  exact Nat.mul_le_mul_right EQ.reclen (by omega)

/-- The number of records fits into a word, as their bytes do. -/
theorem Holds.length_lt (holds : Holds w EQ recs) :
    EQ.offset + EQ.len < 2 ^ w := by
  have records := Nat.le_mul_of_pos_right (EQ.offset + EQ.len) holds.positive
  rw [← holds.size] at records
  exact (records.trans holds.array.size_le).trans_lt holds.array.alloc_lt

/-- `elasticqueue_get` finds the records, and nothing else. -/
theorem elasticqueueGet_spec (holds : Holds w EQ recs) (pos : Nat) :
    (elasticqueueGet w EQ pos).map (recordAt EQ) = recs[pos]? := by
  have length := holds.length
  unfold elasticqueueGet
  split_ifs with outside
  · rw [List.getElem?_eq_none (by omega)]
    rfl
  · have pos_lt := Nat.lt_of_not_le outside
    have inside := holds.inside pos_lt
    rw [elasticarrayGet_inside holds.positive holds.array inside,
      List.getElem?_eq_getElem (by omega)]
    refine congrArg some ?_
    rw [Nat.succ_mul] at inside
    unfold recordAt
    rw [slice_contents inside, ← slice_records holds.uniform,
      ← holds.records]
    unfold slice
    rw [List.drop_drop, Nat.add_mul, Nat.add_comm]

/-- A record is overwritten where `elasticqueue_get` finds it. -/
theorem copyIn_spec (holds : Holds w EQ recs) {pos : Nat}
    (pos_lt : pos < recs.length) (length : rec.length = EQ.reclen) :
    ∃ ptr EA, elasticqueueGet w EQ pos = some ptr ∧
      copyIn EQ.EA ptr rec = .ok EA ∧
      Holds w { EQ with EA } (recs.set pos rec) := by
  have inside := holds.inside (holds.length ▸ pos_lt)
  have positive := holds.positive
  have place : (pos + EQ.offset) * EQ.reclen =
      EQ.offset * EQ.reclen + pos * EQ.reclen := by
    rw [Nat.add_mul, Nat.add_comm]
  refine ⟨(pos + EQ.offset) * EQ.reclen, ?_⟩
  have found : elasticqueueGet w EQ pos =
      some ((pos + EQ.offset) * EQ.reclen) := by
    unfold elasticqueueGet
    rw [if_neg (Nat.not_le_of_lt (holds.length ▸ pos_lt)),
      elasticarrayGet_inside positive holds.array inside]
  rw [Nat.succ_mul] at inside
  unfold copyIn
  cases isBuf : EQ.EA.buf with
  | none =>
      have := holds.array.isNull.mp isBuf
      have := holds.array.size_le
      omega
  | some buf =>
      obtain ⟨wrote, eq⟩ := contents_write holds.array isBuf
        (by rw [length]; exact inside)
      refine ⟨_, found, rfl, positive, wrote, holds.offset_le, holds.size, ?_,
        ?_, ?_⟩
      · rw [List.length_set, holds.length]
      · intro other member
        cases List.mem_or_eq_of_mem_set member with
        | inl old => exact holds.uniform other old
        | inr new => rw [new, length]
      · dsimp only
        rw [eq, place, drop_write, holds.records,
          write_records holds.uniform pos_lt length]
        rw [holds.array.length_contents, ← place]
        omega

/-! ## `elasticqueue_init` and `elasticqueue_add` -/

theorem elasticqueueInit_spec (positive : 0 < reclen)
    (malloc arrayMalloc : Bool) (realloc : Malloc) :
    (elasticqueueInit w malloc arrayMalloc realloc reclen = .ok none ∧
        (malloc = false ∨ arrayMalloc = false ∨ realloc = none)) ∨
      ∃ EQ,
        elasticqueueInit w malloc arrayMalloc realloc reclen =
          .ok (some EQ) ∧
        Holds w EQ [] ∧ EQ.reclen = reclen ∧ Tight EQ.EA := by
  unfold elasticqueueInit
  rw [if_neg (not_not_intro positive)]
  cases malloc with
  | false => exact Or.inl ⟨rfl, Or.inl rfl⟩
  | true =>
      simp only [Bool.not_true, Bool.false_eq_true, if_false]
      cases elasticarrayInit_spec (w := w) positive 0 arrayMalloc realloc with
      | inl failed =>
          obtain ⟨result, noArray | noMemory | tooLarge⟩ := failed
          · rw [result]
            exact Or.inl ⟨rfl, Or.inr (Or.inl noArray)⟩
          · rw [result]
            exact Or.inl ⟨rfl, Or.inr (Or.inr noMemory)⟩
          · have := Nat.two_pow_pos w
            omega
      | inr done =>
          obtain ⟨EA, result, invariant, size, tight⟩ := done
          rw [result]
          refine Or.inr ⟨_, rfl, ⟨positive, invariant, Nat.le_refl 0, size,
            rfl, ?_, ?_⟩, rfl, tight⟩
          · intro rec member
            cases member
          · refine List.drop_of_length_le ?_
            rw [invariant.length_contents, size]

theorem elasticqueueAdd_spec (holds : Holds w EQ recs)
    (length : rec.length = EQ.reclen) (realloc : Malloc) :
    (elasticqueueAdd w realloc EQ rec = .ok (-1, EQ) ∧
        (realloc = none ∨ 2 ^ w ≤ (2 * recs.length + 1) * EQ.reclen)) ∨
      ∃ after, elasticqueueAdd w realloc EQ rec = .ok (0, after) ∧
        Holds w after (recs ++ [rec]) ∧ after.reclen = EQ.reclen ∧
        Tight after.EA := by
  unfold elasticqueueAdd
  have readable : 1 * EQ.reclen < 2 ^ w → 1 * EQ.reclen ≤ rec.length := by
    omega
  cases elasticarrayAppend_spec holds.array holds.positive readable
      realloc with
  | inl failed =>
      obtain ⟨result, cause⟩ := failed
      rw [result]
      refine Or.inl ⟨rfl, cause.imp_right fun tooLarge => ?_⟩
      have twice : EQ.offset + EQ.len + 1 ≤ 2 * recs.length + 1 := by
        have := holds.offset_le
        have := holds.length
        omega
      calc 2 ^ w ≤ EQ.EA.size + 1 * EQ.reclen := tooLarge
        _ = (EQ.offset + EQ.len + 1) * EQ.reclen := by
          rw [holds.size, ← Nat.add_mul]
        _ ≤ (2 * recs.length + 1) * EQ.reclen :=
          Nat.mul_le_mul_right EQ.reclen twice
  | inr done =>
      obtain ⟨EA, result, invariant, appended, tight⟩ := done
      rw [Nat.one_mul, ← length, List.take_length] at appended
      rw [result]
      have size : EA.size = (EQ.offset + (EQ.len + 1)) * EQ.reclen := by
        have lengths := congrArg List.length appended
        rw [List.length_append, invariant.length_contents,
          holds.array.length_contents, holds.size] at lengths
        rw [lengths, length, ← Nat.add_assoc, Nat.succ_mul]
      -- The number of records fits into a word, as the bytes do.
      have noWrap : (EQ.len + 1) % 2 ^ w = EQ.len + 1 := by
        have records := Nat.le_mul_of_pos_right
          (EQ.offset + (EQ.len + 1)) holds.positive
        have := invariant.size_le
        have := invariant.alloc_lt
        exact Nat.mod_eq_of_lt (by omega)
      have offset_le := holds.offset_le
      refine Or.inr ⟨_, rfl, ⟨holds.positive, invariant, ?_, ?_, ?_, ?_, ?_⟩,
        rfl, tight⟩
      · dsimp only
        omega
      · dsimp only
        rw [noWrap, size]
      · rw [noWrap, List.length_append, holds.length]
        rfl
      · intro other member
        cases List.mem_append.mp member with
        | inl old => exact holds.uniform other old
        | inr new => rw [List.mem_singleton.mp new, length]
      · have inside : EQ.offset * EQ.reclen ≤ (contents EQ.EA).length := by
          rw [holds.array.length_contents, holds.size]
          exact Nat.mul_le_mul_right EQ.reclen (Nat.le_add_right _ _)
        dsimp only
        rw [appended, List.drop_append_of_le_length inside, holds.records,
          List.flatten_append, List.flatten_cons, List.flatten_nil,
          List.append_nil]

/-! ## `elasticqueue_delete` -/

theorem copyWithin_spec {newpos oldpos n : Nat} (invariant : Invariant w EA)
    (positive : 0 < n) (insideNew : newpos + n ≤ EA.size)
    (insideOld : oldpos + n ≤ EA.size) :
    ∃ after, copyWithin EA newpos oldpos n = .ok after ∧
      Invariant w after ∧ after.size = EA.size ∧ after.alloc = EA.alloc ∧
      contents after =
        write (contents EA) newpos (slice (contents EA) oldpos n) := by
  unfold copyWithin copyIn
  rw [slice_contents insideOld]
  cases isBuf : EA.buf with
  | none =>
      have := invariant.isNull.mp isBuf
      have := invariant.size_le
      omega
  | some buf =>
      have length : (slice (contents EA) oldpos n).length = n := by
        refine length_slice ?_
        rw [invariant.length_contents]
        exact insideOld
      obtain ⟨wrote, eq⟩ := contents_write invariant isBuf
        (by rw [length]; exact insideNew)
      exact ⟨_, rfl, wrote, rfl, rfl, eq⟩

/--
After `n` turns the first `n` records behind the offset are in front, and what
lies behind them is as it was.
-/
theorem moveRecords_spec {offset total n : Nat} (positive : 0 < reclen)
    (invariant : Invariant w EA)
    (size : EA.size = (offset + total) * reclen) (le : n ≤ total) :
    ∃ after, moveRecords w EA offset reclen n = .ok after ∧
      Invariant w after ∧ after.size = EA.size ∧ after.alloc = EA.alloc ∧
      contents after =
        slice (contents EA) (offset * reclen) (n * reclen) ++
          (contents EA).drop (n * reclen) := by
  induction n with
  | zero =>
      refine ⟨EA, rfl, invariant, rfl, rfl, ?_⟩
      rw [Nat.zero_mul, slice_zero, List.drop_zero, List.nil_append]
  | succ n ih =>
      obtain ⟨moved, result, kept, sizeMoved, allocMoved, same⟩ :=
        ih (Nat.le_of_succ_le le)
      -- Both places lie in the array.
      have insideOld : (n + offset + 1) * reclen ≤ moved.size := by
        rw [sizeMoved, size]
        exact Nat.mul_le_mul_right reclen (by omega)
      have insideNew : (n + 1) * reclen ≤ moved.size :=
        (Nat.mul_le_mul_right reclen (by omega)).trans insideOld
      have oldpos := elasticarrayGet_inside positive kept insideOld
      have newpos : elasticarrayGet w n reclen = n * reclen := by
        have small := kept.alloc_lt
        have := kept.size_le
        rw [Nat.succ_mul] at insideNew
        exact Nat.mod_eq_of_lt (by omega)
      rw [Nat.succ_mul] at insideOld insideNew
      obtain ⟨after, copied, wrote, sizeAfter, allocAfter, eq⟩ :=
        copyWithin_spec kept positive insideNew insideOld
      refine ⟨after, ?_, wrote, sizeAfter.trans sizeMoved,
        allocAfter.trans allocMoved, ?_⟩
      · unfold moveRecords
        rw [result]
        dsimp only [bind, Except.bind]
        rw [oldpos, newpos, copied]
      · have source : (n + offset) * reclen =
            offset * reclen + n * reclen := by
          rw [Nat.add_mul, Nat.add_comm]
        rw [source] at insideOld eq
        rw [eq, same, Nat.succ_mul]
        refine write_moved ?_
        rw [invariant.length_contents, ← sizeMoved]
        exact insideOld

/--
The places the loop writes to lie before those from which it still has to
read, and all of them lie in the array.
-/
theorem moveRecords_ahead (holds : Holds w EQ recs) {i j : Nat}
    (notAfter : i ≤ j) (inside : j < EQ.len - 1) :
    elasticarrayGet w i EQ.reclen + EQ.reclen ≤
        elasticarrayGet w ((j + (EQ.offset + 1)) % 2 ^ w) EQ.reclen ∧
      elasticarrayGet w ((j + (EQ.offset + 1)) % 2 ^ w) EQ.reclen +
        EQ.reclen ≤ EQ.EA.size := by
  have insideOld : (j + (EQ.offset + 1) + 1) * EQ.reclen ≤ EQ.EA.size := by
    have := holds.inside (by omega : j + 1 < EQ.len)
    rwa [Nat.add_right_comm j 1 EQ.offset] at this
  have ahead : (i + 1) * EQ.reclen ≤ (j + (EQ.offset + 1)) * EQ.reclen :=
    Nat.mul_le_mul_right EQ.reclen (by omega)
  rw [elasticarrayGet_inside holds.positive holds.array insideOld]
  rw [Nat.succ_mul] at insideOld ahead
  refine ⟨le_trans ?_ ahead, insideOld⟩
  exact Nat.add_le_add_right (Nat.mod_le _ _) _

/-- `elasticqueue_delete` does not fail to give memory back. -/
def GivesBack (w : Nat) (realloc : Malloc) (EQ : Elasticqueue) : Prop :=
  EQ.len ≠ 0 → EQ.offset + 1 > EQ.len - 1 →
    ¬ NotShrunk w realloc EQ.EA ((EQ.len - 1) * EQ.reclen)

theorem elasticqueueDelete_spec (holds : Holds w EQ recs)
    (realloc : Malloc) :
    ∃ after, elasticqueueDelete w realloc EQ = .ok after ∧
      Holds w after recs.tail ∧ after.reclen = EQ.reclen ∧
      (recs = [] → after = EQ) ∧
      (Tight EQ.EA → GivesBack w realloc EQ → Tight after.EA) := by
  have length := holds.length
  unfold elasticqueueDelete
  by_cases empty : EQ.len = 0
  · have none : recs = [] := List.eq_nil_of_length_eq_zero (by omega)
    rw [if_pos empty]
    refine ⟨EQ, rfl, ?_, rfl, fun _ => rfl, fun tight _ => tight⟩
    rw [none] at holds ⊢
    exact holds
  · rw [if_neg empty]
    have notNil : recs ≠ [] := by
      rintro rfl
      exact empty length.symm
    have offset_le := holds.offset_le
    have noWrap : (EQ.offset + 1) % 2 ^ w = EQ.offset + 1 := by
      have := holds.length_lt
      exact Nat.mod_eq_of_lt (by omega)
    have lengthTail : recs.tail.length = EQ.len - 1 := by
      rw [List.length_tail, length]
    have uniformTail : ∀ rec ∈ recs.tail, rec.length = EQ.reclen :=
      fun rec member => holds.uniform rec (List.mem_of_mem_tail member)
    have size : EQ.EA.size =
        (EQ.offset + 1 + (EQ.len - 1)) * EQ.reclen := by
      rw [holds.size]
      exact congrArg (· * EQ.reclen) (by omega)
    have recordsTail : (contents EQ.EA).drop
        ((EQ.offset + 1) * EQ.reclen) = recs.tail.flatten := by
      have dropped := drop_records holds.uniform 1
      rw [List.drop_one, Nat.one_mul, ← holds.records, List.drop_drop]
        at dropped
      rw [Nat.succ_mul, dropped]
    dsimp only
    rw [noWrap]
    by_cases move : EQ.offset + 1 > EQ.len - 1
    · rw [if_pos move]
      obtain ⟨moved, resultMoved, kept, sizeMoved, allocMoved, same⟩ :=
        moveRecords_spec holds.positive holds.array size
          (Nat.le_refl _)
      obtain ⟨shrunk, resultShrunk, keptShrunk, contentsShrunk, sizeShrunk,
        tight⟩ := elasticarrayShrink_spec kept holds.positive
          (EQ.offset + 1) realloc
      have left : keptSize moved.size (EQ.offset + 1) EQ.reclen =
          (EQ.len - 1) * EQ.reclen := by
        unfold keptSize
        rw [sizeMoved, size, Nat.add_mul, Nat.add_sub_cancel_left]
      rw [left] at contentsShrunk sizeShrunk tight
      refine ⟨{ EQ with EA := shrunk, offset := 0, len := EQ.len - 1 }, ?_,
        ⟨holds.positive, keptShrunk, Nat.zero_le _, ?_, lengthTail,
          uniformTail, ?_⟩, rfl, fun nil => absurd nil notNil, ?_⟩
      · rw [resultMoved]
        dsimp only [bind, Except.bind]
        rw [resultShrunk]
      · dsimp only
        rw [sizeShrunk, Nat.zero_add]
      · have all : slice (contents EQ.EA) ((EQ.offset + 1) * EQ.reclen)
            ((EQ.len - 1) * EQ.reclen) = recs.tail.flatten := by
          unfold slice
          rw [recordsTail, List.take_of_length_le]
          rw [length_records uniformTail, lengthTail]
        dsimp only
        rw [Nat.zero_mul, List.drop_zero, contentsShrunk, same, all]
        refine List.take_left' ?_
        rw [length_records uniformTail, lengthTail]
      · intro _ givesBack
        refine tight.resolve_right ?_
        unfold NotShrunk newAlloc
        rw [allocMoved]
        exact givesBack empty move
    · rw [if_neg move]
      refine ⟨_, rfl, ⟨holds.positive, holds.array, ?_, size, lengthTail,
        uniformTail, recordsTail⟩, rfl, fun nil => absurd nil notNil,
        fun tight _ => tight⟩
      dsimp only
      omega

end Libcperciva.Datastruct.ElasticqueueOps
