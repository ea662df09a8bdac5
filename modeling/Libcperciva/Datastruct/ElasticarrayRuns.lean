import Libcperciva.Datastruct.ElasticarrayOps

/-!
# Every run of an elastic array

A run starts with a successful `elasticarray_init` and makes calls of the
other operations in any order, with any numbers and lengths of records and
any outcomes of the allocations.  The contents of the array go through the
states of a list of bytes.
-/

namespace Libcperciva.Datastruct.ElasticarrayRuns

open Libcperciva.Datastruct.ElasticarrayModel
open Libcperciva.Datastruct.ElasticarrayOps

variable {w : Nat} {EA : Elasticarray}

/-! ## Runs -/

/-- A call, with the outcome of its allocation. -/
inductive Op where
  | resize (realloc : Malloc) (nrec reclen : Nat)
  | append (realloc : Malloc) (buf : List UInt8) (nrec reclen : Nat)
  | shrink (realloc : Malloc) (nrec reclen : Nat)
  | truncate (realloc : Malloc)
  | exportdup (malloc : Bool) (reclen : Nat)

/-- What a call returns, the buffer of `elasticarray_exportdup` and the array
it leaves. -/
structure Reply where
  status : Int
  exported : Option (List UInt8)
  EA : Elasticarray

/-- One call; `elasticarray_shrink` returns nothing, which is a success. -/
def call (w : Nat) (EA : Elasticarray) :
    Op → Except ElasticarrayFault Reply
  | .resize realloc nrec reclen => do
      let (status, EA) ← elasticarrayResize w realloc EA nrec reclen
      .ok ⟨status, none, EA⟩
  | .append realloc buf nrec reclen => do
      let (status, EA) ← elasticarrayAppend w realloc EA buf nrec reclen
      .ok ⟨status, none, EA⟩
  | .shrink realloc nrec reclen => do
      let EA ← elasticarrayShrink w realloc EA nrec reclen
      .ok ⟨0, none, EA⟩
  | .truncate realloc =>
      let (status, EA) := elasticarrayTruncate realloc EA
      .ok ⟨status, none, EA⟩
  | .exportdup malloc reclen =>
      let (status, buf, _) := elasticarrayExportdup malloc EA reclen
      .ok ⟨status, buf, EA⟩

/-- The lengths of records are positive, and there are as many bytes to append
as the call says, if there can be that many. -/
def Permitted (w : Nat) : Op → Prop
  | .resize _ _ reclen => 0 < reclen
  | .append _ buf nrec reclen =>
      0 < reclen ∧ (nrec * reclen < 2 ^ w → nrec * reclen ≤ buf.length)
  | .shrink _ _ reclen => 0 < reclen
  | .truncate _ => True
  | .exportdup _ reclen => 0 < reclen

/-- The states of an array. -/
inductive Reachable (w : Nat) : Elasticarray → Prop where
  | init {malloc : Bool} {realloc : Malloc} {nrec reclen : Nat}
      {EA : Elasticarray} (positive : 0 < reclen)
      (result : elasticarrayInit w malloc realloc nrec reclen =
        .ok (some EA)) :
      Reachable w EA
  | call {EA : Elasticarray} {reply : Reply} (op : Op)
      (before : Reachable w EA) (permitted : Permitted w op)
      (result : call w EA op = .ok reply) :
      Reachable w reply.EA

/-! ## The list of bytes -/

/-- What a call that succeeds does to a list of bytes. -/
def Effect (before after : List UInt8) : Op → Prop
  | .resize _ nrec reclen =>
      after.length = nrec * reclen ∧
        ∀ n, n ≤ before.length → n ≤ after.length →
          after.take n = before.take n
  | .append _ buf nrec reclen => after = before ++ buf.take (nrec * reclen)
  | .shrink _ nrec reclen =>
      after = before.take (before.length - nrec * reclen)
  | .truncate _ => after = before
  | .exportdup _ _ => after = before

/-- After which calls an array may occupy much more than it needs: after an
`elasticarray_shrink` that tried to give memory back and could not, and where
it did already. -/
def MayBeLarge (w : Nat) (EA : Elasticarray) : Op → Prop
  | .shrink realloc nrec reclen =>
      NotShrunk w realloc EA (EA.size - nrec * reclen)
  | .exportdup _ _ => True
  | _ => False

/-- Why a call can fail: there is no memory, or the size is no `size_t`. -/
def CanFail (w : Nat) (EA : Elasticarray) : Op → Prop
  | .resize realloc nrec reclen => realloc = none ∨ 2 ^ w ≤ nrec * reclen
  | .append realloc _ nrec reclen =>
      realloc = none ∨ 2 ^ w ≤ EA.size + nrec * reclen
  | .shrink _ _ _ => False
  | .truncate realloc => realloc = none
  | .exportdup malloc _ => malloc = false

/-- How a call ends: it returns, and either fails for a reason and leaves the
array unchanged, or does its work. -/
inductive Ends (w : Nat) (EA : Elasticarray) (op : Op) :
    Except ElasticarrayFault Reply → Prop where
  | failed (canFail : CanFail w EA op) :
      Ends w EA op (.ok ⟨-1, none, EA⟩)
  | done (exported : Option (List UInt8)) (after : Elasticarray)
      (effect : Effect (contents EA) (contents after) op)
      (copied : ∀ malloc reclen, op = .exportdup malloc reclen →
        exported.getD [] = contents EA)
      (tight : Tight after ∨ MayBeLarge w EA op) :
      Ends w EA op (.ok ⟨0, exported, after⟩)

/-! ## One call -/

/-- A call ends in one of the two ways, and keeps the invariant. -/
def Keeps (w : Nat) (EA : Elasticarray) (op : Op)
    (result : Except ElasticarrayFault Reply) : Prop :=
  Ends w EA op result ∧
    ∀ reply, result = .ok reply → Invariant w reply.EA

variable {op : Op}

theorem Keeps.failed (invariant : Invariant w EA)
    (cause : CanFail w EA op) : Keeps w EA op (.ok ⟨-1, none, EA⟩) := by
  refine ⟨Ends.failed cause, ?_⟩
  rintro _ ⟨⟩
  exact invariant

theorem Keeps.done {exported : Option (List UInt8)} {after : Elasticarray}
    (kept : Invariant w after)
    (effect : Effect (contents EA) (contents after) op)
    (copied : ∀ malloc reclen, op = .exportdup malloc reclen →
      exported.getD [] = contents EA)
    (tight : Tight after ∨ MayBeLarge w EA op) :
    Keeps w EA op (.ok ⟨0, exported, after⟩) := by
  refine ⟨Ends.done exported after effect copied tight, ?_⟩
  rintro _ ⟨⟩
  exact kept

theorem call_keeps (invariant : Invariant w EA)
    (permitted : Permitted w op) : Keeps w EA op (call w EA op) := by
  have size := invariant.length_contents
  cases op with
  | resize realloc nrec reclen =>
      dsimp only [call]
      rcases elasticarrayResize_spec invariant permitted nrec realloc with
        ⟨result, cause⟩ | ⟨after, result, kept, sizeAfter, tight, same⟩
      · rw [result]
        exact Keeps.failed invariant cause
      · rw [result]
        have lengthAfter := kept.length_contents.trans sizeAfter
        refine Keeps.done kept ⟨lengthAfter, ?_⟩ ?_ (Or.inl tight)
        · intro n old new
          exact same n (old.trans size.le) (new.trans lengthAfter.le)
        · rintro _ _ ⟨⟩
  | append realloc buf nrec reclen =>
      dsimp only [call]
      obtain ⟨positive, readable⟩ := permitted
      rcases elasticarrayAppend_spec invariant positive readable realloc with
        ⟨result, cause⟩ | ⟨after, result, kept, appended, tight⟩
      · rw [result]
        exact Keeps.failed invariant cause
      · rw [result]
        refine Keeps.done kept appended ?_ (Or.inl tight)
        rintro _ _ ⟨⟩
  | shrink realloc nrec reclen =>
      dsimp only [call]
      obtain ⟨after, result, kept, shrunk, _, tight⟩ :=
        elasticarrayShrink_spec invariant permitted nrec realloc
      rw [result]
      refine Keeps.done kept ?_ ?_ tight
      · change contents after =
          (contents EA).take ((contents EA).length - nrec * reclen)
        rw [size]
        exact shrunk
      · rintro _ _ ⟨⟩
  | truncate realloc =>
      dsimp only [call]
      rcases elasticarrayTruncate_spec invariant realloc with
        ⟨result, cause⟩ | ⟨after, result, kept, same, sizeAfter, allocAfter⟩
      · rw [result]
        exact Keeps.failed invariant cause
      · rw [result]
        have tight : Tight after := by
          unfold Tight
          omega
        refine Keeps.done kept same ?_ (Or.inl tight)
        rintro _ _ ⟨⟩
  | exportdup malloc reclen =>
      dsimp only [call]
      rcases elasticarrayExportdup_spec malloc EA reclen with
        ⟨result, cause⟩ | ⟨copy, result, same⟩
      · rw [result]
        exact Keeps.failed invariant cause
      · rw [result]
        exact Keeps.done invariant rfl (fun _ _ _ => same) (Or.inr trivial)

/-! ## Every run -/

theorem Reachable.invariant (reachable : Reachable w EA) :
    Invariant w EA := by
  induction reachable with
  | @init malloc realloc nrec reclen EA positive result =>
      cases elasticarrayInit_spec positive nrec malloc realloc with
      | inl failed =>
          rw [result] at failed
          cases failed.1
      | inr done =>
          obtain ⟨made, resultMade, invariant, _⟩ := done
          rw [result] at resultMade
          cases resultMade
          exact invariant
  | call op _ permitted result before =>
      exact (call_keeps before permitted).2 _ result

/--
The array holds a list of bytes.  Every call does to the list what it says,
or fails and leaves the array unchanged; no assertion fails, and the buffer is
large enough and, unless memory could not be given back, not much larger.
-/
theorem elasticarray_refines_bytes (w : Nat) :
    (∀ malloc realloc nrec reclen, 0 < reclen →
      (elasticarrayInit w malloc realloc nrec reclen = .ok none ∧
          (malloc = false ∨ realloc = none ∨ 2 ^ w ≤ nrec * reclen)) ∨
        ∃ EA, elasticarrayInit w malloc realloc nrec reclen = .ok (some EA) ∧
          (contents EA).length = nrec * reclen ∧ Tight EA) ∧
      ∀ EA, Reachable w EA →
        EA.size ≤ EA.alloc ∧ (EA.buf = none ↔ EA.alloc = 0) ∧
          (contents EA).length = EA.size ∧
          ∀ op, Permitted w op → Ends w EA op (call w EA op) := by
  constructor
  · intro malloc realloc nrec reclen positive
    refine (elasticarrayInit_spec positive nrec malloc realloc).imp_right ?_
    rintro ⟨EA, result, invariant, size, tight⟩
    exact ⟨EA, result, invariant.length_contents.trans size, tight⟩
  · intro EA reachable
    have invariant := reachable.invariant
    exact ⟨invariant.size_le, invariant.isNull, invariant.length_contents,
      fun op permitted => (call_keeps invariant permitted).1⟩

/-- An array of two records of two bytes, to which a record of one byte is
appended. -/
theorem elasticarray_refines_bytes_example :
    Ends 64 ⟨4, 4, some [0, 0, 0, 0]⟩ (.append (some fun _ => 0) [7] 1 1)
      (call 64 ⟨4, 4, some [0, 0, 0, 0]⟩
        (.append (some fun _ => 0) [7] 1 1)) := by
  have reachable : Reachable 64 ⟨4, 4, some [0, 0, 0, 0]⟩ :=
    @Reachable.init 64 true (some fun _ => 0) 2 2 _ (by decide) (by rfl)
  exact ((elasticarray_refines_bytes 64).2 _ reachable).2.2.2 _
    ⟨by decide, fun _ => by decide⟩

end Libcperciva.Datastruct.ElasticarrayRuns
