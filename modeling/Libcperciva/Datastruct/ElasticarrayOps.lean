import Libcperciva.Datastruct.ElasticarrayModel
import Mathlib.Tactic.Linarith

/-!
# What the elastic array does

The contents of an array are the first `size` bytes of its buffer.  `resize`
keeps them as far as the new size allows, and gives memory back unless it is
used at least to a quarter.
-/

namespace Libcperciva.Datastruct.ElasticarrayOps

open Libcperciva.Lib.Buffer
open Libcperciva.Datastruct.ElasticarrayModel

variable {w nsize nrec reclen : Nat} {EA after : Elasticarray}
  {realloc : Malloc}

/-- The bytes in the array. -/
def contents (EA : Elasticarray) : List UInt8 :=
  (EA.buf.getD []).take EA.size

/-- What holds of an array between calls. -/
structure Invariant (w : Nat) (EA : Elasticarray) : Prop where
  size_le : EA.size ≤ EA.alloc
  alloc_lt : EA.alloc < 2 ^ w
  isNull : EA.buf = none ↔ EA.alloc = 0
  length : (EA.buf.getD []).length = EA.alloc

/-- The array does not occupy much more than it needs. -/
def Tight (EA : Elasticarray) : Prop := EA.alloc ≤ 4 * EA.size + 3

theorem Invariant.length_contents (invariant : Invariant w EA) :
    (contents EA).length = EA.size := by
  unfold contents
  rw [List.length_take, invariant.length, Nat.min_eq_left invariant.size_le]

/-- The product of the number and the length of records can be computed. -/
theorem product_lt (positive : 0 < reclen)
    (noOverflow : ¬ nrec > sizeMax w / reclen) : nrec * reclen < 2 ^ w := by
  have power := Nat.two_pow_pos w
  have fits := (Nat.le_div_iff_mul_le positive).mp (Nat.le_of_not_lt noOverflow)
  unfold sizeMax at fits
  omega

/-- It overflows where the check says so. -/
theorem product_ge (positive : 0 < reclen)
    (overflow : nrec > sizeMax w / reclen) : 2 ^ w ≤ nrec * reclen := by
  have large := (Nat.div_lt_iff_lt_mul positive).mp overflow
  unfold sizeMax at large
  omega

/-! ## `realloc` -/

theorem reallocated_length (memory : Nat → UInt8)
    (buf : Option (List UInt8)) (n : Nat) :
    (reallocated memory buf n).length = n := by
  unfold reallocated
  simp only [List.length_append, List.length_take, List.length_map,
    List.length_range]
  omega

/-- What was there before and fits is kept. -/
theorem reallocated_take (memory : Nat → UInt8) {buf : Option (List UInt8)}
    {n m : Nat} (inside : m ≤ (buf.getD []).length) (fits : m ≤ n) :
    (reallocated memory buf n).take m = (buf.getD []).take m := by
  unfold reallocated
  dsimp only
  have length : m ≤ ((buf.getD []).take n).length := by
    rw [List.length_take]
    omega
  rw [List.take_append_of_le_length length, List.take_take,
    Nat.min_eq_left fits]

/-! ## `resize` -/

theorem newAlloc_ge (fits : nsize < 2 ^ w) (alloc_lt : EA.alloc < 2 ^ w) :
    nsize ≤ newAlloc w EA nsize := by
  unfold newAlloc
  dsimp only
  split_ifs
  · exact Nat.le_refl _
  · omega
  · rw [Nat.mod_eq_of_lt (by omega)]
    omega
  · omega

theorem newAlloc_lt (fits : nsize < 2 ^ w) (alloc_lt : EA.alloc < 2 ^ w) :
    newAlloc w EA nsize < 2 ^ w := by
  unfold newAlloc
  dsimp only
  split_ifs
  · exact fits
  · exact Nat.mod_lt _ (Nat.two_pow_pos w)
  · exact Nat.mod_lt _ (Nat.two_pow_pos w)
  · exact alloc_lt

theorem newAlloc_le (nsize : Nat) (alloc_lt : EA.alloc < 2 ^ w) :
    newAlloc w EA nsize ≤ 4 * nsize + 3 := by
  unfold newAlloc
  dsimp only
  split_ifs with enlarge wrapped shrink
  · omega
  · have := Nat.mod_le (EA.alloc * 2) (2 ^ w)
    omega
  · rw [Nat.mod_eq_of_lt (by omega)]
    omega
  · omega

/-- How `resize` ends. -/
inductive Resizes (w : Nat) (realloc : Malloc) (EA : Elasticarray)
    (nsize : Nat) : Except ElasticarrayFault (Int × Elasticarray) → Prop where
  | done {after : Elasticarray} (invariant : Invariant w after)
      (size : after.size = nsize) (tight : Tight after)
      (kept : ∀ n, n ≤ EA.size → n ≤ nsize →
        (contents after).take n = (contents EA).take n) :
      Resizes w realloc EA nsize (.ok (0, after))
  | failed (noMemory : realloc = none)
      (called : newAlloc w EA nsize ≠ 0 ∧ newAlloc w EA nsize ≠ EA.alloc) :
      Resizes w realloc EA nsize (.ok (-1, EA))

theorem resize_resizes (invariant : Invariant w EA) (fits : nsize < 2 ^ w)
    (realloc : Malloc) :
    Resizes w realloc EA nsize (resize w realloc EA nsize) := by
  have size_le := invariant.size_le
  have alloc_lt := invariant.alloc_lt
  have enough := newAlloc_ge fits alloc_lt
  have small := newAlloc_lt fits alloc_lt
  have tight := newAlloc_le nsize alloc_lt
  unfold resize
  dsimp only
  split_ifs with zero empty different
  · have none : ∀ {n}, n ≤ nsize → n = 0 := by omega
    refine Resizes.done
      (⟨empty.le, Nat.two_pow_pos w, iff_of_true rfl rfl, rfl⟩ :
        Invariant w ⟨nsize, 0, .none⟩) rfl (Nat.zero_le _) ?_
    intro n _ new
    rw [none new, List.take_zero, List.take_zero]
  · omega
  · cases realloc with
    | none => exact Resizes.failed rfl ⟨zero, different⟩
    | some memory =>
        have length :=
          reallocated_length memory EA.buf (newAlloc w EA nsize)
        refine Resizes.done ⟨enough, small, ?_, length⟩ rfl tight ?_
        · exact iff_of_false (Option.some_ne_none _) zero
        · intro n old new
          unfold contents
          rw [List.take_take, List.take_take, Nat.min_eq_left new,
            Nat.min_eq_left old]
          refine reallocated_take memory ?_ (new.trans enough)
          rw [invariant.length]
          exact old.trans size_le
  · have same := not_not.mp different
    rw [same] at enough tight
    refine Resizes.done ⟨enough, alloc_lt, invariant.isNull,
      invariant.length⟩ rfl tight ?_
    intro n old new
    unfold contents
    rw [List.take_take, List.take_take, Nat.min_eq_left new,
      Nat.min_eq_left old]

/-- What is written into the array is written into its contents. -/
theorem contents_write {bytes : List UInt8} {buf : List UInt8}
    (invariant : Invariant w EA) (isBuf : EA.buf = some buf)
    {pos : Nat} (inside : pos + bytes.length ≤ EA.size) :
    Invariant w { EA with buf := some (write buf pos bytes) } ∧
      contents { EA with buf := some (write buf pos bytes) } =
        write (contents EA) pos bytes := by
  have size_le := invariant.size_le
  have length := invariant.length
  rw [isBuf] at length
  change buf.length = EA.alloc at length
  have written : (write buf pos bytes).length = EA.alloc := by
    rw [length_write (by omega), length]
  refine ⟨⟨size_le, invariant.alloc_lt, ?_, written⟩, ?_⟩
  · rw [← invariant.isNull, isBuf]
    exact iff_of_false (Option.some_ne_none _) (Option.some_ne_none _)
  · unfold contents
    rw [isBuf]
    exact take_write inside

/-! ## Calls -/

/-- Why an array may occupy much more than it needs: it should have been
shrunk, and there was no memory. -/
def NotShrunk (w : Nat) (realloc : Malloc) (EA : Elasticarray)
    (nsize : Nat) : Prop :=
  realloc = none ∧ newAlloc w EA nsize ≠ 0 ∧ newAlloc w EA nsize ≠ EA.alloc

theorem elasticarrayResize_spec (invariant : Invariant w EA)
    (positive : 0 < reclen) (nrec : Nat) (realloc : Malloc) :
    (elasticarrayResize w realloc EA nrec reclen = .ok (-1, EA) ∧
        (realloc = none ∨ 2 ^ w ≤ nrec * reclen)) ∨
      ∃ after, elasticarrayResize w realloc EA nrec reclen = .ok (0, after) ∧
        Invariant w after ∧ after.size = nrec * reclen ∧ Tight after ∧
        ∀ n, n ≤ EA.size → n ≤ nrec * reclen →
          (contents after).take n = (contents EA).take n := by
  unfold elasticarrayResize
  split_ifs with overflow
  · exact Or.inl ⟨rfl, Or.inr (product_ge positive overflow)⟩
  · have fits := product_lt positive overflow
    rw [Nat.mod_eq_of_lt fits]
    have resizes := resize_resizes invariant fits realloc
    generalize resize w realloc EA (nrec * reclen) = result at resizes
    cases resizes with
    | done kept size tight same =>
        exact Or.inr ⟨_, rfl, kept, size, tight, same⟩
    | failed noMemory _ => exact Or.inl ⟨rfl, Or.inl noMemory⟩

theorem empty_invariant (w : Nat) :
    Invariant w { size := 0, alloc := 0, buf := none } where
  size_le := Nat.le_refl 0
  alloc_lt := Nat.two_pow_pos w
  isNull := iff_of_true rfl rfl
  length := rfl

theorem elasticarrayInit_spec (positive : 0 < reclen) (nrec : Nat)
    (malloc : Bool) (realloc : Malloc) :
    (elasticarrayInit w malloc realloc nrec reclen = .ok none ∧
        (malloc = false ∨ realloc = none ∨ 2 ^ w ≤ nrec * reclen)) ∨
      ∃ EA, elasticarrayInit w malloc realloc nrec reclen = .ok (some EA) ∧
        Invariant w EA ∧ EA.size = nrec * reclen ∧ Tight EA := by
  unfold elasticarrayInit
  rw [if_neg (not_not_intro positive)]
  cases malloc with
  | false => exact Or.inl ⟨rfl, Or.inl rfl⟩
  | true =>
      cases elasticarrayResize_spec (empty_invariant w) positive nrec realloc with
      | inl failed =>
          obtain ⟨result, cause⟩ := failed
          refine Or.inl ⟨?_, Or.inr cause⟩
          simp only [Bool.not_true, Bool.false_eq_true, if_false]
          rw [result]
          rfl
      | inr done =>
          obtain ⟨after, result, invariant, size, tight, _⟩ := done
          refine Or.inr ⟨after, ?_, invariant, size, tight⟩
          simp only [Bool.not_true, Bool.false_eq_true, if_false]
          rw [result]
          rfl

theorem elasticarrayAppend_spec (invariant : Invariant w EA)
    (positive : 0 < reclen) {buf : List UInt8}
    (readable : nrec * reclen < 2 ^ w → nrec * reclen ≤ buf.length)
    (realloc : Malloc) :
    (elasticarrayAppend w realloc EA buf nrec reclen = .ok (-1, EA) ∧
        (realloc = none ∨ 2 ^ w ≤ EA.size + nrec * reclen)) ∨
      ∃ after,
        elasticarrayAppend w realloc EA buf nrec reclen = .ok (0, after) ∧
        Invariant w after ∧
        contents after = contents EA ++ buf.take (nrec * reclen) ∧
        Tight after := by
  unfold elasticarrayAppend
  dsimp only
  by_cases overflow : nrec > sizeMax w / reclen ∨
      nrec * reclen % 2 ^ w > sizeMax w - EA.size
  · rw [if_pos overflow]
    refine Or.inl ⟨rfl, Or.inr ?_⟩
    rcases overflow with overflow | noRoom
    · exact (product_ge positive overflow).trans (Nat.le_add_left _ _)
    · have less := Nat.mod_le (nrec * reclen) (2 ^ w)
      unfold sizeMax at noRoom
      omega
  · rw [if_neg overflow]
    obtain ⟨noOverflow, room⟩ := not_or.mp overflow
    have product := product_lt positive noOverflow
    rw [Nat.mod_eq_of_lt product] at room ⊢
    have length : (buf.take (nrec * reclen)).length = nrec * reclen := by
      rw [List.length_take, Nat.min_eq_left (readable product)]
    have fits : EA.size + nrec * reclen < 2 ^ w := by
      unfold sizeMax at room
      have := invariant.size_le
      have := invariant.alloc_lt
      omega
    rw [Nat.mod_eq_of_lt fits]
    generalize buf.take (nrec * reclen) = bytes at length ⊢
    rw [← length] at fits ⊢
    have resizes := resize_resizes invariant fits realloc
    generalize resize w realloc EA (EA.size + bytes.length) = result at resizes
    cases resizes with
    | failed noMemory _ => exact Or.inl ⟨rfl, Or.inl noMemory⟩
    | @done after kept size tight same =>
        have old : (contents after).take EA.size = contents EA := by
          rw [same EA.size (Nat.le_refl _) (Nat.le_add_right _ _),
            ← invariant.length_contents, List.take_length]
        refine Or.inr ?_
        by_cases some : nrec > 0
        · have filled : 0 < bytes.length := by
            rw [length]
            exact Nat.mul_pos some positive
          cases isBuf : after.buf with
          | none =>
              have := kept.isNull.mp isBuf
              have := kept.size_le
              omega
          | some memory =>
              obtain ⟨wrote, eq⟩ := contents_write kept isBuf size.ge
              refine ⟨_, ?_, wrote, ?_, tight⟩
              · dsimp only [bind, Except.bind]
                rw [if_neg (not_not_intro rfl), if_pos some,
                  if_neg (by omega)]
                unfold copyIn
                rw [isBuf]
              · rw [eq, write_end, old]
                rw [kept.length_contents]
                exact size.le
        · have noBytes : bytes.length = 0 := by
            rw [length, Nat.eq_zero_of_not_pos some, Nat.zero_mul]
          refine ⟨after, ?_, kept, ?_, tight⟩
          · dsimp only [bind, Except.bind]
            rw [if_neg (not_not_intro rfl), if_neg some]
          · rw [List.eq_nil_of_length_eq_zero noBytes, List.append_nil, ← old,
              List.take_of_length_le]
            rw [kept.length_contents]
            omega

/-- What `elasticarray_shrink` keeps. -/
def keptSize (size nrec reclen : Nat) : Nat := size - nrec * reclen

theorem elasticarrayShrink_spec (invariant : Invariant w EA)
    (positive : 0 < reclen) (nrec : Nat) (realloc : Malloc) :
    ∃ after, elasticarrayShrink w realloc EA nrec reclen = .ok after ∧
      Invariant w after ∧
      contents after = (contents EA).take (keptSize EA.size nrec reclen) ∧
      after.size = keptSize EA.size nrec reclen ∧
      (Tight after ∨
        NotShrunk w realloc EA (keptSize EA.size nrec reclen)) := by
  have size_le := invariant.size_le
  have alloc_lt := invariant.alloc_lt
  -- The checks for overflow lead to the difference, cut off at 0.
  have nsize : (if nrec > sizeMax w / reclen ∨
      nrec * reclen % 2 ^ w > EA.size then 0
      else EA.size - nrec * reclen % 2 ^ w) =
        keptSize EA.size nrec reclen := by
    unfold keptSize
    by_cases overflow : nrec > sizeMax w / reclen
    · have := product_ge positive overflow
      rw [if_pos (Or.inl overflow)]
      omega
    · rw [Nat.mod_eq_of_lt (product_lt positive overflow)]
      split_ifs with tooMany
      · have := tooMany.resolve_left overflow
        omega
      · rfl
  have less : keptSize EA.size nrec reclen ≤ EA.size := Nat.sub_le _ _
  unfold elasticarrayShrink
  dsimp only
  rw [nsize]
  have resizes := resize_resizes invariant
    (by omega : keptSize EA.size nrec reclen < 2 ^ w) realloc
  generalize keptSize EA.size nrec reclen = nsize at less resizes ⊢
  generalize resize w realloc EA nsize = result at resizes
  cases resizes with
  | @done after kept size tight same =>
      refine ⟨after, rfl, kept, ?_, size, Or.inl tight⟩
      rw [← same nsize less (Nat.le_refl _), ← size, ← kept.length_contents,
        List.take_length]
  | failed noMemory called =>
      refine ⟨{ EA with size := nsize }, rfl, ?_, ?_, rfl,
        Or.inr ⟨noMemory, called⟩⟩
      · exact ⟨less.trans size_le, alloc_lt, invariant.isNull,
          invariant.length⟩
      · unfold contents
        rw [List.take_take, Nat.min_eq_left less]

theorem elasticarrayTruncate_spec (invariant : Invariant w EA)
    (realloc : Malloc) :
    (elasticarrayTruncate realloc EA = (-1, EA) ∧ realloc = none) ∨
      ∃ after, elasticarrayTruncate realloc EA = (0, after) ∧
        Invariant w after ∧ contents after = contents EA ∧
        after.size = EA.size ∧ after.alloc = EA.size := by
  have size_le := invariant.size_le
  have alloc_lt := invariant.alloc_lt
  unfold elasticarrayTruncate
  split_ifs with empty spare
  · refine Or.inr ⟨_, rfl, ⟨?_, Nat.two_pow_pos w, ?_, rfl⟩, ?_, rfl,
      empty.symm⟩
    · exact empty.le
    · exact iff_of_true rfl rfl
    · unfold contents
      rw [empty, List.take_zero, List.take_zero]
  · cases realloc with
    | none => exact Or.inl ⟨rfl, rfl⟩
    | some memory =>
        have length := reallocated_length memory EA.buf EA.size
        refine Or.inr ⟨_, rfl, ⟨Nat.le_refl _, by dsimp only; omega, ?_,
          length⟩, ?_, rfl, rfl⟩
        · exact iff_of_false (Option.some_ne_none _) empty
        · refine reallocated_take memory ?_ (Nat.le_refl _)
          rw [invariant.length]
          exact size_le
  · exact Or.inr ⟨EA, rfl, invariant, rfl, rfl, by omega⟩

theorem elasticarrayExportdup_spec (malloc : Bool) (EA : Elasticarray)
    (reclen : Nat) :
    (elasticarrayExportdup malloc EA reclen = (-1, none, 0) ∧
        malloc = false) ∨
      ∃ copy, elasticarrayExportdup malloc EA reclen =
          (0, copy, EA.size / reclen) ∧ copy.getD [] = contents EA := by
  unfold elasticarrayExportdup
  split_ifs with empty noMemory
  · refine Or.inr ⟨none, rfl, ?_⟩
    unfold contents
    rw [empty, List.take_zero]
    rfl
  · exact Or.inl ⟨rfl, by simpa using noMemory⟩
  · exact Or.inr ⟨_, rfl, rfl⟩

end Libcperciva.Datastruct.ElasticarrayOps
