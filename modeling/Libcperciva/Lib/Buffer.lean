import Mathlib.Data.List.Basic
import Mathlib.Tactic.Common

/-!
# Buffers

A buffer is a list of elements.  Its slices are what is read from it; a write
replaces the elements from a position and leaves the others as they are.
-/

namespace Libcperciva.Lib.Buffer

variable {α : Type*} {buf data : List α} {pos n m : Nat}

/-- The `n` elements from a position. -/
def slice (buf : List α) (pos n : Nat) : List α :=
  (buf.drop pos).take n

/-- Replace the elements from a position. -/
def write (buf : List α) (pos : Nat) (data : List α) : List α :=
  buf.take pos ++ data ++ buf.drop (pos + data.length)

@[simp]
theorem slice_zero (buf : List α) (pos : Nat) : slice buf pos 0 = [] :=
  List.take_zero

theorem length_slice (fits : pos + n ≤ buf.length) :
    (slice buf pos n).length = n := by
  unfold slice
  rw [List.length_take, List.length_drop]
  omega

theorem length_write (fits : pos + data.length ≤ buf.length) :
    (write buf pos data).length = buf.length := by
  unfold write
  simp only [List.length_append, List.length_take, List.length_drop]
  omega

theorem slice_add (buf : List α) (pos n m : Nat) :
    slice buf pos (n + m) = slice buf pos n ++ slice buf (pos + n) m := by
  unfold slice
  rw [List.take_add, List.drop_drop]

/-- A slice without its first elements. -/
theorem drop_slice (buf : List α) (pos n m : Nat) :
    (slice buf pos (n + m)).drop n = slice buf (pos + n) m := by
  unfold slice
  rw [List.drop_take, List.drop_drop, Nat.add_sub_cancel_left]

theorem take_slice (le : n ≤ m) :
    (slice buf pos m).take n = slice buf pos n := by
  unfold slice
  rw [List.take_take, Nat.min_eq_left le]

/-- A write does not change what lies before it. -/
theorem slice_write_of_le {start : Nat} (before : start + n ≤ pos)
    (inside : pos ≤ buf.length) :
    slice (write buf pos data) start n = slice buf start n := by
  have length : (buf.take pos).length = pos := by
    rw [List.length_take]
    omega
  unfold slice write
  rw [List.append_assoc, List.drop_append_of_le_length (by omega),
    List.take_append_of_le_length (by rw [List.length_drop]; omega),
    List.drop_take, List.take_take, Nat.min_eq_left (by omega)]

/-- What was written can be read. -/
theorem slice_write_self (inside : pos ≤ buf.length) :
    slice (write buf pos data) pos data.length = data := by
  have length : (buf.take pos).length = pos := by
    rw [List.length_take]
    omega
  unfold slice write
  rw [List.append_assoc, List.drop_left' length, List.take_left]

/-- A write into the beginning of a buffer. -/
theorem take_write (inside : pos + data.length ≤ n) :
    (write buf pos data).take n = write (buf.take n) pos data := by
  unfold write
  by_cases fits : pos ≤ buf.length
  · have length : (buf.take pos ++ data).length = pos + data.length := by
      rw [List.length_append, List.length_take, Nat.min_eq_left fits]
    rw [List.take_append, length, List.take_of_length_le (by omega),
      List.take_take, Nat.min_eq_left (by omega), List.drop_take]
  · have short := Nat.le_of_not_le fits
    rw [List.take_of_length_le short, List.drop_of_length_le (by omega),
      List.append_nil, List.take_of_length_le (by rw [List.length_append]; omega),
      List.take_of_length_le (by omega : buf.length ≤ n),
      List.take_of_length_le short, List.drop_of_length_le (by omega),
      List.append_nil]

/-- A write behind the beginning of a buffer. -/
theorem drop_write {start : Nat} (inside : start + pos ≤ buf.length) :
    (write buf (start + pos) data).drop start =
      write (buf.drop start) pos data := by
  have length : start ≤ (buf.take (start + pos)).length := by
    rw [List.length_take]
    omega
  unfold write
  rw [List.append_assoc, List.drop_append_of_le_length length, List.drop_take,
    Nat.add_sub_cancel_left, List.drop_drop, ← Nat.add_assoc,
    List.append_assoc]

/-- What is written up to the end replaces the end. -/
theorem write_end (atEnd : buf.length ≤ pos + data.length) :
    write buf pos data = buf.take pos ++ data := by
  unfold write
  rw [List.drop_of_length_le atEnd, List.append_nil]

/-- A write behind a first part. -/
theorem write_append {front rest : List α} (length : front.length = pos) :
    write (front ++ rest) pos data = front ++ data ++ rest.drop data.length := by
  unfold write
  rw [List.take_left' length, ← List.drop_drop, List.drop_left' length]

/--
Elements are moved to the front, as far as `n`; moving `m` more reads elements
that are still where they were.
-/
theorem write_moved {start : Nat} (inside : start + n + m ≤ buf.length) :
    write (slice buf start n ++ buf.drop n) n
        (slice (slice buf start n ++ buf.drop n) (start + n) m) =
      slice buf start (n + m) ++ buf.drop (n + m) := by
  have front : (slice buf start n).length = n := length_slice (by omega)
  have read : slice (slice buf start n ++ buf.drop n) (start + n) m =
      slice buf (start + n) m := by
    unfold slice at front ⊢
    rw [Nat.add_comm start n, ← List.drop_drop, List.drop_left' front,
      List.drop_drop]
  rw [read, write_append front, length_slice inside, List.drop_drop,
    slice_add]

@[simp]
theorem write_nil (buf : List α) (pos : Nat) : write buf pos [] = buf := by
  unfold write
  rw [List.append_nil, List.length_nil, Nat.add_zero, List.take_append_drop]

/-- Two writes, one behind the other. -/
theorem write_write {more : List α} (inside : pos ≤ buf.length) :
    write (write buf pos data) (pos + data.length) more =
      write buf pos (data ++ more) := by
  have front : (buf.take pos ++ data).length = pos + data.length := by
    rw [List.length_append, List.length_take, Nat.min_eq_left inside]
  conv_lhs => rw [write.eq_1 buf pos data]
  rw [write_append front, List.drop_drop, write, List.length_append,
    ← Nat.add_assoc, List.append_assoc (buf.take pos)]

/-- The first `n` elements were copied from a source; `m` more are copied. -/
theorem write_copied {source : List α} (inside : n + m ≤ source.length) :
    write (source.take n ++ buf.drop n) n (slice source n m) =
      source.take (n + m) ++ buf.drop (n + m) := by
  have front : (source.take n).length = n := by
    rw [List.length_take]
    omega
  rw [write_append front, length_slice inside, List.drop_drop, List.take_add]
  rfl

/-- A loop that changes the first elements, one after the other. -/
theorem foldl_set (change : Nat → α → α) (default : α) (buf : List α)
    (n : Nat) :
    (List.range n).foldl
        (fun buf i => buf.set i (change i (buf.getD i default))) buf =
      buf.mapIdx fun i x => if i < n then change i x else x := by
  induction n with
  | zero =>
      apply List.ext_getElem?
      intro i
      rw [List.getElem?_mapIdx, List.range_zero, List.foldl_nil]
      simp
  | succ n ih =>
      apply List.ext_getElem?
      intro i
      rw [List.range_succ, List.foldl_append, ih, List.foldl_cons,
        List.foldl_nil, List.getElem?_set, List.getElem?_mapIdx,
        List.getElem?_mapIdx, List.length_mapIdx, List.getD_eq_getElem?_getD,
        List.getElem?_mapIdx]
      grind

/-! ## Records -/

section Records

variable {recs : List (List α)} {record : List α}

theorem length_records (uniform : ∀ record ∈ recs, record.length = n) :
    recs.flatten.length = recs.length * n := by
  induction recs with
  | nil => exact (Nat.zero_mul n).symm
  | cons first rest ih =>
      have rest := ih fun record member =>
        uniform record (List.mem_cons_of_mem first member)
      rw [List.flatten_cons, List.length_append, rest,
        uniform first List.mem_cons_self, List.length_cons, Nat.succ_mul,
        Nat.add_comm]

/-- Dropping whole records. -/
theorem drop_records (uniform : ∀ record ∈ recs, record.length = n)
    (pos : Nat) : recs.flatten.drop (pos * n) = (recs.drop pos).flatten := by
  induction recs generalizing pos with
  | nil => rw [List.flatten_nil, List.drop_nil, List.drop_nil, List.flatten_nil]
  | cons first rest ih =>
      have rest := ih fun record member =>
        uniform record (List.mem_cons_of_mem first member)
      cases pos with
      | zero => rw [Nat.zero_mul, List.drop_zero, List.drop_zero]
      | succ pos =>
          have length := uniform first List.mem_cons_self
          rw [List.drop_succ_cons, ← rest pos, List.flatten_cons,
            Nat.succ_mul, Nat.add_comm, ← List.drop_drop,
            List.drop_left' length]

/-- Taking whole records. -/
theorem take_records (uniform : ∀ record ∈ recs, record.length = n)
    (pos : Nat) : recs.flatten.take (pos * n) = (recs.take pos).flatten := by
  induction recs generalizing pos with
  | nil => rw [List.flatten_nil, List.take_nil, List.take_nil, List.flatten_nil]
  | cons first rest ih =>
      have rest := ih fun record member =>
        uniform record (List.mem_cons_of_mem first member)
      cases pos with
      | zero =>
          rw [Nat.zero_mul, List.take_zero, List.take_zero, List.flatten_nil]
      | succ pos =>
          have length := uniform first List.mem_cons_self
          rw [List.take_succ_cons, List.flatten_cons, List.flatten_cons,
            ← rest pos, Nat.succ_mul, Nat.add_comm, List.take_add,
            List.take_left' length, List.drop_left' length]

/-- A record is a slice. -/
theorem slice_records (uniform : ∀ record ∈ recs, record.length = n)
    {pos : Nat} (inside : pos < recs.length) :
    slice recs.flatten (pos * n) n = recs[pos] := by
  have length := uniform recs[pos] (List.getElem_mem inside)
  unfold slice
  rw [drop_records uniform, List.drop_eq_getElem_cons inside,
    List.flatten_cons, List.take_left' length]

/-- A record is replaced by a write. -/
theorem write_records (uniform : ∀ record ∈ recs, record.length = n)
    {pos : Nat} (inside : pos < recs.length) (length : record.length = n) :
    write recs.flatten (pos * n) record = (recs.set pos record).flatten := by
  unfold write
  rw [take_records uniform, length, ← Nat.succ_mul, drop_records uniform,
    List.set_eq_take_append_cons_drop, if_pos inside, List.flatten_append,
    List.flatten_cons, List.append_assoc]

end Records

end Libcperciva.Lib.Buffer
