import Libcperciva.Lib.Buffer

/-!
# Block functions over messages

A function of a state and a block of `n` elements is applied to the blocks of a
message, one after the other.  When the message comes in parts, what does not
fill a block is kept; the state and the part that is kept do not depend on how
the message was divided.
-/

namespace Libcperciva.Lib.Blocks

open Libcperciva.Lib.Buffer

variable {σ α : Type*} {f : σ → List α → σ} {n : Nat} {initial state : σ}
  {front block message rest input : List α}

/-- The state after the whole blocks of a message. -/
def absorb (f : σ → List α → σ) (n : Nat) (initial : σ) (message : List α) : σ :=
  (List.range (message.length / n)).foldl
    (fun state i => f state (slice message (i * n) n)) initial

theorem absorb_nil : absorb f n initial [] = initial := by
  unfold absorb
  rw [List.length_nil, Nat.zero_div]
  rfl

/-- One more block. -/
theorem absorb_append_block (positive : 0 < n) (divides : n ∣ front.length)
    (isBlock : block.length = n) :
    absorb f n initial (front ++ block) = f (absorb f n initial front) block := by
  rcases divides with ⟨blocks, length⟩
  have before : front.length / n = blocks := by
    rw [length]
    exact Nat.mul_div_cancel_left blocks positive
  have after : (front ++ block).length / n = blocks + 1 := by
    rw [List.length_append, isBlock, Nat.add_div_right _ positive, before]
  have last : slice (front ++ block) (blocks * n) n = block := by
    unfold slice
    rw [Nat.mul_comm blocks n, ← length, List.drop_left, ← isBlock,
      List.take_length]
  unfold absorb
  rw [before, after, List.range_succ, List.foldl_append]
  show f _ (slice (front ++ block) (blocks * n) n) = _
  rw [last]
  apply congrArg (f · block)
  apply List.foldl_ext
  intro state i member
  have inside : i + 1 ≤ blocks := List.mem_range.mp member
  have fits : i * n + n ≤ front.length := by
    rw [length, ← Nat.succ_mul, Nat.mul_comm n blocks]
    exact Nat.mul_le_mul_right n inside
  unfold slice
  rw [List.drop_append_of_le_length (by omega),
    List.take_append_of_le_length (by rw [List.length_drop]; omega)]

/-! ## Parts of a message -/

/-- The whole blocks of a message were taken, and the rest is kept. -/
structure Absorbed (f : σ → List α → σ) (n : Nat) (initial : σ)
    (message : List α) (state : σ) (rest : List α) : Prop where
  few : rest.length < n
  parts : ∃ front, message = front ++ rest ∧ n ∣ front.length ∧
    state = absorb f n initial front

theorem Absorbed.start (positive : 0 < n) :
    Absorbed f n initial [] initial [] where
  few := positive
  parts := ⟨[], rfl, Nat.dvd_zero n, absorb_nil.symm⟩

theorem Absorbed.length (absorbed : Absorbed f n initial message state rest) :
    message.length % n = rest.length := by
  rcases absorbed.parts with ⟨front, rfl, ⟨blocks, length⟩, _⟩
  rw [List.length_append, length, Nat.mul_add_mod,
    Nat.mod_eq_of_lt absorbed.few]

/-- What does not fill a block is kept. -/
theorem Absorbed.keep (absorbed : Absorbed f n initial message state rest)
    (few : rest.length + input.length < n) :
    Absorbed f n initial (message ++ input) state (rest ++ input) where
  few := by
    rw [List.length_append]
    exact few
  parts := by
    rcases absorbed.parts with ⟨front, rfl, divides, done⟩
    exact ⟨front, List.append_assoc front rest input, divides, done⟩

/-- A block is taken when it is full. -/
theorem Absorbed.fill (absorbed : Absorbed f n initial message state rest)
    (full : rest.length + input.length = n) :
    Absorbed f n initial (message ++ input) (f state (rest ++ input)) [] where
  few := Nat.lt_of_le_of_lt (Nat.zero_le rest.length) absorbed.few
  parts := by
    have positive := Nat.lt_of_le_of_lt (Nat.zero_le _) absorbed.few
    rcases absorbed.parts with ⟨front, rfl, divides, rfl⟩
    have isBlock : (rest ++ input).length = n := by
      rw [List.length_append]
      exact full
    refine ⟨front ++ (rest ++ input), ?_, ?_, ?_⟩
    · rw [List.append_nil, List.append_assoc]
    · rw [List.length_append, isBlock]
      exact Nat.dvd_add divides (Nat.dvd_refl n)
    · exact (absorb_append_block positive divides isBlock).symm

/-- A message of whole blocks. -/
theorem Absorbed.finish (absorbed : Absorbed f n initial message state []) :
    state = absorb f n initial message := by
  rcases absorbed.parts with ⟨front, whole, _, done⟩
  rw [List.append_nil] at whole
  rw [whole, done]

end Libcperciva.Lib.Blocks
