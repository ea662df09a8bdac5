import Libcperciva.Alg.CountedModel
import Libcperciva.Lib.Blocks

/-!
# Messages in parts, for all the hash functions

A context holds what a block function makes of the whole blocks of the message,
and in a buffer of 64 bytes those that do not fill a block.  An update fills
the buffer, takes the complete blocks, and keeps what is left.
-/

namespace Libcperciva.Alg.BlockStream

open Libcperciva.Lib.Blocks
open Libcperciva.Lib.Buffer
open Libcperciva.Alg.Sha256Model (memcpy)
open Libcperciva.Alg.CountedModel

variable {n : Nat} {transform : (Fin n → UInt32) → List UInt8 → Fin n → UInt32}
  {initial state : Fin n → UInt32} {message src : List UInt8}
  {buf : Fin 64 → UInt8}

/-! ## Copying -/

/-- `memcpy` into the buffer is a write. -/
theorem ofFn_memcpy (buf : Fin 64 → UInt8) {pos : Nat}
    (fits : pos + src.length ≤ 64) :
    List.ofFn (memcpy buf pos src) = write (List.ofFn buf) pos src := by
  apply List.ext_getElem?
  intro j
  unfold write memcpy
  rw [List.getElem?_append, List.getElem?_append, List.getElem?_take,
    List.getElem?_drop]
  grind

theorem length_take_buf (buf : Fin 64 → UInt8) {r : Nat} (few : r ≤ 64) :
    ((List.ofFn buf).take r).length = r := by
  rw [List.length_take, List.length_ofFn, Nat.min_eq_left few]

/-- Bytes behind those that are buffered. -/
theorem take_memcpy (buf : Fin 64 → UInt8) {r : Nat}
    (fits : r + src.length ≤ 64) :
    (List.ofFn (memcpy buf r src)).take (r + src.length) =
      (List.ofFn buf).take r ++ src := by
  rw [ofFn_memcpy buf fits, take_write (Nat.le_refl _)]
  have length := length_take_buf buf fits
  rw [write_end (Nat.le_of_eq length), List.take_take,
    Nat.min_eq_left (Nat.le_add_right r src.length)]

/-- The buffer is full. -/
theorem ofFn_memcpy_full (buf : Fin 64 → UInt8) {r : Nat}
    (full : r + src.length = 64) :
    List.ofFn (memcpy buf r src) = (List.ofFn buf).take r ++ src := by
  rw [← take_memcpy buf (Nat.le_of_eq full), full, List.take_of_length_le]
  rw [List.length_ofFn]

/-! ## Updates -/

/-- The loop over complete blocks. -/
theorem completeBlocks_spec
    (absorbed : Absorbed transform 64 initial message state []) :
    ∃ taken, src = taken ++ (completeBlocks transform state src).2 ∧
      (completeBlocks transform state src).2.length < 64 ∧
      Absorbed transform 64 initial (message ++ taken)
        (completeBlocks transform state src).1 [] := by
  induction state, src using completeBlocks.induct transform
    generalizing message with
  | case1 state src many ih =>
      have isBlock : (src.take 64).length = 64 := by
        rw [List.length_take]
        exact Nat.min_eq_left many
      rcases ih (absorbed.fill ((Nat.zero_add _).trans isBlock)) with
        ⟨taken, split, few, done⟩
      unfold completeBlocks
      rw [if_pos many]
      refine ⟨src.take 64 ++ taken, ?_, few, ?_⟩
      · rw [List.append_assoc, ← split, List.take_append_drop]
      · rw [← List.append_assoc]
        exact done
  | case2 state src few =>
      unfold completeBlocks
      rw [if_neg few]
      refine ⟨[], rfl, Nat.lt_of_not_le few, ?_⟩
      rw [List.append_nil]
      exact absorbed

/-- The buffer holds what is left of the message. -/
def Buffered (transform : (Fin n → UInt32) → List UInt8 → Fin n → UInt32)
    (initial : Fin n → UInt32) (message : List UInt8) (state : Fin n → UInt32)
    (buf : Fin 64 → UInt8) : Prop :=
  Absorbed transform 64 initial message state
    ((List.ofFn buf).take (message.length % 64))

theorem Buffered.start (buf : Fin 64 → UInt8) :
    Buffered transform initial [] initial buf :=
  Absorbed.start (by decide)

/-- Without a complete block the input is buffered. -/
theorem Buffered.keep
    (buffered : Buffered transform initial message state buf)
    (few : src.length < 64 - message.length % 64) :
    Buffered transform initial (message ++ src) state
      (memcpy buf (message.length % 64) src) := by
  have place : (message ++ src).length % 64 =
      message.length % 64 + src.length := by
    rw [List.length_append]
    omega
  have kept := length_take_buf buf (by omega : message.length % 64 ≤ 64)
  unfold Buffered
  rw [place, take_memcpy buf (by omega)]
  apply Absorbed.keep buffered
  omega

/-- The current block is finished, complete blocks are taken, and what is left
is buffered. -/
theorem Buffered.take
    (buffered : Buffered transform initial message state buf)
    (many : ¬ src.length < 64 - message.length % 64) :
    let block := memcpy buf (message.length % 64)
      (src.take (64 - message.length % 64))
    let after := completeBlocks transform (transform state (List.ofFn block))
      (src.drop (64 - message.length % 64))
    Buffered transform initial (message ++ src) after.1
      (memcpy block 0 after.2) := by
  intro block after
  have taken : (src.take (64 - message.length % 64)).length =
      64 - message.length % 64 := by
    rw [List.length_take]
    omega
  have full : message.length % 64 +
      (src.take (64 - message.length % 64)).length = 64 := by
    omega
  have kept := length_take_buf buf (by omega : message.length % 64 ≤ 64)
  have filled := Absorbed.fill buffered
    (show _ + (src.take (64 - message.length % 64)).length = 64 by
      rw [kept]
      exact full)
  rw [← ofFn_memcpy_full buf full] at filled
  obtain ⟨whole, split, fewLeft, done⟩ := completeBlocks_spec filled
  have all := done.keep
    (show ([] : List UInt8).length + after.2.length < 64 by
      rwa [List.length_nil, Nat.zero_add])
  have isMessage : message ++ src.take (64 - message.length % 64) ++ whole ++
      after.2 = message ++ src := by
    rw [List.append_assoc, List.append_assoc, ← split, List.take_append_drop]
  rw [isMessage, List.nil_append] at all
  have rest := all.length
  unfold Buffered
  rw [rest, ← Nat.zero_add after.2.length, take_memcpy _ (by omega)]
  exact all

end Libcperciva.Alg.BlockStream
