import Libcperciva.Alg.BlockStream

/-!
# Messages in parts, for MD5 and SHA-1

A context holds the hash value after the whole blocks of the message, the bytes
that do not fill a block, and the number of bits modulo `2^64` in two words.
The padding is a message part like any other.
-/

namespace Libcperciva.Alg.CountedStream

open Libcperciva.Lib.Blocks
open Libcperciva.Lib.FinLiterals
open Libcperciva.Alg.Sha256Model (memcpy PAD)
open Libcperciva.Alg.BlockStream
open Libcperciva.Alg.CountedModel

variable {n : Nat} {transform : (Fin n → UInt32) → List UInt8 → Fin n → UInt32}
  {lo hi : Fin 2} {initial : Fin n → UInt32} {ctx : CountedCtx n}
  {message src : List UInt8} {count : Fin 2 → UInt32}

/-! ## The count -/

/-- The number in the two words. -/
def bitCount (lo hi : Fin 2) (count : Fin 2 → UInt32) : Nat :=
  (count hi).toNat * 2 ^ 32 + (count lo).toNat

/-- The carry goes into the high word, and the length is added. -/
theorem bitCount_addBits (distinct : lo ≠ hi) (len : Nat) :
    bitCount lo hi (addBits lo hi count len) =
      (bitCount lo hi count + 8 * len) % 2 ^ 64 := by
  have low : (UInt32.ofNat len <<< 3).toNat = 8 * len % 2 ^ 32 := by
    rw [UInt32.toNat_shiftLeft, UInt32.toNat_ofNat']
    show (len % 2 ^ 32) <<< 3 % 2 ^ 32 = _
    rw [Nat.shiftLeft_eq]
    omega
  have high : (UInt32.ofNat (len >>> 29)).toNat = len / 2 ^ 29 % 2 ^ 32 := by
    rw [UInt32.toNat_ofNat', Nat.shiftRight_eq_div_pow]
  have boundLo := (count lo).toNat_lt
  have boundHi := (count hi).toNat_lt
  unfold bitCount addBits
  by_cases carry : count lo + UInt32.ofNat len <<< 3 < UInt32.ofNat len <<< 3
  · simp only [Function.update_self, Function.update_of_ne distinct,
      Function.update_of_ne distinct.symm, if_pos carry, UInt32.toNat_add, low,
      high]
    rw [UInt32.lt_iff_toNat_lt, UInt32.toNat_add, low] at carry
    rw [UInt32.toNat_one]
    omega
  · simp only [Function.update_self, Function.update_of_ne distinct,
      Function.update_of_ne distinct.symm, if_neg carry, UInt32.toNat_add, low,
      high]
    rw [UInt32.lt_iff_toNat_lt, UInt32.toNat_add, low] at carry
    omega

/-! ## Contexts -/

/-- The context holds a message. -/
structure Holds (transform : (Fin n → UInt32) → List UInt8 → Fin n → UInt32)
    (lo hi : Fin 2) (initial : Fin n → UInt32) (message : List UInt8)
    (ctx : CountedCtx n) : Prop where
  absorbed : Buffered transform initial message ctx.state ctx.buf
  count : bitCount lo hi ctx.count = 8 * message.length % 2 ^ 64

/-- The number of bytes that are buffered. -/
theorem Holds.buffered_eq (holds : Holds transform lo hi initial message ctx) :
    (buffered lo ctx).toNat = message.length % 64 := by
  have count := holds.count
  have bound := (ctx.count lo).toNat_lt
  have masked : (buffered lo ctx).toNat = (ctx.count lo).toNat / 8 % 64 := by
    unfold buffered
    rw [UInt32.toNat_and, UInt32.toNat_shiftRight]
    show ((ctx.count lo).toNat >>> 3) &&& (2 ^ 6 - 1) = _
    rw [Nat.and_two_pow_sub_one_eq_mod, Nat.shiftRight_eq_div_pow]
  rw [masked]
  unfold bitCount at count
  omega

/-- `MD5_Update` and `SHA1_Update`. -/
theorem update_holds (distinct : lo ≠ hi)
    (holds : Holds transform lo hi initial message ctx) (src : List UInt8) :
    Holds transform lo hi initial (message ++ src)
      (update transform lo hi ctx src) := by
  have bits : bitCount lo hi (addBits lo hi ctx.count src.length) =
      8 * (message ++ src).length % 2 ^ 64 := by
    rw [bitCount_addBits distinct, holds.count, List.length_append]
    omega
  unfold update
  dsimp only
  rw [holds.buffered_eq]
  by_cases nothing : src.length = 0
  · rw [if_pos nothing, List.eq_nil_of_length_eq_zero nothing,
      List.append_nil]
    exact holds
  · rw [if_neg nothing]
    by_cases few : src.length < 64 - message.length % 64
    · rw [if_pos few]
      exact ⟨holds.absorbed.keep few, bits⟩
    · rw [if_neg few]
      exact ⟨holds.absorbed.take few, bits⟩

/-- Calls of the update function, one after the other. -/
def updates (transform : (Fin n → UInt32) → List UInt8 → Fin n → UInt32)
    (lo hi : Fin 2) (ctx : CountedCtx n) (parts : List (List UInt8)) :
    CountedCtx n :=
  parts.foldl (update transform lo hi) ctx

theorem updates_holds (distinct : lo ≠ hi)
    (holds : Holds transform lo hi initial message ctx)
    (parts : List (List UInt8)) :
    Holds transform lo hi initial (message ++ parts.flatten)
      (updates transform lo hi ctx parts) := by
  induction parts generalizing message ctx with
  | nil =>
      rw [List.flatten_nil, List.append_nil]
      exact holds
  | cons src parts ih =>
      rw [List.flatten_cons, ← List.append_assoc]
      exact ih (update_holds distinct holds src)

/-! ## The digest -/

/-- The message with its padding. -/
def padded (lengthBytes : Nat → List UInt8) (message : List UInt8) :
    List UInt8 :=
  message ++ 0x80 :: List.replicate ((119 - message.length % 64) % 64) 0 ++
    lengthBytes (8 * message.length)

/-- The padding that is taken from `PAD`. -/
theorem take_PAD (r : Nat) (few : r < 64) :
    PAD.take (if r < 56 then 56 - r else 120 - r) =
      0x80 :: List.replicate ((119 - r) % 64) 0 := by
  have amount : (if r < 56 then 56 - r else 120 - r) =
      (119 - r) % 64 + 1 := by
    split <;> omega
  rw [amount, PAD, List.take_succ_cons, List.take_replicate]
  exact congrArg (fun n => 0x80 :: List.replicate n 0) (by omega)

/-- `MD5_Pad` and `SHA1_Pad`. -/
theorem pad_state (distinct : lo ≠ hi) {enc : UInt32 → List UInt8}
    {lengthBytes : Nat → List UInt8}
    (encodes : ∀ count bits, bitCount lo hi count = bits % 2 ^ 64 →
      encVect enc count 8 = lengthBytes bits)
    (eight : ∀ bits, (lengthBytes bits).length = 8)
    (holds : Holds transform lo hi initial message ctx) :
    (pad transform lo hi enc ctx).state =
      absorb transform 64 initial (padded lengthBytes message) := by
  have part : PAD.take (if (buffered lo ctx).toNat < 56
      then 56 - (buffered lo ctx).toNat else 120 - (buffered lo ctx).toNat) =
        0x80 :: List.replicate ((119 - message.length % 64) % 64) 0 := by
    rw [holds.buffered_eq]
    exact take_PAD _ (Nat.mod_lt _ (by decide))
  have done := update_holds distinct
    (update_holds distinct holds
      (0x80 :: List.replicate ((119 - message.length % 64) % 64) 0))
    (lengthBytes (8 * message.length))
  have whole : (message ++
      0x80 :: List.replicate ((119 - message.length % 64) % 64) 0 ++
        lengthBytes (8 * message.length)).length % 64 = 0 := by
    rw [List.length_append, List.length_append, eight, List.length_cons,
      List.length_replicate]
    omega
  have absorbed := done.absorbed
  unfold Buffered at absorbed
  rw [whole, List.take_zero] at absorbed
  unfold pad
  dsimp only
  rw [part, encodes _ _ holds.count]
  exact absorbed.finish

end Libcperciva.Alg.CountedStream
