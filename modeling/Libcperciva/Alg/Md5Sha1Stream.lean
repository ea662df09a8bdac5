import Libcperciva.Alg.CountedStream
import Libcperciva.Alg.Md5Transform
import Libcperciva.Alg.Sha1Transform
import Libcperciva.Alg.Sha256Stream

/-!
# The digests of MD5 and SHA-1
-/

namespace Libcperciva.Alg.Md5Sha1Stream

open Libcperciva.Lib
open Libcperciva.Lib.Blocks
open Libcperciva.Lib.FinLiterals
open Libcperciva.Util.Sysendian
open Libcperciva.Alg.Sha256Stream (toUInt8_shiftRight be32enc_eq_wordBytes)
open Libcperciva.Alg.CountedModel
open Libcperciva.Alg.CountedStream
open Libcperciva.Alg.Md5Model
open Libcperciva.Alg.Md5Transform
open Libcperciva.Alg.Sha1Model
open Libcperciva.Alg.Sha1Transform

variable {n : Nat} [NeZero n] {count : Fin 2 → UInt32} {message : List UInt8}

/-! ## Bytes -/

/-- A byte of a word. -/
theorem toUInt8_shiftRight_ofNat (x : UInt32) {shift : UInt32}
    (few : shift.toNat < 32) :
    (x >>> shift &&& 0xff).toUInt8 =
      UInt8.ofNat (x.toNat / 2 ^ shift.toNat) := by
  rw [toUInt8_shiftRight x few]
  apply UInt8.toNat_inj.mp
  rw [UInt8.toNat_ofNat', ← Nat.shiftRight_eq_div_pow]
  exact BitVec.extractLsb'_toNat _ _ _

theorem be32enc_eq_ofNat (x : UInt32) :
    be32enc x = [UInt8.ofNat (x.toNat / 2 ^ 24), UInt8.ofNat (x.toNat / 2 ^ 16),
      UInt8.ofNat (x.toNat / 2 ^ 8), UInt8.ofNat (x.toNat / 2 ^ 0)] := by
  have last := @toUInt8_shiftRight_ofNat x 0 (by decide)
  rw [UInt32.shiftRight_zero] at last
  unfold be32enc
  rw [toUInt8_shiftRight_ofNat x (by decide),
    toUInt8_shiftRight_ofNat x (by decide),
    toUInt8_shiftRight_ofNat x (by decide), last]
  rfl

/-- `le32enc` writes the bytes in the other order. -/
theorem le32enc_eq_reverse (x : UInt32) : le32enc x = (be32enc x).reverse :=
  rfl

theorem le32enc_eq_wordBytes (x : UInt32) : le32enc x = Md5.wordBytes x := by
  rw [le32enc_eq_reverse, be32enc_eq_wordBytes]
  rfl

/-- All words. -/
theorem encVect_eq_flatMap (enc : UInt32 → List UInt8)
    (state : Fin n → UInt32) :
    encVect enc state (4 * n) = (List.ofFn state).flatMap enc := by
  have words : (List.range n).map (fun i => state (Fin.ofNat n i)) =
      List.ofFn state := by
    apply List.ext_getElem?
    intro i
    rw [List.getElem?_map, List.getElem?_ofFn]
    by_cases inside : i < n
    · rw [List.getElem?_range inside, dif_pos inside]
      exact congrArg (fun place => some (state place))
        (Fin.ext (Nat.mod_eq_of_lt inside))
    · rw [dif_neg inside, List.getElem?_eq_none (by
        rw [List.length_range]
        exact Nat.le_of_not_lt inside)]
      rfl
  unfold encVect
  rw [Nat.mul_div_cancel_left n (by decide), ← words, List.flatMap_map]

/-- The terminating bit-count of MD5. -/
theorem encVect_le32enc (bits : Nat)
    (counted : bitCount 0 1 count = bits % 2 ^ 64) :
    encVect le32enc count 8 = Md5.lengthBytes bits := by
  have low := (count 0).toNat_lt
  have high := (count 1).toNat_lt
  unfold bitCount at counted
  show le32enc (count 0) ++ (le32enc (count 1) ++ []) = _
  rw [le32enc_eq_reverse, le32enc_eq_reverse, be32enc_eq_ofNat,
    be32enc_eq_ofNat]
  show [_, _, _, _, _, _, _, _] = [UInt8.ofNat (bits / 256 ^ 0),
    UInt8.ofNat (bits / 256 ^ 1), UInt8.ofNat (bits / 256 ^ 2),
    UInt8.ofNat (bits / 256 ^ 3), UInt8.ofNat (bits / 256 ^ 4),
    UInt8.ofNat (bits / 256 ^ 5), UInt8.ofNat (bits / 256 ^ 6),
    UInt8.ofNat (bits / 256 ^ 7)]
  have byte {x y : Nat} (same : x % 256 = y % 256) :
      UInt8.ofNat x = UInt8.ofNat y :=
    UInt8.toNat_inj.mp same
  rw [@byte (_ / 2 ^ 0) (bits / 256 ^ 0) (by omega),
    @byte ((count 0).toNat / 2 ^ 8) (bits / 256 ^ 1) (by omega),
    @byte ((count 0).toNat / 2 ^ 16) (bits / 256 ^ 2) (by omega),
    @byte ((count 0).toNat / 2 ^ 24) (bits / 256 ^ 3) (by omega),
    @byte ((count 1).toNat / 2 ^ 0) (bits / 256 ^ 4) (by omega),
    @byte ((count 1).toNat / 2 ^ 8) (bits / 256 ^ 5) (by omega),
    @byte ((count 1).toNat / 2 ^ 16) (bits / 256 ^ 6) (by omega),
    @byte ((count 1).toNat / 2 ^ 24) (bits / 256 ^ 7) (by omega)]

/-- The terminating bit-count of SHA-1. -/
theorem encVect_be32enc (bits : Nat)
    (counted : bitCount 1 0 count = bits % 2 ^ 64) :
    encVect be32enc count 8 = Fips180.lengthBytes bits := by
  have swapped : bitCount 0 1 (fun i => count (1 - i)) =
      bitCount 1 0 count := by
    unfold bitCount
    rfl
  have reversed := encVect_le32enc bits (swapped.trans counted)
  have order : encVect be32enc count 8 =
      (encVect le32enc (fun i => count (1 - i)) 8).reverse :=
    rfl
  rw [order, reversed]
  rfl

/-! ## Contexts -/

/-- The magic initialization constants of MD5. -/
theorem initialValue_eq :
    ![0x67452301, 0xEFCDAB89, 0x98BADCFE, 0x10325476] = Md5.initialValue := by
  have all : ∀ i, (![0x67452301, 0xEFCDAB89, 0x98BADCFE, 0x10325476] :
      Fin 4 → UInt32) i = Md5.initialValue i := by
    decide +kernel
  exact funext all

/-- No bits were counted. -/
theorem bitCount_zero (lo hi : Fin 2) : bitCount lo hi ![0, 0] = 0 := by
  have zero : ∀ i : Fin 2, (![0, 0] : Fin 2 → UInt32) i = 0 := by decide
  unfold bitCount
  rw [zero, zero, UInt32.toNat_zero, Nat.zero_mul]

theorem md5Init_holds (ctx : Md5Ctx) :
    Holds md5Transform 0 1 Md5.initialValue [] (md5Init ctx) where
  absorbed := by
    have initial : (md5Init ctx).state = Md5.initialValue := initialValue_eq
    rw [initial]
    exact BlockStream.Buffered.start (md5Init ctx).buf
  count := bitCount_zero 0 1

theorem sha1Init_holds (ctx : Sha1Ctx) :
    Holds sha1Transform 1 0 Sha1.initialHash [] (sha1Init ctx) where
  absorbed := BlockStream.Buffered.start (sha1Init ctx).buf
  count := bitCount_zero 1 0

/-- `MD5_Pad` takes the padding. -/
theorem md5Pad_spec {ctx : Md5Ctx}
    (holds : Holds md5Transform 0 1 Md5.initialValue message ctx) :
    (pad md5Transform 0 1 le32enc ctx).state =
      absorb Md5.compress 64 Md5.initialValue (Md5.pad message) := by
  rw [← md5Transform_eq_compress]
  exact pad_state (by decide) (fun _ bits => encVect_le32enc bits)
    (fun _ => rfl) holds

/-- `SHA1_Pad` takes the padding. -/
theorem sha1Pad_spec {ctx : Sha1Ctx}
    (holds : Holds sha1Transform 1 0 Sha1.initialHash message ctx) :
    (pad sha1Transform 1 0 be32enc ctx).state =
      absorb Sha1.compress 64 Sha1.initialHash (Fips180.pad message) := by
  rw [← sha1Transform_eq_compress]
  exact pad_state (by decide) (fun _ bits => encVect_be32enc bits)
    (fun _ => rfl) holds

theorem md5Final_spec {ctx : Md5Ctx}
    (holds : Holds md5Transform 0 1 Md5.initialValue message ctx) :
    (md5Final ctx).1 = Md5.md5 message := by
  have enc : le32enc = Md5.wordBytes := funext le32enc_eq_wordBytes
  unfold Md5.md5
  rw [← md5Pad_spec holds, ← enc]
  exact encVect_eq_flatMap le32enc _

theorem sha1Final_spec {ctx : Sha1Ctx}
    (holds : Holds sha1Transform 1 0 Sha1.initialHash message ctx) :
    (sha1Final ctx).1 = Sha1.sha1 message := by
  have enc : be32enc = Fips180.wordBytes := funext be32enc_eq_wordBytes
  unfold Sha1.sha1
  rw [← sha1Pad_spec holds, ← enc]
  exact encVect_eq_flatMap be32enc _

/-- The digests of messages in any parts; the count words hold the number of
bits, and the padding is that of the message. -/
theorem md5_sha1_digest :
    (∀ (ctx : Md5Ctx) (parts : List (List UInt8)),
      bitCount 0 1 (parts.foldl md5Update (md5Init ctx)).count =
          8 * parts.flatten.length % 2 ^ 64 ∧
        (pad md5Transform 0 1 le32enc
            (parts.foldl md5Update (md5Init ctx))).state =
          absorb Md5.compress 64 Md5.initialValue (Md5.pad parts.flatten) ∧
        (md5Final (parts.foldl md5Update (md5Init ctx))).1 =
          Md5.md5 parts.flatten ∧
        md5Buf ctx parts.flatten = Md5.md5 parts.flatten) ∧
    ∀ (ctx : Sha1Ctx) (parts : List (List UInt8)),
      bitCount 1 0 (parts.foldl sha1Update (sha1Init ctx)).count =
          8 * parts.flatten.length % 2 ^ 64 ∧
        (pad sha1Transform 1 0 be32enc
            (parts.foldl sha1Update (sha1Init ctx))).state =
          absorb Sha1.compress 64 Sha1.initialHash
            (Fips180.pad parts.flatten) ∧
        (sha1Final (parts.foldl sha1Update (sha1Init ctx))).1 =
          Sha1.sha1 parts.flatten ∧
        sha1Buf ctx parts.flatten = Sha1.sha1 parts.flatten := by
  constructor
  · intro ctx parts
    have holds := updates_holds (by decide) (md5Init_holds ctx) parts
    have once := update_holds (by decide) (md5Init_holds ctx) parts.flatten
    exact ⟨holds.count, md5Pad_spec holds, md5Final_spec holds,
      md5Final_spec once⟩
  · intro ctx parts
    have holds := updates_holds (by decide) (sha1Init_holds ctx) parts
    have once := update_holds (by decide) (sha1Init_holds ctx) parts.flatten
    exact ⟨holds.count, sha1Pad_spec holds, sha1Final_spec holds,
      sha1Final_spec once⟩

end Libcperciva.Alg.Md5Sha1Stream
