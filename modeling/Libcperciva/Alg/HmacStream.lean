import Libcperciva.Alg.HmacModel
import Libcperciva.Alg.Sha256Stream
import Libcperciva.Lib.Hmac

/-!
# HMAC-SHA256 and PBKDF2

The inner context holds the padded key and the text, the outer context the
padded key.  PBKDF2 saves two such pairs, and each of its function values
starts from one of them.
-/

namespace Libcperciva.Alg.HmacStream

open Libcperciva.Lib.Buffer
open Libcperciva.Lib.Fips180
open Libcperciva.Lib.Hmac
open Libcperciva.Util.Sysendian
open Libcperciva.Alg.Sha256Model
open Libcperciva.Alg.Sha256Stream
open Libcperciva.Alg.HmacModel

variable {ctx Phctx PShctx : HmacSha256Ctx} {tmp32 : Tmp32}
  {K text src message : List UInt8}

/-! ## The hash function -/

/-- HMAC with SHA-256, which takes blocks of 64 bytes. -/
def hmacSha256 (K text : List UInt8) : List UInt8 := hmac sha256 64 K text

theorem length_sha256 (message : List UInt8) :
    (sha256 message).length = 32 := by
  unfold sha256
  rw [List.ofFn_eq_map]
  rfl

theorem length_hmacSha256 (K text : List UInt8) :
    (hmacSha256 K text).length = 32 :=
  length_sha256 _

theorem finalInternal_digest {ctx : Sha256Ctx} (holds : Holds message ctx) :
    (finalInternal ctx tmp32).1 = sha256 message :=
  sha256FinalInternal_spec holds

/-! ## The key -/

/-- The key is xored into the pad. -/
theorem xorPad_eq_map (byte : UInt8) (fits : K.length ≤ 64) :
    xorPad byte K =
      (K ++ List.replicate (64 - K.length) 0).map (· ^^^ byte) := by
  unfold xorPad
  rw [foldl_set fun i x => x ^^^ K.getD i 0]
  apply List.ext_getElem?
  intro i
  rw [List.getElem?_mapIdx, List.getElem?_map, List.getElem?_append,
    List.getElem?_replicate, List.getElem?_replicate,
    List.getD_eq_getElem?_getD]
  by_cases inside : i < K.length
  · rw [if_pos inside, if_pos (by omega), List.getElem?_eq_getElem inside]
    simp [inside, UInt8.xor_comm]
  · rw [if_neg inside]
    by_cases few : i < 64
    · rw [if_pos few, if_pos (by omega)]
      simp [inside]
    · rw [if_neg few, if_neg (by omega)]
      rfl

theorem length_xorPad (byte : UInt8) (K : List UInt8) :
    (xorPad byte K).length = 64 := by
  unfold xorPad
  rw [foldl_set fun i x => x ^^^ K.getD i 0, List.length_mapIdx,
    List.length_replicate]

/-! ## Contexts -/

/-- The contexts hold a key and a text. -/
structure Keyed (K text : List UInt8) (ctx : HmacSha256Ctx) : Prop where
  inner : Holds (ipad sha256 64 K ++ text) ctx.ictx
  outer : Holds (opad sha256 64 K) ctx.octx

/-- Contexts that take the two pads. -/
theorem start_pads (ictx octx : Sha256Ctx) (tmp32 tmp32' : Tmp32)
    (key : List UInt8) (fits : key.length ≤ 64)
    (isBlock : keyBlock sha256 64 K =
      key ++ List.replicate (64 - key.length) 0) :
    Keyed K []
      { ictx := (sha256UpdateInternal (sha256Init ictx) (xorPad 0x36 key)
          tmp32).1
        octx := (sha256UpdateInternal (sha256Init octx) (xorPad 0x5c key)
          tmp32').1 } := by
  have pads (byte : UInt8) : (keyBlock sha256 64 K).map (· ^^^ byte) =
      xorPad byte key := by
    rw [isBlock, xorPad_eq_map byte fits]
  have short (byte : UInt8) : ([] ++ xorPad byte key).length < 2 ^ 61 := by
    rw [List.nil_append, length_xorPad]
    decide
  constructor
  · rw [ipad, pads, List.append_nil]
    exact sha256UpdateInternal_holds (sha256Init_holds ictx) (short 0x36)
  · rw [opad, pads]
    exact sha256UpdateInternal_holds (sha256Init_holds octx) (short 0x5c)

/-- `HMAC_SHA256_Init_internal`. -/
theorem hmacSha256InitInternal_keyed (short : K.length < 2 ^ 61) :
    Keyed K [] (hmacSha256InitInternal ctx K tmp32).1 := by
  unfold hmacSha256InitInternal
  by_cases long : K.length > 64
  · rw [if_pos long]
    have holds := @sha256UpdateInternal_holds _ tmp32 _ K
      (sha256Init_holds ctx.ictx) short
    have digest := @finalInternal_digest
      (sha256UpdateInternal (sha256Init ctx.ictx) K tmp32).2 _ _ holds
    apply start_pads
    · show (finalInternal _ _).1.length ≤ 64
      rw [digest, List.nil_append, length_sha256]
      decide
    · show _ = (finalInternal _ _).1 ++
        List.replicate (64 - (finalInternal _ _).1.length) 0
      rw [digest, keyBlock, if_pos long]
      rfl
  · rw [if_neg long]
    apply start_pads
    · exact Nat.le_of_not_lt long
    · rw [keyBlock, if_neg long]

/-- `HMAC_SHA256_Update_internal`. -/
theorem hmacSha256UpdateInternal_keyed (keyed : Keyed K text ctx)
    (short : 64 + (text ++ src).length < 2 ^ 61) :
    Keyed K (text ++ src) (hmacSha256UpdateInternal ctx src tmp32).1 where
  inner := by
    have length : (ipad sha256 64 K).length = 64 := by
      rw [ipad, List.length_map]
      apply length_keyBlock
      rw [length_sha256]
      decide
    rw [← List.append_assoc]
    apply sha256UpdateInternal_holds keyed.inner
    rw [List.append_assoc, List.length_append, length]
    exact short
  outer := keyed.outer

/-- `HMAC_SHA256_Final_internal`. -/
theorem hmacSha256FinalInternal_spec (keyed : Keyed K text ctx) :
    (hmacSha256FinalInternal ctx tmp32).1 = hmacSha256 K text := by
  have inner := @finalInternal_digest tmp32 _ _ keyed.inner
  unfold hmacSha256FinalInternal
  generalize finalInternal ctx.ictx tmp32 = result at inner ⊢
  rcases result with ⟨ihash, ictx, tmp32'⟩
  dsimp only at inner ⊢
  rw [inner]
  apply finalInternal_digest
  apply sha256UpdateInternal_holds keyed.outer
  rw [List.length_append, length_sha256, opad, List.length_map,
    length_keyBlock]
  · decide
  · rw [length_sha256]
    decide

/-- `HMAC_SHA256_Buf`. -/
theorem hmacSha256Buf_spec (shortKey : K.length < 2 ^ 61)
    (short : 64 + src.length < 2 ^ 61) :
    hmacSha256Buf ctx K src tmp32 = hmacSha256 K src :=
  hmacSha256FinalInternal_spec
    (hmacSha256UpdateInternal_keyed (hmacSha256InitInternal_keyed shortKey)
      short)

theorem hmacUpdates_keyed {calls : List (List UInt8 × Tmp32)}
    (keyed : Keyed K text ctx)
    (short : 64 + (text ++ messageOf calls).length < 2 ^ 61) :
    Keyed K (text ++ messageOf calls) (hmacUpdates ctx calls) := by
  induction calls generalizing text ctx with
  | nil =>
      rw [messageOf, List.flatMap_nil, List.append_nil]
      exact keyed
  | cons call calls ih =>
      rcases call with ⟨src, tmp32⟩
      have split : text ++ messageOf ((src, tmp32) :: calls) =
          (text ++ src) ++ messageOf calls :=
        (List.append_assoc text src (messageOf calls)).symm
      rw [split] at short ⊢
      have fewer : 64 + (text ++ src).length < 2 ^ 61 := by
        rw [List.length_append] at short
        omega
      exact ih (hmacSha256UpdateInternal_keyed keyed fewer) short

/-! ## Key derivation -/

/-- A block number. -/
theorem be32enc_eq_INT (i : Nat) : be32enc (UInt32.ofNat i) = INT i := by
  rw [be32enc_eq_wordBytes]
  have byte {shift power : Nat} (few : shift + 8 ≤ 32)
      (same : 2 ^ shift = 256 ^ power) :
      (⟨(UInt32.ofNat i).toBitVec.extractLsb' shift 8⟩ : UInt8) =
        UInt8.ofNat (i / 256 ^ power) := by
    apply UInt8.toNat_inj.mp
    rw [← same]
    show ((UInt32.ofNat i).toBitVec.extractLsb' shift 8).toNat = _
    rw [BitVec.extractLsb'_toNat, UInt8.toNat_ofNat']
    show (UInt32.ofNat i).toNat >>> shift % 2 ^ 8 = _
    rw [UInt32.toNat_ofNat', Nat.shiftRight_eq_div_pow]
    have split : 2 ^ 32 = 2 ^ shift * 2 ^ (32 - shift) := by
      rw [← Nat.pow_add]
      exact congrArg (2 ^ ·) (by omega)
    rw [split, Nat.mod_mul_right_div_self, Nat.mod_mod_of_dvd]
    exact Nat.pow_dvd_pow 2 (by omega)
  unfold wordBytes INT
  rw [@byte 24 3 (by decide) rfl, @byte 16 2 (by decide) rfl,
    @byte 8 1 (by decide) rfl, @byte 0 0 (by decide) rfl]
  rfl

theorem xorInto_eq_xorBytes {T U : List UInt8} (lengthT : T.length = 32)
    (lengthU : U.length = 32) : xorInto T U = xorBytes T U := by
  unfold xorInto xorBytes
  rw [foldl_set fun k x => x ^^^ U.getD k 0]
  apply List.ext_getElem?
  intro k
  rw [List.getElem?_mapIdx, List.getElem?_zipWith, List.getD_eq_getElem?_getD]
  by_cases inside : k < 32
  · have insideT : k < T.length := by omega
    have insideU : k < U.length := by omega
    rw [List.getElem?_eq_getElem insideT, List.getElem?_eq_getElem insideU,
      Option.map_some, if_pos inside]
    rfl
  · have outside : T.length ≤ k := by omega
    rw [List.getElem?_eq_none outside]
    rfl

/-- One function value, from a saved state. -/
theorem prf_spec (keyed : Keyed K text ctx)
    (short : 64 + (text ++ src).length < 2 ^ 61) :
    (hmacSha256FinalInternal (hmacSha256UpdateInternal ctx src tmp32).1
      (hmacSha256UpdateInternal ctx src tmp32).2).1 =
        hmacSha256 K (text ++ src) :=
  hmacSha256FinalInternal_spec (hmacSha256UpdateInternal_keyed keyed short)

section Derivation

variable {P S : List UInt8} {c j : UInt64} {turns : Nat}

/-- The loop over `j` has the values so far, and computes those that are
left. -/
theorem iterate_spec (keyed : Keyed P [] Phctx) (i : Nat)
    (wraps : c.toNat < 2 ^ 64 - 1) (first : 2 ≤ j.toNat)
    (next : j.toNat ≤ c.toNat + 1) (enough : c.toNat + 1 ≤ j.toNat + turns) :
    ∃ tmp32', iterate Phctx c turns j (F hmacSha256 P S (j.toNat - 1) i)
      (U hmacSha256 P S i (j.toNat - 2)) tmp32 =
        some (F hmacSha256 P S c.toNat i, tmp32') := by
  induction turns generalizing j tmp32 with
  | zero =>
      have done : ¬ j ≤ c := by
        rw [UInt64.le_iff_toNat_le]
        omega
      unfold iterate
      rw [if_neg done, show j.toNat - 1 = c.toNat by omega]
      exact ⟨tmp32, rfl⟩
  | succ turns ih =>
      unfold iterate
      by_cases more : j ≤ c
      · have bound := UInt64.le_iff_toNat_le.mp more
        have succ : (j + 1).toNat = j.toNat + 1 := by
          rw [UInt64.toNat_add]
          apply Nat.mod_eq_of_lt
          show j.toNat + 1 < 2 ^ 64
          omega
        have value := @prf_spec Phctx tmp32 P []
          (U hmacSha256 P S i (j.toNat - 2)) keyed (by
            rw [List.nil_append, length_U length_hmacSha256]
            decide)
        rw [if_pos more]
        dsimp only
        generalize hmacSha256UpdateInternal Phctx _ tmp32 = result at value ⊢
        rcases result with ⟨hctx, tmp32'⟩
        dsimp only at value ⊢
        generalize hmacSha256FinalInternal hctx tmp32' = result at value ⊢
        rcases result with ⟨U', hctx', tmp32'⟩
        dsimp only at value ⊢
        have sum := @F_succ hmacSha256 P S (j.toNat - 1) (by omega) i
        rw [Nat.sub_add_cancel (by omega : 1 ≤ j.toNat)] at sum
        have following := @ih tmp32' (j + 1) (by omega) (by omega) (by omega)
        rw [succ, Nat.add_sub_cancel, sum,
          show j.toNat + 1 - 2 = j.toNat - 1 by omega] at following
        have same : U' = U hmacSha256 P S i (j.toNat - 1) := by
          rw [value, show j.toNat - 1 = j.toNat - 2 + 1 by omega]
          rfl
        rw [same, xorInto_eq_xorBytes (length_F length_hmacSha256 _ i)
          (length_U length_hmacSha256 i _)]
        exact following
      · rw [UInt64.le_iff_toNat_le] at more
        rw [if_neg (by rwa [UInt64.le_iff_toNat_le]),
          show j.toNat - 1 = c.toNat by omega]
        exact ⟨tmp32, rfl⟩

/-- A block is copied, as far as the buffer goes. -/
theorem write_block {i dkLen l : Nat} {buf T : List UInt8}
    (more : i * 32 < dkLen) (last : l = (dkLen + 31) / 32)
    (isBlock : T = F hmacSha256 P S c.toNat (i + 1)) :
    write ((blocks hmacSha256 P S c.toNat l).take (i * 32) ++
        buf.drop (i * 32)) (i * 32)
      (T.take (if dkLen - i * 32 > 32 then 32 else dkLen - i * 32)) =
      (blocks hmacSha256 P S c.toNat l).take (min ((i + 1) * 32) dkLen) ++
        buf.drop (min ((i + 1) * 32) dkLen) := by
  have length : (blocks hmacSha256 P S c.toNat l).length = l * 32 :=
    length_blocks length_hmacSha256 c.toNat l
  have place : min ((i + 1) * 32) dkLen =
      i * 32 + if dkLen - i * 32 > 32 then 32 else dkLen - i * 32 := by
    split <;> omega
  have few : (if dkLen - i * 32 > 32 then 32 else dkLen - i * 32) ≤ 32 := by
    split <;> omega
  have fits : min ((i + 1) * 32) dkLen ≤ l * 32 := by omega
  rw [isBlock, ← slice_blocks length_hmacSha256 c.toNat
    (by omega : i < l), take_slice few, place]
  apply write_copied
  rw [length, ← place]
  exact fits

/-- The loop over the blocks has the first blocks in the buffer. -/
theorem deriveBlocks_spec (keyed : Keyed P [] Phctx)
    (salted : Keyed P S PShctx) (short : 64 + (S.length + 4) < 2 ^ 61)
    (positive : 1 ≤ c.toNat) (wraps : c.toNat < 2 ^ 64 - 1)
    (enough : c.toNat ≤ turns) {i dkLen l : Nat} {buf : List UInt8}
    (next : i ≤ l) (last : l = (dkLen + 31) / 32) :
    deriveBlocks Phctx PShctx c turns dkLen i
        ((blocks hmacSha256 P S c.toNat l).take (min (i * 32) dkLen) ++
          buf.drop (min (i * 32) dkLen)) tmp32 =
      some ((blocks hmacSha256 P S c.toNat l).take dkLen ++
        buf.drop dkLen) := by
  induction left : l - i generalizing i tmp32 with
  | zero =>
      have done : ¬ i * 32 < dkLen := by omega
      unfold deriveBlocks
      rw [if_neg done, Nat.min_eq_right (by omega)]
  | succ left ih =>
      have more : i * 32 < dkLen := by omega
      have ivec : (be32enc (UInt32.ofNat (i + 1))).length = 4 := rfl
      have value := @prf_spec PShctx tmp32 P S
        (be32enc (UInt32.ofNat (i + 1))) salted (by
          rw [List.length_append, ivec]
          exact short)
      unfold deriveBlocks
      rw [if_pos more, Nat.min_eq_left (Nat.le_of_lt more)]
      dsimp only
      generalize hmacSha256UpdateInternal PShctx _ tmp32 = result at value ⊢
      rcases result with ⟨hctx, tmp32'⟩
      dsimp only at value ⊢
      generalize hmacSha256FinalInternal hctx tmp32' = result at value ⊢
      rcases result with ⟨first, hctx', tmp32'⟩
      dsimp only at value ⊢
      rw [be32enc_eq_INT] at value
      have function := @iterate_spec Phctx tmp32' P S c 2 turns keyed (i + 1)
        wraps (Nat.le_refl 2) (Nat.succ_le_succ positive) (by
          show c.toNat + 1 ≤ 2 + turns
          omega)
      rcases function with ⟨after, function⟩
      have iterated : iterate Phctx c turns 2 first first tmp32' =
          some (F hmacSha256 P S c.toNat (i + 1), after) := by
        rw [value]
        exact function
      rw [iterated]
      dsimp only
      rw [write_block more last rfl]
      exact ih (by omega) (by omega)

/-- `PBKDF2_SHA256`. -/
theorem pbkdf2Sha256_spec (ctx : HmacSha256Ctx) (tmp32 : Tmp32)
    {dkLen : Nat} (buf : List UInt8) (shortKey : P.length < 2 ^ 61)
    (short : 64 + (S.length + 4) < 2 ^ 61) (positive : 1 ≤ c.toNat)
    (wraps : c.toNat < 2 ^ 64 - 1) (enough : c.toNat ≤ turns)
    (checked : dkLen ≤ 32 * (2 ^ 32 - 1)) :
    pbkdf2Sha256 ctx P S c buf dkLen tmp32 turns =
      some (pbkdf2 hmacSha256 32 P S c.toNat dkLen ++ buf.drop dkLen) := by
  have keyed := @hmacSha256InitInternal_keyed ctx tmp32 P shortKey
  unfold pbkdf2Sha256
  rw [if_pos checked]
  generalize hmacSha256InitInternal ctx P tmp32 = result at keyed ⊢
  rcases result with ⟨Phctx, tmp32'⟩
  have salted := @hmacSha256UpdateInternal_keyed Phctx tmp32' P [] S keyed
    (by rw [List.nil_append]; omega)
  dsimp only at salted ⊢
  generalize hmacSha256UpdateInternal Phctx S tmp32' = result at salted ⊢
  rcases result with ⟨PShctx, tmp32'⟩
  have derived := @deriveBlocks_spec Phctx PShctx tmp32' P S c turns keyed
    salted short positive wraps enough 0 dkLen _ buf (Nat.zero_le _) rfl
  rw [Nat.zero_mul, Nat.zero_min] at derived
  exact derived

end Derivation

/-! ## Digests -/

/-- The streaming interface and `HMAC_SHA256_Buf` compute HMAC, and
`PBKDF2_SHA256` writes the derived key and nothing else. -/
theorem hmac_pbkdf2_computed :
    (∀ (ctx : HmacSha256Ctx) (K : List UInt8)
        (calls : List (List UInt8 × Tmp32)) (tmp32 tmp32' : Tmp32),
      K.length < 2 ^ 61 → 64 + (messageOf calls).length < 2 ^ 61 →
        (hmacSha256Final (hmacUpdates (hmacSha256Init ctx K tmp32) calls)
            tmp32').1 = hmacSha256 K (messageOf calls) ∧
          hmacSha256Buf ctx K (messageOf calls) tmp32 =
            hmacSha256 K (messageOf calls)) ∧
    ∀ (ctx : HmacSha256Ctx) (P S : List UInt8) (c : UInt64)
        (buf : List UInt8) (dkLen : Nat) (tmp32 : Tmp32) (turns : Nat),
      P.length < 2 ^ 61 → 64 + (S.length + 4) < 2 ^ 61 → 1 ≤ c.toNat →
        c.toNat < 2 ^ 64 - 1 → c.toNat ≤ turns →
        dkLen ≤ 32 * (2 ^ 32 - 1) → dkLen ≤ buf.length →
          pbkdf2Sha256 ctx P S c buf dkLen tmp32 turns =
            some (pbkdf2 hmacSha256 32 P S c.toNat dkLen ++
              buf.drop dkLen) := by
  constructor
  · intro ctx K calls tmp32 tmp32' shortKey short
    have keyed := @hmacSha256InitInternal_keyed ctx tmp32 K shortKey
    constructor
    · exact hmacSha256FinalInternal_spec (hmacUpdates_keyed keyed short)
    · exact hmacSha256Buf_spec shortKey short
  · intro ctx P S c buf dkLen tmp32 turns shortKey short positive wraps enough
      checked _
    exact pbkdf2Sha256_spec ctx tmp32 buf shortKey short positive wraps enough
      checked

/-- A text in two updates, and two blocks, one of them cut off. -/
theorem hmac_pbkdf2_computed_short :
    (hmacSha256Final
        (hmacUpdates
          (hmacSha256Init ⟨⟨fun _ => 1, 2, fun _ => 3⟩,
            ⟨fun _ => 1, 2, fun _ => 3⟩⟩ [0x6b] ⟨fun _ => 4, fun _ => 5⟩)
          [([0x61], ⟨fun _ => 4, fun _ => 5⟩),
            ([0x62, 0x63], ⟨fun _ => 6, fun _ => 7⟩)])
        ⟨fun _ => 6, fun _ => 7⟩).1 = hmacSha256 [0x6b] [0x61, 0x62, 0x63] ∧
      pbkdf2Sha256 ⟨⟨fun _ => 1, 2, fun _ => 3⟩, ⟨fun _ => 1, 2, fun _ => 3⟩⟩
          [0x70] [0x73] 2 (List.replicate 34 9) 33
          ⟨fun _ => 4, fun _ => 5⟩ 2 =
        some (pbkdf2 hmacSha256 32 [0x70] [0x73] 2 33 ++ [9]) := by
  constructor
  · apply And.left
    exact hmac_pbkdf2_computed.1
      ⟨⟨fun _ => 1, 2, fun _ => 3⟩, ⟨fun _ => 1, 2, fun _ => 3⟩⟩ [0x6b]
      [([0x61], ⟨fun _ => 4, fun _ => 5⟩),
        ([0x62, 0x63], ⟨fun _ => 6, fun _ => 7⟩)]
      ⟨fun _ => 4, fun _ => 5⟩ ⟨fun _ => 6, fun _ => 7⟩ (by decide) (by decide)
  · exact hmac_pbkdf2_computed.2
      ⟨⟨fun _ => 1, 2, fun _ => 3⟩, ⟨fun _ => 1, 2, fun _ => 3⟩⟩ [0x70] [0x73]
      2 (List.replicate 34 9) 33 ⟨fun _ => 4, fun _ => 5⟩ 2 (by decide)
      (by decide) (by decide) (by decide) (by decide) (by decide) (by decide)

end Libcperciva.Alg.HmacStream
