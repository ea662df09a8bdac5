import Libcperciva.Alg.BlockStream
import Libcperciva.Alg.Sha256Transform

/-!
# The digest of SHA-256

A context holds the hash value after the whole blocks of the message, the bytes
that do not fill a block, and the number of bits.
-/

namespace Libcperciva.Alg.Sha256Stream

open Libcperciva.Lib.Blocks
open Libcperciva.Lib.FinLiterals
open Libcperciva.Lib.Fips180
open Libcperciva.Util.Sysendian
open Libcperciva.Alg.BlockStream
open Libcperciva.Alg.Sha256Model
open Libcperciva.Alg.Sha256Transform

variable {ctx : Sha256Ctx} {tmp32 : Tmp32} {message src : List UInt8}
  {hash : Fin 8 → UInt32}

/-! ## Bytes -/

/-- A byte of a word. -/
theorem toUInt8_shiftRight (x : UInt32) {shift : UInt32}
    (few : shift.toNat < 32) :
    (x >>> shift &&& 0xff).toUInt8 =
      ⟨x.toBitVec.extractLsb' shift.toNat 8⟩ := by
  apply UInt8.toBitVec_inj.mp
  apply BitVec.eq_of_getLsbD_eq
  intro i isBit
  have mask : (255#8)[i] = true := by
    rw [show 255#8 = BitVec.allOnes 8 from rfl, BitVec.getElem_allOnes]
  simp [isBit, mask, Nat.mod_eq_of_lt few]

/-- `be32enc` writes the bytes of a word. -/
theorem be32enc_eq_wordBytes (x : UInt32) : be32enc x = wordBytes x := by
  have last := @toUInt8_shiftRight x 0 (by decide)
  rw [UInt32.shiftRight_zero] at last
  unfold be32enc
  rw [toUInt8_shiftRight x (by decide), toUInt8_shiftRight x (by decide),
    toUInt8_shiftRight x (by decide), last]
  rfl

theorem be32encVect_eq_flatMap (state : Fin 8 → UInt32) :
    be32encVect state 32 = (List.ofFn state).flatMap wordBytes := by
  unfold be32encVect
  simp only [be32enc_eq_wordBytes]
  rfl

/-- The terminating bit-count. -/
theorem be64_eq_lengthBytes (bits : Nat) :
    (List.range 8).map (be64 bits) = lengthBytes bits := by
  unfold lengthBytes
  apply List.map_congr_left
  intro j member
  have few : j < 8 := List.mem_range.mp member
  have power : 2 ^ (56 - 8 * j) = 256 ^ (7 - j) := by
    rw [show (256 : Nat) = 2 ^ 8 from rfl, ← Nat.pow_mul]
    exact congrArg (2 ^ ·) (by omega)
  unfold be64
  rw [power]

/-! ## Contexts -/

/-- The context holds a message. -/
structure Holds (message : List UInt8) (ctx : Sha256Ctx) : Prop where
  absorbed : Buffered compress initialHash message ctx.state ctx.buf
  count : ctx.count = 8 * message.length
  short : message.length < 2 ^ 61

theorem sha256Init_holds (ctx : Sha256Ctx) : Holds [] (sha256Init ctx) where
  absorbed := by
    show Buffered compress initialHash [] initialState ctx.buf
    rw [initialState_eq_initialHash]
    exact Buffered.start ctx.buf
  count := rfl
  short := by decide

/-- The number of bytes that are buffered. -/
theorem Holds.buffered (holds : Holds message ctx) :
    ctx.count / 8 % 64 = message.length % 64 := by
  rw [holds.count, Nat.mul_div_cancel_left _ (by decide)]

/-- `SHA256_Transform` of the buffer. -/
theorem transformBuf_spec (ctx : Sha256Ctx) (tmp32 : Tmp32) :
    (transformBuf ctx tmp32).1 =
      { ctx with state := compress ctx.state (List.ofFn ctx.buf) } := by
  rw [← sha256Transform_eq_compress ctx.state (List.ofFn ctx.buf) tmp32]
  rfl

/-! ## Updates -/

/-- The loop over complete blocks, where `tmp32` does not matter. -/
theorem completeBlocks_eq (state : Fin 8 → UInt32) (src : List UInt8)
    (tmp32 : Tmp32) :
    ∃ after, completeBlocks state src tmp32 =
      ((CountedModel.completeBlocks compress state src).1,
        (CountedModel.completeBlocks compress state src).2, after) := by
  induction state, src, tmp32 using completeBlocks.induct with
  | case1 state src tmp32 many next after transformed ih =>
      have compressed : next = compress state (src.take 64) := by
        rw [← sha256Transform_eq_compress state (src.take 64) tmp32,
          transformed]
      unfold completeBlocks CountedModel.completeBlocks
      rw [if_pos many, if_pos many, transformed, ← compressed]
      exact ih
  | case2 state src tmp32 few =>
      unfold completeBlocks CountedModel.completeBlocks
      rw [if_neg few, if_neg few]
      exact ⟨tmp32, rfl⟩

/-- `SHA256_Update_internal`. -/
theorem sha256UpdateInternal_holds (holds : Holds message ctx)
    (short : (message ++ src).length < 2 ^ 61) :
    Holds (message ++ src) (sha256UpdateInternal ctx src tmp32).1 := by
  have bits : (ctx.count + src.length * 8 % 2 ^ 64) % 2 ^ 64 =
      8 * (message ++ src).length := by
    rw [holds.count]
    rw [List.length_append] at short ⊢
    omega
  unfold sha256UpdateInternal
  dsimp only
  rw [holds.buffered, bits]
  by_cases nothing : src.length = 0
  · rw [if_pos nothing, List.eq_nil_of_length_eq_zero nothing,
      List.append_nil]
    exact holds
  · rw [if_neg nothing]
    by_cases few : src.length < 64 - message.length % 64
    · rw [if_pos few]
      exact ⟨holds.absorbed.keep few, rfl, short⟩
    · rw [if_neg few]
      have taken := holds.absorbed.take few
      have transformed := transformBuf_spec
        { ctx with
          count := 8 * (message ++ src).length
          buf := memcpy ctx.buf (message.length % 64)
            (src.take (64 - message.length % 64)) } tmp32
      generalize transformBuf _ tmp32 = result at transformed ⊢
      rcases result with ⟨_, tmp32'⟩
      dsimp only at transformed ⊢
      subst transformed
      obtain ⟨_, isBlocks⟩ := completeBlocks_eq
        (compress ctx.state (List.ofFn (memcpy ctx.buf (message.length % 64)
          (src.take (64 - message.length % 64)))))
        (src.drop (64 - message.length % 64)) tmp32'
      dsimp only
      rw [isBlocks]
      exact ⟨taken, rfl, short⟩

/-! ## The digest -/

/-- The padding of a message whose last bytes leave room for the length. -/
theorem pad_of_lt (few : message.length % 64 < 56) :
    pad message = message ++ (PAD.take (56 - message.length % 64) ++
      lengthBytes (8 * message.length)) := by
  have zeros : (119 - message.length % 64) % 64 =
      55 - message.length % 64 := by
    omega
  have taken : PAD.take (56 - message.length % 64) =
      0x80 :: List.replicate (55 - message.length % 64) 0 := by
    unfold PAD
    rw [show 56 - message.length % 64 = 55 - message.length % 64 + 1 by
      omega, List.take_succ_cons, List.take_replicate]
    exact congrArg (fun n => 0x80 :: List.replicate n 0) (by omega)
  unfold pad
  rw [zeros, taken, List.append_assoc]

/-- The padding of a message that needs another block. -/
theorem pad_of_ge (many : ¬ message.length % 64 < 56) :
    pad message = message ++ PAD.take (64 - message.length % 64) ++
      (List.replicate 56 0 ++ lengthBytes (8 * message.length)) := by
  have zeros : (119 - message.length % 64) % 64 =
      63 - message.length % 64 + 56 := by
    omega
  have taken : PAD.take (64 - message.length % 64) =
      0x80 :: List.replicate (63 - message.length % 64) 0 := by
    unfold PAD
    rw [show 64 - message.length % 64 = 63 - message.length % 64 + 1 by
      omega, List.take_succ_cons, List.take_replicate]
    exact congrArg (fun n => 0x80 :: List.replicate n 0) (by omega)
  unfold pad
  rw [zeros, taken, List.replicate_add, ← List.cons_append,
    ← List.append_assoc, List.append_assoc]

/-- `SHA256_Pad` takes what is left of the padded message. -/
theorem sha256Pad_spec (holds : Holds message ctx) :
    (sha256Pad ctx tmp32).1.state =
      absorb compress 64 initialHash (pad message) := by
  have absorbed := holds.absorbed
  have buffered := length_take_buf ctx.buf
    (by omega : message.length % 64 ≤ 64)
  have lengthPad : PAD.length = 64 := rfl
  have lengthCount := length_lengthBytes (8 * message.length)
  unfold sha256Pad
  dsimp only
  rw [holds.buffered]
  by_cases few : message.length % 64 < 56
  · have taken : (PAD.take (56 - message.length % 64)).length =
        56 - message.length % 64 := by
      rw [List.length_take, lengthPad]
      omega
    rw [if_pos few, pad_of_lt few]
    dsimp only
    rw [transformBuf_spec, be64_eq_lengthBytes, holds.count]
    have place : message.length % 64 +
        (PAD.take (56 - message.length % 64)).length = 56 := by
      rw [taken]
      omega
    have padded := take_memcpy ctx.buf
      (by rw [place]; decide : _ + (PAD.take _).length ≤ 64)
    rw [place] at padded
    dsimp only
    rw [ofFn_memcpy_full _ (by rw [lengthCount]), padded, List.append_assoc]
    apply Absorbed.finish
    apply absorbed.fill
    rw [buffered, List.length_append, lengthCount, ← Nat.add_assoc, place]
  · have taken : (PAD.take (64 - message.length % 64)).length =
        64 - message.length % 64 := by
      rw [List.length_take, lengthPad]
      omega
    rw [if_neg few, pad_of_ge few]
    have first := absorbed.fill
      (by rw [buffered, taken]; omega :
        _ + (PAD.take (64 - message.length % 64)).length = 64)
    rw [← ofFn_memcpy_full ctx.buf (by rw [taken]; omega)] at first
    have transformed := transformBuf_spec
      { ctx with
        buf := memcpy ctx.buf (message.length % 64)
          (PAD.take (64 - message.length % 64)) } tmp32
    generalize memcpy ctx.buf (message.length % 64)
      (PAD.take (64 - message.length % 64)) = block at first transformed ⊢
    generalize transformBuf _ tmp32 = result at transformed ⊢
    rcases result with ⟨after, tmp32'⟩
    dsimp only at transformed ⊢
    subst transformed
    dsimp only
    rw [transformBuf_spec, be64_eq_lengthBytes, holds.count]
    have zeros : (List.replicate 56 (0 : UInt8)).length = 56 :=
      List.length_replicate
    have cleared := @take_memcpy (List.replicate 56 0) block 0
      (by rw [zeros]; decide)
    rw [zeros, Nat.zero_add, List.take_zero, List.nil_append] at cleared
    dsimp only
    rw [ofFn_memcpy_full (memcpy block 0 (List.replicate 56 0))
      (by rw [lengthCount]), cleared]
    apply Absorbed.finish
    apply first.fill
    rw [List.length_append, lengthCount, zeros]
    rfl

/-- The message of some calls. -/
def messageOf (calls : List (List UInt8 × Tmp32)) : List UInt8 :=
  calls.flatMap Prod.fst

theorem updates_holds {calls : List (List UInt8 × Tmp32)}
    (holds : Holds message ctx)
    (short : (message ++ messageOf calls).length < 2 ^ 61) :
    Holds (message ++ messageOf calls) (updates ctx calls) := by
  induction calls generalizing message ctx with
  | nil =>
      rw [messageOf, List.flatMap_nil, List.append_nil]
      exact holds
  | cons call calls ih =>
      rcases call with ⟨src, tmp32⟩
      have split : message ++ messageOf ((src, tmp32) :: calls) =
          (message ++ src) ++ messageOf calls :=
        (List.append_assoc message src (messageOf calls)).symm
      rw [split] at short ⊢
      have fewer : (message ++ src).length < 2 ^ 61 := by
        rw [List.length_append] at short
        omega
      exact ih (sha256UpdateInternal_holds holds fewer) short

theorem sha256FinalInternal_spec (holds : Holds message ctx) :
    (sha256FinalInternal ctx tmp32).1 = sha256 message := by
  have padded := @sha256Pad_spec ctx tmp32 message holds
  unfold sha256FinalInternal sha256
  generalize sha256Pad ctx tmp32 = result at padded ⊢
  rw [← padded]
  exact be32encVect_eq_flatMap _

/-- The software computes the compression function, and the digest of a message
however it is divided into updates. -/
theorem sha256_computes_digest :
    (∀ (state : Fin 8 → UInt32) (block : List UInt8) (tmp32 : Tmp32),
      (sha256Transform state block tmp32).1 = compress state block) ∧
    ∀ (ctx : Sha256Ctx) (calls : List (List UInt8 × Tmp32)) (tmp32 : Tmp32),
      (messageOf calls).length < 2 ^ 61 →
        (sha256Final (updates (sha256Init ctx) calls) tmp32).1 =
            sha256 (messageOf calls) ∧
          sha256Buf ctx (messageOf calls) tmp32 =
            sha256 (messageOf calls) := by
  refine ⟨sha256Transform_eq_compress, ?_⟩
  intro ctx calls tmp32 short
  have start := sha256Init_holds ctx
  constructor
  · exact sha256FinalInternal_spec (updates_holds start short)
  · exact sha256FinalInternal_spec (sha256UpdateInternal_holds start short)

/-- Three bytes, in three updates. -/
theorem sha256_computes_digest_abc :
    (sha256Final (updates (sha256Init ⟨fun _ => 1, 2, fun _ => 3⟩)
        [([0x61], ⟨fun _ => 4, fun _ => 5⟩),
          ([], ⟨fun _ => 4, fun _ => 5⟩),
          ([0x62, 0x63], ⟨fun _ => 4, fun _ => 5⟩)])
        ⟨fun _ => 6, fun _ => 7⟩).1 = sha256 [0x61, 0x62, 0x63] := by
  apply And.left
  exact sha256_computes_digest.2 ⟨fun _ => 1, 2, fun _ => 3⟩
    [([0x61], ⟨fun _ => 4, fun _ => 5⟩), ([], ⟨fun _ => 4, fun _ => 5⟩),
      ([0x62, 0x63], ⟨fun _ => 4, fun _ => 5⟩)]
    ⟨fun _ => 6, fun _ => 7⟩ (by decide)

end Libcperciva.Alg.Sha256Stream
