import Libcperciva.Crypto.AesArmModel
import Libcperciva.Crypto.AesExpanded

/-!
# The AES instructions of ARM compute AES

The instruction for a round adds the round key first, so a register is one
round key behind the state of the cipher.
-/

namespace Libcperciva.Crypto.AesArmCipher

open Libcperciva.Intrinsics.Neon
open Libcperciva.Lib.Aes
open Libcperciva.Lib.FinLiterals
open Libcperciva.Lib.Lanes
open Libcperciva.Crypto.AesArmModel
open Libcperciva.Crypto.AesExpanded

/-! ## Instructions -/

/-- `vshlq_n_u128` is a shift of the register. -/
theorem vshlqNU128_eq (a : Uint8x16) {n : Nat} (few : n ≤ 16) :
    vshlqNU128 a n = a <<< (8 * n) := by
  apply eq_of_lanes 8 (show 128 = 8 * 16 from rfl)
  intro i inside
  unfold vshlqNU128 vextqU8
  rw [lane_ofLanes _ (by omega), lane_shiftLeft a n (by omega)]
  by_cases low : i < n
  · rw [if_pos (by omega), if_pos low]
    unfold vdupqNU8
    rw [lane_ofLanes _ (by omega)]
    rfl
  · have place : i + (16 - n) - 16 = i - n := by omega
    rw [if_neg (by omega), if_neg low, place]

theorem veorq_vshlq (s : Uint8x16) :
    veorqU8 (veorqU8 s (vshlqNU128 s 4))
        (vshlqNU128 (veorqU8 s (vshlqNU128 s 4)) 8) = runningXor s := by
  rw [vshlqNU128_eq s (by decide), vshlqNU128_eq _ (by decide)]
  rfl

/-- The columns of a register of equal lanes. -/
theorem word_dup (x : BitVec 32) {c : Nat} (inside : c < 4) (r : Fin 4) :
    word (ofLanes 128 32 fun _ => x) c r = UInt8.ofBitVec (lane 8 x r) := by
  unfold word
  rw [← lane_lane _ r.isLt]
  exact congrArg (fun y : BitVec 32 => UInt8.ofBitVec (lane 8 y r))
    (lane_ofLanes _ (show 32 * (c + 1) ≤ 128 by omega))

/-- All columns are the same, so rows are not shifted. -/
theorem word_subWordDuplicate (a : Uint8x16) {c : Nat} (inside : c < 4) :
    word (subWordDuplicate a) c = subWord (word a 3) := by
  have zero : vdupqNU8 0 = 0 := by
    apply eq_of_lanes 8 (show 128 = 8 * 16 from rfl)
    intro i isByte
    unfold vdupqNU8
    rw [lane_ofLanes _ (by omega)]
    exact (BitVec.extractLsb'_zero).symm
  have same : vdupqLaneqU32U8 a 3 ^^^ 0 = vdupqLaneqU32 a 3 :=
    BitVec.xor_zero
  unfold subWordDuplicate vaeseqU8 ofState
  dsimp only
  rw [zero, same, word_ofWords _ inside]
  funext r
  show sbox (word (vdupqLaneqU32 a 3) (Fin.ofNat 4 c + r).val r) =
    sbox (word a 3 r)
  unfold vdupqLaneqU32
  rw [word_dup _ (Fin.ofNat 4 c + r).isLt, ← word_lane a 3 r]

/-- A byte as a word of 32 bits. -/
theorem lane_toUInt32 (b : UInt8) (r : Fin 4) :
    UInt8.ofBitVec (lane 8 b.toUInt32.toBitVec r) = front b r := by
  unfold front
  by_cases isFirst : r = 0
  · rw [if_pos isFirst, isFirst]
    apply UInt8.toBitVec_inj.mp
    apply BitVec.eq_of_getLsbD_eq
    intro k isBit
    rw [getLsbD_lane _ isBit]
    simp [isBit, Nat.lt_of_lt_of_le isBit]
  · have isLater : 8 ≤ 8 * r.val := by
      have positive : r.val ≠ 0 := fun isZero => isFirst (Fin.ext isZero)
      omega
    rw [if_neg isFirst]
    apply UInt8.toBitVec_inj.mp
    apply BitVec.eq_of_getLsbD_eq
    intro k isBit
    rw [getLsbD_lane _ isBit, UInt8.toBitVec_toUInt32,
      BitVec.getLsbD_setWidth, BitVec.getLsbD_of_ge b.toBitVec _ (by omega)]
    simp

theorem word_subWordRotWordXorDuplicate (a : Uint8x16) (b : UInt8) {c : Nat}
    (inside : c < 4) :
    word (subWordRotWordXorDuplicate a b.toUInt32) c =
      xorWord (subWord (rotWord (word a 3))) (front b) := by
  have bytes (r : Fin 4) :
      UInt8.ofBitVec (lane 8 (lane 32 (subWordDuplicate a) 0) r) =
        subWord (word a 3) r := by
    rw [← word_lane, word_subWordDuplicate a (by decide)]
  generalize isWord : lane 32 (subWordDuplicate a) 0 = x at bytes
  have rotated (r : Fin 4) :
      lane 8 (x >>> (8 * 1) ||| x <<< (8 * 3)) r = lane 8 x (r + 1 : Fin 4) := by
    rw [lane_or, lane_shiftRight, lane_shiftLeft x 3 (by omega)]
    by_cases isLast : r.val = 3
    · have wraps : r + 1 = 0 := Fin.ext (by rw [Fin.val_add, isLast]; rfl)
      rw [isLast, wraps, lane_of_ge x (by decide), if_neg (by decide)]
      exact BitVec.zero_or
    · have place : (r + 1).val = 1 + r.val := by
        rw [Fin.val_add]
        show (r.val + 1) % 4 = _
        omega
      rw [if_pos (by omega), place]
      exact BitVec.or_zero
  funext r
  unfold subWordRotWordXorDuplicate vgetqLaneU32 vdupqNU32
  dsimp only
  rw [word_dup _ inside, isWord]
  show UInt8.ofBitVec (lane 8 ((x >>> (8 * 1) ||| x <<< (8 * 3)) ^^^
    b.toUInt32.toBitVec) r) = subWord (word a 3) (r + 1) ^^^ front b r
  rw [lane_xor, UInt8.ofBitVec_xor, lane_toUInt32, rotated, bytes]

/-! ## Key expansion -/

variable {key : List UInt8} {rkeys : Rkeys}

theorem mkrkey128_expanded (short : key.length = 16) (i : Fin 15)
    (positive : 0 < i.val) {rcon : UInt32}
    (constant : rcon = (xtime^[i.val - 1] 1).toUInt32)
    (expanded : Expanded key i rkeys) :
    Expanded key (i + 1) (mkrkey128 rkeys i rcon) := by
  unfold mkrkey128
  dsimp only
  rw [veorq_vshlq]
  apply expanded.next_of_sixteen short i positive
  intro c inside
  rw [constant, word_subWordRotWordXorDuplicate _ _ inside]
  rfl

theorem mkrkey256_expanded (long : key.length = 32) (i : Fin 15)
    (positive : 2 ≤ i.val) {rcon : UInt32}
    (constant : i.val % 2 = 0 → rcon = (xtime^[i.val / 2 - 1] 1).toUInt32)
    (expanded : Expanded key i rkeys) :
    Expanded key (i + 1) (mkrkey256 rkeys i rcon) := by
  unfold mkrkey256
  dsimp only
  rw [veorq_vshlq]
  apply expanded.next_of_thirtyTwo long i positive
  intro c inside
  by_cases even : i.val % 2 = 0
  · rw [if_neg (by omega), if_pos even, constant even,
      word_subWordRotWordXorDuplicate _ _ inside]
    rfl
  · rw [if_pos (by omega), if_neg even, word_subWordDuplicate _ inside]

/-- The eleven round keys. -/
theorem keyExpand128_expanded (short : key.length = 16) (rkeys : Rkeys) :
    Expanded key 11 (keyExpand128 key rkeys) := by
  have start : Expanded key 1
      (rkeys.set 0 (vld1qU8 key) (Nat.succ_pos 14)) :=
    Expanded.start (by omega) fun _ => word_bytes key
  have steps := Expanded.steps
    (fun i rkeys => mkrkey128 rkeys i (xtime^[i.val - 1] 1).toUInt32)
    (fun i _ positive => mkrkey128_expanded short i positive rfl)
    start 10 (by decide)
  dsimp only [repeated] at steps
  exact steps

/-- The fifteen round keys. -/
theorem keyExpand256_expanded (long : key.length = 32) (rkeys : Rkeys) :
    Expanded key 15 (keyExpand256 key rkeys) := by
  have start : Expanded key 1
      (rkeys.set 0 (vld1qU8 key) (Nat.succ_pos 14)) :=
    Expanded.start (by omega) fun _ => word_bytes key
  have both := start.second long fun _ => word_bytes (key.drop 16)
  let rcon (i : Fin 15) : UInt32 :=
    if i.val % 2 = 0 then (xtime^[i.val / 2 - 1] 1).toUInt32 else 0x00
  have steps := Expanded.steps (fun i rkeys => mkrkey256 rkeys i (rcon i))
    (fun i _ positive => mkrkey256_expanded long i positive fun even =>
      if_pos even) both 13 (by decide)
  dsimp only [repeated] at steps
  exact steps

/-! ## Encryption -/

variable {nr : Nat} {s : State} {a : Uint8x16}

/-- After some rounds the next round key has still to be added. -/
def After (key : List UInt8) (s : State) (n : Nat) (a : Uint8x16) : Prop :=
  addRoundKey (roundKey key n) (state a) = rounds (roundKey key) s n

/-- `vaeseq_u8` with the round key that is due. -/
theorem state_vaeseqU8 (expanded : Expanded key (nr + 1) rkeys) {n : Nat}
    (within : n ≤ nr) (after : After key s n a) :
    state (vaeseqU8 a (rkeys.get (Fin.ofNat 15 n))) =
      shiftRows (subBytes (rounds (roundKey key) s n)) := by
  unfold After at after
  unfold vaeseqU8
  rw [state_ofState, state_xor,
    (expanded n (Nat.lt_succ_of_le within)).state_eq, after]
  rfl

theorem After.round (expanded : Expanded key (nr + 1) rkeys) (n : Nat)
    (within : n ≤ nr) (after : After key s n a) :
    After key s (n + 1)
      (vaesmcqU8 (vaeseqU8 a (rkeys.get (Fin.ofNat 15 n)))) := by
  unfold After vaesmcqU8
  rw [state_ofState, state_vaeseqU8 expanded within after]
  rfl

theorem After.last (expanded : Expanded key (nr + 1) rkeys)
    (after : After key s (nr - 1) a) :
    state (veorqU8 (vaeseqU8 a (rkeys.get (Fin.ofNat 15 (nr - 1))))
        (rkeys.get (Fin.ofNat 15 nr))) = cipher nr (roundKey key) s := by
  unfold veorqU8
  rw [state_xor, state_vaeseqU8 expanded (Nat.sub_le nr 1) after,
    (expanded nr (Nat.lt_succ_self nr)).state_eq]
  rfl

theorem encryptBlockU8_eq (nrs : nr = 10 ∨ nr = 14)
    (expanded : Expanded key (nr + 1) rkeys) (block : Uint8x16) :
    state (encryptBlockU8 block ⟨rkeys, nr⟩) =
      cipher nr (roundKey key) (state block) := by
  have start : After key (state block) 0 block := rfl
  have rounds (count : Nat) (within : 0 + count ≤ nr) :=
    repeated_spec (P := After key (state block))
      (fun n _ _ before => After.round expanded n (Nat.le_of_lt before))
      start count within
  rcases nrs with rfl | rfl
  · exact After.last expanded (rounds 9 (by decide))
  · exact After.last expanded (rounds 13 (by decide))

/-- `crypto_aes_key_expand_arm` with a key of either length. -/
theorem cryptoAesKeyExpandArm_spec {len : Nat}
    (lengths : len = 16 ∨ len = 32) (isLength : key.length = len)
    (rkeys : Rkeys) :
    ∃ kexp, cryptoAesKeyExpandArm (some rkeys) key len = some kexp ∧
      kexp.nr = len / 4 + 6 ∧ Expanded key (kexp.nr + 1) kexp.rkeys := by
  rcases lengths with rfl | rfl
  · exact ⟨_, rfl, rfl, keyExpand128_expanded isLength rkeys⟩
  · exact ⟨_, rfl, rfl, keyExpand256_expanded isLength rkeys⟩

/-- `crypto_aes_encrypt_block_arm` with an expanded key. -/
theorem cryptoAesEncryptBlockArm_spec {len : Nat} {kexp : CryptoAesKeyArm}
    (lengths : len = 16 ∨ len = 32) (isLength : key.length = len)
    (isRounds : kexp.nr = len / 4 + 6)
    (expanded : Expanded key (kexp.nr + 1) kexp.rkeys) (block : List UInt8) :
    cryptoAesEncryptBlockArm block kexp = encrypt key block := by
  have rounds : kexp.nr = key.length / 4 + 6 := by
    rw [isLength]
    exact isRounds
  exact encrypt_of_state rounds
    (encryptBlockU8_eq (by omega) expanded (vld1qU8 block))

/-- With a key of 16 or 32 bytes, `crypto_aes_key_expand_arm` computes the
round keys of FIPS 197, whatever was in memory, and
`crypto_aes_encrypt_block_arm` encrypts each block as AES does. -/
theorem crypto_aes_arm {len : Nat} (lengths : len = 16 ∨ len = 32)
    (isLength : key.length = len) (rkeys : Rkeys) :
    ∃ kexp, cryptoAesKeyExpandArm (some rkeys) key len = some kexp ∧
      kexp.nr = len / 4 + 6 ∧
      (∀ i ≤ kexp.nr, ∀ c < 4, ∀ r : Fin 4,
        UInt8.ofBitVec (lane 8 (kexp.rkeys.get (Fin.ofNat 15 i)) (4 * c + r)) =
          schedule key (4 * i + c) r) ∧
      ∀ block, cryptoAesEncryptBlockArm block kexp = encrypt key block := by
  obtain ⟨kexp, result, isRounds, expanded⟩ :=
    cryptoAesKeyExpandArm_spec lengths isLength rkeys
  refine ⟨kexp, result, isRounds, ?_, ?_⟩
  · intro i within c inside r
    exact congrFun (expanded i (Nat.lt_succ_of_le within) c inside) r
  · exact cryptoAesEncryptBlockArm_spec lengths isLength isRounds expanded

/-- A key of 16 zeros. -/
theorem crypto_aes_arm_zeros :
    ∃ kexp, cryptoAesKeyExpandArm (some (Vector.replicate 15 0))
        (List.replicate 16 0) 16 = some kexp ∧ kexp.nr = 10 ∧
      ∀ block, cryptoAesEncryptBlockArm block kexp =
        encrypt (List.replicate 16 0) block := by
  obtain ⟨kexp, expanded, isRounds, _, encrypted⟩ := crypto_aes_arm
    (Or.inl rfl) (List.length_replicate (a := (0 : UInt8)))
    (Vector.replicate 15 0)
  exact ⟨kexp, expanded, isRounds, encrypted⟩

end Libcperciva.Crypto.AesArmCipher
