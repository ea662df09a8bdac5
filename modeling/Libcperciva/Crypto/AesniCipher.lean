import Libcperciva.Crypto.AesExpanded
import Libcperciva.Crypto.AesniModel

/-!
# AESNI computes AES

Each register of the expanded key holds a round key of FIPS 197, and the state
of the cipher is in a register.
-/

namespace Libcperciva.Crypto.AesniCipher

open Libcperciva.Intrinsics.X86
open Libcperciva.Lib.Aes
open Libcperciva.Lib.FinLiterals
open Libcperciva.Lib.Lanes
open Libcperciva.Crypto.AesExpanded
open Libcperciva.Crypto.AesniModel

/-! ## Instructions -/

theorem word_mmShuffleEpi32 (a : M128i) (imm8 : Nat) {c : Nat}
    (inside : c < 4) :
    word (mmShuffleEpi32 a imm8) c = word a (imm8 / 4 ^ c % 4) := by
  funext r
  rw [word_lane, word_lane]
  unfold mmShuffleEpi32
  rw [lane_ofLanes _ (by omega)]

theorem state_mmAesencSi128 (a k : M128i) :
    state (mmAesencSi128 a k) =
      addRoundKey (state k) (mixColumns (shiftRows (subBytes (state a)))) := by
  unfold mmAesencSi128
  rw [state_xor, state_ofState]
  rfl

theorem state_mmAesenclastSi128 (a k : M128i) :
    state (mmAesenclastSi128 a k) =
      addRoundKey (state k) (shiftRows (subBytes (state a))) := by
  unfold mmAesenclastSi128
  rw [state_xor, state_ofState]
  rfl

/-- The last word of `_mm_aeskeygenassist_si128`, in each column. -/
theorem word_assist_rotated (a : M128i) (rcon : UInt8) {c : Nat}
    (inside : c < 4) :
    word (mmShuffleEpi32 (mmAeskeygenassistSi128 a rcon) 0xff) c =
      xorWord (subWord (rotWord (word a 3))) (front rcon) := by
  have last : 0xff / 4 ^ c % 4 = 3 := by
    rcases c with _ | _ | _ | _ | c
    · rfl
    · rfl
    · rfl
    · rfl
    · omega
  rw [word_mmShuffleEpi32 _ _ inside, last]
  unfold mmAeskeygenassistSi128
  rw [word_ofWords _ (by omega)]
  rfl

/-- The word before it, in each column. -/
theorem word_assist (a : M128i) (rcon : UInt8) {c : Nat} (inside : c < 4) :
    word (mmShuffleEpi32 (mmAeskeygenassistSi128 a rcon) 0xaa) c =
      subWord (word a 3) := by
  have third : 0xaa / 4 ^ c % 4 = 2 := by
    rcases c with _ | _ | _ | _ | c
    · rfl
    · rfl
    · rfl
    · rfl
    · omega
  rw [word_mmShuffleEpi32 _ _ inside, third]
  unfold mmAeskeygenassistSi128
  rw [word_ofWords _ (by omega)]
  rfl

/-! ## Key expansion -/

variable {key : List UInt8} {rkeys : Rkeys}

theorem mkrkey128_expanded (short : key.length = 16) (i : Fin 15)
    (positive : 0 < i.val) {rcon : UInt8}
    (constant : rcon = xtime^[i.val - 1] 1) (expanded : Expanded key i rkeys) :
    Expanded key (i + 1) (mkrkey128 rkeys i rcon) := by
  apply expanded.next_of_sixteen short i positive
  intro c inside
  rw [word_assist_rotated _ rcon inside, constant]
  rfl

theorem mkrkey256_expanded (long : key.length = 32) (i : Fin 15)
    (positive : 2 ≤ i.val) {shuffle : Nat} {rcon : UInt8}
    (constant : (i.val % 2 = 0 ∧ shuffle = 0xff ∧
      rcon = xtime^[i.val / 2 - 1] 1) ∨ (i.val % 2 = 1 ∧ shuffle = 0xaa))
    (expanded : Expanded key i rkeys) :
    Expanded key (i + 1) (mkrkey256 rkeys i shuffle rcon) := by
  apply expanded.next_of_thirtyTwo long i positive
  intro c inside
  rcases constant with ⟨even, rfl, rfl⟩ | ⟨odd, rfl⟩
  · rw [word_assist_rotated _ _ inside, if_pos even]
    rfl
  · rw [word_assist _ _ inside, if_neg (by omega)]

/-- The eleven round keys. -/
theorem keyExpand128_expanded (short : key.length = 16) (rkeys : Rkeys) :
    Expanded key 11 (keyExpand128 key rkeys) := by
  have start : Expanded key 1
      (rkeys.set 0 (mmLoaduSi128 key) (Nat.succ_pos 14)) :=
    Expanded.start (by omega) fun _ => word_bytes key
  have steps := Expanded.steps
    (fun i rkeys => mkrkey128 rkeys i (xtime^[i.val - 1] 1))
    (fun i _ positive => mkrkey128_expanded short i positive rfl)
    start 10 (by decide)
  dsimp only [repeated] at steps
  exact steps

/-- The fifteen round keys. -/
theorem keyExpand256_expanded (long : key.length = 32) (rkeys : Rkeys) :
    Expanded key 15 (keyExpand256 key rkeys) := by
  have start : Expanded key 1
      (rkeys.set 0 (mmLoaduSi128 key) (Nat.succ_pos 14)) :=
    Expanded.start (by omega) fun _ => word_bytes key
  have both := start.second long fun _ => word_bytes (key.drop 16)
  let shuffle (i : Fin 15) : Nat := if i.val % 2 = 0 then 0xff else 0xaa
  let rcon (i : Fin 15) : UInt8 :=
    if i.val % 2 = 0 then xtime^[i.val / 2 - 1] 1 else 0x00
  have constants (i : Fin 15) :
      (i.val % 2 = 0 ∧ shuffle i = 0xff ∧ rcon i = xtime^[i.val / 2 - 1] 1) ∨
        (i.val % 2 = 1 ∧ shuffle i = 0xaa) := by
    rcases Nat.mod_two_eq_zero_or_one i.val with even | odd
    · exact Or.inl ⟨even, if_pos even, if_pos even⟩
    · exact Or.inr ⟨odd, if_neg (Nat.mod_two_ne_zero.mpr odd)⟩
  have steps := Expanded.steps
    (fun i rkeys => mkrkey256 rkeys i (shuffle i) (rcon i))
    (fun i _ positive => mkrkey256_expanded long i positive (constants i))
    both 13 (by decide)
  dsimp only [repeated] at steps
  exact steps

/-! ## Encryption -/

variable {nr : Nat} {s : State} {a : M128i}

/-- The state after some rounds is in a register. -/
def After (key : List UInt8) (s : State) (n : Nat) (a : M128i) : Prop :=
  state a = rounds (roundKey key) s n

theorem after_zero {block : M128i} (expanded : Expanded key (nr + 1) rkeys) :
    After key (state block) 0 (mmXorSi128 block (rkeys.get 0)) := by
  unfold After mmXorSi128
  rw [state_xor, show rkeys.get 0 = rkeys.get (Fin.ofNat 15 0) from rfl,
    (expanded 0 (Nat.succ_pos nr)).state_eq]
  rfl

/-- `_mm_aesenc_si128` is a round. -/
theorem After.round (expanded : Expanded key (nr + 1) rkeys) (n : Nat)
    (before : n < nr) (after : After key s n a) :
    After key s (n + 1)
      (mmAesencSi128 a (rkeys.get (Fin.ofNat 15 (n + 1)))) := by
  unfold After at after ⊢
  rw [state_mmAesencSi128, after,
    (expanded (n + 1) (Nat.succ_lt_succ before)).state_eq]
  rfl

theorem After.last (expanded : Expanded key (nr + 1) rkeys)
    (after : After key s (nr - 1) a) :
    state (mmAesenclastSi128 a (rkeys.get (Fin.ofNat 15 nr))) =
      cipher nr (roundKey key) s := by
  unfold After at after
  rw [state_mmAesenclastSi128, after,
    (expanded nr (Nat.lt_succ_self nr)).state_eq]
  rfl

theorem encryptBlockM128i_eq (nrs : nr = 10 ∨ nr = 14)
    (expanded : Expanded key (nr + 1) rkeys) (block : M128i) :
    state (encryptBlockM128i block ⟨rkeys, nr⟩) =
      cipher nr (roundKey key) (state block) := by
  have rounds (count : Nat) (within : 0 + count ≤ nr) :=
    repeated_spec (P := After key (state block))
      (fun n _ _ before => After.round expanded n before)
      (after_zero expanded) count within
  rcases nrs with rfl | rfl
  · exact After.last expanded (rounds 9 (by decide))
  · exact After.last expanded (rounds 13 (by decide))

/-- `crypto_aes_key_expand_aesni` with a key of either length. -/
theorem cryptoAesKeyExpandAesni_spec {len : Nat}
    (lengths : len = 16 ∨ len = 32) (isLength : key.length = len)
    (rkeys : Rkeys) :
    ∃ kexp, cryptoAesKeyExpandAesni (some rkeys) key len = some kexp ∧
      kexp.nr = len / 4 + 6 ∧ Expanded key (kexp.nr + 1) kexp.rkeys := by
  rcases lengths with rfl | rfl
  · exact ⟨_, rfl, rfl, keyExpand128_expanded isLength rkeys⟩
  · exact ⟨_, rfl, rfl, keyExpand256_expanded isLength rkeys⟩

/-- `crypto_aes_encrypt_block_aesni` with an expanded key. -/
theorem cryptoAesEncryptBlockAesni_spec {len : Nat} {kexp : CryptoAesKeyAesni}
    (lengths : len = 16 ∨ len = 32) (isLength : key.length = len)
    (isRounds : kexp.nr = len / 4 + 6)
    (expanded : Expanded key (kexp.nr + 1) kexp.rkeys) (block : List UInt8) :
    cryptoAesEncryptBlockAesni block kexp = encrypt key block := by
  have rounds : kexp.nr = key.length / 4 + 6 := by
    rw [isLength]
    exact isRounds
  exact encrypt_of_state rounds
    (encryptBlockM128i_eq (by omega) expanded (mmLoaduSi128 block))

/-- With a key of 16 or 32 bytes, `crypto_aes_key_expand_aesni` computes the
round keys of FIPS 197, whatever was in memory, and
`crypto_aes_encrypt_block_aesni` encrypts each block as AES does. -/
theorem crypto_aes_aesni {len : Nat} (lengths : len = 16 ∨ len = 32)
    (isLength : key.length = len) (rkeys : Rkeys) :
    ∃ kexp, cryptoAesKeyExpandAesni (some rkeys) key len = some kexp ∧
      kexp.nr = len / 4 + 6 ∧
      (∀ i ≤ kexp.nr, ∀ c < 4, ∀ r : Fin 4,
        UInt8.ofBitVec (lane 8 (kexp.rkeys.get (Fin.ofNat 15 i)) (4 * c + r)) =
          schedule key (4 * i + c) r) ∧
      ∀ block, cryptoAesEncryptBlockAesni block kexp = encrypt key block := by
  obtain ⟨kexp, result, isRounds, expanded⟩ :=
    cryptoAesKeyExpandAesni_spec lengths isLength rkeys
  refine ⟨kexp, result, isRounds, ?_, ?_⟩
  · intro i within c inside r
    exact congrFun (expanded i (Nat.lt_succ_of_le within) c inside) r
  · exact cryptoAesEncryptBlockAesni_spec lengths isLength isRounds expanded

/-- A key of 32 zeros. -/
theorem crypto_aes_aesni_zeros :
    ∃ kexp, cryptoAesKeyExpandAesni (some (Vector.replicate 15 0))
        (List.replicate 32 0) 32 = some kexp ∧ kexp.nr = 14 ∧
      ∀ block, cryptoAesEncryptBlockAesni block kexp =
        encrypt (List.replicate 32 0) block := by
  obtain ⟨kexp, expanded, isRounds, _, encrypted⟩ := crypto_aes_aesni
    (Or.inr rfl) (List.length_replicate (a := (0 : UInt8)))
    (Vector.replicate 15 0)
  exact ⟨kexp, expanded, isRounds, encrypted⟩

end Libcperciva.Crypto.AesniCipher
