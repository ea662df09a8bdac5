import Libcperciva.Crypto.AesRuns
import Libcperciva.Crypto.AesctrStream

/-!
# AES-CTR with AES

The block cipher of a stream is `crypto_aes_encrypt_block`.  Two programs may
differ in their machines, in the implementations that they chose and in the
parts in which they process a message.
-/

namespace Libcperciva.Crypto.AesctrAes

open Libcperciva.Lib.Aes
open Libcperciva.Lib.FinLiterals
open Libcperciva.Lib.Keystream
open Libcperciva.Crypto.AesModel
open Libcperciva.Crypto.AesRuns
open Libcperciva.Crypto.AesctrModel
open Libcperciva.Crypto.AesctrStream

variable {κ κ' : Type} {openssl : Openssl κ} {openssl' : Openssl κ'}
  {hwaccel : Hwaccel} {bytes : List UInt8} {key : CryptoAesKey κ}

/-- `crypto_aes_encrypt_block`, for a key that works. -/
def blockCipher (openssl : Openssl κ) (hwaccel : Hwaccel)
    (key : CryptoAesKey κ) (block : Block) : Block :=
  match cryptoAesEncryptBlock openssl hwaccel (List.ofFn block) key with
  | .ok ciphertext => fun j => ciphertext.getD j 0
  | .error _ => block

/-- The keystream of AES-CTR, with AES as in FIPS 197. -/
def aesKeystream (bytes : List UInt8) (nonce n : Nat) : UInt8 :=
  (encrypt bytes (List.ofFn (counterBlock nonce (n / 16)))).getD (n % 16) 0

theorem keystream_eq (works : Works openssl hwaccel bytes key) (nonce : Nat) :
    keystream (blockCipher openssl hwaccel) key nonce =
      aesKeystream bytes nonce := by
  funext n
  unfold keystream blockCipher aesKeystream
  rw [works.1]
  rfl

/-- Calls for a stream that was initialized with a key that works. -/
theorem streamCalls_of_works (works : Works openssl hwaccel bytes key)
    (stream : CryptoAesctr (CryptoAesKey κ)) (nonce : Nat) :
    ∃ start, cryptoAesctrInit2 stream (some key) nonce = .ok start ∧
      ∀ calls, (messageOf calls).length < 2 ^ 64 - 1 →
        ∃ after, streamCalls (blockCipher openssl hwaccel) start calls =
          .ok (xorFrom (aesKeystream bytes nonce) 0 (messageOf calls),
            after) := by
  have hasKey : (some key).or stream.key = some key := rfl
  obtain ⟨start, result, positioned⟩ := @cryptoAesctrInit2_spec _
    (blockCipher openssl hwaccel) key nonce stream (some key) hasKey
  refine ⟨start, result, ?_⟩
  intro calls few
  rw [← Nat.zero_add (messageOf calls).length] at few
  obtain ⟨after, results, _⟩ := streamCalls_spec positioned few
  rw [keystream_eq works] at results
  exact ⟨after, results⟩

/-- A message that one program encrypts with AES-CTR is xored with the
keystream of FIPS 197, and another program that expanded the same key decrypts
it, in whatever parts and by whatever implementation. -/
theorem crypto_aesctr_aes_round_trip {machine machine' : Machine}
    {keys : Keys κ} {keys' : Keys κ'} {key' : CryptoAesKey κ'}
    (correct : Correct openssl) (correct' : Correct openssl')
    (reaches : Reaches openssl machine keys)
    (reaches' : Reaches openssl' machine' keys')
    (isKey : (bytes, key) ∈ keys.live) (isKey' : (bytes, key') ∈ keys'.live)
    (stream : CryptoAesctr (CryptoAesKey κ))
    (stream' : CryptoAesctr (CryptoAesKey κ')) (nonce : Nat) :
    ∃ start start',
      cryptoAesctrInit2 stream (some key) nonce = .ok start ∧
      cryptoAesctrInit2 stream' (some key') nonce = .ok start' ∧
      ∀ calls, (messageOf calls).length < 2 ^ 64 - 1 →
        ∃ ciphertext after,
          streamCalls (blockCipher openssl keys.hwaccel) start calls =
            .ok (ciphertext, after) ∧
          ciphertext =
            xorFrom (aesKeystream bytes nonce) 0 (messageOf calls) ∧
          ∀ calls', messageOf calls' = ciphertext →
            ∃ after',
              streamCalls (blockCipher openssl' keys'.hwaccel) start' calls' =
                .ok (messageOf calls, after') := by
  have works := (reaches.valid correct).works _ isKey
  have works' := (reaches'.valid correct').works _ isKey'
  obtain ⟨start, result, encrypted⟩ := streamCalls_of_works works stream nonce
  obtain ⟨start', result', decrypted⟩ :=
    streamCalls_of_works works' stream' nonce
  refine ⟨start, start', result, result', ?_⟩
  intro calls few
  obtain ⟨after, isEncrypted⟩ := encrypted calls few
  refine ⟨_, after, isEncrypted, rfl, ?_⟩
  intro calls' isCiphertext
  have few' : (messageOf calls').length < 2 ^ 64 - 1 := by
    rwa [isCiphertext, length_xorFrom]
  obtain ⟨after', isDecrypted⟩ := decrypted calls' few'
  rw [isCiphertext, xorFrom_xorFrom] at isDecrypted
  exact ⟨after', isDecrypted⟩

/-- Two programs without instructions; one of them gets the ciphertext in two
parts. -/
theorem crypto_aesctr_aes_round_trip_software :
    let openssl : Openssl (List UInt8) :=
      { aesSetEncryptKey := fun key _ => some key
        aesEncrypt := fun block key => encrypt key block }
    let bytes : List UInt8 := List.replicate 16 1
    let keys : Keys (List UInt8) :=
      { hwaccel := .unset, live := [(bytes, .openssl bytes)] }
    let stream : CryptoAesctr (CryptoAesKey (List UInt8)) :=
      { key := none, bytectr := 0, buf := fun _ => 0, pblk := fun _ => 0 }
    Reaches openssl ⟨none, none⟩ keys ∧
      ∃ start, cryptoAesctrInit2 stream (some (.openssl bytes)) 5 = .ok start ∧
        ∃ ciphertext after,
          streamCalls (blockCipher openssl .unset) start [(false, [7, 8, 9])] =
            .ok (ciphertext, after) ∧
          ∀ first second, first ++ second = ciphertext →
            ∃ after', streamCalls (blockCipher openssl .unset) start
              [(false, first), (false, second)] =
                .ok ([7, 8, 9], after') := by
  intro openssl bytes keys stream
  have correct : Correct openssl := fun key _ => ⟨key, rfl, fun _ => rfl⟩
  let mallocs : Mallocs := ⟨fun _ => none, fun _ => none, none, none, true⟩
  have reaches : Reaches openssl ⟨none, none⟩ keys :=
    .step .start (show Allowed (.keyExpand mallocs bytes) from Or.inl rfl) rfl
  have isKey : (bytes, .openssl bytes) ∈ keys.live := List.mem_singleton.mpr rfl
  obtain ⟨start, start', result, result', works⟩ :=
    crypto_aesctr_aes_round_trip correct correct reaches reaches isKey isKey
      stream stream 5
  cases result.symm.trans result'
  obtain ⟨ciphertext, after, isEncrypted, _, decrypted⟩ :=
    works [(false, [7, 8, 9])] (by decide)
  refine ⟨reaches, start, result, ciphertext, after, isEncrypted, ?_⟩
  intro first second isSplit
  apply decrypted [(false, first), (false, second)]
  rw [← isSplit]
  exact congrArg (first ++ ·) (List.append_nil second)

end Libcperciva.Crypto.AesctrAes
