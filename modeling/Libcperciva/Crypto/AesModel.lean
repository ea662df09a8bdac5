import Libcperciva.Crypto.AesArmModel
import Libcperciva.Crypto.AesniModel

/-!
# AES, `crypto/crypto_aes.c`

OpenSSL is a parameter.  Which implementations are compiled in, and what the
machine supports, does not change while the program runs.
-/

namespace Libcperciva.Crypto.AesModel

open Libcperciva.Crypto.AesArmModel
open Libcperciva.Crypto.AesniModel

variable {κ : Type}

/-- The values of `hwaccel`. -/
inductive Hwaccel where
  | software
  | x86Aesni
  | armAes
  | unset
deriving DecidableEq

/-- The functions of OpenSSL: `AES_set_encrypt_key`, which is given the length
of the key in bits, and `AES_encrypt`. -/
structure Openssl (κ : Type) where
  aesSetEncryptKey : List UInt8 → Nat → Option κ
  aesEncrypt : List UInt8 → κ → List UInt8

/-- `cpusupport_x86_aesni` and `cpusupport_arm_aes`; `none` where the code is
not compiled in. -/
structure Machine where
  cpusupportX86Aesni : Option Bool
  cpusupportArmAes : Option Bool

/-- `HWACCEL` is defined. -/
def Machine.hwaccel (machine : Machine) : Bool :=
  machine.cpusupportX86Aesni.isSome || machine.cpusupportArmAes.isSome

/-- What is behind a `struct crypto_aes_key *`. -/
inductive CryptoAesKey (κ : Type) where
  | openssl (key : κ)
  | aesni (key : CryptoAesKeyAesni)
  | arm (key : CryptoAesKeyArm)

/-- How the functions go wrong. -/
inductive AesFault where
  /-- `abort`, as OpenSSL gives incorrect AES values. -/
  | abort
  /-- The assertion `(len == 16) || (len == 32)`. -/
  | len
  /-- A key is used as one of another type. -/
  | type
deriving DecidableEq

/-- What `malloc` returns in the calls of one function. -/
structure Mallocs where
  /-- In `functest(x86_aesni_oneshot)`, for each test. -/
  testX86 : Nat → Option AesniModel.Rkeys
  /-- In `functest(arm_aes_oneshot)`, for each test. -/
  testArm : Nat → Option AesArmModel.Rkeys
  /-- For the key itself. -/
  aesni : Option AesniModel.Rkeys
  arm : Option AesArmModel.Rkeys
  openssl : Bool

/-! ## Tests -/

/-- `struct aes_test`. -/
structure AesTest where
  key : List UInt8
  len : Nat
  ptext : List UInt8
  ctext : List UInt8

def testcases : List AesTest := [
  { key := [0x00, 0x01, 0x02, 0x03, 0x04, 0x05, 0x06, 0x07,
      0x08, 0x09, 0x0a, 0x0b, 0x0c, 0x0d, 0x0e, 0x0f]
    len := 16
    ptext := [0x00, 0x11, 0x22, 0x33, 0x44, 0x55, 0x66, 0x77,
      0x88, 0x99, 0xaa, 0xbb, 0xcc, 0xdd, 0xee, 0xff]
    ctext := [0x69, 0xc4, 0xe0, 0xd8, 0x6a, 0x7b, 0x04, 0x30,
      0xd8, 0xcd, 0xb7, 0x80, 0x70, 0xb4, 0xc5, 0x5a] },
  { key := [0x00, 0x01, 0x02, 0x03, 0x04, 0x05, 0x06, 0x07,
      0x08, 0x09, 0x0a, 0x0b, 0x0c, 0x0d, 0x0e, 0x0f,
      0x10, 0x11, 0x12, 0x13, 0x14, 0x15, 0x16, 0x17,
      0x18, 0x19, 0x1a, 0x1b, 0x1c, 0x1d, 0x1e, 0x1f]
    len := 32
    ptext := [0x00, 0x11, 0x22, 0x33, 0x44, 0x55, 0x66, 0x77,
      0x88, 0x99, 0xaa, 0xbb, 0xcc, 0xdd, 0xee, 0xff]
    ctext := [0x8e, 0xa2, 0xb7, 0xca, 0x51, 0x67, 0x45, 0xbf,
      0xea, 0xfc, 0x49, 0x90, 0x4b, 0x49, 0x60, 0x89] }]

/-- `functest`: whether it returns 0.  The function is given the number of the
test, and returns the ciphertext. -/
def functest (func : Nat → List UInt8 → Nat → List UInt8 →
    Option (List UInt8)) : Bool :=
  testcases.zipIdx.all fun (knowngood, i) =>
    func i knowngood.key knowngood.len knowngood.ptext = some knowngood.ctext

/-- `x86_aesni_oneshot`. -/
def x86AesniOneshot (malloc : Nat → Option AesniModel.Rkeys) (i : Nat)
    (keyUnexpanded : List UInt8) (len : Nat) (ptext : List UInt8) :
    Option (List UInt8) :=
  (cryptoAesKeyExpandAesni (malloc i) keyUnexpanded len).map
    (cryptoAesEncryptBlockAesni ptext)

/-- `arm_aes_oneshot`. -/
def armAesOneshot (malloc : Nat → Option AesArmModel.Rkeys) (i : Nat)
    (keyUnexpanded : List UInt8) (len : Nat) (ptext : List UInt8) :
    Option (List UInt8) :=
  (cryptoAesKeyExpandArm (malloc i) keyUnexpanded len).map
    (cryptoAesEncryptBlockArm ptext)

/-- `openssl_oneshot`. -/
def opensslOneshot (openssl : Openssl κ) (_i : Nat)
    (keyUnexpanded : List UInt8) (len : Nat) (ptext : List UInt8) :
    Option (List UInt8) :=
  (openssl.aesSetEncryptKey keyUnexpanded (len * 8)).map
    (openssl.aesEncrypt ptext)

/-- `hwaccel_init`: the value of `hwaccel`. -/
def hwaccelInit (openssl : Openssl κ) (machine : Machine) (mallocs : Mallocs)
    (hwaccel : Hwaccel) : Except AesFault Hwaccel :=
  if hwaccel ≠ .unset then .ok hwaccel
  else if machine.cpusupportX86Aesni = some true ∧
      functest (x86AesniOneshot mallocs.testX86) = true then .ok .x86Aesni
  else if machine.cpusupportArmAes = some true ∧
      functest (armAesOneshot mallocs.testArm) = true then .ok .armAes
  else if functest (opensslOneshot openssl) = true then .ok .software
  else .error .abort

/-- The call of `hwaccel_init` in the other functions, if there is one. -/
def hwaccelInitIf (openssl : Openssl κ) (machine : Machine)
    (mallocs : Mallocs) (hwaccel : Hwaccel) : Except AesFault Hwaccel :=
  if machine.hwaccel then hwaccelInit openssl machine mallocs hwaccel
  else .ok hwaccel

/-! ## The interface -/

/-- `crypto_aes_can_use_intrinsics`: the result, and `hwaccel`. -/
def cryptoAesCanUseIntrinsics (openssl : Openssl κ) (machine : Machine)
    (mallocs : Mallocs) (hwaccel : Hwaccel) :
    Except AesFault (Nat × Hwaccel) := do
  let hwaccel ← hwaccelInitIf openssl machine mallocs hwaccel
  if hwaccel = .x86Aesni then .ok (1, hwaccel)
  else if hwaccel = .armAes then .ok (2, hwaccel)
  else .ok (0, hwaccel)

/-- `crypto_aes_key_expand`: the key, and `hwaccel`. -/
def cryptoAesKeyExpand (openssl : Openssl κ) (machine : Machine)
    (mallocs : Mallocs) (hwaccel : Hwaccel) (keyUnexpanded : List UInt8)
    (len : Nat) : Except AesFault (Option (CryptoAesKey κ) × Hwaccel) :=
  if ¬ (len = 16 ∨ len = 32) then .error .len
  else do
    let hwaccel ← hwaccelInitIf openssl machine mallocs hwaccel
    if hwaccel = .x86Aesni then
      .ok ((cryptoAesKeyExpandAesni mallocs.aesni keyUnexpanded len).map .aesni,
        hwaccel)
    else if hwaccel = .armAes then
      .ok ((cryptoAesKeyExpandArm mallocs.arm keyUnexpanded len).map .arm,
        hwaccel)
    else if mallocs.openssl = false then .ok (none, hwaccel)
    else
      .ok ((openssl.aesSetEncryptKey keyUnexpanded (len * 8)).map .openssl,
        hwaccel)

/-- `crypto_aes_encrypt_block`. -/
def cryptoAesEncryptBlock (openssl : Openssl κ) (hwaccel : Hwaccel)
    (block : List UInt8) (key : CryptoAesKey κ) :
    Except AesFault (List UInt8) :=
  if hwaccel = .x86Aesni then
    match key with
    | .aesni key => .ok (cryptoAesEncryptBlockAesni block key)
    | .openssl _ | .arm _ => .error .type
  else if hwaccel = .armAes then
    match key with
    | .arm key => .ok (cryptoAesEncryptBlockArm block key)
    | .openssl _ | .aesni _ => .error .type
  else
    match key with
    | .openssl key => .ok (openssl.aesEncrypt block key)
    | .aesni _ | .arm _ => .error .type

/-- `crypto_aes_key_free`: whether the key is freed as what it is. -/
def cryptoAesKeyFree (hwaccel : Hwaccel) (key : CryptoAesKey κ) :
    Except AesFault Unit :=
  if hwaccel = .x86Aesni then
    match key with
    | .aesni _ => .ok ()
    | .openssl _ | .arm _ => .error .type
  else if hwaccel = .armAes then
    match key with
    | .arm _ => .ok ()
    | .openssl _ | .aesni _ => .error .type
  else
    match key with
    | .openssl _ => .ok ()
    | .aesni _ | .arm _ => .error .type

/-! ## Runs -/

/-- `hwaccel`, and the keys that are expanded and not freed, each with the
bytes that it was expanded from. -/
structure Keys (κ : Type) where
  hwaccel : Hwaccel
  live : List (List UInt8 × CryptoAesKey κ)

/-- The program starts. -/
def Keys.start : Keys κ := { hwaccel := .unset, live := [] }

/-- Calls of the functions.  A key is given by its place among those which are
live. -/
inductive Op where
  | canUseIntrinsics (mallocs : Mallocs)
  | keyExpand (mallocs : Mallocs) (keyUnexpanded : List UInt8)
  | encryptBlock (block : List UInt8) (i : Nat)
  | keyFree (i : Nat)

/-- What a call returns. -/
inductive Result where
  | intrinsics (code : Nat)
  | expanded (isNull : Bool)
  | encrypted (key block ciphertext : List UInt8)
  | freed
  /-- There is no such key. -/
  | noKey
deriving DecidableEq

def step (openssl : Openssl κ) (machine : Machine) (keys : Keys κ) :
    Op → Except AesFault (Keys κ × Result)
  | .canUseIntrinsics mallocs => do
      let (code, hwaccel) ←
        cryptoAesCanUseIntrinsics openssl machine mallocs keys.hwaccel
      .ok ({ keys with hwaccel }, .intrinsics code)
  | .keyExpand mallocs keyUnexpanded => do
      let (key, hwaccel) ← cryptoAesKeyExpand openssl machine mallocs
        keys.hwaccel keyUnexpanded keyUnexpanded.length
      match key with
      | none => .ok ({ keys with hwaccel }, .expanded true)
      | some key =>
          .ok ({ hwaccel, live := keys.live ++ [(keyUnexpanded, key)] },
            .expanded false)
  | .encryptBlock block i =>
      match keys.live[i]? with
      | none => .ok (keys, .noKey)
      | some (bytes, key) => do
          let ciphertext ←
            cryptoAesEncryptBlock openssl keys.hwaccel block key
          .ok (keys, .encrypted bytes block ciphertext)
  | .keyFree i =>
      match keys.live[i]? with
      | none => .ok (keys, .noKey)
      | some (_, key) => do
          cryptoAesKeyFree keys.hwaccel key
          .ok ({ keys with live := keys.live.eraseIdx i }, .freed)

end Libcperciva.Crypto.AesModel
