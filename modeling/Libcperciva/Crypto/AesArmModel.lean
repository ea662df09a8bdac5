import Libcperciva.Intrinsics.Neon
import Libcperciva.Lib.FinLiterals

/-!
# AES on ARM, `crypto/crypto_aes_arm.c`
-/

namespace Libcperciva.Crypto.AesArmModel

open Libcperciva.Intrinsics.Neon
open Libcperciva.Lib.FinLiterals

/-- The array `rkeys`. -/
abbrev Rkeys := Vector Uint8x16 15

/-- `struct crypto_aes_key_arm`. -/
structure CryptoAesKeyArm where
  rkeys : Rkeys
  nr : Nat

/-- `vdupq_laneq_u32_u8`. -/
def vdupqLaneqU32U8 (a : Uint8x16) (lane : Nat) : Uint8x16 :=
  vdupqLaneqU32 a lane

/-- `vshlq_n_u128`. -/
def vshlqNU128 (a : Uint8x16) (n : Nat) : Uint8x16 :=
  vextqU8 (vdupqNU8 0) a (16 - n)

/-- `SubWord_duplicate`. -/
def subWordDuplicate (a : Uint8x16) : Uint8x16 :=
  let a := vdupqLaneqU32U8 a 3
  vaeseqU8 a (vdupqNU8 0)

/-- `SubWord_RotWord_XOR_duplicate`. -/
def subWordRotWordXorDuplicate (a : Uint8x16) (rcon : UInt32) : Uint8x16 :=
  let a := subWordDuplicate a
  let x3 := vgetqLaneU32 a 0
  let x3 := x3 >>> 8 ||| x3 <<< (32 - 8)
  let x3 := x3 ^^^ rcon
  vdupqNU32 x3

/-- `MKRKEY128`. -/
def mkrkey128 (rkeys : Rkeys) (i : Fin 15) (rcon : UInt32) : Rkeys :=
  let s := rkeys.get (i - 1)
  let t := rkeys.get (i - 1)
  let s := veorqU8 s (vshlqNU128 s 4)
  let s := veorqU8 s (vshlqNU128 s 8)
  let t := subWordRotWordXorDuplicate t rcon
  rkeys.set i (veorqU8 s t) (lt_fifteen i)

/-- `crypto_aes_key_expand_128_arm`. -/
def keyExpand128 (keyUnexpanded : List UInt8) (rkeys : Rkeys) : Rkeys :=
  let rkeys := rkeys.set 0 (vld1qU8 keyUnexpanded) zero_lt_fifteen
  let rkeys := mkrkey128 rkeys 1 0x01
  let rkeys := mkrkey128 rkeys 2 0x02
  let rkeys := mkrkey128 rkeys 3 0x04
  let rkeys := mkrkey128 rkeys 4 0x08
  let rkeys := mkrkey128 rkeys 5 0x10
  let rkeys := mkrkey128 rkeys 6 0x20
  let rkeys := mkrkey128 rkeys 7 0x40
  let rkeys := mkrkey128 rkeys 8 0x80
  let rkeys := mkrkey128 rkeys 9 0x1b
  mkrkey128 rkeys 10 0x36

/-- `MKRKEY256`. -/
def mkrkey256 (rkeys : Rkeys) (i : Fin 15) (rcon : UInt32) : Rkeys :=
  let s := rkeys.get (i - 2)
  let t := rkeys.get (i - 1)
  let s := veorqU8 s (vshlqNU128 s 4)
  let s := veorqU8 s (vshlqNU128 s 8)
  let t :=
    if i.val % 2 = 1 then subWordDuplicate t
    else subWordRotWordXorDuplicate t rcon
  rkeys.set i (veorqU8 s t) (lt_fifteen i)

/-- `crypto_aes_key_expand_256_arm`. -/
def keyExpand256 (keyUnexpanded : List UInt8) (rkeys : Rkeys) : Rkeys :=
  let rkeys := rkeys.set 0 (vld1qU8 keyUnexpanded) zero_lt_fifteen
  let rkeys := rkeys.set 1 (vld1qU8 (keyUnexpanded.drop 16))
    one_lt_fifteen
  let rkeys := mkrkey256 rkeys 2 0x01
  let rkeys := mkrkey256 rkeys 3 0x00
  let rkeys := mkrkey256 rkeys 4 0x02
  let rkeys := mkrkey256 rkeys 5 0x00
  let rkeys := mkrkey256 rkeys 6 0x04
  let rkeys := mkrkey256 rkeys 7 0x00
  let rkeys := mkrkey256 rkeys 8 0x08
  let rkeys := mkrkey256 rkeys 9 0x00
  let rkeys := mkrkey256 rkeys 10 0x10
  let rkeys := mkrkey256 rkeys 11 0x00
  let rkeys := mkrkey256 rkeys 12 0x20
  let rkeys := mkrkey256 rkeys 13 0x00
  mkrkey256 rkeys 14 0x40

/-- `crypto_aes_key_expand_arm`.  What `malloc` returns is given. -/
def cryptoAesKeyExpandArm (malloc : Option Rkeys)
    (keyUnexpanded : List UInt8) (len : Nat) : Option CryptoAesKeyArm :=
  match malloc with
  | none => none
  | some rkeys =>
      if len = 16 then
        some { nr := 10, rkeys := keyExpand128 keyUnexpanded rkeys }
      else if len = 32 then
        some { nr := 14, rkeys := keyExpand256 keyUnexpanded rkeys }
      else none

/-- `crypto_aes_encrypt_block_arm_u8`. -/
def encryptBlockU8 (block : Uint8x16) (key : CryptoAesKeyArm) : Uint8x16 :=
  let aesKey := key.rkeys
  let nr := key.nr
  let aesState := block
  let aesState := vaesmcqU8 (vaeseqU8 aesState (aesKey.get 0))
  let aesState := vaesmcqU8 (vaeseqU8 aesState (aesKey.get 1))
  let aesState := vaesmcqU8 (vaeseqU8 aesState (aesKey.get 2))
  let aesState := vaesmcqU8 (vaeseqU8 aesState (aesKey.get 3))
  let aesState := vaesmcqU8 (vaeseqU8 aesState (aesKey.get 4))
  let aesState := vaesmcqU8 (vaeseqU8 aesState (aesKey.get 5))
  let aesState := vaesmcqU8 (vaeseqU8 aesState (aesKey.get 6))
  let aesState := vaesmcqU8 (vaeseqU8 aesState (aesKey.get 7))
  let aesState := vaesmcqU8 (vaeseqU8 aesState (aesKey.get 8))
  let aesState :=
    if nr > 10 then
      let aesState := vaesmcqU8 (vaeseqU8 aesState (aesKey.get 9))
      let aesState := vaesmcqU8 (vaeseqU8 aesState (aesKey.get 10))
      let aesState := vaesmcqU8 (vaeseqU8 aesState (aesKey.get 11))
      vaesmcqU8 (vaeseqU8 aesState (aesKey.get 12))
    else aesState
  let aesState := vaeseqU8 aesState (aesKey.get (Fin.ofNat 15 (nr - 1)))
  veorqU8 aesState (aesKey.get (Fin.ofNat 15 nr))

/-- `crypto_aes_encrypt_block_arm`. -/
def cryptoAesEncryptBlockArm (block : List UInt8) (key : CryptoAesKeyArm) :
    List UInt8 :=
  let aesState := vld1qU8 block
  let aesState := encryptBlockU8 aesState key
  vst1qU8 aesState

end Libcperciva.Crypto.AesArmModel
