import Libcperciva.Intrinsics.X86
import Libcperciva.Lib.FinLiterals

/-!
# AES with AESNI, `crypto/crypto_aes_aesni.c`
-/

namespace Libcperciva.Crypto.AesniModel

open Libcperciva.Intrinsics.X86
open Libcperciva.Lib.FinLiterals

/-- The array `rkeys`. -/
abbrev Rkeys := Vector M128i 15

/-- `struct crypto_aes_key_aesni`. -/
structure CryptoAesKeyAesni where
  rkeys : Rkeys
  nr : Nat

/-- `MKRKEY128`. -/
def mkrkey128 (rkeys : Rkeys) (i : Fin 15) (rcon : UInt8) : Rkeys :=
  let s := rkeys.get (i - 1)
  let t := rkeys.get (i - 1)
  let s := mmXorSi128 s (mmSlliSi128 s 4)
  let s := mmXorSi128 s (mmSlliSi128 s 8)
  let t := mmAeskeygenassistSi128 t rcon
  let t := mmShuffleEpi32 t 0xff
  rkeys.set i (mmXorSi128 s t) (lt_fifteen i)

/-- `crypto_aes_key_expand_128_aesni`. -/
def keyExpand128 (keyUnexpanded : List UInt8) (rkeys : Rkeys) : Rkeys :=
  let rkeys := rkeys.set 0 (mmLoaduSi128 keyUnexpanded) zero_lt_fifteen
  let rkeys := mkrkey128 rkeys 1 0x01
  let rkeys := mkrkey128 rkeys 2 0x02
  let rkeys := mkrkey128 rkeys 3 0x04
  let rkeys := mkrkey128 rkeys 4 0x08
  let rkeys := mkrkey128 rkeys 5 0x10
  let rkeys := mkrkey128 rkeys 6 0x20
  let rkeys := mkrkey128 rkeys 7 0x40
  let rkeys := mkrkey128 rkeys 8 0x80
  let rkeys := mkrkey128 rkeys 9 0x1b
  mkrkey128 rkeys 10 0x36

/-- `MKRKEY256`. -/
def mkrkey256 (rkeys : Rkeys) (i : Fin 15) (shuffle : Nat) (rcon : UInt8) :
    Rkeys :=
  let s := rkeys.get (i - 2)
  let t := rkeys.get (i - 1)
  let s := mmXorSi128 s (mmSlliSi128 s 4)
  let s := mmXorSi128 s (mmSlliSi128 s 8)
  let t := mmAeskeygenassistSi128 t rcon
  let t := mmShuffleEpi32 t shuffle
  rkeys.set i (mmXorSi128 s t) (lt_fifteen i)

/-- `crypto_aes_key_expand_256_aesni`. -/
def keyExpand256 (keyUnexpanded : List UInt8) (rkeys : Rkeys) : Rkeys :=
  let rkeys := rkeys.set 0 (mmLoaduSi128 keyUnexpanded) zero_lt_fifteen
  let rkeys := rkeys.set 1 (mmLoaduSi128 (keyUnexpanded.drop 16))
    one_lt_fifteen
  let rkeys := mkrkey256 rkeys 2 0xff 0x01
  let rkeys := mkrkey256 rkeys 3 0xaa 0x00
  let rkeys := mkrkey256 rkeys 4 0xff 0x02
  let rkeys := mkrkey256 rkeys 5 0xaa 0x00
  let rkeys := mkrkey256 rkeys 6 0xff 0x04
  let rkeys := mkrkey256 rkeys 7 0xaa 0x00
  let rkeys := mkrkey256 rkeys 8 0xff 0x08
  let rkeys := mkrkey256 rkeys 9 0xaa 0x00
  let rkeys := mkrkey256 rkeys 10 0xff 0x10
  let rkeys := mkrkey256 rkeys 11 0xaa 0x00
  let rkeys := mkrkey256 rkeys 12 0xff 0x20
  let rkeys := mkrkey256 rkeys 13 0xaa 0x00
  mkrkey256 rkeys 14 0xff 0x40

/-- `crypto_aes_key_expand_aesni`.  What `malloc` returns is given: NULL, or
memory in which the round keys are not initialized. -/
def cryptoAesKeyExpandAesni (malloc : Option Rkeys)
    (keyUnexpanded : List UInt8) (len : Nat) : Option CryptoAesKeyAesni :=
  match malloc with
  | none => none
  | some rkeys =>
      if len = 16 then
        some { nr := 10, rkeys := keyExpand128 keyUnexpanded rkeys }
      else if len = 32 then
        some { nr := 14, rkeys := keyExpand256 keyUnexpanded rkeys }
      else none

/-- `crypto_aes_encrypt_block_aesni_m128i`. -/
def encryptBlockM128i (block : M128i) (key : CryptoAesKeyAesni) : M128i :=
  let aesKey := key.rkeys
  let nr := key.nr
  let aesState := mmXorSi128 block (aesKey.get 0)
  let aesState := mmAesencSi128 aesState (aesKey.get 1)
  let aesState := mmAesencSi128 aesState (aesKey.get 2)
  let aesState := mmAesencSi128 aesState (aesKey.get 3)
  let aesState := mmAesencSi128 aesState (aesKey.get 4)
  let aesState := mmAesencSi128 aesState (aesKey.get 5)
  let aesState := mmAesencSi128 aesState (aesKey.get 6)
  let aesState := mmAesencSi128 aesState (aesKey.get 7)
  let aesState := mmAesencSi128 aesState (aesKey.get 8)
  let aesState := mmAesencSi128 aesState (aesKey.get 9)
  let aesState :=
    if nr > 10 then
      let aesState := mmAesencSi128 aesState (aesKey.get 10)
      let aesState := mmAesencSi128 aesState (aesKey.get 11)
      let aesState := mmAesencSi128 aesState (aesKey.get 12)
      mmAesencSi128 aesState (aesKey.get 13)
    else aesState
  mmAesenclastSi128 aesState (aesKey.get (Fin.ofNat 15 nr))

/-- `crypto_aes_encrypt_block_aesni`. -/
def cryptoAesEncryptBlockAesni (block : List UInt8)
    (key : CryptoAesKeyAesni) : List UInt8 :=
  let aesState := mmLoaduSi128 block
  let aesState := encryptBlockM128i aesState key
  mmStoreuSi128 aesState

end Libcperciva.Crypto.AesniModel
