import Libcperciva.Lib.BigEndian
import Mathlib.Algebra.Group.Int.Defs

/-!
# Diffie-Hellman, `crypto/crypto_dh.c`

The operations on `BIGNUM`s are exact and do not fail.  The result of a
function is its status and the buffer it writes to; `blinding` is what
`crypto_entropy_read` gives, unless it fails.
-/

namespace Libcperciva.Crypto.DhModel

open Libcperciva.Lib.BigEndian
open Libcperciva.Lib.Buffer

def CRYPTO_DH_PUBLEN : Nat := 256

/-- Big-endian representation of 2^256. -/
def twoExp256 : List UInt8 := 0x01 :: List.replicate 32 0x00

/-- `crypto_dh_group14`. -/
def cryptoDhGroup14 : List UInt8 :=
  [0xff, 0xff, 0xff, 0xff, 0xff, 0xff, 0xff, 0xff,
   0xc9, 0x0f, 0xda, 0xa2, 0x21, 0x68, 0xc2, 0x34,
   0xc4, 0xc6, 0x62, 0x8b, 0x80, 0xdc, 0x1c, 0xd1,
   0x29, 0x02, 0x4e, 0x08, 0x8a, 0x67, 0xcc, 0x74,
   0x02, 0x0b, 0xbe, 0xa6, 0x3b, 0x13, 0x9b, 0x22,
   0x51, 0x4a, 0x08, 0x79, 0x8e, 0x34, 0x04, 0xdd,
   0xef, 0x95, 0x19, 0xb3, 0xcd, 0x3a, 0x43, 0x1b,
   0x30, 0x2b, 0x0a, 0x6d, 0xf2, 0x5f, 0x14, 0x37,
   0x4f, 0xe1, 0x35, 0x6d, 0x6d, 0x51, 0xc2, 0x45,
   0xe4, 0x85, 0xb5, 0x76, 0x62, 0x5e, 0x7e, 0xc6,
   0xf4, 0x4c, 0x42, 0xe9, 0xa6, 0x37, 0xed, 0x6b,
   0x0b, 0xff, 0x5c, 0xb6, 0xf4, 0x06, 0xb7, 0xed,
   0xee, 0x38, 0x6b, 0xfb, 0x5a, 0x89, 0x9f, 0xa5,
   0xae, 0x9f, 0x24, 0x11, 0x7c, 0x4b, 0x1f, 0xe6,
   0x49, 0x28, 0x66, 0x51, 0xec, 0xe4, 0x5b, 0x3d,
   0xc2, 0x00, 0x7c, 0xb8, 0xa1, 0x63, 0xbf, 0x05,
   0x98, 0xda, 0x48, 0x36, 0x1c, 0x55, 0xd3, 0x9a,
   0x69, 0x16, 0x3f, 0xa8, 0xfd, 0x24, 0xcf, 0x5f,
   0x83, 0x65, 0x5d, 0x23, 0xdc, 0xa3, 0xad, 0x96,
   0x1c, 0x62, 0xf3, 0x56, 0x20, 0x85, 0x52, 0xbb,
   0x9e, 0xd5, 0x29, 0x07, 0x70, 0x96, 0x96, 0x6d,
   0x67, 0x0c, 0x35, 0x4e, 0x4a, 0xbc, 0x98, 0x04,
   0xf1, 0x74, 0x6c, 0x08, 0xca, 0x18, 0x21, 0x7c,
   0x32, 0x90, 0x5e, 0x46, 0x2e, 0x36, 0xce, 0x3b,
   0xe3, 0x9e, 0x77, 0x2c, 0x18, 0x0e, 0x86, 0x03,
   0x9b, 0x27, 0x83, 0xa2, 0xec, 0x07, 0xa2, 0x8f,
   0xb5, 0xc5, 0x5d, 0xf0, 0x6f, 0x4c, 0x52, 0xc9,
   0xde, 0x2b, 0xcb, 0xf6, 0x95, 0x58, 0x17, 0x18,
   0x39, 0x95, 0x49, 0x7c, 0xea, 0x95, 0x6a, 0xe5,
   0x15, 0xd2, 0x26, 0x18, 0x98, 0xfa, 0x05, 0x10,
   0x15, 0x72, 0x8e, 0x5a, 0x8a, 0xac, 0xaa, 0x68,
   0xff, 0xff, 0xff, 0xff, 0xff, 0xff, 0xff, 0xff]

/-! ## `BIGNUM`s -/

/-- `BN_bin2bn`. -/
def bnBin2bn (s : List UInt8) : Int := value s

/-- `BN_bn2bin`, which writes the absolute value. -/
def bnBn2bin (a : Int) : List UInt8 := encode (numBytes a.natAbs) a.natAbs

/-- `BN_mod_exp`, which does not look at the sign of the exponent. -/
def bnModExp (a p m : Int) : Int := a ^ p.natAbs % m

/-- `BN_mod_mul`. -/
def bnModMul (a b m : Int) : Int := a * b % m

/-! ## Functions -/

/-- The exponents of `blinded_modexp`: `blinding_bn` and `priv_blinded`. -/
def exponents (priv blinding : List UInt8) : Int × Int :=
  let twoExp256Bn := bnBin2bn twoExp256
  let privBn := bnBin2bn priv
  let privBn := privBn + twoExp256Bn
  let privBn := privBn + twoExp256Bn
  let privBn := privBn + twoExp256Bn
  let privBn := privBn + twoExp256Bn
  let blindingBn := bnBin2bn blinding
  let blindingBn := blindingBn + twoExp256Bn
  (blindingBn, privBn - blindingBn)

/-- `blinded_modexp`. -/
def blindedModexp (r : List UInt8) (a : Int) (priv : List UInt8)
    (blinding : Option (List UInt8)) : Int × List UInt8 :=
  match blinding with
  | none => (-1, r)
  | some blinding =>
      let (blindingBn, privBlinded) := exponents priv blinding
      let mBn := bnBin2bn cryptoDhGroup14
      let r1 := bnModExp a blindingBn mBn
      let r2 := bnModExp a privBlinded mBn
      let r1 := bnModMul r1 r2 mBn
      let rlen := numBytes r1.natAbs
      if rlen > CRYPTO_DH_PUBLEN then (-1, r)
      else
        let r := write r 0 (List.replicate (CRYPTO_DH_PUBLEN - rlen) 0)
        (0, write r (CRYPTO_DH_PUBLEN - rlen) (bnBn2bin r1))

/-- What the callers of `blinded_modexp` return. -/
def checked : Int × List UInt8 → Int × List UInt8
  | (failed, r) => (if failed ≠ 0 then -1 else 0, r)

/-- `crypto_dh_generate_pub`. -/
def cryptoDhGeneratePub (pub priv : List UInt8)
    (blinding : Option (List UInt8)) : Int × List UInt8 :=
  checked (blindedModexp pub 2 priv blinding)

/-- `crypto_dh_compute`. -/
def cryptoDhCompute (pub priv key : List UInt8)
    (blinding : Option (List UInt8)) : Int × List UInt8 :=
  checked (blindedModexp key (bnBin2bn pub) priv blinding)

/-- `memcmp`, of as many bytes as there are. -/
def memcmp : List UInt8 → List UInt8 → Int
  | a :: as, b :: bs =>
      if a = b then memcmp as bs else (a.toNat : Int) - b.toNat
  | _, _ => 0

/-- `crypto_dh_sanitycheck`. -/
def cryptoDhSanitycheck (pub : List UInt8) : Int :=
  if memcmp pub cryptoDhGroup14 ≥ 0 then -1 else 0

end Libcperciva.Crypto.DhModel
