import Libcperciva.Alg.Sha256Model
import Libcperciva.Lib.Buffer

/-!
# HMAC-SHA256 and PBKDF2, `alg/sha256.c`

The scratch buffers `pad`, `khash` and `ihash` are filled before anything is
read from them; `tmp32` goes from call to call.
-/

namespace Libcperciva.Alg.HmacModel

open Libcperciva.Lib.Buffer
open Libcperciva.Util.Sysendian
open Libcperciva.Alg.Sha256Model

/-- `HMAC_SHA256_CTX`. -/
structure HmacSha256Ctx where
  ictx : Sha256Ctx
  octx : Sha256Ctx

/-- `SHA256_Final_internal`, with what it leaves in `tmp32`. -/
def finalInternal (ctx : Sha256Ctx) (tmp32 : Tmp32) :
    List UInt8 × Sha256Ctx × Tmp32 :=
  let (digest, ctx') := sha256FinalInternal ctx tmp32
  (digest, ctx', (sha256Pad ctx tmp32).2)

/-- `memset(pad, byte, 64)`, and the key xored into `pad`. -/
def xorPad (byte : UInt8) (K : List UInt8) : List UInt8 :=
  (List.range K.length).foldl
    (fun pad i => pad.set i (pad.getD i 0 ^^^ K.getD i 0))
    (List.replicate 64 byte)

/-- `HMAC_SHA256_Init_internal`. -/
def hmacSha256InitInternal (ctx : HmacSha256Ctx) (K : List UInt8)
    (tmp32 : Tmp32) : HmacSha256Ctx × Tmp32 :=
  let (ictx, K, tmp32) :=
    if K.length > 64 then
      let (ictx, tmp32) := sha256UpdateInternal (sha256Init ctx.ictx) K tmp32
      let (khash, ictx, tmp32) := finalInternal ictx tmp32
      (ictx, khash, tmp32)
    else (ctx.ictx, K, tmp32)
  let (ictx, tmp32) :=
    sha256UpdateInternal (sha256Init ictx) (xorPad 0x36 K) tmp32
  let (octx, tmp32) :=
    sha256UpdateInternal (sha256Init ctx.octx) (xorPad 0x5c K) tmp32
  ({ ictx, octx }, tmp32)

/-- `HMAC_SHA256_Init`. -/
def hmacSha256Init (ctx : HmacSha256Ctx) (K : List UInt8) (tmp32 : Tmp32) :
    HmacSha256Ctx :=
  (hmacSha256InitInternal ctx K tmp32).1

/-- `HMAC_SHA256_Update_internal`. -/
def hmacSha256UpdateInternal (ctx : HmacSha256Ctx) (src : List UInt8)
    (tmp32 : Tmp32) : HmacSha256Ctx × Tmp32 :=
  let (ictx, tmp32) := sha256UpdateInternal ctx.ictx src tmp32
  ({ ctx with ictx }, tmp32)

/-- `HMAC_SHA256_Update`. -/
def hmacSha256Update (ctx : HmacSha256Ctx) (src : List UInt8)
    (tmp32 : Tmp32) : HmacSha256Ctx :=
  (hmacSha256UpdateInternal ctx src tmp32).1

/-- `HMAC_SHA256_Final_internal`: the digest, the context and `tmp32`. -/
def hmacSha256FinalInternal (ctx : HmacSha256Ctx) (tmp32 : Tmp32) :
    List UInt8 × HmacSha256Ctx × Tmp32 :=
  let (ihash, ictx, tmp32) := finalInternal ctx.ictx tmp32
  let (octx, tmp32) := sha256UpdateInternal ctx.octx ihash tmp32
  let (digest, octx, tmp32) := finalInternal octx tmp32
  (digest, { ictx, octx }, tmp32)

/-- `HMAC_SHA256_Final`: the digest, and the context, which is cleared. -/
def hmacSha256Final (ctx : HmacSha256Ctx) (tmp32 : Tmp32) :
    List UInt8 × HmacSha256Ctx :=
  let (digest, _) := hmacSha256FinalInternal ctx tmp32
  let cleared : Sha256Ctx :=
    { state := fun _ => 0, count := 0, buf := fun _ => 0 }
  (digest, { ictx := cleared, octx := cleared })

/-- `HMAC_SHA256_Buf`. -/
def hmacSha256Buf (ctx : HmacSha256Ctx) (K src : List UInt8)
    (tmp32 : Tmp32) : List UInt8 :=
  let (ctx, tmp32) := hmacSha256InitInternal ctx K tmp32
  let (ctx, tmp32) := hmacSha256UpdateInternal ctx src tmp32
  (hmacSha256FinalInternal ctx tmp32).1

/-- Calls of `HMAC_SHA256_Update`, one after the other. -/
def hmacUpdates (ctx : HmacSha256Ctx) :
    List (List UInt8 × Tmp32) → HmacSha256Ctx
  | [] => ctx
  | (src, tmp32) :: calls =>
      hmacUpdates (hmacSha256Update ctx src tmp32) calls

/-! ## `PBKDF2_SHA256` -/

/-- The exclusive-or of `U` into `T`. -/
def xorInto (T U : List UInt8) : List UInt8 :=
  (List.range 32).foldl
    (fun T k => T.set k (T.getD k 0 ^^^ U.getD k 0)) T

/-- The loop over `j`, from a first value, in so many turns: `T` and
`tmp32`. -/
def iterate (Phctx : HmacSha256Ctx) (c : UInt64) :
    Nat → UInt64 → List UInt8 → List UInt8 → Tmp32 →
      Option (List UInt8 × Tmp32)
  | turns, j, T, U, tmp32 =>
      if j ≤ c then
        match turns with
        | 0 => none
        | turns + 1 =>
            let (hctx, tmp32) := hmacSha256UpdateInternal Phctx U tmp32
            let (U, _, tmp32) := hmacSha256FinalInternal hctx tmp32
            iterate Phctx c turns (j + 1) (xorInto T U) U tmp32
      else some (T, tmp32)

/-- The loop over the blocks, from a first number.  The numbers do not wrap,
because `dkLen` was checked. -/
def deriveBlocks (Phctx PShctx : HmacSha256Ctx) (c : UInt64) (turns dkLen : Nat)
    (i : Nat) (buf : List UInt8) (tmp32 : Tmp32) : Option (List UInt8) :=
  if i * 32 < dkLen then
    let ivec := be32enc (UInt32.ofNat (i + 1))
    let (hctx, tmp32) := hmacSha256UpdateInternal PShctx ivec tmp32
    let (U, _, tmp32) := hmacSha256FinalInternal hctx tmp32
    match iterate Phctx c turns 2 U U tmp32 with
    | none => none
    | some (T, tmp32) =>
        let clen := if dkLen - i * 32 > 32 then 32 else dkLen - i * 32
        deriveBlocks Phctx PShctx c turns dkLen (i + 1)
          (write buf (i * 32) (T.take clen)) tmp32
  else some buf
termination_by dkLen - i * 32

/-- `PBKDF2_SHA256`, with so many turns for each block: the buffer, unless the
assertion fails. -/
def pbkdf2Sha256 (ctx : HmacSha256Ctx) (passwd salt : List UInt8) (c : UInt64)
    (buf : List UInt8) (dkLen : Nat) (tmp32 : Tmp32) (turns : Nat) :
    Option (List UInt8) :=
  if dkLen ≤ 32 * (2 ^ 32 - 1) then
    let (Phctx, tmp32) := hmacSha256InitInternal ctx passwd tmp32
    let (PShctx, tmp32) := hmacSha256UpdateInternal Phctx salt tmp32
    deriveBlocks Phctx PShctx c turns dkLen 0 buf tmp32
  else none

end Libcperciva.Alg.HmacModel
