import Libcperciva.Alg.Sha256Model

/-!
# What `alg/md5.c` and `alg/sha1.c` have in common

The two keep the number of bits in two words: word `lo` of `count` is the low
one, and word `hi` the high one.  They differ in these numbers, in the block
function `transform`, and in the order of the bytes that `enc` writes.
-/

namespace Libcperciva.Alg.CountedModel

open Libcperciva.Lib.FinLiterals
open Libcperciva.Alg.Sha256Model (memcpy PAD)

variable {n : Nat}

/-- `MD5_CTX` and `SHA1_CTX`. -/
structure CountedCtx (n : Nat) where
  state : Fin n → UInt32
  count : Fin 2 → UInt32
  buf : Fin 64 → UInt8

/-- `le32enc_vect` and `be32enc_vect`. -/
def encVect [NeZero n] (enc : UInt32 → List UInt8) (src : Fin n → UInt32)
    (len : Nat) : List UInt8 :=
  (List.range (len / 4)).flatMap fun i => enc (src (Fin.ofNat n i))

/-- `le32dec_vect` and `be32dec_vect`, of a block. -/
def decVect (dec : (Nat → UInt8) → UInt32) (src : List UInt8) :
    Fin 16 → UInt32 :=
  fun i => dec fun j => src.getD (i.val * 4 + j) 0

section Functions

variable (transform : (Fin n → UInt32) → List UInt8 → Fin n → UInt32)
  (lo hi : Fin 2)

/-- The loop over complete blocks: the state, and what is left. -/
def completeBlocks (state : Fin n → UInt32) (src : List UInt8) :
    (Fin n → UInt32) × List UInt8 :=
  if src.length ≥ 64 then
    completeBlocks (transform state (src.take 64)) (src.drop 64)
  else (state, src)
termination_by src.length

/-- The number of bytes left in the buffer from previous updates. -/
def buffered (ctx : CountedCtx n) : UInt32 := ctx.count lo >>> 3 &&& 0x3f

/-- The count after so many bytes. -/
def addBits (count : Fin 2 → UInt32) (len : Nat) : Fin 2 → UInt32 :=
  let bitlenLo := UInt32.ofNat len <<< 3
  let bitlenHi := UInt32.ofNat (len >>> 29)
  let count := Function.update count lo (count lo + bitlenLo)
  let count :=
    if count lo < bitlenLo then Function.update count hi (count hi + 1)
    else count
  Function.update count hi (count hi + bitlenHi)

/-- `MD5_Update` and `SHA1_Update`. -/
def update (ctx : CountedCtx n) (src : List UInt8) : CountedCtx n :=
  if src.length = 0 then ctx
  else
    let r := (buffered lo ctx).toNat
    let ctx := { ctx with count := addBits lo hi ctx.count src.length }
    if src.length < 64 - r then { ctx with buf := memcpy ctx.buf r src }
    else
      let buf := memcpy ctx.buf r (src.take (64 - r))
      let state := transform ctx.state (List.ofFn buf)
      let (state, src) := completeBlocks transform state (src.drop (64 - r))
      { ctx with state, buf := memcpy buf 0 src }

/-- `MD5_Pad` and `SHA1_Pad`. -/
def pad (enc : UInt32 → List UInt8) (ctx : CountedCtx n) : CountedCtx n :=
  let len := encVect enc ctx.count 8
  let r := (buffered lo ctx).toNat
  let plen := if r < 56 then 56 - r else 120 - r
  let ctx := update transform lo hi ctx (PAD.take plen)
  update transform lo hi ctx len

/-- `MD5_Final` and `SHA1_Final`: the digest, and the context, which is
cleared. -/
def final [NeZero n] (enc : UInt32 → List UInt8) (ctx : CountedCtx n) :
    List UInt8 × CountedCtx n :=
  let ctx := pad transform lo hi enc ctx
  (encVect enc ctx.state (4 * n),
    { state := fun _ => 0, count := fun _ => 0, buf := fun _ => 0 })

end Functions

end Libcperciva.Alg.CountedModel
