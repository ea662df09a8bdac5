import Libcperciva.Lib.FinLiterals
import Libcperciva.Util.Sysendian
import Mathlib.Data.Fin.VecNotation
import Mathlib.Logic.Function.Basic

/-!
# SHA-256, `alg/sha256.c`

The functions of a build without special instructions.  `tmp32`, which the
callers do not initialize, is a parameter.
-/

namespace Libcperciva.Alg.Sha256Model

open Libcperciva.Lib.FinLiterals
open Libcperciva.Util.Sysendian

/-- `SHA256_CTX`. -/
structure Sha256Ctx where
  state : Fin 8 → UInt32
  count : Nat
  buf : Fin 64 → UInt8

/-- `tmp32`: the first 64 words are `W`, the others `S`. -/
structure Tmp32 where
  W : Fin 64 → UInt32
  S : Fin 8 → UInt32

/-- `be32enc_vect`, of eight words. -/
def be32encVect (src : Fin 8 → UInt32) (len : Nat) : List UInt8 :=
  (List.range (len / 4)).flatMap fun i => be32enc (src (Fin.ofNat 8 i))

/-- `be32dec_vect`, into the message schedule. -/
def be32decVect (dst : Fin 64 → UInt32) (src : List UInt8) (len : Nat) :
    Fin 64 → UInt32 :=
  fun i =>
    if i.val < len / 4 then be32dec fun j => src.getD (i.val * 4 + j) 0
    else dst i

/-- SHA256 round constants. -/
def krnd : Vector UInt32 64 := #v[
  0x428a2f98, 0x71374491, 0xb5c0fbcf, 0xe9b5dba5,
  0x3956c25b, 0x59f111f1, 0x923f82a4, 0xab1c5ed5,
  0xd807aa98, 0x12835b01, 0x243185be, 0x550c7dc3,
  0x72be5d74, 0x80deb1fe, 0x9bdc06a7, 0xc19bf174,
  0xe49b69c1, 0xefbe4786, 0x0fc19dc6, 0x240ca1cc,
  0x2de92c6f, 0x4a7484aa, 0x5cb0a9dc, 0x76f988da,
  0x983e5152, 0xa831c66d, 0xb00327c8, 0xbf597fc7,
  0xc6e00bf3, 0xd5a79147, 0x06ca6351, 0x14292967,
  0x27b70a85, 0x2e1b2138, 0x4d2c6dfc, 0x53380d13,
  0x650a7354, 0x766a0abb, 0x81c2c92e, 0x92722c85,
  0xa2bfe8a1, 0xa81a664b, 0xc24b8b70, 0xc76c51a3,
  0xd192e819, 0xd6990624, 0xf40e3585, 0x106aa070,
  0x19a4c116, 0x1e376c08, 0x2748774c, 0x34b0bcb5,
  0x391c0cb3, 0x4ed8aa4a, 0x5b9cca4f, 0x682e6ff3,
  0x748f82ee, 0x78a5636f, 0x84c87814, 0x8cc70208,
  0x90befffa, 0xa4506ceb, 0xbef9a3f7, 0xc67178f2]

/-- Magic initialization constants. -/
def initialState : Fin 8 → UInt32 :=
  ![0x6A09E667, 0xBB67AE85, 0x3C6EF372, 0xA54FF53A,
    0x510E527F, 0x9B05688C, 0x1F83D9AB, 0x5BE0CD19]

/-! ## Elementary functions -/

def Ch (x y z : UInt32) : UInt32 := (x &&& (y ^^^ z)) ^^^ z

def Maj (x y z : UInt32) : UInt32 := (x &&& (y ||| z)) ||| (y &&& z)

def SHR (x n : UInt32) : UInt32 := x >>> n

def ROTR (x n : UInt32) : UInt32 := x >>> n ||| x <<< (32 - n)

def S0 (x : UInt32) : UInt32 := ROTR x 2 ^^^ ROTR x 13 ^^^ ROTR x 22

def S1 (x : UInt32) : UInt32 := ROTR x 6 ^^^ ROTR x 11 ^^^ ROTR x 25

def s0 (x : UInt32) : UInt32 := ROTR x 7 ^^^ ROTR x 18 ^^^ SHR x 3

def s1 (x : UInt32) : UInt32 := ROTR x 17 ^^^ ROTR x 19 ^^^ SHR x 10

/-- `RND`, on the words of `S` with the given numbers. -/
def rnd (S : Fin 8 → UInt32) (a b c d e f g h : Fin 8) (k : UInt32) :
    Fin 8 → UInt32 :=
  let S := Function.update S h (S h + (S1 (S e) + Ch (S e) (S f) (S g) + k))
  let S := Function.update S d (S d + S h)
  Function.update S h (S h + (S0 (S a) + Maj (S a) (S b) (S c)))

/-- `RNDr`. -/
def rndr (S : Fin 8 → UInt32) (W : Fin 64 → UInt32) (i ii : Nat) :
    Fin 8 → UInt32 :=
  rnd S (Fin.ofNat 8 (64 - i)) (Fin.ofNat 8 (65 - i))
    (Fin.ofNat 8 (66 - i)) (Fin.ofNat 8 (67 - i))
    (Fin.ofNat 8 (68 - i)) (Fin.ofNat 8 (69 - i))
    (Fin.ofNat 8 (70 - i)) (Fin.ofNat 8 (71 - i))
    (W (Fin.ofNat 64 (i + ii)) + krnd.get (Fin.ofNat 64 (i + ii)))

/-- `MSCH`. -/
def msch (W : Fin 64 → UInt32) (ii i : Nat) : Fin 64 → UInt32 :=
  Function.update W (Fin.ofNat 64 (i + ii + 16))
    (s1 (W (Fin.ofNat 64 (i + ii + 14))) + W (Fin.ofNat 64 (i + ii + 9)) +
      s0 (W (Fin.ofNat 64 (i + ii + 1))) + W (Fin.ofNat 64 (i + ii)))

/-! ## Blocks -/

/-- `RNDr(S, W, 0, i)` to `RNDr(S, W, 15, i)`. -/
def rndrs (S : Fin 8 → UInt32) (W : Fin 64 → UInt32) (i : Nat) :
    Fin 8 → UInt32 :=
  (List.range 16).foldl (fun S j => rndr S W j i) S

/-- `MSCH(W, 0, i)` to `MSCH(W, 15, i)`. -/
def mschs (W : Fin 64 → UInt32) (i : Nat) : Fin 64 → UInt32 :=
  (List.range 16).foldl (fun W j => msch W j i) W

/-- The loop of `SHA256_Transform`, with the number of turns that are left. -/
def mix (tmp32 : Tmp32) (i : Nat) : Nat → Tmp32
  | 0 => tmp32
  | turns + 1 =>
      let tmp32 := { tmp32 with S := rndrs tmp32.S tmp32.W i }
      if i = 48 then tmp32
      else mix { tmp32 with W := mschs tmp32.W i } (i + 16) turns

/-- `SHA256_Transform`. -/
def sha256Transform (state : Fin 8 → UInt32) (block : List UInt8)
    (tmp32 : Tmp32) : (Fin 8 → UInt32) × Tmp32 :=
  let W := be32decVect tmp32.W block 64
  let tmp32 := mix { W, S := state } 0 4
  (fun i => state i + tmp32.S i, tmp32)

/-- `PAD`. -/
def PAD : List UInt8 := 0x80 :: List.replicate 63 0

/-- `memcpy(&buf[pos], src, len)`, where `src` has `len` bytes. -/
def memcpy (buf : Fin 64 → UInt8) (pos : Nat) (src : List UInt8) :
    Fin 64 → UInt8 :=
  fun j =>
    if pos ≤ j.val ∧ j.val < pos + src.length then src.getD (j.val - pos) 0
    else buf j

/-- `SHA256_Transform` of a context, with its buffer as the block. -/
def transformBuf (ctx : Sha256Ctx) (tmp32 : Tmp32) : Sha256Ctx × Tmp32 :=
  let (state, tmp32) := sha256Transform ctx.state (List.ofFn ctx.buf) tmp32
  ({ ctx with state }, tmp32)

/-- `SHA256_Pad`. -/
def sha256Pad (ctx : Sha256Ctx) (tmp32 : Tmp32) : Sha256Ctx × Tmp32 :=
  let r := ctx.count / 8 % 64
  let (ctx, tmp32) :=
    if r < 56 then
      ({ ctx with buf := memcpy ctx.buf r (PAD.take (56 - r)) }, tmp32)
    else
      let (ctx, tmp32) := transformBuf
        { ctx with buf := memcpy ctx.buf r (PAD.take (64 - r)) } tmp32
      ({ ctx with buf := memcpy ctx.buf 0 (List.replicate 56 0) }, tmp32)
  transformBuf
    { ctx with
      buf := memcpy ctx.buf 56 ((List.range 8).map (be64 ctx.count)) }
    tmp32

/-! ## The interface -/

/-- `SHA256_Init`. -/
def sha256Init (ctx : Sha256Ctx) : Sha256Ctx :=
  { ctx with count := 0, state := initialState }

/-- The loop of `SHA256_Update_internal` over complete blocks: the state, what
is left of the input, and `tmp32`. -/
def completeBlocks (state : Fin 8 → UInt32) (src : List UInt8)
    (tmp32 : Tmp32) : (Fin 8 → UInt32) × List UInt8 × Tmp32 :=
  if src.length ≥ 64 then
    let (state, tmp32) := sha256Transform state (src.take 64) tmp32
    completeBlocks state (src.drop 64) tmp32
  else (state, src, tmp32)
termination_by src.length

/-- `SHA256_Update_internal`. -/
def sha256UpdateInternal (ctx : Sha256Ctx) (src : List UInt8)
    (tmp32 : Tmp32) : Sha256Ctx × Tmp32 :=
  if src.length = 0 then (ctx, tmp32)
  else
    let r := ctx.count / 8 % 64
    let ctx := { ctx with
      count := (ctx.count + src.length * 8 % 2 ^ 64) % 2 ^ 64 }
    if src.length < 64 - r then
      ({ ctx with buf := memcpy ctx.buf r src }, tmp32)
    else
      let (ctx, tmp32) := transformBuf
        { ctx with buf := memcpy ctx.buf r (src.take (64 - r)) } tmp32
      let (state, src, tmp32) :=
        completeBlocks ctx.state (src.drop (64 - r)) tmp32
      ({ ctx with state, buf := memcpy ctx.buf 0 src }, tmp32)

/-- `SHA256_Update`. -/
def sha256Update (ctx : Sha256Ctx) (src : List UInt8) (tmp32 : Tmp32) :
    Sha256Ctx :=
  (sha256UpdateInternal ctx src tmp32).1

/-- `SHA256_Final_internal`: the digest and the context. -/
def sha256FinalInternal (ctx : Sha256Ctx) (tmp32 : Tmp32) :
    List UInt8 × Sha256Ctx :=
  let (ctx, _) := sha256Pad ctx tmp32
  (be32encVect ctx.state 32, ctx)

/-- `SHA256_Final`: the digest, and the context, which is cleared. -/
def sha256Final (ctx : Sha256Ctx) (tmp32 : Tmp32) : List UInt8 × Sha256Ctx :=
  let (digest, _) := sha256FinalInternal ctx tmp32
  (digest, { state := fun _ => 0, count := 0, buf := fun _ => 0 })

/-- `SHA256_Buf`. -/
def sha256Buf (ctx : Sha256Ctx) (src : List UInt8) (tmp32 : Tmp32) :
    List UInt8 :=
  let ctx := sha256Init ctx
  let (ctx, tmp32) := sha256UpdateInternal ctx src tmp32
  (sha256FinalInternal ctx tmp32).1

/-- Calls of `SHA256_Update`, one after the other. -/
def updates (ctx : Sha256Ctx) : List (List UInt8 × Tmp32) → Sha256Ctx
  | [] => ctx
  | (src, tmp32) :: calls => updates (sha256Update ctx src tmp32) calls

end Libcperciva.Alg.Sha256Model
