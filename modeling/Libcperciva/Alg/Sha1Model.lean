import Libcperciva.Alg.CountedModel

/-!
# SHA-1, `alg/sha1.c`
-/

namespace Libcperciva.Alg.Sha1Model

open Libcperciva.Lib.FinLiterals
open Libcperciva.Util.Sysendian
open Libcperciva.Alg.CountedModel

/-- `SHA1_CTX`. -/
abbrev Sha1Ctx := CountedCtx 5

/-! ## Elementary functions -/

def ROTL (x n : UInt32) : UInt32 := x <<< n ||| x >>> (32 - n)

def Ch (x y z : UInt32) : UInt32 := (x &&& (y ^^^ z)) ^^^ z

def Maj (x y z : UInt32) : UInt32 := (x &&& (y ||| z)) ||| (y &&& z)

/-! ## Round functions, on the words of `S` with the given numbers -/

def rnd (f : UInt32 → UInt32 → UInt32 → UInt32) (constant : UInt32)
    (S : Fin 5 → UInt32) (a b c d e : Fin 5) (k : UInt32) : Fin 5 → UInt32 :=
  let S := Function.update S e
    (ROTL (S a) 5 + f (S b) (S c) (S d) + S e + k + constant)
  Function.update S b (ROTL (S b) 30)

def RND0 := rnd Ch 0x5A827999

def RND1 := rnd (fun b c d => b ^^^ c ^^^ d) 0x6ED9EBA1

def RND2 := rnd Maj 0x8F1BBCDC

def RND3 := rnd (fun b c d => b ^^^ c ^^^ d) 0xCA62C1D6

/-- `RND0r` to `RND3r`, for a rotating state. -/
def rndr (op : (Fin 5 → UInt32) → Fin 5 → Fin 5 → Fin 5 → Fin 5 → Fin 5 →
      UInt32 → Fin 5 → UInt32)
    (S : Fin 5 → UInt32) (W : Fin 80 → UInt32) (i : Nat) : Fin 5 → UInt32 :=
  op S (Fin.ofNat 5 (80 - i)) (Fin.ofNat 5 (81 - i)) (Fin.ofNat 5 (82 - i))
    (Fin.ofNat 5 (83 - i)) (Fin.ofNat 5 (84 - i)) (W (Fin.ofNat 80 i))

/-- Twenty calls, from a first number. -/
def calls (op : (Fin 5 → UInt32) → Fin 5 → Fin 5 → Fin 5 → Fin 5 → Fin 5 →
      UInt32 → Fin 5 → UInt32)
    (W : Fin 80 → UInt32) (first : Nat) (S : Fin 5 → UInt32) :
    Fin 5 → UInt32 :=
  (List.range 20).foldl (fun S j => rndr op S W (first + j)) S

/-! ## Blocks -/

/-- A turn of the loop that prepares the message schedule. -/
def expand (W : Fin 80 → UInt32) (i : Nat) : Fin 80 → UInt32 :=
  let W := Function.update W (Fin.ofNat 80 i)
    (W (Fin.ofNat 80 (i - 3)) ^^^ W (Fin.ofNat 80 (i - 8)) ^^^
      W (Fin.ofNat 80 (i - 14)) ^^^ W (Fin.ofNat 80 (i - 16)))
  Function.update W (Fin.ofNat 80 i) (ROTL (W (Fin.ofNat 80 i)) 1)

/-- `SHA1_Transform`; the loop writes the words that the block leaves out. -/
def sha1Transform (state : Fin 5 → UInt32) (block : List UInt8) :
    Fin 5 → UInt32 :=
  let W : Fin 80 → UInt32 := fun i => decVect be32dec block (Fin.ofNat 16 i)
  let W := (List.range 64).foldl (fun W j => expand W (16 + j)) W
  let S := calls RND0 W 0 state
  let S := calls RND1 W 20 S
  let S := calls RND2 W 40 S
  let S := calls RND3 W 60 S
  fun i => state i + S i

/-! ## The interface -/

/-- `SHA1_Init`. -/
def sha1Init (ctx : Sha1Ctx) : Sha1Ctx :=
  { ctx with
    count := ![0, 0]
    state := ![0x67452301, 0xEFCDAB89, 0x98BADCFE, 0x10325476, 0xC3D2E1F0] }

/-- `SHA1_Update`. -/
def sha1Update : Sha1Ctx → List UInt8 → Sha1Ctx := update sha1Transform 1 0

/-- `SHA1_Final`. -/
def sha1Final : Sha1Ctx → List UInt8 × Sha1Ctx :=
  final sha1Transform 1 0 be32enc

/-- `SHA1_Buf`. -/
def sha1Buf (ctx : Sha1Ctx) (src : List UInt8) : List UInt8 :=
  (sha1Final (sha1Update (sha1Init ctx) src)).1

end Libcperciva.Alg.Sha1Model
