import Libcperciva.Intrinsics.X86
import Libcperciva.Lib.FinLiterals
import Mathlib.Logic.Function.Basic

/-!
# SHA-256 with SHANI, `alg/sha256_shani.c`
-/

namespace Libcperciva.Alg.Sha256ShaniModel

open Libcperciva.Intrinsics.X86
open Libcperciva.Lib.FinLiterals

/-- `be32dec_128`. -/
def be32dec128 (src : List UInt8) : M128i :=
  let SHUF := mmSetEpi8 [12, 13, 14, 15, 8, 9, 10, 11, 4, 5, 6, 7, 0, 1, 2, 3]
  let x := mmLoaduSi128 src
  mmShuffleEpi8 x SHUF

/-- `I32`: convert an unsigned 32-bit immediate into a signed value. -/
def i32 (a : UInt32) : Int :=
  if a ≥ 0x80000000 then -((0xffffffff - a).toNat : Int) - 1
  else (a.toNat : Int)

/-- `IMM4`. -/
def imm4 (a b c d : UInt32) : M128i :=
  mmSetEpi32 (i32 a) (i32 b) (i32 c) (i32 d)

/-- The array `S`. -/
structure S01 where
  S0 : M128i
  S1 : M128i

/-- `RND4`. -/
def rnd4 (S : S01) (W : M128i) (K0 K1 K2 K3 : UInt32) : S01 :=
  let M := mmAddEpi32 W (imm4 K3 K2 K1 K0)
  let S1 := mmSha256rnds2Epu32 S.S1 S.S0 M
  let M := mmSrliSi128 M 8
  let S0 := mmSha256rnds2Epu32 S.S0 S1 M
  { S0, S1 }

/-- `MSG4`. -/
def msg4 (W : Fin 4 → M128i) (i : Nat) : Fin 4 → M128i :=
  let i0 := Fin.ofNat 4 (i + 0)
  let i1 := Fin.ofNat 4 (i + 1)
  let i2 := Fin.ofNat 4 (i + 2)
  let i3 := Fin.ofNat 4 (i + 3)
  let W := Function.update W i0 (mmSha256msg1Epu32 (W i0) (W i1))
  let W := Function.update W i0
    (mmAddEpi32 (W i0) (mmAlignrEpi8 (W i3) (W i2) 4))
  Function.update W i0 (mmSha256msg2Epu32 (W i0) (W i3))

/-- The arrays `S` and `W`. -/
structure Mixing where
  S : S01
  W : Fin 4 → M128i

/-- `RNDMSG`. -/
def rndmsg (state : Mixing) (i : Nat) (K0 K1 K2 K3 : UInt32) : Mixing :=
  let S := rnd4 state.S (state.W (Fin.ofNat 4 i)) K0 K1 K2 K3
  { S, W := if i < 12 then msg4 state.W (i + 4) else state.W }

/-- Perform 64 rounds, 4 at a time. -/
def rounds64 (state : Mixing) : Mixing :=
  let state := rndmsg state 0 0x428a2f98 0x71374491 0xb5c0fbcf 0xe9b5dba5
  let state := rndmsg state 1 0x3956c25b 0x59f111f1 0x923f82a4 0xab1c5ed5
  let state := rndmsg state 2 0xd807aa98 0x12835b01 0x243185be 0x550c7dc3
  let state := rndmsg state 3 0x72be5d74 0x80deb1fe 0x9bdc06a7 0xc19bf174
  let state := rndmsg state 4 0xe49b69c1 0xefbe4786 0x0fc19dc6 0x240ca1cc
  let state := rndmsg state 5 0x2de92c6f 0x4a7484aa 0x5cb0a9dc 0x76f988da
  let state := rndmsg state 6 0x983e5152 0xa831c66d 0xb00327c8 0xbf597fc7
  let state := rndmsg state 7 0xc6e00bf3 0xd5a79147 0x06ca6351 0x14292967
  let state := rndmsg state 8 0x27b70a85 0x2e1b2138 0x4d2c6dfc 0x53380d13
  let state := rndmsg state 9 0x650a7354 0x766a0abb 0x81c2c92e 0x92722c85
  let state := rndmsg state 10 0xa2bfe8a1 0xa81a664b 0xc24b8b70 0xc76c51a3
  let state := rndmsg state 11 0xd192e819 0xd6990624 0xf40e3585 0x106aa070
  let state := rndmsg state 12 0x19a4c116 0x1e376c08 0x2748774c 0x34b0bcb5
  let state := rndmsg state 13 0x391c0cb3 0x4ed8aa4a 0x5b9cca4f 0x682e6ff3
  let state := rndmsg state 14 0x748f82ee 0x78a5636f 0x84c87814 0x8cc70208
  rndmsg state 15 0x90befffa 0xa4506ceb 0xbef9a3f7 0xc67178f2

/-- `SHA256_Transform_shani`. -/
def sha256TransformShani (state : Fin 8 → UInt32) (block : List UInt8) :
    Fin 8 → UInt32 :=
  let S3210 := mmLoaduWords fun i => state (Fin.ofNat 8 i)
  let S7654 := mmLoaduWords fun i => state (Fin.ofNat 8 (4 + i))
  let S0123 := mmShuffleEpi32 S3210 0x1B
  let S4567 := mmShuffleEpi32 S7654 0x1B
  let S0145 := mmUnpackhiEpi64 S4567 S0123
  let S2367 := mmUnpackloEpi64 S4567 S0123
  let W : Fin 4 → M128i := fun i => be32dec128 (block.drop (16 * i))
  let done := rounds64 { S := { S0 := S0145, S1 := S2367 }, W }
  let S0145 := mmAddEpi32 S0145 done.S.S0
  let S2367 := mmAddEpi32 S2367 done.S.S1
  let S0123 := mmUnpackhiEpi64 S2367 S0145
  let S4567 := mmUnpackloEpi64 S2367 S0145
  let S3210 := mmShuffleEpi32 S0123 0x1B
  let S7654 := mmShuffleEpi32 S4567 0x1B
  fun i =>
    if i.val < 4 then mmStoreuWords S3210 i else mmStoreuWords S7654 (i - 4)

end Libcperciva.Alg.Sha256ShaniModel
