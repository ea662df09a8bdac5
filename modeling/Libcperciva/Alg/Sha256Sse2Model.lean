import Libcperciva.Alg.Sha256Model
import Libcperciva.Intrinsics.X86

/-!
# SHA-256 with SSE2, `alg/sha256_sse2.c`

`Krnd` and the macros for a round are those of `sha256.c`, which the file
repeats.
-/

namespace Libcperciva.Alg.Sha256Sse2Model

open Libcperciva.Intrinsics.X86
open Libcperciva.Alg.Sha256Model

/-- `mm_bswap_epi32`. -/
def mmBswapEpi32 (a : M128i) : M128i :=
  let a := mmOrSi128 (mmSlliEpi16 a 8) (mmSrliEpi16 a 8)
  let a := mmShuffleloEpi16 a (mmShuffle 2 3 0 1)
  mmShufflehiEpi16 a (mmShuffle 2 3 0 1)

/-! ## Message schedule computation -/

/-- `SHR32`. -/
def shr32 (x : M128i) (n : Nat) : M128i := mmSrliEpi32 x n

/-- `ROTR32`. -/
def rotr32 (x : M128i) (n : Nat) : M128i :=
  mmOrSi128 (shr32 x n) (mmSlliEpi32 x (32 - n))

/-- `s0_128`. -/
def s0_128 (x : M128i) : M128i :=
  mmXorSi128 (mmXorSi128 (rotr32 x 7) (rotr32 x 18)) (shr32 x 3)

/-- `s1_128_high`. -/
def s1_128High (a : M128i) : M128i :=
  let b := mmShuffleEpi32 a (mmShuffle 1 1 0 0)
  let c := mmXorSi128 (mmSrliEpi64 b 17) (mmSrliEpi64 b 19)
  let c := mmXorSi128 c (mmSrliEpi32 b 10)
  let c := mmShuffleEpi32 c (mmShuffle 2 0 2 0)
  mmSlliSi128 c 8

/-- `s1_128_low`. -/
def s1_128Low (a : M128i) : M128i :=
  let b := mmShuffleEpi32 a (mmShuffle 3 3 2 2)
  let c := mmXorSi128 (mmSrliEpi64 b 17) (mmSrliEpi64 b 19)
  let c := mmXorSi128 c (mmSrliEpi32 b 10)
  let c := mmShuffleEpi32 c (mmShuffle 2 0 2 0)
  mmSrliSi128 c 8

/-- `SPAN_ONE_THREE`. -/
def spanOneThree (a b : M128i) : M128i :=
  mmShuffleEpi32 (mmMoveSs a b) (mmShuffle 0 3 2 1)

/-- `MSG4`. -/
def msg4 (X0 X1 X2 X3 : M128i) : M128i :=
  let XjMinusSeven := spanOneThree X2 X3
  let XjMinusFifteen := spanOneThree X0 X1
  let X4 := mmAddEpi32 X0 XjMinusSeven
  let X4 := mmAddEpi32 X4 (s0_128 XjMinusFifteen)
  let X4 := mmAddEpi32 X4 (s1_128Low X3)
  mmAddEpi32 X4 (s1_128High X4)

/-! ## Blocks -/

/-- `_mm_storeu_si128((__m128i *)&W[k], a)`. -/
def storeuW (W : Fin 64 → UInt32) (k : Nat) (a : M128i) : Fin 64 → UInt32 :=
  fun t =>
    if k ≤ t.val ∧ t.val < k + 4 then mmStoreuWords a (t - k) else W t

/-- The local variables, and the arrays `W` and `S`. -/
structure Mixing where
  Y0 : M128i
  Y1 : M128i
  Y2 : M128i
  Y3 : M128i
  tmp32 : Tmp32

/-- The next sixteen words of the message schedule. -/
def msg16 (state : Mixing) (i : Nat) : Mixing :=
  let W := state.tmp32.W
  let Y0 := msg4 state.Y0 state.Y1 state.Y2 state.Y3
  let W := storeuW W (16 + i + 0) Y0
  let Y1 := msg4 state.Y1 state.Y2 state.Y3 Y0
  let W := storeuW W (16 + i + 4) Y1
  let Y2 := msg4 state.Y2 state.Y3 Y0 Y1
  let W := storeuW W (16 + i + 8) Y2
  let Y3 := msg4 state.Y3 Y0 Y1 Y2
  let W := storeuW W (16 + i + 12) Y3
  { Y0, Y1, Y2, Y3, tmp32 := { state.tmp32 with W } }

/-- The loop of `SHA256_Transform_sse2`, with the number of turns that are
left. -/
def mixSse2 (state : Mixing) (i : Nat) : Nat → Mixing
  | 0 => state
  | turns + 1 =>
      let S := rndrs state.tmp32.S state.tmp32.W i
      let state := { state with tmp32 := { state.tmp32 with S } }
      if i = 48 then state else mixSse2 (msg16 state i) (i + 16) turns

/-- `SHA256_Transform_sse2`. -/
def sha256TransformSse2 (state : Fin 8 → UInt32) (block : List UInt8)
    (tmp32 : Tmp32) : (Fin 8 → UInt32) × Tmp32 :=
  let Y0 := mmBswapEpi32 (mmLoaduSi128 (block.drop 0))
  let W := storeuW tmp32.W 0 Y0
  let Y1 := mmBswapEpi32 (mmLoaduSi128 (block.drop 16))
  let W := storeuW W 4 Y1
  let Y2 := mmBswapEpi32 (mmLoaduSi128 (block.drop 32))
  let W := storeuW W 8 Y2
  let Y3 := mmBswapEpi32 (mmLoaduSi128 (block.drop 48))
  let W := storeuW W 12 Y3
  let done := mixSse2 { Y0, Y1, Y2, Y3, tmp32 := { W, S := state } } 0 4
  (fun i => state i + done.tmp32.S i, done.tmp32)

end Libcperciva.Alg.Sha256Sse2Model
