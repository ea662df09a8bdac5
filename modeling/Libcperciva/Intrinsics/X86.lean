import Libcperciva.Lib.Aes
import Libcperciva.Lib.Fips180
import Libcperciva.Lib.Lanes

/-!
# Intrinsics of x86

The functions of `emmintrin.h`, `tmmintrin.h`, `wmmintrin.h` and `immintrin.h`
that are called, as the manual of the instruction set gives them.  Memory is
little-endian; a load from an unaligned address is given the bytes from that
address on.
-/

namespace Libcperciva.Intrinsics.X86

open Libcperciva.Lib.Aes
open Libcperciva.Lib.Fips180
open Libcperciva.Lib.Lanes

/-- `__m128i`. -/
abbrev M128i := BitVec 128

/-! ## SSE2 -/

/-- `_mm_loadu_si128`, of bytes. -/
def mmLoaduSi128 (src : List UInt8) : M128i :=
  ofLanes 128 8 fun i => (src.getD i 0).toBitVec

/-- `_mm_storeu_si128`, as bytes. -/
def mmStoreuSi128 (a : M128i) : List UInt8 :=
  (List.range 16).map fun i => UInt8.ofBitVec (lane 8 a i)

/-- `_mm_loadu_si128`, of `uint32_t`. -/
def mmLoaduWords (src : Nat → UInt32) : M128i := ofLanes32 src

/-- `_mm_storeu_si128`, as `uint32_t`. -/
def mmStoreuWords (a : M128i) : Nat → UInt32 := lane32 a

/-- `_mm_xor_si128`. -/
def mmXorSi128 (a b : M128i) : M128i := a ^^^ b

/-- `_mm_or_si128`. -/
def mmOrSi128 (a b : M128i) : M128i := a ||| b

/-- `_mm_add_epi32`. -/
def mmAddEpi32 (a b : M128i) : M128i :=
  ofLanes32 fun i => lane32 a i + lane32 b i

/-- `_mm_slli_si128`. -/
def mmSlliSi128 (a : M128i) (imm8 : Nat) : M128i := a <<< (8 * imm8)

/-- `_mm_srli_si128`. -/
def mmSrliSi128 (a : M128i) (imm8 : Nat) : M128i := a >>> (8 * imm8)

/-- `_mm_slli_epi16`. -/
def mmSlliEpi16 (a : M128i) (imm8 : Nat) : M128i :=
  ofLanes 128 16 fun i => lane 16 a i <<< imm8

/-- `_mm_srli_epi16`. -/
def mmSrliEpi16 (a : M128i) (imm8 : Nat) : M128i :=
  ofLanes 128 16 fun i => lane 16 a i >>> imm8

/-- `_mm_slli_epi32`. -/
def mmSlliEpi32 (a : M128i) (imm8 : Nat) : M128i :=
  ofLanes 128 32 fun i => lane 32 a i <<< imm8

/-- `_mm_srli_epi32`. -/
def mmSrliEpi32 (a : M128i) (imm8 : Nat) : M128i :=
  ofLanes 128 32 fun i => lane 32 a i >>> imm8

/-- `_mm_srli_epi64`. -/
def mmSrliEpi64 (a : M128i) (imm8 : Nat) : M128i :=
  ofLanes 128 64 fun i => lane 64 a i >>> imm8

/-- `_MM_SHUFFLE`. -/
def mmShuffle (z y x w : Nat) : Nat := 64 * z + 16 * y + 4 * x + w

/-- `_mm_shuffle_epi32`. -/
def mmShuffleEpi32 (a : M128i) (imm8 : Nat) : M128i :=
  ofLanes 128 32 fun i => lane 32 a (imm8 / 4 ^ i % 4)

/-- `_mm_shufflelo_epi16`. -/
def mmShuffleloEpi16 (a : M128i) (imm8 : Nat) : M128i :=
  ofLanes 128 16 fun i =>
    if i < 4 then lane 16 a (imm8 / 4 ^ i % 4) else lane 16 a i

/-- `_mm_shufflehi_epi16`. -/
def mmShufflehiEpi16 (a : M128i) (imm8 : Nat) : M128i :=
  ofLanes 128 16 fun i =>
    if i < 4 then lane 16 a i else lane 16 a (4 + imm8 / 4 ^ (i - 4) % 4)

/-- `_mm_unpacklo_epi64`. -/
def mmUnpackloEpi64 (a b : M128i) : M128i :=
  ofLanes 128 64 fun
    | 0 => lane 64 a 0
    | _ => lane 64 b 0

/-- `_mm_unpackhi_epi64`. -/
def mmUnpackhiEpi64 (a b : M128i) : M128i :=
  ofLanes 128 64 fun
    | 0 => lane 64 a 1
    | _ => lane 64 b 1

/-- `_mm_move_ss`, where the casts between vectors of integers and of floating
point numbers change nothing. -/
def mmMoveSs (a b : M128i) : M128i :=
  ofLanes 128 32 fun
    | 0 => lane 32 b 0
    | i => lane 32 a i

/-- `_mm_set_epi32`. -/
def mmSetEpi32 (e3 e2 e1 e0 : Int) : M128i :=
  ofLanes 128 32 fun
    | 0 => BitVec.ofInt 32 e0
    | 1 => BitVec.ofInt 32 e1
    | 2 => BitVec.ofInt 32 e2
    | _ => BitVec.ofInt 32 e3

/-- `_mm_set_epi8`; the first element is the highest one. -/
def mmSetEpi8 (elements : List Nat) : M128i :=
  ofLanes 128 8 fun i => BitVec.ofNat 8 (elements.getD (15 - i) 0)

/-! ## SSSE3 -/

/-- `_mm_shuffle_epi8`. -/
def mmShuffleEpi8 (a b : M128i) : M128i :=
  ofLanes 128 8 fun i =>
    if (lane 8 b i).getLsbD 7 then 0
    else lane 8 a ((lane 8 b i).toNat % 16)

/-- `_mm_alignr_epi8`. -/
def mmAlignrEpi8 (a b : M128i) (imm8 : Nat) : M128i :=
  ((a ++ b) >>> (8 * imm8)).setWidth 128

/-! ## SHA -/

/-- `_mm_sha256msg1_epu32`. -/
def mmSha256msg1Epu32 (a b : M128i) : M128i :=
  ofLanes32 fun
    | 3 => lane32 a 3 + smallSigma0 (lane32 b 0)
    | i => lane32 a i + smallSigma0 (lane32 a (i + 1))

/-- `_mm_sha256msg2_epu32`. -/
def mmSha256msg2Epu32 (a b : M128i) : M128i :=
  let w14 := lane32 b 2
  let w15 := lane32 b 3
  let w16 := lane32 a 0 + smallSigma1 w14
  let w17 := lane32 a 1 + smallSigma1 w15
  let w18 := lane32 a 2 + smallSigma1 w16
  let w19 := lane32 a 3 + smallSigma1 w17
  ofLanes32 fun
    | 0 => w16
    | 1 => w17
    | 2 => w18
    | _ => w19

/-- The working variables. -/
structure Variables where
  (a b c d e f g h : UInt32)

/-- One of the rounds of `_mm_sha256rnds2_epu32`. -/
def sha256Round (v : Variables) (wk : UInt32) : Variables where
  a := ch v.e v.f v.g + bigSigma1 v.e + wk + v.h + maj v.a v.b v.c +
    bigSigma0 v.a
  b := v.a
  c := v.b
  d := v.c
  e := ch v.e v.f v.g + bigSigma1 v.e + wk + v.h + v.d
  f := v.e
  g := v.f
  h := v.g

/-- `_mm_sha256rnds2_epu32`. -/
def mmSha256rnds2Epu32 (a b k : M128i) : M128i :=
  let v : Variables :=
    { a := lane32 b 3, b := lane32 b 2, c := lane32 a 3, d := lane32 a 2
      e := lane32 b 1, f := lane32 b 0, g := lane32 a 1, h := lane32 a 0 }
  let v := sha256Round v (lane32 k 0)
  let v := sha256Round v (lane32 k 1)
  ofLanes32 fun
    | 0 => v.f
    | 1 => v.e
    | 2 => v.b
    | _ => v.a

/-! ## AES -/

/-- `_mm_aeskeygenassist_si128`. -/
def mmAeskeygenassistSi128 (a : M128i) (imm8 : UInt8) : M128i :=
  let x1 := word a 1
  let x3 := word a 3
  let rcon := front imm8
  ofWords fun
    | 0 => subWord x1
    | 1 => xorWord (rotWord (subWord x1)) rcon
    | 2 => subWord x3
    | _ => xorWord (rotWord (subWord x3)) rcon

/-- `_mm_aesenc_si128`. -/
def mmAesencSi128 (a roundKey : M128i) : M128i :=
  ofState (mixColumns (subBytes (shiftRows (state a)))) ^^^ roundKey

/-- `_mm_aesenclast_si128`. -/
def mmAesenclastSi128 (a roundKey : M128i) : M128i :=
  ofState (subBytes (shiftRows (state a))) ^^^ roundKey

end Libcperciva.Intrinsics.X86
