import Libcperciva.Lib.Aes
import Libcperciva.Lib.Fips180
import Libcperciva.Lib.Lanes

/-!
# Intrinsics of ARM

The functions of `arm_neon.h` that are called, as the reference of the
intrinsics gives them, on a little-endian machine.  The vector types differ
only in how a register is seen, so `vreinterpretq_u8_u32` and its like are not
written.
-/

namespace Libcperciva.Intrinsics.Neon

open Libcperciva.Lib.Aes
open Libcperciva.Lib.Fips180
open Libcperciva.Lib.Lanes

/-- `uint8x16_t`. -/
abbrev Uint8x16 := BitVec 128

/-- `uint32x4_t`. -/
abbrev Uint32x4 := BitVec 128

/-- `vld1q_u8`. -/
def vld1qU8 (ptr : List UInt8) : Uint8x16 :=
  ofLanes 128 8 fun i => (ptr.getD i 0).toBitVec

/-- `vst1q_u8`. -/
def vst1qU8 (val : Uint8x16) : List UInt8 :=
  (List.range 16).map fun i => UInt8.ofBitVec (lane 8 val i)

/-- `veorq_u8`. -/
def veorqU8 (a b : Uint8x16) : Uint8x16 := a ^^^ b

/-- `vdupq_n_u8`. -/
def vdupqNU8 (value : UInt8) : Uint8x16 :=
  ofLanes 128 8 fun _ => value.toBitVec

/-- `vdupq_n_u32`. -/
def vdupqNU32 (value : UInt32) : Uint32x4 :=
  ofLanes 128 32 fun _ => value.toBitVec

/-- `vdupq_laneq_u32`. -/
def vdupqLaneqU32 (vec : Uint32x4) (i : Nat) : Uint32x4 :=
  ofLanes 128 32 fun _ => lane 32 vec i

/-- `vgetq_lane_u32`. -/
def vgetqLaneU32 (v : Uint32x4) (i : Nat) : UInt32 :=
  UInt32.ofBitVec (lane 32 v i)

/-- `vextq_u8`. -/
def vextqU8 (a b : Uint8x16) (n : Nat) : Uint8x16 :=
  ofLanes 128 8 fun i =>
    if i + n < 16 then lane 8 a (i + n) else lane 8 b (i + n - 16)

/-- `vrev32q_u8`. -/
def vrev32qU8 (vec : Uint8x16) : Uint8x16 :=
  ofLanes 128 8 fun i => lane 8 vec (4 * (i / 4) + (3 - i % 4))

/-- `vld1q_u32`. -/
def vld1qU32 (ptr : Nat → UInt32) : Uint32x4 := ofLanes32 ptr

/-- `vst1q_u32`. -/
def vst1qU32 (val : Uint32x4) : Nat → UInt32 := lane32 val

/-- `vaddq_u32`. -/
def vaddqU32 (a b : Uint32x4) : Uint32x4 :=
  ofLanes32 fun i => lane32 a i + lane32 b i

/-! ## SHA-256 -/

/-- Two registers: `X` has the variables `a` to `d`, and `Y` has `e` to `h`. -/
structure Hashing where
  X : Uint32x4
  Y : Uint32x4

/-- A round of the instructions, with `w` the sum of a word of the message
schedule and a constant: the upper words are replaced, and then both registers
are rotated by a word. -/
def sha256Step (state : Hashing) (w : UInt32) : Hashing :=
  let X := lane32 state.X
  let Y := lane32 state.Y
  let t := Y 3 + bigSigma1 (Y 0) + ch (Y 0) (Y 1) (Y 2) + w
  { X := ofLanes32 fun
      | 0 => t + bigSigma0 (X 0) + maj (X 0) (X 1) (X 2)
      | i + 1 => X i
    Y := ofLanes32 fun
      | 0 => t + X 3
      | i + 1 => Y i }

/-- `SHA256hash`, the four rounds of `SHA256H` and `SHA256H2`. -/
def sha256hash (state : Hashing) (w : Uint32x4) : Hashing :=
  let state := sha256Step state (lane32 w 0)
  let state := sha256Step state (lane32 w 1)
  let state := sha256Step state (lane32 w 2)
  sha256Step state (lane32 w 3)

/-- `vsha256hq_u32`. -/
def vsha256hqU32 (hashAbcd hashEfgh wk : Uint32x4) : Uint32x4 :=
  (sha256hash { X := hashAbcd, Y := hashEfgh } wk).X

/-- `vsha256h2q_u32`. -/
def vsha256h2qU32 (hashEfgh hashAbcd wk : Uint32x4) : Uint32x4 :=
  (sha256hash { X := hashAbcd, Y := hashEfgh } wk).Y

/-- `vsha256su0q_u32`. -/
def vsha256su0qU32 (w0_3 w4_7 : Uint32x4) : Uint32x4 :=
  ofLanes32 fun i =>
    smallSigma0 (if i < 3 then lane32 w0_3 (i + 1) else lane32 w4_7 0) +
      lane32 w0_3 i

/-- `vsha256su1q_u32`. -/
def vsha256su1qU32 (tw0_3 w8_11 w12_15 : Uint32x4) : Uint32x4 :=
  let t0 := fun i => if i < 3 then lane32 w8_11 (i + 1) else lane32 w12_15 0
  let elt := fun x i => smallSigma1 x + lane32 tw0_3 i + t0 i
  let r0 := elt (lane32 w12_15 2) 0
  let r1 := elt (lane32 w12_15 3) 1
  let r2 := elt r0 2
  let r3 := elt r1 3
  ofLanes32 fun
    | 0 => r0
    | 1 => r1
    | 2 => r2
    | _ => r3

/-! ## AES -/

/-- `vaeseq_u8`. -/
def vaeseqU8 (data key : Uint8x16) : Uint8x16 :=
  ofState (subBytes (shiftRows (state (data ^^^ key))))

/-- `vaesmcq_u8`. -/
def vaesmcqU8 (data : Uint8x16) : Uint8x16 := ofState (mixColumns (state data))

end Libcperciva.Intrinsics.Neon
