import Libcperciva.Alg.Sha256Model
import Libcperciva.Intrinsics.Neon

/-!
# SHA-256 on ARM, `alg/sha256_arm.c`

`Krnd` is the table of `sha256.c`, which the file repeats.
-/

namespace Libcperciva.Alg.Sha256ArmModel

open Libcperciva.Intrinsics.Neon
open Libcperciva.Alg.Sha256Model

/-- The arrays `S` and `Y`. -/
structure Mixing where
  S0 : Uint32x4
  S1 : Uint32x4
  Y0 : Uint32x4
  Y1 : Uint32x4
  Y2 : Uint32x4
  Y3 : Uint32x4

/-- `&Krnd[k]`. -/
def krndFrom (k : Nat) : Nat → UInt32 :=
  fun j => krnd.get (Fin.ofNat 64 (k + j))

/-- `RND4`. -/
def rnd4 (state : Mixing) (M : Uint32x4) (Kp : Nat → UInt32) : Mixing :=
  let S0Step := state.S0
  let Wk := vaddqU32 M (vld1qU32 Kp)
  { state with
    S0 := vsha256hqU32 state.S0 state.S1 Wk
    S1 := vsha256h2qU32 state.S1 S0Step Wk }

/-- `MSG4`: the new value of the first argument. -/
def msg4 (X0 X1 X2 X3 : Uint32x4) : Uint32x4 :=
  vsha256su1qU32 (vsha256su0qU32 X0 X1) X2 X3

/-- `RND4`, four times. -/
def rnd16 (state : Mixing) (i : Nat) : Mixing :=
  let state := rnd4 state state.Y0 (krndFrom (i + 0))
  let state := rnd4 state state.Y1 (krndFrom (i + 4))
  let state := rnd4 state state.Y2 (krndFrom (i + 8))
  rnd4 state state.Y3 (krndFrom (i + 12))

/-- `MSG4`, four times. -/
def msg16 (state : Mixing) : Mixing :=
  let state := { state with Y0 := msg4 state.Y0 state.Y1 state.Y2 state.Y3 }
  let state := { state with Y1 := msg4 state.Y1 state.Y2 state.Y3 state.Y0 }
  let state := { state with Y2 := msg4 state.Y2 state.Y3 state.Y0 state.Y1 }
  { state with Y3 := msg4 state.Y3 state.Y0 state.Y1 state.Y2 }

/-- The loop of `SHA256_Transform_arm`, with the number of turns that are
left. -/
def mixArm (state : Mixing) (i : Nat) : Nat → Mixing
  | 0 => state
  | turns + 1 =>
      let state := rnd16 state i
      if i = 48 then state else mixArm (msg16 state) (i + 16) turns

/-- `SHA256_Transform_arm`. -/
def sha256TransformArm (state : Fin 8 → UInt32) (block : List UInt8) :
    Fin 8 → UInt32 :=
  let Y0 := vrev32qU8 (vld1qU8 (block.drop 0))
  let Y1 := vrev32qU8 (vld1qU8 (block.drop 16))
  let Y2 := vrev32qU8 (vld1qU8 (block.drop 32))
  let Y3 := vrev32qU8 (vld1qU8 (block.drop 48))
  let state0 := vld1qU32 fun i => state (Fin.ofNat 8 i)
  let state1 := vld1qU32 fun i => state (Fin.ofNat 8 (4 + i))
  let done := mixArm { S0 := state0, S1 := state1, Y0, Y1, Y2, Y3 } 0 4
  fun i =>
    if i.val < 4 then vst1qU32 (vaddqU32 state0 done.S0) i
    else vst1qU32 (vaddqU32 state1 done.S1) (i - 4)

end Libcperciva.Alg.Sha256ArmModel
