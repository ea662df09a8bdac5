import Libcperciva.Alg.Sha256ArmTransform
import Libcperciva.Alg.Sha256ShaniTransform
import Libcperciva.Alg.Sha256Sse2Transform

/-!
# Hardware acceleration of SHA-256, `alg/sha256.c`

Which implementations are compiled in, and what the machine supports, does not
change while the program runs.
-/

namespace Libcperciva.Alg.Sha256Hwaccel

open Libcperciva.Lib.Fips180
open Libcperciva.Alg.Sha256ArmModel
open Libcperciva.Alg.Sha256ArmTransform
open Libcperciva.Alg.Sha256Model
open Libcperciva.Alg.Sha256ShaniModel
open Libcperciva.Alg.Sha256ShaniTransform
open Libcperciva.Alg.Sha256Sse2Model
open Libcperciva.Alg.Sha256Sse2Transform
open Libcperciva.Alg.Sha256Transform

/-- The values of `hwaccel`. -/
inductive Hwaccel where
  | software
  | x86Shani
  | x86Sse2
  | armSha256
  | unset
deriving DecidableEq

/-- The results of `cpusupport_x86_shani() && cpusupport_x86_ssse3()`, of
`cpusupport_x86_sse2()` and of `cpusupport_arm_sha256()`; `none` where the code
is not compiled in. -/
structure Machine where
  cpusupportX86Shani : Option Bool
  cpusupportX86Sse2 : Option Bool
  cpusupportArmSha256 : Option Bool
  /-- The compiler is GCC, for 64-bit ARM. -/
  aarch64 : Bool

/-- `HWACCEL` is defined. -/
def Machine.hwaccel (machine : Machine) : Bool :=
  machine.cpusupportX86Shani.isSome || machine.cpusupportX86Sse2.isSome ||
    machine.cpusupportArmSha256.isSome

/-- A transform, with the arrays `W` and `S`. -/
abbrev Transform :=
  (Fin 8 → UInt32) → List UInt8 → Tmp32 → (Fin 8 → UInt32) × Tmp32

/-- `SHA256_Transform_shani_with_W_S`. -/
def shaniWithWS : Transform := fun state block tmp32 =>
  (sha256TransformShani state block, tmp32)

/-- `SHA256_Transform_arm_with_W_S`. -/
def armWithWS : Transform := fun state block tmp32 =>
  (sha256TransformArm state block, tmp32)

/-- `hwtest`: whether the results match. -/
def hwtest (state : Fin 8 → UInt32) (block : List UInt8) (tmp32 : Tmp32)
    (func : Transform) : Bool :=
  let (stateSw, tmp32) := sha256Transform state block tmp32
  let (stateHw, _) := func state block tmp32
  stateSw = stateHw

/-- `hwaccel_init`; `tmp32` is what `W` and `S` are before they are
initialized. -/
def hwaccelInit (machine : Machine) (tmp32 : Tmp32) (hwaccel : Hwaccel) :
    Hwaccel :=
  if hwaccel ≠ .unset then hwaccel
  else
    let block := (List.range 64).map UInt8.ofNat
    if machine.cpusupportX86Shani = some true ∧
        hwtest initialState block tmp32 shaniWithWS = true then .x86Shani
    else if machine.cpusupportX86Sse2 = some true ∧
        hwtest initialState block tmp32 sha256TransformSse2 = true then
      .x86Sse2
    else if machine.cpusupportArmSha256 = some true ∧
        hwtest initialState block tmp32 armWithWS = true then .armSha256
    else .software

/-- `SHA256_Transform`, all of it; `none` where the assertion that `hwaccel` is
set fails. -/
def transform (machine : Machine) (hwaccel : Hwaccel)
    (state : Fin 8 → UInt32) (block : List UInt8) (tmp32 : Tmp32) :
    Option ((Fin 8 → UInt32) × Tmp32) :=
  if machine.hwaccel = true ∧ machine.aarch64 = true ∧ hwaccel = .unset then
    none
  else
    match hwaccel with
    | .x86Shani => some (shaniWithWS state block tmp32)
    | .x86Sse2 => some (sha256TransformSse2 state block tmp32)
    | .armSha256 => some (armWithWS state block tmp32)
    | .software | .unset => some (sha256Transform state block tmp32)

/-- What `SHA256_Init` makes of `hwaccel`. -/
def initHwaccel (machine : Machine) (tmp32 : Tmp32) (hwaccel : Hwaccel) :
    Hwaccel :=
  if machine.hwaccel then hwaccelInit machine tmp32 hwaccel else hwaccel

/-- For each state and block, whatever is in `W` and `S`, the implementations
with SSE2, with SHANI and for ARM leave the state that the software leaves,
which is that of FIPS 180-4. -/
theorem sha256_transforms_agree (state : Fin 8 → UInt32) (block : List UInt8)
    (tmp32 : Tmp32) :
    (sha256Transform state block tmp32).1 = compress state block ∧
      (sha256TransformSse2 state block tmp32).1 = compress state block ∧
      sha256TransformShani state block = compress state block ∧
      sha256TransformArm state block = compress state block :=
  ⟨sha256Transform_eq_compress state block tmp32,
    sha256TransformSse2_eq_compress state block tmp32,
    sha256TransformShani_eq_compress state block,
    sha256TransformArm_eq_compress state block⟩

variable {machine : Machine} {hwaccel : Hwaccel}

/-- The test does not fail. -/
theorem hwtest_of_eq_compress {func : Transform}
    (computes : ∀ state block tmp32,
      (func state block tmp32).1 = compress state block)
    (state : Fin 8 → UInt32) (block : List UInt8) (tmp32 : Tmp32) :
    hwtest state block tmp32 func = true := by
  unfold hwtest
  dsimp only
  rw [computes, sha256Transform_eq_compress]
  exact decide_eq_true rfl

/-- The best that the machine supports. -/
def best (machine : Machine) : Hwaccel :=
  if machine.cpusupportX86Shani = some true then .x86Shani
  else if machine.cpusupportX86Sse2 = some true then .x86Sse2
  else if machine.cpusupportArmSha256 = some true then .armSha256
  else .software

theorem best_ne_unset (machine : Machine) : best machine ≠ .unset := by
  unfold best
  split_ifs <;> decide

theorem hwaccelInit_unset (machine : Machine) (tmp32 : Tmp32) :
    hwaccelInit machine tmp32 .unset = best machine := by
  have shani := @hwtest_of_eq_compress shaniWithWS fun state block _ =>
    sha256TransformShani_eq_compress state block
  have sse2 := hwtest_of_eq_compress sha256TransformSse2_eq_compress
  have arm := @hwtest_of_eq_compress armWithWS fun state block _ =>
    sha256TransformArm_eq_compress state block
  unfold hwaccelInit best
  simp only [shani, sse2, arm, and_true]
  rfl

/-- The values of `hwaccel` after calls of `SHA256_Init`, and whether there was
one. -/
inductive Reaches (machine : Machine) : Hwaccel → Bool → Prop where
  | start : Reaches machine .unset false
  | init {hwaccel : Hwaccel} {called : Bool} (tmp32 : Tmp32)
      (reaches : Reaches machine hwaccel called) :
      Reaches machine (initHwaccel machine tmp32 hwaccel) true

theorem Reaches.hwaccel_eq {called : Bool}
    (reaches : Reaches machine hwaccel called) :
    hwaccel = if machine.hwaccel = true ∧ called = true then best machine
      else .unset := by
  induction reaches with
  | start => exact (if_neg (by simp)).symm
  | @init hwaccel called tmp32 _ ih =>
      unfold initHwaccel
      by_cases compiled : machine.hwaccel = true
      · rw [if_pos compiled, if_pos ⟨compiled, rfl⟩]
        by_cases again : called = true
        · rw [if_pos ⟨compiled, again⟩] at ih
          rw [ih]
          exact if_pos (best_ne_unset machine)
        · rw [if_neg (fun both => again both.2)] at ih
          rw [ih]
          exact hwaccelInit_unset machine tmp32
      · rw [if_neg compiled, if_neg (fun both => compiled both.1)]
        rw [if_neg (fun both => compiled both.1)] at ih
        exact ih

/-- On every machine, calls of `SHA256_Init` choose the best implementation
that the machine supports, the first of them once and for all; and each
`SHA256_Transform` that comes after one computes the compression function of
FIPS 180-4, where no assertion fails. -/
theorem sha256_hwaccel_run {called : Bool}
    (reaches : Reaches machine hwaccel called) :
    hwaccel = (if machine.hwaccel = true ∧ called = true then best machine
      else .unset) ∧
    (called = true → ∀ state block tmp32,
      ∃ after, transform machine hwaccel state block tmp32 =
        some (compress state block, after)) := by
  have isHwaccel := reaches.hwaccel_eq
  refine ⟨isHwaccel, ?_⟩
  intro isCalled state block tmp32
  have isSet : ¬ (machine.hwaccel = true ∧ machine.aarch64 = true ∧
      hwaccel = .unset) := by
    rintro ⟨compiled, _, isUnset⟩
    rw [if_pos ⟨compiled, isCalled⟩] at isHwaccel
    exact best_ne_unset machine (isHwaccel.symm.trans isUnset)
  have computed {result : (Fin 8 → UInt32) × Tmp32}
      (computes : result.1 = compress state block) :
      ∃ after, some result = some (compress state block, after) :=
    ⟨result.2, by rw [← computes]⟩
  unfold transform
  rw [if_neg isSet]
  cases hwaccel with
  | x86Shani => exact computed (sha256TransformShani_eq_compress state block)
  | x86Sse2 =>
      exact computed (sha256TransformSse2_eq_compress state block tmp32)
  | armSha256 => exact computed (sha256TransformArm_eq_compress state block)
  | software | unset =>
      exact computed (sha256Transform_eq_compress state block tmp32)

/-- A machine with SSE2 but without SHANI. -/
theorem sha256_hwaccel_run_sse2 :
    let machine : Machine := ⟨some false, some true, none, false⟩
    let tmp32 : Tmp32 := ⟨fun _ => 0, fun _ => 0⟩
    Reaches machine .x86Sse2 true ∧ ∃ after,
      transform machine .x86Sse2 initialState (List.replicate 64 7) tmp32 =
        some (compress initialState (List.replicate 64 7), after) := by
  intro machine tmp32
  have reaches : Reaches machine .x86Sse2 true := by
    have first : Reaches machine (initHwaccel machine tmp32 .unset) true :=
      .init tmp32 .start
    have isBest : initHwaccel machine tmp32 .unset = .x86Sse2 :=
      hwaccelInit_unset machine tmp32
    rwa [isBest] at first
  exact ⟨reaches, (sha256_hwaccel_run reaches).2 rfl _ _ tmp32⟩

end Libcperciva.Alg.Sha256Hwaccel
