import Libcperciva.Alg.Md5Model
import Libcperciva.Alg.Sha256Transform
import Libcperciva.Lib.Md5

/-!
# The block function of MD5

Each call of a round function is an operation.
-/

namespace Libcperciva.Alg.Md5Transform

open Libcperciva.Lib
open Libcperciva.Lib.FinLiterals
open Libcperciva.Util.Sysendian
open Libcperciva.Alg.Sha256Transform (be32dec_eq_word)
open Libcperciva.Alg.CountedModel
open Libcperciva.Alg.Md5Model

variable {block : List UInt8} {v S : Fin 4 → UInt32}

/-! ## Functions and constants -/

theorem F_eq : F = Md5.F := by
  funext x y z
  unfold F Md5.F
  apply UInt32.toBitVec_inj.mp
  ext i
  simp only [UInt32.toBitVec_xor, UInt32.toBitVec_and, UInt32.toBitVec_or,
    UInt32.toBitVec_not, BitVec.getElem_xor, BitVec.getElem_and,
    BitVec.getElem_or, BitVec.getElem_not]
  cases x.toBitVec[i] <;> cases y.toBitVec[i] <;> cases z.toBitVec[i] <;> rfl

theorem G_eq : G = Md5.G := by
  funext x y z
  unfold G Md5.G
  apply UInt32.toBitVec_inj.mp
  ext i
  simp only [UInt32.toBitVec_xor, UInt32.toBitVec_and, UInt32.toBitVec_or,
    UInt32.toBitVec_not, BitVec.getElem_xor, BitVec.getElem_and,
    BitVec.getElem_or, BitVec.getElem_not]
  cases x.toBitVec[i] <;> cases y.toBitVec[i] <;> cases z.toBitVec[i] <;> rfl

theorem I_eq : I = Md5.I := by
  funext x y z
  exact UInt32.xor_comm _ _

/-- `le32dec` reads a word. -/
theorem le32dec_eq_word (k : Nat) :
    le32dec (fun j => block.getD (k * 4 + j) 0) = Md5.word block k := by
  have reversed := @be32dec_eq_word
    [block.getD (k * 4 + 3) 0, block.getD (k * 4 + 2) 0,
      block.getD (k * 4 + 1) 0, block.getD (k * 4) 0] 0
  unfold Md5.word
  rw [Nat.mul_comm 4 k]
  exact reversed

/-- The words of the block. -/
theorem decVect_eq_word (k : Nat) :
    decVect le32dec block (Fin.ofNat 16 k) = Md5.word block (k % 16) :=
  le32dec_eq_word (k % 16)

theorem ffCalls_eq : ffCalls = (List.range 16).map fun j =>
    (16 * 0 + j, (Md5.shifts 0).getD (j % 4) 0, Md5.T (16 * 0 + j + 1)) := by
  decide +kernel

theorem ggCalls_eq : ggCalls = (List.range 16).map fun j =>
    (16 * 1 + j, (Md5.shifts 1).getD (j % 4) 0, Md5.T (16 * 1 + j + 1)) := by
  decide +kernel

theorem hhCalls_eq : hhCalls = (List.range 16).map fun j =>
    (16 * 2 + j, (Md5.shifts 2).getD (j % 4) 0, Md5.T (16 * 2 + j + 1)) := by
  decide +kernel

theorem iiCalls_eq : iiCalls = (List.range 16).map fun j =>
    (16 * 3 + j, (Md5.shifts 3).getD (j % 4) 0, Md5.T (16 * 3 + j + 1)) := by
  decide +kernel

/-! ## Rounds -/

/-- The numbers of the words in operation `t`. -/
theorem ofNat_sub (r : Nat) {t : Nat} (few : t ≤ 64) :
    Fin.ofNat 4 (64 + r - t) = 0 - Fin.ofNat 4 t + Fin.ofNat 4 r := by
  apply Fin.ext
  show (64 + r - t) % 4 = ((4 - t % 4 + 0) % 4 + r % 4) % 4
  omega

/-- A round function for a rotating state is an operation. -/
theorem stepr_operation {q j k : Nat} {W : Fin 16 → UInt32} (round : q < 4)
    (few : j < 16)
    (message : W (Fin.ofNat 16 k) =
      Md5.word block ((Md5.order q).getD j 0)) :
    stepr (step (Md5.function q)) k S W (16 * q + j)
        ((Md5.shifts q).getD (j % 4) 0) (Md5.T (16 * q + j + 1)) =
      Md5.operation block (16 * q + j) S := by
  have quotient : (16 * q + j) / 16 = q := by omega
  have remainder : (16 * q + j) % 16 = j := by omega
  have place : (16 * q + j) % 4 = j % 4 := by omega
  have within : 16 * q + j ≤ 64 := by omega
  have first : (0 : Fin 4) - Fin.ofNat 4 (16 * q + j) + Fin.ofNat 4 0 =
      0 - Fin.ofNat 4 (16 * q + j) :=
    add_zero _
  unfold stepr Md5.operation step
  rw [show 64 - (16 * q + j) = 64 + 0 - (16 * q + j) from rfl,
    ofNat_sub 0 within, first,
    show 65 - (16 * q + j) = 64 + 1 - (16 * q + j) from rfl,
    ofNat_sub 1 within,
    show 66 - (16 * q + j) = 64 + 2 - (16 * q + j) from rfl,
    ofNat_sub 2 within,
    show 67 - (16 * q + j) = 64 + 3 - (16 * q + j) from rfl,
    ofNat_sub 3 within, message, quotient, remainder, place,
    ← UInt32.add_assoc]
  rfl

/-- Sixteen operations. -/
theorem calls_operations {q : Nat} {k : Nat → Nat}
    {opr : (Fin 4 → UInt32) → (Fin 16 → UInt32) → Nat → UInt32 → UInt32 →
      Fin 4 → UInt32}
    (isStep : ∀ S W i s T,
      opr S W i s T = stepr (step (Md5.function q)) (k i) S W i s T)
    (round : q < 4)
    (ordered : ∀ j : Fin 16,
      (Md5.order q).getD j 0 = k (16 * q + j) % 16)
    (before : S = Md5.operations block v (16 * q)) :
    calls opr (decVect le32dec block)
        ((List.range 16).map fun j =>
          (16 * q + j, (Md5.shifts q).getD (j % 4) 0,
            Md5.T (16 * q + j + 1))) S =
      Md5.operations block v (16 * (q + 1)) := by
  have some : ∀ count, count ≤ 16 →
      (List.range count).foldl
          (fun S j => opr S (decVect le32dec block) (16 * q + j)
            ((Md5.shifts q).getD (j % 4) 0) (Md5.T (16 * q + j + 1))) S =
        Md5.operations block v (16 * q + count) := by
    intro count
    induction count with
    | zero => exact fun _ => before
    | succ count ih =>
        intro few
        have message : decVect le32dec block
            (Fin.ofNat 16 (k (16 * q + count))) =
              Md5.word block ((Md5.order q).getD count 0) := by
          rw [decVect_eq_word, ← ordered ⟨count, few⟩]
        rw [List.range_succ, List.foldl_append, ih (by omega)]
        show opr _ _ _ _ _ = _
        rw [isStep, stepr_operation round few message]
        rfl
  unfold calls
  rw [List.foldl_map]
  exact some 16 (Nat.le_refl 16)

/-- `MD5_Transform` is the block function. -/
theorem md5Transform_eq_compress : md5Transform = Md5.compress := by
  funext v block i
  have first := @calls_operations block v v 0 (fun i => i * 1 + 0) FFr
    (by rw [show Md5.function 0 = F from F_eq.symm]; exact fun _ _ _ _ _ => rfl)
    (by decide) (by decide) rfl
  have second := @calls_operations block v _ 1 (fun i => i * 5 + 1) GGr
    (by rw [show Md5.function 1 = G from G_eq.symm]; exact fun _ _ _ _ _ => rfl)
    (by decide) (by decide) first
  have third := @calls_operations block v _ 2 (fun i => i * 3 + 5) HHr
    (fun _ _ _ _ _ => rfl) (by decide) (by decide) second
  have fourth := @calls_operations block v _ 3 (fun i => i * 7 + 0) IIr
    (by rw [show Md5.function 3 = I from I_eq.symm]; exact fun _ _ _ _ _ => rfl)
    (by decide) (by decide) third
  rw [← ffCalls_eq, ← ggCalls_eq, ← hhCalls_eq, ← iiCalls_eq] at fourth
  unfold Md5.compress
  rw [show 64 = 16 * (3 + 1) from rfl, ← fourth]
  exact UInt32.add_comm _ _

end Libcperciva.Alg.Md5Transform
