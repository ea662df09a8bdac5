import Libcperciva.Alg.Sha256ArmModel
import Libcperciva.Alg.Sha256Transform
import Libcperciva.Lib.Fips180Lanes

/-!
# The SHA-256 instructions of ARM compute the compression function

One register holds the working variables `a` to `d`, and the other one `e` to
`h`.
-/

namespace Libcperciva.Alg.Sha256ArmTransform

open Libcperciva.Intrinsics.Neon
open Libcperciva.Lib.Fips180
open Libcperciva.Lib.Fips180Lanes
open Libcperciva.Lib.FinLiterals
open Libcperciva.Lib.Lanes
open Libcperciva.Alg.Sha256ArmModel
open Libcperciva.Alg.Sha256Transform

variable {block : List UInt8} {hash v : Fin 8 → UInt32} {i t : Nat}

/-! ## Rounds -/

/-- The registers hold the working variables. -/
structure InOrder (v : Fin 8 → UInt32) (X Y : Uint32x4) : Prop where
  abcd : ∀ c < 4, lane32 X c = v (Fin.ofNat 8 c)
  efgh : ∀ c < 4, lane32 Y c = v (Fin.ofNat 8 (4 + c))

variable {state : Hashing}

/-- One round. -/
theorem InOrder.step (inOrder : InOrder v state.X state.Y) (k w : UInt32) :
    InOrder (round k w v) (sha256Step state (w + k)).X
      (sha256Step state (w + k)).Y := by
  have a := inOrder.abcd 0 (by decide)
  have b := inOrder.abcd 1 (by decide)
  have c := inOrder.abcd 2 (by decide)
  have d := inOrder.abcd 3 (by decide)
  have e := inOrder.efgh 0 (by decide)
  have f := inOrder.efgh 1 (by decide)
  have g := inOrder.efgh 2 (by decide)
  have h := inOrder.efgh 3 (by decide)
  constructor
  · intro j inside
    unfold sha256Step
    dsimp only
    rw [lane32_ofLanes32 _ inside, a, b, c, e, f, g, h]
    rcases j with _ | _ | _ | _ | j
    · show v 7 + bigSigma1 (v 4) + ch (v 4) (v 5) (v 6) + (w + k) +
          bigSigma0 (v 0) + maj (v 0) (v 1) (v 2) =
        v 7 + bigSigma1 (v 4) + ch (v 4) (v 5) (v 6) + k + w +
          (bigSigma0 (v 0) + maj (v 0) (v 1) (v 2))
      ac_rfl
    · exact a
    · exact b
    · exact c
    · omega
  · intro j inside
    unfold sha256Step
    dsimp only
    rw [lane32_ofLanes32 _ inside, d, e, f, g, h]
    rcases j with _ | _ | _ | _ | j
    · show v 7 + bigSigma1 (v 4) + ch (v 4) (v 5) (v 6) + (w + k) + v 3 =
        v 3 + (v 7 + bigSigma1 (v 4) + ch (v 4) (v 5) (v 6) + k + w)
      ac_rfl
    · exact e
    · exact f
    · exact g
    · omega

/-- The registers of the loop: the words of `Y` are for the next rounds. -/
structure Holds (block : List UInt8) (hash : Fin 8 → UInt32) (i : Nat)
    (state : Mixing) : Prop where
  S : InOrder (rounds block hash i) state.S0 state.S1
  Y0 : Words block i state.Y0
  Y1 : Words block (i + 4) state.Y1
  Y2 : Words block (i + 8) state.Y2
  Y3 : Words block (i + 12) state.Y3

/-- `RND4`. -/
theorem rnd4_inOrder {state : Mixing} {M : Uint32x4}
    (inOrder : InOrder (rounds block hash t) state.S0 state.S1)
    (words : Words block t M) (inside : t + 4 ≤ 64) :
    InOrder (rounds block hash (t + 4)) (rnd4 state M (krndFrom t)).S0
      (rnd4 state M (krndFrom t)).S1 := by
  have sum (c : Nat) (isWord : c < 4) :
      lane32 (vaddqU32 M (vld1qU32 (krndFrom t))) c =
        schedule block (t + c) + roundConstant (t + c) := by
    unfold vaddqU32 vld1qU32 krndFrom
    rw [lane32_ofLanes32 _ isWord, lane32_ofLanes32 _ isWord, words c isWord,
      krnd_eq_roundConstant, Fin.val_ofNat, Nat.mod_eq_of_lt (by omega)]
  have start : InOrder (rounds block hash t)
      (Hashing.mk state.S0 state.S1).X (Hashing.mk state.S0 state.S1).Y :=
    inOrder
  have done := (((start.step (roundConstant t) (schedule block t)).step
    (roundConstant (t + 1)) (schedule block (t + 1))).step
    (roundConstant (t + 2)) (schedule block (t + 2))).step
    (roundConstant (t + 3)) (schedule block (t + 3))
  unfold rnd4 vsha256hqU32 vsha256h2qU32 sha256hash
  dsimp only
  rw [sum 0 (by decide), sum 1 (by decide), sum 2 (by decide),
    sum 3 (by decide)]
  exact done

/-! ## The message schedule -/

/-- `MSG4`. -/
theorem msg4_words {X0 X1 X2 X3 : Uint32x4} (words0 : Words block t X0)
    (words1 : Words block (t + 4) X1) (words2 : Words block (t + 8) X2)
    (words3 : Words block (t + 12) X3) :
    Words block (t + 16) (msg4 X0 X1 X2 X3) := by
  have half (c : Nat) (inside : c < 4) :
      lane32 (vsha256su0qU32 X0 X1) c =
        smallSigma0 (schedule block (t + 1 + c)) + schedule block (t + c) := by
    unfold vsha256su0qU32
    rw [lane32_ofLanes32 _ inside, words0 c inside]
    split_ifs with low
    · have place : t + (c + 1) = t + 1 + c := by omega
      rw [words0 (c + 1) (by omega), place]
    · obtain rfl : c = 3 := by omega
      rw [words1 0 (by decide)]
  have seven (c : Nat) (inside : c < 4) :
      (if c < 3 then lane32 X2 (c + 1) else lane32 X3 0) =
        schedule block (t + 9 + c) := by
    split_ifs with low
    · have place : t + 8 + (c + 1) = t + 9 + c := by omega
      rw [words2 (c + 1) (by omega), place]
    · obtain rfl : c = 3 := by omega
      exact words3 0 (by decide)
  have total (c : Nat) (inside : c < 4) :
      lane32 (msg4 X0 X1 X2 X3) c = smallSigma1 (if c < 2 then
          lane32 X3 (c + 2) else lane32 (msg4 X0 X1 X2 X3) (c - 2)) +
        lane32 (vsha256su0qU32 X0 X1) c +
        (if c < 3 then lane32 X2 (c + 1) else lane32 X3 0) := by
    unfold msg4 vsha256su1qU32
    dsimp only
    rw [lane32_ofLanes32 _ inside, lane32_ofLanes32 _ (by omega)]
    rcases c with _ | _ | _ | _ | c
    · rfl
    · rfl
    · rfl
    · rfl
    · omega
  apply Words.next
  intro c inside
  rw [total c inside, half c inside, seven c inside]
  split_ifs with early
  · have place : t + 12 + (c + 2) = t + 14 + c := by omega
    rw [words3 (c + 2) (by omega), place]
    ac_rfl
  · ac_rfl

/-! ## The function -/

theorem vrev32qU8_words {d : Nat} (inside : d + 4 ≤ 16) :
    Words block d (vrev32qU8 (vld1qU8 (block.drop (4 * d)))) := by
  apply Words.start inside
  intro j isByte
  unfold vrev32qU8 vld1qU8
  rw [lane_ofLanes _ (by omega), lane_ofLanes _ (by omega)]

/-- Sixteen rounds. -/
theorem Holds.rnd16 {state : Mixing} (holds : Holds block hash i state)
    (inside : i + 16 ≤ 64) :
    InOrder (rounds block hash (i + 16)) (rnd16 state i).S0
      (rnd16 state i).S1 := by
  have first := rnd4_inOrder holds.S holds.Y0 (by omega)
  have second := rnd4_inOrder first holds.Y1 (by omega)
  have third := rnd4_inOrder second holds.Y2 (by omega)
  exact rnd4_inOrder third holds.Y3 (by omega)

/-- The rounds leave the message schedule alone. -/
theorem rnd16_Y (state : Mixing) (i : Nat) :
    (rnd16 state i).Y0 = state.Y0 ∧ (rnd16 state i).Y1 = state.Y1 ∧
      (rnd16 state i).Y2 = state.Y2 ∧ (rnd16 state i).Y3 = state.Y3 :=
  ⟨rfl, rfl, rfl, rfl⟩

/-- The next sixteen words. -/
theorem Holds.msg16 {state : Mixing} (inOrder :
      InOrder (rounds block hash (i + 16)) state.S0 state.S1)
    (words0 : Words block i state.Y0) (words1 : Words block (i + 4) state.Y1)
    (words2 : Words block (i + 8) state.Y2)
    (words3 : Words block (i + 12) state.Y3) :
    Holds block hash (i + 16) (msg16 state) := by
  have next0 := msg4_words words0 words1 words2 words3
  have next1 := msg4_words words1 words2 words3 next0
  have next2 := msg4_words words2 words3 next0 next1
  have next3 := msg4_words words3 next0 next1 next2
  exact ⟨inOrder, next0, next1, next2, next3⟩

/-- The loop does the rounds that are left. -/
theorem Holds.mixArm {turns : Nat} {state : Mixing}
    (holds : Holds block hash i state) (left : i + 16 * turns = 64)
    (more : turns ≠ 0) :
    InOrder (rounds block hash 64) (mixArm state i turns).S0
      (mixArm state i turns).S1 := by
  induction turns generalizing i state with
  | zero => exact absurd rfl more
  | succ turns ih =>
      have mixed := holds.rnd16 (by omega)
      unfold Sha256ArmModel.mixArm
      dsimp only
      by_cases isLast : i = 48
      · rw [if_pos isLast]
        subst isLast
        exact mixed
      · obtain ⟨same0, same1, same2, same3⟩ := rnd16_Y state i
        rw [if_neg isLast]
        apply ih _ (by omega) (by omega)
        apply Holds.msg16 mixed
        · exact same0.symm ▸ holds.Y0
        · exact same1.symm ▸ holds.Y1
        · exact same2.symm ▸ holds.Y2
        · exact same3.symm ▸ holds.Y3

/-- `SHA256_Transform_arm` leaves the state that the compression function of
FIPS 180-4 gives. -/
theorem sha256TransformArm_eq_compress (hash : Fin 8 → UInt32)
    (block : List UInt8) :
    sha256TransformArm hash block = compress hash block := by
  have loaded : InOrder hash (vld1qU32 fun i => hash (Fin.ofNat 8 i))
      (vld1qU32 fun i => hash (Fin.ofNat 8 (4 + i))) :=
    ⟨fun _ inside => lane32_ofLanes32 _ inside,
      fun _ inside => lane32_ofLanes32 _ inside⟩
  have holds : Holds block hash 0 ⟨_, _, _, _, _, _⟩ :=
    ⟨loaded, vrev32qU8_words (by decide), vrev32qU8_words (by decide),
      vrev32qU8_words (by decide), vrev32qU8_words (by decide)⟩
  have done := @Holds.mixArm block hash 0 4 _ holds rfl (by decide)
  funext r
  unfold sha256TransformArm vst1qU32 vaddqU32 compress
  by_cases low : r.val < 4
  · have place : Fin.ofNat 8 r.val = r := Fin.ext (Nat.mod_eq_of_lt r.isLt)
    have sum := congrArg₂ (· + ·) (loaded.abcd r low) (done.abcd r low)
    rw [place] at sum
    rw [if_pos low, lane32_ofLanes32 _ low]
    exact sum.trans (UInt32.add_comm _ _)
  · have place : Fin.ofNat 8 (4 + (r.val - 4)) = r := by
      apply Fin.ext
      show (4 + (r.val - 4)) % 8 = r.val
      omega
    have inside : r.val - 4 < 4 := by omega
    have sum := congrArg₂ (· + ·) (loaded.efgh _ inside) (done.efgh _ inside)
    rw [place] at sum
    rw [if_neg low, lane32_ofLanes32 _ inside]
    exact sum.trans (UInt32.add_comm _ _)

end Libcperciva.Alg.Sha256ArmTransform
