import Libcperciva.Lib.Aes

/-!
# Expanded keys

The implementations with special instructions keep the round keys in an array
of fifteen registers, which they compute in order, and have the state of the
cipher in a register, on which they do one round after the other.
-/

namespace Libcperciva.Crypto.AesExpanded

open Libcperciva.Lib.Aes
open Libcperciva.Lib.FinLiterals
open Libcperciva.Lib.Lanes

/-! ## Steps with consecutive numbers -/

section

variable {α : Type}

/-- Steps are done with the numbers from `start` on. -/
def repeated (f : Nat → α → α) (start : Nat) (a : α) : Nat → α
  | 0 => a
  | count + 1 => f (start + count) (repeated f start a count)

/-- What each step hands on to the next one holds after all of them. -/
theorem repeated_spec {P : Nat → α → Prop} {f : Nat → α → α} {start last : Nat}
    {a : α} (next : ∀ n a, start ≤ n → n < last → P n a → P (n + 1) (f n a))
    (initial : P start a) (count : Nat) (within : start + count ≤ last) :
    P (start + count) (repeated f start a count) := by
  induction count with
  | zero => exact initial
  | succ count ih =>
      apply next
      · exact Nat.le_add_right start count
      · exact within
      · exact ih (Nat.le_of_succ_le within)

end

/-! ## Key expansion -/

/-- The first round keys are there. -/
def Expanded (key : List UInt8) (count : Nat)
    (rkeys : Vector (BitVec 128) 15) : Prop :=
  ∀ j < count, Holds key j (rkeys.get (Fin.ofNat 15 j))

variable {key : List UInt8} {rkeys : Vector (BitVec 128) 15}

theorem Expanded.set {v : BitVec 128} (i : Fin 15)
    (expanded : Expanded key i rkeys) (holds : Holds key i v) :
    Expanded key (i + 1) (rkeys.set i v i.isLt) := by
  intro j before
  have inside : j < 15 := by omega
  have place : (Fin.ofNat 15 j).val = j := Nat.mod_eq_of_lt inside
  have entry : (rkeys.set i v i.isLt).get (Fin.ofNat 15 j) =
      if i.val = (Fin.ofNat 15 j).val then v
      else rkeys.get (Fin.ofNat 15 j) :=
    Vector.getElem_set i.isLt (Fin.ofNat 15 j).isLt
  rw [entry]
  by_cases isLast : i.val = (Fin.ofNat 15 j).val
  · rw [if_pos isLast, ← isLast.trans place]
    exact holds
  · rw [if_neg isLast]
    rw [place] at isLast
    exact expanded j (by omega)

/-- The first round key is the key. -/
theorem Expanded.start {v : BitVec 128} (long : 16 ≤ key.length)
    (words : ∀ c < 4, word v c = wordAt key c) :
    Expanded key 1 (rkeys.set 0 v (Nat.succ_pos 14)) := by
  apply Expanded.set (0 : Fin 15)
  · intro j before
    exact absurd before (Nat.not_lt_zero j)
  · exact Holds.start (by omega) fun c inside =>
      (words c inside).trans (congrArg _ (Nat.zero_add c).symm)

/-- With 32 bytes the second one is the rest of the key. -/
theorem Expanded.second {v : BitVec 128} (long : key.length = 32)
    (words : ∀ c < 4, word v c = wordAt (key.drop 16) c)
    (expanded : Expanded key 1 rkeys) :
    Expanded key 2
      (rkeys.set 1 v (Nat.succ_lt_succ (Nat.succ_pos 13))) :=
  Expanded.set (1 : Fin 15) expanded <|
    Holds.start (by omega) fun c inside =>
      (words c inside).trans (wordAt_drop key c 4)

/-- The next round key of a key of 16 bytes. -/
theorem Expanded.next_of_sixteen {t : BitVec 128} (short : key.length = 16)
    (i : Fin 15) (positive : 0 < i.val) (expanded : Expanded key i rkeys)
    (words : ∀ c < 4, word t c = xorWord
      (subWord (rotWord (word (rkeys.get (i - 1)) 3))) (rcon i)) :
    Expanded key (i + 1)
      (rkeys.set i (runningXor (rkeys.get (i - 1)) ^^^ t) i.isLt) := by
  have before : i - 1 = Fin.ofNat 15 (i.val - 1) := by
    apply Fin.ext
    show (15 - 1 + i.val) % 15 = (i.val - 1) % 15
    omega
  have number : i.val - 1 + 1 = i.val := by omega
  rw [before] at words ⊢
  apply expanded.set i
  have next := (expanded (i.val - 1) (by omega)).next_of_sixteen short
    fun c inside => (words c inside).trans (by rw [number])
  rwa [number] at next

/-- The next round key of a key of 32 bytes. -/
theorem Expanded.next_of_thirtyTwo {t : BitVec 128} (long : key.length = 32)
    (i : Fin 15) (positive : 2 ≤ i.val) (expanded : Expanded key i rkeys)
    (words : ∀ c < 4, word t c =
      if i.val % 2 = 0 then xorWord
        (subWord (rotWord (word (rkeys.get (i - 1)) 3))) (rcon (i / 2))
      else subWord (word (rkeys.get (i - 1)) 3)) :
    Expanded key (i + 1)
      (rkeys.set i (runningXor (rkeys.get (i - 2)) ^^^ t) i.isLt) := by
  have before : i - 1 = Fin.ofNat 15 (i.val - 2 + 1) := by
    apply Fin.ext
    show (15 - 1 + i.val) % 15 = (i.val - 2 + 1) % 15
    omega
  have twoBefore : i - 2 = Fin.ofNat 15 (i.val - 2) := by
    apply Fin.ext
    show (15 - 2 + i.val) % 15 = (i.val - 2) % 15
    omega
  have number : i.val - 2 + 2 = i.val := by omega
  have parity : i.val % 2 = (i.val - 2) % 2 := by omega
  rw [before] at words
  simp only [parity] at words
  rw [twoBefore]
  apply expanded.set i
  have last := expanded (i.val - 2 + 1) (by omega)
  have next := (expanded (i.val - 2) (by omega)).next_of_thirtyTwo long last
    fun c inside => (words c inside).trans (by rw [number])
  rwa [number] at next

/-- The round keys are computed one after the other. -/
theorem Expanded.steps {start : Nat}
    (mkrkey : Fin 15 → Vector (BitVec 128) 15 → Vector (BitVec 128) 15)
    (next : ∀ (i : Fin 15) rkeys, start ≤ i.val → Expanded key i rkeys →
      Expanded key (i + 1) (mkrkey i rkeys))
    (initial : Expanded key start rkeys) (count : Nat)
    (within : start + count ≤ 15) :
    Expanded key (start + count)
      (repeated (fun n => mkrkey (Fin.ofNat 15 n)) start rkeys count) := by
  apply repeated_spec _ initial count within
  intro n rkeys isLater inside expanded
  have place : (Fin.ofNat 15 n).val = n := Nat.mod_eq_of_lt inside
  have step := next (Fin.ofNat 15 n) rkeys
  rw [place] at step
  exact step isLater expanded

/-! ## Encryption -/

/-- The register with the state of the cipher, as bytes. -/
theorem encrypt_of_state {v : BitVec 128} {block : List UInt8} {nr : Nat}
    (isRounds : nr = key.length / 4 + 6)
    (encrypted : state v = cipher nr (roundKey key)
      (state (ofLanes 128 8 fun i => (block.getD i 0).toBitVec))) :
    ((List.range 16).map fun i => UInt8.ofBitVec (lane 8 v i)) =
      encrypt key block := by
  have loaded : state (ofLanes 128 8 fun i => (block.getD i 0).toBitVec) =
      ofBytes block := by
    funext r c
    exact congrFun (word_bytes block c.isLt) r
  unfold encrypt
  rw [bytes_eq_toBytes, encrypted, loaded, isRounds]

end Libcperciva.Crypto.AesExpanded
