import Libcperciva.Lib.FinLiterals
import Libcperciva.Lib.Lanes
import Mathlib.Data.Fintype.Basic

/-!
# AES, as in FIPS 197

The sections of the standard are given where its text is translated.  A block
is sixteen bytes, column by column; a key is 16, 24 or 32 bytes.
-/

namespace Libcperciva.Lib.Aes

open Libcperciva.Lib.FinLiterals
open Libcperciva.Lib.Lanes

/-! ## Multiplication by `x` and the substitution box, sections 4.2.1 and 5.1.1 -/

def xtime (b : UInt8) : UInt8 :=
  if b &&& 0x80 = 0 then b <<< 1 else b <<< 1 ^^^ 0x1b

/-- Figure 7. -/
def sboxTable : List UInt8 := [
  0x63, 0x7c, 0x77, 0x7b, 0xf2, 0x6b, 0x6f, 0xc5,
  0x30, 0x01, 0x67, 0x2b, 0xfe, 0xd7, 0xab, 0x76,
  0xca, 0x82, 0xc9, 0x7d, 0xfa, 0x59, 0x47, 0xf0,
  0xad, 0xd4, 0xa2, 0xaf, 0x9c, 0xa4, 0x72, 0xc0,
  0xb7, 0xfd, 0x93, 0x26, 0x36, 0x3f, 0xf7, 0xcc,
  0x34, 0xa5, 0xe5, 0xf1, 0x71, 0xd8, 0x31, 0x15,
  0x04, 0xc7, 0x23, 0xc3, 0x18, 0x96, 0x05, 0x9a,
  0x07, 0x12, 0x80, 0xe2, 0xeb, 0x27, 0xb2, 0x75,
  0x09, 0x83, 0x2c, 0x1a, 0x1b, 0x6e, 0x5a, 0xa0,
  0x52, 0x3b, 0xd6, 0xb3, 0x29, 0xe3, 0x2f, 0x84,
  0x53, 0xd1, 0x00, 0xed, 0x20, 0xfc, 0xb1, 0x5b,
  0x6a, 0xcb, 0xbe, 0x39, 0x4a, 0x4c, 0x58, 0xcf,
  0xd0, 0xef, 0xaa, 0xfb, 0x43, 0x4d, 0x33, 0x85,
  0x45, 0xf9, 0x02, 0x7f, 0x50, 0x3c, 0x9f, 0xa8,
  0x51, 0xa3, 0x40, 0x8f, 0x92, 0x9d, 0x38, 0xf5,
  0xbc, 0xb6, 0xda, 0x21, 0x10, 0xff, 0xf3, 0xd2,
  0xcd, 0x0c, 0x13, 0xec, 0x5f, 0x97, 0x44, 0x17,
  0xc4, 0xa7, 0x7e, 0x3d, 0x64, 0x5d, 0x19, 0x73,
  0x60, 0x81, 0x4f, 0xdc, 0x22, 0x2a, 0x90, 0x88,
  0x46, 0xee, 0xb8, 0x14, 0xde, 0x5e, 0x0b, 0xdb,
  0xe0, 0x32, 0x3a, 0x0a, 0x49, 0x06, 0x24, 0x5c,
  0xc2, 0xd3, 0xac, 0x62, 0x91, 0x95, 0xe4, 0x79,
  0xe7, 0xc8, 0x37, 0x6d, 0x8d, 0xd5, 0x4e, 0xa9,
  0x6c, 0x56, 0xf4, 0xea, 0x65, 0x7a, 0xae, 0x08,
  0xba, 0x78, 0x25, 0x2e, 0x1c, 0xa6, 0xb4, 0xc6,
  0xe8, 0xdd, 0x74, 0x1f, 0x4b, 0xbd, 0x8b, 0x8a,
  0x70, 0x3e, 0xb5, 0x66, 0x48, 0x03, 0xf6, 0x0e,
  0x61, 0x35, 0x57, 0xb9, 0x86, 0xc1, 0x1d, 0x9e,
  0xe1, 0xf8, 0x98, 0x11, 0x69, 0xd9, 0x8e, 0x94,
  0x9b, 0x1e, 0x87, 0xe9, 0xce, 0x55, 0x28, 0xdf,
  0x8c, 0xa1, 0x89, 0x0d, 0xbf, 0xe6, 0x42, 0x68,
  0x41, 0x99, 0x2d, 0x0f, 0xb0, 0x54, 0xbb, 0x16]

def sbox (b : UInt8) : UInt8 := sboxTable.getD b.toNat 0

/-! ## The state and its transformations, sections 3.4 and 5.1 -/

/-- The state, by row and column. -/
abbrev State := Fin 4 → Fin 4 → UInt8

/-- A word is a column of four bytes. -/
abbrev Word := Fin 4 → UInt8

def subBytes (s : State) : State := fun r c => sbox (s r c)

def shiftRows (s : State) : State := fun r c => s r (c + r)

def mixColumns (s : State) : State := fun r c =>
  xtime (s r c) ^^^ (xtime (s (r + 1) c) ^^^ s (r + 1) c) ^^^ s (r + 2) c ^^^
    s (r + 3) c

def addRoundKey (k s : State) : State := fun r c => s r c ^^^ k r c

/-! ## The key schedule, section 5.2 -/

def rotWord (a : Word) : Word := fun r => a (r + 1)

def subWord (a : Word) : Word := fun r => sbox (a r)

def xorWord (a b : Word) : Word := fun r => a r ^^^ b r

/-- The word with `byte` in front. -/
def front (byte : UInt8) : Word := fun r => if r = 0 then byte else 0

def rcon (j : Nat) : Word := front (xtime^[j - 1] 1)

/-- Word `i` of a byte string. -/
def wordAt (bytes : List UInt8) (i : Nat) : Word :=
  fun r => bytes.getD (4 * i + r) 0

/-- Word `i` of the key schedule. -/
def schedule (key : List UInt8) (i : Nat) : Word :=
  let nk := key.length / 4
  if i < nk ∨ nk = 0 then wordAt key i
  else
    let temp := schedule key (i - 1)
    xorWord (schedule key (i - nk))
      (if i % nk = 0 then xorWord (subWord (rotWord temp)) (rcon (i / nk))
      else if nk > 6 ∧ i % nk = 4 then subWord temp
      else temp)
termination_by i

/-- Four words of the key schedule. -/
def roundKey (key : List UInt8) (i : Nat) : State :=
  fun r c => schedule key (4 * i + c) r

/-! ## The cipher, section 5.1 -/

/-- The first rounds. -/
def rounds (k : Nat → State) (s : State) : Nat → State
  | 0 => addRoundKey (k 0) s
  | n + 1 =>
      addRoundKey (k (n + 1))
        (mixColumns (shiftRows (subBytes (rounds k s n))))

def cipher (nr : Nat) (k : Nat → State) (s : State) : State :=
  addRoundKey (k nr) (shiftRows (subBytes (rounds k s (nr - 1))))

def ofBytes (bytes : List UInt8) : State := fun r c => wordAt bytes c r

def toBytes (s : State) : List UInt8 :=
  (List.range 16).map fun k => s (Fin.ofNat 4 k) (Fin.ofNat 4 (k / 4))

/-- A block encrypted. -/
def encrypt (key block : List UInt8) : List UInt8 :=
  toBytes (cipher (key.length / 4 + 6) (roundKey key) (ofBytes block))

/-! ## The state in a register -/

/-- Column `c` of a register. -/
def word (v : BitVec 128) (c : Nat) : Word :=
  fun r => UInt8.ofBitVec (lane 8 v (4 * c + r))

/-- The register with the given columns. -/
def ofWords (f : Nat → Word) : BitVec 128 :=
  ofLanes 128 8 fun k => (f (k / 4) (Fin.ofNat 4 k)).toBitVec

def state (v : BitVec 128) : State := fun r c => word v c r

def ofState (s : State) : BitVec 128 := ofWords fun c r => s r (Fin.ofNat 4 c)

variable {v v' t : BitVec 128} {c : Nat}

theorem word_ofWords (f : Nat → Word) (inside : c < 4) :
    word (ofWords f) c = f c := by
  funext r
  have isByte : 8 * (4 * c + r.val + 1) ≤ 128 := by omega
  have column : (4 * c + r.val) / 4 = c := by omega
  have row : Fin.ofNat 4 (4 * c + r.val) = r := by
    apply Fin.ext
    show (4 * c + r.val) % 4 = r.val
    omega
  unfold word ofWords
  rw [lane_ofLanes _ isByte, column, row]

/-- A column is a lane of 32 bits. -/
theorem word_lane (v : BitVec 128) (c : Nat) (r : Fin 4) :
    word v c r = UInt8.ofBitVec (lane 8 (lane 32 v c) r) :=
  congrArg UInt8.ofBitVec (lane_lane (w := 8) v r.isLt).symm

theorem state_ofState (s : State) : state (ofState s) = s := by
  funext r c
  unfold state ofState
  rw [word_ofWords _ c.isLt]
  exact congrArg (s r) (Fin.ext (Nat.mod_eq_of_lt c.isLt))

theorem word_xor (v v' : BitVec 128) (c : Nat) :
    word (v ^^^ v') c = xorWord (word v c) (word v' c) := by
  funext r
  unfold word xorWord
  rw [lane_xor, UInt8.ofBitVec_xor]

theorem state_xor (v k : BitVec 128) :
    state (v ^^^ k) = addRoundKey (state k) (state v) := by
  funext r c
  exact congrFun (word_xor v k c) r

/-- Sixteen bytes in a register. -/
theorem word_bytes (bytes : List UInt8) (inside : c < 4) :
    word (ofLanes 128 8 fun i => (bytes.getD i 0).toBitVec) c =
      wordAt bytes c := by
  funext r
  unfold word
  rw [lane_ofLanes _ (by omega)]
  rfl

theorem bytes_eq_toBytes (v : BitVec 128) :
    ((List.range 16).map fun i => UInt8.ofBitVec (lane 8 v i)) =
      toBytes (state v) := by
  apply List.map_congr_left
  intro k inside
  have isByte : k < 16 := List.mem_range.mp inside
  have place : 4 * (k / 4 % 4) + k % 4 = k := by omega
  unfold state word
  rw [Fin.val_ofNat, Fin.val_ofNat, place]

theorem wordAt_drop (bytes : List UInt8) (c d : Nat) :
    wordAt (bytes.drop (4 * d)) c = wordAt bytes (d + c) := by
  funext r
  have place : 4 * d + (4 * c + r.val) = 4 * (d + c) + r.val := by omega
  unfold wordAt
  rw [List.getD_eq_getElem?_getD, List.getElem?_drop, place,
    List.getD_eq_getElem?_getD]

theorem xorWord_zero (a : Word) : xorWord a (fun _ => 0) = a :=
  funext fun _ => UInt8.xor_zero

theorem xorWord_assoc (a b d : Word) :
    xorWord (xorWord a b) d = xorWord a (xorWord b d) :=
  funext fun r => UInt8.xor_assoc (a r) (b r) (d r)

/-- A shift by columns. -/
theorem word_shiftLeft (v : BitVec 128) (count : Nat) (inside : c < 4) :
    word (v <<< (8 * (4 * count))) c =
      if c < count then fun _ => 0 else word v (c - count) := by
  funext r
  have isByte : 8 * (4 * c + r.val + 1) ≤ 128 := by omega
  unfold word
  rw [lane_shiftLeft v (4 * count) isByte]
  by_cases low : c < count
  · rw [if_pos (by omega), if_pos low]
    rfl
  · have place : 4 * c + r.val - 4 * count = 4 * (c - count) + r.val := by
      omega
    rw [if_neg (by omega), if_neg low, place]

/-- Columns xored with earlier ones. -/
theorem word_xor_shiftLeft (v : BitVec 128) (count : Nat) (inside : c < 4) :
    word (v ^^^ v <<< (8 * (4 * count))) c =
      if c < count then word v c
      else xorWord (word v c) (word v (c - count)) := by
  rw [word_xor, word_shiftLeft v count inside]
  split_ifs
  · exact xorWord_zero (word v c)
  · rfl

/-! ## The key schedule in registers -/

/-- Each column is xored with all that are before it. -/
def runningXor (v : BitVec 128) : BitVec 128 :=
  let s := v ^^^ v <<< (8 * (4 * 1))
  s ^^^ s <<< (8 * (4 * 2))

theorem word_runningXor_zero (v : BitVec 128) :
    word (runningXor v) 0 = word v 0 := by
  unfold runningXor
  rw [word_xor_shiftLeft _ 2 (Nat.succ_pos 3), if_pos Nat.zero_lt_two,
    word_xor_shiftLeft _ 1 (Nat.succ_pos 3), if_pos Nat.zero_lt_one]

theorem word_runningXor_succ (v : BitVec 128) (inside : c + 1 < 4) :
    word (runningXor v) (c + 1) =
      xorWord (word v (c + 1)) (word (runningXor v) c) := by
  have shift (c : Nat) (inside : c + 1 < 4) :
      word (v ^^^ v <<< (8 * (4 * 1))) (c + 1) =
        xorWord (word v (c + 1)) (word v c) := by
    rw [word_xor_shiftLeft v 1 inside, if_neg (by omega), Nat.add_sub_cancel]
  have start : word (v ^^^ v <<< (8 * (4 * 1))) 0 = word v 0 := by
    rw [word_xor_shiftLeft v 1 (by omega), if_pos Nat.zero_lt_one]
  unfold runningXor
  rw [word_xor_shiftLeft _ 2 inside, word_xor_shiftLeft _ 2 (by omega)]
  rcases c with _ | _ | _ | c
  · rw [if_pos (by omega), if_pos (by omega), shift 0 inside, start]
  · rw [if_neg (by omega), if_pos (by omega), shift 1 inside, start,
      shift 0 (by omega), xorWord_assoc]
  · rw [if_neg (by omega), if_neg (by omega), shift 2 inside,
      shift 1 (by omega), shift 0 (by omega), start, xorWord_assoc,
      xorWord_assoc]
  · omega

variable {key : List UInt8} {i m : Nat} {temp : Word}

theorem schedule_first (first : i < key.length / 4) :
    schedule key i = wordAt key i := by
  unfold schedule
  exact if_pos (Or.inl first)

theorem schedule_later (positive : 0 < key.length / 4)
    (later : key.length / 4 ≤ i) :
    schedule key i = xorWord (schedule key (i - key.length / 4))
      (if i % (key.length / 4) = 0 then
        xorWord (subWord (rotWord (schedule key (i - 1))))
          (rcon (i / (key.length / 4)))
      else if key.length / 4 > 6 ∧ i % (key.length / 4) = 4 then
        subWord (schedule key (i - 1))
      else schedule key (i - 1)) := by
  conv => lhs; unfold schedule
  exact if_neg (by omega)

/-- A register holds round key `i`. -/
def Holds (key : List UInt8) (i : Nat) (v : BitVec 128) : Prop :=
  ∀ c < 4, word v c = schedule key (4 * i + c)

theorem Holds.state_eq (holds : Holds key i v) : state v = roundKey key i := by
  funext r c
  exact congrFun (holds c c.isLt) r

/-- The key itself. -/
theorem Holds.start (inside : 4 * i + 4 ≤ key.length / 4)
    (words : ∀ c < 4, word v c = wordAt key (4 * i + c)) : Holds key i v := by
  intro c isColumn
  rw [words c isColumn, schedule_first (by omega)]

/-- The next round key: `temp` is xored to the first column, and each column
to the one behind it. -/
theorem Holds.next (holds : Holds key i v) (words : ∀ c < 4, word t c = temp)
    (first : schedule key (4 * (i + m)) = xorWord (schedule key (4 * i)) temp)
    (others : ∀ c, c + 1 < 4 → schedule key (4 * (i + m) + (c + 1)) =
      xorWord (schedule key (4 * i + (c + 1)))
        (schedule key (4 * (i + m) + c))) :
    Holds key (i + m) (runningXor v ^^^ t) := by
  intro c
  induction c with
  | zero =>
      intro inside
      rw [word_xor, word_runningXor_zero, words 0 inside, holds 0 inside]
      exact first.symm
  | succ c ih =>
      intro inside
      have before : c < 4 := Nat.lt_of_succ_lt inside
      have last := ih before
      rw [word_xor, words c before] at last
      rw [word_xor, word_runningXor_succ v inside, words (c + 1) inside,
        xorWord_assoc, last, holds (c + 1) inside, others c inside]

/-- With 16 bytes a round key comes from the one before it. -/
theorem Holds.next_of_sixteen (short : key.length = 16) (holds : Holds key i v)
    (words : ∀ c < 4, word t c =
      xorWord (subWord (rotWord (word v 3))) (rcon (i + 1))) :
    Holds key (i + 1) (runningXor v ^^^ t) := by
  apply holds.next words
  · rw [schedule_later (by omega) (by omega), short, if_pos (by omega),
      holds 3 (by omega)]
    have place : 4 * (i + 1) - 1 = 4 * i + 3 := by omega
    have before : 4 * (i + 1) - 16 / 4 = 4 * i := by omega
    have number : 4 * (i + 1) / (16 / 4) = i + 1 := by omega
    rw [place, before, number]
  · intro c inside
    rw [schedule_later (by omega) (by omega), short, if_neg (by omega),
      if_neg (by omega)]
    have before : 4 * (i + 1) + (c + 1) - 16 / 4 = 4 * i + (c + 1) := by omega
    rw [before]
    rfl

/-- With 32 bytes it comes from the two before it. -/
theorem Holds.next_of_thirtyTwo {u : BitVec 128} (long : key.length = 32)
    (holds : Holds key i v) (last : Holds key (i + 1) u)
    (words : ∀ c < 4, word t c =
      if i % 2 = 0 then
        xorWord (subWord (rotWord (word u 3))) (rcon ((i + 2) / 2))
      else subWord (word u 3)) :
    Holds key (i + 2) (runningXor v ^^^ t) := by
  apply holds.next words
  · rw [schedule_later (by omega) (by omega), long, last 3 (by omega)]
    have place : 4 * (i + 2) - 1 = 4 * (i + 1) + 3 := by omega
    have before : 4 * (i + 2) - 32 / 4 = 4 * i := by omega
    have number : 4 * (i + 2) / (32 / 4) = (i + 2) / 2 := by omega
    rw [place, before, number]
    by_cases even : i % 2 = 0
    · rw [if_pos (by omega), if_pos even]
    · rw [if_neg (by omega), if_pos (by omega), if_neg even]
  · intro c inside
    rw [schedule_later (by omega) (by omega), long, if_neg (by omega),
      if_neg (by omega)]
    have before : 4 * (i + 2) + (c + 1) - 32 / 4 = 4 * i + (c + 1) := by omega
    rw [before]
    rfl

end Libcperciva.Lib.Aes
