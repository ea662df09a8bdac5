import Libcperciva.Util.B64Blocks

/-!
# Base 64 forth and back

The strings that `b64decode` accepts are those which have the alphabet, the
length and the padding of base 64.  It undoes `b64encode`; `b64encode` undoes
it for the strings whose last character has no unused bits.
-/

namespace Libcperciva.Util.B64RoundTrip

open Libcperciva.Util.SizeT
open Libcperciva.Util.B64Model
open Libcperciva.Util.B64Blocks

variable {s out : List UInt8} {c : UInt8}

/-! ## What is accepted -/

/-- Characters that stand for bits, and `'='`s at the end. -/
structure Padded (s body : List UInt8) (k : Nat) : Prop where
  split : s = body ++ List.replicate k 61
  areChars : ∀ c ∈ body, IsChar c

theorem Padded.inAlphabet {body : List UInt8} {k : Nat}
    (padded : Padded s body k) : ∀ c ∈ s, c ∈ b64chars := by
  intro c member
  rw [padded.split] at member
  rcases List.mem_append.mp member with inBody | isPad
  · exact (padded.areChars c inBody).1
  · rw [List.eq_of_mem_replicate isPad]
    decide

theorem countDead_char (isChar : IsChar c) :
    countDead (c :: s) 0 = countDead s 0 := by
  have found : ¬ (c = 0 ∨ strchr b64chars c = none) := by
    rintro (isZero | missing)
    · exact isChar_ne_zero isChar isZero
    · unfold strchr at missing
      rw [if_pos isChar.1] at missing
      exact Option.some_ne_none _ missing
  have noDead : ¬ (c ≠ 61 ∧ 0 > 0) := fun both =>
    absurd both.2 (Nat.lt_irrefl 0)
  rw [countDead, if_neg found]
  dsimp only
  rw [if_neg isChar.2, if_neg noDead]

theorem countDead_pad (deadbytes : Nat) :
    countDead (61 :: s) deadbytes = countDead s (deadbytes + 1) := by
  have found : ¬ ((61 : UInt8) = 0 ∨ strchr b64chars 61 = none) := by decide
  rw [countDead, if_neg found]
  dsimp only
  rw [if_pos rfl, if_neg (fun both => absurd rfl both.1)]

theorem countDead_other (deadbytes : Nat) (other : c ≠ 61) :
    countDead (c :: s) (deadbytes + 1) = none := by
  rw [countDead]
  split_ifs with missing
  · rfl
  · rw [if_pos ⟨other, Nat.succ_pos _⟩]

theorem countDead_pads (k deadbytes : Nat) :
    countDead (List.replicate k 61) deadbytes = some (deadbytes + k) := by
  induction k generalizing deadbytes with
  | zero => rfl
  | succ k ih =>
      rw [List.replicate_succ, countDead_pad, ih]
      congr 1
      omega

theorem Padded.countDead {body : List UInt8} {k : Nat}
    (padded : Padded s body k) : countDead s 0 = some k := by
  obtain ⟨rfl, areChars⟩ := padded
  induction body with
  | nil => rw [List.nil_append, countDead_pads, Nat.zero_add]
  | cons c body ih =>
      rw [List.cons_append, countDead_char (areChars c List.mem_cons_self)]
      exact ih fun c member => areChars c (List.mem_cons_of_mem _ member)

theorem pads_of_countDead {deadbytes k : Nat} (positive : 0 < deadbytes)
    (counted : countDead s deadbytes = some k) :
    s = List.replicate s.length 61 ∧ k = deadbytes + s.length := by
  induction s generalizing deadbytes with
  | nil => exact ⟨rfl, (Option.some.inj counted).symm⟩
  | cons c s ih =>
      obtain ⟨deadbytes, rfl⟩ :=
        Nat.exists_eq_succ_of_ne_zero (Nat.ne_of_gt positive)
      by_cases isPad : c = 61
      · subst isPad
        rw [countDead_pad] at counted
        obtain ⟨rest, total⟩ := ih (Nat.succ_pos _) counted
        rw [List.length_cons, List.replicate_succ, ← rest]
        exact ⟨rfl, by omega⟩
      · rw [countDead_other deadbytes isPad] at counted
        exact absurd counted nofun

/-- The valid inputs, and the number of their dead bytes. -/
theorem countDead_iff {k : Nat} :
    countDead s 0 = some k ↔ ∃ body, Padded s body k := by
  constructor
  · intro counted
    induction s with
    | nil =>
        obtain rfl := Option.some.inj counted
        exact ⟨[], rfl, fun c member => absurd member List.not_mem_nil⟩
    | cons c s ih =>
        by_cases isPad : c = 61
        · subst isPad
          rw [countDead_pad] at counted
          obtain ⟨rest, rfl⟩ := pads_of_countDead Nat.zero_lt_one counted
          refine ⟨[], ?_, fun c member => absurd member List.not_mem_nil⟩
          rw [Nat.add_comm, List.replicate_succ, ← rest]
          rfl
        · by_cases isChar : IsChar c
          · rw [countDead_char isChar] at counted
            obtain ⟨body, split, areChars⟩ := ih counted
            refine ⟨c :: body, congrArg (c :: ·) split, ?_⟩
            intro d member
            rcases List.mem_cons.mp member with rfl | later
            · exact isChar
            · exact areChars d later
          · have missing : strchr b64chars c = none :=
              if_neg fun member => isChar ⟨member, isPad⟩
            rw [countDead, if_pos (Or.inr missing)] at counted
            exact absurd counted nofun
  · rintro ⟨body, padded⟩
    exact padded.countDead

/-- A string that is base 64: its length is a multiple of four, its characters
are in the alphabet, and at most two `'='`s are all at the end. -/
def Accepted (s : List UInt8) : Prop :=
  s.length % 4 = 0 ∧ (∀ c ∈ s, c ∈ b64chars) ∧
    ∃ body k, s = body ++ List.replicate k 61 ∧ 61 ∉ body ∧ k ≤ 2

theorem accepted_iff :
    Accepted s ↔ s.length % 4 = 0 ∧ ∃ body k, Padded s body k ∧ k ≤ 2 := by
  constructor
  · rintro ⟨length, inAlphabet, body, k, split, noPad, few⟩
    refine ⟨length, body, k, ⟨split, fun c member => ?_⟩, few⟩
    refine ⟨inAlphabet c ?_, fun isPad => noPad (isPad ▸ member)⟩
    rw [split]
    exact List.mem_append_left _ member
  · rintro ⟨length, body, k, padded, few⟩
    refine ⟨length, padded.inAlphabet, body, k, padded.split, ?_, few⟩
    intro member
    exact (padded.areChars 61 member).2 rfl

/-- A string that is accepted is decoded. -/
theorem b64decode_accepted {body : List UInt8} {k : Nat} (outlen : Nat)
    (length : s.length % 4 = 0) (padded : Padded s body k) (few : k ≤ 2)
    (room : s.length / 4 * 3 ≤ out.length) (size : s.length < 2 ^ 64) :
    (decodeBytes s).length = s.length / 4 * 3 ∧
      b64decode s out outlen =
        .ok (0, decodeBytes s ++ out.drop (s.length / 4 * 3),
          s.length / 4 * 3 - k) := by
  have isMultiple : s.length = 4 * (s.length / 4) := by omega
  have deadInside : k ≤ 3 * (s.length / 4) := by
    have atMost : k ≤ s.length := by
      have total := congrArg List.length padded.split
      rw [List.length_append, List.length_replicate] at total
      omega
    omega
  obtain ⟨lengthBytes, decoded⟩ := decodeLoop_spec (n := 0) isMultiple
    padded.inAlphabet (by omega : 3 * (s.length / 4) ≤ out.length) (by omega)
  rw [Nat.mul_comm 3] at lengthBytes decoded deadInside
  refine ⟨lengthBytes, ?_⟩
  unfold b64decode
  rw [if_neg (not_not_intro length), padded.countDead]
  dsimp only
  rw [if_neg (Nat.not_lt.mpr few), decoded]
  change Except.ok (_, _, sizeSub (0 + s.length / 4 * 3) k) = _
  rw [Nat.zero_add, sizeSub_eq deadInside (by omega)]

/-- A string that is not accepted is not decoded. -/
theorem b64decode_rejected (outlen : Nat) (rejected : ¬ Accepted s) :
    b64decode s out outlen = .ok (1, out, outlen) := by
  unfold b64decode
  by_cases length : s.length % 4 = 0
  · rw [if_neg (not_not_intro length)]
    cases counted : countDead s 0 with
    | none => rfl
    | some k =>
        dsimp only
        rw [if_pos]
        by_contra few
        obtain ⟨body, padded⟩ := countDead_iff.mp counted
        exact rejected (accepted_iff.mpr
          ⟨length, body, k, padded, Nat.not_lt.mp few⟩)
  · rw [if_pos length]

/-! ## What is encoded is decoded -/

theorem isChar_char {v : Nat} (small : v < 64) : IsChar (char v) :=
  (char_spec small).1

theorem sextet_char_of_lt {v : Nat} (small : v < 64) :
    sextet (char v) = v := by
  rw [sextet_char (isChar_char small), (char_spec small).2]

theorem sextet_pad : sextet 61 = 0 := by decide

/-- The bytes of a block are the bytes that were encoded. -/
theorem decodeBlock_three (b0 b1 b2 : UInt8) :
    decodeBlock (char (b0.toNat / 4))
        (char (b0.toNat % 4 * 16 + b1.toNat / 16))
        (char (b1.toNat % 16 * 4 + b2.toNat / 64)) (char (b2.toNat % 64)) =
      [b0, b1, b2] := by
  have small0 := b0.toNat_lt
  have small1 := b1.toNat_lt
  have small2 := b2.toNat_lt
  unfold decodeBlock
  rw [sextet_char_of_lt (by omega), sextet_char_of_lt (by omega),
    sextet_char_of_lt (by omega), sextet_char_of_lt (by omega)]
  have first : b0.toNat / 4 * 4 +
      (b0.toNat % 4 * 16 + b1.toNat / 16) / 16 = b0.toNat := by omega
  have second : (b0.toNat % 4 * 16 + b1.toNat / 16) % 16 * 16 +
      (b1.toNat % 16 * 4 + b2.toNat / 64) / 4 = b1.toNat := by omega
  have third : (b1.toNat % 16 * 4 + b2.toNat / 64) % 4 * 64 +
      b2.toNat % 64 = b2.toNat := by omega
  rw [first, second, third, UInt8.ofNat_toNat, UInt8.ofNat_toNat,
    UInt8.ofNat_toNat]

theorem decodeBlock_two (b0 b1 : UInt8) :
    decodeBlock (char (b0.toNat / 4))
        (char (b0.toNat % 4 * 16 + b1.toNat / 16))
        (char (b1.toNat % 16 * 4)) 61 =
      [b0, b1, 0] := by
  have small0 := b0.toNat_lt
  have small1 := b1.toNat_lt
  unfold decodeBlock
  rw [sextet_char_of_lt (by omega), sextet_char_of_lt (by omega),
    sextet_char_of_lt (by omega), sextet_pad]
  have first : b0.toNat / 4 * 4 +
      (b0.toNat % 4 * 16 + b1.toNat / 16) / 16 = b0.toNat := by omega
  have second : (b0.toNat % 4 * 16 + b1.toNat / 16) % 16 * 16 +
      b1.toNat % 16 * 4 / 4 = b1.toNat := by omega
  have third : b1.toNat % 16 * 4 % 4 * 64 + 0 = 0 := by omega
  rw [first, second, third, UInt8.ofNat_toNat, UInt8.ofNat_toNat]
  rfl

theorem decodeBlock_one (b0 : UInt8) :
    decodeBlock (char (b0.toNat / 4)) (char (b0.toNat % 4 * 16)) 61 61 =
      [b0, 0, 0] := by
  have small0 := b0.toNat_lt
  unfold decodeBlock
  rw [sextet_char_of_lt (by omega), sextet_char_of_lt (by omega), sextet_pad]
  have first : b0.toNat / 4 * 4 + b0.toNat % 4 * 16 / 16 = b0.toNat := by
    omega
  have second : b0.toNat % 4 * 16 % 16 * 16 + 0 / 4 = 0 := by omega
  rw [first, second, UInt8.ofNat_toNat]
  rfl

/-- The characters of a string of bytes, and the bytes of the characters. -/
structure Encoding (x s body : List UInt8) (k : Nat) : Prop where
  written : b64encode x = s ++ [0]
  length : s.length = (x.length + 2) / 3 * 4
  padded : Padded s body k
  few : k ≤ 2
  decoded : decodeBytes s = x ++ List.replicate k 0

theorem b64encode_encoding :
    (x : List UInt8) → ∃ s body k, Encoding x s body k
  | [] => ⟨[], [], 0, b64encode_nil, rfl,
      ⟨rfl, fun _ member => absurd member List.not_mem_nil⟩, by decide, rfl⟩
  | [b0] => by
      have small0 := b0.toNat_lt
      refine ⟨_, [char (b0.toNat / 4), char (b0.toNat % 4 * 16)], 2,
        b64encode_one b0, by simp, ⟨rfl, ?_⟩, by decide, ?_⟩
      · intro c member
        simp only [List.mem_cons, List.not_mem_nil, or_false] at member
        rcases member with rfl | rfl
        · exact isChar_char (by omega)
        · exact isChar_char (by omega)
      · exact congrArg (· ++ []) (decodeBlock_one b0)
  | [b0, b1] => by
      have small0 := b0.toNat_lt
      have small1 := b1.toNat_lt
      refine ⟨_, [char (b0.toNat / 4),
        char (b0.toNat % 4 * 16 + b1.toNat / 16),
        char (b1.toNat % 16 * 4)], 1,
        b64encode_two b0 b1, by simp, ⟨rfl, ?_⟩, by decide, ?_⟩
      · intro c member
        simp only [List.mem_cons, List.not_mem_nil, or_false] at member
        rcases member with rfl | rfl | rfl
        · exact isChar_char (by omega)
        · exact isChar_char (by omega)
        · exact isChar_char (by omega)
      · exact congrArg (· ++ []) (decodeBlock_two b0 b1)
  | b0 :: b1 :: b2 :: x => by
      have small0 := b0.toNat_lt
      have small1 := b1.toNat_lt
      have small2 := b2.toNat_lt
      obtain ⟨s, body, k, rest⟩ := b64encode_encoding x
      refine ⟨char (b0.toNat / 4) ::
        char (b0.toNat % 4 * 16 + b1.toNat / 16) ::
        char (b1.toNat % 16 * 4 + b2.toNat / 64) ::
        char (b2.toNat % 64) :: s,
        char (b0.toNat / 4) ::
        char (b0.toNat % 4 * 16 + b1.toNat / 16) ::
        char (b1.toNat % 16 * 4 + b2.toNat / 64) ::
        char (b2.toNat % 64) :: body, k, ?_, ?_, ⟨?_, ?_⟩, rest.few, ?_⟩
      · rw [b64encode_three, rest.written]
        rfl
      · simp only [List.length_cons, rest.length]
        omega
      · rw [rest.padded.split]
        rfl
      · intro c member
        simp only [List.mem_cons] at member
        rcases member with rfl | rfl | rfl | rfl | later
        · exact isChar_char (by omega)
        · exact isChar_char (by omega)
        · exact isChar_char (by omega)
        · exact isChar_char (by omega)
        · exact rest.padded.areChars c later
      · change decodeBlock _ _ _ _ ++ decodeBytes s = _
        rw [decodeBlock_three, rest.decoded]
        rfl

/-- What `b64encode` writes is decoded to the bytes that were encoded. -/
theorem b64decode_b64encode (x : List UInt8) (outlen : Nat)
    (room : (x.length + 2) / 3 * 3 ≤ out.length)
    (size : (x.length + 2) / 3 * 4 < 2 ^ 64) :
    ∃ s out', b64encode x = s ++ [0] ∧ s.length = (x.length + 2) / 3 * 4 ∧
      b64decode s out outlen = .ok (0, out', x.length) ∧
      out'.take x.length = x := by
  obtain ⟨s, body, k, encoding⟩ := b64encode_encoding x
  have length := encoding.length
  have blocks : s.length / 4 * 3 = (x.length + 2) / 3 * 3 := by
    rw [length, Nat.mul_div_cancel _ (by decide)]
  have roomBytes : s.length / 4 * 3 ≤ out.length := by omega
  obtain ⟨lengthBytes, decoded⟩ := b64decode_accepted outlen (by omega)
    encoding.padded encoding.few roomBytes (by omega)
  have total : x.length + k = s.length / 4 * 3 := by
    rw [← lengthBytes, encoding.decoded, List.length_append,
      List.length_replicate]
  refine ⟨s, decodeBytes s ++ out.drop (s.length / 4 * 3), encoding.written,
    length, ?_, ?_⟩
  · rw [decoded, ← total, Nat.add_sub_cancel]
  · rw [encoding.decoded, List.append_assoc, List.take_left]

/-! ## What is decoded is encoded -/

theorem char_eq_iff {v : Nat} (isChar : IsChar c) (small : v < 64) :
    char v = c ↔ v = value c := by
  constructor
  · rintro rfl
    exact (char_spec small).2.symm
  · rintro rfl
    exact (value_spec isChar).2

section Block

variable (c0 c1 c2 c3 : UInt8)

/-- The bytes of a block, as numbers. -/
theorem decodeBlock_toNat :
    ∃ b0 b1 b2 : UInt8, decodeBlock c0 c1 c2 c3 = [b0, b1, b2] ∧
      b0.toNat = sextet c0 * 4 + sextet c1 / 16 ∧
      b1.toNat = sextet c1 % 16 * 16 + sextet c2 / 4 ∧
      b2.toNat = sextet c2 % 4 * 64 + sextet c3 := by
  have small0 := sextet_lt c0
  have small1 := sextet_lt c1
  have small2 := sextet_lt c2
  have small3 := sextet_lt c3
  refine ⟨_, _, _, rfl, ?_, ?_, ?_⟩
  · rw [UInt8.toNat_ofNat']
    omega
  · rw [UInt8.toNat_ofNat']
    omega
  · rw [UInt8.toNat_ofNat']
    omega

variable {c0 c1 c2 c3}

/-- A block of four characters is what its three bytes are encoded to. -/
theorem b64encode_decodeBlock (isChar0 : IsChar c0) (isChar1 : IsChar c1)
    (isChar2 : IsChar c2) (isChar3 : IsChar c3) (x : List UInt8) :
    b64encode (decodeBlock c0 c1 c2 c3 ++ x) =
      c0 :: c1 :: c2 :: c3 :: b64encode x := by
  obtain ⟨b0, b1, b2, bytes, is0, is1, is2⟩ := decodeBlock_toNat c0 c1 c2 c3
  have small0 := sextet_lt c0
  have small1 := sextet_lt c1
  have small2 := sextet_lt c2
  have small3 := sextet_lt c3
  rw [sextet_char isChar0, sextet_char isChar1] at *
  rw [sextet_char isChar2] at is1 is2 small2
  rw [sextet_char isChar3] at is2 small3
  have first := (char_eq_iff (v := b0.toNat / 4) isChar0 (by omega)).mpr
    (by omega)
  have second := (char_eq_iff (v := b0.toNat % 4 * 16 + b1.toNat / 16)
    isChar1 (by omega)).mpr (by omega)
  have third := (char_eq_iff (v := b1.toNat % 16 * 4 + b2.toNat / 64)
    isChar2 (by omega)).mpr (by omega)
  have fourth := (char_eq_iff (v := b2.toNat % 64) isChar3 (by omega)).mpr
    (by omega)
  rw [bytes]
  change b64encode (b0 :: b1 :: b2 :: x) = _
  rw [b64encode_three, first, second, third, fourth]

/-- With one `'='`, the third character has two bits that are not used. -/
theorem b64encode_decodeBlock_two (isChar0 : IsChar c0) (isChar1 : IsChar c1)
    (isChar2 : IsChar c2) :
    b64encode ((decodeBlock c0 c1 c2 61).take 2) = [c0, c1, c2, 61, 0] ↔
      value c2 % 4 = 0 := by
  obtain ⟨b0, b1, b2, bytes, is0, is1, -⟩ := decodeBlock_toNat c0 c1 c2 61
  have small0 := sextet_lt c0
  have small1 := sextet_lt c1
  have small2 := sextet_lt c2
  rw [sextet_char isChar0, sextet_char isChar1] at *
  rw [sextet_char isChar2] at is1 small2
  have first := (char_eq_iff (v := b0.toNat / 4) isChar0 (by omega)).mpr
    (by omega)
  have second := (char_eq_iff (v := b0.toNat % 4 * 16 + b1.toNat / 16)
    isChar1 (by omega)).mpr (by omega)
  rw [bytes]
  change b64encode [b0, b1] = _ ↔ _
  rw [b64encode_two, first, second, List.cons_inj_right, List.cons_inj_right,
    List.cons.injEq, char_eq_iff isChar2 (by omega)]
  constructor
  · rintro ⟨same, -⟩
    omega
  · intro unused
    exact ⟨by omega, rfl⟩

/-- With two `'='`s, the second character has four bits that are not used. -/
theorem b64encode_decodeBlock_one (isChar0 : IsChar c0)
    (isChar1 : IsChar c1) :
    b64encode ((decodeBlock c0 c1 61 61).take 1) = [c0, c1, 61, 61, 0] ↔
      value c1 % 16 = 0 := by
  obtain ⟨b0, b1, b2, bytes, is0, -, -⟩ := decodeBlock_toNat c0 c1 61 61
  have small0 := sextet_lt c0
  have small1 := sextet_lt c1
  rw [sextet_char isChar0, sextet_char isChar1] at *
  have first := (char_eq_iff (v := b0.toNat / 4) isChar0 (by omega)).mpr
    (by omega)
  rw [bytes]
  change b64encode [b0] = _ ↔ _
  rw [b64encode_one, first, List.cons_inj_right, List.cons.injEq,
    char_eq_iff isChar1 (by omega)]
  constructor
  · rintro ⟨same, -⟩
    omega
  · intro unused
    exact ⟨by omega, rfl⟩

end Block

/-- The bits of the last character that no byte has are zero. -/
def LastUnused (body : List UInt8) (k : Nat) : Prop :=
  ∀ c, body.getLast? = some c → value c % 4 ^ k = 0

theorem lastUnused_zero (body : List UInt8) : LastUnused body 0 :=
  fun c _ => Nat.mod_one (value c)

theorem lastUnused_concat {k : Nat} (body : List UInt8) :
    LastUnused (body ++ [c]) k ↔ value c % 4 ^ k = 0 := by
  unfold LastUnused
  rw [List.getLast?_concat]
  constructor
  · intro all
    exact all c rfl
  · intro unused d isLast
    exact Option.some.inj isLast ▸ unused

/-- The law of the last block. -/
theorem encode_last_iff {body : List UInt8} {k : Nat} (length : s.length = 4)
    (padded : Padded s body k) (few : k ≤ 2) :
    b64encode ((decodeBytes s).take (3 - k)) = s ++ [0] ↔
      LastUnused body k := by
  obtain ⟨rfl, areChars⟩ := padded
  rw [List.length_append, List.length_replicate] at length
  match k, few, body, length, areChars with
  | 0, _, [c0, c1, c2, c3], _, areChars =>
      have same := b64encode_decodeBlock (areChars c0 (by simp))
        (areChars c1 (by simp)) (areChars c2 (by simp))
        (areChars c3 (by simp)) []
      rw [b64encode_nil] at same
      exact ⟨fun _ => lastUnused_zero _, fun _ => same⟩
  | 1, _, [c0, c1, c2], _, areChars =>
      exact (b64encode_decodeBlock_two (areChars c0 (by simp))
        (areChars c1 (by simp)) (areChars c2 (by simp))).trans
        (lastUnused_concat (c := c2) (k := 1) [c0, c1]).symm
  | 2, _, [c0, c1], _, areChars =>
      exact (b64encode_decodeBlock_one (areChars c0 (by simp))
        (areChars c1 (by simp))).trans (lastUnused_concat (c := c1) (k := 2) [c0]).symm

/-- The law of all blocks: those before the last one are always encoded to
what they were. -/
theorem encode_decode_iff {body : List UInt8} {k m : Nat}
    (length : s.length = 4 * m) (padded : Padded s body k) (few : k ≤ 2) :
    b64encode ((decodeBytes s).take (3 * m - k)) = s ++ [0] ↔
      LastUnused body k := by
  induction m generalizing s body with
  | zero =>
      have nothing : s = [] := List.eq_nil_of_length_eq_zero length
      subst nothing
      obtain ⟨rfl, -⟩ := List.append_eq_nil_iff.mp padded.split.symm
      have noBytes : (decodeBytes []).take (3 * 0 - k) = [] := List.take_nil
      rw [noBytes]
      refine ⟨fun _ c isLast => ?_, fun _ => b64encode_nil⟩
      exact absurd isLast nofun
  | succ m ih =>
      by_cases isLast : m = 0
      · subst isLast
        exact encode_last_iff length padded few
      · obtain ⟨split, areChars⟩ := padded
        have total := congrArg List.length split
        rw [List.length_append, List.length_replicate] at total
        rcases body with _ | ⟨c0, _ | ⟨c1, _ | ⟨c2, _ | ⟨c3, body⟩⟩⟩⟩
        all_goals simp only [List.length_nil, List.length_cons] at total
        · omega
        · omega
        · omega
        · omega
        · subst split
          have later : Padded (body ++ List.replicate k 61) body k :=
            ⟨rfl, fun c member => areChars c (by simp [member])⟩
          have lengthLater : (body ++ List.replicate k 61).length = 4 * m := by
            rw [List.length_append, List.length_replicate]
            omega
          have rest := ih lengthLater later
          have nonempty : body ≠ [] := by
            rintro rfl
            rw [List.nil_append, List.length_replicate] at lengthLater
            omega
          have sameLast : LastUnused (c0 :: c1 :: c2 :: c3 :: body) k ↔
              LastUnused body k := by
            unfold LastUnused
            rw [List.getLast?_cons_cons, List.getLast?_cons_cons,
              List.getLast?_cons_cons, List.getLast?_cons_of_ne_nil nonempty]
          have bytes : (decodeBytes (c0 :: c1 :: c2 :: c3 ::
                (body ++ List.replicate k 61))).take (3 * (m + 1) - k) =
              decodeBlock c0 c1 c2 c3 ++
                (decodeBytes (body ++ List.replicate k 61)).take
                  (3 * m - k) := by
            have block : (decodeBlock c0 c1 c2 c3).length = 3 := rfl
            have turns : 3 * (m + 1) - k =
                (decodeBlock c0 c1 c2 c3).length + (3 * m - k) := by omega
            rw [turns]
            exact List.take_length_add_append (3 * m - k)
          change b64encode ((decodeBytes (c0 :: c1 :: c2 :: c3 ::
            (body ++ List.replicate k 61))).take (3 * (m + 1) - k)) =
              c0 :: c1 :: c2 :: c3 :: (body ++ List.replicate k 61 ++ [0]) ↔ _
          rw [bytes, b64encode_decodeBlock (areChars c0 (by simp))
            (areChars c1 (by simp)) (areChars c2 (by simp))
            (areChars c3 (by simp)), List.cons_inj_right,
            List.cons_inj_right, List.cons_inj_right, List.cons_inj_right,
            rest, sameLast]

/-- The low bits of the last character that is not `'='` are zero where no
byte has them: two bits for each `'='`. -/
def Canonical (s : List UInt8) : Prop :=
  LastUnused (s.filter (· ≠ 61)) (s.count 61)

theorem Padded.canonical_iff {body : List UInt8} {k : Nat}
    (padded : Padded s body k) : Canonical s ↔ LastUnused body k := by
  obtain ⟨rfl, areChars⟩ := padded
  have noPad : (61 : UInt8) ∉ body := fun member => (areChars 61 member).2 rfl
  have others : (body ++ List.replicate k 61).filter (· ≠ 61) = body := by
    rw [List.filter_append, List.filter_replicate_of_neg (by decide),
      List.append_nil, List.filter_eq_self]
    intro c member
    exact decide_eq_true (areChars c member).2
  have pads : (body ++ List.replicate k 61).count (61 : UInt8) = k := by
    rw [List.count_append, List.count_replicate_self,
      List.count_eq_zero.mpr noPad, Nat.zero_add]
  unfold Canonical
  rw [others, pads]

/-- **`b64encode` and `b64decode`.**  Any bytes are encoded to four characters
for every three of them, and decoded from these.  The strings that are decoded
are those of the alphabet, the length and the padding of base 64; nothing is
written behind three bytes for every four characters; and what a string is
decoded to is encoded to that string just if the unused bits of its last
character are zero. -/
theorem b64_round_trips :
    (∀ (x out : List UInt8) (outlen : Nat),
      (x.length + 2) / 3 * 4 < 2 ^ 64 →
      (x.length + 2) / 3 * 3 ≤ out.length →
      ∃ s out', b64encode x = s ++ [0] ∧ s.length = (x.length + 2) / 3 * 4 ∧
        b64decode s out outlen = .ok (0, out', x.length) ∧
        out'.take x.length = x) ∧
    ∀ (s out : List UInt8) (outlen : Nat), s.length < 2 ^ 64 →
      s.length / 4 * 3 ≤ out.length →
      ∃ status out' outlen', b64decode s out outlen =
          .ok (status, out', outlen') ∧
        (status = 0 ↔ Accepted s) ∧
        out'.length = out.length ∧
        out'.drop (s.length / 4 * 3) = out.drop (s.length / 4 * 3) ∧
        (status = 0 →
          (b64encode (out'.take outlen') = s ++ [0] ↔ Canonical s)) := by
  constructor
  · intro x out outlen size room
    exact b64decode_b64encode x outlen room size
  · intro s out outlen size room
    by_cases accepted : Accepted s
    · obtain ⟨length, body, k, padded, few⟩ := accepted_iff.mp accepted
      obtain ⟨lengthBytes, decoded⟩ := b64decode_accepted outlen length padded
        few room size
      refine ⟨0, _, _, decoded, iff_of_true rfl accepted, ?_, ?_, fun _ => ?_⟩
      · rw [List.length_append, lengthBytes, List.length_drop]
        omega
      · rw [← lengthBytes, List.drop_left]
      · have inside : s.length / 4 * 3 - k ≤ (decodeBytes s).length := by
          omega
        rw [List.take_append_of_le_length inside, padded.canonical_iff,
          Nat.mul_comm (s.length / 4)]
        exact encode_decode_iff (by omega) padded few
    · refine ⟨1, out, outlen, b64decode_rejected outlen accepted,
        iff_of_false (by decide) accepted, rfl, rfl, fun success => ?_⟩
      exact absurd success (by decide)

/-- `"f"` and `"Zh=="`, whose last character has an unused bit. -/
theorem b64_round_trips_f :
    (∃ s out', b64encode [102] = s ++ [0] ∧ s.length = 4 ∧
      b64decode s [0, 0, 0] 7 = .ok (0, out', 1) ∧ out'.take 1 = [102]) ∧
    ∃ status out' outlen', b64decode [90, 104, 61, 61] [0, 0, 0] 7 =
        .ok (status, out', outlen') ∧
      (status = 0 ↔ Accepted [90, 104, 61, 61]) ∧
      out'.length = 3 ∧ out'.drop 3 = [] ∧
      (status = 0 →
        (b64encode (out'.take outlen') = [90, 104, 61, 61] ++ [0] ↔
          Canonical [90, 104, 61, 61])) :=
  ⟨b64_round_trips.1 [102] [0, 0, 0] 7 (by decide) (by decide),
    b64_round_trips.2 [90, 104, 61, 61] [0, 0, 0] 7 (by decide) (by decide)⟩

end Libcperciva.Util.B64RoundTrip
