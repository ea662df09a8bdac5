import Libcperciva.Util.B64Model
import Mathlib.Data.Bool.AllAny
import Mathlib.Data.List.Basic
import Mathlib.Tactic.Common

/-!
# The blocks of base 64

Three bytes and four characters are two ways to write 24 bits.  The functions
work on such blocks; what they do with a whole string follows by induction on
the number of blocks.
-/

namespace Libcperciva.Util.B64Blocks

open Libcperciva.Util.SizeT
open Libcperciva.Util.B64Model

variable {s out : List UInt8} {c : UInt8} {v n len : Nat} {t : UInt32}

/-! ## The alphabet -/

/-- The character of six bits. -/
def char (v : Nat) : UInt8 := b64chars.getD v 0

/-- The six bits of a character. -/
def value (c : UInt8) : Nat := b64chars.idxOf c

/-- The characters that stand for six bits. -/
def IsChar (c : UInt8) : Prop := c ∈ b64chars ∧ c ≠ 61

instance : DecidablePred IsChar := fun _ => inferInstanceAs (Decidable (_ ∧ _))

theorem char_spec (small : v < 64) : IsChar (char v) ∧ value (char v) = v := by
  have all : ∀ v ∈ List.range 64, IsChar (char v) ∧ value (char v) = v := by
    decide
  exact all v (List.mem_range.mpr small)

theorem value_spec (isChar : IsChar c) : value c < 64 ∧ char (value c) = c := by
  have all : ∀ c ∈ b64chars, c ≠ 61 → value c < 64 ∧ char (value c) = c :=
    List.all_iff_forall_prop.mp (by decide)
  exact all c isChar.1 isChar.2

theorem isChar_ne_zero (isChar : IsChar c) : c ≠ 0 := by
  rintro rfl
  exact absurd isChar (by decide)

/-! ## The 24 bits of a block -/

theorem toNat_push8 (b : UInt8) (fits : t.toNat < 2 ^ 16) :
    ((t <<< 8) + b.toUInt32).toNat = t.toNat * 256 + b.toNat := by
  have small := b.toNat_lt
  rw [UInt32.toNat_add, UInt32.toNat_shiftLeft, UInt8.toNat_toUInt32]
  change (t.toNat <<< 8 % 2 ^ 32 + b.toNat) % 2 ^ 32 = _
  rw [Nat.shiftLeft_eq]
  omega

theorem toNat_shift8 (fits : t.toNat < 2 ^ 16) :
    (t <<< 8).toNat = t.toNat * 256 := by
  rw [UInt32.toNat_shiftLeft]
  change t.toNat <<< 8 % 2 ^ 32 = _
  rw [Nat.shiftLeft_eq]
  omega

/-- Six bits of a block. -/
theorem toNat_sextet (t : UInt32) :
    ((t >>> 18) &&& 0x3f).toNat = t.toNat / 2 ^ 18 % 64 := by
  rw [UInt32.toNat_and, UInt32.toNat_shiftRight]
  change t.toNat >>> 18 &&& (2 ^ 6 - 1) = _
  rw [Nat.and_two_pow_sub_one_eq_mod, Nat.shiftRight_eq_div_pow]

theorem toNat_shift6 (t : UInt32) :
    (t <<< 6).toNat = t.toNat * 64 % 2 ^ 32 := by
  rw [UInt32.toNat_shiftLeft]
  change t.toNat <<< 6 % 2 ^ 32 = _
  rw [Nat.shiftLeft_eq]

/-- The bits of up to three bytes. -/
def bits : List UInt8 → Nat
  | [b0] => b0.toNat * 65536
  | [b0, b1] => b0.toNat * 65536 + b1.toNat * 256
  | b0 :: b1 :: b2 :: _ => b0.toNat * 65536 + b1.toNat * 256 + b2.toNat
  | [] => 0

theorem bits_lt (s : List UInt8) : bits s < 2 ^ 24 := by
  unfold bits
  split
  · next b0 =>
      have := b0.toNat_lt
      omega
  · next b0 b1 =>
      have := b0.toNat_lt
      have := b1.toNat_lt
      omega
  · next b0 b1 b2 _ =>
      have := b0.toNat_lt
      have := b1.toNat_lt
      have := b2.toNat_lt
      omega
  · omega

theorem readBytes_bits (nonempty : s ≠ []) :
    (readBytes 3 0 s).toNat = bits s := by
  have zero : (0 : UInt32).toNat = 0 := rfl
  rcases s with _ | ⟨b0, _ | ⟨b1, _ | ⟨b2, s⟩⟩⟩
  · exact absurd rfl nonempty
  all_goals
    have small0 := b0.toNat_lt
    have first := toNat_push8 (t := 0) b0 (by omega)
  · have one : bits [b0] = b0.toNat * 65536 := rfl
    show ((((0 : UInt32) <<< 8) + b0.toUInt32) <<< 8 <<< 8).toNat = _
    rw [toNat_shift8 (by rw [toNat_shift8 (by omega)]; omega),
      toNat_shift8 (by omega), first, zero, one]
    omega
  · have small1 := b1.toNat_lt
    have second := toNat_push8 (t := ((0 : UInt32) <<< 8) + b0.toUInt32) b1
      (by omega)
    have two : bits [b0, b1] = b0.toNat * 65536 + b1.toNat * 256 := rfl
    show ((((((0 : UInt32) <<< 8) + b0.toUInt32) <<< 8) + b1.toUInt32) <<<
      8).toNat = _
    rw [toNat_shift8 (by omega), second, first, zero, two]
    omega
  · have small1 := b1.toNat_lt
    have second := toNat_push8 (t := ((0 : UInt32) <<< 8) + b0.toUInt32) b1
      (by omega)
    have three : bits (b0 :: b1 :: b2 :: s) =
        b0.toNat * 65536 + b1.toNat * 256 + b2.toNat := rfl
    show ((((((((0 : UInt32) <<< 8) + b0.toUInt32) <<< 8) + b1.toUInt32)) <<<
      8) + b2.toUInt32).toNat = _
    rw [toNat_push8 b2 (by omega), second, first, zero, three]
    omega

/-- The characters of a block, of which there are as many as bytes and one
more. -/
theorem writeChars_bits (isBits : t.toNat = n) (small : n < 2 ^ 24) :
    writeChars len 4 0 t =
      [char (n / 2 ^ 18 % 64),
        if 1 ≤ len then char (n / 2 ^ 12 % 64) else 61,
        if 2 ≤ len then char (n / 2 ^ 6 % 64) else 61,
        if 3 ≤ len then char (n % 64) else 61] := by
  have second : (t <<< 6).toNat / 2 ^ 18 % 64 = n / 2 ^ 12 % 64 := by
    rw [toNat_shift6, isBits]
    omega
  have third : (t <<< 6 <<< 6).toNat / 2 ^ 18 % 64 = n / 2 ^ 6 % 64 := by
    rw [toNat_shift6, toNat_shift6, isBits]
    omega
  have fourth : (t <<< 6 <<< 6 <<< 6).toNat / 2 ^ 18 % 64 = n % 64 := by
    rw [toNat_shift6, toNat_shift6, toNat_shift6, isBits]
    omega
  unfold writeChars writeChars writeChars writeChars writeChars
  rw [toNat_sextet, toNat_sextet, toNat_sextet, toNat_sextet, second, third,
    fourth, isBits, if_pos (Nat.zero_le _)]
  rfl

/-! ## What is encoded -/

theorem b64encode_nil : b64encode [] = [0] := by
  rw [b64encode]
  rfl

/-- The first character and the first six bits of the second one. -/
theorem b64encode_block (nonempty : s ≠ []) :
    b64encode s =
      [char (bits s / 2 ^ 18 % 64),
        if 1 ≤ s.length then char (bits s / 2 ^ 12 % 64) else 61,
        if 2 ≤ s.length then char (bits s / 2 ^ 6 % 64) else 61,
        if 3 ≤ s.length then char (bits s % 64) else 61] ++
      b64encode (s.drop 3) := by
  rw [b64encode, if_neg nonempty,
    writeChars_bits (readBytes_bits nonempty) (bits_lt s)]

theorem b64encode_one (b0 : UInt8) :
    b64encode [b0] =
      [char (b0.toNat / 4), char (b0.toNat % 4 * 16), 61, 61, 0] := by
  have small0 := b0.toNat_lt
  have one : bits [b0] = b0.toNat * 65536 := rfl
  have first : bits [b0] / 2 ^ 18 % 64 = b0.toNat / 4 := by omega
  have second : bits [b0] / 2 ^ 12 % 64 = b0.toNat % 4 * 16 := by omega
  rw [b64encode_block (List.cons_ne_nil _ _), first, second]
  change _ ++ b64encode [] = _
  rw [b64encode_nil]
  rfl

theorem b64encode_two (b0 b1 : UInt8) :
    b64encode [b0, b1] =
      [char (b0.toNat / 4), char (b0.toNat % 4 * 16 + b1.toNat / 16),
        char (b1.toNat % 16 * 4), 61, 0] := by
  have small0 := b0.toNat_lt
  have small1 := b1.toNat_lt
  have two : bits [b0, b1] = b0.toNat * 65536 + b1.toNat * 256 := rfl
  have first : bits [b0, b1] / 2 ^ 18 % 64 = b0.toNat / 4 := by omega
  have second : bits [b0, b1] / 2 ^ 12 % 64 =
      b0.toNat % 4 * 16 + b1.toNat / 16 := by omega
  have third : bits [b0, b1] / 2 ^ 6 % 64 = b1.toNat % 16 * 4 := by omega
  rw [b64encode_block (List.cons_ne_nil _ _), first, second, third]
  change _ ++ b64encode [] = _
  rw [b64encode_nil]
  rfl

theorem b64encode_three (b0 b1 b2 : UInt8) (s : List UInt8) :
    b64encode (b0 :: b1 :: b2 :: s) =
      char (b0.toNat / 4) :: char (b0.toNat % 4 * 16 + b1.toNat / 16) ::
        char (b1.toNat % 16 * 4 + b2.toNat / 64) :: char (b2.toNat % 64) ::
        b64encode s := by
  have small0 := b0.toNat_lt
  have small1 := b1.toNat_lt
  have small2 := b2.toNat_lt
  have three : bits (b0 :: b1 :: b2 :: s) =
      b0.toNat * 65536 + b1.toNat * 256 + b2.toNat := rfl
  have first : bits (b0 :: b1 :: b2 :: s) / 2 ^ 18 % 64 =
      b0.toNat / 4 := by omega
  have second : bits (b0 :: b1 :: b2 :: s) / 2 ^ 12 % 64 =
      b0.toNat % 4 * 16 + b1.toNat / 16 := by omega
  have third : bits (b0 :: b1 :: b2 :: s) / 2 ^ 6 % 64 =
      b1.toNat % 16 * 4 + b2.toNat / 64 := by omega
  have fourth : bits (b0 :: b1 :: b2 :: s) % 64 = b2.toNat % 64 := by omega
  have enough : 3 ≤ (b0 :: b1 :: b2 :: s).length := by
    simp only [List.length_cons]
    omega
  rw [b64encode_block (List.cons_ne_nil _ _), first, second, third, fourth,
    if_pos (by omega), if_pos (by omega), if_pos enough]
  rfl

/-! ## What is decoded -/

/-- The six bits which a character adds, also if it is `'='`. -/
def sextet (c : UInt8) : Nat := value c % 64

/-- The bytes of a block of characters. -/
def decodeBlock (c0 c1 c2 c3 : UInt8) : List UInt8 :=
  [UInt8.ofNat (sextet c0 * 4 + sextet c1 / 16),
    UInt8.ofNat (sextet c1 % 16 * 16 + sextet c2 / 4),
    UInt8.ofNat (sextet c2 % 4 * 64 + sextet c3)]

/-- The bytes of all blocks. -/
def decodeBytes : List UInt8 → List UInt8
  | c0 :: c1 :: c2 :: c3 :: s => decodeBlock c0 c1 c2 c3 ++ decodeBytes s
  | _ => []

theorem sextet_lt (c : UInt8) : sextet c < 64 := Nat.mod_lt _ (by decide)

theorem sextet_char (isChar : IsChar c) : sextet c = value c :=
  Nat.mod_eq_of_lt (value_spec isChar).1

theorem toNat_push6 (c : UInt8) (fits : t.toNat < 2 ^ 24) :
    ((t <<< 6) + UInt32.ofNat (value c &&& 0x3f)).toNat =
      t.toNat * 64 + sextet c := by
  have small := sextet_lt c
  have masked : value c &&& 0x3f = sextet c :=
    Nat.and_two_pow_sub_one_eq_mod (value c) 6
  rw [masked, UInt32.toNat_add, toNat_shift6, UInt32.toNat_ofNat']
  omega

theorem parseChars_cons (inAlphabet : c ∈ b64chars) :
    parseChars (c :: s) t =
      parseChars s ((t <<< 6) + UInt32.ofNat (value c &&& 0x3f)) := by
  have found : strchr b64chars c = some (value c) := if_pos inAlphabet
  rw [parseChars, found]

theorem parseChars_block {c0 c1 c2 c3 : UInt8}
    (inAlphabet : ∀ c ∈ [c0, c1, c2, c3], c ∈ b64chars) :
    ∃ t, parseChars [c0, c1, c2, c3] 0 = .ok t ∧
      t.toNat = ((sextet c0 * 64 + sextet c1) * 64 + sextet c2) * 64 +
        sextet c3 := by
  have zero : (0 : UInt32).toNat = 0 := rfl
  have small0 := sextet_lt c0
  have small1 := sextet_lt c1
  have small2 := sextet_lt c2
  rw [parseChars_cons (inAlphabet c0 (by simp)),
    parseChars_cons (inAlphabet c1 (by simp)),
    parseChars_cons (inAlphabet c2 (by simp)),
    parseChars_cons (inAlphabet c3 (by simp))]
  refine ⟨_, rfl, ?_⟩
  have first := toNat_push6 (t := 0) c0 (by omega)
  generalize ((0 : UInt32) <<< 6) + UInt32.ofNat (value c0 &&& 0x3f) = t1
    at *
  have second := toNat_push6 (t := t1) c1 (by omega)
  generalize (t1 <<< 6) + UInt32.ofNat (value c1 &&& 0x3f) = t2 at *
  have third := toNat_push6 (t := t2) c2 (by omega)
  generalize (t2 <<< 6) + UInt32.ofNat (value c2 &&& 0x3f) = t3 at *
  rw [toNat_push6 c3 (by omega), third, second, first, zero]
  omega

theorem outByte_toNat (t : UInt32) :
    (outByte t).toNat = t.toNat / 2 ^ 16 % 256 := by
  unfold outByte
  rw [UInt32.toNat_toUInt8, UInt32.toNat_and, UInt32.toNat_shiftRight]
  change (t.toNat >>> 16 &&& (2 ^ 8 - 1)) % 2 ^ 8 = _
  rw [Nat.and_two_pow_sub_one_eq_mod, Nat.shiftRight_eq_div_pow, Nat.mod_mod]

theorem toNat_shift8_mod (t : UInt32) :
    (t <<< 8).toNat = t.toNat * 256 % 2 ^ 32 := by
  rw [UInt32.toNat_shiftLeft]
  change t.toNat <<< 8 % 2 ^ 32 = _
  rw [Nat.shiftLeft_eq]

theorem outBytes_block {c0 c1 c2 c3 : UInt8}
    (isBits : t.toNat = ((sextet c0 * 64 + sextet c1) * 64 + sextet c2) * 64 +
      sextet c3) :
    [outByte t, outByte (t <<< 8), outByte (t <<< 8 <<< 8)] =
      decodeBlock c0 c1 c2 c3 := by
  have small0 := sextet_lt c0
  have small1 := sextet_lt c1
  have small2 := sextet_lt c2
  have small3 := sextet_lt c3
  have first : outByte t =
      UInt8.ofNat (sextet c0 * 4 + sextet c1 / 16) := by
    apply UInt8.toNat_inj.mp
    rw [outByte_toNat, UInt8.toNat_ofNat', isBits]
    omega
  have second : outByte (t <<< 8) =
      UInt8.ofNat (sextet c1 % 16 * 16 + sextet c2 / 4) := by
    apply UInt8.toNat_inj.mp
    rw [outByte_toNat, UInt8.toNat_ofNat', toNat_shift8_mod, isBits]
    omega
  have third : outByte (t <<< 8 <<< 8) =
      UInt8.ofNat (sextet c2 % 4 * 64 + sextet c3) := by
    apply UInt8.toNat_inj.mp
    rw [outByte_toNat, UInt8.toNat_ofNat', toNat_shift8_mod,
      toNat_shift8_mod, isBits]
    omega
  rw [first, second, third]
  rfl

/-- The loop writes three bytes for each block. -/
theorem decodeLoop_spec {m : Nat} (length : s.length = 4 * m)
    (inAlphabet : ∀ c ∈ s, c ∈ b64chars) (room : 3 * m ≤ out.length)
    (noWrap : n + 3 * m < 2 ^ 64) :
    (decodeBytes s).length = 3 * m ∧
      decodeLoop s out n =
        .ok (decodeBytes s ++ out.drop (3 * m), n + 3 * m) := by
  induction m generalizing s out n with
  | zero =>
      have nothing : s = [] := List.eq_nil_of_length_eq_zero length
      subst nothing
      exact ⟨rfl, rfl⟩
  | succ m ih =>
      rcases s with _ | ⟨c0, _ | ⟨c1, _ | ⟨c2, _ | ⟨c3, s⟩⟩⟩⟩
      all_goals simp only [List.length_nil, List.length_cons] at length
      · omega
      · omega
      · omega
      · omega
      · rcases out with _ | ⟨o0, _ | ⟨o1, _ | ⟨o2, out⟩⟩⟩
        all_goals simp only [List.length_nil, List.length_cons] at room
        · omega
        · omega
        · omega
        · have block : ∀ c ∈ [c0, c1, c2, c3], c ∈ b64chars := by
            intro c member
            apply inAlphabet
            simp only [List.mem_cons, List.not_mem_nil] at member ⊢
            tauto
          obtain ⟨t, parsed, isBits⟩ := parseChars_block block
          have roomRest : 3 * m ≤ out.length := by omega
          obtain ⟨lengthRest, rest⟩ := ih (s := s) (n := n + 3)
            (by omega) (fun c member => inAlphabet c (by simp [member]))
            roomRest (by omega)
          have step : decodeLoop (c0 :: c1 :: c2 :: c3 :: s)
              (o0 :: o1 :: o2 :: out) n =
                (parseChars [c0, c1, c2, c3] 0 >>= fun t =>
                  decodeLoop s out (sizeAdd n 3) >>= fun after =>
                    .ok ([outByte t, outByte (t <<< 8),
                      outByte (t <<< 8 <<< 8)] ++ after.1, after.2)) := rfl
          rw [step, parsed, sizeAdd_eq (by omega)]
          change _ ∧ (decodeLoop s out (n + 3) >>= _) = _
          rw [rest, outBytes_block isBits]
          constructor
          · change (decodeBlock c0 c1 c2 c3 ++ decodeBytes s).length = _
            rw [List.length_append, lengthRest]
            change 3 + 3 * m = _
            omega
          · have behind : (o0 :: o1 :: o2 :: out).drop (3 * (m + 1)) =
                out.drop (3 * m) := by
              rw [show 3 * (m + 1) = 3 * m + 3 by omega]
              rfl
            have total : n + 3 + 3 * m = n + 3 * (m + 1) := by omega
            rw [behind, ← total]
            rfl

end Libcperciva.Util.B64Blocks
