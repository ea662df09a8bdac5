import Libcperciva.Util.ParsenumContract
import Libcperciva.Util.SockModel
import Mathlib.Data.Nat.Digits.Lemmas

/-!
# The text of a socket address

The last colon of an address is the one before its port, because the port has
no colon.  The port is found again in what is printed for it.
-/

namespace Libcperciva.Util.SockText

open Libcperciva.Util.Cstring
open Libcperciva.Util.NumberForm
open Libcperciva.Util.ParsenumModel
open Libcperciva.Util.ParsenumContract
open Libcperciva.Util.SockModel

variable {c : UInt8} {s pre post digits : List UInt8}

/-! ## What `inet_pton` accepts -/

/-- The documented behaviour of `inet_pton`. -/
structure PtonDocumented (sys : System) : Prop where
  ipv4_length : ∀ {src addr}, sys.inetPton AF_INET src = some addr →
    addr.length = 4
  ipv4_text : ∀ {src addr}, sys.inetPton AF_INET src = some addr →
    ∀ c ∈ src, isDigit 10 c = true ∨ c = 46
  ipv6_length : ∀ {src addr}, sys.inetPton AF_INET6 src = some addr →
    addr.length = 16
  ipv6_text : ∀ {src addr}, sys.inetPton AF_INET6 src = some addr →
    ∀ c ∈ src, isDigit 16 c = true ∨ c = 58 ∨ c = 46
  ipv6_colon : ∀ {src addr}, sys.inetPton AF_INET6 src = some addr →
    58 ∈ src

/-! ## The last colon -/

theorem strrchr_cons (b : UInt8) : strrchr (b :: s) c =
    match strrchr s c with
    | some position => some (position + 1)
    | none => if b = c then some 0 else none := rfl

theorem strrchr_eq_none : strrchr s c = none ↔ c ∉ s := by
  induction s with
  | nil => exact iff_of_true rfl List.not_mem_nil
  | cons b s ih =>
      rw [List.mem_cons, not_or, ← ih, strrchr_cons]
      cases strrchr s c with
      | some position =>
          apply iff_of_false (Option.some_ne_none _)
          exact fun absent => Option.some_ne_none _ absent.2
      | none =>
          rw [ite_eq_right_iff]
          constructor
          · intro different
            exact ⟨fun same =>
              Option.some_ne_none _ (different same.symm), rfl⟩
          · rintro ⟨different, _⟩ same
            exact absurd same.symm different

theorem strrchr_append (absent : c ∉ post) :
    strrchr (pre ++ c :: post) c = some pre.length := by
  induction pre with
  | nil =>
      rw [List.nil_append, strrchr_cons, strrchr_eq_none.mpr absent]
      exact if_pos rfl
  | cons b pre ih =>
      rw [List.cons_append, strrchr_cons, ih]
      rfl

/-- A string is split at the last occurrence of a byte. -/
theorem strrchr_split {position : Nat}
    (found : strrchr s c = some position) :
    s = s.take position ++ c :: s.drop (position + 1) ∧
      c ∉ s.drop (position + 1) := by
  induction s generalizing position with
  | nil => cases found
  | cons b s ih =>
      rw [strrchr_cons] at found
      cases later : strrchr s c with
      | some before =>
          rw [later] at found
          cases found
          rcases ih later with ⟨split, absent⟩
          exact ⟨congrArg (List.cons b) split, absent⟩
      | none =>
          rw [later] at found
          rw [Option.ite_none_right_eq_some] at found
          rcases found with ⟨rfl, ⟨⟩⟩
          exact ⟨rfl, strrchr_eq_none.mp later⟩

/-! ## The port -/

/-- A string of digits is a number. -/
theorem numeral_digits (nonempty : digits ≠ [])
    (areDigits : ∀ b ∈ digits, isDigit 10 b = true) :
    numeral 10 digits = some ((digitsValue 10 digits : Int), []) := by
  have unsigned : Unsigned 10 digits 10 digits [] :=
    ⟨⟨[], by simp, IsRadix.given 10 digits (by decide)⟩, nonempty, areDigits⟩
  have form : Form 10 digits (digitsValue 10 digits) [] :=
    ⟨[], [], digits, 10, digits, false, rfl, nofun, IsSign.none, unsigned,
      rfl⟩
  rcases form.numeral with ⟨v, rest, found, shorter, same⟩
  have isEmpty : rest = [] :=
    List.eq_nil_of_length_eq_zero (Nat.le_zero.mp shorter)
  rcases same (by rw [isEmpty]) with ⟨rfl, _⟩
  rw [found, isEmpty]

/-- A port is a number from 1 to 65535. -/
theorem parsenum_port {ports : List UInt8} {p : Int} :
    parsenumEx6 long ports 1 65535 10 false = some p ↔
      ∃ rest, numeral 10 ports = some (p, rest) ∧ Ends false rest ∧
        1 ≤ p ∧ p ≤ 65535 := by
  have applicable : Applicable long (some (1, 65535)) :=
    ⟨by decide, by decide, by decide⟩
  have isOne : intmax.convert 1 = 1 := by decide
  have isMax : intmax.convert 65535 = 65535 := by decide
  have keeps : ∀ v : Int, 1 ≤ v → v ≤ 65535 →
      Has intmax v ∧ long.convert v = v := by
    intro v positive small
    have least : IntType.min intmax = -2 ^ 63 := rfl
    have greatest : IntType.max intmax = 2 ^ 63 - 1 := rfl
    have has : Has intmax v := by
      constructor <;> omega
    exact ⟨has, convert_eq has⟩
  rw [parsenumEx6_iff applicable]
  unfold Takes
  constructor
  · rintro ⟨v, rest, found, ends, _, rfl, bounds⟩
    rcases bounds 1 65535 rfl with ⟨positive, small⟩
    rw [isOne] at positive
    rw [isMax] at small
    rw [(keeps v positive small).2]
    exact ⟨rest, found, ends, positive, small⟩
  · rintro ⟨rest, found, ends, positive, small⟩
    rcases keeps p positive small with ⟨has, same⟩
    refine ⟨p, rest, found, ends, has, same.symm, ?_⟩
    rintro _ _ ⟨⟩
    rw [isOne, isMax]
    exact ⟨positive, small⟩

theorem parsenum_digits (nonempty : digits ≠ [])
    (areDigits : ∀ b ∈ digits, isDigit 10 b = true)
    (positive : 1 ≤ digitsValue 10 digits)
    (small : digitsValue 10 digits ≤ 65535) :
    parsenumEx6 long digits 1 65535 10 false =
      some (digitsValue 10 digits : Int) :=
  parsenum_port.mpr ⟨[], numeral_digits nonempty areDigits, Or.inr rfl,
    by omega, by omega⟩

/-- Port 0 is rejected. -/
theorem parsenum_zero : parsenumEx6 long [48] 1 65535 10 false = none := by
  decide

/-! ## The port is printed -/

theorem isDigit_ofNat {digit : Nat} (small : digit < 10) :
    isDigit 10 (UInt8.ofNat (48 + digit)) = true ∧
      digitValue (UInt8.ofNat (48 + digit)) = some digit := by
  have all : ∀ digit ∈ List.range 10,
      isDigit 10 (UInt8.ofNat (48 + digit)) = true ∧
        digitValue (UInt8.ofNat (48 + digit)) = some digit := by decide
  exact all digit (List.mem_range.mpr small)

theorem decimal_digits (n : Nat) :
    decimal n ≠ [] ∧ ∀ b ∈ decimal n, isDigit 10 b = true := by
  unfold decimal
  by_cases isZero : n = 0
  · rw [if_pos isZero]
    exact ⟨List.cons_ne_nil _ _, List.forall_mem_singleton.mpr (by decide)⟩
  · rw [if_neg isZero]
    constructor
    · simpa using Nat.digits_ne_nil_iff_ne_zero.mpr isZero
    · intro b member
      rcases List.mem_map.mp member with ⟨digit, isDigit, rfl⟩
      rw [List.mem_reverse] at isDigit
      exact (isDigit_ofNat (Nat.digits_lt_base (by decide) isDigit)).1

theorem digitsValue_reverse {values : List Nat}
    (small : ∀ value ∈ values, value < 10) :
    digitsValue 10 (values.reverse.map fun value =>
      UInt8.ofNat (48 + value)) = Nat.ofDigits 10 values := by
  induction values with
  | nil => rfl
  | cons value values ih =>
      have rest := ih fun v member => small v (List.mem_cons_of_mem _ member)
      have first := isDigit_ofNat (small value List.mem_cons_self)
      unfold digitsValue at rest ⊢
      rw [List.reverse_cons, List.map_append, List.foldl_append, rest]
      show Nat.ofDigits 10 values * 10 +
        (digitValue (UInt8.ofNat (48 + value))).getD 0 = _
      rw [first.2, Nat.ofDigits_cons, Option.getD_some]
      omega

theorem digitsValue_decimal (n : Nat) : digitsValue 10 (decimal n) = n := by
  unfold decimal
  by_cases isZero : n = 0
  · rw [if_pos isZero, isZero]
    rfl
  · rw [if_neg isZero, digitsValue_reverse fun _ member =>
      Nat.digits_lt_base (by decide) member]
    exact Nat.ofDigits_digits 10 n

end Libcperciva.Util.SockText
