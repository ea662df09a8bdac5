import Libcperciva.Lib.Lines
import Libcperciva.Util.SizeT
import Mathlib.Algebra.Group.Int.Defs

/-!
# Functions of the C library on strings, and `util/parsenum.h`

A string is the list of its bytes; it ends at the first NUL or where the list
ends.  The locale is "C".
-/

namespace Libcperciva.Util.Cstring

open Libcperciva.Lib.Lines

/-- `UINTMAX_MAX`, which is also `SIZE_MAX`. -/
def UINTMAX_MAX : Nat := 2 ^ 64 - 1

/-! ## Searching -/

/-- `strlen`. -/
def strlen (s : List UInt8) : Nat := (s.takeWhile (· ≠ 0)).length

/-- `strcspn`, for one character. -/
def strcspn (s : List UInt8) (c : UInt8) : Nat :=
  (s.takeWhile fun b => b ≠ 0 ∧ b ≠ c).length

/-- `strspn`. -/
def strspn (s accept : List UInt8) : Nat :=
  (s.takeWhile (· ∈ accept)).length

/-- `strstr(haystack, needle) != NULL`, for a needle that is not empty. -/
def strstr (haystack needle : List UInt8) : Bool :=
  indexOf needle haystack < haystack.length

/-! ## Numbers -/

/-- `isspace`. -/
def isspace (c : UInt8) : Bool := c = 32 || (9 ≤ c && c ≤ 13)

/-- The value of a digit or a letter. -/
def digitValue (c : UInt8) : Option Nat :=
  if 48 ≤ c ∧ c ≤ 57 then some (c.toNat - 48)
  else if 97 ≤ c ∧ c ≤ 122 then some (c.toNat - 87)
  else if 65 ≤ c ∧ c ≤ 90 then some (c.toNat - 55)
  else none

/-- Is this a digit of a number in a base? -/
def isDigit (base : Nat) (c : UInt8) : Bool :=
  (digitValue c).any (· < base)

/-- The value of the digits of a number. -/
def digitsValue (base : Nat) (digits : List UInt8) : Nat :=
  digits.foldl (fun value c => value * base + (digitValue c).getD 0) 0

/-- The optional sign, and what follows it. -/
def sign : List UInt8 → Bool × List UInt8
  | 45 :: s => (true, s)
  | 43 :: s => (false, s)
  | s => (false, s)

/-- Does a number with the prefix `0x` begin here? -/
def hasPrefix : List UInt8 → Bool
  | 48 :: x :: c :: _ => (x = 120 || x = 88) && isDigit 16 c
  | _ => false

/-- The base of a number; base 0 means that the number shows it. -/
def radix (base : Nat) (s : List UInt8) : Nat :=
  if base ≠ 0 then base
  else if hasPrefix s then 16
  else if s.head? = some 48 then 8
  else 10

/-- What follows the optional prefix of a hexadecimal number. -/
def skipPrefix (base : Nat) (s : List UInt8) : List UInt8 :=
  if base = 16 ∧ hasPrefix s then s.drop 2 else s

/-- The sign, the base and the digits at the beginning of a string, and the
string that follows them. -/
structure Subject where
  negative : Bool
  base : Nat
  digits : List UInt8
  endptr : List UInt8

/-- The subject sequence of `strtoimax` and `strtoumax`. -/
def subject (base : Nat) (s : List UInt8) : Subject :=
  let (negative, s) := sign (s.dropWhile isspace)
  let base := radix base s
  let s := skipPrefix base s
  ⟨negative, base, s.takeWhile (isDigit base), s.dropWhile (isDigit base)⟩

/-- The number without its sign. -/
def Subject.magnitude (subject : Subject) : Nat :=
  digitsValue subject.base subject.digits

/-- What `strtoumax` returns, `*endptr`, and whether it sets `errno`. -/
structure Conversion where
  val : Nat
  endptr : List UInt8
  erange : Bool

/-- `strtoumax`; `none` if there is no number. -/
def strtoumax (s : List UInt8) (base : Nat) : Option Conversion :=
  let subject := subject base s
  let val := subject.magnitude
  if subject.digits = [] then none
  else if val > UINTMAX_MAX then some ⟨UINTMAX_MAX, subject.endptr, true⟩
  else if subject.negative then
    some ⟨(2 ^ 64 - val) % 2 ^ 64, subject.endptr, false⟩
  else some ⟨val, subject.endptr, false⟩

/-- `parsenum_unsigned`; `none` if it sets `errno`. -/
def parsenumUnsigned (s : List UInt8) (min max typemax base : Nat)
    (trailing : Bool) : Option Nat :=
  match strtoumax s base with
  | none => none
  | some conversion =>
      if !trailing && conversion.endptr.headD 0 ≠ 0 then none
      else if conversion.val < min ∨ conversion.val > max ∨
          conversion.val > typemax then none
      else if conversion.erange then none
      else some conversion.val

/-- The conversion `%d`.  The C standard does not say what becomes of a number
that is not an `int`; this is a parameter. -/
def scanInt (overflow : Int → Int) (s : List UInt8) :
    Option (Int × List UInt8) :=
  let subject := subject 10 s
  let val : Int := subject.magnitude
  let val := if subject.negative then -val else val
  if subject.digits = [] then none
  else if -2 ^ 31 ≤ val ∧ val < 2 ^ 31 then some (val, subject.endptr)
  else some (overflow val, subject.endptr)

/-- A string behind a literal of the format. -/
def scanLiteral : (literal s : List UInt8) → Option (List UInt8)
  | [], s => some s
  | _ :: _, [] => none
  | a :: literal, c :: s => if a = c then scanLiteral literal s else none

end Libcperciva.Util.Cstring
