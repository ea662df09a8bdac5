import Libcperciva.Util.Cstring
import Mathlib.Algebra.Group.Int.Defs
import Mathlib.Data.Int.Basic

/-!
# `PARSENUM`, `util/parsenum.h`

The macros for a variable of an integer type.  What is stored into the
variable is converted to its type, and so are the arguments of functions.  The
conversion of an integer that does not fit takes the value that is congruent
to it, as it is with the compilers that are used.

The result is the value of the variable, or `none` if `errno` is set.
-/

namespace Libcperciva.Util.ParsenumModel

open Libcperciva.Util.Cstring

/-- `INTMAX_MAX`. -/
def INTMAX_MAX : Int := 2 ^ 63 - 1

/-- `INTMAX_MIN`. -/
def INTMAX_MIN : Int := -2 ^ 63

/-! ## Integer types -/

/-- An integer type of at most 64 bits. -/
structure IntType where
  isSigned : Bool
  width : Nat
  positive : 0 < width
  fits : width ≤ 64
deriving DecidableEq

/-- The least value. -/
def IntType.min (type : IntType) : Int :=
  if type.isSigned then -2 ^ (type.width - 1) else 0

/-- The greatest value. -/
def IntType.max (type : IntType) : Int :=
  if type.isSigned then 2 ^ (type.width - 1) - 1 else 2 ^ type.width - 1

/-- A conversion to the type. -/
def IntType.convert (type : IntType) (v : Int) : Int :=
  if type.isSigned then v.bmod (2 ^ type.width) else v % 2 ^ type.width

/-- `intmax_t`. -/
def intmax : IntType := ⟨true, 64, by decide, by decide⟩

/-- `uintmax_t`. -/
def uintmax : IntType := ⟨false, 64, by decide, by decide⟩

/-! ## Functions -/

/-- What `strtoimax` returns, `*endptr`, and whether it sets `errno`. -/
structure SignedConversion where
  val : Int
  endptr : List UInt8
  erange : Bool

/-- `strtoimax`; `none` if there is no number. -/
def strtoimax (s : List UInt8) (base : Nat) : Option SignedConversion :=
  let subject := subject base s
  let val : Int :=
    if subject.negative then -subject.magnitude else subject.magnitude
  if subject.digits = [] then none
  else if val > INTMAX_MAX then some ⟨INTMAX_MAX, subject.endptr, true⟩
  else if val < INTMAX_MIN then some ⟨INTMAX_MIN, subject.endptr, true⟩
  else some ⟨val, subject.endptr, false⟩

/-- `parsenum_signed`; `none` if it sets `errno`. -/
def parsenumSigned (s : List UInt8) (min max : Int) (base : Nat)
    (trailing : Bool) : Option Int :=
  match strtoimax s base with
  | none => none
  | some conversion =>
      if !trailing && conversion.endptr.headD 0 ≠ 0 then none
      else if conversion.val < min ∨ conversion.val > max then none
      else if conversion.erange then none
      else some conversion.val

/-! ## Macros -/

/-- The failures of `ASSERT_FAIL`. -/
inductive ParsenumAssert where
  /-- "applied to signed integer without specified bounds" -/
  | signedWithoutBounds
deriving DecidableEq

/-- `PARSENUM_EX4`, for an integer type. -/
def parsenumEx4 (type : IntType) (s : List UInt8) (base : Nat)
    (trailing : Bool) : Except ParsenumAssert (Option Int) :=
  let x := type.convert (-1)
  if x > 0 then
    .ok <| (parsenumUnsigned s 0 x.toNat x.toNat base trailing).map
      fun val : Nat => type.convert val
  else .error .signedWithoutBounds

/-- `PARSENUM_EX6`, for an integer type. -/
def parsenumEx6 (type : IntType) (s : List UInt8) (min max : Int)
    (base : Nat) (trailing : Bool) : Option Int :=
  let x := type.convert (-1)
  if x ≤ 0 then
    (parsenumSigned s
      (intmax.convert (if x ≤ 0 then min else 0))
      (intmax.convert (if x ≤ 0 then max else 0)) base trailing).map
      type.convert
  else
    let val := parsenumUnsigned s
      (uintmax.convert (if min ≤ 0 then 0 else min)).toNat
      (uintmax.convert max).toNat x.toNat base trailing
    if max ≤ INTMAX_MAX ∧ intmax.convert max < 0 then none
    else val.map fun val : Nat => type.convert val

/-- `PARSENUM_EX`, with or without bounds; `PARSENUM` has base 0 and allows
nothing behind the number. -/
def parsenumEx (type : IntType) (s : List UInt8) (bounds : Option (Int × Int))
    (base : Nat) (trailing : Bool) : Except ParsenumAssert (Option Int) :=
  match bounds with
  | none => parsenumEx4 type s base trailing
  | some (min, max) => .ok (parsenumEx6 type s min max base trailing)

end Libcperciva.Util.ParsenumModel
