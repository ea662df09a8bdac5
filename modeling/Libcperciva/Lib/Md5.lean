import Libcperciva.Lib.Blocks
import Libcperciva.Lib.FinLiterals
import Mathlib.Algebra.Group.Nat.Defs
import Mathlib.Data.Fin.VecNotation
import Mathlib.Logic.Function.Basic

/-!
# MD5, as in RFC 1321

The sections of the document are given where its text is translated.  Messages
are byte strings.
-/

namespace Libcperciva.Lib.Md5

open Libcperciva.Lib.Blocks
open Libcperciva.Lib.FinLiterals

/-! ## Padding, sections 3.1 and 3.2 -/

/-- The length in bits, as 64 bits, the low-order byte first. -/
def lengthBytes (bits : Nat) : List UInt8 :=
  (List.range 8).map fun j => UInt8.ofNat (bits / 256 ^ j)

/-- A one bit, the fewest zero bits that are needed, and the length. -/
def pad (message : List UInt8) : List UInt8 :=
  message ++ 0x80 :: List.replicate ((119 - message.length % 64) % 64) 0 ++
    lengthBytes (8 * message.length)

/-- Word `k` of a block: four bytes, the low-order byte first. -/
def word (block : List UInt8) (k : Nat) : UInt32 :=
  ⟨(block.getD (4 * k + 3) 0).toBitVec ++ (block.getD (4 * k + 2) 0).toBitVec ++
    (block.getD (4 * k + 1) 0).toBitVec ++ (block.getD (4 * k) 0).toBitVec⟩

/-! ## Processing, section 3.4 -/

def F (X Y Z : UInt32) : UInt32 := (X &&& Y) ||| (~~~X &&& Z)

def G (X Y Z : UInt32) : UInt32 := (X &&& Z) ||| (Y &&& ~~~Z)

def H (X Y Z : UInt32) : UInt32 := X ^^^ Y ^^^ Z

def I (X Y Z : UInt32) : UInt32 := Y ^^^ (X ||| ~~~Z)

/-- The Taylor series of `sin x / x` without its first terms: a numerator and a
denominator. -/
def sineTail (x : Nat) : Nat → Nat → Int × Int
  | _, 0 => (1, 1)
  | k, terms + 1 =>
      let (n, d) := sineTail x (k + 1) terms
      let next : Int := (2 * k) * (2 * k + 1)
      (next * d - x ^ 2 * n, next * d)

/-- The integer part of 4294967296 times `abs(sin(i))`; 128 terms of the
series are enough. -/
def T (i : Nat) : UInt32 :=
  let (n, d) := sineTail i 1 128
  UInt32.ofNat (4294967296 * (i * n.natAbs) / d.natAbs)

/-- The words of `X` that the rounds use. -/
def order : Nat → List Nat
  | 0 => [0, 1, 2, 3, 4, 5, 6, 7, 8, 9, 10, 11, 12, 13, 14, 15]
  | 1 => [1, 6, 11, 0, 5, 10, 15, 4, 9, 14, 3, 8, 13, 2, 7, 12]
  | 2 => [5, 8, 11, 14, 1, 4, 7, 10, 13, 0, 3, 6, 9, 12, 15, 2]
  | _ => [0, 7, 14, 5, 12, 3, 10, 1, 8, 15, 6, 13, 4, 11, 2, 9]

/-- The amounts of the circular shifts. -/
def shifts : Nat → List UInt32
  | 0 => [7, 12, 17, 22]
  | 1 => [5, 9, 14, 20]
  | 2 => [4, 11, 16, 23]
  | _ => [6, 10, 15, 21]

/-- The functions of the rounds. -/
def function : Nat → UInt32 → UInt32 → UInt32 → UInt32
  | 0 => F
  | 1 => G
  | 2 => H
  | _ => I

/-- `X <<< s`, a circular shift. -/
def rotl (s X : UInt32) : UInt32 := X <<< s ||| X >>> (32 - s)

/-- Operation `t`, which is `a = b + ((a + f(b,c,d) + X[k] + T[i]) <<< s)`.  The
operations of a round are on `ABCD`, `DABC`, `CDAB` and `BCDA` in turn. -/
def operation (block : List UInt8) (t : Nat) (v : Fin 4 → UInt32) :
    Fin 4 → UInt32 :=
  let a : Fin 4 := 0 - Fin.ofNat 4 t
  let f := function (t / 16) (v (a + 1)) (v (a + 2)) (v (a + 3))
  let X := word block ((order (t / 16)).getD (t % 16) 0)
  let s := (shifts (t / 16)).getD (t % 4) 0
  Function.update v a (v (a + 1) + rotl s (v a + f + X + T (t + 1)))

/-- The four words after the first operations. -/
def operations (block : List UInt8) (v : Fin 4 → UInt32) :
    Nat → Fin 4 → UInt32
  | 0 => v
  | t + 1 => operation block t (operations block v t)

/-- The next value of `A`, `B`, `C` and `D`. -/
def compress (v : Fin 4 → UInt32) (block : List UInt8) : Fin 4 → UInt32 :=
  fun i => operations block v 64 i + v i

/-! ## The digest, sections 3.3 and 3.5 -/

/-- The initial values, whose bytes are written low-order first. -/
def initialValue : Fin 4 → UInt32 :=
  ![word [0x01, 0x23, 0x45, 0x67] 0, word [0x89, 0xab, 0xcd, 0xef] 0,
    word [0xfe, 0xdc, 0xba, 0x98] 0, word [0x76, 0x54, 0x32, 0x10] 0]

/-- The bytes of a word, the low-order byte first. -/
def wordBytes (x : UInt32) : List UInt8 :=
  [⟨x.toBitVec.extractLsb' 0 8⟩, ⟨x.toBitVec.extractLsb' 8 8⟩,
    ⟨x.toBitVec.extractLsb' 16 8⟩, ⟨x.toBitVec.extractLsb' 24 8⟩]

/-- The message digest. -/
def md5 (message : List UInt8) : List UInt8 :=
  (List.ofFn (absorb compress 64 initialValue (pad message))).flatMap wordBytes

end Libcperciva.Lib.Md5
