import Libcperciva.Lib.Blocks
import Libcperciva.Lib.FinLiterals
import Mathlib.Algebra.Group.Nat.Defs
import Mathlib.Data.Fin.VecNotation
import Mathlib.Data.Nat.NthRoot.Defs

/-!
# SHA-256, as in FIPS 180-4

The sections of the standard are given where its text is translated.  Messages
are byte strings.
-/

namespace Libcperciva.Lib.Fips180

open Libcperciva.Lib.Blocks
open Libcperciva.Lib.FinLiterals

/-! ## Functions, section 4.1.2 -/

def rotr (n x : UInt32) : UInt32 := x >>> n ||| x <<< (32 - n)

def shr (n x : UInt32) : UInt32 := x >>> n

def ch (x y z : UInt32) : UInt32 := (x &&& y) ^^^ (~~~x &&& z)

def maj (x y z : UInt32) : UInt32 := (x &&& y) ^^^ (x &&& z) ^^^ (y &&& z)

def bigSigma0 (x : UInt32) : UInt32 := rotr 2 x ^^^ rotr 13 x ^^^ rotr 22 x

def bigSigma1 (x : UInt32) : UInt32 := rotr 6 x ^^^ rotr 11 x ^^^ rotr 25 x

def smallSigma0 (x : UInt32) : UInt32 := rotr 7 x ^^^ rotr 18 x ^^^ shr 3 x

def smallSigma1 (x : UInt32) : UInt32 := rotr 17 x ^^^ rotr 19 x ^^^ shr 10 x

/-! ## Constants, sections 4.2.2 and 5.3.3 -/

/-- The first sixty-four primes. -/
def primes : List Nat :=
  [2, 3, 5, 7, 11, 13, 17, 19, 23, 29, 31, 37, 41, 43, 47, 53, 59, 61, 67, 71,
    73, 79, 83, 89, 97, 101, 103, 107, 109, 113, 127, 131, 137, 139, 149, 151,
    157, 163, 167, 173, 179, 181, 191, 193, 197, 199, 211, 223, 227, 229, 233,
    239, 241, 251, 257, 263, 269, 271, 277, 281, 283, 293, 307, 311]

/-- The first thirty-two bits of the fractional part of a root. -/
def rootFraction (n x : Nat) : UInt32 :=
  UInt32.ofNat (Nat.nthRoot n (x * 2 ^ (32 * n)))

/-- The constants of the rounds come from cube roots. -/
def roundConstant (t : Nat) : UInt32 := rootFraction 3 (primes.getD t 0)

/-- The initial hash value comes from square roots. -/
def initialHash : Fin 8 → UInt32 := fun i => rootFraction 2 (primes.getD i 0)

/-! ## Preprocessing, sections 5.1.1 and 5.2.1 -/

/-- The length of a message in bits, as 64 bits. -/
def lengthBytes (bits : Nat) : List UInt8 :=
  (List.range 8).map fun j => UInt8.ofNat (bits / 256 ^ (7 - j))

/-- A one bit, the fewest zero bits that are needed, and the length. -/
def pad (message : List UInt8) : List UInt8 :=
  message ++ 0x80 :: List.replicate ((119 - message.length % 64) % 64) 0 ++
    lengthBytes (8 * message.length)

/-- Word `t` of a block: four bytes, the most significant one first. -/
def word (block : List UInt8) (t : Nat) : UInt32 :=
  ⟨(block.getD (4 * t) 0).toBitVec ++ (block.getD (4 * t + 1) 0).toBitVec ++
    (block.getD (4 * t + 2) 0).toBitVec ++ (block.getD (4 * t + 3) 0).toBitVec⟩

/-! ## Computation, section 6.2.2 -/

/-- The message schedule. -/
def schedule (block : List UInt8) (t : Nat) : UInt32 :=
  if t < 16 then word block t
  else
    smallSigma1 (schedule block (t - 2)) + schedule block (t - 7) +
      smallSigma0 (schedule block (t - 15)) + schedule block (t - 16)

/-- One round; the working variables `a` to `h` are numbered. -/
def round (k w : UInt32) (v : Fin 8 → UInt32) : Fin 8 → UInt32 :=
  let t1 := v 7 + bigSigma1 (v 4) + ch (v 4) (v 5) (v 6) + k + w
  let t2 := bigSigma0 (v 0) + maj (v 0) (v 1) (v 2)
  ![t1 + t2, v 0, v 1, v 2, v 3 + t1, v 4, v 5, v 6]

/-- The working variables after the first rounds. -/
def rounds (block : List UInt8) (hash : Fin 8 → UInt32) :
    Nat → Fin 8 → UInt32
  | 0 => hash
  | t + 1 => round (roundConstant t) (schedule block t) (rounds block hash t)

/-- The next hash value. -/
def compress (hash : Fin 8 → UInt32) (block : List UInt8) : Fin 8 → UInt32 :=
  fun i => rounds block hash 64 i + hash i

/-- The bytes of a word, the most significant one first. -/
def wordBytes (x : UInt32) : List UInt8 :=
  [⟨x.toBitVec.extractLsb' 24 8⟩, ⟨x.toBitVec.extractLsb' 16 8⟩,
    ⟨x.toBitVec.extractLsb' 8 8⟩, ⟨x.toBitVec.extractLsb' 0 8⟩]

/-- The message digest. -/
def sha256 (message : List UInt8) : List UInt8 :=
  (List.ofFn (absorb compress 64 initialHash (pad message))).flatMap wordBytes

theorem length_lengthBytes (bits : Nat) : (lengthBytes bits).length = 8 := rfl

end Libcperciva.Lib.Fips180
