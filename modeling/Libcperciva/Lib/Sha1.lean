import Libcperciva.Lib.Fips180

/-!
# SHA-1, as in FIPS 180-4

The padding, the words of a block and the bytes of a word are those of
SHA-256.
-/

namespace Libcperciva.Lib.Sha1

open Libcperciva.Lib.Blocks
open Libcperciva.Lib.FinLiterals
open Libcperciva.Lib.Fips180 (ch maj word wordBytes pad)

/-! ## Functions and constants, sections 4.1.1, 4.2.1 and 5.3.1 -/

def rotl (n x : UInt32) : UInt32 := x <<< n ||| x >>> (32 - n)

def parity (x y z : UInt32) : UInt32 := x ^^^ y ^^^ z

/-- The function of round `t`. -/
def f (t : Nat) : UInt32 → UInt32 → UInt32 → UInt32 :=
  if t < 20 then ch
  else if t < 40 then parity
  else if t < 60 then maj
  else parity

/-- The constant of round `t`. -/
def K (t : Nat) : UInt32 :=
  if t < 20 then 0x5a827999
  else if t < 40 then 0x6ed9eba1
  else if t < 60 then 0x8f1bbcdc
  else 0xca62c1d6

def initialHash : Fin 5 → UInt32 :=
  ![0x67452301, 0xefcdab89, 0x98badcfe, 0x10325476, 0xc3d2e1f0]

/-! ## Computation, section 6.1.2 -/

/-- The message schedule. -/
def schedule (block : List UInt8) (t : Nat) : UInt32 :=
  if t < 16 then word block t
  else
    rotl 1 (schedule block (t - 3) ^^^ schedule block (t - 8) ^^^
      schedule block (t - 14) ^^^ schedule block (t - 16))

/-- Round `t`; the working variables `a` to `e` are numbered. -/
def round (t : Nat) (w : UInt32) (v : Fin 5 → UInt32) : Fin 5 → UInt32 :=
  let T := rotl 5 (v 0) + f t (v 1) (v 2) (v 3) + v 4 + K t + w
  ![T, v 0, rotl 30 (v 1), v 2, v 3]

/-- The working variables after the first rounds. -/
def rounds (block : List UInt8) (hash : Fin 5 → UInt32) :
    Nat → Fin 5 → UInt32
  | 0 => hash
  | t + 1 => round t (schedule block t) (rounds block hash t)

/-- The next hash value. -/
def compress (hash : Fin 5 → UInt32) (block : List UInt8) : Fin 5 → UInt32 :=
  fun i => rounds block hash 80 i + hash i

/-- The message digest. -/
def sha1 (message : List UInt8) : List UInt8 :=
  (List.ofFn (absorb compress 64 initialHash (pad message))).flatMap wordBytes

end Libcperciva.Lib.Sha1
