import Libcperciva.Util.SizeT

/-!
# Base 64, `util/b64encode.c`

What a function writes through a pointer that it moves along is the list of
the bytes written.  A buffer that is the caller's is the memory from its first
byte; writing behind it is a fault.
-/

namespace Libcperciva.Util.B64Model

open Libcperciva.Util.SizeT

/-- `"ABCDEFGHIJKLMNOPQRSTUVWXYZabcdefghijklmnopqrstuvwxyz0123456789+/="`. -/
def b64chars : List UInt8 :=
  [65, 66, 67, 68, 69, 70, 71, 72, 73, 74, 75, 76, 77, 78, 79, 80, 81, 82, 83,
    84, 85, 86, 87, 88, 89, 90, 97, 98, 99, 100, 101, 102, 103, 104, 105, 106,
    107, 108, 109, 110, 111, 112, 113, 114, 115, 116, 117, 118, 119, 120, 121,
    122, 48, 49, 50, 51, 52, 53, 54, 55, 56, 57, 43, 47, 61]

/-! ## `b64encode` -/

/-- Read up to 3 bytes: what is missing of them counts as zero. -/
def readBytes : (turns : Nat) → (t : UInt32) → List UInt8 → UInt32
  | 0, t, _ => t
  | turns + 1, t, [] => readBytes turns (t <<< 8) []
  | turns + 1, t, b :: s => readBytes turns ((t <<< 8) + b.toUInt32) s

/-- Write characters, from number `j` on; there are `len` bytes. -/
def writeChars (len : Nat) : (turns j : Nat) → (t : UInt32) → List UInt8
  | 0, _, _ => []
  | turns + 1, j, t =>
      (if j ≤ len then b64chars.getD ((t >>> 18) &&& 0x3f).toNat 0 else 61) ::
        writeChars len turns (j + 1) (t <<< 6)

/-- `b64encode`: the bytes that it writes. -/
def b64encode (s : List UInt8) : List UInt8 :=
  if s = [] then [0]
  else writeChars s.length 4 0 (readBytes 3 0 s) ++ b64encode (s.drop 3)
termination_by s.length
decreasing_by
  rename_i more
  have := List.length_pos_iff.mpr more
  rw [List.length_drop]
  omega

/-! ## `b64decode` -/

/-- How `b64decode` goes wrong. -/
inductive B64Fault where
  /-- A byte is read or written outside of its buffer. -/
  | outOfBounds
  /-- `strchr` does not find a character. -/
  | null
deriving DecidableEq

/-- `strchr`, for a character that is not NUL: a position in the string. -/
def strchr (s : List UInt8) (c : UInt8) : Option Nat :=
  if c ∈ s then some (s.idxOf c) else none

/-- Check that we have valid input and count trailing `'='`s; `none` if the
input is not valid. -/
def countDead : List UInt8 → (deadbytes : Nat) → Option Nat
  | [], deadbytes => some deadbytes
  | c :: s, deadbytes =>
      if c = 0 ∨ strchr b64chars c = none then none
      else
        let deadbytes := if c = 61 then deadbytes + 1 else deadbytes
        if c ≠ 61 ∧ deadbytes > 0 then none
        else countDead s deadbytes

/-- Parse bytes. -/
def parseChars : List UInt8 → (t : UInt32) → Except B64Fault UInt32
  | [], t => .ok t
  | c :: s, t =>
      match strchr b64chars c with
      | none => .error .null
      | some pos => parseChars s ((t <<< 6) + UInt32.ofNat (pos &&& 0x3f))

/-- The byte that is output. -/
def outByte (t : UInt32) : UInt8 := ((t >>> 16) &&& 0xff).toUInt8

/-- Loop until we run out of data: the buffer after that, and `*outlen`. -/
def decodeLoop : (s out : List UInt8) → (outlen : Nat) →
    Except B64Fault (List UInt8 × Nat)
  | [], out, outlen => .ok (out, outlen)
  | c0 :: c1 :: c2 :: c3 :: s, _ :: _ :: _ :: out, outlen => do
      let t ← parseChars [c0, c1, c2, c3] 0
      let (out, outlen) ← decodeLoop s out (sizeAdd outlen 3)
      .ok (outByte t :: outByte (t <<< 8) :: outByte (t <<< 8 <<< 8) :: out,
        outlen)
  | _, _, _ => .error .outOfBounds

/-- `b64decode`, with its return status, the buffer after it and `*outlen`. -/
def b64decode (s out : List UInt8) (outlen : Nat) :
    Except B64Fault (Int × List UInt8 × Nat) :=
  if s.length % 4 ≠ 0 then .ok (1, out, outlen)
  else
    match countDead s 0 with
    | none => .ok (1, out, outlen)
    | some deadbytes =>
        if deadbytes > 2 then .ok (1, out, outlen)
        else do
          let (out, outlen) ← decodeLoop s out 0
          .ok (0, out, sizeSub outlen deadbytes)

end Libcperciva.Util.B64Model
