import Libcperciva.Alg.HmacModel
import Mathlib.Data.Stream.Init

/-!
# Random bytes, `crypto/crypto_entropy.c`

This file also models `generate_seed_rdrand` of `crypto_entropy_rdrand.c`.
What the operating system and the processor answer comes from a `World`; the
uninitialized variables of the HMAC functions come from a `Stack`.
-/

namespace Libcperciva.Crypto.EntropyModel

open Libcperciva.Lib.Buffer
open Libcperciva.Alg.Sha256Model
open Libcperciva.Alg.HmacModel

/-- The internal state. -/
structure Drbg where
  Key : List UInt8
  V : List UInt8
  reseedCounter : Nat

/-- The static variables. -/
structure Statics where
  drbg : Drbg
  instantiated : Bool

/-- Static variables start as zeros. -/
def start : Statics where
  drbg :=
    { Key := List.replicate 32 0, V := List.replicate 32 0, reseedCounter := 0 }
  instantiated := false

/-- The answers that are left: whether `atexit` succeeds, the bytes of
`entropy_read` unless it fails, and the words of RDRAND. -/
structure World where
  atexit : Stream' Bool
  entropy : Stream' (Option (Nat → UInt8))
  rdrand : Stream' (Option UInt32)

/-- What is on the stack. -/
structure Stack where
  ctx : HmacSha256Ctx
  tmp32 : Tmp32

def RESEED_INTERVAL : Nat := 256

def GENERATE_MAXLEN : Nat := 65536

/-- `entropy_read(buf, buflen)`: the bytes, unless it fails. -/
def entropyRead (world : World) (buflen : Nat) :
    Option (List UInt8) × World :=
  (world.entropy.head.map fun bytes => (List.range buflen).map bytes,
    { world with entropy := world.entropy.tail })

/-- The bytes of an `unsigned int`, on x86. -/
def intBytes (x : UInt32) : List UInt8 :=
  [x.toUInt8, (x >>> 8).toUInt8, (x >>> 16).toUInt8, (x >>> 24).toUInt8]

/-- `generate_seed_rdrand(buf, len)`: the bytes of `buf`, unless it fails. -/
def generateSeedRdrand (world : World) : Nat → Option (List UInt8) × World
  | 0 => (some [], world)
  | len + 1 =>
      let next := { world with rdrand := world.rdrand.tail }
      match world.rdrand.head with
      | none => (none, next)
      | some x =>
          let (rest, after) := generateSeedRdrand next len
          (rest.map (intBytes x ++ ·), after)

variable (stack : Stack) (x86Rdrand : Bool)

/-- `update(data, datalen)`. -/
def update (data : List UInt8) (drbg : Drbg) : Drbg :=
  let K := drbg.Key
  let Vx := drbg.V ++ [0x00]
  let ctx := hmacSha256Init stack.ctx K stack.tmp32
  let ctx := hmacSha256Update ctx Vx stack.tmp32
  let ctx := hmacSha256Update ctx data stack.tmp32
  let K := (hmacSha256Final ctx stack.tmp32).1
  let Vx := write Vx 0 (hmacSha256Buf stack.ctx K (Vx.take 32) stack.tmp32)
  let (K, Vx) :=
    if data.length ≠ 0 then
      let Vx := Vx.set 32 0x01
      let ctx := hmacSha256Init stack.ctx K stack.tmp32
      let ctx := hmacSha256Update ctx Vx stack.tmp32
      let ctx := hmacSha256Update ctx data stack.tmp32
      let K := (hmacSha256Final ctx stack.tmp32).1
      (K, write Vx 0 (hmacSha256Buf stack.ctx K (Vx.take 32) stack.tmp32))
    else (K, Vx)
  { drbg with Key := K, V := Vx.take 32 }

/-- `update_from_rdrand`. -/
def updateFromRdrand (drbg : Drbg) (world : World) : Drbg × World :=
  match generateSeedRdrand world 8 with
  | (none, world) => (drbg, world)
  | (some buf, world) => (update stack buf drbg, world)

/-- Add output of RDRAND into the state, if the processor has it. -/
def addRdrand (drbg : Drbg) (world : World) : Drbg × World :=
  if x86Rdrand then updateFromRdrand stack drbg world else (drbg, world)

/-- `instantiate`: the result, the state and the world. -/
def instantiate (drbg : Drbg) (world : World) : Int × Drbg × World :=
  match entropyRead world 48 with
  | (none, world) => (-1, drbg, world)
  | (some seedMaterial, world) =>
      let drbg : Drbg :=
        { Key := List.replicate 32 0x00
          V := List.replicate 32 0x01
          reseedCounter := 1 }
      let drbg := update stack seedMaterial drbg
      let (drbg, world) := addRdrand stack x86Rdrand drbg world
      (0, drbg, world)

/-- `reseed`: the result, the state and the world. -/
def reseed (drbg : Drbg) (world : World) : Int × Drbg × World :=
  match entropyRead world 32 with
  | (none, world) => (-1, drbg, world)
  | (some seedMaterial, world) =>
      let drbg := update stack seedMaterial drbg
      let (drbg, world) := addRdrand stack x86Rdrand drbg world
      (0, { drbg with reseedCounter := 1 }, world)

/-- The loop of `generate`, where `buf` starts at `pos`: the value of `V` and
the buffer. -/
def fill (Key V buf : List UInt8) (pos bufpos buflen : Nat) :
    List UInt8 × List UInt8 :=
  if bufpos < buflen then
    let V := hmacSha256Buf stack.ctx Key V stack.tmp32
    let buf :=
      if buflen - bufpos ≥ 32 then write buf (pos + bufpos) (V.take 32)
      else write buf (pos + bufpos) (V.take (buflen - bufpos))
    fill Key V buf pos (bufpos + 32) buflen
  else (V, buf)
termination_by buflen - bufpos

/-- `generate(buf, buflen)`, where `buf` starts at `pos`: the state and the
buffer, unless an assertion fails. -/
def generate (drbg : Drbg) (buf : List UInt8) (pos buflen : Nat) :
    Option (Drbg × List UInt8) :=
  if buflen ≤ GENERATE_MAXLEN ∧ drbg.reseedCounter ≤ RESEED_INTERVAL then
    let (V, buf) := fill stack drbg.Key drbg.V buf pos 0 buflen
    let drbg := update stack [] { drbg with V }
    some ({ drbg with reseedCounter := (drbg.reseedCounter + 1) % 2 ^ 32 }, buf)
  else none

/-- What `crypto_entropy_read` returns and changes. -/
structure ReadResult where
  status : Int
  buf : List UInt8
  statics : Statics
  world : World

/-- The loop of `crypto_entropy_read`, where `buf` starts at `pos`. -/
def readLoop (statics : Statics) (world : World) (buf : List UInt8)
    (pos buflen : Nat) : Option ReadResult :=
  if buflen > 0 then
    let (failed, drbg, world) :=
      if statics.drbg.reseedCounter > RESEED_INTERVAL then
        reseed stack x86Rdrand statics.drbg world
      else (0, statics.drbg, world)
    let statics := { statics with drbg }
    if failed ≠ 0 then some { status := -1, buf, statics, world }
    else
      let bytesToProvide :=
        if buflen > GENERATE_MAXLEN then GENERATE_MAXLEN else buflen
      match generate stack statics.drbg buf pos bytesToProvide with
      | none => none
      | some (drbg, buf) =>
          readLoop { statics with drbg } world buf (pos + bytesToProvide)
            (buflen - bytesToProvide)
  else some { status := 0, buf, statics, world }
termination_by buflen
decreasing_by
  have least : 0 < GENERATE_MAXLEN := by decide
  split <;> omega

/-- `crypto_entropy_read(buf, buflen)`: nothing, if an assertion fails. -/
def cryptoEntropyRead (statics : Statics) (world : World)
    (buf : List UInt8) (buflen : Nat) : Option ReadResult :=
  if statics.instantiated = false then
    let registered := world.atexit.head
    let world := { world with atexit := world.atexit.tail }
    if registered = false then some { status := -1, buf, statics, world }
    else
      let (failed, drbg, world) := instantiate stack x86Rdrand statics.drbg world
      let statics := { statics with drbg }
      if failed ≠ 0 then some { status := -1, buf, statics, world }
      else
        readLoop stack x86Rdrand { statics with instantiated := true } world buf
          0 buflen
  else readLoop stack x86Rdrand statics world buf 0 buflen

/-- Calls of `crypto_entropy_read`, one after the other: the results and
buffers, the variables and the world. -/
def reads (statics : Statics) (world : World) :
    List (List UInt8 × Nat) →
      Option (List (Int × List UInt8) × Statics × World)
  | [] => some ([], statics, world)
  | (buf, buflen) :: calls =>
      match cryptoEntropyRead stack x86Rdrand statics world buf buflen with
      | none => none
      | some result =>
          match reads result.statics result.world calls with
          | none => none
          | some (results, statics, world) =>
              some ((result.status, result.buf) :: results, statics, world)

end Libcperciva.Crypto.EntropyModel
