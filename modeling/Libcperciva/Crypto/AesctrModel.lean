import Libcperciva.Lib.FinLiterals
import Libcperciva.Util.Sysendian
import Mathlib.Logic.Function.Basic

/-!
# AES-CTR, `crypto/crypto_aesctr.c`

This file also models `crypto_aesctr_shared.c`, and the functions of
`crypto_aesctr_aesni.c` and `crypto_aesctr_arm.c`, which differ only in the
instructions they use.

The block cipher is a parameter.  `inbuf` is what is left of the input,
`buflen` is its length, and `outbuf` is what was written so far.
-/

namespace Libcperciva.Crypto.AesctrModel

open Libcperciva.Lib.FinLiterals
open Libcperciva.Util.Sysendian

/-- Sixteen bytes. -/
abbrev Block := Fin 16 → UInt8

variable {κ : Type}

/-- `struct crypto_aesctr`; `none` is NULL. -/
structure CryptoAesctr (κ : Type) where
  key : Option κ
  bytectr : Nat
  buf : Block
  pblk : Block

/-- How the functions go wrong. -/
inductive AesctrFault where
  /-- The assertion `stream->bytectr % 16 == 0`. -/
  | bytectr
  /-- The assertion `stream->key != NULL`. -/
  | key
  /-- The assertion `buflen < UINT64_MAX - stream->bytectr`. -/
  | buflen
  /-- The loop does not end. -/
  | loop
deriving DecidableEq

/-- The stream and the buffers. -/
structure Streaming (κ : Type) where
  stream : CryptoAesctr κ
  inbuf : List UInt8
  outbuf : List UInt8

/-- `be64enc(pblk, x)`. -/
def encodeFront (pblk : Block) (x : Nat) : Block :=
  fun j => if j.val < 8 then be64 x j else pblk j

/-- `be64enc(pblk + 8, x)`. -/
def encodeBack (pblk : Block) (x : Nat) : Block :=
  fun j => if j.val < 8 then pblk j else be64 x (j - 8)

/-- `crypto_aes_encrypt_block`, with the key of the stream. -/
def encryptBlock (cipher : κ → Block → Block) (stream : CryptoAesctr κ)
    (block : Block) : Except AesctrFault Block :=
  match stream.key with
  | none => .error .key
  | some key => .ok (cipher key block)

/-! ## `crypto_aesctr_shared.c` -/

/-- `crypto_aesctr_stream_cipherblock_generate`. -/
def cipherblockGenerate (cipher : κ → Block → Block)
    (stream : CryptoAesctr κ) : Except AesctrFault (CryptoAesctr κ) :=
  if ¬ stream.bytectr % 16 = 0 then .error .bytectr
  else do
    let pblk := Function.update stream.pblk 15 (stream.pblk 15 + 1)
    let pblk :=
      if pblk 15 = 0 then encodeBack pblk (stream.bytectr / 16) else pblk
    let buf ← encryptBlock cipher stream pblk
    .ok { stream with pblk, buf }

/-- The bytes of the cipherblock from a position on. -/
def bytesFrom (buf : Block) (bytemod n : Nat) : List UInt8 :=
  (List.range n).map fun i => buf (Fin.ofNat 16 (bytemod + i))

/-- `crypto_aesctr_stream_cipherblock_use`. -/
def cipherblockUse (state : Streaming κ) (nbytes bytemod : Nat) :
    Streaming κ where
  stream := { state.stream with
    bytectr := (state.stream.bytectr + nbytes) % 2 ^ 64 }
  inbuf := state.inbuf.drop nbytes
  outbuf := state.outbuf ++ List.zipWith (· ^^^ ·)
    (state.inbuf.take nbytes) (bytesFrom state.stream.buf bytemod nbytes)

/-- `crypto_aesctr_stream_pre_wholeblock`. -/
def preWholeblock (state : Streaming κ) : Int × Streaming κ :=
  let bytemod := state.stream.bytectr % 16
  if bytemod ≠ 0 then
    if state.inbuf.length ≤ 16 - bytemod then
      (1, cipherblockUse state state.inbuf.length bytemod)
    else (0, cipherblockUse state (16 - bytemod) bytemod)
  else (0, state)

/-- `crypto_aesctr_stream_post_wholeblock`. -/
def postWholeblock (cipher : κ → Block → Block) (state : Streaming κ) :
    Except AesctrFault (Streaming κ) :=
  if state.inbuf.length > 0 then do
    let stream ← cipherblockGenerate cipher state.stream
    .ok (cipherblockUse { state with stream } state.inbuf.length 0)
  else .ok state

/-! ## Whole blocks -/

/-- The loop of `crypto_aesctr_stream`.  The first argument is the number of
turns after which it has ended. -/
def wholeBlocks (cipher : κ → Block → Block) :
    Nat → Streaming κ → Except AesctrFault (Streaming κ)
  | turns, state =>
      if state.inbuf.length ≥ 16 then
        match turns with
        | 0 => .error .loop
        | turns + 1 => do
            let stream ← cipherblockGenerate cipher state.stream
            wholeBlocks cipher turns
              (cipherblockUse { state with stream } 16 0)
      else .ok state

/-- The local variables of the loop over whole blocks, and the buffers. -/
structure Wholeblocks where
  blockCounterBe : Nat → UInt8
  blockCounter : Nat
  inbuf : List UInt8
  outbuf : List UInt8

/-- One turn of that loop. -/
def wholeblock (cipher : κ → Block → Block) (stream : CryptoAesctr κ)
    (state : Wholeblocks) : Except AesctrFault Wholeblocks := do
  let blockCounterBe := be64 state.blockCounter
  let block : Block := fun j =>
    if j.val < 8 then stream.pblk j else blockCounterBe (j - 8)
  let buf ← encryptBlock cipher stream block
  .ok {
    blockCounterBe
    blockCounter := (state.blockCounter + 1) % 2 ^ 64
    inbuf := state.inbuf.drop 16
    outbuf := state.outbuf ++
      List.zipWith (· ^^^ ·) (state.inbuf.take 16) (bytesFrom buf 0 16) }

/-- The loop, which is not entered with no blocks. -/
def wholeblocksLoop (cipher : κ → Block → Block) (stream : CryptoAesctr κ) :
    Nat → Wholeblocks → Except AesctrFault Wholeblocks
  | 0, state => .ok state
  | i + 1, state => do
      let state ← wholeblock cipher stream state
      wholeblocksLoop cipher stream i state

/-- `crypto_aesctr_aesni_stream_wholeblocks` and
`crypto_aesctr_arm_stream_wholeblocks`. -/
def streamWholeblocks (cipher : κ → Block → Block) (state : Streaming κ) :
    Except AesctrFault (Streaming κ) := do
  let numBlocks := state.inbuf.length / 16
  let done ← wholeblocksLoop cipher state.stream numBlocks
    { blockCounterBe := be64 0
      blockCounter := state.stream.bytectr / 16
      inbuf := state.inbuf
      outbuf := state.outbuf }
  .ok {
    stream := { state.stream with
      pblk := fun j =>
        if j.val < 8 then state.stream.pblk j else done.blockCounterBe (j - 8)
      bytectr := (state.stream.bytectr + 16 * numBlocks) % 2 ^ 64 }
    inbuf := done.inbuf
    outbuf := done.outbuf }

/-- `crypto_aesctr_aesni_stream` and `crypto_aesctr_arm_stream`. -/
def hardwareStream (cipher : κ → Block → Block) (state : Streaming κ) :
    Except AesctrFault (Streaming κ) := do
  let (finished, state) := preWholeblock state
  if finished ≠ 0 then .ok state
  else
    let state ←
      if state.inbuf.length ≥ 16 then streamWholeblocks cipher state
      else .ok state
    postWholeblock cipher state

/-! ## The interface -/

/-- `crypto_aesctr_init2`. -/
def cryptoAesctrInit2 (stream : CryptoAesctr κ) (key : Option κ)
    (nonce : Nat) : Except AesctrFault (CryptoAesctr κ) :=
  let key := key.or stream.key
  let pblk := Function.update (encodeFront stream.pblk nonce) 15 0xff
  if key.isNone then .error .key
  else .ok { stream with key, bytectr := 0, pblk }

/-- `crypto_aesctr_stream`, on a machine with or without the instructions for
whole blocks: the output and the stream. -/
def cryptoAesctrStream (cipher : κ → Block → Block) (hwaccel : Bool)
    (stream : CryptoAesctr κ) (inbuf : List UInt8) :
    Except AesctrFault (List UInt8 × CryptoAesctr κ) :=
  let state : Streaming κ := { stream, inbuf, outbuf := [] }
  if ¬ inbuf.length < 2 ^ 64 - 1 - stream.bytectr then .error .buflen
  else if inbuf.length ≥ 16 ∧ hwaccel = true then do
    let state ← hardwareStream cipher state
    .ok (state.outbuf, state.stream)
  else do
    let (finished, state) := preWholeblock state
    if finished ≠ 0 then .ok (state.outbuf, state.stream)
    else
      let state ← wholeBlocks cipher state.inbuf.length state
      let state ← postWholeblock cipher state
      .ok (state.outbuf, state.stream)

/-- Calls of `crypto_aesctr_stream`, one after the other: the concatenated
output and the stream. -/
def streamCalls (cipher : κ → Block → Block) (stream : CryptoAesctr κ) :
    List (Bool × List UInt8) →
      Except AesctrFault (List UInt8 × CryptoAesctr κ)
  | [] => .ok ([], stream)
  | (hwaccel, inbuf) :: calls => do
      let (outbuf, stream) ← cryptoAesctrStream cipher hwaccel stream inbuf
      let (others, stream) ← streamCalls cipher stream calls
      .ok (outbuf ++ others, stream)

end Libcperciva.Crypto.AesctrModel
