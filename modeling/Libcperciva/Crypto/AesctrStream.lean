import Libcperciva.Crypto.AesctrModel
import Libcperciva.Lib.Keystream

/-!
# The keystream of AES-CTR

After `n` bytes the stream knows the nonce and the counter of the last block
of which it used bytes, and holds that block as long as it did not use it up.
This is all that the functions read, so a call may use either way to process
whole blocks, and a stream may be used again after `crypto_aesctr_init2`.
-/

namespace Libcperciva.Crypto.AesctrStream

open Libcperciva.Lib.FinLiterals
open Libcperciva.Lib.Keystream
open Libcperciva.Util.Sysendian
open Libcperciva.Crypto.AesctrModel

variable {κ : Type} {cipher : κ → Block → Block} {key : κ} {nonce n : Nat}
  {stream : CryptoAesctr κ} {state : Streaming κ}

/-! ## The specification -/

/-- The block that is encrypted for block `i` of the keystream. -/
def counterBlock (nonce i : Nat) : Block :=
  fun j => if j.val < 8 then be64 nonce j else be64 i (j - 8)

/-- The keystream. -/
def keystream (cipher : κ → Block → Block) (key : κ) (nonce : Nat)
    (n : Nat) : UInt8 :=
  cipher key (counterBlock nonce (n / 16)) (Fin.ofNat 16 n)

/-! ## Counters -/

/-- The last byte of a counter. -/
theorem be64_last (i : Nat) : be64 i 7 = UInt8.ofNat i := by
  show UInt8.ofNat (i / 2 ^ (56 - 8 * 7)) = _
  exact congrArg UInt8.ofNat (Nat.div_one i)

/-- The other bytes change when the last one wraps. -/
theorem be64_succ {i j : Nat} (noWrap : (i + 1) % 256 ≠ 0) (other : j < 7) :
    be64 (i + 1) j = be64 i j := by
  have power : 2 ^ (56 - 8 * j) = 256 * 2 ^ (48 - 8 * j) := by
    rw [show 56 - 8 * j = 8 + (48 - 8 * j) by omega, Nat.pow_add]
  have same : (i + 1) / 256 = i / 256 := by omega
  unfold be64
  rw [power, ← Nat.div_div_eq_div_mul, ← Nat.div_div_eq_div_mul, same]

theorem ofNat_eq_zero_iff (i : Nat) : UInt8.ofNat i = 0 ↔ i % 256 = 0 := by
  rw [← UInt8.toNat_inj]
  simp

theorem ofNat_succ (i : Nat) :
    UInt8.ofNat i + 1 = UInt8.ofNat (i + 1) := by
  rw [UInt8.ofNat_add]
  rfl

/-! ## The invariant -/

/-- The counter that is left in the stream after `n` bytes. -/
def CounterLeft (pblk : Block) (n : Nat) : Prop :=
  if n = 0 then pblk 15 = 0xff
  else ∀ j : Fin 16, 8 ≤ j.val → pblk j = be64 ((n - 1) / 16) (j - 8)

/-- The stream has used `n` bytes of the keystream. -/
structure Positioned (cipher : κ → Block → Block) (key : κ) (nonce n : Nat)
    (stream : CryptoAesctr κ) : Prop where
  hasKey : stream.key = some key
  bytectr : stream.bytectr = n
  hasNonce : ∀ j : Fin 16, j.val < 8 → stream.pblk j = be64 nonce j
  counter : CounterLeft stream.pblk n
  buf : n % 16 ≠ 0 → stream.buf = cipher key (counterBlock nonce (n / 16))

/-- The stream also holds the block of the keystream from which the next bytes
are taken. -/
structure Loaded (cipher : κ → Block → Block) (key : κ) (nonce n : Nat)
    (stream : CryptoAesctr κ) : Prop where
  hasKey : stream.key = some key
  bytectr : stream.bytectr = n
  pblk : stream.pblk = counterBlock nonce (n / 16)
  buf : stream.buf = cipher key (counterBlock nonce (n / 16))

theorem Positioned.pblk_eq
    (positioned : Positioned cipher key nonce n stream) (later : n ≠ 0) :
    stream.pblk = counterBlock nonce ((n - 1) / 16) := by
  have counter := positioned.counter
  unfold CounterLeft at counter
  rw [if_neg later] at counter
  funext j
  unfold counterBlock
  split_ifs with front
  · exact positioned.hasNonce j front
  · exact counter j (Nat.le_of_not_lt front)

/-- In the middle of a block, the block is there. -/
theorem Positioned.loaded
    (positioned : Positioned cipher key nonce n stream)
    (inside : n % 16 ≠ 0) : Loaded cipher key nonce n stream where
  hasKey := positioned.hasKey
  bytectr := positioned.bytectr
  pblk := by
    have same : (n - 1) / 16 = n / 16 := by omega
    rw [positioned.pblk_eq (by omega), same]
  buf := positioned.buf inside

/-- The counter that is prepared at the start of a block. -/
theorem Positioned.prepare
    (positioned : Positioned cipher key nonce n stream)
    (start : n % 16 = 0) :
    (if Function.update stream.pblk 15 (stream.pblk 15 + 1) 15 = 0 then
        encodeBack (Function.update stream.pblk 15 (stream.pblk 15 + 1))
          (n / 16)
      else Function.update stream.pblk 15 (stream.pblk 15 + 1)) =
      counterBlock nonce (n / 16) := by
  rw [Function.update_self]
  have front : ∀ j : Fin 16, j.val < 8 →
      Function.update stream.pblk 15 (stream.pblk 15 + 1) j =
        be64 nonce j := by
    intro j isFront
    have other : j ≠ 15 := by
      rintro rfl
      exact absurd isFront (by decide)
    rw [Function.update_of_ne other]
    exact positioned.hasNonce j isFront
  split_ifs with wraps
  · -- The complete value is encoded again.
    funext j
    unfold encodeBack counterBlock
    split_ifs with isFront
    · exact front j isFront
    · rfl
  · -- Only the last byte has changed.
    have later : n ≠ 0 := by
      rintro rfl
      have counter : stream.pblk 15 = 0xff := positioned.counter
      rw [counter] at wraps
      exact wraps (by decide)
    have before := positioned.pblk_eq later
    obtain ⟨i, succ⟩ : ∃ i, n / 16 = i + 1 := ⟨n / 16 - 1, by omega⟩
    have last : (n - 1) / 16 = i := by omega
    rw [last] at before
    have lastByte : stream.pblk 15 = UInt8.ofNat i := by
      rw [before]
      exact be64_last i
    rw [lastByte, ofNat_succ] at wraps
    have noWrap : (i + 1) % 256 ≠ 0 := fun isZero =>
      wraps ((ofNat_eq_zero_iff (i + 1)).mpr isZero)
    rw [succ]
    funext j
    by_cases isFront : j.val < 8
    · rw [front j isFront]
      unfold counterBlock
      rw [if_pos isFront]
    · unfold counterBlock
      rw [if_neg isFront]
      by_cases isLast : j = 15
      · subst isLast
        rw [Function.update_self, lastByte, ofNat_succ]
        exact (be64_last (i + 1)).symm
      · have other : j.val - 8 < 7 := by
          have notLast : j.val ≠ 15 := fun equal => isLast (Fin.ext equal)
          omega
        rw [Function.update_of_ne isLast, before, be64_succ noWrap other]
        unfold counterBlock
        rw [if_neg isFront]

/-- `crypto_aesctr_stream_cipherblock_generate`. -/
theorem cipherblockGenerate_spec
    (positioned : Positioned cipher key nonce n stream)
    (start : n % 16 = 0) :
    ∃ after, cipherblockGenerate cipher stream = .ok after ∧
      Loaded cipher key nonce n after := by
  have prepared := positioned.prepare start
  unfold cipherblockGenerate encryptBlock
  dsimp only
  rw [positioned.bytectr, if_neg (not_not_intro start), prepared,
    positioned.hasKey]
  exact ⟨_, rfl, rfl, rfl, rfl, rfl⟩

/-! ## Parts of a call -/

/-- A part of the message was processed. -/
structure Processed (cipher : κ → Block → Block) (key : κ) (nonce pos : Nat)
    (message : List UInt8) (state : Streaming κ) : Prop where
  xored : Xored (keystream cipher key nonce) pos message state.inbuf
    state.outbuf
  positioned : Positioned cipher key nonce (pos + state.outbuf.length)
    state.stream
  noWrap : pos + message.length < 2 ^ 64

theorem length_bytesFrom (buf : Block) (bytemod count : Nat) :
    (bytesFrom buf bytemod count).length = count := by
  unfold bytesFrom
  rw [List.length_map, List.length_range]

/-- The bytes of a block are those of the keystream. -/
theorem bytesFrom_keystream {count : Nat} (inside : n % 16 + count ≤ 16)
    (i : Nat)
    (isByte : i < (bytesFrom (cipher key (counterBlock nonce (n / 16)))
      (n % 16) count).length) :
    (bytesFrom (cipher key (counterBlock nonce (n / 16))) (n % 16) count)[i] =
      keystream cipher key nonce (n + i) := by
  rw [length_bytesFrom] at isByte
  have block : (n + i) / 16 = n / 16 := by omega
  have place : Fin.ofNat 16 (n % 16 + i) = Fin.ofNat 16 (n + i) := by
    apply Fin.ext
    show (n % 16 + i) % 16 = (n + i) % 16
    omega
  simp only [bytesFrom, keystream, List.getElem_map, List.getElem_range,
    block, place]

theorem length_outbuf_use {count bytemod : Nat}
    (enough : count ≤ state.inbuf.length) :
    (cipherblockUse state count bytemod).outbuf.length =
      state.outbuf.length + count := by
  unfold cipherblockUse
  dsimp only
  rw [List.length_append, List.length_zipWith, length_bytesFrom,
    List.length_take, Nat.min_eq_left enough, Nat.min_self]

/-- What is written for a part of the input. -/
theorem zipWith_bytesFrom {count : Nat} {inbuf : List UInt8}
    (inside : n % 16 + count ≤ 16) (enough : count ≤ inbuf.length) :
    List.zipWith (· ^^^ ·) (inbuf.take count)
        (bytesFrom (cipher key (counterBlock nonce (n / 16))) (n % 16)
          count) =
      xorFrom (keystream cipher key nonce) n (inbuf.take count) := by
  apply zipWith_eq_xorFrom
  · rw [length_bytesFrom, List.length_take, Nat.min_eq_left enough]
  · exact bytesFrom_keystream inside

/-- After the bytes that were used, the stream is positioned. -/
theorem Loaded.positioned {count : Nat}
    (loaded : Loaded cipher key nonce n stream)
    (inside : n % 16 + count ≤ 16) (noWrap : n + count < 2 ^ 64)
    (used : count ≠ 0 ∨ n % 16 ≠ 0) :
    Positioned cipher key nonce (n + count)
      { stream with bytectr := (stream.bytectr + count) % 2 ^ 64 } where
  hasKey := loaded.hasKey
  bytectr := by
    rw [loaded.bytectr, Nat.mod_eq_of_lt noWrap]
  hasNonce j isFront := by
    show stream.pblk j = be64 nonce j
    rw [loaded.pblk]
    exact if_pos isFront
  counter := by
    have later : n + count ≠ 0 := by omega
    have block : (n + count - 1) / 16 = n / 16 := by omega
    unfold CounterLeft
    rw [if_neg later, block]
    intro j isBack
    show stream.pblk j = be64 (n / 16) (j - 8)
    rw [loaded.pblk]
    exact if_neg (Nat.not_lt_of_le isBack)
  buf isInside := by
    have block : (n + count) / 16 = n / 16 := by omega
    rw [block]
    exact loaded.buf

/-- `crypto_aesctr_stream_cipherblock_use`. -/
theorem cipherblockUse_processed {pos count bytemod : Nat}
    {message : List UInt8} {after : CryptoAesctr κ}
    (processed : Processed cipher key nonce pos message state)
    (loaded : Loaded cipher key nonce (pos + state.outbuf.length) after)
    (isMod : bytemod = (pos + state.outbuf.length) % 16)
    (inside : bytemod + count ≤ 16) (enough : count ≤ state.inbuf.length)
    (used : count ≠ 0 ∨ bytemod ≠ 0) :
    Processed cipher key nonce pos message
      (cipherblockUse { state with stream := after } count bytemod) := by
  subst isMod
  have split := (List.take_append_drop count state.inbuf).symm
  have xored := processed.xored
  have length := xored.length
  have noWrap := processed.noWrap
  rw [split] at xored
  have written := @zipWith_bytesFrom _ cipher key nonce _ count state.inbuf
    inside enough
  rw [← loaded.buf] at written
  have countOut : (xorFrom (keystream cipher key nonce)
      (pos + state.outbuf.length) (state.inbuf.take count)).length =
        count := by
    rw [length_xorFrom, List.length_take, Nat.min_eq_left enough]
  unfold cipherblockUse
  dsimp only
  rw [written]
  refine ⟨xored.append, ?_, noWrap⟩
  dsimp only
  rw [List.length_append, countOut, ← Nat.add_assoc]
  exact loaded.positioned inside (by omega) used

/-- `crypto_aesctr_stream_pre_wholeblock`: the whole message was processed, or
the stream is at the start of a block. -/
theorem preWholeblock_processed {pos : Nat} {message : List UInt8}
    (processed : Processed cipher key nonce pos message state) :
    Processed cipher key nonce pos message (preWholeblock state).2 ∧
      ((preWholeblock state).1 = 1 ∧ (preWholeblock state).2.inbuf = [] ∨
        (preWholeblock state).1 = 0 ∧
          (pos + (preWholeblock state).2.outbuf.length) % 16 = 0) := by
  have positioned := processed.positioned
  have bytectr := positioned.bytectr
  unfold preWholeblock
  dsimp only
  rw [bytectr]
  by_cases inBlock : (pos + state.outbuf.length) % 16 ≠ 0
  · have loaded := positioned.loaded inBlock
    rw [if_pos inBlock]
    by_cases few :
        state.inbuf.length ≤ 16 - (pos + state.outbuf.length) % 16
    · rw [if_pos few]
      refine ⟨cipherblockUse_processed processed loaded rfl (by omega)
        (Nat.le_refl _) (Or.inr inBlock), Or.inl ⟨rfl, ?_⟩⟩
      exact List.drop_length
    · rw [if_neg few]
      have done := cipherblockUse_processed processed loaded rfl
        (by omega : (pos + state.outbuf.length) % 16 +
          (16 - (pos + state.outbuf.length) % 16) ≤ 16) (by omega)
        (Or.inr inBlock)
      refine ⟨done, Or.inr ⟨rfl, ?_⟩⟩
      rw [length_outbuf_use (by omega)]
      omega
  · rw [if_neg inBlock]
    exact ⟨processed, Or.inr ⟨rfl, not_not.mp inBlock⟩⟩

/-- `crypto_aesctr_stream_post_wholeblock`: the whole message was processed. -/
theorem postWholeblock_spec {pos : Nat} {message : List UInt8}
    (processed : Processed cipher key nonce pos message state)
    (start : (pos + state.outbuf.length) % 16 = 0)
    (few : state.inbuf.length < 16) :
    ∃ after, postWholeblock cipher state = .ok after ∧
      Processed cipher key nonce pos message after ∧ after.inbuf = [] := by
  unfold postWholeblock
  by_cases left : state.inbuf.length > 0
  · rcases cipherblockGenerate_spec processed.positioned start with
      ⟨stream, result, loaded⟩
    rw [if_pos left, result]
    refine ⟨_, rfl, cipherblockUse_processed processed loaded start.symm
      (by omega) (Nat.le_refl _) (Or.inl (by omega)), ?_⟩
    exact List.drop_length
  · rw [if_neg left]
    exact ⟨state, rfl, processed,
      List.eq_nil_of_length_eq_zero (by omega)⟩

/-! ## Whole blocks -/

/-- What the loops over whole blocks leave. -/
structure BlocksDone (cipher : κ → Block → Block) (key : κ)
    (nonce pos : Nat) (message : List UInt8) (state : Streaming κ) :
    Prop where
  processed : Processed cipher key nonce pos message state
  start : (pos + state.outbuf.length) % 16 = 0
  few : state.inbuf.length < 16

/-- The loop of the software. -/
theorem wholeBlocks_spec {pos turns : Nat} {message : List UInt8}
    (processed : Processed cipher key nonce pos message state)
    (start : (pos + state.outbuf.length) % 16 = 0)
    (enough : state.inbuf.length ≤ turns) :
    ∃ after, wholeBlocks cipher turns state = .ok after ∧
      BlocksDone cipher key nonce pos message after := by
  induction turns generalizing state with
  | zero =>
      have few : ¬ state.inbuf.length ≥ 16 := by omega
      unfold wholeBlocks
      rw [if_neg few]
      exact ⟨state, rfl, processed, start, by omega⟩
  | succ turns ih =>
      unfold wholeBlocks
      by_cases many : state.inbuf.length ≥ 16
      · rcases cipherblockGenerate_spec processed.positioned start with
          ⟨stream, result, loaded⟩
        rw [if_pos many, result]
        have next := cipherblockUse_processed processed loaded start.symm
          (Nat.le_refl 16) many (Or.inl (by decide))
        have written := @length_outbuf_use _
          { state with stream := stream } 16 0 many
        have dropped : (cipherblockUse { state with stream := stream } 16
            0).inbuf.length = state.inbuf.length - 16 :=
          List.length_drop
        apply ih next
        · rw [written]
          dsimp only
          omega
        · rw [dropped]
          omega
      · rw [if_neg many]
        exact ⟨state, rfl, processed, start, by omega⟩

/-- What the loop over whole blocks with the special instructions keeps. -/
structure LoopKeeps (cipher : κ → Block → Block) (key : κ) (nonce pos : Nat)
    (message : List UInt8) (state : Wholeblocks) : Prop where
  xored : Xored (keystream cipher key nonce) pos message state.inbuf
    state.outbuf
  start : (pos + state.outbuf.length) % 16 = 0
  blockCounter : state.blockCounter = (pos + state.outbuf.length) / 16

theorem wholeblock_spec {pos : Nat} {message : List UInt8}
    {loop : Wholeblocks} (hasKey : stream.key = some key)
    (hasNonce : ∀ j : Fin 16, j.val < 8 → stream.pblk j = be64 nonce j)
    (keeps : LoopKeeps cipher key nonce pos message loop)
    (noWrap : pos + message.length < 2 ^ 64)
    (enough : 16 ≤ loop.inbuf.length) :
    ∃ after, wholeblock cipher stream loop = .ok after ∧
      LoopKeeps cipher key nonce pos message after ∧
      after.inbuf = loop.inbuf.drop 16 ∧
      after.outbuf.length = loop.outbuf.length + 16 ∧
      after.blockCounterBe = be64 ((pos + after.outbuf.length - 1) / 16) := by
  have start := keeps.start
  have xored := keeps.xored
  have length := xored.length
  have block : (fun j : Fin 16 => if j.val < 8 then stream.pblk j
      else be64 loop.blockCounter (j - 8)) =
        counterBlock nonce ((pos + loop.outbuf.length) / 16) := by
    funext j
    unfold counterBlock
    rw [keeps.blockCounter]
    split_ifs with isFront
    · exact hasNonce j isFront
    · rfl
  have written := @zipWith_bytesFrom _ cipher key nonce _ 16 loop.inbuf
    (by omega : (pos + loop.outbuf.length) % 16 + 16 ≤ 16) enough
  rw [start] at written
  rw [← List.take_append_drop 16 loop.inbuf] at xored
  have longer : (loop.outbuf ++ xorFrom (keystream cipher key nonce)
      (pos + loop.outbuf.length) (loop.inbuf.take 16)).length =
        loop.outbuf.length + 16 := by
    rw [List.length_append, length_xorFrom, List.length_take,
      Nat.min_eq_left enough]
  unfold wholeblock encryptBlock
  rw [hasKey]
  dsimp only [bind, Except.bind]
  rw [block, written]
  refine ⟨_, rfl, ⟨xored.append, ?_, ?_⟩, rfl, longer, ?_⟩
  · dsimp only
    rw [longer]
    omega
  · dsimp only
    rw [longer, keeps.blockCounter, Nat.mod_eq_of_lt (by omega)]
    omega
  · dsimp only
    rw [longer, keeps.blockCounter]
    exact congrArg be64 (by omega)

theorem wholeblocksLoop_spec {pos i : Nat} {message : List UInt8}
    {loop : Wholeblocks} (hasKey : stream.key = some key)
    (hasNonce : ∀ j : Fin 16, j.val < 8 → stream.pblk j = be64 nonce j)
    (keeps : LoopKeeps cipher key nonce pos message loop)
    (noWrap : pos + message.length < 2 ^ 64)
    (enough : 16 * i ≤ loop.inbuf.length) :
    ∃ after, wholeblocksLoop cipher stream i loop = .ok after ∧
      LoopKeeps cipher key nonce pos message after ∧
      after.inbuf = loop.inbuf.drop (16 * i) ∧
      after.outbuf.length = loop.outbuf.length + 16 * i ∧
      (i ≠ 0 → after.blockCounterBe =
        be64 ((pos + after.outbuf.length - 1) / 16)) := by
  induction i generalizing loop with
  | zero =>
      exact ⟨loop, rfl, keeps, rfl, rfl, fun isZero => absurd rfl isZero⟩
  | succ i ih =>
      rcases wholeblock_spec hasKey hasNonce keeps noWrap (by omega) with
        ⟨next, result, keepsNext, inbuf, length, counter⟩
      have left : next.inbuf.length = loop.inbuf.length - 16 := by
        rw [inbuf, List.length_drop]
      rcases ih keepsNext (by omega) with
        ⟨after, resultAfter, keepsAfter, inbufAfter, lengthAfter,
          counterAfter⟩
      refine ⟨after, ?_, keepsAfter, ?_, by omega, ?_⟩
      · unfold wholeblocksLoop
        rw [result]
        exact resultAfter
      · rw [inbufAfter, inbuf, List.drop_drop]
        exact congrArg (loop.inbuf.drop ·) (by omega)
      · intro _
        by_cases last : i = 0
        · subst last
          have same : after = next := by
            unfold wholeblocksLoop at resultAfter
            exact (Except.ok.inj resultAfter).symm
          rw [same]
          exact counter
        · exact counterAfter last

/-- The whole blocks with the special instructions; the last counter is stored
in the stream. -/
theorem streamWholeblocks_spec {pos : Nat} {message : List UInt8}
    (processed : Processed cipher key nonce pos message state)
    (start : (pos + state.outbuf.length) % 16 = 0)
    (many : state.inbuf.length ≥ 16) :
    ∃ after, streamWholeblocks cipher state = .ok after ∧
      BlocksDone cipher key nonce pos message after := by
  have positioned := processed.positioned
  have noWrap := processed.noWrap
  have length := processed.xored.length
  have keeps : LoopKeeps cipher key nonce pos message
      { blockCounterBe := be64 0
        blockCounter := state.stream.bytectr / 16
        inbuf := state.inbuf
        outbuf := state.outbuf } :=
    ⟨processed.xored, start, congrArg (· / 16) positioned.bytectr⟩
  rcases wholeblocksLoop_spec positioned.hasKey positioned.hasNonce keeps
    noWrap (by dsimp only; omega : 16 * (state.inbuf.length / 16) ≤ _) with
    ⟨done, result, keepsDone, inbuf, outbuf, counter⟩
  dsimp only at inbuf outbuf
  have some : state.inbuf.length / 16 ≠ 0 := by omega
  have left : done.inbuf.length < 16 := by
    rw [inbuf, List.length_drop]
    omega
  unfold streamWholeblocks
  dsimp only
  rw [result]
  refine ⟨_, rfl, ⟨keepsDone.xored, ?_, noWrap⟩, keepsDone.start, left⟩
  refine ⟨positioned.hasKey, ?_, ?_, ?_, ?_⟩
  · dsimp only
    rw [positioned.bytectr, outbuf, Nat.mod_eq_of_lt (by omega)]
    omega
  · intro j isFront
    dsimp only
    rw [if_pos isFront]
    exact positioned.hasNonce j isFront
  · have later : pos + done.outbuf.length ≠ 0 := by omega
    unfold CounterLeft
    rw [if_neg later]
    intro j isBack
    dsimp only
    rw [if_neg (Nat.not_lt_of_le isBack), counter some]
  · intro inside
    exact absurd keepsDone.start inside

/-- What follows the bytes of the first block, with the special
instructions. -/
theorem hardwareBlocks_spec {pos : Nat} {message : List UInt8}
    (processed : Processed cipher key nonce pos message state)
    (start : (pos + state.outbuf.length) % 16 = 0) :
    ∃ after, (do
        let state ←
          if state.inbuf.length ≥ 16 then streamWholeblocks cipher state
          else .ok state
        postWholeblock cipher state) = .ok after ∧
      Processed cipher key nonce pos message after ∧ after.inbuf = [] := by
  by_cases many : state.inbuf.length ≥ 16
  · rcases streamWholeblocks_spec processed start many with
      ⟨blocks, result, done⟩
    rw [if_pos many, result]
    exact postWholeblock_spec done.processed done.start done.few
  · rw [if_neg many]
    exact postWholeblock_spec processed start (Nat.lt_of_not_le many)

/-! ## Calls -/

/-- The whole message was processed. -/
theorem Processed.finish {pos : Nat} {message : List UInt8}
    (processed : Processed cipher key nonce pos message state)
    (all : state.inbuf = []) :
    state.outbuf = xorFrom (keystream cipher key nonce) pos message ∧
      Positioned cipher key nonce (pos + message.length) state.stream := by
  have xored := processed.xored
  rw [all] at xored
  have positioned := processed.positioned
  have length := xored.length
  rw [List.length_nil, Nat.add_zero] at length
  rw [← length] at positioned
  exact ⟨xored.finish, positioned⟩

/-- One call xors its input with the next bytes of the keystream, by either
way. -/
theorem cryptoAesctrStream_spec {pos : Nat}
    (positioned : Positioned cipher key nonce pos stream) (hwaccel : Bool)
    (inbuf : List UInt8) (noWrap : pos + inbuf.length < 2 ^ 64 - 1) :
    ∃ after, cryptoAesctrStream cipher hwaccel stream inbuf =
        .ok (xorFrom (keystream cipher key nonce) pos inbuf, after) ∧
      Positioned cipher key nonce (pos + inbuf.length) after := by
  have processed : Processed cipher key nonce pos inbuf
      { stream, inbuf, outbuf := [] } :=
    ⟨Xored.start _ _ _, positioned, by omega⟩
  have bytectr := positioned.bytectr
  rcases preWholeblock_processed processed with ⟨pre, ends⟩
  unfold cryptoAesctrStream
  dsimp only
  rw [if_neg (by omega)]
  by_cases hardware : inbuf.length ≥ 16 ∧ hwaccel = true
  · rw [if_pos hardware]
    unfold hardwareStream
    generalize preWholeblock { stream, inbuf, outbuf := [] } = result
      at pre ends
    rcases result with ⟨finished, state⟩
    dsimp only at pre ends ⊢
    rcases ends with ⟨rfl, all⟩ | ⟨rfl, start⟩
    · rcases pre.finish all with ⟨outbuf, after⟩
      rw [if_pos (by decide), ← outbuf]
      exact ⟨state.stream, rfl, after⟩
    · rw [if_neg (not_not_intro rfl)]
      rcases hardwareBlocks_spec pre start with ⟨post, result, last, all⟩
      rcases last.finish all with ⟨outbuf, after⟩
      rw [result, ← outbuf]
      exact ⟨post.stream, rfl, after⟩
  · rw [if_neg hardware]
    generalize preWholeblock { stream, inbuf, outbuf := [] } = result
      at pre ends
    rcases result with ⟨finished, state⟩
    dsimp only at pre ends ⊢
    rcases ends with ⟨rfl, all⟩ | ⟨rfl, start⟩
    · rcases pre.finish all with ⟨outbuf, after⟩
      rw [if_pos (by decide), ← outbuf]
      exact ⟨state.stream, rfl, after⟩
    · rw [if_neg (not_not_intro rfl)]
      rcases wholeBlocks_spec pre start (Nat.le_refl _) with
        ⟨blocks, resultBlocks, done⟩
      rcases postWholeblock_spec done.processed done.start done.few with
        ⟨post, resultPost, last, all⟩
      rcases last.finish all with ⟨outbuf, after⟩
      rw [resultBlocks]
      dsimp only [bind, Except.bind]
      rw [resultPost, ← outbuf]
      exact ⟨post.stream, rfl, after⟩

/-- `crypto_aesctr_init2`, for a stream that is new or was used. -/
theorem cryptoAesctrInit2_spec {given : Option κ}
    (hasKey : given.or stream.key = some key) :
    ∃ start, cryptoAesctrInit2 stream given nonce = .ok start ∧
      Positioned cipher key nonce 0 start := by
  unfold cryptoAesctrInit2
  dsimp only
  rw [hasKey, if_neg (by simp)]
  refine ⟨_, rfl, rfl, rfl, ?_, ?_, fun inside => absurd rfl inside⟩
  · intro j isFront
    have other : j ≠ 15 := by
      rintro rfl
      exact absurd isFront (by decide)
    dsimp only
    rw [Function.update_of_ne other]
    exact if_pos isFront
  · show Function.update (encodeFront stream.pblk nonce) 15 0xff 15 = 0xff
    rw [Function.update_self]

/-- The message of some calls. -/
def messageOf (calls : List (Bool × List UInt8)) : List UInt8 :=
  calls.flatMap Prod.snd

/-- Some calls xor their message with the next bytes of the keystream. -/
theorem streamCalls_spec {pos : Nat} {calls : List (Bool × List UInt8)}
    (positioned : Positioned cipher key nonce pos stream)
    (noWrap : pos + (messageOf calls).length < 2 ^ 64 - 1) :
    ∃ after, streamCalls cipher stream calls =
        .ok (xorFrom (keystream cipher key nonce) pos (messageOf calls),
          after) ∧
      Positioned cipher key nonce (pos + (messageOf calls).length) after := by
  induction calls generalizing stream pos with
  | nil => exact ⟨stream, rfl, positioned⟩
  | cons call calls ih =>
      rcases call with ⟨hwaccel, inbuf⟩
      have split : messageOf ((hwaccel, inbuf) :: calls) =
          inbuf ++ messageOf calls := List.flatMap_cons
      rw [split, List.length_append] at noWrap
      rcases cryptoAesctrStream_spec positioned hwaccel inbuf (by omega) with
        ⟨next, result, positionedNext⟩
      rcases ih positionedNext (by omega) with
        ⟨after, results, positionedAfter⟩
      rw [split, xorFrom_append, List.length_append, ← Nat.add_assoc]
      unfold streamCalls
      rw [result]
      dsimp only [bind, Except.bind]
      rw [results]
      exact ⟨after, rfl, positionedAfter⟩

/-- After `crypto_aesctr_init2`, with a key or with the one that the stream
has, calls xor their message with the keystream, and later calls continue it.
A stream that was used gives the same output as one that was not. -/
theorem crypto_aesctr_stream_keystream (cipher : κ → Block → Block)
    (stream : CryptoAesctr κ) (given : Option κ) (key : κ) (nonce : Nat)
    (hasKey : given.or stream.key = some key) :
    ∃ start, cryptoAesctrInit2 stream given nonce = .ok start ∧
      (∀ calls, (messageOf calls).length < 2 ^ 64 - 1 →
        ∃ after, streamCalls cipher start calls =
            .ok (xorFrom (keystream cipher key nonce) 0 (messageOf calls),
              after) ∧
          ∀ later,
            (messageOf calls).length + (messageOf later).length <
              2 ^ 64 - 1 →
            ∃ last, streamCalls cipher after later =
              .ok (xorFrom (keystream cipher key nonce)
                (messageOf calls).length (messageOf later), last)) ∧
      ∀ fresh, ∃ startFresh,
        cryptoAesctrInit2 fresh (some key) nonce = .ok startFresh ∧
        ∀ calls, (messageOf calls).length < 2 ^ 64 - 1 →
          (streamCalls cipher start calls).map Prod.fst =
            (streamCalls cipher startFresh calls).map Prod.fst := by
  rcases @cryptoAesctrInit2_spec _ cipher key nonce stream given hasKey with
    ⟨start, result, positioned⟩
  refine ⟨start, result, ?_, ?_⟩
  · intro calls few
    rw [← Nat.zero_add (messageOf calls).length] at few
    rcases streamCalls_spec positioned few with
      ⟨after, results, positionedAfter⟩
    refine ⟨after, results, ?_⟩
    intro later fewLater
    rw [← Nat.zero_add (messageOf calls).length] at fewLater
    rcases streamCalls_spec positionedAfter fewLater with
      ⟨last, resultsLater, _⟩
    rw [Nat.zero_add] at resultsLater
    exact ⟨last, resultsLater⟩
  · intro fresh
    have hasKeyFresh : (some key).or fresh.key = some key := rfl
    rcases @cryptoAesctrInit2_spec _ cipher key nonce fresh (some key)
      hasKeyFresh with ⟨startFresh, resultFresh, positionedFresh⟩
    refine ⟨startFresh, resultFresh, ?_⟩
    intro calls few
    rw [← Nat.zero_add (messageOf calls).length] at few
    rcases streamCalls_spec positioned few with ⟨_, results, _⟩
    rcases streamCalls_spec positionedFresh few with
      ⟨_, resultsFresh, _⟩
    rw [results, resultsFresh]
    rfl

/-- A used stream whose key is retained. -/
theorem crypto_aesctr_stream_keystream_retained :
    (none : Option UInt8).or (some 7) = some 7 ∧
    ∃ start, cryptoAesctrInit2
        ⟨some (7 : UInt8), 33, fun _ => 5, fun _ => 9⟩ none 1 = .ok start ∧
      ∃ after, streamCalls (fun key block j => key ^^^ block j) start
          [(false, [1, 2]), (true, List.replicate 20 3)] =
        .ok (xorFrom (keystream (fun key block j => key ^^^ block j) 7 1) 0
          ([1, 2] ++ List.replicate 20 3), after) := by
  refine ⟨rfl, ?_⟩
  rcases crypto_aesctr_stream_keystream
    (fun (key : UInt8) block j => key ^^^ block j)
    ⟨some (7 : UInt8), 33, fun _ => 5, fun _ => 9⟩ none 7 1 rfl with
    ⟨start, result, calls, _⟩
  rcases calls [(false, [1, 2]), (true, List.replicate 20 3)] (by decide)
    with ⟨after, results, _⟩
  exact ⟨start, result, after, results⟩

end Libcperciva.Crypto.AesctrStream
