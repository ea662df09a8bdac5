import Libcperciva.Alg.Crc32cPolynomial
import Mathlib.Tactic.LinearCombination

/-!
# The checksum of CRC32C

Whatever way a call takes, it multiplies by the power of the root that belongs
to its bytes and adds the polynomial of the bytes.  This determines the state,
and with it the bytes that `CRC32C_Final` writes.
-/

namespace Libcperciva.Alg.Crc32cStream

open Libcperciva.Lib.Buffer
open Libcperciva.Lib.Gf2
open Libcperciva.Alg.Crc32cModel
open Libcperciva.Alg.Crc32cPolynomial

variable {bits : List Bool} {state next : UInt32} {buf bytes : List UInt8}
  {T : Tables} {i n : Nat}

/-! ## Bytes -/

/-- The bits of some bytes, the least significant bit of each byte first. -/
def bitsOf (bytes : List UInt8) : List Bool :=
  bytes.flatMap fun b => lsbFirst 8 b.toNat

theorem bitsOf_append (bytes others : List UInt8) :
    bitsOf (bytes ++ others) = bitsOf bytes ++ bitsOf others :=
  List.flatMap_append

theorem length_bitsOf (bytes : List UInt8) :
    (bitsOf bytes).length = 8 * bytes.length := by
  induction bytes with
  | nil => rfl
  | cons b bytes ih =>
      unfold bitsOf at ih ⊢
      rw [List.flatMap_cons, List.length_append, ih, length_lsbFirst,
        List.length_cons]
      omega

/-- A number in memory has the bits of its bytes. -/
theorem lsbFirst_load (bytes : List UInt8) :
    lsbFirst (8 * bytes.length) (load bytes) = bitsOf bytes := by
  induction bytes with
  | nil => rfl
  | cons b bytes ih =>
      have number : load (b :: bytes) = b.toNat + 256 * load bytes := rfl
      have small : b.toNat < 256 := b.toNat_lt
      have low : (b.toNat + 256 * load bytes) % 2 ^ 8 = b.toNat := by omega
      have high : (b.toNat + 256 * load bytes) >>> 8 = load bytes := by
        rw [Nat.shiftRight_eq_div_pow]
        omega
      have split : bitsOf (b :: bytes) = lsbFirst 8 b.toNat ++ bitsOf bytes :=
        List.flatMap_cons
      rw [List.length_cons, Nat.mul_succ, Nat.add_comm, lsbFirst_add, number,
        high, ih, ← lsbFirst_mod, low, split]

/-- What the bits of some bytes stand for. -/
noncomputable def value (bits : List Bool) : AdjoinRoot castagnoli :=
  AdjoinRoot.mk castagnoli (bitsPoly bits)

theorem value_append (bits others : List Bool) :
    value (bits ++ others) = value bits * root ^ others.length + value others := by
  unfold value
  rw [bitsPoly_append, map_add, map_mul, map_pow, AdjoinRoot.mk_X]

theorem value_lsbFirst (n d : Nat) :
    value (lsbFirst n d) = residue (reflect n d) := by
  unfold value residue
  rw [bitsPoly_lsbFirst]

/-! ## States -/

/-- The state after a bit sequence. -/
def Carried (bits : List Bool) (state : UInt32) : Prop :=
  register state.toNat = value bits * root ^ 32

/-- A bit sequence determines the state. -/
theorem Carried.unique (carried : Carried bits state)
    (other : Carried bits next) : state = next := by
  apply UInt32.toNat_inj.mp
  apply register_injective state.toNat_lt next.toNat_lt
  unfold Carried at carried other
  rw [carried, other]

/-- What all ways to process some bytes do. -/
def Feeds (bytes : List UInt8) (state next : UInt32) : Prop :=
  register next.toNat =
    register state.toNat * root ^ (8 * bytes.length) +
      value (bitsOf bytes) * root ^ 32

theorem Carried.feed (carried : Carried bits state)
    (feeds : Feeds bytes state next) : Carried (bits ++ bitsOf bytes) next := by
  unfold Carried Feeds at *
  rw [feeds, carried, value_append, length_bitsOf]
  ring

/-- The bytes of the state complete a multiple. -/
theorem Carried.dvd (carried : Carried bits state) :
    castagnoli ∣ bitsPoly (bits ++ bitsOf (crc32cFinal state)) := by
  have low : ∀ shift : UInt32, shift.toNat < 32 →
      lsbFirst 8 (state >>> shift &&& 0xff).toUInt8.toNat =
        lsbFirst 8 (state.toNat >>> shift.toNat) := by
    intro shift few
    have masked : (state >>> shift &&& 0xff).toUInt8.toNat =
        (state.toNat >>> shift.toNat) % 2 ^ 8 := by
      rw [UInt32.toNat_toUInt8, UInt32.toNat_and, UInt32.toNat_shiftRight,
        Nat.mod_eq_of_lt few]
      show (_ &&& (2 ^ 8 - 1)) % 2 ^ 8 = _
      rw [Nat.and_two_pow_sub_one_eq_mod, Nat.mod_mod]
    rw [masked, lsbFirst_mod]
  have written : bitsOf (crc32cFinal state) = lsbFirst 32 state.toNat := by
    have first := low 0 (by decide)
    rw [UInt32.shiftRight_zero] at first
    have split : lsbFirst 32 state.toNat = lsbFirst 8 state.toNat ++
        (lsbFirst 8 (state.toNat >>> 8) ++
          (lsbFirst 8 (state.toNat >>> 16) ++
            (lsbFirst 8 (state.toNat >>> 24) ++ []))) := by
      rw [lsbFirst_add 8 24, lsbFirst_add 8 16, lsbFirst_add 8 8,
        ← Nat.shiftRight_add, ← Nat.shiftRight_add, List.append_nil]
    rw [split]
    show lsbFirst 8 _ ++ (lsbFirst 8 _ ++ (lsbFirst 8 _ ++
      (lsbFirst 8 _ ++ []))) = _
    rw [first, low 8 (by decide), low 16 (by decide), low 24 (by decide)]
    rfl
  apply AdjoinRoot.mk_eq_zero.mp
  show value _ = 0
  rw [written, value_append, value_lsbFirst, length_lsbFirst, ← carried]
  exact residue_add_self _

/-! ## Instructions -/

/-- The instructions process the bytes that are loaded. -/
theorem crc32At_feeds (inside : i + n ≤ buf.length) (state : UInt32) :
    Feeds (slice buf i n) state (crc32At n state buf i) := by
  have length := length_slice inside
  have loaded := lsbFirst_load (slice buf i n)
  rw [length] at loaded
  have fits : mod2 0x11EDC6F41 32 (8 * n)
      (reflect (8 * n) (load (slice buf i n)) <<< 32 ^^^
        reflect 32 state.toNat <<< (8 * n)) < 2 ^ 32 := by
    apply mod2_lt (by decide) (by decide)
    apply Nat.xor_lt_two_pow
    · rw [Nat.add_comm 32, Nat.shiftLeft_eq, Nat.pow_add]
      exact Nat.mul_lt_mul_of_pos_right (reflect_lt _ _) (Nat.two_pow_pos 32)
    · rw [Nat.shiftLeft_eq, Nat.pow_add]
      exact Nat.mul_lt_mul_of_pos_right (reflect_lt _ _) (Nat.two_pow_pos _)
  unfold Feeds crc32At crc32 register
  rw [UInt32.toNat_ofNat_of_lt' (reflect_lt _ _), reflect_reflect fits,
    residue_mod2, residue_xor, residue_shiftLeft, residue_shiftLeft, length,
    ← loaded, value_lsbFirst]
  ring

/-! ## Tables -/

/-- The residue of a byte. -/
theorem register_byte (b : UInt8) :
    register b.toNat = value (bitsOf [b]) * root ^ 24 := by
  have bits : bitsOf [b] = lsbFirst 8 b.toNat :=
    List.flatMap_singleton _ b
  unfold register
  rw [bits, value_lsbFirst, reflect_of_lt b.toNat_lt (by decide : 8 ≤ 32),
    residue_shiftLeft]

/-- An element of a table, for a byte of the state and a byte of the
message. -/
theorem register_at {table : Table} (multiplies : Multiplies table n)
    (state shift : UInt32) (few : shift.toNat < 32) (b : UInt8) :
    register (table.at ((state >>> shift &&& 0xff) ^^^ b.toUInt32)).toNat =
      (register (state.toNat >>> shift.toNat % 2 ^ 8) +
        value (bitsOf [b]) * root ^ 24) * root ^ n := by
  have index : ((state >>> shift &&& 0xff) ^^^ b.toUInt32).toNat =
      state.toNat >>> shift.toNat % 2 ^ 8 ^^^ b.toNat := by
    rw [UInt32.toNat_xor, UInt32.toNat_and, UInt32.toNat_shiftRight,
      Nat.mod_eq_of_lt few, UInt8.toNat_toUInt32]
    show (_ &&& (2 ^ 8 - 1)) ^^^ _ = _
    rw [Nat.and_two_pow_sub_one_eq_mod]
  have inside : state.toNat >>> shift.toNat % 2 ^ 8 ^^^ b.toNat < 2 ^ 8 :=
    Nat.xor_lt_two_pow (Nat.mod_lt _ (by decide)) b.toNat_lt
  rw [multiplies _ (by rwa [index]), index, register_xor, register_byte]

/-- One byte at a time. -/
theorem individual_feeds (powers : Powers T) (state : UInt32) (b : UInt8) :
    Feeds [b] state (individual T state b) := by
  have element := register_at powers.T0 state 0 (by decide) b
  rw [UInt32.shiftRight_zero] at element
  have shifted := register_shift state.toNat_lt
  unfold Feeds individual
  rw [UInt32.toNat_xor, register_xor, element]
  show register (state.toNat >>> 8) +
    (register (state.toNat % 2 ^ 8) + value (bitsOf [b]) * root ^ 24) *
      root ^ 8 =
    register state.toNat * root ^ 8 + value (bitsOf [b]) * root ^ 32
  linear_combination -shifted

theorem value_cons (b : UInt8) (bytes : List UInt8) :
    value (bitsOf (b :: bytes)) =
      value (bitsOf [b]) * root ^ (8 * bytes.length) +
        value (bitsOf bytes) := by
  rw [← length_bitsOf, ← value_append, ← bitsOf_append]
  rfl

theorem value_four (b0 b1 b2 b3 : UInt8) :
    value (bitsOf [b0, b1, b2, b3]) =
      value (bitsOf [b0]) * root ^ 24 + value (bitsOf [b1]) * root ^ 16 +
        value (bitsOf [b2]) * root ^ 8 + value (bitsOf [b3]) := by
  have length1 : 8 * [b1, b2, b3].length = 24 := rfl
  have length2 : 8 * [b2, b3].length = 16 := rfl
  have length3 : 8 * [b3].length = 8 := rfl
  rw [value_cons b0, value_cons b1, value_cons b2, length1, length2, length3]
  ring

theorem register_zero : register 0 = 0 := by
  have double := register_xor 0 0
  rw [Nat.xor_self] at double
  exact left_eq_add.mp double

/-- All four bytes are shifted out. -/
theorem register_shift_all {d : Nat} (small : d < 2 ^ 32) :
    register d * root ^ 32 =
      register (d >>> 24 % 2 ^ 8) * root ^ 8 +
        register (d >>> 16 % 2 ^ 8) * root ^ 16 +
        register (d >>> 8 % 2 ^ 8) * root ^ 24 +
        register (d % 2 ^ 8) * root ^ 32 := by
  have smaller : ∀ k, d >>> k < 2 ^ 32 := fun k =>
    Nat.lt_of_le_of_lt (Nat.shiftRight_le d k) small
  have shift0 := register_shift small
  have shift1 := register_shift (smaller 8)
  have shift2 := register_shift (smaller 16)
  have shift3 := register_shift (smaller 24)
  have none : d >>> 32 = 0 := by
    rw [Nat.shiftRight_eq_div_pow]
    exact Nat.div_eq_of_lt small
  rw [← Nat.shiftRight_add] at shift1 shift2 shift3
  rw [none, register_zero] at shift3
  linear_combination root ^ 24 * shift0 + root ^ 16 * shift1 +
    root ^ 8 * shift2 + shift3

/-- Four bytes at a time. -/
theorem blocks_feeds (powers : Powers T) (state : UInt32)
    (b0 b1 b2 b3 : UInt8) :
    Feeds [b0, b1, b2, b3] state
      (T.T0.at ((state >>> 24 &&& 0xff) ^^^ b3.toUInt32) ^^^
        T.T1.at ((state >>> 16 &&& 0xff) ^^^ b2.toUInt32) ^^^
        T.T2.at ((state >>> 8 &&& 0xff) ^^^ b1.toUInt32) ^^^
        T.T3.at ((state &&& 0xff) ^^^ b0.toUInt32)) := by
  have element0 : register (T.T3.at ((state &&& 0xff) ^^^
      b0.toUInt32)).toNat = (register (state.toNat % 2 ^ 8) +
        value (bitsOf [b0]) * root ^ 24) * root ^ 32 := by
    have element := register_at powers.T3 state 0 (by decide) b0
    rwa [UInt32.shiftRight_zero] at element
  have element1 : register (T.T2.at ((state >>> 8 &&& 0xff) ^^^
      b1.toUInt32)).toNat = (register (state.toNat >>> 8 % 2 ^ 8) +
        value (bitsOf [b1]) * root ^ 24) * root ^ 24 :=
    register_at powers.T2 state 8 (by decide) b1
  have element2 : register (T.T1.at ((state >>> 16 &&& 0xff) ^^^
      b2.toUInt32)).toNat = (register (state.toNat >>> 16 % 2 ^ 8) +
        value (bitsOf [b2]) * root ^ 24) * root ^ 16 :=
    register_at powers.T1 state 16 (by decide) b2
  have element3 : register (T.T0.at ((state >>> 24 &&& 0xff) ^^^
      b3.toUInt32)).toNat = (register (state.toNat >>> 24 % 2 ^ 8) +
        value (bitsOf [b3]) * root ^ 24) * root ^ 8 :=
    register_at powers.T0 state 24 (by decide) b3
  have shifted := register_shift_all state.toNat_lt
  have length : 8 * [b0, b1, b2, b3].length = 32 := rfl
  unfold Feeds
  rw [UInt32.toNat_xor, UInt32.toNat_xor, UInt32.toNat_xor, register_xor,
    register_xor, register_xor, element0, element1, element2, element3,
    length, value_four]
  linear_combination -shifted

/-- The loop over blocks, and what it leaves. -/
theorem blocks_carried (powers : Powers T) (carried : Carried bits state) :
    Carried (bits ++ bitsOf buf)
      ((blocks T state buf).2.foldl (individual T) (blocks T state buf).1) := by
  have bytewise : ∀ (buf : List UInt8) {bits : List Bool} {state : UInt32},
      Carried bits state →
        Carried (bits ++ bitsOf buf) (buf.foldl (individual T) state) := by
    intro buf
    induction buf with
    | nil =>
        intro bits state carried
        rwa [bitsOf, List.flatMap_nil, List.append_nil]
    | cons b buf ih =>
        intro bits state carried
        have next := ih (carried.feed (individual_feeds powers state b))
        rw [List.append_assoc, ← bitsOf_append] at next
        exact next
  induction state, buf using blocks.induct T generalizing bits with
  | case1 state b0 b1 b2 b3 buf ih =>
      have next := ih (carried.feed (blocks_feeds powers state b0 b1 b2 b3))
      rw [List.append_assoc, ← bitsOf_append] at next
      exact next
  | case2 state buf few =>
      have stop : blocks T state buf = (state, buf) := by
        unfold blocks
        split
        · exact absurd rfl (few _ _ _ _ _)
        · rfl
      rw [stop]
      exact bytewise buf carried

/-! ## Hardware -/

/-- The loops over single bytes. -/
theorem byteLoop_carried {stop : Nat} (carried : Carried bits state)
    (inside : stop ≤ buf.length) :
    Carried (bits ++ bitsOf (slice buf i (stop - i)))
      (byteLoop buf state i stop) := by
  unfold byteLoop
  generalize left : stop - i = count
  induction count generalizing i bits state with
  | zero => rwa [slice_zero, bitsOf, List.flatMap_nil, List.append_nil]
  | succ count ih =>
      have fed := carried.feed
        (crc32At_feeds (by omega : i + 1 ≤ buf.length) state)
      have next := ih fed (by omega : stop - (i + 1) = count)
      rw [List.append_assoc, ← bitsOf_append, ← slice_add,
        Nat.add_comm 1 count] at next
      rw [List.range'_succ]
      exact next

/-- What a block of 8 bytes has to do. -/
def BlockFeeds (block : UInt32 → List UInt8 → Nat → UInt32)
    (buf : List UInt8) : Prop :=
  ∀ state i, i + 8 ≤ buf.length →
    Feeds (slice buf i 8) state (block state buf i)

/-- The loop over blocks of 8 bytes, of which `left` are left. -/
theorem blockLoop_carried {block : UInt32 → List UInt8 → Nat → UInt32}
    {preBlock count left : Nat} (feeds : BlockFeeds block buf)
    (few : preBlock < 8) (fits : preBlock + 8 * count ≤ buf.length)
    (place : i + 8 * left = preBlock + 8 * count)
    (carried : Carried bits state) :
    (blockLoop block buf (8 * count) state i).2 = preBlock + 8 * count ∧
      Carried (bits ++ bitsOf (slice buf i (8 * left)))
        (blockLoop block buf (8 * count) state i).1 := by
  induction left generalizing i bits state with
  | zero =>
      have stop : ¬ i < 8 * count := by omega
      unfold blockLoop
      rw [if_neg stop, Nat.mul_zero, slice_zero, bitsOf, List.flatMap_nil,
        List.append_nil]
      exact ⟨place, carried⟩
  | succ left ih =>
      have more : i < 8 * count := by omega
      have fed := carried.feed (feeds state i (by omega))
      rcases ih (by omega : i + 8 + 8 * left = _) fed with ⟨last, next⟩
      rw [List.append_assoc, ← bitsOf_append, ← slice_add,
        Nat.add_comm 8, ← Nat.mul_succ] at next
      unfold blockLoop
      rw [if_pos more]
      exact ⟨last, next⟩

theorem toNat_and_seven (x : UInt64) : (x &&& 7).toNat = x.toNat % 8 := by
  rw [UInt64.toNat_and]
  exact Nat.and_two_pow_sub_one_eq_mod x.toNat 3

/-- The first block is aligned. -/
theorem preBlock_aligned (addr : UInt64) :
    (addr + UInt64.ofNat ((8 - addr) &&& 7).toNat) &&& 7 = 0 := by
  apply UInt64.toNat_inj.mp
  have small := addr.toNat_lt
  rw [toNat_and_seven, toNat_and_seven, UInt64.toNat_add, UInt64.toNat_sub,
    UInt64.toNat_ofNat']
  show _ = 0
  have eight : UInt64.toNat 8 = 8 := rfl
  rw [eight]
  omega

/-- The functions for the special instructions. -/
theorem updateHardware_carried {block : UInt32 → List UInt8 → Nat → UInt32}
    (feeds : BlockFeeds block buf) (long : buf.length ≥ 8)
    (carried : Carried bits state) (addr : UInt64) :
    ∃ next, updateHardware block state addr buf = .ok next ∧
      Carried (bits ++ bitsOf buf) next := by
  have aligned := preBlock_aligned addr
  have few : ((8 - addr) &&& 7).toNat < 8 := by
    rw [toNat_and_seven]
    exact Nat.mod_lt _ (by decide)
  unfold updateHardware
  dsimp only
  rw [if_neg (not_not_intro long)]
  generalize ((8 - addr) &&& 7).toNat = preBlock at aligned few ⊢
  have whole : buf.length - preBlock - (buf.length - preBlock) % 8 =
      8 * ((buf.length - preBlock) / 8) := by
    omega
  have fits : preBlock + 8 * ((buf.length - preBlock) / 8) ≤ buf.length := by
    omega
  have rest : buf.length <
      preBlock + 8 * ((buf.length - preBlock) / 8) + 8 := by
    omega
  rw [if_neg (fun unaligned => unaligned.2 aligned), whole]
  generalize (buf.length - preBlock) / 8 = count at fits rest ⊢
  have before := byteLoop_carried (i := 0) carried
    (by omega : preBlock ≤ buf.length)
  generalize byteLoop buf state 0 preBlock = first at before ⊢
  rcases blockLoop_carried feeds few fits rfl before with ⟨stop, inner⟩
  generalize blockLoop block buf (8 * count) first preBlock = result
    at stop inner ⊢
  rcases result with ⟨second, i⟩
  dsimp only at stop inner ⊢
  subst stop
  have last := byteLoop_carried (i := preBlock + 8 * count) inner
    (Nat.le_refl buf.length)
  have remaining : (2 ^ 64 + buf.length - (preBlock + 8 * count)) % 2 ^ 64 <
      8 := by
    omega
  have parts : slice buf 0 (preBlock - 0) ++ slice buf preBlock (8 * count) ++
      slice buf (preBlock + 8 * count)
        (buf.length - (preBlock + 8 * count)) = buf := by
    have inner := slice_add buf 0 preBlock (8 * count)
    have outer := slice_add buf 0 (preBlock + 8 * count)
      (buf.length - (preBlock + 8 * count))
    rw [Nat.zero_add] at inner outer
    rw [Nat.sub_zero, ← inner, ← outer, Nat.add_sub_cancel' fits]
    exact List.take_length
  rw [if_neg (not_not_intro remaining)]
  refine ⟨_, rfl, ?_⟩
  rw [List.append_assoc, List.append_assoc, ← bitsOf_append,
    ← bitsOf_append, ← List.append_assoc, parts] at last
  exact last

/-- `CRC32C_Update_ARM` and the 64-bit instructions. -/
theorem crc32At_blockFeeds (buf : List UInt8) :
    BlockFeeds (crc32At 8) buf := fun state _ inside =>
  crc32At_feeds inside state

/-- Two instructions for 32 bits do what one for 64 bits does. -/
theorem Feeds.trans {middle : UInt32} {others : List UInt8}
    (first : Feeds bytes state middle) (second : Feeds others middle next) :
    Feeds (bytes ++ others) state next := by
  unfold Feeds at *
  rw [second, first, bitsOf_append, value_append, List.length_append,
    length_bitsOf]
  ring

/-! ## Checksums -/

/-- `CRC32C_Update`, in any way. -/
theorem crc32cUpdate_carried (powers : Powers T)
    (carried : Carried bits state) (hwaccel : Hwaccel) (addr : UInt64)
    (buf : List UInt8) :
    ∃ next, crc32cUpdate T hwaccel state addr buf = .ok next ∧
      Carried (bits ++ bitsOf buf) next := by
  have software := @blocks_carried _ _ buf _ powers carried
  unfold crc32cUpdate
  by_cases long : buf.length ≥ 8
  · rw [decide_eq_true long]
    cases hwaccel with
    | software => exact ⟨_, rfl, software⟩
    | x86Crc32 sse42_64 =>
        apply updateHardware_carried _ long carried addr
        intro state i inside
        cases sse42_64 with
        | true => exact crc32At_feeds inside state
        | false =>
            have first := crc32At_feeds (n := 4)
              (by omega : i + 4 ≤ buf.length) state
            have second := crc32At_feeds (n := 4)
              (by omega : i + 4 + 4 ≤ buf.length) (crc32At 4 state buf i)
            have both := first.trans second
            rw [← slice_add] at both
            exact both
    | armCrc32 =>
        exact updateHardware_carried (crc32At_blockFeeds buf) long carried addr
  · rw [decide_eq_false long]
    exact ⟨_, rfl, software⟩

/-- The message of some calls. -/
def messageOf (calls : List Call) : List UInt8 :=
  calls.flatMap Call.buf

theorem updates_carried {calls : List Call} (powers : Powers T)
    (carried : Carried bits state) :
    ∃ next, updates T state calls = .ok next ∧
      Carried (bits ++ bitsOf (messageOf calls)) next := by
  induction calls generalizing bits state with
  | nil =>
      refine ⟨state, rfl, ?_⟩
      rwa [messageOf, List.flatMap_nil, bitsOf, List.flatMap_nil,
        List.append_nil]
  | cons call calls ih =>
      rcases crc32cUpdate_carried powers carried call.hwaccel call.addr
        call.buf with ⟨middle, result, carriedMiddle⟩
      rcases ih carriedMiddle with ⟨next, results, carriedNext⟩
      have split : messageOf (call :: calls) = call.buf ++ messageOf calls :=
        List.flatMap_cons
      rw [split, bitsOf_append, ← List.append_assoc]
      unfold updates
      rw [result]
      exact ⟨next, results, carriedNext⟩

/-- The static variables after some calls of `CRC32C_Init`. -/
inductive Reachable : Statics → Prop where
  | start (tables : Tables) : Reachable { initdone := false, tables }
  | init {statics next : Statics} {state : UInt32}
      (before : Reachable statics)
      (result : crc32cInit statics = .ok (next, state)) : Reachable next

/-- `CRC32C_Init` succeeds and leaves the tables and the initial state. -/
theorem crc32cInit_spec {statics : Statics}
    (ready : statics.initdone = true → Powers statics.tables) :
    ∃ next, crc32cInit statics = .ok (next, T_0_0x80) ∧
      Powers next.tables := by
  rcases init_spec with ⟨tables, result, powers⟩
  unfold crc32cInit
  by_cases fresh : statics.initdone = false
  · rw [if_pos fresh, result]
    exact ⟨_, rfl, powers⟩
  · rw [if_neg fresh]
    exact ⟨statics, rfl, ready (Bool.eq_true_of_not_eq_false fresh)⟩

theorem Reachable.ready {statics : Statics} (reachable : Reachable statics) :
    statics.initdone = true → Powers statics.tables := by
  induction reachable with
  | start tables => exact fun isDone => absurd isDone Bool.false_ne_true
  | init before result ih =>
      rcases crc32cInit_spec ih with ⟨after, resultAfter, powers⟩
      rw [resultAfter] at result
      cases result
      exact fun _ => powers

/-- The initial state stands for the implicit leading bit. -/
theorem carried_T_0_0x80 : Carried [true] T_0_0x80 := by
  have one : value [true] = 1 := by
    unfold value
    show AdjoinRoot.mk castagnoli (0 * Polynomial.X + Polynomial.C 1) = 1
    rw [zero_mul, zero_add, Polynomial.C_1, map_one]
  unfold Carried
  rw [register_T_0_0x80, one, one_mul]

/-- A message has one checksum, however it is divided, wherever its parts lie
and whatever way they are processed; the checksum completes a multiple of the
Castagnoli polynomial. -/
theorem crc32c_checksum (message : List UInt8) :
    ∃ cbuf : List UInt8, cbuf.length = 4 ∧
      castagnoli ∣ bitsPoly (true :: bitsOf (message ++ cbuf)) ∧
      ∀ statics calls, Reachable statics → messageOf calls = message →
        checksum statics calls = .ok cbuf := by
  rcases init_spec with ⟨tables, result, powers⟩
  rcases @updates_carried _ _ _ [⟨.software, 0, message⟩] powers
    carried_T_0_0x80 with ⟨state, _, carried⟩
  have whole : messageOf [⟨.software, 0, message⟩] = message :=
    List.append_nil message
  rw [whole] at carried
  refine ⟨crc32cFinal state, rfl, ?_, ?_⟩
  · have dvd := carried.dvd
    rw [List.append_assoc, ← bitsOf_append] at dvd
    exact dvd
  · rintro statics calls reachable rfl
    rcases crc32cInit_spec reachable.ready with ⟨next, resultInit, filled⟩
    rcases @updates_carried _ _ _ calls filled carried_T_0_0x80 with
      ⟨last, results, carriedLast⟩
    unfold checksum
    rw [resultInit]
    dsimp only [bind, Except.bind]
    rw [results, carriedLast.unique carried]

/-- Five bytes in two calls. -/
theorem crc32c_checksum_hello :
    ∃ cbuf : List UInt8, cbuf.length = 4 ∧
      checksum ⟨false, ⟨fun _ => 0, fun _ => 0, fun _ => 0, fun _ => 0⟩⟩
        [⟨.armCrc32, 3, [104, 101]⟩, ⟨.software, 8, [108, 108, 111]⟩] =
          .ok cbuf := by
  rcases crc32c_checksum [104, 101, 108, 108, 111] with
    ⟨cbuf, length, _, all⟩
  exact ⟨cbuf, length, all _ _ (Reachable.start _) rfl⟩

end Libcperciva.Alg.Crc32cStream
