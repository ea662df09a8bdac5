import Libcperciva.Crypto.EntropyService

/-!
# Runs of the random generator

The static variables are the generator of the service.  Each call gives what a
request gives, and the variables still match.
-/

namespace Libcperciva.Crypto.EntropyRuns

open Libcperciva.Lib
open Libcperciva.Lib.Buffer
open Libcperciva.Alg.Sha256Model
open Libcperciva.Alg.Sha256Stream
open Libcperciva.Alg.HmacModel
open Libcperciva.Alg.HmacStream
open Libcperciva.Crypto.EntropyModel
open Libcperciva.Crypto.EntropyService

variable {stack : Stack} {x86Rdrand : Bool} {drbg : Drbg}
  {data V H buf : List UInt8}

/-! ## Updates -/

/-- The working state of the standard. -/
def stateOf (drbg : Drbg) : HmacDrbg.State where
  V := drbg.V
  Key := drbg.Key
  reseedCounter := drbg.reseedCounter

/-- `Key` and `V` are arrays of 32 bytes. -/
structure Sized (state : HmacDrbg.State) : Prop where
  key : state.Key.length = 32
  value : state.V.length = 32

theorem update_sized (state : HmacDrbg.State) (data : List UInt8) :
    Sized (HmacDrbg.update hmacSha256 data state) := by
  have lengths := @HmacDrbg.length_update hmacSha256 32 state
    length_hmacSha256 data
  exact ⟨lengths.1, lengths.2⟩

/-- HMAC of a text in two parts. -/
theorem hmac_parts {ctx : HmacSha256Ctx} {tmp32 : Tmp32}
    {K first second : List UInt8} (shortKey : K.length < 2 ^ 61)
    (short : 64 + (first ++ second).length < 2 ^ 61) :
    (hmacSha256Final
      (hmacSha256Update
        (hmacSha256Update (hmacSha256Init ctx K tmp32) first tmp32) second
        tmp32) tmp32).1 = hmacSha256 K (first ++ second) := by
  have keyed := @hmacSha256InitInternal_keyed ctx tmp32 K shortKey
  have begun := @hmacSha256UpdateInternal_keyed _ tmp32 _ _ first keyed (by
    rw [List.nil_append]
    rw [List.length_append] at short
    omega)
  have done := @hmacSha256UpdateInternal_keyed _ tmp32 _ _ second begun short
  exact hmacSha256FinalInternal_spec done

/-- `Vx` starts with `V`. -/
theorem take_value (length : V.length = 32) (byte : UInt8) :
    (V ++ [byte]).take 32 = V :=
  List.take_left' length

/-- `V` is replaced in `Vx`. -/
theorem write_value (length : V.length = 32) (lengthH : H.length = 32)
    (byte : UInt8) : write (V ++ [byte]) 0 H = H ++ [byte] := by
  unfold write
  rw [List.take_zero, List.nil_append, Nat.zero_add, lengthH,
    List.drop_left' length]

/-- The last byte of `Vx` is replaced. -/
theorem set_value (length : V.length = 32) (byte byte' : UInt8) :
    (V ++ [byte]).set 32 byte' = V ++ [byte'] := by
  rw [List.set_append_right _ _ (Nat.le_of_eq length), length]
  rfl

/-- `update` is the update of the standard. -/
theorem update_spec (sized : Sized (stateOf drbg))
    (short : data.length < 2 ^ 32) :
    stateOf (update stack data drbg) =
      HmacDrbg.update hmacSha256 data (stateOf drbg) := by
  have value : drbg.V.length = 32 := sized.value
  have shortKey : drbg.Key.length < 2 ^ 61 := by
    rw [show drbg.Key.length = 32 from sized.key]
    decide
  have shortHmac (K text : List UInt8) :
      (hmacSha256 K text).length < 2 ^ 61 := by
    rw [length_hmacSha256]
    decide
  have shortText {V : List UInt8} (length : V.length = 32) (byte : UInt8) :
      64 + ((V ++ [byte]) ++ data).length < 2 ^ 61 := by
    rw [List.length_append, List.length_append, length]
    show 64 + (32 + 1 + data.length) < 2 ^ 61
    omega
  have shortValue {V : List UInt8} (length : V.length = 32) :
      64 + V.length < 2 ^ 61 := by
    rw [length]
    decide
  unfold update HmacDrbg.update
  dsimp only
  rw [hmac_parts shortKey (shortText value 0), take_value value,
    hmacSha256Buf_spec (shortHmac _ _) (shortValue value),
    write_value value (length_hmacSha256 _ _), List.append_assoc]
  by_cases null : data = []
  · have zero : ¬ data.length ≠ 0 := by
      rw [null]
      decide
    rw [if_neg zero, if_pos null, take_value (length_hmacSha256 _ _)]
    rfl
  · have some : data.length ≠ 0 := by
      rw [ne_eq, List.length_eq_zero_iff]
      exact null
    rw [if_pos some, if_neg null, set_value (length_hmacSha256 _ _),
      hmac_parts (shortHmac _ _) (shortText (length_hmacSha256 _ _) 1),
      take_value (length_hmacSha256 _ _),
      hmacSha256Buf_spec (shortHmac _ _)
        (shortValue (length_hmacSha256 _ _)),
      write_value (length_hmacSha256 _ _) (length_hmacSha256 _ _),
      take_value (length_hmacSha256 _ _), List.append_assoc]
    rfl

/-! ## Seeds -/

theorem length_generateSeedRdrand {world after : World} {len : Nat}
    (read : generateSeedRdrand world len = (some buf, after)) :
    buf.length = 4 * len := by
  induction len generalizing world buf with
  | zero =>
      cases read
      rfl
  | succ len ih =>
      unfold generateSeedRdrand at read
      dsimp only at read
      cases word : world.rdrand.head with
      | none =>
          rw [word] at read
          cases read
      | some x =>
          rw [word] at read
          dsimp only at read
          rcases rest : generateSeedRdrand
            { world with rdrand := world.rdrand.tail } len with ⟨_ | tail, last⟩
          · rw [rest] at read
            cases read
          · rw [rest] at read
            cases read
            have length := ih rest
            show tail.length + 1 + 1 + 1 + 1 = 4 * (len + 1)
            omega

/-- Output of RDRAND is mixed in. -/
theorem addRdrand_spec (sized : Sized (stateOf drbg)) (world : World) :
    mixRdrand x86Rdrand (stateOf drbg) world =
        (stateOf (addRdrand stack x86Rdrand drbg world).1,
          (addRdrand stack x86Rdrand drbg world).2) ∧
      Sized (stateOf (addRdrand stack x86Rdrand drbg world).1) ∧
      (addRdrand stack x86Rdrand drbg world).1.reseedCounter =
        drbg.reseedCounter := by
  unfold mixRdrand addRdrand updateFromRdrand
  cases x86Rdrand with
  | false => exact ⟨rfl, sized, rfl⟩
  | true =>
      rcases read : generateSeedRdrand world 8 with ⟨_ | words, after⟩
      · exact ⟨rfl, sized, rfl⟩
      · have length := length_generateSeedRdrand read
        have updated := @update_spec stack drbg words sized (by
          rw [length]
          decide)
        have sized' := update_sized (stateOf drbg) words
        rw [← updated] at sized'
        exact ⟨congrArg (·, after) updated.symm, sized', rfl⟩

/-- The variables of a generator that was just seeded. -/
structure Fresh (drbg : Drbg) (seeded : Seeded) : Prop where
  state : seeded.state = stateOf drbg
  sized : Sized seeded.state
  counter : drbg.reseedCounter = 1
  used : seeded.used = 0

/-- What a function that seeds returns. -/
def SeedsAs (result : Int × Drbg × World) (drbg : Drbg) :
    Option Seeded × World → Prop
  | (none, after) => result = (-1, drbg, after)
  | (some seeded, after) =>
      ∃ drbg', result = (0, drbg', after) ∧ Fresh drbg' seeded

/-- The variables before the seed is mixed in. -/
def initial : Drbg where
  Key := List.replicate 32 0x00
  V := List.replicate 32 0x01
  reseedCounter := 1

theorem initial_sized : Sized (stateOf initial) :=
  ⟨List.length_replicate, List.length_replicate⟩

theorem instantiate_spec (drbg : Drbg) (world : World) :
    SeedsAs (instantiate stack x86Rdrand drbg world) drbg
      (seed x86Rdrand 48 (HmacDrbg.instantiate hmacSha256 32) world) := by
  unfold instantiate seed entropyRead
  cases world.entropy.head with
  | none => exact rfl
  | some bytes =>
      have updated := @update_spec stack _ ((List.range 48).map bytes)
        initial_sized (by
          rw [List.length_map, List.length_range]
          decide)
      have sized := update_sized (stateOf initial)
        ((List.range 48).map bytes)
      rw [← updated] at sized
      have mixed := @addRdrand_spec stack x86Rdrand _ sized
        { world with entropy := world.entropy.tail }
      have instantiated : HmacDrbg.instantiate hmacSha256 32
          ((List.range 48).map bytes) = _ := updated.symm
      dsimp only [Option.map_some]
      rw [instantiated, mixed.1]
      exact ⟨_, rfl, rfl, mixed.2.1, mixed.2.2, rfl⟩

/-- The counter has nothing to do with an update. -/
theorem mixRdrand_counter (state : HmacDrbg.State) (world : World)
    (reseedCounter : Nat) :
    mixRdrand x86Rdrand { state with reseedCounter } world =
      ({ (mixRdrand x86Rdrand state world).1 with reseedCounter },
        (mixRdrand x86Rdrand state world).2) := by
  unfold mixRdrand HmacDrbg.update
  cases x86Rdrand with
  | false => rfl
  | true =>
      rcases generateSeedRdrand world 8 with ⟨_ | words, after⟩
      · rfl
      · cases words with
        | nil => rfl
        | cons word words => rfl

theorem reseed_spec (sized : Sized (stateOf drbg)) (world : World) :
    SeedsAs (reseed stack x86Rdrand drbg world) drbg
      (seed x86Rdrand 32 (HmacDrbg.reseed hmacSha256 (stateOf drbg))
        world) := by
  unfold reseed seed entropyRead
  cases world.entropy.head with
  | none => exact rfl
  | some bytes =>
      have updated := @update_spec stack drbg ((List.range 32).map bytes)
        sized (by
          rw [List.length_map, List.length_range]
          decide)
      have sized' := update_sized (stateOf drbg) ((List.range 32).map bytes)
      rw [← updated] at sized'
      have mixed := @addRdrand_spec stack x86Rdrand _ sized'
        { world with entropy := world.entropy.tail }
      dsimp only [Option.map_some]
      unfold HmacDrbg.reseed
      rw [← updated, mixRdrand_counter, mixed.1]
      exact ⟨_, rfl, rfl, ⟨mixed.2.1.key, mixed.2.1.value⟩, rfl, rfl⟩

/-! ## Generation -/

/-- The loop of `generate` writes the outputs. -/
theorem fill_spec {Key : List UInt8} {pos bufpos buflen blocks : Nat}
    (shortKey : Key.length < 2 ^ 61) (length : V.length = 32)
    (left : blocks = (buflen - bufpos + 31) / 32)
    (inside : pos + buflen ≤ buf.length) :
    fill stack Key V buf pos bufpos buflen =
      ((HmacDrbg.outputs hmacSha256 Key blocks V).2,
        write buf (pos + bufpos)
          ((HmacDrbg.outputs hmacSha256 Key blocks V).1.take
            (buflen - bufpos))) := by
  induction blocks generalizing V buf bufpos with
  | zero =>
      have done : ¬ bufpos < buflen := by omega
      unfold fill
      rw [if_neg done]
      show (V, buf) = (V, write buf (pos + bufpos) ([].take _))
      rw [List.take_nil, write_nil]
  | succ blocks ih =>
      have more : bufpos < buflen := by omega
      have value : hmacSha256Buf stack.ctx Key V stack.tmp32 =
          hmacSha256 Key V := by
        apply hmacSha256Buf_spec shortKey
        rw [length]
        decide
      have outputs : HmacDrbg.outputs hmacSha256 Key (blocks + 1) V =
          (hmacSha256 Key V ++
              (HmacDrbg.outputs hmacSha256 Key blocks (hmacSha256 Key V)).1,
            (HmacDrbg.outputs hmacSha256 Key blocks (hmacSha256 Key V)).2) :=
        rfl
      have lengthH := length_hmacSha256 Key V
      unfold fill
      rw [if_pos more, value, outputs]
      dsimp only
      by_cases whole : buflen - bufpos ≥ 32
      · rw [if_pos whole, List.take_of_length_le (Nat.le_of_eq lengthH),
          ih lengthH (by omega) (by
            rw [length_write (by rw [lengthH]; omega)]
            exact inside)]
        have place : pos + (bufpos + 32) =
            pos + bufpos + (hmacSha256 Key V).length := by
          rw [lengthH, Nat.add_assoc]
        rw [place, write_write (by omega), List.take_append, lengthH,
          List.take_of_length_le (by omega : (hmacSha256 Key V).length ≤ _),
          Nat.sub_sub]
      · have last : blocks = 0 := by omega
        have done : ¬ bufpos + 32 < buflen := by omega
        rw [if_neg whole, last]
        unfold fill
        rw [if_neg done]
        show _ = (hmacSha256 Key V, write buf _ ((_ ++ []).take _))
        rw [List.append_nil]

/-- The variables of a generator. -/
structure Matches (drbg : Drbg) (seeded : Seeded) : Prop where
  state : seeded.state = stateOf drbg
  sized : Sized seeded.state
  counter : drbg.reseedCounter = seeded.used + 1
  few : seeded.used ≤ 256

theorem Fresh.matches {seeded : Seeded} (fresh : Fresh drbg seeded) :
    Matches drbg seeded where
  state := fresh.state
  sized := fresh.sized
  counter := by rw [fresh.counter, fresh.used]
  few := by
    rw [fresh.used]
    decide

variable {seeded : Seeded} {statics : Statics}

/-- `generate` does not fail an assertion, and advances the generator. -/
theorem generate_spec {pos n : Nat} (isMatch : Matches drbg seeded)
    (fewer : seeded.used < 256) (inside : pos + min n 65536 ≤ buf.length) :
    ∃ drbg', generate stack drbg buf pos (min n 65536) =
        some (drbg', write buf pos
          (HmacDrbg.generate hmacSha256 32 seeded.state (min n 65536)).1) ∧
      Matches drbg' (advance seeded n) := by
  have asserted : min n 65536 ≤ GENERATE_MAXLEN ∧
      drbg.reseedCounter ≤ RESEED_INTERVAL := by
    rw [isMatch.counter]
    exact ⟨Nat.min_le_right n 65536, fewer⟩
  have sized := isMatch.sized
  rw [isMatch.state] at sized
  have value : drbg.V.length = 32 := sized.value
  have shortKey : drbg.Key.length < 2 ^ 61 := by
    rw [show drbg.Key.length = 32 from sized.key]
    decide
  have filled := @fill_spec stack drbg.V buf drbg.Key pos 0 (min n 65536) _
    shortKey value rfl inside
  rw [Nat.add_zero, Nat.sub_zero] at filled
  have lengthV : ∀ blocks,
      (HmacDrbg.outputs hmacSha256 drbg.Key blocks drbg.V).2.length = 32 := by
    intro blocks
    generalize drbg.V = V at value
    induction blocks generalizing V with
    | zero => exact value
    | succ blocks ih =>
        exact ih (hmacSha256 drbg.Key V) (length_hmacSha256 _ _)
  have noWrap : (drbg.reseedCounter + 1) % 2 ^ 32 = drbg.reseedCounter + 1 := by
    rw [isMatch.counter]
    apply Nat.mod_eq_of_lt
    omega
  have updated := @update_spec stack
    { drbg with
      V := (HmacDrbg.outputs hmacSha256 drbg.Key
        ((min n 65536 + 31) / 32) drbg.V).2 } [] ⟨sized.key, lengthV _⟩
    (by decide)
  have sized' := update_sized
    (stateOf
      { drbg with
        V := (HmacDrbg.outputs hmacSha256 drbg.Key
          ((min n 65536 + 31) / 32) drbg.V).2 }) []
  rcases seeded with ⟨state, used⟩
  have same : state = stateOf drbg := isMatch.state
  subst same
  unfold generate
  rw [if_pos asserted, filled]
  refine ⟨_, rfl, ?_⟩
  constructor
  · have advanced : (advance ⟨stateOf drbg, used⟩ n).state =
        { HmacDrbg.update hmacSha256 []
            (stateOf
              { drbg with
                V := (HmacDrbg.outputs hmacSha256 drbg.Key
                  ((min n 65536 + 31) / 32) drbg.V).2 }) with
          reseedCounter := drbg.reseedCounter + 1 } :=
      rfl
    rw [advanced, ← updated, ← noWrap]
    rfl
  · exact ⟨sized'.key, sized'.value⟩
  · show (drbg.reseedCounter + 1) % 2 ^ 32 = used + 1 + 1
    rw [noWrap, isMatch.counter]
  · exact fewer

/-! ## Requests -/

/-- The static variables of a generator, or of none. -/
def Refines (statics : Statics) : Option Seeded → Prop
  | none => statics.instantiated = false
  | some seeded => statics.instantiated = true ∧ Matches statics.drbg seeded

/-- A call gives what a request gives. -/
structure Answers (result : ReadResult) (buf : List UInt8) (pos : Nat)
    (outcome : Outcome) : Prop where
  status : result.status = if outcome.succeeds then 0 else -1
  buf : result.buf = write buf pos outcome.bytes
  statics : Refines result.statics outcome.service
  world : result.world = outcome.world

/-- A reseed, if it is needed. -/
theorem refresh_spec (isMatch : Matches drbg seeded) (world : World) :
    match refresh x86Rdrand seeded world with
    | (none, after) =>
        (if drbg.reseedCounter > RESEED_INTERVAL then
          reseed stack x86Rdrand drbg world
        else (0, drbg, world)) = (-1, drbg, after)
    | (some fresh, after) =>
        ∃ drbg', (if drbg.reseedCounter > RESEED_INTERVAL then
            reseed stack x86Rdrand drbg world
          else (0, drbg, world)) = (0, drbg', after) ∧
          Matches drbg' fresh ∧ fresh.used < 256 := by
  have counter := isMatch.counter
  have sized := isMatch.sized
  rw [isMatch.state] at sized
  have seeds := @reseed_spec stack x86Rdrand drbg sized world
  have few := isMatch.few
  unfold refresh
  rw [isMatch.state]
  by_cases spent : seeded.used = 256
  · have reached : drbg.reseedCounter > RESEED_INTERVAL := by
      rw [counter, spent]
      decide
    rw [if_pos spent, if_pos reached]
    generalize seed x86Rdrand 32 _ world = result at seeds ⊢
    rcases result with ⟨_ | fresh, after⟩
    · exact seeds
    · rcases seeds with ⟨drbg', same, isFresh⟩
      refine ⟨drbg', same, isFresh.matches, ?_⟩
      rw [isFresh.used]
      decide
  · have within : ¬ drbg.reseedCounter > RESEED_INTERVAL := by
      rw [counter]
      show ¬ seeded.used + 1 > 256
      omega
    rw [if_neg spent, if_neg within]
    exact ⟨drbg, rfl, isMatch, by omega⟩

/-- The loop provides the bytes. -/
theorem readLoop_spec {pos n : Nat} {world : World}
    (isMatch : Matches statics.drbg seeded)
    (instantiated : statics.instantiated = true)
    (inside : pos + n ≤ buf.length) :
    ∃ result, readLoop stack x86Rdrand statics world buf pos n = some result ∧
      Answers result buf pos (provide x86Rdrand seeded world n) := by
  induction n using Nat.strong_induction_on
    generalizing seeded statics world buf pos with
  | _ n ih =>
      unfold readLoop
      rcases Nat.eq_zero_or_pos n with rfl | positive
      · rw [if_neg (Nat.lt_irrefl 0), provide_zero]
        refine ⟨_, rfl, rfl, ?_, ⟨instantiated, isMatch⟩, rfl⟩
        rw [write_nil]
      · rw [if_pos positive]
        have refreshes := @refresh_spec stack x86Rdrand _ _ isMatch world
        rcases refreshed : refresh x86Rdrand seeded world with ⟨_ | fresh, after⟩
        · rw [refreshed] at refreshes
          rw [refreshes, provide_of_none positive refreshed]
          refine ⟨_, rfl, rfl, ?_, ⟨instantiated, isMatch⟩, rfl⟩
          rw [write_nil]
        · rw [refreshed] at refreshes
          rcases refreshes with ⟨drbg', reseeded, isMatch', fewer⟩
          have amount : (if n > GENERATE_MAXLEN then GENERATE_MAXLEN else n) =
              min n 65536 := by
            show (if n > 65536 then 65536 else n) = _
            split <;> omega
          rcases @generate_spec stack drbg' buf fresh pos n isMatch' fewer
            (by omega) with ⟨drbg'', generated, advanced⟩
          rw [reseeded, amount, provide_of_some positive refreshed]
          dsimp only
          rw [if_neg (by decide), generated]
          dsimp only
          have length := @HmacDrbg.length_generate hmacSha256 32 fresh.state
            length_hmacSha256 (by decide) (min n 65536)
          have remains : pos + min n 65536 + (n - min n 65536) ≤
              (write buf pos (HmacDrbg.generate hmacSha256 32 fresh.state
                (min n 65536)).1).length := by
            rw [length_write (by rw [length]; omega)]
            omega
          rcases @ih (n - min n 65536) (by omega) _ (advance fresh n)
            { statics with drbg := drbg'' } _ after advanced instantiated
            remains with ⟨result, done, answers⟩
          refine ⟨result, done, answers.status, ?_, answers.statics,
            answers.world⟩
          have front : pos ≤ buf.length := by omega
          have place : pos + min n 65536 = pos + _ :=
            congrArg (pos + ·) length.symm
          rw [answers.buf, place]
          exact write_write front

/-- `crypto_entropy_read` serves a request. -/
theorem cryptoEntropyRead_spec {service : Option Seeded} {world : World}
    {n : Nat} (refines : Refines statics service) (inside : n ≤ buf.length) :
    ∃ result, cryptoEntropyRead stack x86Rdrand statics world buf n =
        some result ∧
      Answers result buf 0 (request x86Rdrand service world n) ∧
      (result.statics.instantiated = false → result.statics = statics) := by
  have fits : 0 + n ≤ buf.length := by
    rw [Nat.zero_add]
    exact inside
  have loop {seeded : Seeded} {statics' : Statics} {world : World}
      (isMatch : Matches statics'.drbg seeded)
      (instantiated : statics'.instantiated = true) :
      ∃ result, readLoop stack x86Rdrand statics' world buf 0 n =
          some result ∧
        Answers result buf 0 (provide x86Rdrand seeded world n) ∧
        (result.statics.instantiated = false → result.statics = statics) := by
    rcases @readLoop_spec stack x86Rdrand buf seeded statics' 0 n world isMatch
      instantiated fits with ⟨result, done, answers⟩
    refine ⟨result, done, answers, ?_⟩
    have refines := answers.statics
    rcases @provide_service x86Rdrand seeded world n with ⟨after, provided⟩
    rw [provided] at refines
    intro impossible
    rw [refines.1] at impossible
    cases impossible
  unfold cryptoEntropyRead
  cases service with
  | some seeded =>
      rw [if_neg (by rw [refines.1]; decide)]
      exact loop refines.2 refines.1
  | none =>
      have none : statics.instantiated = false := refines
      rw [if_pos none]
      unfold request
      dsimp only
      by_cases closed : world.atexit.head = false
      · rw [if_pos closed, if_pos closed]
        refine ⟨_, rfl, ⟨rfl, ?_, refines, rfl⟩, fun _ => rfl⟩
        rw [write_nil]
      · rw [if_neg closed, if_neg closed]
        have seeds := @instantiate_spec stack x86Rdrand statics.drbg
          { world with atexit := world.atexit.tail }
        generalize seed x86Rdrand 48 _ _ = result at seeds ⊢
        rcases result with ⟨_ | fresh, after⟩
        · have failed : instantiate stack x86Rdrand statics.drbg
              { world with atexit := world.atexit.tail } = _ := seeds
          rw [failed]
          refine ⟨_, rfl, ⟨rfl, ?_, refines, rfl⟩, fun _ => rfl⟩
          rw [write_nil]
        · rcases seeds with ⟨drbg', seeded, isFresh⟩
          rw [seeded]
          exact loop isFresh.matches rfl

/-! ## Failures -/

/-- The variables of a generator are determined. -/
theorem Refines.unique {statics' : Statics} {service : Option Seeded}
    (refines : Refines statics service) (refines' : Refines statics' service)
    (seeded : statics.instantiated = true) : statics = statics' := by
  cases service with
  | none =>
      have none : statics.instantiated = false := refines
      rw [none] at seeded
      cases seeded
  | some generator =>
      rcases statics with ⟨drbg, instantiated⟩
      rcases statics' with ⟨drbg', instantiated'⟩
      rcases drbg with ⟨Key, V, counter⟩
      rcases drbg' with ⟨Key', V', counter'⟩
      have same : stateOf ⟨Key, V, counter⟩ = stateOf ⟨Key', V', counter'⟩ :=
        refines.2.state.symm.trans refines'.2.state
      have flag : instantiated = instantiated' :=
        refines.1.trans refines'.1.symm
      cases same
      cases flag
      rfl

/-- What holds after a call that fails. -/
structure Failed (stack : Stack) (x86Rdrand : Bool) (statics : Statics)
    (world : World) (buf : List UInt8) (n : Nat) (result : ReadResult) :
    Prop where
  /-- The state is the one before the attempt to seed: that of the first call,
  or that after the bytes so far. -/
  unchanged :
    (statics.instantiated = false ∧ result.statics = statics) ∨
      ∃ m < n, ∃ before,
        cryptoEntropyRead stack x86Rdrand statics world buf m = some before ∧
          before.status = 0 ∧ before.statics = result.statics ∧
          before.world.entropy.head = none
  /-- No call gives a byte without a seed. -/
  silent : ∀ (world' : World) (buf' : List UInt8) (n' : Nat),
    n' ≤ buf'.length → world'.entropy.head = none →
      ∃ after,
        cryptoEntropyRead stack x86Rdrand result.statics world' buf' n' =
            some after ∧
          after.buf = buf' ∧ after.statics = result.statics ∧
          (0 < n' → after.status = -1)

theorem cryptoEntropyRead_fails {service : Option Seeded} {world : World}
    {n : Nat} {result : ReadResult} (refines : Refines statics service)
    (inside : n ≤ buf.length)
    (read : cryptoEntropyRead stack x86Rdrand statics world buf n =
      some result)
    (fails : result.status = -1) :
    Failed stack x86Rdrand statics world buf n result := by
  rcases @cryptoEntropyRead_spec stack x86Rdrand buf statics service world n
    refines inside with ⟨result', read', answers, uninstantiated⟩
  rw [read] at read'
  cases read'
  have stops : (request x86Rdrand service world n).succeeds = false := by
    have status := answers.status
    rw [fails] at status
    cases succeeds : (request x86Rdrand service world n).succeeds with
    | false => rfl
    | true =>
        rw [succeeds] at status
        cases status
  have needsSeed : NeedsSeed (request x86Rdrand service world n).service := by
    rcases request_fails stops with none | ⟨m, fewer, stopped⟩
    · rw [none]
      trivial
    · exact stopped.needsSeed
  constructor
  · cases seeded : result.statics.instantiated with
    | false =>
        have same := uninstantiated seeded
        rw [same] at seeded
        exact Or.inl ⟨seeded, same⟩
    | true =>
        rcases request_fails stops with none | ⟨m, fewer, stopped⟩
        · have refines' := answers.statics
          rw [none] at refines'
          exact absurd (seeded.symm.trans refines') (by decide)
        · rcases @cryptoEntropyRead_spec stack x86Rdrand buf statics service
            world m refines (by omega) with ⟨before, readBefore, answersBefore, _⟩
          refine Or.inr ⟨m, fewer, before, readBefore, ?_, ?_, ?_⟩
          · rw [answersBefore.status, stopped.succeeds]
            rfl
          · have refines' := answers.statics
            rw [stopped.service] at refines'
            exact (refines'.unique answersBefore.statics seeded).symm
          · rw [answersBefore.world]
            exact stopped.entropy
  · intro world' buf' n' inside' empty
    rcases @cryptoEntropyRead_spec stack x86Rdrand buf' result.statics _ world'
      n' answers.statics inside' with ⟨after, readAfter, answersAfter, same⟩
    have nothing := @request_of_needsSeed x86Rdrand _ world' n' needsSeed empty
    refine ⟨after, readAfter, ?_, ?_, ?_⟩
    · rw [answersAfter.buf, nothing.2.1, write_nil]
    · cases seeded : after.statics.instantiated with
      | false => exact same seeded
      | true =>
          have refines' := answersAfter.statics
          rw [nothing.1] at refines'
          exact refines'.unique answers.statics seeded
    · intro positive
      rw [answersAfter.status, nothing.2.2 positive]
      rfl

/-! ## Runs -/

/-- The result and the buffer of a call. -/
def answer (call : List UInt8 × Nat) (outcome : Outcome) : Int × List UInt8 :=
  (if outcome.succeeds then 0 else -1, write call.1 0 outcome.bytes)

/-- The calls give what the requests give. -/
theorem reads_spec {service : Option Seeded} {world : World}
    {calls : List (List UInt8 × Nat)} (refines : Refines statics service)
    (inside : ∀ call ∈ calls, call.2 ≤ call.1.length) :
    ∃ statics' service' world',
      reads stack x86Rdrand statics world calls =
        some (List.zipWith answer calls
          (requests x86Rdrand service world (calls.map Prod.snd)),
          statics', world') ∧
      Refines statics' service' := by
  induction calls generalizing statics service world with
  | nil => exact ⟨statics, service, world, rfl, refines⟩
  | cons call calls ih =>
      rcases call with ⟨buf, n⟩
      rcases @cryptoEntropyRead_spec stack x86Rdrand buf statics service world
        n refines (inside _ List.mem_cons_self) with
        ⟨result, read, answers, _⟩
      have rest := fun call member =>
        inside call (List.mem_cons_of_mem _ member)
      rcases ih answers.statics rest with
        ⟨statics', service', world', reads', refines'⟩
      refine ⟨statics', service', world', ?_, refines'⟩
      unfold reads
      rw [read]
      dsimp only
      rw [answers.world, reads', answers.status, answers.buf]
      rfl

end Libcperciva.Crypto.EntropyRuns
