import Libcperciva.Alg.HmacStream
import Libcperciva.Crypto.EntropyModel
import Libcperciva.Lib.HmacDrbg

/-!
# A service of random bytes

HMAC_DRBG with SHA-256 serves requests of any length.  The service counts how
often it has generated since it was seeded: it generates at most 65536 bytes at
once, and at most 256 times before it is seeded again.  A request fails when a
seed is needed and there is none.
-/

namespace Libcperciva.Crypto.EntropyService

open Libcperciva.Lib
open Libcperciva.Alg.HmacStream
open Libcperciva.Crypto.EntropyModel

/-- A generator that was seeded, and how often it has generated since. -/
structure Seeded where
  state : HmacDrbg.State
  used : Nat

/-- What a request leads to: whether it succeeds, the bytes up to then, the
generator and the world. -/
structure Outcome where
  succeeds : Bool
  bytes : List UInt8
  service : Option Seeded
  world : World

variable (x86Rdrand : Bool)

/-- The words of RDRAND are mixed in by one more update. -/
def mixRdrand (state : HmacDrbg.State) (world : World) :
    HmacDrbg.State × World :=
  if x86Rdrand then
    match generateSeedRdrand world 8 with
    | (none, world) => (state, world)
    | (some words, world) => (HmacDrbg.update hmacSha256 words state, world)
  else (state, world)

/-- Seeding with so many bytes, unless there are none. -/
def seed (len : Nat) (use : List UInt8 → HmacDrbg.State) (world : World) :
    Option Seeded × World :=
  match entropyRead world len with
  | (none, world) => (none, world)
  | (some material, world) =>
      let (state, world) := mixRdrand x86Rdrand (use material) world
      (some { state, used := 0 }, world)

/-- A seed, if the next generation would be the 257th. -/
def refresh (seeded : Seeded) (world : World) : Option Seeded × World :=
  if seeded.used = 256 then
    seed x86Rdrand 32 (HmacDrbg.reseed hmacSha256 seeded.state) world
  else (some seeded, world)

/-- At most 65536 of the bytes at once. -/
def provide (seeded : Seeded) (world : World) (n : Nat) : Outcome :=
  if n = 0 then
    { succeeds := true, bytes := [], service := some seeded, world }
  else
    match refresh x86Rdrand seeded world with
    | (none, world) =>
        { succeeds := false, bytes := [], service := some seeded, world }
    | (some seeded, world) =>
        let (bytes, state) :=
          HmacDrbg.generate hmacSha256 32 seeded.state (min n 65536)
        let rest :=
          provide { state, used := seeded.used + 1 } world (n - min n 65536)
        { rest with bytes := bytes ++ rest.bytes }
termination_by n

/-- A request for `n` bytes. -/
def request (service : Option Seeded) (world : World) (n : Nat) : Outcome :=
  match service with
  | some seeded => provide x86Rdrand seeded world n
  | none =>
      let opened := { world with atexit := world.atexit.tail }
      if world.atexit.head = false then
        { succeeds := false, bytes := [], service := none, world := opened }
      else
        match seed x86Rdrand 48 (HmacDrbg.instantiate hmacSha256 32) opened with
        | (none, world) =>
            { succeeds := false, bytes := [], service := none, world }
        | (some seeded, world) => provide x86Rdrand seeded world n

/-- Requests, one after the other. -/
def requests (service : Option Seeded) (world : World) :
    List Nat → List Outcome
  | [] => []
  | n :: rest =>
      let outcome := request x86Rdrand service world n
      outcome :: requests outcome.service outcome.world rest

variable {x86Rdrand} {seeded : Seeded} {service : Option Seeded}
  {world : World} {n : Nat}

/-! ## Seeds -/

/-- A generator that was not seeded or was used 256 times. -/
def NeedsSeed : Option Seeded → Prop
  | none => True
  | some seeded => seeded.used = 256

/-- Seeds are bytes that were read. -/
theorem seed_eq_none_iff {len : Nat} {use : List UInt8 → HmacDrbg.State} :
    (seed x86Rdrand len use world).1 = none ↔
      world.entropy.head = none := by
  unfold seed entropyRead
  cases world.entropy.head with
  | none => exact ⟨fun _ => rfl, fun _ => rfl⟩
  | some bytes =>
      constructor
      · intro impossible
        cases impossible
      · intro impossible
        cases impossible

/-- Without a seed, a generator that was used 256 times stays as it is. -/
theorem refresh_eq_none {after : World}
    (refreshed : refresh x86Rdrand seeded world = (none, after)) :
    seeded.used = 256 ∧ world.entropy.head = none := by
  unfold refresh at refreshed
  by_cases spent : seeded.used = 256
  · rw [if_pos spent] at refreshed
    exact ⟨spent, seed_eq_none_iff.mp (congrArg Prod.fst refreshed)⟩
  · rw [if_neg spent] at refreshed
    cases refreshed

/-! ## Steps -/

theorem provide_zero :
    provide x86Rdrand seeded world 0 =
      { succeeds := true, bytes := [], service := some seeded, world } := by
  unfold provide
  rw [if_pos rfl]

theorem provide_of_none {after : World} (positive : 0 < n)
    (refreshed : refresh x86Rdrand seeded world = (none, after)) :
    provide x86Rdrand seeded world n =
      { succeeds := false, bytes := [], service := some seeded,
        world := after } := by
  unfold provide
  rw [if_neg (Nat.ne_of_gt positive), refreshed]

/-- A generator after one step. -/
def advance (seeded : Seeded) (n : Nat) : Seeded where
  state := (HmacDrbg.generate hmacSha256 32 seeded.state (min n 65536)).2
  used := seeded.used + 1

theorem provide_of_some {fresh : Seeded} {after : World} (positive : 0 < n)
    (refreshed : refresh x86Rdrand seeded world = (some fresh, after)) :
    provide x86Rdrand seeded world n =
      let rest :=
        provide x86Rdrand (advance fresh n) after (n - min n 65536)
      { rest with
        bytes := (HmacDrbg.generate hmacSha256 32 fresh.state
          (min n 65536)).1 ++ rest.bytes } := by
  conv_lhs => unfold provide
  rw [if_neg (Nat.ne_of_gt positive), refreshed]
  rfl

/-- A request that succeeds gives all the bytes. -/
theorem length_provide
    (succeeds : (provide x86Rdrand seeded world n).succeeds = true) :
    (provide x86Rdrand seeded world n).bytes.length = n := by
  induction n using Nat.strong_induction_on generalizing seeded world with
  | _ n ih =>
      rcases Nat.eq_zero_or_pos n with rfl | positive
      · rw [provide_zero]
        rfl
      · rcases refreshed : refresh x86Rdrand seeded world with ⟨_ | fresh, after⟩
        · rw [provide_of_none positive refreshed] at succeeds
          cases succeeds
        · rw [provide_of_some positive refreshed] at succeeds ⊢
          have rest := ih (n - min n 65536) (by omega) succeeds
          have first := @HmacDrbg.length_generate hmacSha256 32 fresh.state
            length_hmacSha256 (by decide) (min n 65536)
          dsimp only
          rw [List.length_append, first, rest]
          omega

/-! ## Failures -/

/-- What is left when a request fails: the generator as it was after the bytes
so far, and it needs a seed that there is not. -/
structure Stopped (outcome sofar : Outcome) : Prop where
  succeeds : sofar.succeeds = true
  bytes : outcome.bytes = sofar.bytes
  service : outcome.service = sofar.service
  needsSeed : NeedsSeed outcome.service
  entropy : sofar.world.entropy.head = none

theorem provide_fails
    (fails : (provide x86Rdrand seeded world n).succeeds = false) :
    ∃ m < n, Stopped (provide x86Rdrand seeded world n)
      (provide x86Rdrand seeded world m) := by
  induction n using Nat.strong_induction_on generalizing seeded world with
  | _ n ih =>
      rcases Nat.eq_zero_or_pos n with rfl | positive
      · rw [provide_zero] at fails
        cases fails
      · rcases refreshed : refresh x86Rdrand seeded world with ⟨_ | fresh, after⟩
        · rcases refresh_eq_none refreshed with ⟨spent, empty⟩
          rw [provide_of_none positive refreshed]
          refine ⟨0, positive, ?_⟩
          rw [provide_zero]
          exact ⟨rfl, rfl, rfl, spent, empty⟩
        · rw [provide_of_some positive refreshed] at fails ⊢
          have fewer : n - min n 65536 < n := by omega
          rcases ih _ fewer fails with ⟨m, before, stopped⟩
          have first : min n 65536 = 65536 := by omega
          have same : min (65536 + m) 65536 = 65536 := by omega
          have advanced : advance fresh (65536 + m) = advance fresh n := by
            unfold advance
            rw [same, first]
          refine ⟨65536 + m, by omega, ?_⟩
          rw [provide_of_some (by omega) refreshed, same,
            Nat.add_sub_cancel_left]
          dsimp only
          rw [advanced]
          refine ⟨stopped.succeeds, ?_, stopped.service, stopped.needsSeed,
            stopped.entropy⟩
          dsimp only
          rw [stopped.bytes, first]

theorem length_request
    (succeeds : (request x86Rdrand service world n).succeeds = true) :
    (request x86Rdrand service world n).bytes.length = n := by
  cases service with
  | some seeded => exact length_provide succeeds
  | none =>
      unfold request at succeeds ⊢
      dsimp only at succeeds ⊢
      by_cases closed : world.atexit.head = false
      · rw [if_pos closed] at succeeds
        cases succeeds
      · rw [if_neg closed] at succeeds ⊢
        generalize seed x86Rdrand 48 _ _ = result at succeeds ⊢
        rcases result with ⟨_ | fresh, after⟩
        · cases succeeds
        · exact length_provide succeeds

/-- What provides bytes stays a generator. -/
theorem provide_service :
    ∃ after, (provide x86Rdrand seeded world n).service = some after := by
  induction n using Nat.strong_induction_on generalizing seeded world with
  | _ n ih =>
      rcases Nat.eq_zero_or_pos n with rfl | positive
      · rw [provide_zero]
        exact ⟨seeded, rfl⟩
      · rcases refreshed : refresh x86Rdrand seeded world with ⟨_ | fresh, after⟩
        · rw [provide_of_none positive refreshed]
          exact ⟨seeded, rfl⟩
        · rw [provide_of_some positive refreshed]
          exact ih (n - min n 65536) (by omega)

/-- A request fails before there is a generator, or later. -/
theorem request_fails
    (fails : (request x86Rdrand service world n).succeeds = false) :
    (request x86Rdrand service world n).service = none ∨
      ∃ m < n, Stopped (request x86Rdrand service world n)
        (request x86Rdrand service world m) := by
  cases service with
  | some seeded => exact Or.inr (provide_fails fails)
  | none =>
      unfold request at fails ⊢
      dsimp only at fails ⊢
      by_cases closed : world.atexit.head = false
      · rw [if_pos closed]
        exact Or.inl rfl
      · simp only [if_neg closed] at fails ⊢
        generalize seed x86Rdrand 48 _ _ = result at fails ⊢
        rcases result with ⟨_ | fresh, after⟩
        · exact Or.inl rfl
        · exact Or.inr (provide_fails fails)

/-- Nothing is provided without a seed, and the service stays as it is. -/
theorem request_of_needsSeed (needsSeed : NeedsSeed service)
    (empty : world.entropy.head = none) :
    (request x86Rdrand service world n).service = service ∧
      (request x86Rdrand service world n).bytes = [] ∧
      (0 < n → (request x86Rdrand service world n).succeeds = false) := by
  cases service with
  | none =>
      unfold request
      dsimp only
      by_cases closed : world.atexit.head = false
      · rw [if_pos closed]
        exact ⟨rfl, rfl, fun _ => rfl⟩
      · rw [if_neg closed]
        have none := (@seed_eq_none_iff x86Rdrand
          { world with atexit := world.atexit.tail } 48
          (HmacDrbg.instantiate hmacSha256 32)).mpr empty
        generalize seed x86Rdrand 48 _ _ = result at none ⊢
        rcases result with ⟨_ | fresh, after⟩
        · exact ⟨rfl, rfl, fun _ => rfl⟩
        · cases none
  | some seeded =>
      show (provide x86Rdrand seeded world n).service = _ ∧
        (provide x86Rdrand seeded world n).bytes = _ ∧
        (_ → (provide x86Rdrand seeded world n).succeeds = _)
      rcases Nat.eq_zero_or_pos n with rfl | positive
      · rw [provide_zero]
        exact ⟨rfl, rfl, fun impossible => absurd impossible (by decide)⟩
      · have spent : seeded.used = 256 := needsSeed
        have none : (refresh x86Rdrand seeded world).1 = none := by
          unfold refresh
          rw [if_pos spent]
          exact seed_eq_none_iff.mpr empty
        rcases refreshed : refresh x86Rdrand seeded world with ⟨_ | fresh, after⟩
        · rw [provide_of_none positive refreshed]
          exact ⟨rfl, rfl, fun _ => rfl⟩
        · rw [refreshed] at none
          cases none

end Libcperciva.Crypto.EntropyService
