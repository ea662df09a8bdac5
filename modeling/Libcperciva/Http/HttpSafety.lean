import Libcperciva.Http.HttpHeaders
import Libcperciva.Lib.Postcondition

/-!
# What a server can do to the HTTP client

Whatever the server sends and however it arrives, no assertion fails except
one: in a chunk, `addbody` is given the data of the chunk and the EOL behind
it, which is not stripped before it has been added.  So the assertion about
the length of the body fails exactly where the body, this EOL included, would
be larger than the limit.
-/

namespace Libcperciva.Http.HttpSafety

open Libcperciva.Lib.Lines
open Libcperciva.Lib.Postcondition
open Libcperciva.Util.Cstring
open Libcperciva.Util.SizeT
open Libcperciva.Network.ReadModel
open Libcperciva.Netbuf.ReadModel
open Libcperciva.Http.HttpModel
open Libcperciva.Http.HttpOps
open Libcperciva.Http.HttpHeaders

variable {maxrlen : Nat} {H : HttpCookie} {env : CallEnv}

/-! ## The invariant -/

/-- The length of the body, and its limit. -/
structure Sound (maxrlen : Nat) (H : HttpCookie) : Prop where
  size : maxrlen < 2 ^ 64
  isMax : H.resBodylenMax = maxrlen
  bodylen : H.res.bodylen ≤ maxrlen

/-- A chunk is read together with its EOL. -/
structure InChunk (maxrlen bodylen readlen : Nat) : Prop where
  more : 0 < readlen
  hasEol : 2 < bodylen + readlen
  atMost : bodylen + readlen ≤ maxrlen + 2
  size : readlen < 2 ^ 64

/-- What the functions rely on. -/
def Expects (maxrlen : Nat) (H : HttpCookie) : HttpCallback → Prop
  | .readHeader => H.res.bodylen = 0
  | .readdata =>
      if H.chunked then InChunk maxrlen H.res.bodylen H.readlen
      else H.res.bodylen + H.readlen ≤ maxrlen
  | .chunkedheader => H.chunked = true
  | .readToeof => True

/-- What holds between two steps. -/
def Invariant (maxrlen : Nat) : RequestState → Prop
  | .calling (.callback function _) H =>
      Sound maxrlen H ∧ Ready H.R ∧ Expects maxrlen H function
  | .calling (.gotheaders buflen) H =>
      Sound maxrlen H ∧ Ready H.R ∧ H.res.bodylen = 0 ∧
        ∃ pos, buflen = pos + 4 ∧
          buflen ≤ (netbufReadPeek H.R).length ∧
          OccursAt endOfHeaders (netbufReadPeek H.R) pos
  | .waiting H =>
      Sound maxrlen H ∧ ∃ function len C, Awaits H.R function len C ∧
        Expects maxrlen H function
  | .died => True
  | .responded response =>
      ∀ r, response = some r → r.body.length ≤ maxrlen

/-- No assertion fails. -/
def NoFault (_ : HttpAssert) : Prop := False

/-- A call ends without a failing assertion, and the invariant holds. -/
def Safe (maxrlen : Nat) : Except HttpAssert Next → Prop :=
  Ensures NoFault fun next => Invariant maxrlen next.state

/-! ## Helpers -/

theorem fail_safe : Safe maxrlen fail := by
  intro r isSome
  cases isSome

theorem docallback_safe (bodylen : H.res.bodylen ≤ maxrlen) :
    Safe maxrlen (docallback H) := by
  rintro r ⟨⟩
  exact (List.length_take_le _ _).trans bodylen

theorem toobig_safe : Safe maxrlen (toobig H) := by
  rintro r ⟨⟩
  change (List.take _ []).length ≤ maxrlen
  rw [List.take_nil]
  exact Nat.zero_le _

theorem waitFor_safe {function : HttpCallback} {len : Nat}
    (sound : Sound maxrlen H) (ready : Ready H.R)
    (expects : Expects maxrlen H function) (allocs : WaitAllocs)
    (short : (netbufReadPeek H.R).length < len)
    (small : len ≤ 1024 * 1024) :
    Safe maxrlen (waitFor allocs H len function) := by
  cases waitFor_spec ready allocs short small with
  | inl dies =>
      rw [dies.1]
      trivial
  | inr waits =>
      obtain ⟨R, C, result, awaits, _⟩ := waits
      rw [result]
      exact ⟨⟨sound.size, sound.isMax, sound.bodylen⟩,
        function, len, C, awaits, expects⟩

theorem growBody_eq {realloc : Bool} {size : Nat} {after : HttpCookie}
    (result : growBody realloc H size = some after) :
    ∃ resBodylenAlloc, after = { H with resBodylenAlloc } := by
  unfold growBody at result
  split_ifs at result
  · cases result
    exact ⟨_, rfl⟩
  · cases result
    exact ⟨_, rfl⟩

/-- Data that fit are added to the body, unless the allocation fails. -/
theorem addbody_spec {buf : List UInt8} (sound : Sound maxrlen H)
    (fits : H.res.bodylen + buf.length ≤ maxrlen) (realloc : Bool) :
    addbody realloc H buf = .ok none ∨ ∃ resBodylenAlloc,
      addbody realloc H buf = .ok (some { H with
        resBodylenAlloc
        res := { H.res with
          body := H.res.body.take H.res.bodylen ++ buf
          bodylen := H.res.bodylen + buf.length } }) := by
  have size := sound.size
  have limit : H.res.bodylen + buf.length ≤ H.resBodylenMax := by
    rw [sound.isMax]
    exact fits
  unfold addbody
  dsimp only
  rw [sizeAdd_eq (by omega), if_neg (not_not_intro limit)]
  cases grown : growBody realloc H (H.res.bodylen + buf.length) with
  | none => exact Or.inl rfl
  | some after =>
      obtain ⟨resBodylenAlloc, rfl⟩ := growBody_eq grown
      exact Or.inr ⟨resBodylenAlloc, rfl⟩

/-! ## Headers -/

theorem callbackReadHeader_safe {status : Int} (sound : Sound maxrlen H)
    (ready : Ready H.R) (empty : H.res.bodylen = 0) :
    Safe maxrlen (callbackReadHeader env status H) := by
  obtain ⟨_, _, found⟩ := scanHeaders_spec (netbufReadPeek H.R)
    (netbufReadPeek H.R).length H.hepos (Nat.le_add_left _ _)
  unfold callbackReadHeader
  dsimp only
  generalize scanHeaders (netbufReadPeek H.R) (netbufReadPeek H.R).length
    H.hepos = hepos at found ⊢
  have kept : Sound maxrlen { H with hepos } :=
    ⟨sound.size, sound.isMax, sound.bodylen⟩
  have expects : Expects maxrlen { H with hepos } .readHeader := empty
  refine Ensures.ite (fun _ => fail_safe) fun _ => ?_
  refine Ensures.ite (fun fits => ?_) fun _ => ?_
  · exact ⟨kept, ready, empty, hepos, rfl, fits, found fits⟩
  · refine Ensures.ite (fun _ => fail_safe) fun small => ?_
    change ¬ (netbufReadPeek H.R).length > 65536 at small
    refine waitFor_safe kept ready expects env.wait (Nat.lt_succ_self _) ?_
    omega

/-- As many headers are there as were counted. -/
theorem httpFindheader_ok {headers : List HttpHeader} {nheaders : Nat}
    (length : headers.length = nheaders) (header : List UInt8) :
    httpFindheader headers nheaders header =
      .ok ((headers.find? (·.header = header)).map (·.value)) := by
  unfold httpFindheader
  subst length
  rw [List.take_length, if_neg]
  refine not_not_intro ?_
  cases headers with
  | nil => exact Or.inr rfl
  | cons head tail => exact Or.inl (List.cons_ne_nil _ _)

theorem getBodyGotclen_safe {len : Nat} (sound : Sound maxrlen H)
    (ready : Ready H.R) (empty : H.res.bodylen = 0) :
    Safe maxrlen (getBodyGotclen H len) := by
  unfold getBodyGotclen
  refine Ensures.ite (fun _ => toobig_safe) fun small => ?_
  refine ⟨⟨sound.size, sound.isMax, sound.bodylen⟩, ready, ?_⟩
  rw [sound.isMax] at small
  change H.res.bodylen + len ≤ maxrlen
  omega

theorem handleHeaders_safe (sound : Sound maxrlen H) (ready : Ready H.R)
    (empty : H.res.bodylen = 0)
    (length : H.res.headers.length = H.res.nheaders) :
    Safe maxrlen (handleHeaders H) := by
  unfold handleHeaders
  refine Ensures.ite (fun _ => ?_) fun _ => ?_
  · exact ⟨⟨sound.size, sound.isMax, sound.bodylen⟩, ready, empty⟩
  · refine Ensures.ite (fun _ => docallback_safe (Nat.zero_le _)) fun _ => ?_
    rw [httpFindheader_ok length, httpFindheader_ok length]
    refine Ensures.ite (fun _ => ?_) fun _ => ?_
    · exact ⟨⟨sound.size, sound.isMax, sound.bodylen⟩, ready, rfl⟩
    · dsimp only [bind, Except.bind]
      split
      · split
        · exact fail_safe
        · exact getBodyGotclen_safe sound ready empty
      · exact ⟨sound, ready, trivial⟩

theorem length_of_parseBlock {overflow : Int → Int} {line : List UInt8}
    {lines : List (List UInt8)} {status : Int} {headers : List HttpHeader}
    (parsed : parseBlock overflow line lines = some (status, headers)) :
    headers.length = lines.length := by
  unfold parseBlock at parsed
  split at parsed
  · exact absurd parsed nofun
  · split at parsed
    · exact absurd parsed nofun
    · split_ifs at parsed
      cases parsed
      exact List.length_map _

theorem gotheaders_safe {buflen pos : Nat} (sound : Sound maxrlen H)
    (ready : Ready H.R) (empty : H.res.bodylen = 0)
    (isEnd : buflen = pos + 4)
    (inside : buflen ≤ (netbufReadPeek H.R).length)
    (occurs : OccursAt endOfHeaders (netbufReadPeek H.R) pos) :
    Safe maxrlen (gotheaders env buflen H) := by
  subst isEnd
  obtain ⟨line, lines, head, areLines⟩ := exists_headerLines occurs
  cases gotheaders_lines ready env inside head areLines with
  | inl dies =>
      rw [dies.1]
      trivial
  | inr result =>
      obtain ⟨R, readyR, _, result⟩ := result
      rw [result]
      cases parsed : parseBlock env.overflow line lines with
      | none => exact fail_safe
      | some block =>
          obtain ⟨status, headers⟩ := block
          exact handleHeaders_safe ⟨sound.size, sound.isMax, sound.bodylen⟩
            readyR empty (length_of_parseBlock parsed)

/-! ## Bodies -/

/-- What has arrived of a chunk, its EOL included, fits into the body. -/
def ChunkFits (H : HttpCookie) : Prop :=
  H.chunked = true →
    H.res.bodylen + min H.readlen (netbufReadPeek H.R).length ≤
      H.resBodylenMax

theorem callbackReaddata_safe {status : Int} (sound : Sound maxrlen H)
    (ready : Ready H.R) (expects : Expects maxrlen H .readdata)
    (fits : status = 0 → ChunkFits H) :
    Safe maxrlen (callbackReaddata env status H) := by
  unfold callbackReaddata
  refine Ensures.ite (fun _ => fail_safe) fun isZero => ?_
  dsimp only
  have fits := fits (not_not.mp isZero)
  have size := sound.size
  have bodylen := sound.bodylen
  have length : ((netbufReadPeek H.R).take H.readlen).length =
      min H.readlen (netbufReadPeek H.R).length := List.length_take
  unfold ChunkFits at fits
  rw [sound.isMax] at fits
  unfold Expects at expects
  -- The bounds that are used, with and without chunks.
  have room : H.res.bodylen +
      ((netbufReadPeek H.R).take H.readlen).length ≤ maxrlen := by
    rw [length]
    by_cases chunked : H.chunked = true
    · exact fits chunked
    · rw [if_neg chunked] at expects
      omega
  have small : H.readlen < 2 ^ 64 := by
    by_cases chunked : H.chunked = true
    · rw [if_pos chunked] at expects
      exact expects.size
    · rw [if_neg chunked] at expects
      omega
  generalize isBuf : (netbufReadPeek H.R).take H.readlen = buf at length room
  have inside : buf.length ≤ (netbufReadPeek H.R).length := by omega
  have atMost : buf.length ≤ H.readlen := by omega
  cases addbody_spec sound room env.realloc with
  | inl noMemory =>
      rw [noMemory]
      trivial
  | inr added =>
      obtain ⟨resBodylenAlloc, added⟩ := added
      obtain ⟨R, consumed, readyR, peek⟩ := consume_spec
        (H := { H with
          resBodylenAlloc
          res := { H.res with
            body := H.res.body.take H.res.bodylen ++ buf
            bodylen := H.res.bodylen + buf.length } }) ready inside
      rw [added]
      change Safe maxrlen (consume _ buf.length >>= _)
      rw [consumed]
      change Safe maxrlen (if sizeSub H.readlen buf.length = 0 then _ else _)
      rw [sizeSub_eq atMost small]
      refine Ensures.ite (fun done => ?_) fun more => ?_
      · refine Ensures.ite (fun chunked => ?_) fun _ => docallback_safe room
        change H.chunked = true at chunked
        rw [if_pos chunked] at expects
        have hasEol := expects.hasEol
        have limit := expects.atMost
        refine ⟨⟨size, sound.isMax, ?_⟩, readyR, chunked⟩
        change sizeSub (H.res.bodylen + buf.length) 2 ≤ maxrlen
        rw [sizeSub_eq (by omega) (by omega)]
        omega
      · have everything : buf.length = (netbufReadPeek H.R).length := by
          omega
        refine waitFor_safe ?_ readyR ?_ env.wait ?_ ?_
        · exact ⟨size, sound.isMax, room⟩
        · unfold Expects
          by_cases chunked : H.chunked = true
          · rw [if_pos chunked] at expects ⊢
            have hasEol := expects.hasEol
            have limit := expects.atMost
            constructor <;> dsimp only <;> omega
          · rw [if_neg chunked] at expects ⊢
            dsimp only
            omega
        · have nothing : (netbufReadPeek R).length = 0 := by
            rw [peek, List.length_drop]
            exact Nat.sub_eq_zero_of_le everything.ge
          rw [nothing]
          split_ifs <;> omega
        · split_ifs <;> omega

/-- In a chunk that does not fit, the assertion of `addbody` fails. -/
theorem callbackReaddata_unsafe (sound : Sound maxrlen H)
    (expects : Expects maxrlen H .readdata) (noWrap : maxrlen + 2 < 2 ^ 64)
    (tooMuch : ¬ ChunkFits H) :
    callbackReaddata env 0 H = .error .addbody := by
  obtain ⟨chunked, tooMuch⟩ := Classical.not_imp.mp tooMuch
  unfold Expects at expects
  rw [if_pos chunked] at expects
  rw [sound.isMax] at tooMuch
  have limit := expects.atMost
  have length : ((netbufReadPeek H.R).take H.readlen).length =
      min H.readlen (netbufReadPeek H.R).length := List.length_take
  have fails : addbody env.realloc H ((netbufReadPeek H.R).take H.readlen) =
      .error .addbody := by
    unfold addbody
    dsimp only
    rw [length, sizeAdd_eq (by omega), sound.isMax, if_pos tooMuch]
  unfold callbackReaddata
  rw [if_neg (not_not_intro rfl)]
  dsimp only
  rw [fails]
  rfl

theorem callbackChunkedheader_safe {status : Int} (sound : Sound maxrlen H)
    (ready : Ready H.R) (chunked : H.chunked = true) :
    Safe maxrlen (callbackChunkedheader env status H) := by
  unfold callbackChunkedheader
  refine Ensures.ite (fun _ => fail_safe) fun _ => ?_
  refine Ensures.ite (fun hasEol => ?_) fun _ => ?_
  · dsimp only
    split
    · exact fail_safe
    · next clen parsed =>
        have size := sound.size
        have bodylen := sound.bodylen
        have found : findeol (netbufReadPeek H.R) <
            (netbufReadPeek H.R).length :=
          Nat.lt_of_le_of_ne (indexOf_le _ _) hasEol
        have enough : findeol (netbufReadPeek H.R) + 2 ≤
            (netbufReadPeek H.R).length :=
          (occursAt_indexOf found).inside crlf_ne_nil
        obtain ⟨R, consumed, readyR, _⟩ := consume_spec ready enough
        rw [consumed]
        refine Ensures.ite (fun _ => docallback_safe bodylen) fun notZero => ?_
        dsimp only
        rw [sound.isMax, sizeSub_eq bodylen size]
        refine Ensures.ite (fun _ => toobig_safe) fun limit => ?_
        refine Ensures.ite (fun _ => toobig_safe) fun noWrap => ?_
        have small : clen + 2 < 2 ^ 64 := by
          change ¬ clen > 2 ^ 64 - 1 - 2 at noWrap
          omega
        rw [sizeAdd_eq small]
        refine ⟨⟨size, rfl, bodylen⟩, readyR, ?_⟩
        unfold Expects
        rw [if_pos chunked]
        constructor <;> dsimp only <;> omega
  · refine Ensures.ite (fun _ => fail_safe) fun small => ?_
    have expects : Expects maxrlen H .chunkedheader := chunked
    refine waitFor_safe sound ready expects env.wait (Nat.lt_succ_self _) ?_
    change ¬ (netbufReadPeek H.R).length ≥ 256 at small
    omega

theorem callbackReadToeof_safe {status : Int} (sound : Sound maxrlen H)
    (ready : Ready H.R) :
    Safe maxrlen (callbackReadToeof env status H) := by
  have size := sound.size
  have bodylen := sound.bodylen
  unfold callbackReadToeof
  refine Ensures.ite (fun _ => fail_safe) fun _ => ?_
  refine Ensures.ite (fun _ => docallback_safe bodylen) fun _ => ?_
  dsimp only
  rw [sound.isMax, sizeSub_eq bodylen size]
  refine Ensures.ite (fun _ => toobig_safe) fun limit => ?_
  have room : H.res.bodylen + (netbufReadPeek H.R).length ≤ maxrlen := by
    omega
  cases addbody_spec sound room env.realloc with
  | inl noMemory =>
      rw [noMemory]
      trivial
  | inr added =>
      obtain ⟨resBodylenAlloc, added⟩ := added
      obtain ⟨R, consumed, readyR, peek⟩ := consume_spec
        (H := { H with
          resBodylenAlloc
          res := { H.res with
            body := H.res.body.take H.res.bodylen ++ netbufReadPeek H.R
            bodylen := H.res.bodylen + (netbufReadPeek H.R).length } })
        ready (Nat.le_refl _)
      rw [added]
      change Safe maxrlen (consume _ _ >>= _)
      rw [consumed]
      change Safe maxrlen (waitFor env.wait _ 1 .readToeof)
      have expects (H' : HttpCookie) : Expects maxrlen H' .readToeof := trivial
      refine waitFor_safe ?_ readyR (expects _) env.wait ?_ (by decide)
      · exact ⟨size, sound.isMax, room⟩
      · rw [peek, List.length_drop, Nat.sub_self]
        exact Nat.zero_lt_one

/-! ## Steps -/

/-- In this step, what has arrived of a chunk fits. -/
def StepFits : RequestState → Prop
  | .calling (.callback .readdata status) H => status = 0 → ChunkFits H
  | _ => True

theorem perform_safe {call : Call} (invariant : Invariant maxrlen
    (.calling call H)) (fits : StepFits (.calling call H)) :
    Safe maxrlen (perform env H call) := by
  cases call with
  | gotheaders buflen =>
      obtain ⟨sound, ready, empty, pos, isEnd, inside, occurs⟩ := invariant
      exact gotheaders_safe sound ready empty isEnd inside occurs
  | callback function status =>
      obtain ⟨sound, ready, expects⟩ := invariant
      cases function with
      | readHeader => exact callbackReadHeader_safe sound ready expects
      | readdata => exact callbackReaddata_safe sound ready expects fits
      | chunkedheader =>
          exact callbackChunkedheader_safe sound ready expects
      | readToeof => exact callbackReadToeof_safe sound ready

variable {state : RequestState} {action : Action}

theorem step_safe (invariant : Invariant maxrlen state)
    (permitted : Permitted state action) (fits : StepFits state) :
    Ensures NoFault (Invariant maxrlen) (step state action) := by
  cases state with
  | calling call H =>
      cases action with
      | call env => exact (perform_safe invariant fits).bind fun _ kept => kept
      | immediate => exact absurd permitted not_false
      | readable recv registered => exact absurd permitted not_false
  | waiting H =>
      obtain ⟨sound, function, len, C, awaits, expects⟩ := invariant
      cases action with
      | call env => exact absurd permitted not_false
      | immediate =>
          have reading : H.R.readCookie ≠ none := by
            rw [awaits.isCookie]
            exact Option.some_ne_none C
          have notImmediate := awaits.invariant.notBoth reading
          exact absurd (notImmediate.symm.trans permitted) Bool.noConfusion
      | readable recv registered =>
          obtain ⟨C', isCookie, recvFits⟩ := permitted
          obtain rfl := Option.some.inj (awaits.isCookie.symm.trans isCookie)
          obtain ⟨after, called, result, arrives⟩ :=
            awaits.arrives recvFits registered
          have kept : Sound maxrlen { H with R := after } :=
            ⟨sound.size, sound.isMax, sound.bodylen⟩
          unfold step
          dsimp only
          rw [awaits.isCookie]
          dsimp only
          rw [result]
          cases arrives with
          | waits awaits => exact ⟨kept, function, len, _, awaits, expects⟩
          | filled isRecv ready => exact ⟨kept, ready, expects⟩
          | failed ready => exact ⟨kept, ready, expects⟩
          | eof isRecv ready => exact ⟨kept, ready, expects⟩
  | died => exact absurd permitted not_false
  | responded response => exact absurd permitted not_false

theorem step_unsafe (invariant : Invariant maxrlen state)
    (permitted : Permitted state action) (noWrap : maxrlen + 2 < 2 ^ 64)
    (tooMuch : ¬ StepFits state) :
    step state action = .error .addbody := by
  cases state with
  | calling call H =>
      cases call with
      | gotheaders buflen => exact absurd trivial tooMuch
      | callback function status =>
          cases function with
          | readHeader => exact absurd trivial tooMuch
          | chunkedheader => exact absurd trivial tooMuch
          | readToeof => exact absurd trivial tooMuch
          | readdata =>
              obtain ⟨isZero, misfit⟩ := Classical.not_imp.mp tooMuch
              subst isZero
              obtain ⟨sound, ready, expects⟩ := invariant
              cases action with
              | call env =>
                  have fails : callbackReaddata env 0 H = .error .addbody :=
                    callbackReaddata_unsafe sound expects noWrap misfit
                  change (callbackReaddata env 0 H >>= _) = _
                  rw [fails]
                  rfl
              | immediate => exact absurd permitted not_false
              | readable recv registered => exact absurd permitted not_false
  | waiting H => exact absurd trivial tooMuch
  | died => exact absurd trivial tooMuch
  | responded response => exact absurd trivial tooMuch

/-! ## Runs -/

/-- Each action can happen where it happens. -/
def PermittedRun (state : RequestState) : List Action → Prop
  | [] => True
  | action :: actions =>
      Permitted state action ∧ ∀ next,
        step state action = .ok next → PermittedRun next actions

instance (recv : Recv) (C : NetworkReadCookie) : Decidable (recv.Fits C) :=
  match recv with
  | .data bytes => decidable_of_iff
      (bytes ≠ [] ∧ bytes.length ≤ sizeSub C.buflen C.bufpos)
      ⟨fun fits _ isData => Recv.data.inj isData ▸ fits,
        fun fits => fits bytes rfl⟩
  | .again => isTrue nofun
  | .eof => isTrue nofun
  | .error => isTrue nofun

instance : (state : RequestState) → (action : Action) →
    Decidable (Permitted state action)
  | .calling _ _, .call _ => isTrue trivial
  | .waiting H, .immediate =>
      inferInstanceAs (Decidable (H.R.immediateCookie = true))
  | .waiting H, .readable recv _ =>
      match isCookie : H.R.readCookie with
      | none => isFalse fun ⟨_, isSome, _⟩ =>
          Option.some_ne_none _ (isSome.symm.trans isCookie)
      | some C => decidable_of_iff (recv.Fits C)
          ⟨fun fits => ⟨C, isCookie, fits⟩, fun ⟨_, isSome, fits⟩ =>
            Option.some.inj (isSome.symm.trans isCookie) ▸ fits⟩
  | .calling _ _, .immediate => isFalse not_false
  | .calling _ _, .readable _ _ => isFalse not_false
  | .waiting _, .call _ => isFalse not_false
  | .died, _ => isFalse not_false
  | .responded _, _ => isFalse not_false

/-- Whether a run is permitted can be computed. -/
def decidePermittedRun : (state : RequestState) → (actions : List Action) →
    Decidable (PermittedRun state actions)
  | _, [] => isTrue trivial
  | state, action :: actions =>
      match result : step state action with
      | .error _ => decidable_of_iff (Permitted state action)
          ⟨fun permitted => ⟨permitted, fun _ isOk =>
            absurd (result.symm.trans isOk) nofun⟩, fun both => both.1⟩
      | .ok next =>
          have := decidePermittedRun next actions
          decidable_of_iff (Permitted state action ∧ PermittedRun next actions)
            ⟨fun both => ⟨both.1, fun _ isOk =>
              Except.ok.inj (result.symm.trans isOk) ▸ both.2⟩,
              fun both => ⟨both.1, both.2 next result⟩⟩

instance : DecidablePred (PermittedRun state) := decidePermittedRun state

/-- In each call of `callback_readdata` for a chunk, what has arrived of the
chunk and its EOL fits into the body. -/
def ChunksFit (state : RequestState) : List Action → Prop
  | [] => True
  | action :: actions =>
      StepFits state ∧ ∀ next,
        step state action = .ok next → ChunksFit next actions

/-- No assertion fails, and no body that is delivered is too large. -/
def Delivers (maxrlen : Nat) (result : Except HttpAssert RequestState) :
    Prop :=
  ∃ final, result = .ok final ∧
    ∀ response, final = .responded (some response) →
      response.body.length ≤ maxrlen

theorem Invariant.delivers (invariant : Invariant maxrlen state) :
    Delivers maxrlen (.ok state) := by
  refine ⟨state, rfl, fun response isFinal => ?_⟩
  subst isFinal
  exact invariant response rfl

variable {actions : List Action}

theorem run_cons {next : RequestState} (result : step state action = .ok next) :
    run state (action :: actions) = run next actions := by
  have first : run state (action :: actions) =
      (step state action >>= fun next => run next actions) := rfl
  rw [first, result]
  rfl

theorem run_delivers (invariant : Invariant maxrlen state)
    (permitted : PermittedRun state actions)
    (fits : ChunksFit state actions) :
    Delivers maxrlen (run state actions) := by
  induction actions generalizing state with
  | nil => exact invariant.delivers
  | cons action actions ih =>
      have kept := step_safe invariant permitted.1 fits.1
      cases result : step state action with
      | ok next =>
          rw [run_cons result]
          exact ih (kept.of_ok result) (permitted.2 next result)
            (fits.2 next result)
      | error assertion => exact absurd (kept.of_error result) not_false

theorem run_chunksFit (invariant : Invariant maxrlen state)
    (permitted : PermittedRun state actions)
    (noWrap : maxrlen + 2 < 2 ^ 64)
    (delivers : Delivers maxrlen (run state actions)) :
    ChunksFit state actions := by
  induction actions generalizing state with
  | nil => trivial
  | cons action actions ih =>
      by_cases fits : StepFits state
      · have kept := step_safe invariant permitted.1 fits
        refine ⟨fits, fun next result => ?_⟩
        rw [run_cons result] at delivers
        exact ih (kept.of_ok result) (permitted.2 next result) delivers
      · obtain ⟨final, result, _⟩ := delivers
        have first : run state (action :: actions) =
            (step state action >>= fun next => run next actions) := rfl
        rw [first, step_unsafe invariant permitted.1 noWrap fits] at result
        exact absurd result nofun

theorem start_invariant (memory : Nat → UInt8) (reqIshead chunked : Bool)
    (readlen : Nat) (size : maxrlen < 2 ^ 64) :
    Invariant maxrlen (start memory reqIshead chunked readlen maxrlen) :=
  ⟨⟨size, rfl, Nat.zero_le _⟩, netbufReadInit_ready memory, rfl⟩

/-- Whatever the server sends, no assertion fails and no delivered body is
larger than the limit if what has arrived of each chunk, its EOL included, fits
into the body; and, unless lengths wrap, only if. -/
theorem http_no_abort (memory : Nat → UInt8) (reqIshead chunked : Bool)
    (readlen maxrlen : Nat) (actions : List Action)
    (size : maxrlen < 2 ^ 64)
    (permitted : PermittedRun
      (start memory reqIshead chunked readlen maxrlen) actions) :
    (ChunksFit (start memory reqIshead chunked readlen maxrlen) actions →
      Delivers maxrlen
        (run (start memory reqIshead chunked readlen maxrlen) actions)) ∧
    (maxrlen + 2 < 2 ^ 64 →
      Delivers maxrlen
        (run (start memory reqIshead chunked readlen maxrlen) actions) →
      ChunksFit (start memory reqIshead chunked readlen maxrlen) actions) := by
  have invariant := start_invariant memory reqIshead chunked readlen size
  constructor
  · exact run_delivers invariant permitted
  · exact run_chunksFit invariant permitted

/-! ## A chunk at the limit -/

/-- A response with one chunk, which is `"abcd"`. -/
def oneChunk : List UInt8 :=
  [72, 84, 84, 80, 47, 49, 46, 49, 32, 50, 48, 48, 32, 79, 75, 13, 10,
    84, 114, 97, 110, 115, 102, 101, 114, 45, 69, 110, 99, 111, 100, 105,
    110, 103, 58, 32, 99, 104, 117, 110, 107, 101, 100, 13, 10, 13, 10,
    52, 13, 10, 97, 98, 99, 100, 13, 10, 48, 13, 10, 13, 10]

/-- The response arrives at once, and the client reads its first chunk. -/
def oneArrival : List Action :=
  [.call {}, .readable (.data oneChunk) true,
    .call {}, .call {}, .call {}, .call {}]

/-- The assertion that fails in a run. -/
def failure : Except HttpAssert RequestState → Option HttpAssert
  | .error assertion => some assertion
  | .ok _ => none

theorem not_delivers_of_failure {result : Except HttpAssert RequestState}
    {assertion : HttpAssert} (fails : failure result = some assertion) :
    ¬ Delivers maxrlen result := by
  rintro ⟨final, isFinal, _⟩
  subst isFinal
  cases fails

/-- A body of four bytes is in the limit of four bytes, but its EOL is not. -/
theorem http_aborts_at_limit :
    ¬ ∀ (memory : Nat → UInt8) (reqIshead chunked : Bool)
      (readlen maxrlen : Nat) (actions : List Action),
      maxrlen < 2 ^ 64 →
      PermittedRun (start memory reqIshead chunked readlen maxrlen) actions →
      Delivers maxrlen
        (run (start memory reqIshead chunked readlen maxrlen) actions) := by
  intro delivers
  have permitted : PermittedRun
      (start (fun _ => 0) false false 0 4) oneArrival := by
    decide +kernel
  have fails : failure (run (start (fun _ => 0) false false 0 4)
      oneArrival) = some .addbody := by
    decide +kernel
  exact not_delivers_of_failure fails
    (delivers _ false false 0 4 oneArrival (by decide) permitted)

theorem http_no_abort_oneChunk :
    (ChunksFit (start (fun _ => 0) false false 0 6) oneArrival →
      Delivers 6 (run (start (fun _ => 0) false false 0 6) oneArrival)) ∧
    (6 + 2 < 2 ^ 64 →
      Delivers 6 (run (start (fun _ => 0) false false 0 6) oneArrival) →
      ChunksFit (start (fun _ => 0) false false 0 6) oneArrival) :=
  http_no_abort (fun _ => 0) false false 0 6 oneArrival (by decide)
    (by decide +kernel)

end Libcperciva.Http.HttpSafety
