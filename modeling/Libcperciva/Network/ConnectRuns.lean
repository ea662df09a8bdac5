import Libcperciva.Network.ConnectModel
import Mathlib.Data.List.Perm.Basic

/-!
# Every run of a connection attempt

Until it ends, an attempt waits for an immediate event and has no socket, or
it waits for a socket, and for a timer if there is a timeout.  When it ends,
nothing of it is registered, and the upstream callback was invoked once or the
attempt was cancelled.
-/

namespace Libcperciva.Network.ConnectRuns

open Libcperciva.Network.ConnectModel

variable {α : Type*} {C : ConnectCookie α} {W : World α} {env : TryEnv}
  {addresses : List α}

/-! ## The invariant -/

/-- Nothing is registered. -/
structure Quiet (W : World α) : Prop where
  timers : W.timers = []
  writable : W.writable = []
  immediates : W.immediates = []

/-- Each socket was closed once or is open, and there was at most one open at
any time. -/
structure Balanced (opened : List (α × Int)) (closed socks : List Int)
    (mostOpen : Nat) : Prop where
  perm : (opened.map Prod.snd).Perm (closed ++ socks)
  mostOpen : mostOpen ≤ 1

/-- What an attempt waits for. -/
inductive Waiting (C : ConnectCookie α) (W : World α) : Prop where
  | immediate (immediate : Nat)
      (cookieImmediate : C.cookieImmediate = some immediate)
      (immediates : W.immediates = [immediate])
      (noSocket : C.s = -1) (noTimer : C.cookieTimeo = none)
      (noSas : C.sas = []) (timers : W.timers = [])
      (writable : W.writable = []) (socks : W.socks = [])
  | socket (sa : α) (rest : List α) (isFirst : C.sas = sa :: rest)
      (opened : W.opened.getLast? = some (sa, C.s))
      (noImmediate : C.cookieImmediate = none)
      (hasSocket : C.s ≠ -1) (timers : W.timers = C.cookieTimeo.toList)
      (writable : W.writable = [C.s]) (immediates : W.immediates = [])
      (socks : W.socks = [C.s])

/-- The records of an attempt that has not ended. -/
structure Open (addresses : List α) (sas : List α) (W : World α) : Prop where
  tried : addresses = W.failed ++ sas
  balanced : Balanced W.opened W.closed W.socks W.mostOpen
  notFatal : W.fatal = false
  notCancelled : W.cancelled = false
  notCalled : W.called = []

/-- The attempt has not ended. -/
structure Pending (addresses : List α) (C : ConnectCookie α) (W : World α) :
    Prop where
  waiting : Waiting C W
  isOpen : Open addresses C.sas W

/-- The socket of the first address that did not fail or time out, or -1 if
there is none or on a fatal error. -/
inductive Delivered (addresses : List α) (W : World α) (s : Int) : Prop where
  | socket (isSocket : s ≠ -1) (socks : W.socks = [s])
      (notFatal : W.fatal = false) (sa : α) (rest : List α)
      (isFirst : addresses = W.failed ++ sa :: rest)
      (opened : W.opened.getLast? = some (sa, s))
  | none (noSocket : s = -1) (socks : W.socks = [])
      (because : W.fatal = true ∨ W.failed = addresses)

/-- The upstream callback was invoked. -/
structure Called (addresses : List α) (W : World α) : Prop where
  quiet : Quiet W
  balanced : Balanced W.opened W.closed W.socks W.mostOpen
  notCancelled : W.cancelled = false
  once : ∃ s, W.called = [s] ∧ Delivered addresses W s

/-- The attempt was cancelled. -/
structure Cancelled (W : World α) : Prop where
  quiet : Quiet W
  balanced : Balanced W.opened W.closed W.socks W.mostOpen
  socks : W.socks = []
  cancelled : W.cancelled = true
  notCalled : W.called = []

/-- The states of an attempt. -/
inductive Invariant (addresses : List α) (sys : System α) : Prop where
  | pending (C : ConnectCookie α) (cookie : sys.cookie = some C)
      (pending : Pending addresses C sys.world)
  | called (freed : sys.cookie = none) (called : Called addresses sys.world)
  | cancelled (freed : sys.cookie = none) (cancelled : Cancelled sys.world)

/-! ## `tryconnect` -/

/-- How `tryAddresses` ends: all addresses fail, or those before one to which
a socket is opened. -/
inductive Tried (W : World α) (s : Int) (sas : List α) :
    List α × Int × World α → Prop where
  | none : Tried W s sas
      ([], if sas = [] then s else -1, { W with failed := W.failed ++ sas })
  | socket (before : List α) (sa : α) (rest : List α) (opened : Int)
      (isSocket : opened ≠ -1) (split : sas = before ++ sa :: rest) :
      Tried W s sas
        (sa :: rest, opened,
          { W with
            failed := W.failed ++ before
            socks := W.socks ++ [opened]
            mostOpen := max W.mostOpen (W.socks.length + 1)
            opened := W.opened ++ [(sa, opened)] })

theorem tryAddresses_tried (connect : Nat → Int) (i : Nat) (s : Int)
    (W : World α) (sas : List α) :
    Tried W s sas (tryAddresses connect i s W sas) := by
  induction sas generalizing i s W with
  | nil =>
      have done := @Tried.none _ W s []
      rw [if_pos rfl, List.append_nil] at done
      exact done
  | cons sa sas ih =>
      unfold tryAddresses
      by_cases isSocket : connect i ≠ -1
      · have done := @Tried.socket _ W s (sa :: sas) [] sa sas (connect i)
          isSocket rfl
        rw [List.append_nil] at done
        dsimp only
        rw [if_pos isSocket]
        exact done
      · have later := ih (i + 1) (connect i)
          { W with failed := W.failed ++ [sa] }
        dsimp only
        rw [if_neg isSocket]
        generalize tryAddresses connect (i + 1) (connect i)
          { W with failed := W.failed ++ [sa] } sas = result at later
        have refused := not_not.mp isSocket
        cases later with
        | none =>
            have done := @Tried.none _ W s (sa :: sas)
            rw [if_neg (List.cons_ne_nil sa sas)] at done
            rw [refused, ite_self]
            dsimp only
            rw [List.append_assoc]
            exact done
        | socket before next rest opened isOpened split =>
            have done := @Tried.socket _ W s (sa :: sas) (sa :: before) next
              rest opened isOpened (congrArg (sa :: ·) split)
            dsimp only
            rw [List.append_assoc]
            exact done

/-- An attempt from which nothing is registered or open. -/
structure Fresh (addresses : List α) (C : ConnectCookie α) (W : World α) :
    Prop where
  quiet : Quiet W
  socks : W.socks = []
  noSocket : C.s = -1
  noImmediate : C.cookieImmediate = none
  noTimer : C.cookieTimeo = none
  isOpen : Open addresses C.sas W

/-- A fatal error: nothing is registered or open, and the callback is still to
be invoked. -/
structure Fatal (W : World α) : Prop where
  quiet : Quiet W
  socks : W.socks = []
  balanced : Balanced W.opened W.closed W.socks W.mostOpen
  fatal : W.fatal = true
  notCancelled : W.cancelled = false
  notCalled : W.called = []

/-- How `tryconnect` ends. -/
inductive Ends (addresses : List α) (sas : List α) :
    Except ConnectFault (Int × ConnectCookie α × World α) → Prop where
  | waits (C : ConnectCookie α) (W : World α)
      (pending : Pending addresses C W) (fewer : C.sas.length ≤ sas.length) :
      Ends addresses sas (.ok (0, C, W))
  | fatal (C : ConnectCookie α) (W : World α) (fatal : Fatal W) :
      Ends addresses sas (.ok (-1, C, W))

/-- `close`, for the only socket that is open. -/
theorem close_spec {s : Int} (socks : W.socks = [s]) :
    close s W =
      .ok { W with socks := [], closed := W.closed ++ [s] } := by
  unfold close
  rw [socks, if_pos (List.mem_singleton_self s), List.erase_cons_head]

theorem Balanced.close {opened : List (α × Int)} {closed socks : List Int}
    {mostOpen : Nat} {s : Int}
    (balanced : Balanced opened closed socks mostOpen) (one : socks = [s]) :
    Balanced opened (closed ++ [s]) [] mostOpen := by
  have perm := balanced.perm
  rw [one] at perm
  refine ⟨?_, balanced.mostOpen⟩
  rw [List.append_nil]
  exact perm

theorem tryconnectErr1_spec (quiet : Quiet W)
    (socks : C.s ≠ -1 ∧ W.socks = [C.s] ∨ C.s = -1 ∧ W.socks = [])
    (balanced : Balanced W.opened W.closed W.socks W.mostOpen)
    (notCancelled : W.cancelled = false)
    (notCalled : W.called = []) :
    ∃ after, tryconnectErr1 C W = .ok (-1, C, after) ∧ Fatal after := by
  unfold tryconnectErr1
  dsimp only
  rcases socks with ⟨isSocket, socks⟩ | ⟨noSocket, socks⟩
  · have closes := @close_spec _ { W with fatal := true } _ socks
    rw [if_pos isSocket, closes]
    exact ⟨_, rfl, ⟨quiet.timers, quiet.writable, quiet.immediates⟩, rfl,
      balanced.close socks, rfl, notCancelled, notCalled⟩
  · rw [if_neg (not_not_intro noSocket)]
    exact ⟨_, rfl, ⟨quiet.timers, quiet.writable, quiet.immediates⟩, socks,
      balanced, rfl, notCancelled, notCalled⟩

/-- The timer that was just registered can be cancelled. -/
theorem cancelTimer_spec {cookieTimeo : Option Nat}
    (timers : W.timers = cookieTimeo.toList) :
    cancelTimer cookieTimeo W = .ok { W with timers := [] } := by
  unfold cancelTimer
  cases cookieTimeo with
  | none =>
      have none : W.timers = [] := timers
      rw [← none]
  | some timer =>
      have one : W.timers = [timer] := timers
      unfold eventsTimerCancel
      dsimp only
      rw [one, if_pos (List.mem_singleton_self timer), List.erase_cons_head]

/-- A socket was opened, and its timer is registered. -/
theorem tryconnectRegister_ends {sas : List α} {sa : α} {rest : List α}
    (isFirst : C.sas = sa :: rest) (fewer : C.sas.length ≤ sas.length)
    (opened : W.opened.getLast? = some (sa, C.s)) (isSocket : C.s ≠ -1)
    (noImmediate : C.cookieImmediate = none)
    (timers : W.timers = C.cookieTimeo.toList) (writable : W.writable = [])
    (immediates : W.immediates = []) (socks : W.socks = [C.s])
    (isOpen : Open addresses C.sas W) :
    Ends addresses sas (tryconnectRegister env C W) := by
  unfold tryconnectRegister
  by_cases registers : env.registers = true ∧ C.s ∉ W.writable
  · rw [if_pos registers]
    refine Ends.waits _ _ ⟨?_, ?_⟩ fewer
    · refine Waiting.socket sa rest isFirst opened noImmediate isSocket timers
        ?_ immediates socks
      show W.writable ++ [C.s] = [C.s]
      rw [writable, List.nil_append]
    · exact ⟨isOpen.tried, isOpen.balanced, isOpen.notFatal,
        isOpen.notCancelled, isOpen.notCalled⟩
  · rw [if_neg registers, cancelTimer_spec timers]
    have quiet : Quiet { W with timers := [] } := ⟨rfl, writable, immediates⟩
    rcases tryconnectErr1_spec quiet (Or.inl ⟨isSocket, socks⟩)
      isOpen.balanced isOpen.notCancelled isOpen.notCalled with
      ⟨after, result, fatal⟩
    show Ends addresses sas (tryconnectErr1 C { W with timers := [] })
    rw [result]
    exact Ends.fatal _ _ fatal

theorem tryconnect_ends (fresh : Fresh addresses C W) :
    Ends addresses C.sas (tryconnect env C W) := by
  have quiet := fresh.quiet
  have isOpen := fresh.isOpen
  have tried := tryAddresses_tried env.connect 0 C.s W C.sas
  unfold tryconnect
  generalize tryAddresses env.connect 0 C.s W C.sas = result at tried
  cases tried with
  | none =>
      have noSocket : (if C.sas = [] then C.s else -1) = -1 := by
        rw [fresh.noSocket, ite_self]
      dsimp only
      rw [noSocket, if_pos List.isEmpty_nil]
      cases env.immediate with
      | none =>
          rcases @tryconnectErr1_spec _
            { C with sas := [], s := -1 }
            { W with failed := W.failed ++ C.sas }
            ⟨quiet.timers, quiet.writable, quiet.immediates⟩
            (Or.inr ⟨rfl, fresh.socks⟩) isOpen.balanced isOpen.notCancelled
            isOpen.notCalled with ⟨after, result, fatal⟩
          dsimp only
          rw [result]
          exact Ends.fatal _ _ fatal
      | some immediate =>
          refine Ends.waits _ _ ⟨?_, ?_⟩ (Nat.zero_le _)
          · refine Waiting.immediate immediate rfl ?_ rfl fresh.noTimer rfl
              quiet.timers quiet.writable fresh.socks
            show W.immediates ++ [immediate] = [immediate]
            rw [quiet.immediates, List.nil_append]
          · refine ⟨?_, isOpen.balanced, isOpen.notFatal,
              isOpen.notCancelled, isOpen.notCalled⟩
            rw [isOpen.tried]
            exact (List.append_nil _).symm
  | socket before sa rest opened isSocket split =>
      have fewer : (sa :: rest).length ≤ C.sas.length := by
        rw [split, List.length_append]
        exact Nat.le_add_left _ _
      have last : (W.opened ++ [(sa, opened)]).getLast? =
          some (sa, opened) := List.getLast?_concat
      have socks : W.socks ++ [opened] = [opened] := by
        rw [fresh.socks, List.nil_append]
      have balanced : Balanced (W.opened ++ [(sa, opened)]) W.closed
          (W.socks ++ [opened]) (max W.mostOpen (W.socks.length + 1)) := by
        refine ⟨?_, ?_⟩
        · rw [List.map_append, ← List.append_assoc]
          exact isOpen.balanced.perm.append_right [opened]
        · rw [fresh.socks]
          exact Nat.max_le.mpr ⟨isOpen.balanced.mostOpen, Nat.le_refl 1⟩
      have nowOpen : Open addresses (sa :: rest)
          { W with
            failed := W.failed ++ before
            socks := W.socks ++ [opened]
            mostOpen := max W.mostOpen (W.socks.length + 1)
            opened := W.opened ++ [(sa, opened)] } := by
        refine ⟨?_, balanced, isOpen.notFatal, isOpen.notCancelled,
          isOpen.notCalled⟩
        rw [isOpen.tried, split, List.append_assoc]
      dsimp only
      rw [if_neg (by simp)]
      split_ifs with timeoEnabled
      · cases env.timer with
        | none =>
            rcases @tryconnectErr1_spec _
              { C with sas := sa :: rest, s := opened }
              { W with
                failed := W.failed ++ before
                socks := W.socks ++ [opened]
                mostOpen := max W.mostOpen (W.socks.length + 1)
                opened := W.opened ++ [(sa, opened)] }
              ⟨quiet.timers, quiet.writable, quiet.immediates⟩
              (Or.inl ⟨isSocket, socks⟩) balanced isOpen.notCancelled
              isOpen.notCalled with ⟨after, result, fatal⟩
            dsimp only
            rw [result]
            exact Ends.fatal _ _ fatal
        | some timer =>
            dsimp only
            refine tryconnectRegister_ends rfl fewer last isSocket
              fresh.noImmediate ?_ quiet.writable quiet.immediates socks
              ⟨nowOpen.tried, nowOpen.balanced, nowOpen.notFatal,
                nowOpen.notCancelled, nowOpen.notCalled⟩
            show W.timers ++ [timer] = [timer]
            rw [quiet.timers, List.nil_append]
      · exact tryconnectRegister_ends rfl fewer last isSocket
          fresh.noImmediate quiet.timers quiet.writable quiet.immediates socks
          nowOpen

/-! ## Callbacks -/

/-- How many addresses are left to wait for, and the callback. -/
def rank (cookie : Option (ConnectCookie α)) : Nat :=
  match cookie with
  | none => 0
  | some C => C.sas.length + 1

/-- A callback ends, and the attempt waits for less than before. -/
inductive Steps (addresses : List α) (before : Nat) :
    Except ConnectFault (Int × Option (ConnectCookie α) × World α) → Prop where
  | ok (status : Int) (cookie : Option (ConnectCookie α)) (W : World α)
      (invariant : Invariant addresses ⟨cookie, W⟩)
      (less : rank cookie < before) :
      Steps addresses before (.ok (status, cookie, W))

/-- After a fatal error the callback is invoked with -1. -/
theorem Fatal.called (fatal : Fatal W) (addresses : List α) :
    Called addresses { W with called := W.called ++ [-1] } := by
  refine ⟨⟨fatal.quiet.timers, fatal.quiet.writable, fatal.quiet.immediates⟩,
    fatal.balanced, fatal.notCancelled, -1, ?_,
    .none rfl fatal.socks (Or.inl fatal.fatal)⟩
  show W.called ++ [-1] = [-1]
  rw [fatal.notCalled, List.nil_append]

theorem dofailed_steps {sa : α} {rest : List α} (quiet : Quiet W)
    (isFirst : C.sas = sa :: rest) (socks : W.socks = [C.s])
    (noImmediate : C.cookieImmediate = none) (noTimer : C.cookieTimeo = none)
    (isOpen : Open addresses C.sas W) :
    Steps addresses (C.sas.length + 1) (dofailed env C W) := by
  have tried := isOpen.tried
  rw [isFirst] at tried
  have fresh : Fresh addresses
      { C with s := -1, sas := C.sas.tail }
      { W with
        socks := []
        closed := W.closed ++ [C.s]
        failed := W.failed ++ C.sas.head?.toList } := by
    refine ⟨⟨quiet.timers, quiet.writable, quiet.immediates⟩, rfl, rfl,
      noImmediate, noTimer, ?_, ?_, isOpen.notFatal, isOpen.notCancelled,
      isOpen.notCalled⟩
    · rw [tried, isFirst, List.append_assoc]
      rfl
    · exact isOpen.balanced.close socks
  have ends := @tryconnect_ends _ _ _ env _ fresh
  unfold dofailed
  rw [close_spec socks]
  dsimp only [bind, Except.bind]
  generalize tryconnect env _ _ = result at ends
  cases ends with
  | waits after W pending fewer =>
      refine Steps.ok 0 (some after) W (.pending after rfl pending) ?_
      rw [isFirst] at fewer ⊢
      have shorter : after.sas.length ≤ rest.length := fewer
      show after.sas.length + 1 < rest.length + 1 + 1
      omega
  | fatal after W fatal =>
      refine Steps.ok (-1) none _ (.called rfl (fatal.called addresses)) ?_
      exact Nat.succ_pos _

/-- What is known when a callback of the socket or of its timer runs. -/
structure Ready (addresses : List α) (C : ConnectCookie α) (W : World α) :
    Prop where
  isFirst : ∃ sa rest, C.sas = sa :: rest ∧
    W.opened.getLast? = some (sa, C.s)
  isSocket : C.s ≠ -1
  socks : W.socks = [C.s]
  noImmediate : C.cookieImmediate = none
  immediates : W.immediates = []
  isOpen : Open addresses C.sas W

theorem callbackConnect_steps (ready : Ready addresses C W)
    (timers : W.timers = C.cookieTimeo.toList) (writable : W.writable = [])
    (getsockopt sockerr : Int) :
    Steps addresses (C.sas.length + 1)
      (callbackConnect env getsockopt sockerr C W) := by
  have isOpen := ready.isOpen
  rcases ready.isFirst with ⟨sa, rest, isFirst, opened⟩
  unfold callbackConnect
  rw [cancelTimer_spec timers]
  dsimp only [bind, Except.bind]
  by_cases failed : getsockopt ≠ 0
  · rw [if_pos failed]
    have closes := @close_spec _
      { W with timers := [], fatal := true } _ ready.socks
    rw [closes]
    have fatal : Fatal { W with
        timers := []
        fatal := true
        socks := []
        closed := W.closed ++ [C.s] } :=
      ⟨⟨rfl, writable, ready.immediates⟩, rfl,
        isOpen.balanced.close ready.socks, rfl, isOpen.notCancelled,
        isOpen.notCalled⟩
    exact Steps.ok (-1) none _ (.called rfl (fatal.called addresses))
      (Nat.succ_pos _)
  · rw [if_neg failed]
    by_cases refused : sockerr ≠ 0
    · rw [if_pos refused]
      exact @dofailed_steps _ { C with cookieTimeo := none }
        { W with timers := [] } env addresses sa rest
        ⟨rfl, writable, ready.immediates⟩ isFirst ready.socks
        ready.noImmediate rfl
        ⟨isOpen.tried, isOpen.balanced, isOpen.notFatal, isOpen.notCancelled,
          isOpen.notCalled⟩
    · rw [if_neg refused]
      refine Steps.ok env.rc none _ (.called rfl ?_) (Nat.succ_pos _)
      refine ⟨⟨rfl, writable, ready.immediates⟩, isOpen.balanced,
        isOpen.notCancelled, C.s, ?_, ?_⟩
      · show W.called ++ [C.s] = [C.s]
        rw [isOpen.notCalled, List.nil_append]
      · refine Delivered.socket ready.isSocket ready.socks isOpen.notFatal sa
          rest ?_ opened
        show addresses = W.failed ++ sa :: rest
        rw [← isFirst]
        exact isOpen.tried

theorem callbackTimeo_steps (ready : Ready addresses C W)
    (timers : W.timers = []) (writable : W.writable = [C.s]) :
    Steps addresses (C.sas.length + 1) (callbackTimeo env C W) := by
  have isOpen := ready.isOpen
  rcases ready.isFirst with ⟨sa, rest, isFirst, _⟩
  have gone : W.writable.erase C.s = [] := by
    rw [writable, List.erase_cons_head]
  unfold callbackTimeo eventsNetworkCancel
  exact @dofailed_steps _ { C with cookieTimeo := none }
    { W with writable := W.writable.erase C.s } env addresses sa rest
    ⟨timers, gone, ready.immediates⟩ isFirst ready.socks ready.noImmediate rfl
    ⟨isOpen.tried, isOpen.balanced, isOpen.notFatal, isOpen.notCancelled,
      isOpen.notCalled⟩

theorem networkConnectCancel_spec (pending : Pending addresses C W) :
    ∃ after, networkConnectCancel C W = .ok after ∧ Cancelled after := by
  have isOpen := pending.isOpen
  unfold networkConnectCancel
  cases pending.waiting with
  | immediate immediate cookieImmediate immediates noSocket noTimer noSas
      timers writable socks =>
      rw [if_neg (not_not_intro (Or.inl (by rw [cookieImmediate]; simp))),
        if_neg (not_not_intro (Or.inr noSocket)), noTimer, cookieImmediate]
      unfold cancelTimer eventsImmediateCancel
      dsimp only [bind, Except.bind]
      rw [immediates, if_pos (List.mem_singleton_self immediate),
        List.erase_cons_head]
      dsimp only
      rw [if_neg (not_not_intro noSocket)]
      exact ⟨_, rfl, ⟨timers, writable, rfl⟩, isOpen.balanced, socks, rfl,
        isOpen.notCalled⟩
  | socket sa rest isFirst opened noImmediate hasSocket timers writable
      immediates socks =>
      rw [if_neg (not_not_intro (Or.inr hasSocket)),
        if_neg (not_not_intro (Or.inl noImmediate)), cancelTimer_spec timers,
        noImmediate]
      dsimp only [bind, Except.bind]
      rw [if_pos hasSocket]
      unfold eventsNetworkCancel
      have closes := @close_spec _
        { W with timers := [], writable := W.writable.erase C.s } _ socks
      rw [closes]
      refine ⟨_, rfl, ⟨rfl, ?_, immediates⟩, isOpen.balanced.close socks, rfl,
        rfl, isOpen.notCalled⟩
      show W.writable.erase C.s = []
      rw [writable, List.erase_cons_head]

/-! ## One step -/

/-- How a step ends. -/
inductive StepEnds (addresses : List α) (before : System α) :
    Except ConnectFault (Int × System α) → Prop where
  | ok (status : Int) (after : System α)
      (invariant : Invariant addresses after)
      (less : rank after.cookie < rank before.cookie) :
      StepEnds addresses before (.ok (status, after))

theorem Steps.stepEnds {sys : System α}
    {result :
      Except ConnectFault (Int × Option (ConnectCookie α) × World α)}
    (steps : Steps addresses (C.sas.length + 1) result)
    (cookie : sys.cookie = some C) :
    StepEnds addresses sys
      (result >>= fun (status, cookie, W) => .ok (status, ⟨cookie, W⟩)) := by
  have before : rank sys.cookie = C.sas.length + 1 := by
    rw [cookie]
    rfl
  cases steps with
  | ok status after W invariant less =>
      exact StepEnds.ok status ⟨after, W⟩ invariant (before ▸ less)

/-- If nothing is registered, the only step left is that the user cancels. -/
theorem Quiet.cancels {sys : System α} {action : Action}
    (quiet : Quiet sys.world) (permitted : Permitted sys action) :
    action = .cancel := by
  cases action with
  | timer timer env =>
      have registered : timer ∈ sys.world.timers := permitted
      rw [quiet.timers] at registered
      cases registered
  | writable s env getsockopt sockerr =>
      have registered : s ∈ sys.world.writable := permitted
      rw [quiet.writable] at registered
      cases registered
  | immediate immediate rc =>
      have registered : immediate ∈ sys.world.immediates := permitted
      rw [quiet.immediates] at registered
      cases registered
  | cancel => rfl

/-- Once an attempt has ended, nothing happens to it. -/
theorem pending_of_permitted {sys : System α} {action : Action}
    (invariant : Invariant addresses sys) (permitted : Permitted sys action) :
    ∃ C, sys.cookie = some C ∧ Pending addresses C sys.world := by
  cases invariant with
  | pending C cookie pending => exact ⟨C, cookie, pending⟩
  | called freed called =>
      obtain rfl := called.quiet.cancels permitted
      rcases called.once with ⟨s, once, _⟩
      rw [permitted.1] at once
      cases once
  | cancelled freed cancelled =>
      obtain rfl := cancelled.quiet.cancels permitted
      have notCancelled := permitted.2
      rw [cancelled.cancelled] at notCancelled
      cases notCancelled

theorem step_ends {sys : System α} {action : Action}
    (invariant : Invariant addresses sys) (permitted : Permitted sys action) :
    StepEnds addresses sys (step sys action) := by
  rcases pending_of_permitted invariant permitted with ⟨C, cookie, pending⟩
  rcases sys with ⟨_, W⟩
  dsimp only at cookie pending
  subst cookie
  have isOpen := pending.isOpen
  cases action with
  | timer timer env =>
      have registered : timer ∈ W.timers := permitted
      cases pending.waiting with
      | immediate immediate cookieImmediate immediates noSocket noTimer noSas
          timers writable socks =>
          rw [timers] at registered
          cases registered
      | socket sa rest isFirst opened noImmediate hasSocket timers writable
          immediates socks =>
          have one : W.timers.erase timer = [] := by
            rw [timers, Option.mem_toList] at registered
            rw [timers, registered]
            exact List.erase_cons_head timer []
          have ready : Ready addresses C
              { W with timers := W.timers.erase timer } :=
            ⟨⟨sa, rest, isFirst, opened⟩, hasSocket, socks, noImmediate,
              immediates, isOpen.tried, isOpen.balanced, isOpen.notFatal,
              isOpen.notCancelled, isOpen.notCalled⟩
          exact (callbackTimeo_steps ready one writable).stepEnds rfl
  | writable s env getsockopt sockerr =>
      have registered : s ∈ W.writable := permitted
      cases pending.waiting with
      | immediate immediate cookieImmediate immediates noSocket noTimer noSas
          timers writable socks =>
          rw [writable] at registered
          cases registered
      | socket sa rest isFirst opened noImmediate hasSocket timers writable
          immediates socks =>
          have one : W.writable.erase s = [] := by
            rw [writable, List.mem_singleton] at registered
            rw [writable, registered]
            exact List.erase_cons_head _ _
          have ready : Ready addresses C
              { W with writable := W.writable.erase s } :=
            ⟨⟨sa, rest, isFirst, opened⟩, hasSocket, socks, noImmediate,
              immediates, isOpen.tried, isOpen.balanced, isOpen.notFatal,
              isOpen.notCancelled, isOpen.notCalled⟩
          exact (callbackConnect_steps ready timers one getsockopt
            sockerr).stepEnds rfl
  | immediate immediate rc =>
      have registered : immediate ∈ W.immediates := permitted
      cases pending.waiting with
      | immediate cookie cookieImmediate immediates noSocket noTimer noSas
          timers writable socks =>
          have one : W.immediates.erase immediate = [] := by
            rw [immediates, List.mem_singleton] at registered
            rw [immediates, registered]
            exact List.erase_cons_head _ _
          refine StepEnds.ok rc ⟨none, _⟩ (.called rfl ?_) (Nat.succ_pos _)
          refine ⟨⟨timers, writable, one⟩, isOpen.balanced,
            isOpen.notCancelled, -1, ?_, .none rfl socks (Or.inr ?_)⟩
          · show W.called ++ [C.s] = [-1]
            rw [isOpen.notCalled, noSocket, List.nil_append]
          · have tried := isOpen.tried
            rw [noSas, List.append_nil] at tried
            exact tried.symm
      | socket sa rest isFirst opened noImmediate hasSocket timers writable
          immediates socks =>
          rw [immediates] at registered
          cases registered
  | cancel =>
      rcases networkConnectCancel_spec pending with
        ⟨after, result, cancelled⟩
      unfold step deref
      dsimp only [bind, Except.bind]
      rw [result]
      exact StepEnds.ok 0 ⟨none, after⟩ (.cancelled rfl cancelled)
        (Nat.succ_pos _)

/-! ## Every run -/

/-- The states an attempt reaches after `network_connect_internal` returned a
cookie, and how many steps it took. -/
inductive Run (addresses : List α) : System α → Nat → Prop where
  | start {malloc timeo : Bool} {env : TryEnv} {C : ConnectCookie α}
      {W : World α}
      (result : networkConnectInternal malloc env addresses timeo =
        .ok (some C, W)) :
      Run addresses ⟨some C, W⟩ 0
  | step {sys after : System α} {n : Nat} {action : Action} {status : Int}
      (before : Run addresses sys n) (permitted : Permitted sys action)
      (result : step sys action = .ok (status, after)) :
      Run addresses after (n + 1)

/-- How `network_connect_internal` ends. -/
inductive Starts (addresses : List α) :
    Except ConnectFault (Option (ConnectCookie α) × World α) → Prop where
  | cookie (C : ConnectCookie α) (W : World α)
      (pending : Pending addresses C W)
      (fewer : C.sas.length ≤ addresses.length) :
      Starts addresses (.ok (some C, W))
  /-- It fails: nothing is left, and the callback was not invoked. -/
  | null (W : World α) (quiet : Quiet W) (socks : W.socks = [])
      (balanced : Balanced W.opened W.closed W.socks W.mostOpen)
      (notCalled : W.called = []) :
      Starts addresses (.ok (none, W))

theorem networkConnectInternal_starts (malloc timeo : Bool) (env : TryEnv)
    (addresses : List α) :
    Starts addresses (networkConnectInternal malloc env addresses timeo) := by
  unfold networkConnectInternal
  cases malloc with
  | false =>
      exact Starts.null {} ⟨rfl, rfl, rfl⟩ rfl
        ⟨List.Perm.refl [], Nat.zero_le 1⟩ rfl
  | true =>
      have fresh : Fresh addresses
          { sas := addresses, cookieImmediate := none, s := -1,
            timeoEnabled := timeo, cookieTimeo := none }
          ({} : World α) :=
        ⟨⟨rfl, rfl, rfl⟩, rfl, rfl, rfl, rfl, rfl,
          ⟨List.Perm.refl [], Nat.zero_le 1⟩, rfl, rfl, rfl⟩
      have ends := @tryconnect_ends _ _ _ env _ fresh
      dsimp only at ends ⊢
      rw [Bool.not_true, if_neg Bool.false_ne_true]
      generalize tryconnect env _ _ = result at ends
      cases ends with
      | waits C W pending fewer => exact Starts.cookie C W pending fewer
      | fatal C W fatal =>
          exact Starts.null W fatal.quiet fatal.socks fatal.balanced
            fatal.notCalled

theorem Run.invariant {sys : System α} {n : Nat}
    (run : Run addresses sys n) :
    Invariant addresses sys ∧
      n + rank sys.cookie ≤ addresses.length + 1 := by
  induction run with
  | @start malloc timeo env C W result =>
      have starts := networkConnectInternal_starts malloc timeo env addresses
      rw [result] at starts
      cases starts with
      | cookie C W pending fewer =>
          refine ⟨.pending C rfl pending, ?_⟩
          show 0 + (C.sas.length + 1) ≤ addresses.length + 1
          omega
  | @step sys after n action status _ permitted result before =>
      have ends := step_ends before.1 permitted
      rw [result] at ends
      cases ends with
      | ok _ _ invariant less =>
          refine ⟨invariant, ?_⟩
          have bound := before.2
          omega

/-- What holds of an attempt in every state it reaches. -/
structure LifeCycle (addresses : List α) (sys : System α) (n : Nat) :
    Prop where
  /-- Each socket was closed once or is open, and at most one is open. -/
  balanced : Balanced sys.world.opened sys.world.closed sys.world.socks
    sys.world.mostOpen
  /-- There is an event to wait for, or the callback was invoked once, or the
  attempt was cancelled and the callback was not invoked. -/
  ends : (sys.world.called = [] ∧ sys.world.cancelled = false ∧
      ¬ Quiet sys.world) ∨
    Called addresses sys.world ∨ Cancelled sys.world
  /-- An event frees no socket and cancels no event twice, does not use the
  cookie after it was freed, and no assertion fails. -/
  steps : ∀ action, Permitted sys action →
    ∃ status after, step sys action = .ok (status, after)
  /-- There are not more events than addresses and the last one. -/
  bound : n ≤ addresses.length + 1

/--
In every run of an attempt, the upstream callback is invoked once, with the
socket of the first address that did not fail or time out, or the attempt is
cancelled and it is not invoked; then no event of the attempt is registered,
and no socket is open but the one that was delivered.
-/
theorem network_connect_life_cycle (addresses : List α) :
    (∀ malloc timeo env, Starts addresses
      (networkConnectInternal malloc env addresses timeo)) ∧
      ∀ sys n, Run addresses sys n → LifeCycle addresses sys n := by
  refine ⟨fun malloc timeo env =>
    networkConnectInternal_starts malloc timeo env addresses, ?_⟩
  intro sys n run
  rcases run.invariant with ⟨invariant, bound⟩
  refine ⟨?_, ?_, ?_, by omega⟩
  · cases invariant with
    | pending C cookie pending => exact pending.isOpen.balanced
    | called freed called => exact called.balanced
    | cancelled freed cancelled => exact cancelled.balanced
  · cases invariant with
    | pending C cookie pending =>
        refine Or.inl ⟨pending.isOpen.notCalled, pending.isOpen.notCancelled,
          ?_⟩
        intro quiet
        cases pending.waiting with
        | immediate immediate cookieImmediate immediates noSocket noTimer
            noSas timers writable socks =>
            rw [quiet.immediates] at immediates
            cases immediates
        | socket sa rest isFirst opened noImmediate hasSocket timers writable
            immediates socks =>
            rw [quiet.writable] at writable
            cases writable
    | called freed called => exact Or.inr (Or.inl called)
    | cancelled freed cancelled => exact Or.inr (Or.inr cancelled)
  · intro action permitted
    have ends := step_ends invariant permitted
    generalize step sys action = result at ends
    cases ends with
    | ok status after _ _ => exact ⟨status, after, rfl⟩

/-- The first of two addresses times out, and the second is connected to. -/
theorem network_connect_life_cycle_second :
    ∃ sys, LifeCycle [10, 20] sys 2 ∧ sys.world.called = [5] := by
  have start := @Run.start _ [10, 20] true true
    ⟨fun _ => 4, some 1, true, none, 0⟩ _ _ (by rfl)
  have first := @Run.step _ [10, 20] _ _ 0
    (.timer 1 ⟨fun _ => 5, some 2, true, none, 0⟩) _ start
    (List.mem_singleton_self 1) (by rfl)
  have second := @Run.step _ [10, 20] _ _ 1
    (.writable 5 ⟨fun _ => -1, none, true, none, 0⟩ 0 0) _ first
    (List.mem_singleton_self 5) (by rfl)
  exact ⟨_, (network_connect_life_cycle [10, 20]).2 _ _ second, rfl⟩

end Libcperciva.Network.ConnectRuns
