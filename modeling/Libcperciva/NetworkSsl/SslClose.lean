import Libcperciva.NetworkSsl.SslOps

/-!
# The TLS transport after `network_ssl_close`

A callback of the user may close the context.  `doread` and `dowrite` return
the status of the callback to `poke`, and for status 0 `poke` goes on with the
context.  So the context is used after it was closed exactly in the runs where
a callback that has closed it returns 0.
-/

namespace Libcperciva.NetworkSsl.SslClose

open Libcperciva.Lib.Postcondition
open Libcperciva.NetworkSsl.SslModel
open Libcperciva.NetworkSsl.SslOps

variable {κ : Type*} {sys : System κ} {action : Action κ}

/-! ## The condition -/

/-- A callback of the user returns 0 in this step. -/
def ReturnsZero : Action κ → Prop
  | .returns status _ => status = 0
  | _ => False

/-- No callback returns 0 when the context has been closed. -/
def NoneReturnsZeroClosed (sys : System κ) : List (Action κ) → Prop
  | [] => True
  | action :: actions =>
      (ReturnsZero action → sys.closed = false) ∧ ∀ reply next,
        action.progress sys = .ok (reply, next) →
          NoneReturnsZeroClosed next actions

/-! ## One step -/

/-- The context is open and knows its events, or it is closed and has none. -/
def Invariant (sys : System κ) : Prop := Live sys ∨ Dead sys

theorem settle_invariant {result : Except Fault (Progress κ)}
    (live : Ensures Harmless (fun progress => Live progress.sys) result) :
    Ensures Harmless (fun result => Invariant result.2)
      (do .ok (← result).settle) := by
  refine live.bind fun progress kept => ?_
  cases progress with
  | returned status sys => exact Or.inl (kept.setFrame _)
  | invokes op callback len sys => exact Or.inl (kept.setFrame _)

theorem perform_invariant (live : Live sys) (call : Request κ) :
    Ensures Harmless (fun result => Invariant result.2)
      (call.perform sys) := by
  cases call with
  | read args =>
      exact (networkSslStart_live live).bind fun _ kept => Or.inl kept
  | readCancel grants =>
      exact (networkSslCancel_live live).bind fun _ kept => Or.inl kept
  | write args =>
      exact (networkSslStart_live live).bind fun _ kept => Or.inl kept
  | writeCancel grants =>
      exact (networkSslCancel_live live).bind fun _ kept => Or.inl kept
  | close =>
      exact (networkSslClose_dead live).bind fun _ gone => Or.inr gone

theorem resume_live (live : Live sys) (status : Int) (io : PokeIo) :
    Ensures Harmless (fun progress => Live progress.sys)
      (resume io status sys) := by
  unfold resume
  split
  · exact live
  · exact pokeAfterRead_live status live
  · exact pokeAfterWrite_live status live

theorem live_progress_invariant (live : Live sys)
    (permitted : Permitted sys action) :
    Ensures Harmless (fun result => Invariant result.2)
      (action.progress sys) := by
  cases action with
  | request call => exact perform_invariant live call
  | readable io =>
      exact settle_invariant (callbackRead_live
        ⟨live.opened, rfl, live.writable, live.immediates⟩)
  | writable io =>
      exact settle_invariant (callbackWrite_live
        ⟨live.opened, live.readable, rfl, live.immediates⟩)
  | immediate cookie io =>
      exact settle_invariant (callbackImmediate_live
        ⟨live.opened, live.readable, live.writable,
          live.erase_immediate permitted.2⟩)
  | returns status io =>
      exact settle_invariant (resume_live live status io)

theorem progress_returns (status : Int) (io : PokeIo) :
    (Action.returns status io).progress sys =
      (do .ok (← resume io status sys).settle) :=
  rfl

/-- With a status other than 0, `poke` returns at once. -/
theorem resume_nonzero {status : Int} (io : PokeIo) (nonzero : status ≠ 0)
    (called : sys.frame ≠ .eventLoop) :
    resume io status sys = .ok (.returned (-1) sys) := by
  unfold resume
  split
  · next frame => exact absurd frame called
  · exact if_pos nonzero
  · exact if_pos nonzero

/-- With status 0, `poke` goes on with the context. -/
theorem resume_zero_closed (io : PokeIo) (closed : sys.closed = true)
    (called : sys.frame ≠ .eventLoop) :
    resume io 0 sys = .error .useAfterClose := by
  unfold resume
  split
  · next frame => exact absurd frame called
  · unfold pokeAfterRead pokeWrite
    rw [if_neg (not_not_intro rfl), deref_closed closed]
    rfl
  · unfold pokeAfterWrite pokeEvents setupevents
    rw [if_neg (not_not_intro rfl), deref_closed closed]
    rfl

/-- Once the context is closed, the only step left is that the callback that
has closed it returns. -/
theorem dead_progress_invariant (dead : Dead sys)
    (permitted : Permitted sys action) (nonzero : ¬ ReturnsZero action) :
    Ensures Harmless (fun result => Invariant result.2)
      (action.progress sys) := by
  cases action with
  | request call =>
      exact absurd (dead.closed.symm.trans permitted) Bool.noConfusion
  | readable io =>
      have registered := permitted.2
      rw [dead.events] at registered
      exact absurd registered Bool.noConfusion
  | writable io =>
      have registered := permitted.2
      rw [dead.events] at registered
      exact absurd registered Bool.noConfusion
  | immediate cookie io =>
      have registered := permitted.2
      rw [dead.events] at registered
      exact absurd registered List.not_mem_nil
  | returns status io =>
      rw [progress_returns, resume_nonzero io nonzero permitted]
      exact Or.inr ⟨dead.closed, dead.events⟩

theorem returnsZero_closed (closed : sys.closed = true)
    (permitted : Permitted sys action) (zero : ReturnsZero action) :
    action.progress sys = .error .useAfterClose := by
  cases action with
  | returns status io =>
      subst zero
      rw [progress_returns, resume_zero_closed io closed permitted]
      rfl
  | request call => exact absurd zero not_false
  | readable io => exact absurd zero not_false
  | writable io => exact absurd zero not_false
  | immediate cookie io => exact absurd zero not_false

theorem progress_invariant (invariant : Invariant sys)
    (permitted : Permitted sys action)
    (open_ : ReturnsZero action → sys.closed = false) :
    Ensures Harmless (fun result => Invariant result.2)
      (action.progress sys) := by
  cases invariant with
  | inl live => exact live_progress_invariant live permitted
  | inr dead =>
      refine dead_progress_invariant dead permitted fun zero => ?_
      exact absurd (dead.closed.symm.trans (open_ zero)) Bool.noConfusion

/-! ## Runs -/

variable {actions : List (Action κ)} {reply : Reply κ} {next : System κ}

theorem run_cons (sys : System κ) (action : Action κ)
    (actions : List (Action κ)) :
    run sys (action :: actions) =
      (action.progress sys >>= fun after => run after.2 actions) :=
  rfl

theorem run_of_ok (result : action.progress sys = .ok (reply, next)) :
    run sys (action :: actions) = run next actions := by
  rw [run_cons, result]
  rfl

theorem run_of_error {fault : Fault}
    (result : action.progress sys = .error fault) :
    run sys (action :: actions) = .error fault := by
  rw [run_cons, result]
  rfl

theorem run_use_iff (invariant : Invariant sys)
    (permitted : PermittedRun sys actions) :
    run sys actions ≠ .error .useAfterClose ↔
      NoneReturnsZeroClosed sys actions := by
  induction actions generalizing sys with
  | nil => exact iff_of_true nofun trivial
  | cons action actions ih =>
      obtain ⟨permitted, rest⟩ := permitted
      by_cases open_ : ReturnsZero action → sys.closed = false
      · have kept := progress_invariant invariant permitted open_
        cases result : action.progress sys with
        | ok after =>
            obtain ⟨reply, next⟩ := after
            have tail := ih (kept.of_ok result) (rest reply next result)
            rw [run_of_ok result, tail]
            constructor
            · intro none
              refine ⟨open_, fun reply' next' result' => ?_⟩
              cases result.symm.trans result'
              exact none
            · intro none
              exact none.2 reply next result
        | error fault =>
            have harmless := kept.of_error result
            rw [run_of_error result]
            constructor
            · intro _
              refine ⟨open_, fun reply' next' result' => ?_⟩
              cases result.symm.trans result'
            · intro _ used
              exact harmless (Except.error.inj used)
      · obtain ⟨zero, closed⟩ := Classical.not_imp.mp open_
        have fault := returnsZero_closed
          (Bool.eq_true_of_not_eq_false closed) permitted zero
        rw [run_of_error fault]
        exact iff_of_false (not_not_intro rfl) fun none => open_ none.1

/-- In a run from `network_ssl_open`, no step uses the context after
`network_ssl_close` if and only if no callback that has closed the context
returns 0. -/
theorem network_ssl_unused_after_close_iff (actions : List (Action κ))
    (permitted : PermittedRun networkSslOpen actions) :
    run networkSslOpen actions ≠ .error .useAfterClose ↔
      NoneReturnsZeroClosed networkSslOpen actions :=
  run_use_iff (Or.inl networkSslOpen_live) permitted

/-- A read and a write are started; the read callback is invoked, cancels the
write, closes the context and returns a status. -/
def closingRun (status : Int) : List (Action Unit) :=
  [ .request (.read ⟨(), [0], 1, 1, some 7⟩),
    .request (.write ⟨(), [1], 1, 1, some 8⟩),
    .immediate 7 { read := { transfers := [[65]] } },
    .request (.writeCancel {}),
    .request .close,
    .returns status {} ]

theorem closingRun_permitted (status : Int) :
    PermittedRun networkSslOpen (closingRun status) := by
  refine ⟨rfl, ?_⟩
  rintro _ _ ⟨⟩
  refine ⟨rfl, ?_⟩
  rintro _ _ ⟨⟩
  refine ⟨⟨rfl, List.mem_singleton_self 7⟩, ?_⟩
  rintro _ _ ⟨⟩
  refine ⟨rfl, ?_⟩
  rintro _ _ ⟨⟩
  refine ⟨rfl, ?_⟩
  rintro _ _ ⟨⟩
  refine ⟨nofun, ?_⟩
  rintro _ _ _
  trivial

/-- The callback of a read closes the context and returns 0. -/
theorem network_ssl_used_after_close :
    ¬ ∀ actions : List (Action Unit), PermittedRun networkSslOpen actions →
      run networkSslOpen actions ≠ .error .useAfterClose := by
  intro unused
  exact unused (closingRun 0) (closingRun_permitted 0) rfl

theorem network_ssl_unused_after_close_iff_failing :
    run networkSslOpen (closingRun (-1)) ≠ .error .useAfterClose ↔
      NoneReturnsZeroClosed networkSslOpen (closingRun (-1)) :=
  network_ssl_unused_after_close_iff (closingRun (-1))
    (closingRun_permitted (-1))

end Libcperciva.NetworkSsl.SslClose
