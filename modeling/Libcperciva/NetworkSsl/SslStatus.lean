import Libcperciva.NetworkSsl.SslClose

/-!
# The status of a callback in the TLS transport

`doread` and `dowrite` return what the callback of the user returned, and
`poke` makes `-1` of every status that is not 0.  So a run returns the
statuses of its callbacks to the event loop exactly if no callback of it
returns anything but 0 and `-1`.
-/

namespace Libcperciva.NetworkSsl.SslStatus

open Libcperciva.NetworkSsl.SslModel
open Libcperciva.NetworkSsl.SslClose

variable {κ : Type*} {sys : System κ} {action : Action κ}
  {actions : List (Action κ)}

/-! ## The statuses of a run -/

/-- If a callback of the user fails in this step, the event callback through
which it was run returns its status to the event loop. -/
def ReturnsStatus (sys : System κ) : Action κ → Prop
  | .returns status io => status ≠ 0 →
      ∃ next, (Action.returns status io).progress sys =
        .ok (.returned status, next)
  | _ => True

/-- This is so in each step of a run. -/
def StatusesReturned (sys : System κ) : List (Action κ) → Prop
  | [] => True
  | action :: actions =>
      ReturnsStatus sys action ∧ ∀ reply next,
        action.progress sys = .ok (reply, next) →
          StatusesReturned next actions

/-- A callback that fails in this step returns `-1`. -/
def FailsWithMinusOne : Action κ → Prop
  | .returns status _ => status ≠ 0 → status = -1
  | _ => True

/-- This is so in each step of a run. -/
def AllFailWithMinusOne (sys : System κ) : List (Action κ) → Prop
  | [] => True
  | action :: actions =>
      FailsWithMinusOne action ∧ ∀ reply next,
        action.progress sys = .ok (reply, next) →
          AllFailWithMinusOne next actions

/-! ## Steps and runs -/

/-- A callback that fails ends the event with `-1`. -/
theorem returns_progress {status : Int} {io : PokeIo} (nonzero : status ≠ 0)
    (permitted : Permitted sys (.returns status io)) :
    (Action.returns status io).progress sys =
      .ok (.returned (-1), { sys with frame := .eventLoop }) := by
  rw [progress_returns, resume_nonzero io nonzero permitted]
  rfl

theorem returnsStatus_iff (permitted : Permitted sys action) :
    ReturnsStatus sys action ↔ FailsWithMinusOne action := by
  cases action with
  | returns status io =>
      apply forall_congr'
      intro nonzero
      rw [returns_progress nonzero permitted]
      constructor
      · rintro ⟨_, ⟨⟩⟩
        rfl
      · rintro rfl
        exact ⟨_, rfl⟩
  | request call => exact Iff.rfl
  | readable io => exact Iff.rfl
  | writable io => exact Iff.rfl
  | immediate cookie io => exact Iff.rfl

theorem statusesReturned_iff (permitted : PermittedRun sys actions) :
    StatusesReturned sys actions ↔ AllFailWithMinusOne sys actions := by
  induction actions generalizing sys with
  | nil => exact Iff.rfl
  | cons action actions ih =>
      rcases permitted with ⟨first, rest⟩
      apply and_congr (returnsStatus_iff first)
      constructor
      · intro returned reply next result
        exact (ih (rest reply next result)).mp (returned reply next result)
      · intro fails reply next result
        exact (ih (rest reply next result)).mpr (fails reply next result)

/-- In a run from `network_ssl_open`, the event callbacks return the statuses
of the callbacks of the user, if and only if those which fail return `-1`. -/
theorem network_ssl_status_iff (actions : List (Action κ))
    (permitted : PermittedRun networkSslOpen actions) :
    StatusesReturned networkSslOpen actions ↔
      AllFailWithMinusOne networkSslOpen actions :=
  statusesReturned_iff permitted

/-- A read is started, and its callback returns a status. -/
def oneRead (status : Int) : List (Action Unit) :=
  [ .request (.read ⟨(), [0], 1, 1, some 7⟩),
    .immediate 7 { read := { transfers := [[65]] } },
    .returns status {} ]

theorem oneRead_permitted (status : Int) :
    PermittedRun networkSslOpen (oneRead status) := by
  refine ⟨rfl, ?_⟩
  rintro _ _ ⟨⟩
  refine ⟨⟨rfl, List.mem_singleton_self 7⟩, ?_⟩
  rintro _ _ ⟨⟩
  refine ⟨nofun, ?_⟩
  rintro _ _ _
  trivial

theorem network_ssl_status_iff_oneRead :
    StatusesReturned networkSslOpen (oneRead (-1)) ↔
      AllFailWithMinusOne networkSslOpen (oneRead (-1)) :=
  network_ssl_status_iff (oneRead (-1)) (oneRead_permitted (-1))

/-- The callback of a read returns 7. -/
theorem network_ssl_status_lost :
    ¬ ∀ actions : List (Action Unit), PermittedRun networkSslOpen actions →
      StatusesReturned networkSslOpen actions := by
  intro returned
  rcases returned (oneRead 7) (oneRead_permitted 7) with ⟨_, afterRead⟩
  rcases afterRead _ _ rfl with ⟨_, afterImmediate⟩
  rcases afterImmediate _ _ rfl with ⟨afterReturn, _⟩
  rcases afterReturn (by decide) with ⟨_, ⟨⟩⟩

end Libcperciva.NetworkSsl.SslStatus
