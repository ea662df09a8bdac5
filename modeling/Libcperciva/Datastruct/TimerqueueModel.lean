import Libcperciva.Datastruct.PtrheapModel
import Libcperciva.Util.Time
import Mathlib.Logic.Function.Basic

/-!
# The timer queue of `datastruct/timerqueue.c`

A timer queue is a pointer heap of records.  The records live in a memory
which maps addresses to the records allocated there; `malloc` answers with an
address or fails.  The heap compares records through the memory and stores the
record cookies in it.

A function that is given the address of a record which is not allocated has no
result.
-/

namespace Libcperciva.Datastruct.TimerqueueModel

open Libcperciva.Util.Time
open Libcperciva.Datastruct.PtrheapModel

variable {τ : Type*}

/-- `struct timerrec`. -/
structure Timerrec (τ : Type*) where
  tv : Timeval
  rc : Nat
  ptr : τ

/-- The records that are allocated. -/
abbrev Memory (τ : Type*) := Nat → Option (Timerrec τ)

/-- `struct timerqueue`, with its records. -/
structure Timerqueue (τ : Type*) where
  H : Ptrheap Nat
  recs : Memory τ

/-- Compare two timevals. -/
def tvcmp (x y : Timeval) : Int :=
  if x.tvSec > y.tvSec then 1
  else if x.tvSec < y.tvSec then -1
  else if x.tvUsec > y.tvUsec then 1
  else if x.tvUsec < y.tvUsec then -1
  else 0

/-- The time in a record. -/
def recTv (recs : Memory τ) (addr : Nat) : Timeval :=
  ((recs addr).map Timerrec.tv).getD ⟨0, 0⟩

/-- Record-comparison callback from ptrheap. -/
def compar (recs : Memory τ) (x y : Nat) : Int :=
  tvcmp (recTv recs x) (recTv recs y)

/-- Cookie-recording callback from ptrheap. -/
def setreccookie (recs : Memory τ) (call : CookieCall Nat) : Memory τ :=
  Function.update recs call.1
    ((recs call.1).map fun rec => { rec with rc := call.2 })

/-- The calls of `setreccookie` an operation of the heap has made. -/
def setreccookies (recs : Memory τ) (calls : List (CookieCall Nat)) :
    Memory τ :=
  calls.foldl setreccookie recs

/-- The outcomes of the allocations a call may make. -/
structure QueueAllocs where
  timerqueue : Bool := true
  ptrheap : Bool := true
  ptrlist : Bool := true
  /-- The address of the new record. -/
  timerrec : Option Nat := some 0
  append : Bool := true

/-- `timerqueue_init`. -/
def timerqueueInit (allocs : QueueAllocs) : Option (Timerqueue τ) :=
  if !allocs.timerqueue then none
  else
    match ptrheapInit (compar (τ := τ) fun _ => none) true
        allocs.ptrheap allocs.ptrlist with
    | none => none
    | some (H, _) => some ⟨H, fun _ => none⟩

/-- `timerqueue_add`, with the cookie for the new pair. -/
def timerqueueAdd (allocs : QueueAllocs) (Q : Timerqueue τ) (tv : Timeval)
    (ptr : τ) : Option Nat × Timerqueue τ :=
  match allocs.timerrec with
  | none => (none, Q)
  | some r =>
      let recs := Function.update Q.recs r (some ⟨tv, 0, ptr⟩)
      let (status, H, calls) :=
        ptrheapAdd (compar recs) allocs.append Q.H r
      if status ≠ 0 then (none, ⟨H, Function.update recs r none⟩)
      else (some r, ⟨H, setreccookies recs calls⟩)

/-- `timerqueue_delete`. -/
def timerqueueDelete (Q : Timerqueue τ) (cookie : Nat) :
    Option (Timerqueue τ) :=
  match Q.recs cookie with
  | none => none
  | some r =>
      let (H, calls) := ptrheapDelete (compar Q.recs) Q.H r.rc
      some ⟨H, Function.update (setreccookies Q.recs calls) cookie none⟩

/-- `timerqueue_increase`. -/
def timerqueueIncrease (Q : Timerqueue τ) (cookie : Nat) (tv : Timeval) :
    Option (Timerqueue τ) :=
  match Q.recs cookie with
  | none => none
  | some r =>
      let recs := Function.update Q.recs cookie (some { r with tv })
      let (H, calls) := ptrheapIncrease (compar recs) Q.H r.rc
      some ⟨H, setreccookies recs calls⟩

/-- `timerqueue_getmin`. -/
def timerqueueGetmin (Q : Timerqueue τ) : Option (Option Timeval) :=
  match ptrheapGetmin Q.H with
  | none => some none
  | some r => (Q.recs r).map fun rec => some rec.tv

/-- `timerqueue_getptr`. -/
def timerqueueGetptr (Q : Timerqueue τ) (tv : Timeval) :
    Option (Option τ × Timerqueue τ) :=
  match ptrheapGetmin Q.H with
  | none => some (none, Q)
  | some r =>
      match Q.recs r with
      | none => none
      | some rec =>
          if tvcmp rec.tv tv > 0 then some (none, Q)
          else
            let (H, calls) := ptrheapDeletemin (compar Q.recs) Q.H
            some (some rec.ptr,
              ⟨H, Function.update (setreccookies Q.recs calls) r none⟩)

end Libcperciva.Datastruct.TimerqueueModel
