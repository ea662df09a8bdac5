import Libcperciva.Lib.NumberedTokens

/-!
# The event records of `events/events.c`

The callback and its cookie are one value of a type `κ`.  A record keeps its
identity as it moves from the place where the event is registered to the event
loop; here the records are numbered in the order in which they are made.
-/

namespace Libcperciva.Events.EventrecModel

open Libcperciva.Lib.NumberedTokens

variable {κ : Type*}

/-- `struct eventrec`, with its number. -/
structure Eventrec (κ : Type*) where
  id : Nat
  callback : κ
deriving DecidableEq

/-- `events_mkrec`, for the next number. -/
def eventsMkrec (nextId : Nat) (callback : κ) : Eventrec κ :=
  ⟨nextId, callback⟩

/-- Each record is at one place, or gone for good. -/
abbrev Recorded {π : Type*} (held : π → Option (Eventrec κ)) (nextId : Nat)
    (gone : List Nat) : Prop :=
  Registry Eventrec.id held nextId gone

end Libcperciva.Events.EventrecModel
