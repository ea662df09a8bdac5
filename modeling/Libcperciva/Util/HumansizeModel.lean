import Libcperciva.Util.SockModel

/-!
# Sizes for humans, `util/humansize.c`

A string is the memory from its first byte; it ends at the first NUL.  Reading
behind the memory is a fault.  A `uint64_t` is a natural number below `2 ^ 64`,
and its arithmetic wraps.
-/

namespace Libcperciva.Util.HumansizeModel

open Libcperciva.Util.SockModel

/-- `UINT64_MAX`. -/
def UINT64_MAX : Nat := 2 ^ 64 - 1

/-! ## `humansize` -/

/-- `" kMGTPE"`, with the NUL that ends it. -/
def prefixes : List UInt8 := [32, 107, 77, 71, 84, 80, 69, 0]

/-- Keep `10 * size / 1000^(3n)` in `size`; the count of shifts is `n`. -/
def shift (size shiftcnt : Nat) : Nat × Nat :=
  if size ≥ 10000 then shift (size / 1000) (shiftcnt + 1)
  else (size, shiftcnt)
termination_by size
decreasing_by omega

/-- How the functions go wrong. -/
inductive HumansizeFault where
  /-- A string is read behind its end. -/
  | outOfBounds
deriving DecidableEq

/-- The string that `asprintf` makes of a size that is at least 1000. -/
def scaled (size : Nat) : Except HumansizeFault (List UInt8) :=
  let (size, shiftcnt) := shift (size / 100) 1
  match prefixes[shiftcnt]? with
  | none => .error .outOfBounds
  | some prefix_ =>
      if size < 100 then
        .ok (decimal (size / 10) ++ [46] ++ decimal (size % 10) ++
          [32, prefix_, 66])
      else .ok (decimal (size / 10) ++ [32, prefix_, 66])

/-- `humansize`; `none` is NULL. -/
def humansize (asprintf : Bool) (size : Nat) :
    Except HumansizeFault (Option (List UInt8)) := do
  let s ←
    if size < 1000 then .ok (decimal size ++ [32, 66])
    else scaled size
  .ok (if asprintf then some s else none)

/-! ## `humansize_parse` -/

/-- The variables of `humansize_parse`. -/
structure Parse where
  state : Int
  size : Nat
  multiplier : Nat
deriving DecidableEq

/-- Is this a decimal digit? -/
def IsDigit (c : UInt8) : Prop := 48 ≤ c ∧ c ≤ 57

instance : DecidablePred IsDigit := fun _ => inferInstanceAs (Decidable (_ ∧ _))

/-- We have trailing garbage. -/
def case5 (p : Parse) : Parse := { p with state := -1 }

/-- We move into state 5 after an optional `'B'`. -/
def case4 (c : UInt8) (p : Parse) : Parse :=
  let p := { p with state := 5 }
  if c = 66 then p else case5 p

/-- The cases of the SI prefixes fall through from `'E'` to `'k'`. -/
def scale (c : UInt8) (multiplier : Nat) : Nat :=
  let times (n : Nat) := multiplier * 1000 ^ n % 2 ^ 64
  if c = 69 then times 6
  else if c = 80 then times 5
  else if c = 84 then times 4
  else if c = 71 then times 3
  else if c = 77 then times 2
  else if c = 107 then times 1
  else multiplier

/-- We may have one SI prefix. -/
def case3 (c : UInt8) (p : Parse) : Parse :=
  let p := { p with multiplier := scale c p.multiplier, state := 4 }
  if p.multiplier ≠ 1 then p else case4 c p

/-- We move into state 3 after an optional `' '`. -/
def case2 (c : UInt8) (p : Parse) : Parse :=
  let p := { p with state := 3 }
  if c = 32 then p else case3 c p

/-- Digit-parsing state. -/
def case1 (c : UInt8) (p : Parse) : Parse :=
  let p := { p with state := 1 }
  if IsDigit c then
    let digit := c.toNat - 48
    let p :=
      if p.size > UINT64_MAX / 10 then { p with state := -1 }
      else { p with size := p.size * 10 % 2 ^ 64 }
    if p.size > UINT64_MAX - digit then { p with state := -1 }
    else { p with size := (p.size + digit) % 2 ^ 64 }
  else case2 c p

/-- Initial state: we must start with at least one digit. -/
def case0 (c : UInt8) (p : Parse) : Parse :=
  let p := { p with size := 0 }
  if ¬ IsDigit c then { p with state := -1 } else case1 c p

/-- One turn of the loop, at a character. -/
def turn (c : UInt8) (p : Parse) : Parse :=
  if p.state = 0 then case0 c p
  else if p.state = 1 then case1 c p
  else if p.state = 2 then case2 c p
  else if p.state = 3 then case3 c p
  else if p.state = 4 then case4 c p
  else if p.state = 5 then case5 p
  else p

/-- The loop, from a character of the string on. -/
def parseLoop : List UInt8 → Parse → Except HumansizeFault Parse
  | [], _ => .error .outOfBounds
  | c :: s, p =>
      let p := turn c p
      if p.state = -1 then .ok p
      else
        match s with
        | [] => .error .outOfBounds
        | next :: _ => if next ≠ 0 then parseLoop s p else .ok p

/-- `humansize_parse`, with its return status and what is in `*size` after
it. -/
def humansizeParse (s : List UInt8) (size : Nat) :
    Except HumansizeFault (Int × Nat) := do
  let p ← parseLoop s ⟨0, size, 1⟩
  let p :=
    if p.size > UINT64_MAX / p.multiplier then { p with state := -1 }
    else { p with size := p.size * p.multiplier % 2 ^ 64 }
  .ok (if p.state = -1 then -1 else 0, p.size)

end Libcperciva.Util.HumansizeModel
