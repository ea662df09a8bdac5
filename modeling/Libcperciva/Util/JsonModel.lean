import Mathlib.Data.List.Basic

/-!
# Finding values in JSON objects, `util/json.c`

A pointer into the buffer is the list of the bytes from there to `end`; thus
`end` is the empty list, and reading a byte there or moving a pointer beyond it
is a fault.  A string is the memory from its first byte to its NUL.
-/

namespace Libcperciva.Util.JsonModel

/-- How the functions go wrong. -/
inductive JsonFault where
  /-- A byte is read behind `end` or behind the NUL of a string, or a pointer
  is moved there. -/
  | outOfBounds
  /-- The loop does not end. -/
  | loop
deriving DecidableEq

/-- `buf += n`. -/
def advance (n : Nat) (buf : List UInt8) : Except JsonFault (List UInt8) :=
  if n ≤ buf.length then .ok (buf.drop n) else .error .outOfBounds

/-- `s[0]`. -/
def first : List UInt8 → Except JsonFault UInt8
  | [] => .error .outOfBounds
  | c :: _ => .ok c

/-! ## Skipping -/

/-- `skip_ws`. -/
def skipWs : List UInt8 → List UInt8
  | [] => []
  | c :: buf =>
      if c ≠ 0x09 ∧ c ≠ 0x0A ∧ c ≠ 0x0D ∧ c ≠ 0x20 then c :: buf
      else skipWs buf

/-- `skip_literal`. -/
def skipLiteral (buf : List UInt8) : List UInt8 :=
  if buf.length ≥ 5 ∧ buf.take 5 = [102, 97, 108, 115, 101] then buf.drop 5
  else if buf.length ≥ 4 ∧ buf.take 4 = [110, 117, 108, 108] then buf.drop 4
  else if buf.length ≥ 4 ∧ buf.take 4 = [116, 114, 117, 101] then buf.drop 4
  else []

/-- The loop of `skip_string`. -/
def skipChars : List UInt8 → List UInt8
  | [] => []
  | ch :: buf =>
      if ch = 34 then buf
      else if ch = 92 then
        match buf with
        | [] => []
        | ch :: buf =>
            if ch = 117 then
              match buf with
              | _ :: _ :: _ :: _ :: buf => skipChars buf
              | buf => buf
            else skipChars buf
      else skipChars buf

/-- `skip_string`. -/
def skipString (buf : List UInt8) : Except JsonFault (List UInt8) := do
  let buf ← advance 1 buf
  .ok (skipChars buf)

/-- `"+-0123456789.eE"`. -/
def numchars : List UInt8 :=
  [43, 45, 48, 49, 50, 51, 52, 53, 54, 55, 56, 57, 46, 101, 69]

/-- `skip_number`. -/
def skipNumber : List UInt8 → List UInt8
  | [] => []
  | c :: buf => if c = 0 ∨ c ∉ numchars then c :: buf else skipNumber buf

mutual

/-- `skip_array`. -/
def skipArray : (turns : Nat) → List UInt8 → Except JsonFault (List UInt8)
  | 0, _ => .error .loop
  | turns + 1, buf => do
      let buf ← advance 1 buf
      match skipWs buf with
      | [] => .ok []
      | c :: buf =>
          if c = 93 then .ok buf else skipElements turns (c :: buf)

/-- The loop of `skip_array`. -/
def skipElements : (turns : Nat) → List UInt8 → Except JsonFault (List UInt8)
  | 0, _ => .error .loop
  | turns + 1, buf => do
      let buf ← skipValue turns buf
      match skipWs buf with
      | [] => .ok []
      | c :: buf =>
          if c = 93 then .ok buf
          else if c ≠ 44 then .ok []
          else skipElements turns (skipWs buf)

/-- `skip_object`. -/
def skipObject : (turns : Nat) → List UInt8 → Except JsonFault (List UInt8)
  | 0, _ => .error .loop
  | turns + 1, buf => do
      let buf ← advance 1 buf
      match skipWs buf with
      | [] => .ok []
      | c :: buf =>
          if c = 125 then .ok buf else skipMembers turns (c :: buf)

/-- The loop of `skip_object`. -/
def skipMembers : (turns : Nat) → List UInt8 → Except JsonFault (List UInt8)
  | 0, _ => .error .loop
  | turns + 1, buf =>
      match buf with
      | [] => .ok []
      | c :: buf =>
          if c ≠ 34 then .ok []
          else do
            let buf ← skipString (c :: buf)
            match skipWs buf with
            | [] => .ok []
            | c :: buf =>
                if c ≠ 58 then .ok []
                else do
                  let buf ← skipValue turns (skipWs buf)
                  match skipWs buf with
                  | [] => .ok []
                  | c :: buf =>
                      if c = 125 then .ok buf
                      else if c ≠ 44 then .ok []
                      else skipMembers turns (skipWs buf)

/-- `skip_value`, with at most `turns` nested calls and turns of loops. -/
def skipValue : (turns : Nat) → List UInt8 → Except JsonFault (List UInt8)
  | 0, _ => .error .loop
  | turns + 1, buf =>
      match buf with
      | [] => .ok []
      | c :: rest =>
          if c = 102 ∨ c = 110 ∨ c = 116 then .ok (skipLiteral (c :: rest))
          else if c = 34 then skipString (c :: rest)
          else if c = 91 then skipArray turns (c :: rest)
          else if c = 123 then skipObject turns (c :: rest)
          else if c ≠ 0 ∧ c ∈ numchars then .ok (skipNumber (c :: rest))
          else .ok []

end

/-- Turns that are enough to skip a value. -/
def enoughTurns (buf : List UInt8) : Nat := 3 * buf.length + 3

/-! ## `match_str` -/

/-- The characters that are escaped with a backslash, except for `'u'`. -/
def escaped (c : UInt8) : Option UInt8 :=
  if c = 34 then some 34
  else if c = 92 then some 92
  else if c = 47 then some 47
  else if c = 98 then some 0x08
  else if c = 102 then some 0x0C
  else if c = 110 then some 0x0A
  else if c = 114 then some 0x0D
  else if c = 116 then some 0x09
  else none

/-- Advance in the target if we haven't hit the end. -/
def target (c : UInt8) (s : List UInt8) : List UInt8 :=
  if c ≠ 0 then s.drop 1 else s

/-- The loop of `match_str`, with `*foundit`. -/
def matchChars : (buf s : List UInt8) → (foundit : Bool) →
    Except JsonFault (List UInt8 × Bool)
  | [], _, foundit => .ok ([], foundit)
  | ch :: buf, s, foundit =>
      if ch = 34 then do
        let c ← first s
        .ok (buf, if c ≠ 0 then false else foundit)
      else if ch = 92 then
        match buf with
        | [] => .ok ([], foundit)
        | e :: buf =>
            match escaped e with
            | some ch => do
                let c ← first s
                matchChars buf (target c s) (if ch ≠ c then false else foundit)
            | none =>
                if e = 117 then
                  match buf with
                  | _ :: _ :: _ :: _ :: buf => do
                      let c ← first s
                      matchChars buf (target c s) false
                  | _ => .ok ([], foundit)
                else .ok ([], false)
      else do
        let c ← first s
        matchChars buf (target c s) (if ch ≠ c then false else foundit)

/-- `match_str`. -/
def matchStr (buf s : List UInt8) : Except JsonFault (List UInt8 × Bool) :=
  matchChars buf s true

/-! ## `json_find` -/

/-- `SCAN`; `none` makes the function return `end`. -/
def scan (buf : List UInt8) (ch : UInt8) : Option (List UInt8) :=
  match skipWs buf with
  | [] => none
  | c :: buf => if c ≠ ch then none else some buf

/-- The loop of `json_find`. -/
def findPair : (turns : Nat) → (buf s : List UInt8) →
    Except JsonFault (List UInt8)
  | 0, _, _ => .error .loop
  | turns + 1, buf, s =>
      match scan buf 34 with
      | none => .ok []
      | some buf => do
          let (buf, foundit) ← matchStr buf s
          match scan buf 58 with
          | none => .ok []
          | some buf =>
              let buf := skipWs buf
              if foundit then .ok buf
              else do
                let buf ← skipValue (enoughTurns buf) buf
                match scan buf 44 with
                | none => .ok []
                | some buf => findPair turns buf s

/-- `json_find`. -/
def jsonFind (buf s : List UInt8) : Except JsonFault (List UInt8) :=
  match scan buf 123 with
  | none => .ok []
  | some buf => findPair (buf.length + 1) buf s

end Libcperciva.Util.JsonModel
