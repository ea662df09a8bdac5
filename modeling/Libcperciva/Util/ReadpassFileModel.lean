import Mathlib.Data.List.Basic

/-!
# Passphrases from files, `util/readpass_file.c`

A file is what is still to be read of it.  The functions of the C library take
their documented effect on it and on the buffer; whether `fopen`, `fclose` and
`strdup` succeed is the choice of the system.
-/

namespace Libcperciva.Util.ReadpassFileModel

/-! ## Files -/

/-- A `FILE` that is read. -/
structure File where
  rest : List UInt8
  /-- Behind `rest` there is a read error, not the end of the file. -/
  broken : Bool
  /-- The error indicator. -/
  error : Bool
deriving DecidableEq

/-- At most `n` bytes, up to the first newline and with it. -/
def lineOf : (n : Nat) → List UInt8 → List UInt8
  | 0, _ => []
  | _ + 1, [] => []
  | n + 1, c :: s => if c = 10 then [10] else c :: lineOf n s

/-- Whether `fgets` asks for more bytes than there are. -/
def meetsEnd (size : Nat) (line : List UInt8) : Bool :=
  line.length + 1 < size && line.getLast? != some 10

/-- `fgets`: whether it does not return NULL, the buffer and the file. -/
def fgets (buf : List UInt8) (size : Nat) (f : File) :
    Bool × List UInt8 × File :=
  let line := lineOf (size - 1) f.rest
  let f := { f with rest := f.rest.drop line.length }
  if meetsEnd size line && f.broken then (false, buf, { f with error := true })
  else if line = [] then (false, buf, f)
  else (true, line ++ 0 :: buf.drop (line.length + 1), f)

/-- `fgetc`; `none` is `EOF`. -/
def fgetc (f : File) : Option UInt8 × File :=
  match f.rest with
  | c :: s => (some c, { f with rest := s })
  | [] => (none, { f with error := f.error || f.broken })

/-! ## Strings -/

/-- How the functions go wrong. -/
inductive ReadpassFault where
  /-- A string is read behind the end of its buffer. -/
  | outOfBounds
deriving DecidableEq

/-- `strcspn`. -/
def strcspn : (s reject : List UInt8) → Except ReadpassFault Nat
  | [], _ => .error .outOfBounds
  | c :: s, reject =>
      if c = 0 ∨ c ∈ reject then .ok 0
      else do
        let span ← strcspn s reject
        .ok (span + 1)

/-- The bytes that `strdup` copies, without the NUL. -/
def strdup : List UInt8 → Except ReadpassFault (List UInt8)
  | [] => .error .outOfBounds
  | c :: s =>
      if c = 0 then .ok []
      else do
        let copy ← strdup s
        .ok (c :: copy)

/-! ## `readpass_file` -/

/-- Maximum file length. -/
def MAXPASSLEN : Nat := 2048

/-- What the system answers. -/
structure System where
  /-- `none` if `fopen` fails. -/
  fopen : Option File
  fcloseFails : Bool
  strdupFails : Bool
deriving DecidableEq

/-- What is printed. -/
inductive Warning where
  | warnp (text : String)
  | warn0 (text : String)
deriving DecidableEq

/-- What `readpass_file` leaves behind. -/
structure Outcome where
  status : Int
  /-- `*passwd`; `none` is NULL. -/
  passwd : Option (List UInt8)
  passbuf : List UInt8
  warnings : List Warning
deriving DecidableEq

/-- `insecure_memzero(passbuf, MAXPASSLEN)`. -/
def memzero : List UInt8 := List.replicate MAXPASSLEN 0

/-- `err1`. -/
def err1 (passwd : Option (List UInt8)) (warnings : List Warning) : Outcome :=
  { status := -1, passwd, passbuf := memzero, warnings }

/-- `err2`. -/
def err2 (sys : System) (passwd : Option (List UInt8))
    (warnings : List Warning) : Outcome :=
  err1 passwd
    (if sys.fcloseFails then warnings ++ [.warnp "fclose"] else warnings)

/-- `readpass_file`, from the passphrase buffer as it is on the stack and
`*passwd`. -/
def readpassFile (sys : System) (passbuf : List UInt8)
    (passwd : Option (List UInt8)) (filename : String) :
    Except ReadpassFault Outcome :=
  match sys.fopen with
  | none => .ok (err1 passwd [.warnp ("fopen(" ++ filename ++ ")")])
  | some f =>
      let (line, passbuf, f) := fgets passbuf MAXPASSLEN f
      if !line && f.error then
        .ok (err2 sys passwd [.warnp ("fgets(" ++ filename ++ ")")])
      else
        let passbuf := if line then passbuf else passbuf.set 0 0
        match fgetc f with
        | (some _, _) =>
            .ok (err2 sys passwd
              [.warn0 ("line too long, or more than 1 line in " ++ filename)])
        | (none, f) =>
            if f.error then .ok (err2 sys passwd [.warnp "fgetc"])
            else if sys.fcloseFails then
              .ok (err1 passwd [.warnp ("fclose(" ++ filename ++ ")")])
            else do
              let span ← strcspn passbuf [13, 10]
              let passbuf := passbuf.set span 0
              let copy ← strdup passbuf
              if sys.strdupFails then
                .ok (err1 none [.warnp "Cannot allocate memory"])
              else
                .ok { status := 0, passwd := some copy, passbuf := memzero,
                      warnings := [] }

end Libcperciva.Util.ReadpassFileModel
