import Libcperciva.Netbuf.ReadModel
import Libcperciva.Util.Cstring

/-!
# The HTTP client, `http/http.c`

From the time when the request was sent, the client reads the response.  The
functions which do so call each other as the last thing they do, or wait for
more data to arrive; so a call of one of them ends by saying which call is
next.  A request is finished when the callback has been invoked, or when the
client has died.

Positions in a buffer are natural numbers; lengths which the server chooses
are of type `size_t`.  A pointer to no elements is an empty list.
-/

namespace Libcperciva.Http.HttpModel

open Libcperciva.Lib.Buffer
open Libcperciva.Lib.Lines
open Libcperciva.Network.ReadModel
open Libcperciva.Netbuf.ReadModel
open Libcperciva.Util.Cstring
open Libcperciva.Util.SizeT

/-! ## Data -/

/-- The most bytes of headers that are accepted before their end is found. -/
def MAXHDR : Nat := 65536

/-- The most bytes of a chunk header. -/
def MAXCHLEN : Nat := 256

/-- `SIZE_MAX`. -/
def SIZE_MAX : Nat := 2 ^ 64 - 1

/-- `"\r\n"`. -/
def crlf : List UInt8 := [13, 10]

/-- `struct http_header`. -/
structure HttpHeader where
  header : List UInt8
  value : List UInt8
deriving DecidableEq

/-- `struct http_response`. -/
structure HttpResponse where
  status : Int := 0
  nheaders : Nat := 0
  headers : List HttpHeader := []
  bodylen : Nat := 0
  body : List UInt8 := []
deriving DecidableEq

/-- The functions that are passed to `netbuf_read_wait`. -/
inductive HttpCallback where
  | readHeader
  | readdata
  | chunkedheader
  | readToeof
deriving DecidableEq

/-- `struct http_cookie`, as far as it is about the response. -/
structure HttpCookie where
  R : NetbufRead HttpCallback
  reqIshead : Bool
  hepos : Nat := 0
  resHead : List UInt8 := []
  chunked : Bool
  readlen : Nat
  resBodylenMax : Nat
  resBodylenAlloc : Nat := 0
  res : HttpResponse := {}

/-- The assertions which the functions run into. -/
inductive HttpAssert where
  /-- `H->res.bodylen + buflen <= H->res_bodylen_max` -/
  | addbody
  /-- `H->res.nheaders >= 2` -/
  | nheaders
  /-- `*linelen < buflen - *bufpos` -/
  | sgetline
  /-- `bufpos + 2 == H->res_headlen` -/
  | headlen
  /-- `(headers != NULL) || (nheaders == 0)` -/
  | findheader
  /-- An assertion of `netbuf_read.c`. -/
  | netbuf (assertion : NetbufAssert)
  /-- Not an assertion: a callback is invoked through NULL. -/
  | nullCallback
deriving DecidableEq

/-- A call of one of the functions that call each other. -/
inductive Call where
  | callback (function : HttpCallback) (status : Int)
  | gotheaders (buflen : Nat)
deriving DecidableEq

/-- How a call ends. -/
inductive Next where
  | calls (call : Call) (H : HttpCookie)
  /-- A wait is pending. -/
  | waits (H : HttpCookie)
  /-- The request is dropped, and its callback is not invoked. -/
  | dies
  /-- The callback is invoked, and the cookie is freed. -/
  | responds (response : Option HttpResponse)

/-- The outcomes of what a call calls, and what it finds in places of which
nothing is known. -/
structure CallEnv where
  resHead : Bool := true
  headers : Bool := true
  realloc : Bool := true
  wait : WaitAllocs := {}
  /-- The memory behind the buffer of the reader. -/
  behind : List UInt8 := []
  /-- What `%d` makes of a number that is not an `int`. -/
  overflow : Int → Int := id

/-! ## Helpers -/

/-- `die`. -/
def die : Except HttpAssert Next := .ok .dies

/-- `fail`. -/
def fail : Except HttpAssert Next := .ok (.responds none)

/-- `docallback`; the user sees `bodylen` bytes of the body. -/
def docallback (H : HttpCookie) : Except HttpAssert Next :=
  let body := H.res.body.take H.res.bodylen
  .ok (.responds (some { H.res with body }))

/-- `toobig`. -/
def toobig (H : HttpCookie) : Except HttpAssert Next :=
  docallback { H with res := { H.res with bodylen := SIZE_MAX, body := [] } }

/-- `findeol`. -/
def findeol (buf : List UInt8) : Nat := indexOf crlf buf

/-- `sgetline`: the line, and the position behind it. -/
def sgetline (buf : List UInt8) (bufpos : Nat) :
    Except HttpAssert (List UInt8 × Nat) :=
  let s := buf.drop bufpos
  let linelen := findeol s
  if ¬ linelen < buf.length - bufpos then .error .sgetline
  else .ok (s.take linelen, bufpos + (linelen + 2))

/-- Reallocate the body if necessary; `none` if that fails. -/
def growBody (realloc : Bool) (H : HttpCookie) (size : Nat) :
    Option HttpCookie :=
  if size > H.resBodylenAlloc then
    let nalloc := sizeMul H.resBodylenAlloc 2
    let nalloc := if nalloc < size then size else nalloc
    let nalloc :=
      if nalloc > H.resBodylenMax then H.resBodylenMax else nalloc
    if !realloc then none else some { H with resBodylenAlloc := nalloc }
  else some H

/-- `addbody`; `none` if it fails. -/
def addbody (realloc : Bool) (H : HttpCookie) (buf : List UInt8) :
    Except HttpAssert (Option HttpCookie) :=
  let bodylen := sizeAdd H.res.bodylen buf.length
  if ¬ bodylen ≤ H.resBodylenMax then .error .addbody
  else .ok <| (growBody realloc H bodylen).map fun H =>
    let body := H.res.body.take H.res.bodylen ++ buf
    { H with res := { H.res with body, bodylen } }

/-- `http_findheader`. -/
def httpFindheader (headers : List HttpHeader) (nheaders : Nat)
    (header : List UInt8) : Except HttpAssert (Option (List UInt8)) :=
  if ¬ (headers ≠ [] ∨ nheaders = 0) then .error .findheader
  else .ok <|
    ((headers.take nheaders).find? (·.header = header)).map (·.value)

/-- `netbuf_read_consume`. -/
def consume (H : HttpCookie) (len : Nat) : Except HttpAssert HttpCookie :=
  match netbufReadConsume H.R len with
  | .error assertion => .error (.netbuf assertion)
  | .ok R => .ok { H with R }

/-- Wait for data to arrive, or die. -/
def waitFor (allocs : WaitAllocs) (H : HttpCookie) (len : Nat)
    (callback : HttpCallback) : Except HttpAssert Next :=
  match netbufReadWait allocs H.R len callback with
  | .error assertion => .error (.netbuf assertion)
  | .ok (status, R) => if status ≠ 0 then die else .ok (.waits { H with R })

/-! ## Headers -/

/-- Scan forwards looking for `"\r\n\r\n"`, at most `steps` bytes. -/
def scanHeaders (buf : List UInt8) : (steps hepos : Nat) → Nat
  | 0, hepos => hepos
  | steps + 1, hepos =>
      if hepos + 4 ≤ buf.length ∧ slice buf hepos 4 ≠ crlf ++ crlf then
        scanHeaders buf steps (hepos + 1)
      else hepos

/-- `callback_read_header`. -/
def callbackReadHeader (env : CallEnv) (status : Int) (H : HttpCookie) :
    Except HttpAssert Next :=
  if status ≠ 0 then fail
  else
    let buf := netbufReadPeek H.R
    let hepos := scanHeaders buf buf.length H.hepos
    let H := { H with hepos }
    if hepos + 4 ≤ buf.length then
      .ok (.calls (.gotheaders (hepos + 4)) H)
    else if buf.length > MAXHDR then fail
    else waitFor env.wait H (buf.length + 1) .readHeader

/-- Count header lines, at most `steps` of them. -/
def countLines : (steps : Nat) → (rest : List UInt8) → Nat
  | 0, _ => 0
  | _ + 1, [] => 0
  | steps + 1, c :: rest =>
      countLines steps ((c :: rest).drop (findeol (c :: rest) + 2)) + 1

/-- `"HTTP/"`. -/
def httpSlash : List UInt8 := [72, 84, 84, 80, 47]

/-- `sscanf(s, "HTTP/%d.%d %d ", ..)`: the three numbers, if they are there. -/
def scanStatus (overflow : Int → Int) (s : List UInt8) :
    Option (Int × Int × Int) := do
  let s ← scanLiteral httpSlash s
  let (major, s) ← scanInt overflow s
  let s ← scanLiteral [46] s
  let (minor, s) ← scanInt overflow s
  let (status, _) ← scanInt overflow (s.dropWhile isspace)
  some (major, minor, status)

/-- Blanks and tabs. -/
def blanks : List UInt8 := [32, 9]

/-- Remove trailing optional whitespace. -/
def stripTrailing (s : List UInt8) : List UInt8 :=
  (s.reverse.dropWhile (· ∈ blanks)).reverse

/-- Split a line into header and value, and strip the value. -/
def splitHeader (s : List UInt8) : HttpHeader :=
  let s := stripTrailing s
  let cpos := strcspn s 58
  let value := s.drop (cpos + 1)
  ⟨s.take cpos, value.drop (strspn value blanks)⟩

/-- Parse headers; `none` if a line contains NUL. -/
def parseHeaders (resHead : List UInt8) :
    (nheaders bufpos : Nat) →
      Except HttpAssert (Option (List HttpHeader × Nat))
  | 0, bufpos => .ok (some ([], bufpos))
  | nheaders + 1, bufpos => do
      let (s, bufpos) ← sgetline resHead bufpos
      if strlen s < s.length then .ok none
      else
        let parsed ← parseHeaders resHead nheaders bufpos
        .ok (parsed.map fun (headers, bufpos) =>
          (splitHeader s :: headers, bufpos))

/-- `"Transfer-Encoding"`. -/
def transferEncoding : List UInt8 :=
  [84, 114, 97, 110, 115, 102, 101, 114, 45,
    69, 110, 99, 111, 100, 105, 110, 103]

/-- `"Content-Length"`. -/
def contentLength : List UInt8 :=
  [67, 111, 110, 116, 101, 110, 116, 45, 76, 101, 110, 103, 116, 104]

/-- `"chunked"`. -/
def chunkedString : List UInt8 := [99, 104, 117, 110, 107, 101, 100]

/-- `get_body_gotclen`. -/
def getBodyGotclen (H : HttpCookie) (len : Nat) : Except HttpAssert Next :=
  if len > H.resBodylenMax then toobig H
  else .ok (.calls (.callback .readdata 0)
    { H with readlen := len, chunked := false })

/-- The end of `gotheaders`: what to do with the headers of a response. -/
def handleHeaders (H : HttpCookie) : Except HttpAssert Next :=
  if H.res.status ≥ 100 ∧ H.res.status ≤ 199 then
    .ok (.calls (.callback .readHeader 0)
      { H with resHead := [], res := { H.res with headers := [] } })
  else if H.reqIshead ∨ H.res.status = 204 ∨ H.res.status = 304 then
    docallback { H with res := { H.res with bodylen := 0, body := [] } }
  else do
    let te ← httpFindheader H.res.headers H.res.nheaders transferEncoding
    if te.any (strstr · chunkedString) then
      .ok (.calls (.callback .chunkedheader 0) { H with chunked := true })
    else
      let clen ← httpFindheader H.res.headers H.res.nheaders contentLength
      match clen with
      | some clen =>
          match parsenumUnsigned clen 0 SIZE_MAX SIZE_MAX 10 false with
          | none => fail
          | some len => getBodyGotclen H len
      | none => .ok (.calls (.callback .readToeof 0) H)

/-- The parsing pass of `gotheaders`; `none` if the response is rejected. -/
def parseHead (overflow : Int → Int) (resHead : List UInt8)
    (nheaders : Nat) :
    Except HttpAssert (Option (Int × List HttpHeader)) := do
  let (s, bufpos) ← sgetline resHead 0
  if strlen s < s.length then .ok none
  else
    match scanStatus overflow s with
    | none => .ok none
    | some (major, _, status) =>
        if major ≠ 1 then .ok none
        else if status < 100 ∨ status > 599 then .ok none
        else
          match ← parseHeaders resHead nheaders bufpos with
          | none => .ok none
          | some (headers, bufpos) =>
              if ¬ bufpos + 2 = resHead.length then .error .headlen
              else .ok (some (status, headers))

/-- `gotheaders`. -/
def gotheaders (env : CallEnv) (buflen : Nat) (H : HttpCookie) :
    Except HttpAssert Next :=
  if !env.resHead then die
  else do
    let resHead := (netbufReadPeek H.R).take buflen
    let H ← consume H buflen
    let H := { H with resHead, hepos := 0 }
    let nlines := countLines resHead.length resHead
    if ¬ nlines ≥ 2 then .error .nheaders
    else if !env.headers then die
    else
      let nheaders := nlines - 2
      match ← parseHead env.overflow resHead nheaders with
      | none => fail
      | some (status, headers) =>
          let res := { H.res with status, nheaders, headers }
          handleHeaders { H with res }

/-! ## Bodies -/

/-- `callback_readdata`. -/
def callbackReaddata (env : CallEnv) (status : Int) (H : HttpCookie) :
    Except HttpAssert Next :=
  if status ≠ 0 then fail
  else do
    let buf := (netbufReadPeek H.R).take H.readlen
    match ← addbody env.realloc H buf with
    | none => die
    | some H =>
        let H ← consume H buf.length
        let H := { H with readlen := sizeSub H.readlen buf.length }
        if H.readlen = 0 then
          if H.chunked then
            let bodylen := sizeSub H.res.bodylen 2
            .ok (.calls (.callback .chunkedheader 0)
              { H with res := { H.res with bodylen } })
          else docallback H
        else
          let waitlen :=
            if H.readlen > 1024 * 1024 then 1024 * 1024 else H.readlen
          waitFor env.wait H waitlen .readdata

/-- `callback_chunkedheader`. -/
def callbackChunkedheader (env : CallEnv) (status : Int) (H : HttpCookie) :
    Except HttpAssert Next :=
  if status ≠ 0 then fail
  else
    let buf := netbufReadPeek H.R
    let eolpos := findeol buf
    if eolpos ≠ buf.length then
      -- The number is not looked for in the line only.
      let s := H.R.buf.drop H.R.bufpos ++ env.behind
      match parsenumUnsigned s 0 SIZE_MAX SIZE_MAX 16 true with
      | none => fail
      | some clen => do
          let H ← consume H (eolpos + 2)
          if clen = 0 then docallback H
          else if clen > sizeSub H.resBodylenMax H.res.bodylen then toobig H
          else if clen > SIZE_MAX - 2 then toobig H
          else
            .ok (.calls (.callback .readdata 0)
              { H with readlen := sizeAdd clen 2 })
    else if buf.length ≥ MAXCHLEN then fail
    else waitFor env.wait H (buf.length + 1) .chunkedheader

/-- `callback_read_toeof`. -/
def callbackReadToeof (env : CallEnv) (status : Int) (H : HttpCookie) :
    Except HttpAssert Next :=
  if status = -1 then fail
  else if status = 1 then docallback H
  else
    let buf := netbufReadPeek H.R
    if buf.length > sizeSub H.resBodylenMax H.res.bodylen then toobig H
    else do
      match ← addbody env.realloc H buf with
      | none => die
      | some H =>
          let H ← consume H buf.length
          waitFor env.wait H 1 .readToeof

/-! ## Steps -/

/-- A function that was passed to `netbuf_read_wait`. -/
def HttpCallback.invoke (env : CallEnv) (status : Int) (H : HttpCookie) :
    HttpCallback → Except HttpAssert Next
  | .readHeader => callbackReadHeader env status H
  | .readdata => callbackReaddata env status H
  | .chunkedheader => callbackChunkedheader env status H
  | .readToeof => callbackReadToeof env status H

/-- A call of one of the functions. -/
def perform (env : CallEnv) (H : HttpCookie) : Call → Except HttpAssert Next
  | .callback function status => function.invoke env status H
  | .gotheaders buflen => gotheaders env buflen H

/-- A request, from the time when it was sent. -/
inductive RequestState where
  | calling (call : Call) (H : HttpCookie)
  | waiting (H : HttpCookie)
  | died
  | responded (response : Option HttpResponse)

/-- What happens next. -/
inductive Action where
  /-- The call is performed. -/
  | call (env : CallEnv)
  /-- The immediate event of the reader is invoked. -/
  | immediate
  /-- The network event of the reader is invoked. -/
  | readable (recv : Recv) (registered : Bool)

/-- The request after a call. -/
def Next.state : Next → RequestState
  | .calls call H => .calling call H
  | .waits H => .waiting H
  | .dies => .died
  | .responds response => .responded response

/-- The reader after an event, which may invoke the callback of the wait. -/
def resume (H : HttpCookie) (R : NetbufRead HttpCallback) :
    Option (Option HttpCallback × Int) → Except HttpAssert RequestState
  | some (some function, status) =>
      .ok (.calling (.callback function status) { H with R })
  | some (none, _) => .error .nullCallback
  | none => .ok (.waiting { H with R })

/-- One step of a request; what cannot happen does nothing. -/
def step : RequestState → Action → Except HttpAssert RequestState
  | .calling call H, .call env => do .ok (← perform env H call).state
  | .waiting H, .immediate =>
      match callbackSuccess H.R with
      | .error assertion => .error (.netbuf assertion)
      | .ok (R, called) => resume H R (some called)
  | .waiting H, .readable recv registered =>
      match H.R.readCookie with
      | none => .error (.netbuf .reading)
      | some C =>
          match callbackReadable registered recv H.R C with
          | .error assertion => .error (.netbuf assertion)
          | .ok (R, called) => resume H R called
  | state, _ => .ok state

/-- The request has been sent, and the reading begins. -/
def start (memory : Nat → UInt8) (reqIshead chunked : Bool)
    (readlen maxrlen : Nat) : RequestState :=
  .calling (.callback .readHeader 0)
    { R := netbufReadInit memory
      reqIshead, chunked, readlen
      resBodylenMax := maxrlen }

/-- The steps that can happen. -/
def Permitted : RequestState → Action → Prop
  | .calling _ _, .call _ => True
  | .waiting H, .immediate => H.R.immediateCookie = true
  | .waiting H, .readable recv _ =>
      ∃ C, H.R.readCookie = some C ∧ recv.Fits C
  | _, _ => False

/-- Perform actions until an assertion fails. -/
def run (state : RequestState) :
    List Action → Except HttpAssert RequestState
  | [] => .ok state
  | action :: actions => do run (← step state action) actions

end Libcperciva.Http.HttpModel
