import MonitorAgent.Core.Reader
import MonitorAgent.Core.StdMap
import MonitorAgent.Core.Text

/-!
# HTTP responses

`happyhttp::Response` (Monitor/Monitor/happyhttp/happyhttp.cpp): what is received
is pumped into it piece by piece, and it hands the body to a callback. The callback
here is `OnData` (Monitor/Monitor/Com.cpp:167-171), which appends `n` bytes; for a
negative `n` it is given a source that ends before it starts, and that is where
the model halts. The other two callbacks are not set.

* `pump`: the two nested loops, over one piece.
-/
namespace MonitorAgent.L1.Http

open Text

def CONTINUE : Int := 100
def NO_CONTENT : Int := 204
def NOT_MODIFIED : Int := 304

/-- mirrors Monitor/Monitor/happyhttp/happyhttp.h:280-288 -/
inductive ResponseState
  | statusLine
  | headers
  | body
  | chunkLen
  | chunkEnd
  | trailers
  | complete
deriving DecidableEq

/-- The exceptions, by what differs in their texts; `message` is the system's.
mirrors Monitor/Monitor/happyhttp/happyhttp.cpp:70-79,207-215,260,358,380,394,559,744,757 -/
inductive Wobbly
  | socketError (context message : List UInt8)
  | invalidAddress
  | alreadyIssued
  | putheader
  | cannotSend
  | badStatusLine (line : List UInt8)
  | unknownProtocol (version : List UInt8)
  | closedUnexpectedly
deriving DecidableEq

/-- What keeps a call from returning: an exception, a body that ends before it starts, a text that
does not fit its buffer, or that nothing comes any more. -/
inductive Halt
  | wobbly (w : Wobbly)
  | backwards (n : Int)
  | invalidParameter
  | waiting
deriving DecidableEq

/-- mirrors Monitor/Monitor/happyhttp/happyhttp.h:280-309 -/
structure Response where
  state : ResponseState
  method : List UInt8
  versionString : List UInt8
  version : Nat
  status : Int
  reason : List UInt8
  headers : StdMap (List UInt8) (List UInt8)
  bytesRead : Int
  chunked : Bool
  chunkLeft : Int
  length : Int
  willClose : Bool
  lineBuf : List UInt8
  headerAccum : List UInt8

namespace Response

/-- mirrors Monitor/Monitor/happyhttp/happyhttp.cpp:499-511 -/
def new (method : List UInt8) : Response where
  state := .statusLine
  method := method
  versionString := []
  version := 0
  status := 0
  reason := []
  headers := .empty
  bytesRead := 0
  chunked := false
  chunkLeft := 0
  length := -1
  willClose := false
  lineBuf := []
  headerAccum := []

variable (r : Response)

/-- mirrors Monitor/Monitor/happyhttp/happyhttp.h:252-253 -/
def completed : Bool := r.state = .complete

/-- mirrors Monitor/Monitor/happyhttp/happyhttp.cpp:514-524 -/
def getheader (name : List UInt8) : Option (List UInt8) := r.headers.find? (name.map toLower)

/-- mirrors Monitor/Monitor/happyhttp/happyhttp.cpp:707-714 -/
def finish : Response := { r with state := .complete }

/-- mirrors Monitor/Monitor/happyhttp/happyhttp.cpp:545-561 -/
def notifyconnectionclosed : Except Wobbly Response :=
  if r.state = .complete then .ok r
  else if r.state = .body ∧ r.chunked = false ∧ r.length = -1 then .ok r.finish
  else .error .closedUnexpectedly

/-! ## Lines -/

/-- mirrors Monitor/Monitor/happyhttp/happyhttp.cpp:717-764 -/
def processStatusLine (line : List UInt8) : Except Wobbly Response :=
  let p := (cstr line).dropWhile (· = 32)
  let versionString := r.versionString ++ p.takeWhile (· ≠ 32)
  let p := (p.dropWhile (· ≠ 32)).dropWhile (· = 32)
  let status := atoi (p.takeWhile (· ≠ 32))
  let reason := r.reason ++ (p.dropWhile (· ≠ 32)).dropWhile (· = 32)
  if status < 100 ∨ 999 < status then .error (.badStatusLine (cstr line))
  else if versionString ≠ ascii "HTTP:/1.0" ∧ versionString.take 7 ≠ ascii "HTTP/1." then
    .error (.unknownProtocol versionString)
  else .ok { r with
    state := .headers
    versionString := versionString
    version := if versionString = ascii "HTTP:/1.0" then 10 else 11
    status := status
    reason := reason
    headerAccum := [] }

/-- mirrors Monitor/Monitor/happyhttp/happyhttp.cpp:768-794 -/
def flushHeader : Response :=
  if r.headerAccum = [] then r
  else
    let p := cstr r.headerAccum
    let header := (p.takeWhile (· ≠ 58)).map toLower
    let value := ((p.dropWhile (· ≠ 58)).drop 1).dropWhile fun b => b = 32 ∨ b = 9
    { r with headers := r.headers.assign header value, headerAccum := [] }

/-- mirrors Monitor/Monitor/happyhttp/happyhttp.cpp:909-931 -/
def checkClose : Bool :=
  if r.version = 11 then (r.getheader (ascii "connection")).any fun conn =>
  sameText conn (ascii "close")
  else (r.getheader (ascii "keep-alive")).isNone

/-- The response has no body.
mirrors Monitor/Monitor/happyhttp/happyhttp.cpp:873-879 -/
def bodiless : Bool :=
  r.status = NO_CONTENT || r.status = NOT_MODIFIED || (100 ≤ r.status && r.status < 200) ||
    r.method = ascii "HEAD"

/-- mirrors Monitor/Monitor/happyhttp/happyhttp.cpp:847-905 -/
def beginBody : Response :=
  let chunked := (r.getheader (ascii "transfer-encoding")).any fun trenc =>
  sameText trenc (ascii "chunked")
  let length := match r.getheader (ascii "content-length") with
    | some contentlen => if chunked then -1 else atoi contentlen
    | none => -1
  let length := if r.bodiless then 0 else length
  { r with
    chunked := chunked
    chunkLeft := if chunked then -1 else r.chunkLeft
    length := length
    willClose := r.checkClose || (!chunked && length = -1)
    state := if chunked then .chunkLen else .body }

/-- mirrors Monitor/Monitor/happyhttp/happyhttp.cpp:797-829 -/
def processHeaderLine (line : List UInt8) : Response :=
  if line = [] then
    let r := r.flushHeader
    if r.status = CONTINUE then { r with state := .statusLine } else r.beginBody
  else
    let p := cstr line
    if p.head?.any isSpace then
      { r with headerAccum := r.headerAccum ++ 32 :: (p.drop 1).dropWhile isSpace }
    else { r.flushHeader with headerAccum := p }

/-- mirrors Monitor/Monitor/happyhttp/happyhttp.cpp:832-840 -/
def processTrailerLine (line : List UInt8) : Response := if line = [] then r.finish else r

/-- mirrors Monitor/Monitor/happyhttp/happyhttp.cpp:636-651 -/
def processChunkLenLine (line : List UInt8) : Response :=
  let chunkLeft := strtol 16 (cstr line)
  if chunkLeft = 0 then { r with chunkLeft := chunkLeft, state := .trailers, headerAccum := [] }
  else { r with chunkLeft := chunkLeft, state := .body }

/-- A whole line.
mirrors Monitor/Monitor/happyhttp/happyhttp.cpp:587-610 -/
def processLine : Except Wobbly Response :=
  let read : Except Wobbly Response := match r.state with
    | .statusLine => r.processStatusLine r.lineBuf
    | .headers => .ok (r.processHeaderLine r.lineBuf)
    | .trailers => .ok (r.processTrailerLine r.lineBuf)
    | .chunkLen => .ok (r.processChunkLenLine r.lineBuf)
    | .chunkEnd => .ok { r with state := .chunkLen }
    | .body | .complete => .ok r
  read.map ({ · with lineBuf := [] })

/-- The inner loop, to the end of the line or of the piece.
mirrors Monitor/Monitor/happyhttp/happyhttp.cpp:580-617 -/
def accumulate (r : Response) : List UInt8 → Except Wobbly (Response × List UInt8)
  | [] => .ok (r, [])
  | c :: data =>
    if c = 10 then r.processLine.map (·, data)
    else if c = 13 then accumulate r data
    else accumulate { r with lineBuf := r.lineBuf ++ [c] } data

/-! ## Body -/

/-- The callback is given as many of the bytes as fit in the chunk.
mirrors Monitor/Monitor/happyhttp/happyhttp.cpp:656-678 -/
def processDataChunked (data : List UInt8) : Except Halt (Response × Nat) :=
  let n : Int := min data.length r.chunkLeft
  if n < 0 then .error (.backwards n)
  else
    let chunkLeft := r.chunkLeft - n
    .ok ({ r with
      bytesRead := r.bytesRead + n
      chunkLeft := chunkLeft
      state := if chunkLeft = 0 then .chunkEnd else r.state }, n.toNat)

/-- mirrors Monitor/Monitor/happyhttp/happyhttp.cpp:682-704 -/
def processDataNonChunked (data : List UInt8) : Except Halt (Response × Nat) :=
  let n : Int := if r.length = -1 then data.length else min data.length (r.length - r.bytesRead)
  if n < 0 then .error (.backwards n)
  else
    let r' := { r with bytesRead := r.bytesRead + n }
    .ok (if r.length ≠ -1 ∧ r'.bytesRead = r.length then r'.finish else r', n.toNat)

def processData (data : List UInt8) : Except Halt (Response × Nat) :=
  if r.chunked then r.processDataChunked data else r.processDataNonChunked data

/-! ## The piece -/

/-- Whether `pump` accumulates a line in this state. -/
def isLineState : ResponseState → Bool
  | .statusLine | .headers | .trailers | .chunkLen | .chunkEnd => true
  | .body | .complete => false

def wobbly {α : Type} (x : Except Wobbly α) : Except Halt α := x.mapError .wobbly

theorem wobbly_ok {α : Type} {x : Except Wobbly α} {a : α} (h : wobbly x = .ok a) : x = .ok a := by
  cases x with
  | ok b =>
    cases h
    rfl
  | error w => cases h

/-- The outer loop.
mirrors Monitor/Monitor/happyhttp/happyhttp.cpp:570-629 -/
def pumpLoop : Nat → Response → List UInt8 → Except Halt (Read Response UInt8 UInt8)
  | 0, r, data => .ok ⟨r, [], data⟩
  | fuel + 1, r, data =>
    if data = [] ∨ r.state = .complete then .ok ⟨r, [], data⟩
    else if isLineState r.state then do
      let (r', data') ← wobbly (r.accumulate data)
      pumpLoop fuel r' data'
    else do
      let (r', bytesused) ← r.processData data
      (pumpLoop fuel r' (data.drop bytesused)).map (·.after (data.take bytesused))

/-- A pass of the outer loop uses a byte or leaves the body.
mirrors Monitor/Monitor/happyhttp/happyhttp.cpp:565-633 -/
def pump (data : List UInt8) : Except Halt (Read Response UInt8 UInt8) :=
  pumpLoop (2 * data.length + 1) r data

end Response
end MonitorAgent.L1.Http
