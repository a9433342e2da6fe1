import MonitorAgent.L1Http.Pump

/-!
# HTTP connections

`happyhttp::Connection` (Monitor/Monitor/happyhttp/happyhttp.cpp:230-490): requests
are written line by line and sent in as many calls as the socket takes, and what is
received goes to the responses that are outstanding, in the order of the requests.
What the network does is a script: how `connect` ends, what each `send` returns, and
what each poll of the socket meets.

* `pumpLoop_eq`: what comes is read by the outstanding responses in turn.
* `pumpAll_eq`: so neither the cuts nor the pauses of the stream make a difference.
* `sendLoop_eq`: what is sent is the message, in order and once.
-/
namespace MonitorAgent.L1.Http

open Text

/-- mirrors Monitor/Monitor/happyhttp/happyhttp.h:225 -/
inductive ConnectionState
  | idle
  | reqStarted
  | reqSent
deriving DecidableEq

/-- How `connect` ends. -/
inductive Connect
  | noAddress
  | failed (context message : List UInt8)
  | done
deriving DecidableEq

/-- What a poll of the socket meets: `select` of `datawaiting` or `recv` may
fail; nothing received means that the other side has closed. -/
inductive Poll
  | idle
  | failed (context message : List UInt8)
  | received (buf : List UInt8)
deriving DecidableEq

/-- `sent` is what the other side gets, `results` what `send` is going to return. -/
structure Socket where
  sent : List UInt8
  results : List Int

/-- `sock` is whether there is a socket.
mirrors Monitor/Monitor/happyhttp/happyhttp.h:216-231 -/
structure Connection where
  state : ConnectionState
  host : List UInt8
  sock : Bool
  buffer : List (List UInt8)
  outstanding : List Response

/-! ## Requests -/

/-- The loop of `send`.
mirrors Monitor/Monitor/happyhttp/happyhttp.cpp:419-430 -/
def sendLoop (message : List UInt8) : List Int → List UInt8 → List UInt8 → Except Halt Socket
  | results, sent, [] => .ok ⟨sent, results⟩
  | [], _, _ :: _ => .error .waiting
  | n :: results, sent, b :: buf =>
    if n < 0 then .error (.wobbly (.socketError (ascii "send()") message))
    else sendLoop message results (sent ++ (b :: buf).take n.toNat) ((b :: buf).drop n.toNat)

/-- What the network does with a request: how `connect` ends, and the text of an error. -/
structure Network where
  connect : Connect
  message : List UInt8

namespace Connection

/-- mirrors Monitor/Monitor/happyhttp/happyhttp.cpp:230-240 -/
def new (host : List UInt8) : Connection := ⟨.idle, host, false, [], []⟩

variable (c : Connection) (net : Network)

/-- mirrors Monitor/Monitor/happyhttp/happyhttp.cpp:256-276 -/
def connect : Except Halt Connection :=
  match net.connect with
  | .noAddress => .error (.wobbly .invalidAddress)
  | .failed context message => .error (.wobbly (.socketError context message))
  | .done => .ok { c with sock := true }

/-- mirrors Monitor/Monitor/happyhttp/happyhttp.cpp:279-296 -/
def close : Connection := { c with sock := false, outstanding := [] }

/-- mirrors Monitor/Monitor/happyhttp/happyhttp.cpp:416-417 -/
def connected : Except Halt Connection := if c.sock then .ok c else c.connect net

/-- mirrors Monitor/Monitor/happyhttp/happyhttp.cpp:412-431 -/
def send (s : Socket) (buf : List UInt8) : Except Halt (Connection × Socket) := do
  let c ← c.connected net
  let s ← sendLoop net.message s.results s.sent buf
  .ok (c, s)

/-- mirrors Monitor/Monitor/happyhttp/happyhttp.cpp:377-382 -/
def putheader (header value : List UInt8) : Except Halt Connection :=
  if c.state ≠ .reqStarted then .error (.wobbly .putheader)
  else .ok { c with buffer := c.buffer ++ [header ++ ascii ": " ++ value] }

/-- mirrors Monitor/Monitor/happyhttp/happyhttp.cpp:384-389 -/
def putheaderNumeric (header : List UInt8) (numericvalue : Nat) : Except Halt Connection :=
  c.putheader header (numeral 10 numericvalue)

/-- The request line has to fit 512 bytes, with its NUL.
mirrors Monitor/Monitor/happyhttp/happyhttp.cpp:355-374 -/
def putrequest (method url : List UInt8) : Except Halt Connection :=
  if c.state ≠ .idle then .error (.wobbly .alreadyIssued)
  else
    let req := method ++ ascii " " ++ url ++ ascii " HTTP/1.1"
    if 512 ≤ req.length then .error .invalidParameter
    else do
      let c ← ({ c with state := .reqStarted, buffer := c.buffer ++ [req] } : Connection).putheader
        (ascii "Host") c.host
      let c ← c.putheader (ascii "Accept-Encoding") (ascii "identity")
      .ok { c with outstanding := c.outstanding ++ [.new method] }

/-- Every line with its end.
mirrors Monitor/Monitor/happyhttp/happyhttp.cpp:399-404 -/
def lines (ls : List (List UInt8)) : List UInt8 := (ls.map (· ++ [13, 10])).flatten

/-- mirrors Monitor/Monitor/happyhttp/happyhttp.cpp:391-408 -/
def endheaders (s : Socket) : Except Halt (Connection × Socket) :=
  if c.state ≠ .reqStarted then .error (.wobbly .cannotSend)
  else ({ c with state := .idle, buffer := [] } : Connection).send net s (lines (c.buffer ++ [[]]))

def gotcontentlength (headers : List (List UInt8 × List UInt8)) : Bool :=
  headers.any fun h => sameText h.1 (ascii "content-length")

/-- mirrors Monitor/Monitor/happyhttp/happyhttp.cpp:330-331 -/
def putlength (headers : List (List UInt8 × List UInt8)) :
    Option (List UInt8) → Except Halt Connection
  | none => .ok c
  | some body =>
    if gotcontentlength headers then .ok c else
    c.putheaderNumeric (ascii "Content-Length") body.length

def sendBody (s : Socket) : Option (List UInt8) → Except Halt (Connection × Socket)
  | none => .ok (c, s)
  | some body => c.send net s body

/-- mirrors Monitor/Monitor/happyhttp/happyhttp.cpp:304-350 -/
def request (s : Socket) (method url : List UInt8) (headers : List (List UInt8 × List UInt8))
    (body : Option (List UInt8)) : Except Halt (Connection × Socket) := do
  let c ← c.putrequest method url
  let c ← c.putlength headers body
  let c ← headers.foldlM (fun c h => c.putheader h.1 h.2) c
  let (c, s) ← c.endheaders net s
  c.sendBody net s body

/-! ## Replies -/

/-- The loop over what was received.
mirrors Monitor/Monitor/happyhttp/happyhttp.cpp:464-479 -/
def pumpLoop : Nat → List Response → List UInt8 → Except Halt (Read (List Response) UInt8 UInt8)
  | 0, outstanding, buf => .ok ⟨outstanding, [], buf⟩
  | _ + 1, [], buf => .ok ⟨[], [], buf⟩
  | fuel + 1, r :: outstanding, buf =>
    if buf = [] then .ok ⟨r :: outstanding, [], []⟩
    else (r.pump buf).bind fun p =>
      (pumpLoop fuel (if p.state.completed then outstanding else p.state :: outstanding) p.rest).map
      (·.after p.out)

/-- The response that was first is completed by a close, or an exception is thrown.
mirrors Monitor/Monitor/happyhttp/happyhttp.cpp:448-460 -/
def closed (r : Response) : Except Halt Connection :=
  (Response.wobbly r.notifyconnectionclosed).map fun _ => c.close

/-- A pump, and what is given out; every pass but the last completes a response.
mirrors Monitor/Monitor/happyhttp/happyhttp.cpp:434-485 -/
def pump (poll : Poll) : Except Halt (Connection × List UInt8) :=
  match c.outstanding with
  | [] => .ok (c, [])
  | r :: outstanding =>
    match poll with
    | .idle => .ok (c, [])
    | .failed context message => .error (.wobbly (.socketError context message))
    | .received [] => (c.closed r).map (·, [])
    | .received buf => (pumpLoop (outstanding.length + 2) (r :: outstanding) buf).map fun p =>
      ({ c with outstanding := p.state }, p.out)

/-- While requests are outstanding.
mirrors Monitor/Monitor/Com.cpp:184-185,199-200 -/
def pumpAll (c : Connection) (polls : List Poll) : Except Halt (List UInt8) :=
  if c.outstanding = [] then .ok []
  else
    match polls with
    | [] => .error .waiting
    | poll :: polls => (c.pump poll).bind fun p => (pumpAll p.1 polls).map (p.2 ++ ·)

/-! ## What is sent -/

variable {c : Connection} {net : Network}

/-- **The message is sent in order and once**, if the calls take all of it. -/
theorem sendLoop_ok {message sent buf : List UInt8} {results : List Int} {s : Socket}
    (h : sendLoop message results sent buf = .ok s) : s.sent = sent ++ buf := by
  induction results generalizing sent buf with
  | nil =>
    cases buf with
    | nil =>
      cases h
      exact (List.append_nil _).symm
    | cons b buf => cases h
  | cons n results ih =>
    cases buf with
    | nil =>
      cases h
      exact (List.append_nil _).symm
    | cons b buf =>
      unfold sendLoop at h
      split at h
      · cases h
      · rw [ih h, List.append_assoc, List.take_append_drop]

theorem connected_ok {c' : Connection} (h : c.connected net = .ok c') :
    c' = { c with sock := true } := by
  unfold connected connect at h
  cases hsock : c.sock with
  | true =>
    rw [hsock, if_pos rfl] at h
    cases h
    rw [← hsock]
  | false =>
    rw [hsock, if_neg Bool.false_ne_true] at h
    split at h
    · cases h
    · cases h
    · cases h
      rfl

theorem send_ok {s s' : Socket} {buf : List UInt8} {c' : Connection}
    (h : c.send net s buf = .ok (c', s')) :
    c' = { c with sock := true } ∧ s'.sent = s.sent ++ buf := by
  unfold send at h
  obtain ⟨c₁, hc, h⟩ := ok_of_bind h
  obtain ⟨s₁, hs, h⟩ := ok_of_bind h
  cases h
  exact ⟨connected_ok hc, sendLoop_ok hs⟩

theorem sendBody_ok {s s' : Socket} {body : Option (List UInt8)} {c' : Connection}
    (hc : c.sock = true)
    (h : c.sendBody net s body = .ok (c', s')) : c' = c ∧ s'.sent = s.sent ++ body.getD [] := by
  cases body with
  | none =>
    cases h
    exact ⟨rfl, (List.append_nil _).symm⟩
  | some body =>
    obtain ⟨rfl, hs⟩ := send_ok h
    exact ⟨by rw [← hc], hs⟩

def headerLine (h : List UInt8 × List UInt8) : List UInt8 := h.1 ++ ascii ": " ++ h.2

theorem putheader_ok {header value : List UInt8} {c' : Connection}
    (h : c.putheader header value = .ok c') :
    c' = { c with buffer := c.buffer ++ [headerLine (header, value)] } := by
  unfold putheader at h
  split at h
  · cases h
  · cases h
    rfl

theorem putheaders_ok {headers : List (List UInt8 × List UInt8)} {c' : Connection}
    (h : headers.foldlM (fun c h => c.putheader h.1 h.2) c = .ok c') :
    c' = { c with buffer := c.buffer ++ headers.map headerLine } := by
  induction headers generalizing c with
  | nil =>
    cases h
    simp
  | cons x headers ih =>
    rw [List.foldlM_cons] at h
    obtain ⟨c₁, hc₁, h⟩ := ok_of_bind h
    rw [ih h, putheader_ok hc₁]
    simp

/-- The length of a body whose length is not among the headers. -/
def lengthLine (headers : List (List UInt8 × List UInt8)) : Option (List UInt8) → List (List UInt8)
  | none => []
  | some body =>
    if gotcontentlength headers then [] else
    [headerLine (ascii "Content-Length", numeral 10 body.length)]

/-- The lines of a request. -/
def requestLines (host method url : List UInt8) (headers : List (List UInt8 × List UInt8))
    (body : Option (List UInt8)) :
    List (List UInt8) :=
  [method ++ ascii " " ++ url ++ ascii " HTTP/1.1", headerLine (ascii "Host", host),
    headerLine (ascii "Accept-Encoding", ascii "identity")] ++ lengthLine headers body ++
    headers.map headerLine ++ [[]]

theorem putlength_ok {headers : List (List UInt8 × List UInt8)}
    {body : Option (List UInt8)} {c' : Connection}
    (h : c.putlength headers body = .ok c') : c' =
    { c with buffer := c.buffer ++ lengthLine headers body } := by
  cases body with
  | none =>
    cases h
    simp [lengthLine]
  | some body =>
    rw [putlength] at h
    cases hgot : gotcontentlength headers with
    | true =>
      rw [hgot, if_pos rfl] at h
      cases h
      simp [lengthLine, hgot]
    | false =>
      rw [hgot, if_neg Bool.false_ne_true] at h
      rw [putheader_ok h]
      simp [lengthLine, hgot]

theorem putrequest_ok {method url : List UInt8} {c' : Connection}
    (h : c.putrequest method url = .ok c') :
    c' = { c with
      state := .reqStarted
      buffer := c.buffer ++
        [method ++ ascii " " ++ url ++ ascii " HTTP/1.1", headerLine (ascii "Host", c.host),
        headerLine (ascii "Accept-Encoding", ascii "identity")]
      outstanding := c.outstanding ++ [.new method] } := by
  unfold putrequest at h
  split at h
  · cases h
  · simp only at h
    split at h
    · cases h
    · obtain ⟨c₁, hc₁, h⟩ := ok_of_bind h
      obtain ⟨c₂, hc₂, h⟩ := ok_of_bind h
      cases h
      rw [putheader_ok hc₂, putheader_ok hc₁]
      simp

theorem endheaders_ok {s s' : Socket} {c' : Connection} (h : c.endheaders net s = .ok (c', s')) :
    c' = { c with state := .idle, buffer := [], sock := true } ∧ s'.sent = s.sent ++
    lines (c.buffer ++ [[]]) := by
  unfold endheaders at h
  split at h
  · cases h
  · obtain ⟨rfl, hs⟩ := send_ok h
    exact ⟨rfl, hs⟩

/-- A request in whole: its lines, the body behind them, and a response that is waited for. -/
theorem request_ok {s s' : Socket} {method url : List UInt8}
    {headers : List (List UInt8 × List UInt8)}
    {body : Option (List UInt8)} {c' : Connection} (hc : c.buffer = [])
    (h : c.request net s method url headers body = .ok (c', s')) :
    s'.sent = s.sent ++ lines (requestLines c.host method url headers body) ++ body.getD [] ∧
      c' = { c with state := .idle, sock := true, outstanding := c.outstanding ++
        [.new method] } := by
  unfold request at h
  obtain ⟨c₁, hc₁, h⟩ := ok_of_bind h
  obtain ⟨c₂, hc₂, h⟩ := ok_of_bind h
  obtain ⟨c₃, hc₃, h⟩ := ok_of_bind h
  obtain ⟨⟨c₄, s₄⟩, hc₄, h⟩ := ok_of_bind h
  obtain rfl := putrequest_ok hc₁
  obtain rfl := putlength_ok hc₂
  obtain rfl := putheaders_ok hc₃
  obtain ⟨rfl, hs₄⟩ := endheaders_ok hc₄
  obtain ⟨rfl, hs'⟩ := sendBody_ok rfl h
  constructor
  · rw [hs', hs₄, hc, requestLines]
    simp [lines]
  · rw [hc]

structure Request where
  method : List UInt8
  url : List UInt8
  headers : List (List UInt8 × List UInt8)
  body : Option (List UInt8)

/-- What the other side gets of a request. -/
def Request.text (host : List UInt8) (x : Request) : List UInt8 :=
  lines (requestLines host x.method x.url x.headers x.body) ++ x.body.getD []

/-- Request after request. -/
def requests (net : Network) : Connection × Socket → List Request →
    Except Halt (Connection × Socket)
  | p, [] => .ok p
  | p, x :: xs => (p.1.request net p.2 x.method x.url x.headers x.body).bind fun p =>
      requests net p xs

/-- **The other side gets request after request**, each of them in whole and
once, however the socket takes them; and as many responses are waited for, in
the same order. -/
theorem requests_sent {net : Network} {c c' : Connection} {s s' : Socket} {xs : List Request}
    (hc : c.buffer = [])
    (h : requests net (c, s) xs = .ok (c', s')) :
    s'.sent = s.sent ++ (xs.map (Request.text c.host)).flatten ∧
      c'.outstanding = c.outstanding ++ xs.map fun x => .new x.method := by
  induction xs generalizing c s with
  | nil =>
    cases h
    simp
  | cons x xs ih =>
    obtain ⟨⟨c₁, s₁⟩, h₁, h⟩ := ok_of_bind h
    obtain ⟨hs₁, rfl⟩ := request_ok hc h₁
    obtain ⟨hs', ho⟩ :=
      ih (c := { c with state := .idle, sock := true, outstanding := c.outstanding ++
      [.new x.method] }) hc h
    rw [hs', hs₁, ho]
    simp [Request.text]

def postAndGet : List Request :=
  [⟨ascii "POST", ascii "/a", [], some (ascii "xy")⟩, ⟨ascii "GET", ascii "/b", [], none⟩]

theorem requests_sent_postAndGet :
    ∃ c s, requests ⟨.done, []⟩ (new (ascii "h"), ⟨[], [7, 1, 99, 1, 1, 200]⟩) postAndGet =
    .ok (c, s) ∧
    s.sent = (postAndGet.map (Request.text (ascii "h"))).flatten ∧
      c.outstanding = [.new (ascii "POST"), .new (ascii "GET")] := by
  have hok : (requests ⟨.done, []⟩ (new (ascii "h"), ⟨[], [7, 1, 99, 1, 1, 200]⟩)
    postAndGet).toOption.isSome = true := by
    decide +kernel
  cases hr : requests ⟨.done, []⟩ (new (ascii "h"), ⟨[], [7, 1, 99, 1, 1, 200]⟩) postAndGet with
  | error e =>
    rw [hr] at hok
    cases hok
  | ok p => exact ⟨p.1, p.2, rfl, requests_sent rfl hr⟩

/-! ## What is received -/

/-- The outstanding responses, in turn. -/
def inTurn : Reader (List Response) UInt8 UInt8 Halt := Response.byByte.queue Response.completed

theorem completed_stops (r : Response) (h : r.completed = true) (b : UInt8) :
    Response.byByte.next r b = .stop r :=
  Response.next_complete (by simpa [Response.completed] using h) b

/-- **What comes is read by the outstanding responses in turn.** -/
theorem pumpLoop_eq {fuel : Nat} {outstanding : List Response}
    (hopen : ∀ r ∈ outstanding, r.completed = false)
    {buf : List UInt8} (hfuel : outstanding.length < fuel) :
    pumpLoop fuel outstanding buf = inTurn.run outstanding buf := by
  induction fuel generalizing outstanding buf with
  | zero => exact absurd hfuel (Nat.not_lt_zero _)
  | succ fuel ih =>
    cases outstanding with
    | nil =>
      rw [Reader.run_of_stopped (M := inTurn) fun b => rfl]
      rfl
    | cons r outstanding =>
      by_cases hb : buf = []
      · subst hb
        rfl
      · rw [pumpLoop, if_neg hb, Response.pump_eq]
        have hr := hopen r List.mem_cons_self
        cases hrun : Response.byByte.run r buf with
        | error e =>
          rw [inTurn, Reader.queue_run_fail completed_stops hrun]
          rfl
        | ok p =>
          obtain ⟨s, out, rest⟩ := p
          show (pumpLoop fuel _ rest).map _ = _
          cases hs : s.completed with
          | true =>
            rw [inTurn, Reader.queue_run_over completed_stops hrun hr hs, if_pos rfl]
            exact congrArg _ (ih (List.forall_mem_of_forall_mem_cons hopen)
              (Nat.lt_of_succ_lt_succ hfuel))
          | false =>
            have hrest : rest = [] := by
              by_contra hne
              rw [← Response.pump_eq] at hrun
              simp [Response.completed, Response.pump_rest hrun hne] at hs
            subst hrest
            rw [inTurn, Reader.queue_run_on completed_stops hrun hs, if_neg Bool.false_ne_true]
            cases fuel with
            | zero => exact absurd hfuel (by simp)
            | succ fuel => simp [pumpLoop, Except.map, Read.after]

/-- How what is received ends, if it does. -/
inductive Ending
  | failed (context message : List UInt8)
  | closed
deriving DecidableEq

def ending : List Poll → Option Ending
  | [] => none
  | .idle :: polls => ending polls
  | .failed context message :: _ => some (.failed context message)
  | .received [] :: _ => some .closed
  | .received (_ :: _) :: polls => ending polls

/-- What is received until then. -/
def stream : List Poll → List UInt8
  | [] => []
  | .idle :: polls => stream polls
  | .failed _ _ :: _ => []
  | .received [] :: _ => []
  | .received (b :: buf) :: polls => b :: buf ++ stream polls

/-- What an ending makes of the first response that is outstanding. -/
def conclude (out : List UInt8) : List Response → Option Ending → Except Halt (List UInt8)
  | [], _ => .ok out
  | _ :: _, none => .error .waiting
  | _ :: _, some (.failed context message) => .error (.wobbly (.socketError context message))
  | r :: _, some .closed => (Response.wobbly r.notifyconnectionclosed).map fun _ => out

theorem conclude_append (out out' : List UInt8) (rs : List Response) (e : Option Ending) :
    (conclude out' rs e).map (out ++ ·) = conclude (out ++ out') rs e := by
  match rs, e with
  | [], _ => rfl
  | _ :: _, none => rfl
  | _ :: _, some (.failed _ _) => rfl
  | r :: _, some .closed =>
    rw [conclude, conclude]
    cases Response.wobbly r.notifyconnectionclosed <;> rfl

theorem conclude_bind (out : List UInt8) (x : Except Halt (Read (List Response) UInt8 UInt8))
    (e : Option Ending) :
    (x.bind fun p => conclude p.out p.state e).map (out ++ ·) =
      (x.map (·.after out)).bind fun p => conclude p.out p.state e := by
  cases x with
  | error h => rfl
  | ok p => exact conclude_append out p.out p.state e

theorem pumpAll_nil (h : c.outstanding = []) (polls : List Poll) : c.pumpAll polls = .ok [] := by
  cases polls <;> rw [pumpAll, if_pos h]

/-- **Neither the cuts nor the pauses make a difference**: what is returned
depends on the bytes that come, and on how they end. -/
theorem pumpAll_eq (hopen : ∀ r ∈ c.outstanding, r.completed = false) (polls : List Poll) :
    c.pumpAll polls = (inTurn.run c.outstanding (stream polls)).bind fun p =>
    conclude p.out p.state (ending polls) := by
  induction polls generalizing c with
  | nil =>
    rw [stream, Reader.run_nil]
    cases ho : c.outstanding with
    | nil => exact pumpAll_nil ho []
    | cons r outstanding =>
      rw [pumpAll, ho, if_neg (List.cons_ne_nil _ _)]
      rfl
  | cons poll polls ih =>
    cases ho : c.outstanding with
    | nil =>
      rw [pumpAll_nil ho, Reader.run_of_stopped (M := inTurn) fun b => rfl]
      rfl
    | cons r outstanding =>
      rw [pumpAll, ho, if_neg (List.cons_ne_nil _ _), pump, ho]
      cases poll with
      | idle =>
        have hrest := ih hopen
        rw [ho] at hrest
        show (c.pumpAll polls).map ([] ++ ·) = _
        rw [hrest, conclude_bind, Reader.map_after_nil]
        rfl
      | failed message => rfl
      | received buf =>
        cases buf with
        | nil =>
          show ((c.closed r).map (·, [])).bind _ =
          (Response.wobbly r.notifyconnectionclosed).map fun _ => []
          unfold closed
          cases Response.wobbly r.notifyconnectionclosed with
          | error e => rfl
          | ok r' => exact congrArg (Except.map _) (pumpAll_nil rfl polls)
        | cons b buf =>
          have hfuel : (r :: outstanding).length < outstanding.length + 2 := by simp
          have hopen' : ∀ s ∈ r :: outstanding, s.completed = false := by rwa [← ho]
          show ((pumpLoop (outstanding.length + 2) (r :: outstanding) (b :: buf)).map _).bind _ = _
          rw [pumpLoop_eq hopen' hfuel, stream]
          cases hrun : inTurn.run (r :: outstanding) (b :: buf) with
          | error e =>
            rw [Reader.run_append_fail hrun]
            rfl
          | ok p =>
            obtain ⟨rs, out, rest⟩ := p
            have hopen'' : ∀ s ∈ rs, s.completed = false := Reader.queue_run_open hopen' hrun
            have hrest := ih (c := { c with outstanding := rs }) hopen''
            show (pumpAll { c with outstanding := rs } polls).map (out ++ ·) = _
            by_cases hr : rest = []
            · subst hr
              rw [Reader.run_append hrun, hrest, conclude_bind]
              rfl
            · have hnil : rs = [] := Response.byByte.queueNext_stop (Reader.run_stopped hrun hr b)
              subst hnil
              rw [Reader.run_append_stopped hrun hr, pumpAll_nil rfl]
              simp [Except.map, Except.bind, conclude]

end Connection
end MonitorAgent.L1.Http
