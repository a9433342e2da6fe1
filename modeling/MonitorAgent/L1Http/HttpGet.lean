import MonitorAgent.L1Http.Connection
import MonitorAgent.L1Http.Framing

/-!
# HTTP requests and their replies

`http_tls_get` and `http_proxy_get` (Monitor/Monitor/Com.cpp:173-201): a request is
issued, and the connection is pumped until it is answered. What is returned is what
the callback was given.

* `run_inTurn_iff`: outstanding requests are answered in their order.
* `pumpAll_ok_iff`: a connection is done exactly with complete replies, or with one
  that a close completes.
* `get_iff`: so a body is returned exactly if the request was sent and answered by it.
* `get_cut`: a reply that is cut off is never returned.
-/
namespace MonitorAgent.L1.Http

open Text

/-- The requests are answered in their order. -/
inductive Replies : List Response → List UInt8 → List UInt8 → List UInt8 → Prop
  | nil (xs : List UInt8) : Replies [] xs [] xs
  | cons {r : Response} {rs : List Response} {xs out ys out' rest : List UInt8} :
    r.Completes xs out ys → Replies rs ys out' rest → Replies (r :: rs) xs (out ++ out') rest

namespace Connection

variable {c : Connection} {rs rs' : List Response} {xs out rest : List UInt8} {polls : List Poll}

/-- Some are answered, and the next one is not: it got to `s`. -/
def Underway (rs : List Response) (xs out : List UInt8) (s : Response) (left : List Response) :
    Prop :=
  ∃ (answered : List Response) (r : Response) (ys out₁ out₂ : List UInt8),
    rs = answered ++ r :: left ∧ Replies answered xs out₁ ys ∧
      Response.byByte.run r ys = .ok ⟨s, out₂, []⟩ ∧ s.completed = false ∧ out = out₁ ++ out₂

theorem completed_iff {r : Response} : r.completed = true ↔ r.state = .complete := by
  simp [Response.completed]

/-- **Outstanding requests are answered in their order.** -/
theorem run_inTurn_iff (hopen : ∀ r ∈ rs, r.completed = false) :
    inTurn.run rs xs = .ok ⟨rs', out, rest⟩ ↔
      (rs' = [] ∧ Replies rs xs out rest) ∨
      (rest = [] ∧ ∃ s left, rs' = s :: left ∧ Underway rs xs out s left) := by
  induction rs generalizing xs out with
  | nil =>
    rw [Reader.run_of_stopped (M := inTurn) fun b => rfl]
    constructor
    · intro h
      cases h
      exact .inl ⟨rfl, .nil _⟩
    · rintro (⟨rfl, h⟩ | ⟨-, s, left, -, ⟨answered, r, ys, out₁, out₂, he, -⟩⟩)
      · cases h
        rfl
      · exact absurd he (by simp)
  | cons r rs ih =>
    have hr := hopen r List.mem_cons_self
    have htail := List.forall_mem_of_forall_mem_cons hopen
    constructor
    · intro h
      cases hrun : Response.byByte.run r xs with
      | error e =>
        rw [inTurn, Reader.queue_run_fail completed_stops hrun] at h
        cases h
      | ok p =>
        obtain ⟨s, out₁, ys⟩ := p
        cases hs : s.completed with
        | true =>
          rw [inTurn, Reader.queue_run_over completed_stops hrun hr hs, ← inTurn] at h
          obtain ⟨⟨rs₁, out₂, rest₁⟩, hrest, he⟩ := ok_of_map h
          cases he
          have hc : r.Completes xs out₁ ys := ⟨s, hrun, completed_iff.mp hs⟩
          rcases (ih htail).mp hrest with
            ⟨rfl, hreplies⟩ | ⟨rfl, t, left, rfl, ⟨answered, r', zs, o₁, o₂, rfl, h₁, h₂, h₃, rfl⟩⟩
          · exact .inl ⟨rfl, .cons hc hreplies⟩
          · exact .inr ⟨rfl, t, left, rfl,
              ⟨r :: answered, r', zs, out₁ ++ o₁, o₂, rfl, .cons hc h₁, h₂, h₃,
                (List.append_assoc _ _ _).symm⟩⟩
        | false =>
          have hrest : ys = [] := by
            by_contra hne
            rw [← Response.pump_eq] at hrun
            simp [Response.completed, Response.pump_rest hrun hne] at hs
          subst hrest
          rw [inTurn, Reader.queue_run_on completed_stops hrun hs] at h
          cases h
          exact .inr ⟨rfl, s, rs, rfl, [], r, xs, [], _, rfl, .nil xs, hrun, hs, rfl⟩
    · rintro (⟨rfl, h⟩ | ⟨rfl, s, left, rfl, answered, r', ys, out₁, out₂, he, h₁, h₂, h₃, rfl⟩)
      · cases h with
        | cons hc hreplies =>
          obtain ⟨s, hrun, hs⟩ := hc
          rw [inTurn, Reader.queue_run_over completed_stops hrun hr (completed_iff.mpr hs),
            ← inTurn, (ih htail).mpr (.inl ⟨rfl, hreplies⟩)]
          rfl
      · cases h₁ with
        | nil =>
          cases he
          rw [inTurn, Reader.queue_run_on completed_stops h₂ h₃]
          rfl
        | cons hc hreplies =>
          cases he
          obtain ⟨s', hrun, hs'⟩ := hc
          rw [inTurn, Reader.queue_run_over completed_stops hrun hr (completed_iff.mpr hs'),
            ← inTurn, (ih htail).mpr (.inr ⟨rfl, s, left, rfl, _, r', ys, _, out₂, rfl,
              hreplies, h₂, h₃, rfl⟩)]
          simp [Except.map, Read.after]

/-- A close completes the first request that is not answered; those behind it are given up. -/
def Closing (rs : List Response) (xs out : List UInt8) : Prop :=
  ∃ (answered : List Response) (r : Response) (left : List Response) (ys out₁ out₂ : List UInt8),
    rs = answered ++ r :: left ∧ Replies answered xs out₁ ys ∧ r.Closes ys out₂ ∧ out = out₁ ++ out₂

theorem conclude_ok {e : Option Ending} {body : List UInt8}
    (hopen : ∀ r ∈ rs, r.completed = false) :
    conclude out rs e = .ok body ↔ body = out ∧
      (rs = [] ∨ e = some .closed ∧ ∃ s left,
        rs = s :: left ∧ s.notifyconnectionclosed = .ok s.finish) := by
  match rs, e with
  | [], _ => simp [conclude, eq_comm]
  | _ :: _, none => simp [conclude]
  | _ :: _, some (.failed _ _) => simp [conclude]
  | s :: left, some .closed =>
    have hs : s.state ≠ .complete := fun h => by
      have hcs := hopen s List.mem_cons_self
      rw [completed_iff.mpr h] at hcs
      cases hcs
    rw [conclude]
    cases hn : s.notifyconnectionclosed with
    | error w =>
      constructor
      · intro h
        cases h
      · rintro ⟨-, h | ⟨-, s', left', he, hs'⟩⟩
        · cases h
        · cases he
          rw [hn] at hs'
          cases hs'
    | ok t =>
      have ht : t = s.finish := by
        unfold Response.notifyconnectionclosed at hn
        rw [if_neg hs] at hn
        split at hn <;> cases hn
        rfl
      subst ht
      constructor
      · intro h
        cases h
        exact ⟨rfl, .inr ⟨rfl, s, left, rfl, hn⟩⟩
      · rintro ⟨rfl, -⟩
        rfl

/-- A connection is done exactly with a complete reply to every request, or with a close that
completes the first one without. -/
theorem pumpAll_ok (hopen : ∀ r ∈ c.outstanding, r.completed = false) {body : List UInt8} :
    c.pumpAll polls = .ok body ↔
      (∃ rest, Replies c.outstanding (stream polls) body rest) ∨
        (ending polls = some .closed ∧ Closing c.outstanding (stream polls) body) := by
  rw [pumpAll_eq hopen]
  constructor
  · intro h
    obtain ⟨⟨rs, out, rest⟩, hrun, hend⟩ := ok_of_bind h
    have hopen' := Reader.queue_run_open hopen hrun
    obtain ⟨rfl, hrs⟩ := (conclude_ok hopen').mp hend
    rcases (run_inTurn_iff hopen).mp hrun with ⟨rfl, hreplies⟩ | ⟨rfl, s, left, rfl, hunder⟩
    · exact .inl ⟨rest, hreplies⟩
    · rcases hrs with hnil | ⟨hclosed, s', left', he, hs'⟩
      · cases hnil
      · cases he
        obtain ⟨answered, r, ys, out₁, out₂, he, h₁, h₂, h₃, ho⟩ := hunder
        have hopen₃ : s.state ≠ .complete := fun h => by
          rw [completed_iff.mpr h] at h₃
          cases h₃
        exact .inr ⟨hclosed, answered, r, left, ys, out₁, out₂, he, h₁, ⟨s, h₂, hopen₃, hs'⟩, ho⟩
  · rintro (⟨rest, hreplies⟩ | ⟨hclosed, answered, r, left, ys, out₁, out₂, he, h₁,
      ⟨s, h₂, h₃, h₄⟩, rfl⟩)
    · rw [(run_inTurn_iff hopen).mpr (.inl ⟨rfl, hreplies⟩)]
      rfl
    · have hs : s.completed = false := by
        rw [← Bool.not_eq_true, completed_iff]
        exact h₃
      have hrun : inTurn.run c.outstanding (stream polls) = .ok ⟨s :: left, out₁ ++ out₂, []⟩ :=
        (run_inTurn_iff hopen).mpr (.inr ⟨rfl, s, left, rfl, answered, r, ys, out₁, out₂,
          he, h₁, h₂, hs, rfl⟩)
      rw [hrun]
      have hopen' := Reader.queue_run_open hopen hrun
      exact (conclude_ok hopen').mpr ⟨rfl, .inr ⟨hclosed, s, left, rfl, h₄⟩⟩

end Connection

/-! ## Requests -/

/-- What the network is going to do with a request. -/
structure Script where
  net : Network
  sends : List Int
  polls : List Poll

def GET : List UInt8 := ascii "GET"

/-- mirrors Monitor/Monitor/Com.cpp:180-182,195-197 -/
def issue (host uri : List UInt8) (s : Script) : Except Halt (Connection × Socket) :=
  (Connection.new host).request s.net ⟨[], s.sends⟩ GET uri [] none

def get (host uri : List UInt8) (s : Script) : Except Halt (List UInt8) :=
  (issue host uri s).bind fun p => p.1.pumpAll s.polls

/-- mirrors Monitor/Monitor/Com.cpp:173-186 -/
def httpTlsGet (host url : List UInt8) (nodeId : UInt32) (s : Script) : Except Halt (List UInt8) :=
  get host (url ++ ascii "&node_id=" ++ numeral 10 nodeId.toNat) s

/-- mirrors Monitor/Monitor/Com.cpp:188-201 -/
def httpProxyGet (host url : List UInt8) (roomId : UInt32) (s : Script) :
    Except Halt (List UInt8) :=
  get host (url ++ ascii "roomid=" ++ numeral 10 roomId.toNat) s

/-- The calls of `send` take as many bytes, and none of them fails. -/
def takes : List Int → Nat → Bool
  | _, 0 => true
  | [], _ + 1 => false
  | n :: ns, k + 1 => decide (0 ≤ n) && takes ns (k + 1 - n.toNat)

def requestLine (uri : List UInt8) : List UInt8 := GET ++ ascii " " ++ uri ++ ascii " HTTP/1.1"

/-- The request, in whole. -/
def requestText (host uri : List UInt8) : List UInt8 :=
  Connection.lines [requestLine uri, ascii "Host: " ++ host, ascii "Accept-Encoding: identity", []]

/-- The request gets to the other side. -/
structure Sends (host uri : List UInt8) (s : Script) : Prop where
  connects : s.net.connect = .done
  fits : (requestLine uri).length < 512
  taken : takes s.sends (requestText host uri).length = true

variable {host uri : List UInt8} {s : Script}

theorem sendLoop_iff {message : List UInt8} {results : List Int} {sent buf : List UInt8} :
    (∃ s, sendLoop message results sent buf = .ok s) ↔ takes results buf.length = true := by
  induction results generalizing sent buf with
  | nil => cases buf <;> simp [sendLoop, takes]
  | cons n results ih =>
    cases buf with
    | nil => simp [sendLoop, takes]
    | cons b buf =>
      rw [sendLoop, List.length_cons, takes]
      by_cases hn : n < 0
      · simp [hn]
      · rw [if_neg hn, ih, List.length_drop, List.length_cons]
        simp [not_lt.mp hn]

theorem issue_eq (host uri : List UInt8) (s : Script) :
    issue host uri s =
      if 512 ≤ (requestLine uri).length then .error .invalidParameter
      else (({ Connection.new host with outstanding := [.new GET] } : Connection).connect
        s.net).bind fun c =>
        (sendLoop s.net.message s.sends [] (requestText host uri)).map fun sock => (c, sock) := by
  unfold issue Connection.request Connection.putrequest
  rw [if_neg (by simp [Connection.new])]
  show ((if 512 ≤ (requestLine uri).length then Except.error Halt.invalidParameter else
    _ : Except Halt Connection).bind _) = _
  split
  · rfl
  · show ((({ Connection.new host with outstanding := [.new GET] } : Connection).connect s.net).bind
      fun c =>
        (sendLoop s.net.message s.sends [] (requestText host uri)).bind fun sock =>
        .ok (c, sock)).bind (fun p => .ok (p.1, p.2)) = _
    cases Connection.connect { Connection.new host with outstanding := [.new GET] } s.net with
    | error e => rfl
    | ok c => cases sendLoop s.net.message s.sends [] (requestText host uri) <;> rfl

/-- What is sent is the request. -/
theorem issue_ok {p : Connection × Socket} (h : issue host uri s = .ok p) :
    Sends host uri s ∧ p.1.outstanding = [.new GET] ∧ p.2.sent = requestText host uri := by
  rw [issue_eq] at h
  split at h
  · cases h
  · rename_i hfits
    obtain ⟨c, hc, hsend⟩ := ok_of_bind h
    obtain ⟨sock, hsock, rfl⟩ := ok_of_map hsend
    unfold Connection.connect at hc
    split at hc
    · cases hc
    · cases hc
    · rename_i hdone
      cases hc
      exact ⟨⟨hdone, not_le.mp hfits, sendLoop_iff.mp ⟨sock, hsock⟩⟩, rfl,
        (Connection.sendLoop_ok hsock).trans (List.nil_append _)⟩

theorem issue_of_sends (h : Sends host uri s) : ∃ p, issue host uri s = .ok p := by
  obtain ⟨sock, hsock⟩ := sendLoop_iff.mpr h.taken
  rw [issue_eq, if_neg (not_le.mpr h.fits), Connection.connect, h.connects, hsock]
  exact ⟨_, rfl⟩

/-! ## Replies -/

/-- What comes is a complete reply with this body, or one that the close completes. -/
def Answers (polls : List Poll) (body : List UInt8) : Prop :=
  ∃ (w : List UInt8) (r : Response), Response.Heads (.new GET) w r ∧
    ((∃ wire rest, Connection.stream polls = w ++ wire ++ rest ∧ r.Framed wire body rest) ∨
      (Connection.ending polls = some .closed ∧ r.room = none ∧
        Connection.stream polls = w ++ body))

theorem answers_iff {polls : List Poll} {body : List UInt8} :
    Answers polls body ↔
    (∃ rest, (Response.new GET).Completes (Connection.stream polls) body rest) ∨
      (Connection.ending polls = some .closed ∧
        (Response.new GET).Closes (Connection.stream polls) body) := by
  constructor
  · rintro ⟨w, r, hw, ⟨wire, rest, he, hf⟩ | ⟨hclosed, hroom, he⟩⟩
    · exact .inl ⟨rest, (Response.completes_iff GET).mpr ⟨w, wire, r, hw, he, hf⟩⟩
    · exact .inr ⟨hclosed, (Response.closes_iff GET).mpr ⟨w, r, hw, hroom, he⟩⟩
  · rintro (⟨rest, h⟩ | ⟨hclosed, h⟩)
    · obtain ⟨w, wire, r, hw, he, hf⟩ := (Response.completes_iff GET).mp h
      exact ⟨w, r, hw, .inl ⟨wire, rest, he, hf⟩⟩
    · obtain ⟨w, r, hw, hroom, he⟩ := (Response.closes_iff GET).mp h
      exact ⟨w, r, hw, .inr ⟨hclosed, hroom, he⟩⟩

/-- One request is outstanding. -/
theorem pumpAll_one {c : Connection} (hc : c.outstanding = [.new GET]) {polls : List Poll}
    {body : List UInt8} :
    c.pumpAll polls = .ok body ↔ Answers polls body := by
  have hopen : ∀ r ∈ c.outstanding, r.completed = false := by
    rw [hc]
    intro r hr
    rw [List.mem_singleton.mp hr]
    rfl
  rw [Connection.pumpAll_ok hopen, hc, answers_iff]
  refine or_congr (exists_congr fun rest => ?_) (and_congr_right fun _ => ?_)
  · constructor
    · intro h
      cases h with
      | cons hr hnil =>
        cases hnil
        rwa [List.append_nil]
    · intro h
      rw [← List.append_nil body]
      exact .cons h (.nil rest)
  · constructor
    · rintro ⟨answered, r, left, ys, out₁, out₂, he, h₁, h₂, rfl⟩
      obtain ⟨rfl, rfl, rfl⟩ : answered = [] ∧ r = .new GET ∧ left = [] := by
        cases answered with
        | nil => simpa using he.symm
        | cons a answered => simp at he
      cases h₁
      exact h₂
    · intro h
      exact ⟨[], _, [], _, [], body, rfl, .nil _, h, rfl⟩

theorem get_ok {body : List UInt8} : get host uri s = .ok body ↔ Sends host uri s ∧
    Answers s.polls body := by
  constructor
  · intro h
    obtain ⟨p, hp, hbody⟩ := ok_of_bind h
    obtain ⟨hsends, hc, -⟩ := issue_ok hp
    exact ⟨hsends, (pumpAll_one hc).mp hbody⟩
  · rintro ⟨hsends, hanswers⟩
    obtain ⟨p, hp⟩ := issue_of_sends hsends
    rw [get, hp]
    exact (pumpAll_one (issue_ok hp).2.1).mpr hanswers

theorem issue_polls (host uri : List UInt8) (s : Script) (polls : List Poll) :
    issue host uri { s with polls := polls } = issue host uri s := rfl

theorem issue_open {p : Connection × Socket} (h : issue host uri s = .ok p) :
    ∀ r ∈ p.1.outstanding, r.completed = false := by
  rw [(issue_ok h).2.1]
  intro r hr
  rw [List.mem_singleton.mp hr]
  rfl

theorem get_cuts {polls : List Poll} (hstream : Connection.stream polls = Connection.stream s.polls)
    (hending : Connection.ending polls = Connection.ending s.polls) :
    get host uri { s with polls := polls } = get host uri s := by
  rw [get, get, issue_polls]
  cases hp : issue host uri s with
  | error e => rfl
  | ok p =>
    show p.1.pumpAll polls = p.1.pumpAll s.polls
    rw [Connection.pumpAll_eq (issue_open hp),
      Connection.pumpAll_eq (issue_open hp), hstream, hending]

theorem get_conclude (hs : Sends host uri s) :
    get host uri s = (Connection.inTurn.run [.new GET] (Connection.stream s.polls)).bind fun p =>
      Connection.conclude p.out p.state (Connection.ending s.polls) := by
  obtain ⟨p, hp⟩ := issue_of_sends hs
  rw [get, hp, ← (issue_ok hp).2.1]
  exact Connection.pumpAll_eq (issue_open hp) s.polls

/-- A reply that is cut off by the close. -/
theorem get_cut {body ys : List UInt8} (hs : Sends host uri s)
    (hreply : (Response.new GET).Completes (Connection.stream s.polls ++ ys) body [])
    (hys : ys ≠ [])
    (hclosed : Connection.ending s.polls = some .closed) : get host uri s =
      .error (.wobbly .closedUnexpectedly) := by
  obtain ⟨t, out, hrun, ht, hclose⟩ := Response.cut_close hreply hys
  have hto : t.completed = false := by
    rw [← Bool.not_eq_true, Connection.completed_iff]
    exact ht
  have hq : Connection.inTurn.run [.new GET] (Connection.stream s.polls) = .ok ⟨[t], out, []⟩ :=
    Reader.queue_run_on Connection.completed_stops hrun hto []
  rw [get_conclude hs, hq, hclosed]
  show (Response.wobbly t.notifyconnectionclosed).map _ = _
  rw [hclose]
  rfl

/-- **Cuts and pauses of the reply make no difference**, whatever the outcome. -/
theorem httpGet_cuts (host url : List UInt8) (id : UInt32) (s : Script) {polls : List Poll}
    (hstream : Connection.stream polls = Connection.stream s.polls)
    (hending : Connection.ending polls = Connection.ending s.polls) :
    httpTlsGet host url id { s with polls := polls } = httpTlsGet host url id s ∧
      httpProxyGet host url id { s with polls := polls } = httpProxyGet host url id s :=
  ⟨get_cuts hstream hending, get_cuts hstream hending⟩

def statusScript : Script :=
  ⟨⟨.done, []⟩, [100], [.received (ascii "HTTP/1.1 2"), .idle, .received (ascii "00 OK\n\n"),
  .received []]⟩

theorem httpGet_cuts_status :
    httpTlsGet (ascii "h") (ascii "/t") 7 { statusScript with
      polls := [.received (ascii "HTTP/1.1 200 OK\n\n"), .received []] } =
        httpTlsGet (ascii "h") (ascii "/t") 7 statusScript ∧
      httpProxyGet (ascii "h") (ascii "/t") 7 { statusScript with
        polls := [.received (ascii "HTTP/1.1 200 OK\n\n"), .received []] } =
        httpProxyGet (ascii "h") (ascii "/t") 7 statusScript :=
  httpGet_cuts (ascii "h") (ascii "/t") 7 statusScript (by decide) (by decide)

/-- **A body is returned exactly if the request was sent in whole and answered by it.** -/
theorem httpGet_iff (host url : List UInt8) (id : UInt32) (s : Script) (body : List UInt8) :
    (httpTlsGet host url id s = .ok body ↔
        Sends host (url ++ ascii "&node_id=" ++ numeral 10 id.toNat) s ∧ Answers s.polls body) ∧
      (httpProxyGet host url id s = .ok body ↔
        Sends host (url ++ ascii "roomid=" ++ numeral 10 id.toNat) s ∧ Answers s.polls body) :=
  ⟨get_ok, get_ok⟩

end MonitorAgent.L1.Http
