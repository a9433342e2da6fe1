import MonitorAgent.Core.Strtok
import MonitorAgent.L3Wall.World

/-!
# The address of a proxy

`ScreenMgr::ParseHttpResponse` (Monitor/Monitor/ScreenMgr.cpp:449-482) over the
bytes that `OnData` collected (Monitor/Monitor/Com.cpp:167-171). The reply is not
terminated, and after the last field `strtok_s` is called once more.

* `parse_fetch`: the loop over a string that a NUL ends, or with tokens to spare.
* `replyAlone_iff`: the reply alone decides, exactly if it has five finished
  tokens; if a NUL is known to follow, exactly if it has four, or its fourth is a
  port that no bytes behind it change.
* `cutReply_completed`: a reply without the last port, completed by what follows.
-/
namespace MonitorAgent.L4

open L3 Strtok

/-- What the caller gets. -/
structure ProxyAddress where
  proxyId : UInt16
  proxyIp : List UInt8
  proxyTcpPort : UInt16
  proxyUdpPort : UInt16
deriving DecidableEq

/-- `delim`. -/
def newline : List UInt8 := [10]

def TOKEN_SIZE : Nat := 4

section Parse

variable (atoi : List UInt8 → Int)

/-- The `switch`, with the index of the token.
mirrors Monitor/Monitor/ScreenMgr.cpp:463-477 -/
def ProxyAddress.assign (a : ProxyAddress) (i : Nat) (s : List UInt8) : ProxyAddress :=
  match i with
  | 0 => { a with proxyId := .ofInt (atoi s) }
  | 1 => { a with proxyIp := s }
  | 2 => { a with proxyTcpPort := .ofInt (atoi s) }
  | 3 => { a with proxyUdpPort := .ofInt (atoi s) }
  | _ => a

/-- The loop after a call of `strtok_s`; `n` is `TOKEN_SIZE - i`.
mirrors Monitor/Monitor/ScreenMgr.cpp:461-479 -/
def parseLoop : Nat → Nat → ProxyAddress → Call → Option (ProxyAddress × Nat)
  | 0, i, a, _ => some (a, i)
  | n + 1, i, a, call =>
    match call.token with
    | none => some (a, i)
    | some s => (strtokS newline call.mem call.next).bind
        (parseLoop n (i + 1) (a.assign atoi i (cstr call.mem s)))

/-- `a` is what the caller passes in, `after` the memory behind the reply as far as
it can be read.
mirrors Monitor/Monitor/ScreenMgr.cpp:449-482 -/
def parseHttpResponse (a : ProxyAddress) (response after : List UInt8) :
    Option (ProxyAddress × PjStatus) :=
  if response = [] then some (a, .einval)
  else ((strtokS newline (response ++ after) 0).bind (parseLoop atoi TOKEN_SIZE 0 a)).map
    fun (a, i) =>
    (a, if i = TOKEN_SIZE then .success else .einval)

/-- What is parsed of a reply with these tokens. -/
structure Parses (tokens : List (List UInt8)) (r : ProxyAddress × PjStatus) : Prop where
  status : r.2 = .success ↔ 4 ≤ tokens.length
  values : ∀ id ip tcpPort udpPort more, tokens = id :: ip :: tcpPort :: udpPort :: more →
    r.1 = ⟨.ofInt (atoi id), ip, .ofInt (atoi tcpPort), .ofInt (atoi udpPort)⟩

/-- Whatever follows the reply, of these contents, what is parsed is the same, and
it is what the reply says. -/
structure ReplyAlone (a : ProxyAddress) (reply : List UInt8) (contents : List UInt8 → Prop) :
    Prop where
  alone : ∀ m m', contents m → contents m' →
    parseHttpResponse atoi a reply m = parseHttpResponse atoi a reply m'
  parsed : ∀ m, contents m → ∃ r, parseHttpResponse atoi a reply m = some r ∧
    Parses atoi (tokens newline reply) r

/-- The fourth token is the last, and as a port it is the same with more bytes. -/
def PortEnds (reply : List UInt8) : Prop :=
  ∃ id ip tcpPort udpPort, tokens newline reply = [id, ip, tcpPort, udpPort] ∧
    ∀ x : List UInt8, 0 ∉ x → 10 ∉ x → UInt16.ofInt (atoi (udpPort ++ x)) = .ofInt (atoi udpPort)

/-! ## The loop -/

/-- The fields of these tokens, the first having this index. -/
def ProxyAddress.fill (a : ProxyAddress) : Nat → List (List UInt8) → ProxyAddress
  | _, [] => a
  | i, t :: ts => (a.assign atoi i t).fill (i + 1) ts

variable {atoi}

theorem nul_not_newline : (0 : UInt8) ∉ newline := by decide

section Loop

variable {mem : List UInt8} {next n i : Nat} {a : ProxyAddress} {call : Call}

theorem loop_null (h : strtokS newline mem next = some call) (hnone : call.token = none) :
    (strtokS newline mem next).bind (parseLoop atoi n i a) = some (a, i) := by
  rw [h, Option.bind_some]
  cases n with
  | zero => rfl
  | succ n => rw [parseLoop, hnone]

/-- `i` is `TOKEN_SIZE`, so the token is not looked at. -/
theorem loop_full (h : strtokS newline mem next = some call) :
    (strtokS newline mem next).bind (parseLoop atoi 0 i a) = some (a, i) := by
  rw [h]
  rfl

theorem loop_token (h : strtokS newline mem next = some call) {t : List UInt8}
    (ht : ∃ s ∈ call.token, cstr call.mem s = t) :
    (strtokS newline mem next).bind (parseLoop atoi (n + 1) i a) =
      (strtokS newline call.mem call.next).bind (parseLoop atoi n (i + 1) (a.assign atoi i t)) := by
  obtain ⟨s, hs, rfl⟩ := ht
  rw [h, Option.bind_some, parseLoop, hs]

/-- `strtok_s` and the loop, over a string that a NUL ends, or with a finished token
left for the last call. -/
theorem parse_fetch {str o y : List UInt8} {ts : List (List UInt8)} (hl : Lexed newline str ts o)
    (h0 : 0 ∉ str) (hmem : mem.drop next = str ++ y) (hend : (∃ z, y = 0 :: z) ∨ n < ts.length) :
    (strtokS newline mem next).bind (parseLoop atoi n i a) =
      some (a.fill atoi i ((tokens newline str).take n),
        i + min n (tokens newline str).length) := by
  rw [hl.tokens_eq]
  induction hl generalizing mem next n i a with
  | @rest ds o hds ho =>
    obtain ⟨z, rfl⟩ := hend.resolve_right (Nat.not_lt_zero n)
    rw [List.append_assoc] at hmem
    have ha := Ahead.nul hmem hds ho fun hz => h0 (List.mem_append_right _ hz)
    obtain ⟨call, hcall, hdrop, hnull, htoken⟩ := strtokS_nul nul_not_newline ha
    by_cases hne : o = []
    · rw [loop_null hcall (hnull hne), if_pos hne]
      simp [ProxyAddress.fill]
    · rw [if_neg hne]
      cases n with
      | zero =>
        rw [loop_full hcall]
        simp [ProxyAddress.fill]
      | succ n =>
        -- the call at the NUL itself
        have ha' : Ahead newline call.mem call.next [] [] (0 :: z) :=
          .nul hdrop (fun _ hb => nomatch hb) (fun _ hb => nomatch hb) List.not_mem_nil
        obtain ⟨call', hcall', -, hnull', -⟩ := strtokS_nul nul_not_newline ha'
        rw [loop_token hcall (htoken hne), loop_null hcall' (hnull' rfl)]
        simp [ProxyAddress.fill]
  | @token ds t str o d ts hds ht hne hd hl ih =>
    have hmem' : mem.drop next = ds ++ (t ++ d :: (str ++ y)) := by simp [hmem]
    have ha := Ahead.delim hmem' hds ht (fun hz => h0 (by simp [hz])) hne hd
    obtain ⟨call, hcall, hdrop, htoken⟩ := strtokS_delim nul_not_newline ha hd
    cases n with
    | zero =>
      rw [loop_full hcall]
      simp [ProxyAddress.fill]
    | succ n =>
      have hend' : (∃ z, y = 0 :: z) ∨ n < ts.length := hend.imp_right Nat.lt_of_succ_lt_succ
      rw [loop_token hcall htoken, ih (fun hmem0 => h0 (by simp [hmem0])) hdrop hend',
        List.cons_append,
        List.take_succ_cons, List.length_cons, ProxyAddress.fill, Nat.succ_min_succ,
        Nat.succ_eq_add_one,
        Nat.add_right_comm, Nat.add_assoc i]

/-- In memory that ends behind the string there has to be a finished token for each
call. -/
theorem finished_of_fetch {str o : List UInt8} {ts : List (List UInt8)}
    (hl : Lexed newline str ts o)
    (h0 : 0 ∉ str) (hmem : mem.drop next = str) {r : ProxyAddress × Nat}
    (h : (strtokS newline mem next).bind (parseLoop atoi n i a) = some r) : n < ts.length := by
  induction hl generalizing mem next n i a with
  | @rest ds o hds ho =>
    have ha := Ahead.nothing hmem hds ho fun hz => h0 (List.mem_append_right _ hz)
    rw [strtokS_past nul_not_newline ha] at h
    cases h
  | @token ds t str o d ts hds ht hne hd hl ih =>
    have ha := Ahead.delim hmem hds ht (fun hz => h0 (by simp [hz])) hne hd
    obtain ⟨call, hcall, hdrop, htoken⟩ := strtokS_delim nul_not_newline ha hd
    cases n with
    | zero => exact Nat.succ_pos _
    | succ n =>
      rw [loop_token hcall htoken] at h
      exact Nat.succ_lt_succ (ih (fun hmem0 => h0 (by simp [hmem0])) hdrop h)

end Loop

/-! ## What is parsed -/

variable {reply after : List UInt8} {a : ProxyAddress}

/-- The outcome, for these tokens. -/
def parsed (atoi : List UInt8 → Int) (a : ProxyAddress) (ts : List (List UInt8)) :
    ProxyAddress × PjStatus :=
  (a.fill atoi 0 (ts.take TOKEN_SIZE), if min TOKEN_SIZE ts.length = TOKEN_SIZE then
    .success else .einval)

theorem parses_parsed (atoi : List UInt8 → Int) (a : ProxyAddress) (ts : List (List UInt8)) :
    Parses atoi ts (parsed atoi a ts) := by
  constructor
  · show (if min 4 ts.length = 4 then PjStatus.success else .einval) = .success ↔ 4 ≤ ts.length
    split
    · exact iff_of_true rfl (by omega)
    · exact iff_of_false (fun e => nomatch e) (by omega)
  · rintro id ip tcpPort udpPort more rfl
    rfl

theorem parse_eq (hne : reply ≠ []) {r : Option (ProxyAddress × Nat)}
    (h : (strtokS newline (reply ++ after) 0).bind (parseLoop atoi TOKEN_SIZE 0 a) = r) :
    parseHttpResponse atoi a reply after =
      r.map fun (a, i) => (a, if i = TOKEN_SIZE then .success else .einval) := by
  rw [parseHttpResponse, if_neg hne, h]

/-- A NUL follows: the tokens up to there. -/
theorem parse_nul (hne : reply ≠ []) (h0 : 0 ∉ reply) {x z : List UInt8} (hx : 0 ∉ x) :
    parseHttpResponse atoi a reply (x ++ 0 :: z) =
    some (parsed atoi a (tokens newline (reply ++ x))) := by
  obtain ⟨ts, o, hl⟩ := exists_lexed newline (reply ++ x)
  have h0' : 0 ∉ reply ++ x := fun h => (List.mem_append.mp h).elim h0 hx
  have hmem : (reply ++ (x ++ 0 :: z)).drop 0 = (reply ++ x) ++ 0 :: z := by simp
  rw [parse_eq hne (parse_fetch hl h0' hmem (.inl ⟨z, rfl⟩)), Option.map_some, Nat.zero_add]
  rfl

/-- Five finished tokens: no call gets to the end of the reply. -/
theorem parse_finished (hne : reply ≠ []) (h0 : 0 ∉ reply)
    (hfive : 5 ≤ (finished newline reply).length) :
    parseHttpResponse atoi a reply after = some (parsed atoi a (tokens newline reply)) := by
  obtain ⟨ts, o, hl⟩ := exists_lexed newline reply
  rw [hl.finished_eq] at hfive
  rw [parse_eq hne (parse_fetch hl h0 (List.drop_zero) (.inr hfive)), Option.map_some, Nat.zero_add]
  rfl

/-- Nothing can be read behind the reply. -/
theorem parse_nothing (hne : reply ≠ []) (h0 : 0 ∉ reply) {r : ProxyAddress × PjStatus}
    (h : parseHttpResponse atoi a reply [] = some r) : 5 ≤ (finished newline reply).length := by
  obtain ⟨ts, o, hl⟩ := exists_lexed newline reply
  rw [parse_eq hne rfl] at h
  obtain ⟨r', hr', -⟩ := Option.map_eq_some_iff.mp h
  rw [hl.finished_eq]
  exact finished_of_fetch hl h0 (by simp) hr'

/-! ## What follows the reply -/

theorem parsed_eq_of_values {ts ts' : List (List UInt8)} (hlen : 4 ≤ ts.length)
    (hlen' : 4 ≤ ts'.length)
    (hfill : a.fill atoi 0 (ts.take 4) = a.fill atoi 0 (ts'.take 4)) :
    parsed atoi a ts = parsed atoi a ts' := by
  show (_, (if min 4 ts.length = 4 then PjStatus.success else .einval)) =
    (_, (if min 4 ts'.length = 4 then PjStatus.success else .einval))
  rw [if_pos (by omega), if_pos (by omega)]
  exact congrArg (·, _) hfill

/-- Four finished tokens are the same with anything behind the reply. -/
theorem parsed_finished (h : 4 ≤ (finished newline reply).length) (x : List UInt8) :
    parsed atoi a (tokens newline (reply ++ x)) = parsed atoi a (tokens newline reply) := by
  obtain ⟨ts, o, hl⟩ := exists_lexed newline reply
  rw [hl.finished_eq] at h
  rw [hl.tokens_append x, hl.tokens_eq]
  refine parsed_eq_of_values ?_ ?_ ?_
  · rw [List.length_append]
    omega
  · rw [List.length_append]
    omega
  · rw [List.take_append_of_le_length h, List.take_append_of_le_length h]

/-- Bytes behind the port are in its token up to the next newline. -/
theorem parsed_portEnds (h : PortEnds atoi reply) {x : List UInt8} (hx : 0 ∉ x) :
    parsed atoi a (tokens newline (reply ++ x)) = parsed atoi a (tokens newline reply) := by
  by_cases hfour : 4 ≤ (finished newline reply).length
  · exact parsed_finished hfour x
  · obtain ⟨id, ip, tcpPort, udpPort, htokens, hport⟩ := h
    obtain ⟨ts, o, hl⟩ := exists_lexed newline reply
    rw [hl.finished_eq] at hfour
    have hlen := congrArg List.length htokens
    rw [hl.tokens_eq, List.length_append] at hlen
    by_cases ho : o = []
    · rw [if_pos ho] at hlen
      simp only [List.length_nil, List.length_cons] at hlen
      omega
    · rw [hl.tokens_eq, if_neg ho] at htokens
      obtain ⟨rfl, he⟩ : ts = [id, ip, tcpPort] ∧ [o] = [udpPort] :=
        List.append_inj' htokens rfl
      obtain rfl : o = udpPort := List.singleton_inj.mp he
      obtain ⟨ys, more, hgrow, hys⟩ := tokens_grow (fun b hb => (hl.open_noDelim b hb).1) ho x
      rw [hl.tokens_append x, hgrow, hl.tokens_eq, if_neg ho]
      refine parsed_eq_of_values (by simp) (by simp) ?_
      have hsame := hport ys (fun h0 => hx (hys 0 h0).2) (fun h10 => (hys 10 h10).1 (by decide))
      show (ProxyAddress.mk _ _ _ _) = ProxyAddress.mk _ _ _ _
      rw [hsame]

/-- The tokens of any reply can be made four by what follows it. -/
theorem exists_completion (reply : List UInt8) :
    ∃ x : List UInt8, 0 ∉ x ∧ 4 ≤ (tokens newline (reply ++ x)).length := by
  refine ⟨[10, 49, 10, 49, 10, 49, 10, 49], by decide, ?_⟩
  have hd : (10 : UInt8) ∈ newline := by decide
  have hfour : (tokens newline [49, 10, 49, 10, 49, 10, 49]).length = 4 := by decide
  rw [tokens_append_cons hd, List.length_append, hfour]
  omega

theorem replyAlone_of_parsed (hne : reply ≠ []) (h0 : 0 ∉ reply)
    (h : ∀ x, 0 ∉ x →
      parsed atoi a (tokens newline (reply ++ x)) = parsed atoi a (tokens newline reply)) :
    ReplyAlone atoi a reply (0 ∈ ·) := by
  have hparse : ∀ m : List UInt8, 0 ∈ m →
      parseHttpResponse atoi a reply m = some (parsed atoi a (tokens newline reply)) := by
    intro m hm
    obtain ⟨x, z, rfl, hx⟩ := List.eq_append_cons_of_mem hm
    rw [parse_nul hne h0 hx, h x hx]
  exact ⟨fun m m' hm hm' => (hparse m hm).trans (hparse m' hm').symm,
    fun m hm => ⟨_, hparse m hm, parses_parsed atoi a _⟩⟩

/-- Without four finished tokens the port is the open end of the reply. -/
theorem portEnds_of_replyAlone (hne : reply ≠ []) (h0 : 0 ∉ reply)
    (h : ReplyAlone atoi a reply (0 ∈ ·)) (hfour : ¬ 4 ≤ (finished newline reply).length) :
    PortEnds atoi reply := by
  have hsame : ∀ x : List UInt8, 0 ∉ x → Parses atoi (tokens newline reply)
      (parsed atoi a (tokens newline (reply ++ x))) := by
    intro x hx
    obtain ⟨r, hr, hparses⟩ := h.parsed (x ++ [0]) (by simp)
    rw [parse_nul hne h0 hx] at hr
    cases hr
    exact hparses
  have hlen : 4 ≤ (tokens newline reply).length := by
    obtain ⟨x, hx, hx4⟩ := exists_completion reply
    exact (hsame x hx).status.mp ((parses_parsed atoi a _).status.mpr hx4)
  obtain ⟨ts, o, hl⟩ := exists_lexed newline reply
  rw [hl.finished_eq] at hfour
  rw [hl.tokens_eq, List.length_append] at hlen
  by_cases ho : o = []
  · rw [if_pos ho] at hlen
    simp only [List.length_nil] at hlen
    omega
  · rw [if_neg ho, List.length_singleton] at hlen
    obtain ⟨id, ip, tcpPort, rfl⟩ : ∃ id ip tcpPort, ts = [id, ip, tcpPort] :=
      List.length_eq_three.mp (by omega)
    have htokens : tokens newline reply = [id, ip, tcpPort, o] := by
      rw [hl.tokens_eq, if_neg ho]
      rfl
    refine ⟨id, ip, tcpPort, o, htokens, fun x hx hx10 => ?_⟩
    have hopen : ∀ b ∈ o ++ x, b ∉ newline := by
      intro b hb
      rcases List.mem_append.mp hb with hb | hb
      · exact (hl.open_noDelim b hb).1
      · exact fun hnew => hx10 (List.mem_singleton.mp hnew ▸ hb)
    have hlonger : tokens newline (reply ++ x) = [id, ip, tcpPort, o ++ x] := by
      rw [hl.tokens_append x, (tokens_noDelim hopen).1,
        if_neg (List.append_ne_nil_of_left_ne_nil ho x)]
      rfl
    have hvalues := (hsame x hx).values id ip tcpPort o [] htokens
    rw [hlonger] at hvalues
    exact congrArg ProxyAddress.proxyUdpPort hvalues

/-- **The reply alone decides.** Over any memory behind it, and over any that has a
NUL, exactly for the replies that say so. -/
theorem replyAlone_iff (atoi : List UInt8 → Int) (a : ProxyAddress) {reply : List UInt8}
    (hne : reply ≠ []) (h0 : 0 ∉ reply) :
    (ReplyAlone atoi a reply (fun _ => True) ↔ 5 ≤ (finished newline reply).length) ∧
      (ReplyAlone atoi a reply (0 ∈ ·) ↔
        4 ≤ (finished newline reply).length ∨ PortEnds atoi reply) := by
  constructor
  · constructor
    · intro h
      obtain ⟨r, hr, -⟩ := h.parsed [] trivial
      exact parse_nothing hne h0 hr
    · intro hfive
      exact ⟨fun m m' _ _ => by rw [parse_finished hne h0 hfive, parse_finished hne h0 hfive],
        fun m _ => ⟨_, parse_finished hne h0 hfive, parses_parsed atoi a _⟩⟩
  · constructor
    · intro h
      by_cases hfour : 4 ≤ (finished newline reply).length
      · exact .inl hfour
      · exact .inr (portEnds_of_replyAlone hne h0 h hfour)
    · rintro (hfour | hport)
      · exact replyAlone_of_parsed hne h0 fun x _ => parsed_finished hfour x
      · exact replyAlone_of_parsed hne h0 fun x hx => parsed_portEnds hport hx

end Parse

/-! ## Replies -/

/-- `atoi` of a number that begins with a digit. -/
def decimal (s : List UInt8) : Int :=
  (s.takeWhile fun b => decide (48 ≤ b ∧ b ≤ 57)).foldl (fun v b => v * 10 + (b.toNat - 48)) 0

/-- What `OnLinkRoom` passes in.
mirrors Monitor/Monitor/ScreenMgr.cpp:188 -/
def linkRoomParam : ProxyAddress :=
  ⟨100, [49, 57, 50, 46, 49, 54, 56, 46, 54, 46, 52, 48], 12000, 13000⟩

/-- Proxy 7 at 10.0.0.7, with both ports. -/
def fullReply : List UInt8 :=
  [55, 10, 49, 48, 46, 48, 46, 48, 46, 55, 10, 49, 50, 48, 48, 49, 10, 49, 51, 48, 48, 49, 10]

/-- The same without the last port. -/
def cutReply : List UInt8 := fullReply.take 17

theorem replyAlone_iff_fullReply :
    ReplyAlone decimal linkRoomParam fullReply (0 ∈ ·) ∧
      ¬ ReplyAlone decimal linkRoomParam fullReply (fun _ => True) := by
  have hiff := replyAlone_iff decimal linkRoomParam (by decide : fullReply ≠ []) (by decide)
  exact ⟨hiff.2.mpr (.inl (by decide)), fun h => absurd (hiff.1.mp h) (by decide)⟩

/-- With a NUL behind it the reply is refused; with the bytes of a port it is the
address of a proxy. -/
theorem cutReply_completed : cutReply ≠ [] ∧ 0 ∉ cutReply ∧
    (parseHttpResponse decimal linkRoomParam cutReply [0]).map Prod.snd = some .einval ∧
      parseHttpResponse decimal linkRoomParam cutReply [57, 10, 0] =
        some (⟨7, [49, 48, 46, 48, 46, 48, 46, 55], 12001, 9⟩, .success) ∧
      ¬ ReplyAlone decimal linkRoomParam cutReply (fun _ => True) ∧
      ¬ ReplyAlone decimal linkRoomParam cutReply (0 ∈ ·) := by
  have hnul : (parseHttpResponse decimal linkRoomParam cutReply [0]).map Prod.snd =
    some .einval := by
    decide +kernel
  have hport : parseHttpResponse decimal linkRoomParam cutReply [57, 10, 0] =
      some (⟨7, [49, 48, 46, 48, 46, 48, 46, 55], 12001, 9⟩, .success) := by
    decide +kernel
  have hdiffer (h : parseHttpResponse decimal linkRoomParam cutReply [0] =
      parseHttpResponse decimal linkRoomParam cutReply [57, 10, 0]) : False := by
    rw [h, hport] at hnul
    cases hnul
  exact ⟨by decide, by decide, hnul, hport, fun h => hdiffer (h.alone _ _ trivial trivial),
    fun h => hdiffer (h.alone _ _ (by decide) (by decide))⟩

end MonitorAgent.L4
