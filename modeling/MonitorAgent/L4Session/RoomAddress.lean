import MonitorAgent.L1Http.Headers
import MonitorAgent.L4Session.ProxyAddress
import MonitorAgent.L4Session.RoomMessages
import MonitorAgent.L4Session.UdpRead

/-!
# Rooms and the web server

`ScreenMgr::OnLinkRoom` (Monitor/Monitor/ScreenMgr.cpp:181-205) with the request it
makes: what the web server answers is parsed, and the room is linked to the proxy
that it names. The server and the network are a script; the memory behind the
answer is what the parser may run on into.

* `onLinkRoomHttp_address`: a room is linked to the proxy that was written, in
  whatever framing and pieces.
* `onLinkRoomHttp_short`: an answer with too few lines changes nothing.
-/
namespace MonitorAgent.L4

open L1.Http L3 Strtok

/-- The bytes of a string. -/
def bytesText (s : List UInt8) : String := String.ofList (s.map fun b => Char.ofNat b.toNat)

namespace ScreenMgr

variable {Title : Type} (s : ScreenMgr) (host url : List UInt8) (script : Script)
  (after : List UInt8)

/-- What `OnLinkRoom` makes of the answer; `none` if the parser leaves the memory that can be read.
mirrors Monitor/Monitor/ScreenMgr.cpp:187-204 -/
def onAnswer (r : RoomRef) (title : Option Title) (response : List UInt8) (connect : PjStatus) :
    Option (ScreenMgr × PjStatus × Option Title) :=
  (parseHttpResponse Text.atoi linkRoomParam response after).map fun (a, status) =>
    s.onLinkRoom r title
      (if status = .success then some (a.proxyId.toNat, bytesText a.proxyIp,
        a.proxyUdpPort.toNat) else none) connect

/-- mirrors Monitor/Monitor/ScreenMgr.cpp:181-205 -/
def onLinkRoomHttp (r : RoomRef) (title : Option Title) (connect : PjStatus) :
    Except Halt (Option (ScreenMgr × PjStatus × Option Title)) :=
  (httpProxyGet host url (UInt32.ofInt (s.w.rooms r).id) script).map fun response =>
    s.onAnswer after r title response connect

end ScreenMgr

/-- An answer with the lines of an address. -/
structure NamesProxy (body : List UInt8) (id : Nat) (ip : List UInt8) (udpPort : Nat) : Prop where
  plain : (0 : UInt8) ∉ body
  lines : ∃ idText tcpText udpText more, finished newline body =
    idText :: ip :: tcpText :: udpText :: more ∧
    Text.Numeral 10 id idText ∧ Text.Numeral 10 udpPort udpText
  ranges : id < 65536 ∧ udpPort < 65536

section Answer

variable {Title : Type} {s : ScreenMgr} {after body : List UInt8} {r : RoomRef}
  {title : Option Title} {connect : PjStatus}

theorem finished_tokens (body : List UInt8) :
    ∃ o, tokens newline body = finished newline body ++ o := by
  obtain ⟨ts, o, hl⟩ := exists_lexed newline body
  exact ⟨_, by rw [hl.tokens_eq, hl.finished_eq]⟩

theorem onAnswer_address {id udpPort : Nat} {ip : List UInt8} (h : NamesProxy body id ip udpPort)
    (hafter : 0 ∈ after) :
    s.onAnswer after r title body connect =
      some (s.onLinkRoom r title (some (id, bytesText ip, udpPort)) connect) := by
  obtain ⟨idText, tcpText, udpText, more, hlines, hid, hudp⟩ := h.lines
  obtain ⟨x, z, rfl, hx⟩ := List.eq_append_cons_of_mem hafter
  obtain ⟨o, htokens⟩ := finished_tokens body
  have hne : body ≠ [] := by
    rintro rfl
    cases hlines
  have hparse : parseHttpResponse Text.atoi linkRoomParam body (x ++ 0 :: z) =
      some (parsed Text.atoi linkRoomParam (tokens newline (body ++ x))) := parse_nul hne h.plain hx
  rw [parsed_finished (by rw [hlines]; simp) x] at hparse
  obtain ⟨hstatus, hvalues⟩ := parses_parsed Text.atoi linkRoomParam (tokens newline body)
  rw [hlines] at htokens
  have hok : (parsed Text.atoi linkRoomParam (tokens newline body)).2 = .success :=
    hstatus.mpr (by rw [htokens]; simp)
  have haddr := hvalues idText ip tcpText udpText (more ++ o) (by rw [htokens]; rfl)
  have hrange : ∀ n : Nat, n < 65536 → n < 2147483648 := fun n hn => by omega
  have hidNat : (UInt16.ofInt (Text.atoi idText)).toNat = id := by
    rw [Text.atoi_numeral hid (hrange id h.ranges.1), Text.toNat_ofInt h.ranges.1]
  have hudpNat : (UInt16.ofInt (Text.atoi udpText)).toNat = udpPort := by
    rw [Text.atoi_numeral hudp (hrange udpPort h.ranges.2), Text.toNat_ofInt h.ranges.2]
  rw [ScreenMgr.onAnswer, hparse, Option.map_some]
  simp only [hok, haddr, if_true, hidNat, hudpNat]

/-- An answer that has not four lines is no address, if a NUL is all that is behind it. -/
theorem onAnswer_short (hne : body ≠ []) (h0 : (0 : UInt8) ∉ body)
    (hlines : (tokens newline body).length < 4)
    (z : List UInt8) : s.onAnswer (0 :: z) r title body connect = some (s, .einval, title) := by
  have hparse : parseHttpResponse Text.atoi linkRoomParam body ([] ++ 0 :: z) =
      some (parsed Text.atoi linkRoomParam (tokens newline (body ++ []))) :=
      parse_nul hne h0 List.not_mem_nil
  rw [List.append_nil] at hparse
  have hstatus := (parses_parsed Text.atoi linkRoomParam (tokens newline body)).status
  have hbad : (parsed Text.atoi linkRoomParam (tokens newline body)).2 ≠ .success := fun h => by
    have := hstatus.mp h
    omega
  rw [ScreenMgr.onAnswer]
  show (parseHttpResponse Text.atoi linkRoomParam body ([] ++ 0 :: z)).map _ = _
  rw [hparse, Option.map_some]
  simp only [hbad, if_false]
  rfl

/-- The room waits at a new proxy, which is logged in to. -/
theorem linkRoom_fresh {id : Nat} (r : RoomRef) (title : Option Title) (ip : String) (udpPort : Nat)
    (hfree : s.linkedProxys.find? id = none)
    (hsend : s.w.sendOk s.w.sends = true) :
    ∃ s', s.onLinkRoom r title (some (id, ip, udpPort)) .success = (s', .success, none) ∧
      s'.linkedProxys.find? id = some s.nextProxy ∧
      s'.w.proxies s.nextProxy = { ScreenMgr.newProxy id ip udpPort with
        status := .logining, waitsRooms := [r] } := by
  have hadd := ScreenMgr.addProxy_eq s hfree ip udpPort
  generalize hw :
      s.w.modifyProxy s.nextProxy (fun _ => ScreenMgr.newProxy id ip udpPort) = w at hadd
  have hp : w.proxies s.nextProxy = ScreenMgr.newProxy id ip udpPort := by
    rw [← hw, World.modifyProxy_proxies, if_pos rfl]
  have hsends : w.sendOk w.sends = true := by
    rw [← hw]
    exact hsend
  have hlogin : w.login s.nextProxy =
      ({ w with sends := w.sends + 1, sent := w.sent ++ [w.loginPacket s.nextProxy] }.setStatus
        s.nextProxy .logining,
        .success) := by
    simp [World.login, hp, ScreenMgr.newProxy, World.sendLogin, World.sendPacket, hsends]
  generalize hw' : ({ w with sends := w.sends + 1, sent := w.sent ++
    [w.loginPacket s.nextProxy] } : World).setStatus
    s.nextProxy .logining = w' at hlogin
  have hp' : w'.proxies s.nextProxy =
    { ScreenMgr.newProxy id ip udpPort with status := .logining } := by
    rw [← hw', World.setStatus, World.modifyProxy_proxies, if_pos rfl]
    show { w.proxies s.nextProxy with status := .logining } = _
    rw [hp]
  have hlink : w'.linkRoom s.nextProxy r = (w'.pushWaits s.nextProxy r, .success) := by
    rw [World.linkRoom, if_neg (by rw [hp']; simp)]
  refine ⟨{ s with
    w := w'.pushWaits s.nextProxy r
    linkedProxys := s.linkedProxys.insert id s.nextProxy
    nextProxy := s.nextProxy + 1
    tcpEv := Function.update s.tcpEv s.nextProxy .null
    pipe := s.pipe ++ [.connProxy s.nextProxy] }, ?_, ?_, ?_⟩
  · simp [ScreenMgr.onLinkRoom, ScreenMgr.linkRoom, ScreenMgr.getProxy, hfree,
      ScreenMgr.linkNew, hadd, hlogin,
      ScreenMgr.linkThrough, hlink, ScreenMgr.setWorld]
  · simp [StdMap.find?_insert, hfree]
  · show (w'.pushWaits s.nextProxy r).proxies s.nextProxy = _
    rw [World.pushWaits, World.modifyProxy_proxies, if_pos rfl, hp']
    simp [ScreenMgr.newProxy]

end Answer

/-- **A room is linked to the proxy that the server wrote**, in whatever
framing and pieces the answer comes. -/
theorem onLinkRoomHttp_address {Title : Type} (s : ScreenMgr)
    (host url : List UInt8) (script : Script)
    (after : List UInt8) (r : RoomRef) (title : Option Title)
    (hsends : Sends host (url ++ Text.ascii "roomid=" ++
      Text.numeral 10 (UInt32.ofInt (s.w.rooms r).id).toNat) script)
    (w : Written) (hw : w.Arrives script.polls) (id udpPort : Nat) (ip : List UInt8)
    (h : NamesProxy w.body id ip udpPort) (hafter : 0 ∈ after) (connect : PjStatus) :
    s.onLinkRoomHttp host url script after r title connect =
        .ok (some (s.onLinkRoom r title (some (id, bytesText ip, udpPort)) connect)) ∧
      (s.linkedProxys.find? id = none → connect = .success → s.w.sendOk s.w.sends = true →
        ∃ s', s.onLinkRoomHttp host url script after r title connect =
        .ok (some (s', .success, none)) ∧
          s'.linkedProxys.find? id = some s.nextProxy ∧
          s'.w.proxies s.nextProxy =
            { ScreenMgr.newProxy id (bytesText ip) udpPort with
              status := .logining, waitsRooms := [r] }) := by
  have hget : httpProxyGet host url (UInt32.ofInt (s.w.rooms r).id) script = .ok w.body :=
    get_ok.mpr ⟨hsends, written_answers w hw⟩
  have hall : s.onLinkRoomHttp host url script after r title connect =
      .ok (some (s.onLinkRoom r title (some (id, bytesText ip, udpPort)) connect)) := by
    rw [ScreenMgr.onLinkRoomHttp, hget]
    exact congrArg Except.ok (onAnswer_address h hafter)
  refine ⟨hall, ?_⟩
  rintro hfree rfl hsend
  obtain ⟨s', hs', hp⟩ := linkRoom_fresh r title (bytesText ip) udpPort hfree hsend
  exact ⟨s', by rw [hall, hs'], hp⟩

def addressChunk : Chunk where
  size := crlf (Text.ascii "17") (by decide +kernel)
  data := fullReply
  ending := emptyLine
  counts := by decide +kernel
  ne_nil := by decide +kernel

def addressBody : ChunkedBody :=
  ⟨[addressChunk], crlf (Text.ascii "00") (by decide +kernel), by decide +kernel,
  helloBody.trailers⟩

/-- `fullReply` under the head of a reply in chunks. -/
def addressReply : Written where
  interims := []
  head := okHead
  wire := addressBody.wire
  body := addressBody.data
  closes := false
  interim := helloReply.interim
  last := helloReply.last
  framed := .chunked addressBody okHead_chunked

def addressScript : Script :=
  ⟨⟨.done, []⟩, [200], [.received (addressReply.text.take 50),
  .received (addressReply.text.drop 50)]⟩

theorem onLinkRoomHttp_address_full :
    ∃ s', ScreenMgr.launched.onLinkRoomHttp (Text.ascii "web") (Text.ascii "/room?")
        addressScript [3, 0] 5 (some ()) .success = .ok (some (s', .success, none)) ∧
      s'.linkedProxys.find? 7 = some 0 ∧
      s'.w.proxies 0 =
        { ScreenMgr.newProxy 7 (bytesText (Text.ascii "10.0.0.7")) 13001 with
          status := .logining, waitsRooms := [5] } :=
  (onLinkRoomHttp_address ScreenMgr.launched (Text.ascii "web") (Text.ascii "/room?")
    addressScript [3, 0] 5 (some ()) ⟨rfl, by decide +kernel, by decide +kernel⟩ addressReply
    ⟨[], by decide +kernel⟩
    7 13001 (Text.ascii "10.0.0.7")
    ⟨by decide +kernel, ⟨Text.ascii "7", Text.ascii "12001", Text.ascii "13001",
      [], by decide +kernel, ⟨by decide +kernel, by decide +kernel, by decide +kernel⟩,
      ⟨by decide +kernel, by decide +kernel, by decide +kernel⟩⟩, by
      decide +kernel⟩ (by decide +kernel) .success).2 rfl rfl rfl

/-- **An answer with too few lines changes nothing**, and the one who asked is
told to go on: it is refused if a NUL is all that is behind it. -/
theorem onLinkRoomHttp_short {Title : Type} (s : ScreenMgr) (host url : List UInt8)
    (script : Script) (r : RoomRef)
    (title : Option Title)
    (hsends : Sends host (url ++ Text.ascii "roomid=" ++
      Text.numeral 10 (UInt32.ofInt (s.w.rooms r).id).toNat) script)
    (w : Written) (hw : w.Arrives script.polls) (h0 : (0 : UInt8) ∉ w.body)
    (hlines : (tokens newline w.body).length < 4) (z : List UInt8) (connect : PjStatus) :
    s.onLinkRoomHttp host url script (0 :: z) r title connect = .ok (some (s, .einval, title)) := by
  have hget : httpProxyGet host url (UInt32.ofInt (s.w.rooms r).id) script = .ok w.body :=
    get_ok.mpr ⟨hsends, written_answers w hw⟩
  rw [ScreenMgr.onLinkRoomHttp, hget]
  by_cases hne : w.body = []
  · rw [hne]
    rfl
  · exact congrArg Except.ok (onAnswer_short hne h0 hlines z)

theorem onLinkRoomHttp_short_hello :
    ScreenMgr.launched.onLinkRoomHttp (Text.ascii "h") (Text.ascii "/?") helloScript [0] 5
    (some ()) .success =
      .ok (some (ScreenMgr.launched, .einval, some ())) :=
  onLinkRoomHttp_short ScreenMgr.launched (Text.ascii "h") (Text.ascii "/?") helloScript 5
    (some ()) ⟨rfl, by decide +kernel, by decide +kernel⟩ helloReply ⟨[], by decide +kernel⟩
    (by decide +kernel) (by decide +kernel) []
    .success

end MonitorAgent.L4
