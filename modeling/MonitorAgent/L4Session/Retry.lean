import MonitorAgent.L3Wall.Bijection
import MonitorAgent.L4Session.RoomMessages

/-!
# Linking through a proxy again after a failure

`ScreenMgr::LinkRoom` files a new proxy before it logs in, and does not take
it out again when the login request cannot be sent. The next call finds the
proxy and has its room wait for an answer to a request that was never made.

* `retriable_iff`: along a run every linked proxy has had its login request
  sent, every room waits at such a proxy and every failed link connects anew iff
  no call fails on the login request; in any state a failed call leaves the
  linked proxies as they were iff it did not fail there.
* `queued_forever`: the failing call and the one after it.
-/
namespace MonitorAgent.L4

open MonitorAgent.L3 LTS

/-- Calls of the window, the event thread and the scene worker. -/
inductive MgrOp
  | linkRoom (param : LinkRoomParam) (connect : PjStatus)
  | onUnlinkRoom (room : RoomRef)
  | tcpClosed (conn : ProxyRef)
  | delAllProxys
  | frame (proxyId : Nat) (scene : Scene)
  | eventOnPipe (allocated added : Bool)
  | worker

/-- A frame of an id that is not linked is dropped. -/
def mgrStep (s : ScreenMgr) : MgrOp → Option ScreenMgr
  | .linkRoom param connect => some (s.linkRoom param connect).1
  | .onUnlinkRoom r => some (s.onUnlinkRoom r).1
  | .tcpClosed p => some ((s.closeTcp p).delProxy p).1
  | .delAllProxys => some s.delAllProxys
  | .frame proxyId scene =>
    match s.getProxy proxyId with
    | none => some s
    | some p => some { s with scenes := s.scenes ++ [.maintain scene p] }
  | .eventOnPipe allocated added =>
    match s.pipe with
    | [] => none
    | .connProxy p :: rest => some ({ s with pipe := rest }.connProxy p allocated added)
    | .discProxy p :: rest => some ({ s with pipe := rest }.discProxy p)
  | .worker =>
    match s.scenes with
    | [] => none
    | t :: rest => (t.run s.w).map fun w => { s with w := w, scenes := rest }

/-- Nothing linked, nothing queued. -/
structure Started (s : ScreenMgr) : Prop where
  linkedProxys : s.linkedProxys = .empty
  pipe : s.pipe = []
  scenes : s.scenes = []

def mgrSys : LTS ScreenMgr MgrOp := .ofFn Started mgrStep

/-! ## Packets are not taken back -/

def SentKept (w w' : World) : Prop := ∀ packet ∈ w.sent, packet ∈ w'.sent

namespace SentKept

variable {w w' w'' : World}

theorem of_eq (h : w'.sent = w.sent) : SentKept w w' := fun _ hm => by rwa [h]

theorem trans (h : SentKept w w') (h' : SentKept w' w'') : SentKept w w'' :=
  fun _ hm => h' _ (h _ hm)

theorem send (w : World) (packet : Packet) : SentKept w (w.sendPacket packet).1 := by
  unfold World.sendPacket
  split
  · exact fun _ hm => List.mem_append_left _ hm
  · exact of_eq rfl

theorem callFrame (p : ProxyRef) : CallFrame p SentKept where
  refl _ := of_eq rfl
  trans := trans
  send := send
  proxy _ _ _ := of_eq rfl
  create _ _ := of_eq rfl

theorem teardownFrame : TeardownFrame SentKept where
  refl _ := of_eq rfl
  trans := trans
  screen w s := by
    unfold World.disconnectUser
    split <;> exact of_eq rfl
  room _ _ _ _ := of_eq rfl
  delete _ _ := of_eq rfl

theorem sceneFrame (p : ProxyRef) : SceneFrame p SentKept where
  call := callFrame p
  teardown := teardownFrame
  addUser w r userId micId := by
    refine of_eq ?_
    unfold World.addUser
    split <;> dsimp only <;> split <;> rfl
  modUser w user a v := by
    refine of_eq ?_
    cases user with
    | none => rfl
    | some u =>
      have hmap : ∀ (w : World) (m : Medium) (ssrc idx : Nat),
          (w.mapIndex m ssrc idx).sent = w.sent := by
        intro w m ssrc idx
        unfold World.mapIndex
        split <;> rfl
      unfold World.modUser World.modMedia
      dsimp only
      split
      · rw [hmap, hmap]; rfl
      · rfl

theorem run {t : SceneTask} (h : t.run w = some w') : SentKept w w' := by
  cases t with
  | maintain scene p => exact (sceneFrame p).maintain h
  | discProxy p => cases h; exact (callFrame p).destory teardownFrame w

end SentKept

/-- The login request of the proxy has gone out. -/
def LoginSent (w : World) (p : ProxyRef) : Prop :=
  ∃ id clientId ip port, (⟨p, .login id clientId ip port⟩ : Packet) ∈ w.sent

theorem LoginSent.keep {w w' : World} {p : ProxyRef} (h : LoginSent w p) (hk : SentKept w w') :
    LoginSent w' p := by
  obtain ⟨id, clientId, ip, port, hm⟩ := h
  exact ⟨id, clientId, ip, port, hk _ hm⟩

/-- Every linked proxy has had its login request sent. -/
def LoggedIn (s : ScreenMgr) : Prop :=
  ∀ id p, s.linkedProxys.find? id = some p → LoginSent s.w p

theorem LoggedIn.keep {s s' : ScreenMgr} (h : LoggedIn s)
    (hl : ∀ id p, s'.linkedProxys.find? id = some p → s.linkedProxys.find? id = some p)
    (hk : SentKept s.w s'.w) : LoggedIn s' :=
  fun id p hf => (h id p (hl id p hf)).keep hk

/-! ## The property and the condition -/

/-- A failed call has changed no linked proxy, so the next one connects; and
if a room has been queued, the login request is on its way. -/
structure Retriable (s : ScreenMgr) (param : LinkRoomParam) (connect : PjStatus) : Prop where
  unchanged : (s.linkRoom param connect).2 ≠ .success →
    (s.linkRoom param connect).1.linkedProxys = s.linkedProxys
  again : (s.linkRoom param connect).2 ≠ .success → s.getProxy param.proxyId = none → ∀ connect',
    (s.linkRoom param connect).1.linkRoom param connect' =
      (s.linkRoom param connect).1.linkNew param connect'
  queued : ∀ p, ((s.linkRoom param connect).1.w.proxies p).waitsRooms ≠ (s.w.proxies p).waitsRooms →
    LoginSent (s.linkRoom param connect).1.w p

def Retried (m : Move ScreenMgr MgrOp) : Prop :=
  (∀ param connect, m.lbl = .linkRoom param connect → Retriable m.src param connect) ∧
    LoggedIn m.dst

/-- The login request of a new connection can be sent. -/
def LoginSends (s : ScreenMgr) : MgrOp → Prop
  | .linkRoom param .success => s.getProxy param.proxyId = none → s.w.sendOk s.w.sends = true
  | _ => True

/-! ## One call -/

namespace ScreenMgr

variable {s : ScreenMgr} {param : LinkRoomParam} {connect : PjStatus}

theorem linkRoom_found {p : ProxyRef} (hf : s.getProxy param.proxyId = some p) :
    s.linkRoom param connect = s.linkThrough p param.titleRoom := by
  unfold linkRoom
  rw [hf]

theorem linkRoom_new (hf : s.getProxy param.proxyId = none) :
    s.linkRoom param connect = s.linkNew param connect := by
  unfold linkRoom
  rw [hf]

theorem linkNew_unconnected (hc : connect ≠ .success) : s.linkNew param connect = (s, connect) := by
  cases connect with
  | success => exact absurd rfl hc
  | _ => rfl

/-- The new proxy, with its login request sent or not, before the room. -/
def withNew (s : ScreenMgr) (param : LinkRoomParam) : ScreenMgr :=
  { s with
    w := s.w.modifyProxy s.nextProxy fun _ =>
    newProxy param.proxyId param.proxyIp param.proxyUdpPort
    linkedProxys := s.linkedProxys.insert param.proxyId s.nextProxy
    nextProxy := s.nextProxy + 1
    tcpEv := Function.update s.tcpEv s.nextProxy .null
    pipe := s.pipe ++ [.connProxy s.nextProxy] }

theorem linkNew_connected (hf : s.getProxy param.proxyId = none) :
    s.linkNew param .success = match (s.withNew param).w.login s.nextProxy with
      | (w, .success) => ((s.withNew param).setWorld w).linkThrough s.nextProxy param.titleRoom
      | (w, status) => ((s.withNew param).setWorld w, status) := by
  have hadd := addProxy_eq s hf param.proxyIp param.proxyUdpPort
  unfold linkNew
  generalize s.addProxy param.proxyId param.proxyIp param.proxyUdpPort = x at hadd ⊢
  subst hadd
  rfl

/-- The first send of the call is the login request. -/
theorem withNew_sendLogin : (s.withNew param).w.sendLogin s.nextProxy =
    if s.w.sendOk s.w.sends then
      ({ (s.withNew param).w with
          sends := s.w.sends + 1
          sent := s.w.sent ++ [(s.withNew param).w.loginPacket s.nextProxy] }, .success)
    else ({ (s.withNew param).w with sends := s.w.sends + 1 }, .esend) := rfl

theorem withNew_login : (s.withNew param).w.login s.nextProxy =
    match (s.withNew param).w.sendLogin s.nextProxy with
      | (w, .success) => (w.setStatus s.nextProxy .logining, .success)
      | (w, status) => (w, status) := by
  have hu : ((s.withNew param).w.proxies s.nextProxy).status = .uninit := by
    rw [withNew, World.modifyProxy_proxies, if_pos rfl]
    rfl
  unfold World.login
  generalize (s.withNew param).w.sendLogin s.nextProxy = x
  obtain ⟨w, status⟩ := x
  cases status <;> exact if_neg (not_not.mpr hu)

/-- The request fails: the proxy stays. -/
theorem linkNew_login_fails (hf : s.getProxy param.proxyId = none)
    (hs : s.w.sendOk s.w.sends = false) :
    (s.linkNew param .success).2 = .esend ∧
      (s.linkNew param .success).1.linkedProxys =
        s.linkedProxys.insert param.proxyId s.nextProxy := by
  rw [linkNew_connected hf, withNew_login, withNew_sendLogin, hs]
  exact ⟨rfl, rfl⟩

/-- The room waits at a new proxy that has asked to log in. -/
structure NewlyLinked (s : ScreenMgr) (param : LinkRoomParam) (s' : ScreenMgr) : Prop where
  linkedProxys : s'.linkedProxys = s.linkedProxys.insert param.proxyId s.nextProxy
  nextProxy : s'.nextProxy = s.nextProxy + 1
  proxy : s'.w.proxies s.nextProxy =
    ⟨param.proxyId, some param.proxyIp, param.proxyUdpPort, .logining, .empty, [param.titleRoom]⟩
  others : ∀ q, q ≠ s.nextProxy → s'.w.proxies q = s.w.proxies q
  rooms : s'.w.rooms = s.w.rooms
  login : LoginSent s'.w s.nextProxy
  sent : SentKept s.w s'.w
  sendOk : s'.w.sendOk = s.w.sendOk

/-- The request goes out. -/
theorem linkNew_login_sent (hf : s.getProxy param.proxyId = none)
    (hs : s.w.sendOk s.w.sends = true) :
    (s.linkNew param .success).2 = .success ∧ NewlyLinked s param (s.linkNew param .success).1 := by
  rw [linkNew_connected hf, withNew_login, withNew_sendLogin, if_pos hs]
  dsimp only
  generalize hw₁ : ({ (s.withNew param).w with
      sends := s.w.sends + 1
      sent := s.w.sent ++ [(s.withNew param).w.loginPacket s.nextProxy] } : World) = w₁
  have hsent : w₁.sent = s.w.sent ++ [(s.withNew param).w.loginPacket s.nextProxy] := by rw [← hw₁]
  have hproxies : w₁.proxies = (s.withNew param).w.proxies := by rw [← hw₁]
  -- the room is queued: the proxy is not online yet
  have hlink : (w₁.setStatus s.nextProxy .logining).linkRoom s.nextProxy param.titleRoom =
      ((w₁.setStatus s.nextProxy .logining).pushWaits s.nextProxy param.titleRoom, .success) := by
    rw [World.linkRoom, if_neg]
    rw [World.setStatus, World.modifyProxy_proxies, if_pos rfl]
    exact fun e => nomatch e
  unfold linkThrough
  rw [setWorld_w, hlink]
  refine ⟨rfl, rfl, rfl, ?_, fun q hq => ?_, ?_, ?_, fun packet hm => ?_, ?_⟩
  · change ((w₁.setStatus s.nextProxy .logining).pushWaits s.nextProxy param.titleRoom).proxies
      s.nextProxy = _
    rw [World.pushWaits, World.modifyProxy_proxies, if_pos rfl, World.setStatus,
      World.modifyProxy_proxies, if_pos rfl, hproxies, withNew,
        World.modifyProxy_proxies, if_pos rfl]
    rfl
  · change ((w₁.setStatus s.nextProxy .logining).pushWaits s.nextProxy param.titleRoom).proxies q =
      s.w.proxies q
    rw [World.pushWaits, World.modifyProxy_proxies, if_neg hq, World.setStatus,
      World.modifyProxy_proxies, if_neg hq, hproxies, withNew, World.modifyProxy_proxies, if_neg hq]
  · change w₁.rooms = s.w.rooms
    rw [← hw₁]
    rfl
  · refine ⟨((s.withNew param).w.proxies s.nextProxy).id, s.w.config.clientId, s.w.config.localIp,
      s.w.config.localMediaPort, ?_⟩
    change _ ∈ w₁.sent
    rw [hsent]
    exact List.mem_append_right _ List.mem_cons_self
  · change packet ∈ w₁.sent
    rw [hsent]
    exact List.mem_append_left _ hm
  · change w₁.sendOk = s.w.sendOk
    rw [← hw₁]
    rfl

/-- A failed call leaves the linked proxies alone, but for a login request
that could not be sent. -/
theorem unchanged_iff (s : ScreenMgr) (param : LinkRoomParam) (connect : PjStatus) :
    ((s.linkRoom param connect).2 ≠ .success →
      (s.linkRoom param connect).1.linkedProxys = s.linkedProxys) ↔
      LoginSends s (.linkRoom param connect) := by
  cases hf : s.getProxy param.proxyId with
  | some p =>
    refine iff_of_true (fun _ => ?_) ?_
    · rw [linkRoom_found hf, linkThrough_fst]
      rfl
    · cases connect with
      | success => exact fun hn => absurd (hf.symm.trans hn) (fun e => nomatch e)
      | _ => trivial
  | none =>
    rw [linkRoom_new hf]
    by_cases hc : connect = .success
    · subst hc
      cases hs : s.w.sendOk s.w.sends with
      | true =>
        refine iff_of_true (fun hn => absurd (linkNew_login_sent hf hs).1 hn) fun _ => hs
      | false =>
        obtain ⟨h1, h2⟩ := linkNew_login_fails hf hs
        refine iff_of_false (fun h => ?_) fun h => nomatch hs.symm.trans (h hf)
        have hkeep := h (by rw [h1]; decide)
        have hin : (s.linkedProxys.insert param.proxyId s.nextProxy).find? param.proxyId =
          none := by
          rw [← h2, hkeep]
          exact hf
        rw [StdMap.find?_insert, if_pos rfl] at hin
        cases hin
    · rw [linkNew_unconnected hc]
      refine iff_of_true (fun _ => rfl) ?_
      cases connect with
      | success => exact absurd rfl hc
      | _ => trivial

end ScreenMgr

theorem loggedIn_linkRoom {s : ScreenMgr} {param : LinkRoomParam} {connect : PjStatus}
    (h : LoggedIn s) (hc : LoginSends s (.linkRoom param connect)) :
    LoggedIn (s.linkRoom param connect).1 := by
  cases hf : s.getProxy param.proxyId with
  | some p =>
    rw [ScreenMgr.linkRoom_found hf, ScreenMgr.linkThrough_fst]
    exact h.keep (fun _ _ hf => hf) ((SentKept.callFrame p).linkRoom s.w _)
  | none =>
    rw [ScreenMgr.linkRoom_new hf]
    by_cases hok : connect = .success
    · subst hok
      have hnew := (ScreenMgr.linkNew_login_sent hf (hc hf)).2
      intro id p hp
      rw [hnew.linkedProxys, StdMap.find?_insert] at hp
      split at hp
      · rw [show s.linkedProxys.find? param.proxyId = none from hf] at hp
        cases hp
        exact hnew.login
      · exact (h id p hp).keep hnew.sent
    · rw [ScreenMgr.linkNew_unconnected hok]
      exact h

/-- A call that can send its login request may be retried. -/
theorem retriable {s : ScreenMgr} {param : LinkRoomParam} {connect : PjStatus} (h : LoggedIn s)
    (hc : LoginSends s (.linkRoom param connect)) : Retriable s param connect := by
  have hunchanged := (ScreenMgr.unchanged_iff s param connect).mpr hc
  refine ⟨hunchanged, fun hn hf connect' => ScreenMgr.linkRoom_new ?_, fun p hp => ?_⟩
  · rw [ScreenMgr.getProxy, hunchanged hn]
    exact hf
  · have hl := loggedIn_linkRoom h hc
    cases hf : s.getProxy param.proxyId with
    | some q =>
      have hq : p = q := by
        by_contra hne
        refine hp (congrArg AvsProxy.waitsRooms ?_)
        rw [ScreenMgr.linkRoom_found hf, ScreenMgr.linkThrough_fst]
        exact (otherProxies_callFrame q).linkRoom s.w param.titleRoom p hne
      refine hl param.proxyId p ?_
      rw [ScreenMgr.linkRoom_found hf, ScreenMgr.linkThrough_fst, hq]
      exact hf
    | none =>
      rw [ScreenMgr.linkRoom_new hf] at hp ⊢
      by_cases hok : connect = .success
      · subst hok
        have hnew := (ScreenMgr.linkNew_login_sent hf (hc hf)).2
        have hq : p = s.nextProxy := by
          by_contra hne
          exact hp (congrArg AvsProxy.waitsRooms (hnew.others p hne))
        exact hq ▸ hnew.login
      · rw [ScreenMgr.linkNew_unconnected hok] at hp
        exact absurd rfl hp

/-! ## Runs -/

/-- `DelProxy` adds no link. -/
theorem delProxy_find? (s : ScreenMgr) (p : ProxyRef) {id : Nat} {q : ProxyRef}
    (hf : (s.delProxy p).1.linkedProxys.find? id = some q) : s.linkedProxys.find? id = some q := by
  unfold ScreenMgr.delProxy at hf
  split at hf
  · exact hf
  · rw [StdMap.find?_erase] at hf
    split at hf
    · cases hf
    · exact hf

theorem delProxy_w (s : ScreenMgr) (p : ProxyRef) : (s.delProxy p).1.w = s.w := by
  unfold ScreenMgr.delProxy
  split <;> rfl

theorem onUnlinkRoom_keeps (s : ScreenMgr) (r : RoomRef) :
    (∀ id p, (s.onUnlinkRoom r).1.linkedProxys.find? id = some p →
      s.linkedProxys.find? id = some p) ∧
      SentKept s.w (s.onUnlinkRoom r).1.w := by
  unfold ScreenMgr.onUnlinkRoom
  split
  · exact ⟨fun _ _ hf => hf, SentKept.of_eq rfl⟩
  · rename_i p _
    have hk := (SentKept.callFrame p).unlinkRoom SentKept.teardownFrame s.w r
    split
    · rename_i w he
      rw [he] at hk
      dsimp only
      split
      · refine ⟨fun _ _ hf => delProxy_find? (s.setWorld w) p hf, ?_⟩
        rw [delProxy_w]
        exact hk
      · exact ⟨fun _ _ hf => hf, hk⟩
    · rename_i he
      rw [he] at hk
      exact ⟨fun _ _ hf => hf, hk⟩

/-- Every other call can only take proxies out, and sends go on being sent. -/
theorem mgrStep_keeps {s s' : ScreenMgr} {op : MgrOp}
    (hop : ∀ param connect, op ≠ .linkRoom param connect) (hst : mgrStep s op = some s') :
    (∀ id p, s'.linkedProxys.find? id = some p → s.linkedProxys.find? id = some p) ∧
      SentKept s.w s'.w := by
  cases op with
  | linkRoom param connect => exact absurd rfl (hop param connect)
  | onUnlinkRoom r => cases hst; exact onUnlinkRoom_keeps s r
  | tcpClosed p =>
    cases hst
    refine ⟨fun _ _ hf => delProxy_find? (s.closeTcp p) p hf, ?_⟩
    rw [delProxy_w]
    exact SentKept.of_eq rfl
  | delAllProxys =>
    cases hst
    exact ⟨fun _ _ hf => (by cases hf), SentKept.of_eq rfl⟩
  | frame proxyId scene =>
    simp only [mgrStep] at hst
    split at hst <;> cases hst <;> exact ⟨fun _ _ hf => hf, SentKept.of_eq rfl⟩
  | eventOnPipe allocated added =>
    simp only [mgrStep] at hst
    split at hst <;> cases hst <;> exact ⟨fun _ _ hf => hf, SentKept.of_eq rfl⟩
  | worker =>
    simp only [mgrStep] at hst
    split at hst
    · cases hst
    · obtain ⟨w, hw, rfl⟩ := Option.map_eq_some_iff.mp hst
      exact ⟨fun _ _ hf => hf, SentKept.run hw⟩

theorem retry_guarded : mgrSys.GuardedMoves LoginSends LoggedIn Retried where
  init s h0 id p hf := by rw [h0.linkedProxys] at hf; cases hf
  step s op s' h hc hst := by
    cases op with
    | linkRoom param connect =>
      cases hst
      have hl := loggedIn_linkRoom h hc
      exact ⟨hl, fun _ _ e => by cases e; exact retriable h hc, hl⟩
    | _ =>
      obtain ⟨hlinked, hkept⟩ := mgrStep_keeps (by intro _ _ e; cases e) hst
      exact ⟨h.keep hlinked hkept, (fun _ _ e => nomatch e), h.keep hlinked hkept⟩
  sharp s op s' _ hc _ := by
    intro hp
    cases op with
    | linkRoom param connect =>
      exact hc ((ScreenMgr.unchanged_iff s param connect).mp (hp.1 param connect rfl).unchanged)
    | _ => exact hc trivial

/-- **Retrying a failed link.** Along a run all calls can be retried, with
every linked proxy logged in, iff none fails on the login request; and in any
state, whatever the connect comes to, a call that fails has left the linked
proxies alone iff it did not fail there. -/
theorem retriable_iff {s₀ s : ScreenMgr} {ms : List (Move ScreenMgr MgrOp)} (h0 : Started s₀)
    (hr : mgrSys.Run s₀ ms s) :
    ((∀ m ∈ ms, Retried m) ↔ ∀ m ∈ ms, LoginSends m.src m.lbl) ∧
      ∀ (x : ScreenMgr) (param : LinkRoomParam) (connect : PjStatus),
        ((x.linkRoom param connect).2 ≠ .success →
          (x.linkRoom param connect).1.linkedProxys = x.linkedProxys) ↔
          LoginSends x (.linkRoom param connect) :=
  ⟨retry_guarded.along_iff h0 hr, ScreenMgr.unchanged_iff⟩

instance (s : ScreenMgr) (op : MgrOp) : Decidable (LoginSends s op) := by
  unfold LoginSends
  split <;> infer_instance

/-- Nothing linked; the sends numbered `bad` fail. -/
def ScreenMgr.started (bad : List Nat) : ScreenMgr :=
  ⟨{ World.launched with sendOk := fun n => !bad.contains n }, .empty, 0, fun _ => .null, [], []⟩

theorem ScreenMgr.started_started (bad : List Nat) : Started (started bad) := ⟨rfl, rfl, rfl⟩

/-- A connection is refused, opened and lost, and opened again; the second
request for a room fails on its way. -/
def retried : List MgrOp :=
  [.linkRoom ⟨7, "10.0.0.7", 9000, 5⟩ .esend, .linkRoom ⟨7, "10.0.0.7", 9000, 5⟩ .success,
    .frame 7 .resLogin,
    .worker, .frame 7 .nat, .worker, .linkRoom ⟨7, "10.0.0.7", 9000, 6⟩ .success, .tcpClosed 0,
    .linkRoom ⟨7, "10.0.0.7", 9000, 6⟩ .success]

theorem retriable_iff_retried :
    (∀ m ∈ moves mgrStep (.started [5]) retried, LoginSends m.src m.lbl) ∧
      ∀ m ∈ moves mgrStep (.started [5]) retried, Retried m := by
  have hp : ∀ m ∈ moves mgrStep (.started [5]) retried, LoginSends m.src m.lbl := by decide +kernel
  exact ⟨hp, (retriable_iff (ScreenMgr.started_started [5])
    (run_of_exec retried (by decide +kernel))).1.mpr hp⟩

/-- The request to log in fails, and so does the call. The proxy is linked
all the same, and the next call has the room wait there, with nothing sent. -/
theorem queued_forever :
    ∃ s s₁ s₂ : ScreenMgr, mgrSys.Reachable s ∧
      s.linkRoom ⟨7, "10.0.0.7", 9000, 5⟩ .success = (s₁, .esend) ∧ s.linkedProxys.find? 7 = none ∧
      s₁.linkedProxys.find? 7 = some 0 ∧
      s₁.linkRoom ⟨7, "10.0.0.7", 9000, 5⟩ .success = (s₂, .success) ∧
      (s₂.w.proxies 0).status = .uninit ∧ (s₂.w.proxies 0).waitsRooms = [5] ∧ ¬ LoginSent s₂.w 0 ∧
      ¬ Retried ⟨s, .linkRoom ⟨7, "10.0.0.7", 9000, 5⟩ .success, s₁⟩ := by
  refine ⟨.started [0], _, _, Reachable.init (ScreenMgr.started_started [0]), rfl, rfl, rfl, rfl,
    rfl, rfl, ?_, ?_⟩
  · rintro ⟨id, clientId, ip, port, hm⟩
    cases hm
  · intro hp
    have h := (hp.1 _ _ rfl).unchanged (by decide +kernel)
    exact absurd (congrArg (fun m => m.find? 7) h) (by decide +kernel)

end MonitorAgent.L4
