import MonitorAgent.Core.LTS
import MonitorAgent.L3Wall.Frame
import MonitorAgent.L4Session.SessionSpec

/-!
# The session of one proxy

`Login`, `OnRxLogin`, `OnRxNAT`, `LinkRoom` and `UnlinkRoom` of one
`AvsProxy` (Monitor/Monitor/AvsProxy.cpp:24-88,184-255) as atomic calls in
any order, with rooms and room ids repeated at will and every send
succeeding.

* `view_step`: seen through `view`, a call is a step of the abstract session.
* `session_protocol`: the protocol over whole runs.
-/
namespace MonitorAgent.L4

open MonitorAgent.L3 LTS

/-- The LINK_ROOM and UNLINK_ROOM packets of `p` in a log, with their ids. -/
def roomPacketsOf (p : ProxyRef) (sent : List Packet) : List (RoomRequest × Int) :=
  sent.filterMap fun packet =>
    if packet.proxy = p then
      match packet.request with
      | .linkRoom _ _ id => some (.link, id)
      | .unlinkRoom _ _ id => some (.unlink, id)
      | _ => none
    else none

def roomPackets (p : ProxyRef) (w : World) : List (RoomRequest × Int) := roomPacketsOf p w.sent

/-- The session of `p` as the server and the caller see it. -/
def view (p : ProxyRef) (w : World) : Session where
  status := (w.proxies p).status
  waits := (w.proxies p).waitsRooms.map fun r => (w.rooms r).id
  linked id := ((w.proxies p).rooms.find? id).isSome
  packets := roomPackets p w

inductive SessionOp
  | login
  | onRxLogin
  | onRxNAT
  | linkRoom (room : RoomRef)
  | unlinkRoom (room : RoomRef)
deriving DecidableEq

def sessionStep (p : ProxyRef) (w : World) : SessionOp → World
  | .login => (w.login p).1
  | .onRxLogin => (w.onRxLogin p).1
  | .onRxNAT => (w.onRxNAT p).1
  | .linkRoom r => (w.linkRoom p r).1
  | .unlinkRoom r => (w.unlinkRoom p r).1

/-- The room only matters by its id. -/
def SessionOp.abs (w : World) : SessionOp → Session.Op
  | .login => .login
  | .onRxLogin => .onRxLogin
  | .onRxNAT => .onRxNAT
  | .linkRoom r => .linkRoom (w.rooms r).id
  | .unlinkRoom r => .unlinkRoom (w.rooms r).id

/-! ## What a session leaves alone -/

/-- Every send succeeds. -/
def SendsSucceed (w : World) : Prop := ∀ n, w.sendOk n = true

/-- The outcome of the sends and the ids of the rooms are given. -/
structure SameEnv (w w' : World) : Prop where
  sendOk : w'.sendOk = w.sendOk
  roomId : ∀ r, (w'.rooms r).id = (w.rooms r).id

theorem SameEnv.refl (w : World) : SameEnv w w := ⟨rfl, fun _ => rfl⟩

theorem SameEnv.trans {w w' w'' : World} (h : SameEnv w w') (h' : SameEnv w' w'') : SameEnv w w'' :=
  ⟨h'.sendOk.trans h.sendOk, fun r => (h'.roomId r).trans (h.roomId r)⟩

theorem SameEnv.modifyProxy (w : World) (p : ProxyRef) (f : AvsProxy → AvsProxy) :
    SameEnv w (w.modifyProxy p f) := ⟨rfl, fun _ => rfl⟩

theorem SameEnv.setStatus (w : World) (p : ProxyRef) (status : ProxyStatus) :
    SameEnv w (w.setStatus p status) := .modifyProxy w p _

theorem SameEnv.succeed {w w' : World} (h : SameEnv w w') (hs : SendsSucceed w) :
    SendsSucceed w' := by
  rw [SendsSucceed, h.sendOk]; exact hs

/-- Worlds a session cannot tell apart. -/
structure SameSession (w w' : World) : Prop extends SameEnv w w' where
  proxies : w'.proxies = w.proxies
  sent : w'.sent = w.sent

namespace SameSession

theorem refl (w : World) : SameSession w w := ⟨.refl w, rfl, rfl⟩

theorem trans {w w' w'' : World} (h : SameSession w w') (h' : SameSession w' w'') :
    SameSession w w'' :=
  ⟨h.toSameEnv.trans h'.toSameEnv, h'.proxies.trans h.proxies, h'.sent.trans h.sent⟩

theorem view {w w' : World} (h : SameSession w w') (p : ProxyRef) : view p w' = view p w := by
  simp only [L4.view, roomPackets, h.proxies, h.sent, h.roomId]

variable (w : World)

theorem modifyRoom (r : RoomRef) (f : TitleRoom → TitleRoom) (hf : ∀ x, (f x).id = x.id) :
    SameSession w (w.modifyRoom r f) :=
  ⟨⟨rfl, fun r' => by rw [World.modifyRoom_rooms]; split <;> simp_all⟩, rfl, rfl⟩

theorem onCreate (r : RoomRef) (p : ProxyRef) : SameSession w (w.onCreate r p) :=
  modifyRoom w r _ fun _ => rfl

theorem disconnectUser (s : ScreenRef) : SameSession w (w.disconnectUser s).1 := by
  unfold World.disconnectUser
  split
  · exact refl w
  · exact ⟨⟨rfl, fun _ => rfl⟩, rfl, rfl⟩

/-- Tearing a room down concerns users and screens only. -/
theorem teardownFrame : TeardownFrame SameSession where
  refl := refl
  trans := trans
  screen := disconnectUser
  room w r f hf := modifyRoom w r f fun x => (hf x).1
  delete _ _ := ⟨⟨rfl, fun _ => rfl⟩, rfl, rfl⟩

end SameSession

/-! ## The calls refine the abstract ones -/

section Refine

variable {p : ProxyRef} {w : World}

theorem roomPacketsOf_snoc (sent : List Packet) (packet : Packet) :
    roomPacketsOf p (sent ++ [packet]) = roomPacketsOf p sent ++ roomPacketsOf p [packet] :=
  List.filterMap_append ..

/-- A successful send adds its packet to the log, and nothing else. -/
theorem sendPacket_succeed (hs : SendsSucceed w) (packet : Packet) :
    (w.sendPacket packet).2 = .success ∧ SameEnv w (w.sendPacket packet).1 ∧
      view p (w.sendPacket packet).1 =
        { view p w with packets := (view p w).packets ++ roomPacketsOf p [packet] } := by
  rw [World.sendPacket, if_pos (hs _)]
  refine ⟨rfl, ⟨rfl, fun _ => rfl⟩, ?_⟩
  simp only [view, roomPackets, roomPacketsOf_snoc]

theorem view_setStatus (status : ProxyStatus) :
    view p (w.setStatus p status) = { view p w with status := status } := by
  simp [view, World.setStatus, World.modifyProxy, roomPackets]

theorem view_pushWaits (r : RoomRef) :
    view p (w.pushWaits p r) = { view p w with waits := (view p w).waits ++ [(w.rooms r).id] } := by
  simp [view, World.pushWaits, World.modifyProxy, roomPackets]

/-- A new id is filed in `rooms_`. -/
theorem view_addRoom (r : RoomRef) (id : Int) (hn : (w.proxies p).rooms.find? id = none) :
    view p ((w.modifyProxy p fun x => { x with rooms := x.rooms.insert id r }).onCreate r p) =
      { view p w with linked := Function.update (view p w).linked id true } := by
  rw [(SameSession.onCreate _ r p).view]
  simp only [view, roomPackets, World.modifyProxy, Function.update_self]
  congr 1
  funext i
  rw [StdMap.find?_insert, hn, Function.update_apply]
  split <;> rfl

/-- `LinkRoom` online: an id already linked changes nothing. -/
theorem linkOnline_refines (hs : SendsSucceed w) (r : RoomRef) :
    SameEnv w (w.linkOnline p r).1 ∧ view p (w.linkOnline p r).1 =
    (view p w).link (w.rooms r).id := by
  unfold World.linkOnline World.addRoom Session.link
  by_cases hl : ((w.proxies p).rooms.find? (w.rooms r).id).isSome
  · rw [if_pos hl, if_pos (show (view p w).linked (w.rooms r).id = true from hl)]
    exact ⟨.refl w, rfl⟩
  · rw [if_neg hl, if_neg (show ¬ (view p w).linked (w.rooms r).id = true from hl)]
    have hc := SameSession.onCreate
      (w.modifyProxy p fun x => { x with rooms := x.rooms.insert (w.rooms r).id r }) r p
    have he := (SameEnv.modifyProxy w p _).trans hc.toSameEnv
    obtain ⟨-, he', hv⟩ := sendPacket_succeed (p := p) (he.succeed hs) (World.linkRoomPacket _ p r)
    refine ⟨he.trans he', hv.trans ?_⟩
    rw [view_addRoom r _ (by simpa using hl), World.linkRoomPacket, he.roomId]
    simp [roomPacketsOf]

theorem linkRoom_refines (hs : SendsSucceed w) (r : RoomRef) :
    SameEnv w (w.linkRoom p r).1 ∧ view p (w.linkRoom p r).1 =
    (view p w).step (.linkRoom (w.rooms r).id) := by
  unfold World.linkRoom Session.step
  by_cases ho : (w.proxies p).status = .online
  · rw [if_pos ho]
    simp only [if_pos (show (view p w).status = .online from ho)]
    exact linkOnline_refines hs r
  · rw [if_neg ho]
    simp only [if_neg (show ¬ (view p w).status = .online from ho)]
    exact ⟨.modifyProxy w p _, view_pushWaits r⟩

/-- The drain loop links the ids that wait, in their order. -/
theorem linkRooms_refines (rs : List RoomRef) (hs : SendsSucceed w)
    (ho : (view p w).status = .online) :
    SameEnv w (rs.foldl (fun w r => (w.linkRoom p r).1) w) ∧
      view p (rs.foldl (fun w r => (w.linkRoom p r).1) w) =
        (rs.map fun r => (w.rooms r).id).foldl Session.link (view p w) := by
  induction rs generalizing w with
  | nil => exact ⟨.refl w, rfl⟩
  | cons r rs ih =>
    obtain ⟨he, hv⟩ := linkRoom_refines (p := p) hs r
    have hv' : view p (w.linkRoom p r).1 = (view p w).link (w.rooms r).id := by
      rw [hv, Session.step, if_pos ho]
    obtain ⟨he', hv''⟩ := ih (he.succeed hs) (by rw [hv', Session.link_status, ho])
    refine ⟨he.trans he', hv''.trans ?_⟩
    simp only [List.map_cons, List.foldl_cons, hv', he.roomId]

theorem drainWaits_refines (hs : SendsSucceed w) (ho : (view p w).status = .online) :
    SameEnv w (w.drainWaits p) ∧ view p (w.drainWaits p) = (view p w).drain := by
  obtain ⟨he, hv⟩ := linkRooms_refines (p := p) (w.proxies p).waitsRooms hs ho
  refine ⟨he.trans (.modifyProxy _ p _), ?_⟩
  have hv' := congrArg (fun a : Session => { a with waits := [] }) hv
  refine Eq.trans ?_ hv'
  simp [World.drainWaits, view, World.modifyProxy, roomPackets]

theorem onRxNAT_refines (hs : SendsSucceed w) :
    SameEnv w (w.onRxNAT p).1 ∧ view p (w.onRxNAT p).1 = (view p w).step .onRxNAT := by
  unfold World.onRxNAT Session.step
  by_cases hn : (w.proxies p).status = .nating
  · simp only [hn, ne_eq, not_true_eq_false, if_false,
      if_pos (show (view p w).status = .nating from hn)]
    have he := SameEnv.setStatus w p .online
    obtain ⟨he', hv⟩ := drainWaits_refines (p := p) (he.succeed hs) (by rw [view_setStatus])
    exact ⟨he.trans he', by rw [hv, view_setStatus]⟩
  · simp only [hn, ne_eq, not_false_eq_true, if_true,
      if_neg (show ¬ (view p w).status = .nating from hn)]
    exact ⟨.refl w, trivial⟩

theorem view_delRoom (r : RoomRef) (id : Int) :
    view p ((w.modifyProxy p fun x => { x with rooms := x.rooms.erase id }).onDestory r) =
      { view p w with linked := Function.update (view p w).linked id false } := by
  rw [(SameSession.teardownFrame.onDestory _ r).view]
  simp only [view, roomPackets, World.modifyProxy, Function.update_self]
  congr 1
  funext i
  rw [StdMap.find?_erase, Function.update_apply]
  split <;> rfl

theorem unlinkRoom_refines (hs : SendsSucceed w) (r : RoomRef) :
    SameEnv w (w.unlinkRoom p r).1 ∧ view p (w.unlinkRoom p r).1 =
    (view p w).unlink (w.rooms r).id := by
  unfold World.unlinkRoom World.delRoom Session.unlink
  cases hf : (w.proxies p).rooms.find? (w.rooms r).id with
  | none =>
    rw [if_neg (by simp [view, hf])]
    exact ⟨.refl w, rfl⟩
  | some r' =>
    rw [if_pos (by simp [view, hf])]
    have hd := SameSession.teardownFrame.onDestory
      (w.modifyProxy p fun x => { x with rooms := x.rooms.erase (w.rooms r).id }) r
    have he := (SameEnv.modifyProxy w p _).trans hd.toSameEnv
    obtain ⟨-, he', hv⟩ :=
      sendPacket_succeed (p := p) (he.succeed hs) (World.unlinkRoomPacket _ p r)
    refine ⟨he.trans he', hv.trans ?_⟩
    rw [view_delRoom, World.unlinkRoomPacket, he.roomId]
    simp [roomPacketsOf]

theorem login_refines (hs : SendsSucceed w) :
    SameEnv w (w.login p).1 ∧ view p (w.login p).1 = (view p w).step .login := by
  unfold World.login World.sendLogin Session.step
  obtain ⟨h1, he, hv⟩ := sendPacket_succeed (p := p) hs (w.loginPacket p)
  by_cases hu : (w.proxies p).status = .uninit
  · simp only [hu, ne_eq, not_true_eq_false, if_false,
      if_pos (show (view p w).status = .uninit from hu)]
    split
    · rename_i w' heq
      rw [heq] at he hv
      refine ⟨he.trans (.setStatus w' p _), ?_⟩
      rw [view_setStatus, hv]
      simp [World.loginPacket, roomPacketsOf]
    · rename_i w' st hne heq
      rw [heq] at h1
      exact absurd h1 hne
  · simp only [hu, ne_eq, not_false_eq_true, if_true,
      if_neg (show ¬ (view p w).status = .uninit from hu)]
    exact ⟨.refl w, trivial⟩

theorem sendNats_succeed (n : Nat) (hs : SendsSucceed w) :
    (w.sendNats p n).2 = .success ∧ SameEnv w (w.sendNats p n).1 ∧
    view p (w.sendNats p n).1 = view p w := by
  induction n generalizing w with
  | zero => exact ⟨rfl, .refl w, rfl⟩
  | succ n ih =>
    obtain ⟨h1, he, hv⟩ := sendPacket_succeed (p := p) hs (w.natPacket p)
    unfold World.sendNats
    split
    · rename_i w' heq
      rw [heq] at he hv
      obtain ⟨h1', he', hv'⟩ := ih (he.succeed hs)
      refine ⟨h1', he.trans he', hv'.trans (hv.trans ?_)⟩
      simp [World.natPacket, roomPacketsOf]
    · rename_i w' st hne heq
      rw [heq] at h1
      exact absurd h1 hne

theorem onRxLogin_refines (hs : SendsSucceed w) :
    SameEnv w (w.onRxLogin p).1 ∧ view p (w.onRxLogin p).1 = (view p w).step .onRxLogin := by
  unfold World.onRxLogin Session.step
  obtain ⟨h1, he, hv⟩ := sendNats_succeed (p := p) 3 hs
  by_cases hl : (w.proxies p).status = .logining
  · simp only [hl, ne_eq, not_true_eq_false, if_false,
      if_pos (show (view p w).status = .logining from hl)]
    split
    · rename_i w' heq
      rw [heq] at he hv
      refine ⟨he.trans (.setStatus w' p _), ?_⟩
      rw [view_setStatus, hv]
    · rename_i w' st hne heq
      rw [heq] at h1
      exact absurd h1 hne
  · simp only [hl, ne_eq, not_false_eq_true, if_true,
      if_neg (show ¬ (view p w).status = .logining from hl)]
    exact ⟨.refl w, trivial⟩

/-- **Refinement.** With the sends succeeding, a call is a step of the
abstract session, and the sends go on succeeding. -/
theorem view_step (hs : SendsSucceed w) (op : SessionOp) :
    SameEnv w (sessionStep p w op) ∧ view p (sessionStep p w op) = (view p w).step (op.abs w) := by
  cases op with
  | login => exact login_refines hs
  | onRxLogin => exact onRxLogin_refines hs
  | onRxNAT => exact onRxNAT_refines hs
  | linkRoom r => exact linkRoom_refines hs r
  | unlinkRoom r => exact unlinkRoom_refines hs r

end Refine

/-! ## Runs -/

/-- A new proxy object, no packet of its rooms sent, and every send succeeds. -/
structure Fresh (p : ProxyRef) (w : World) : Prop where
  status : (w.proxies p).status = .uninit
  rooms : (w.proxies p).rooms = .empty
  waits : (w.proxies p).waitsRooms = []
  packets : roomPackets p w = []
  succeed : SendsSucceed w

def sessionSys (p : ProxyRef) : LTS World SessionOp :=
  .ofFn (Fresh p) fun w op => some (sessionStep p w op)

theorem good_fresh {p : ProxyRef} {w : World} (h : Fresh p w) : (view p w).Good where
  early _ := ⟨h.packets, fun id => by simp [view, h.rooms]⟩
  late he := by
    rw [show (view p w).status = .uninit from h.status] at he
    cases he
  tracked id := by
    rw [show (view p w).packets = [] from h.packets]
    exact ⟨⟨by simp [historyOf], by simp [historyOf]⟩, by simp [view, h.rooms, historyOf]⟩

theorem session_inductive (p : ProxyRef) :
    (sessionSys p).Inductive fun w => SendsSucceed w ∧ (view p w).Good where
  init w h0 := ⟨h0.succeed, good_fresh h0⟩
  step w op w' h hs := by
    cases hs
    obtain ⟨he, hv⟩ := view_step (p := p) h.1 op
    exact ⟨he.succeed h.1, hv ▸ Session.good_step h.2 _⟩

/-- A call that goes online is an `OnRxNAT`, links what waits, and clears it. -/
theorem goes_online {p : ProxyRef} {w : World} (hs : SendsSucceed w) (hg : (view p w).Good)
    (op : SessionOp) (h0 : (w.proxies p).status ≠ .online)
    (h1 : ((sessionStep p w op).proxies p).status = .online) :
    op = .onRxNAT ∧ ((sessionStep p w op).proxies p).waitsRooms = [] ∧
      roomPackets p (sessionStep p w op) = roomPackets p w ++
        ((w.proxies p).waitsRooms.map fun r => (w.rooms r).id).eraseDups.map (.link, ·) := by
  have hv := (view_step (p := p) hs op).2
  have hn : (view p w).status ≠ .online := h0
  have h1' : ((view p w).step (op.abs w)).status = .online := by rw [← hv]; exact h1
  cases op with
  | login => simp only [SessionOp.abs, Session.step] at h1'; split at h1' <;> simp_all
  | onRxLogin => simp only [SessionOp.abs, Session.step] at h1'; split at h1' <;> simp_all
  | linkRoom r => simp only [SessionOp.abs, Session.step] at h1'; split at h1' <;> simp_all
  | unlinkRoom r =>
    simp only [SessionOp.abs, Session.step, Session.unlink_status] at h1'; exact absurd h1' hn
  | onRxNAT =>
    simp only [SessionOp.abs, Session.step] at hv h1'
    split at h1'
    · rename_i hnat
      rw [if_pos hnat] at hv
      have hp : roomPackets p w = [] := (hg.early hn).1
      refine ⟨rfl, by simpa [view, Session.drain] using congrArg Session.waits hv, ?_⟩
      have hd := Session.drain_packets { view p w with status := .online } hp (hg.early hn).2
      rw [hp, List.nil_append]
      exact (congrArg Session.packets hv).trans hd
    · exact absurd h1' hn

/-- **Session protocol.** Along every run of calls on one proxy whose sends
succeed: the status moves up one step at a time; before ONLINE no room packet
is sent; the call that goes online is an `OnRxNAT`, it sends one LINK_ROOM for
each distinct id waiting, in order of first request, and then nothing waits
any more; and the room packets of each id alternate beginning with LINK_ROOM,
the keys of `rooms_` being the ids whose last packet is LINK_ROOM. -/
theorem session_protocol (p : ProxyRef) {w₀ w : World} {ms : List (Move World SessionOp)}
    (h0 : Fresh p w₀) (hr : (sessionSys p).Run w₀ ms w) :
    (∀ m ∈ ms, Session.StatusStep (m.src.proxies p).status (m.dst.proxies p).status) ∧
      (∀ x ∈ visited w₀ ms,
        ((x.proxies p).status ≠ .online → roomPackets p x = []) ∧
        ((x.proxies p).status = .online → (x.proxies p).waitsRooms = []) ∧
        ∀ id, Alternates (historyOf id (roomPackets p x)) ∧
          (((x.proxies p).rooms.find? id).isSome ↔
            (historyOf id (roomPackets p x)).getLast? = some .link)) ∧
      ∀ m ∈ ms, (m.src.proxies p).status ≠ .online → (m.dst.proxies p).status = .online →
        m.lbl = .onRxNAT ∧ (m.dst.proxies p).waitsRooms = [] ∧
          roomPackets p m.dst = roomPackets p m.src ++
            ((m.src.proxies p).waitsRooms.map fun r =>
              (m.src.rooms r).id).eraseDups.map (.link, ·) := by
  have hi := (session_inductive p).init w₀ h0
  have hm := (session_inductive p).moves hr hi
  refine ⟨fun m hmem => ?_, fun x hx => ?_, fun m hmem hn ho => ?_⟩
  · obtain ⟨⟨hs, -⟩, hst⟩ := hm m hmem
    have hd : sessionStep p m.src m.lbl = m.dst := Option.some.inj hst
    have hss := Session.statusStep (view p m.src) (m.lbl.abs m.src)
    rwa [← (view_step hs m.lbl).2, hd] at hss
  · obtain ⟨-, hg⟩ := (session_inductive p).visited hr hi x hx
    exact ⟨fun hn => (hg.early hn).1, fun ho => by simpa [view] using hg.late ho, hg.tracked⟩
  · obtain ⟨⟨hs, hg⟩, hst⟩ := hm m hmem
    have hd : sessionStep p m.src m.lbl = m.dst := Option.some.inj hst
    rw [← hd] at ho ⊢
    exact goes_online hs hg m.lbl hn ho

/-- Two ids asked for early, one of them twice and one again later. -/
def repeatedRooms : List SessionOp :=
  [.linkRoom 5, .login, .linkRoom 3, .onRxLogin, .linkRoom 5, .onRxNAT, .linkRoom 3, .unlinkRoom 5,
    .linkRoom 5]

theorem fresh_launched (p : ProxyRef) : Fresh p .launched := ⟨rfl, rfl, rfl, rfl, fun _ => rfl⟩

theorem session_protocol_repeatedRooms :
    roomPackets 0 (repeatedRooms.foldl (sessionStep 0) .launched) =
        [(.link, 5), (.link, 3), (.unlink, 5), (.link, 5)] ∧
      ∀ x ∈ visited World.launched
          (moves (fun w op => some (sessionStep 0 w op)) .launched repeatedRooms),
        ∀ id, Alternates (historyOf id (roomPackets 0 x)) := by
  refine ⟨by decide +kernel, fun x hx id => ?_⟩
  have hstates := (session_protocol 0 (fresh_launched 0) (run_moves repeatedRooms rfl)).2.1
  exact ((hstates x hx).2.2 id).1

end MonitorAgent.L4
