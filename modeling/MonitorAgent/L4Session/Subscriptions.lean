import MonitorAgent.L3Wall.Bijection
import MonitorAgent.L3Wall.Links
import MonitorAgent.L3Wall.MonitorDlg
import MonitorAgent.L4Session.ProxySession

/-!
# What the servers stream

A proxy server streams the users a LINK_ROOM_USER packet asked for, until an
UNLINK_ROOM_USER packet for the user, and forgets users that leave, rooms that
are unlinked and connections that are closed. `Subscription`s are kept here as
the servers keep them, from the packets sent; the wall should show exactly the
users subscribed (`Matched`).

`LinkScreenUser` pairs every change of the wall with its packet
(`SubInv.linkScreenUser`). Two handlers do not:

* `CleanScreens` lets every screen go and sends nothing
  (Monitor/Monitor/ScreenMgr.cpp:843-849);
* `UnlinkScreenUser` lets the screen go of whomever it shows, and sends the
  packet for the user it was given (Monitor/Monitor/ScreenMgr.cpp:258-271).

`matched_iff`: a run keeps wall and servers matched exactly when it cleans the
screens only while they are idle and each unlink request is still true.
`streams_on`: a run after which a user is streamed to no screen.
-/
namespace MonitorAgent.L4

open MonitorAgent.L3 LTS

/-! ## Subscriptions -/

/-- A user as the packets name one, on the connection of a proxy. -/
structure Subscription where
  proxy : ProxyRef
  roomId : Int
  userId : Int
deriving DecidableEq

/-- What a packet does to the subscriptions. -/
def serve (subs : List Subscription) (packet : Packet) : List Subscription :=
  match packet.request with
  | .linkRoomUser _ _ roomId userId _ => ⟨packet.proxy, roomId, userId⟩ :: subs
  | .unlinkRoomUser _ _ roomId userId _ => subs.filter (· ≠ ⟨packet.proxy, roomId, userId⟩)
  | _ => subs

/-- The packets sent between two worlds, served. -/
def served (w w' : World) (subs : List Subscription) : List Subscription :=
  (w'.sent.drop w.sent.length).foldl serve subs

/-- The name of a user, if the room of the user has a proxy. -/
def subscription (w : World) (u : UserRef) : Option Subscription :=
  (w.rooms (w.users u).titleRoom).proxy.map fun p => ⟨p, (w.rooms (w.users u).titleRoom).id,
    (w.users u).userId⟩

/-- The dialog and the servers. -/
structure Desk where
  dlg : MonitorDlg
  subs : List Subscription

/-- The messages of the dialog, and what servers and other handlers do in
between. -/
inductive DeskOp
  | lButtonUp
  | selectUser (user : Option UserRef)
  | linkScreenUser (screenIdx : Nat)
  | watchRoomUser (user : Option UserRef) (screenIdx : Nat)
  | unlinkScreenUser (user : Option UserRef) (screen : Option ScreenRef)
  | cleanScreens
  | linkRoom (proxy : ProxyRef) (room : RoomRef)
  | unlinkRoom (room : RoomRef)
  | closeProxy (proxy : ProxyRef)
  | addUser (room : RoomRef) (userId : Int) (micId : Nat)
  | modUser (user : UserRef) (audioSsrc videoSsrc : Nat)
  | delUser (room : RoomRef) (userId : Int)

namespace Desk

/-- A message names nobody, or a live user of a linked room. -/
def Named (w : World) (user : Option UserRef) : Prop :=
  ∀ u ∈ user, (w.users u).alive = true ∧ (w.rooms (w.users u).titleRoom).proxy ≠ none

instance (w : World) (user : Option UserRef) : Decidable (Named w user) :=
  inferInstanceAs (Decidable (∀ u ∈ user, _))

variable (s : Desk)

/-- After a handler. -/
def handled (dlg : MonitorDlg) : Desk := ⟨dlg, served s.dlg.w dlg.w s.subs⟩

/-- After something the servers know of: it leaves the subscriptions `keep`. -/
def informed (w : World) (keep : Subscription → Bool) : Desk :=
  ⟨{ s.dlg with w := w }, s.subs.filter keep⟩

def step : DeskOp → Option Desk
  | .lButtonUp => some (s.handled s.dlg.onLButtonUp)
  | .selectUser user => some (s.handled (s.dlg.onSelectUser user))
  | .linkScreenUser idx =>
    if Named s.dlg.w s.dlg.dragingUser then (s.dlg.onLinkScreenUser idx).map s.handled else none
  | .watchRoomUser user idx =>
    if Named s.dlg.w user then (s.dlg.onWatchRoomUser user idx).map s.handled else none
  | .unlinkScreenUser user screen =>
    if Named s.dlg.w user then some (s.handled (s.dlg.onUnlinkScreenUser user screen)) else none
  | .cleanScreens => some (s.handled s.dlg.onCleanScreens)
  | .linkRoom p r =>
    if (s.dlg.w.rooms r).proxy = none then
    some (s.informed (s.dlg.w.linkOnline p r).1 fun _ => true) else none
  | .unlinkRoom r =>
    (s.dlg.w.rooms r).proxy.map fun p =>
      s.informed (s.dlg.w.unlinkRoom p r).1 fun k =>
      !(k.proxy == p && k.roomId == (s.dlg.w.rooms r).id)
  | .closeProxy p => some (s.informed (s.dlg.w.destory p) fun k => k.proxy != p)
  | .addUser r userId micId =>
    if (s.dlg.w.rooms r).proxy ≠ none then
    some (s.informed (s.dlg.w.addUser r userId micId).1 fun _ => true)
    else none
  | .modUser u a v =>
    if (s.dlg.w.users u).alive then
    some (s.informed (s.dlg.w.modUser (some u) a v) fun _ => true) else none
  | .delUser r userId =>
    some (s.informed (s.dlg.w.delUser r userId).1 fun k =>
      !(some k.proxy == (s.dlg.w.rooms r).proxy && k.roomId == (s.dlg.w.rooms r).id &&
        k.userId == userId))

/-- After `Prepare`, with no room linked and nobody dragged. -/
structure Launched (s : Desk) : Prop where
  world : s.dlg.w.Launched
  proxy : ∀ r, (s.dlg.w.rooms r).proxy = none
  rooms : ∀ p, (s.dlg.w.proxies p).rooms = .empty
  sends : SendsSucceed s.dlg.w
  subs : s.subs = []

/-- Subscribed at some server. -/
def Subscribed (u : UserRef) : Prop := ∃ k ∈ s.subs, subscription s.dlg.w u = some k

/-- Exactly the users on screens are subscribed. -/
def Matched : Prop :=
  ∀ u, (s.dlg.w.users u).alive = true → (s.Subscribed u ↔ ∃ t, (s.dlg.w.screens t).user = some u)

end Desk

/-- The runs of the handlers and the servers. -/
def deskSys : LTS Desk DeskOp := .ofFn Desk.Launched Desk.step

/-! ## What the handlers leave alone -/

/-- Users change seats and packets are sent, nothing else. -/
structure Reseats (w w' : World) : Prop extends SameIdentity w w' where
  rooms : w'.rooms = w.rooms
  proxies : w'.proxies = w.proxies
  sendOk : w'.sendOk = w.sendOk

namespace Reseats

theorem refl (w : World) : Reseats w w := ⟨SameIdentity.refl w, rfl, rfl, rfl⟩

theorem trans {w w' w'' : World} (h : Reseats w w') (h' : Reseats w' w'') : Reseats w w'' where
  toSameIdentity := h.toSameIdentity.trans h'.toSameIdentity
  rooms := h'.rooms.trans h.rooms
  proxies := h'.proxies.trans h.proxies
  sendOk := h'.sendOk.trans h.sendOk

variable (w : World)

theorem disconnectUser (s : ScreenRef) : Reseats w (w.disconnectUser s).1 := by
  cases hs : (w.screens s).user with
  | none => rw [World.disconnectUser_of_idle w s hs]; exact refl w
  | some u =>
    exact ⟨.disconnect w s u hs, World.disconnectUser_rooms w s, World.disconnectUser_proxies w s,
      (SameSession.disconnectUser w s).sendOk⟩

theorem connectUser (s : ScreenRef) (u : UserRef) : Reseats w (w.connectUser s (some u)).1 := by
  refine ⟨.connect w s u, World.connectUser_rooms w s u, World.connectUser_proxies w s u, ?_⟩
  simp only [World.connectUser, World.connectScreen, World.mapIndex]
  split <;> split <;> rfl

theorem sendPacket (packet : Packet) : Reseats w (w.sendPacket packet).1 := by
  unfold World.sendPacket
  split <;> exact ⟨⟨fun _ => rfl, fun _ => rfl, fun _ => rfl, fun _ => rfl, rfl, fun _ => rfl⟩, rfl,
    rfl, rfl⟩

theorem seatFrame : SeatFrame Reseats where
  refl := refl
  trans := trans
  send := sendPacket
  connect := connectUser
  disconnect := disconnectUser

theorem subscription {w w' : World} (h : Reseats w w') (u : UserRef) :
    subscription w' u = subscription w u := by
  rw [L4.subscription, L4.subscription, h.titleRoom, h.userId, h.rooms]

end Reseats

/-- The outcome of sends stays given. -/
theorem sendOk_teardownFrame : TeardownFrame fun w w' => w'.sendOk = w.sendOk where
  refl _ := rfl
  trans h h' := h'.trans h
  screen w s := (Reseats.disconnectUser w s).sendOk
  room _ _ _ _ := rfl
  delete _ _ := rfl

theorem sendOk_callFrame (p : ProxyRef) : CallFrame p fun w w' => w'.sendOk = w.sendOk where
  refl _ := rfl
  trans h h' := h'.trans h
  send w packet := (Reseats.sendPacket w packet).sendOk
  proxy _ _ _ := rfl
  create _ _ := rfl

/-! ## The invariant -/

/-- Live users are users of linked rooms, and the subscriptions are the names
of the users on screens. -/
structure SubInv (w : World) (subs : List Subscription) : Prop where
  bij : Bij w
  homed : Homed w
  links : Links (fun _ => True) w
  linked : ∀ u, (w.users u).alive = true → (w.rooms (w.users u).titleRoom).proxy ≠ none
  sends : SendsSucceed w
  subs : ∀ k, k ∈ subs ↔ ∃ t u, (w.screens t).user = some u ∧ subscription w u = some k

/-- The packets sent from `w` to `w'` turn `subs` into `subs'`. -/
def Serves (w w' : World) (subs subs' : List Subscription) : Prop :=
  ∃ packets, w'.sent = w.sent ++ packets ∧ subs' = packets.foldl serve subs

theorem Serves.served {w w' : World} {subs subs' : List Subscription} (h : Serves w w' subs subs') :
    served w w' subs = subs' := by
  obtain ⟨packets, hs, rfl⟩ := h
  rw [L4.served, hs, List.drop_left]

theorem Serves.quiet {w w' : World} (h : w'.sent = w.sent) (subs : List Subscription) :
    Serves w w' subs subs :=
  ⟨[], by rw [h, List.append_nil], rfl⟩

theorem Serves.trans {w w' w'' : World} {subs subs' subs'' : List Subscription}
    (h : Serves w w' subs subs') (h' : Serves w' w'' subs' subs'') : Serves w w'' subs subs'' := by
  obtain ⟨ps, hs, rfl⟩ := h
  obtain ⟨ps', hs', rfl⟩ := h'
  exact ⟨ps ++ ps', by rw [hs', hs, List.append_assoc], by rw [List.foldl_append]⟩

namespace SubInv

variable {w : World} {subs : List Subscription}

/-- A live user is known under one name, and nobody else under it. -/
theorem subscription_inj (h : SubInv w subs) {u u' : UserRef} {k : Subscription}
    (ha : (w.users u).alive = true) (ha' : (w.users u').alive = true)
    (hu : subscription w u = some k) (hu' : subscription w u' = some k) : u = u' := by
  obtain ⟨p, hp, rfl⟩ := Option.map_eq_some_iff.mp hu
  obtain ⟨p', hp', he⟩ := Option.map_eq_some_iff.mp hu'
  simp only [Subscription.mk.injEq] at he
  obtain ⟨rfl, hid, hk⟩ := he
  have hr := h.links.back _ _ trivial hp
  have hr' := h.links.back _ _ trivial hp'
  rw [hid, hr] at hr'
  have hf := h.homed u ha
  have hf' := h.homed u' ha'
  rw [hk, ← Option.some.inj hr', hf] at hf'
  exact Option.some.inj hf'

theorem subscription_of_alive (h : SubInv w subs) {u : UserRef} (ha : (w.users u).alive = true) :
    ∃ k, subscription w u = some k := by
  obtain ⟨p, hp⟩ := Option.ne_none_iff_exists'.mp (h.linked u ha)
  exact ⟨_, by rw [subscription, hp, Option.map_some]⟩

/-- One user is on one screen. -/
theorem screen_inj (h : SubInv w subs) {t t' : ScreenRef} {u : UserRef}
    (ht : (w.screens t).user = some u) (ht' : (w.screens t').user = some u) : t = t' := by
  have ha := h.bij.shows t u ht
  exact Option.some.inj (((h.bij.paired t u ha).mp ht).symm.trans ((h.bij.paired t' u ha).mp ht'))

theorem matched {s : Desk} (h : SubInv s.dlg.w s.subs) : s.Matched := by
  intro u ha
  constructor
  · intro ⟨k, hk, hu⟩
    obtain ⟨t, u', ht, hu'⟩ := (h.subs k).mp hk
    have he := h.subscription_inj ha (h.bij.shows t u' ht) hu hu'
    exact ⟨t, he ▸ ht⟩
  · intro ⟨t, ht⟩
    obtain ⟨k, hk⟩ := h.subscription_of_alive ha
    exact ⟨k, (h.subs k).mpr ⟨t, u, ht, hk⟩, hk⟩

/-- After a change of seats, what is left to show is that the subscriptions
are right. -/
theorem reseat (h : SubInv w subs) {w' : World} {subs' : List Subscription} (hm : Reseats w w')
    (hb : Bij w')
    (hsubs : ∀ k, k ∈ subs' ↔ ∃ t u, (w'.screens t).user = some u ∧ subscription w u = some k) :
    SubInv w' subs' where
  bij := hb
  homed := h.homed.same hm.toSameIdentity
  links := h.links.congr (fun p => by rw [hm.proxies]) (fun r => by rw [hm.rooms])
    fun r => by rw [hm.rooms]
  linked u ha := by
    rw [hm.alive] at ha
    rw [hm.titleRoom, hm.rooms]
    exact h.linked u ha
  sends n := by rw [hm.sendOk]; exact h.sends n
  subs k := by
    rw [hsubs]
    simp only [hm.subscription]

/-! ## Unlinking and linking -/

theorem sendPacket_sent (h : SubInv w subs) (packet : Packet) :
    (w.sendPacket packet).1.sent = w.sent ++ [packet] := by
  rw [World.sendPacket, if_pos (h.sends _)]

/-- What `UnlinkScreenUser` puts on the wire for a user with a name. -/
theorem unlinkScreenUser_serves (h : SubInv w subs) (t : ScreenRef) (u : UserRef) {k : Subscription}
    (hk : subscription w u = some k) :
    Serves w (w.unlinkScreenUser (some t) (some u)) subs (subs.filter (· ≠ k)) := by
  obtain ⟨p, hp, rfl⟩ := Option.map_eq_some_iff.mp hk
  have hd := Reseats.disconnectUser w t
  have hsent := (SameSession.disconnectUser w t).sent
  unfold World.unlinkScreenUser
  dsimp only
  rw [hd.titleRoom, hd.rooms, hp]
  refine ⟨[(w.disconnectUser t).1.unlinkRoomUserPacket p u], ?_, ?_⟩
  · change ((w.disconnectUser t).1.sendPacket _).1.sent = _
    rw [World.sendPacket, if_pos (by rw [hd.sendOk]; exact h.sends _)]
    dsimp only
    rw [hsent]
  · simp only [World.unlinkRoomUserPacket, serve, List.foldl_cons, List.foldl_nil, hd.titleRoom,
      hd.userId, hd.rooms]

/-- The screen that shows the user lets go, and the server is told. -/
theorem unlink (h : SubInv w subs) {t : ScreenRef} {u : UserRef}
    (ht : (w.screens t).user = some u) :
    ∃ subs', Serves w (w.unlinkScreenUser (some t) (some u)) subs subs' ∧
      SubInv (w.unlinkScreenUser (some t) (some u)) subs' := by
  have ha := h.bij.shows t u ht
  obtain ⟨k, hk⟩ := h.subscription_of_alive ha
  refine ⟨_, h.unlinkScreenUser_serves t u hk, h.reseat (Reseats.seatFrame.unlinkScreenUser w _ _)
    (h.bij.steps (unlinkScreenUser_steps w _ _)) fun k' => ?_⟩
  rw [List.mem_filter, h.subs, (unlinkScreenUser_wall w t u).screens]
  simp only [World.disconnectUser_screens w t _ ht, decide_eq_true_eq]
  constructor
  · intro ⟨⟨t', v, ht', hv⟩, hne⟩
    refine ⟨t', v, ?_, hv⟩
    rw [if_neg]
    · exact ht'
    · rintro rfl
      cases ht.symm.trans ht'
      exact hne (Option.some.inj (hv.symm.trans hk))
  · intro ⟨t', v, ht', hv⟩
    split at ht'
    · cases ht'
    · rename_i hne
      refine ⟨⟨t', v, ht', hv⟩, ?_⟩
      rintro rfl
      cases h.subscription_inj (h.bij.shows t' v ht') ha hv hk
      exact hne (h.screen_inj ht' ht)

/-- An idle screen takes a user off every screen, and the server is told. -/
theorem linkAndConnect (h : SubInv w subs) {p : ProxyRef} {t : ScreenRef} {u : UserRef}
    (ha : (w.users u).alive = true) (hp : (w.rooms (w.users u).titleRoom).proxy = some p)
    (ht : (w.screens t).user = none) (hu : (w.users u).screen = none) :
    ∃ subs', Serves w ((w.linkRoomUser p (some u)).1.connectUser t (some u)).1 subs subs' ∧
      SubInv ((w.linkRoomUser p (some u)).1.connectUser t (some u)).1 subs' := by
  have he := SameWall.linkRoomUser w p (some u)
  have hsent : ((w.linkRoomUser p (some u)).1.connectUser t (some u)).1.sent =
      w.sent ++ [w.linkRoomUserPacket p u] := by
    rw [← h.sendPacket_sent]
    simp only [World.connectUser, World.connectScreen, World.mapIndex]
    split <;> split <;> rfl
  have hk : subscription w u = some ⟨p, (w.rooms (w.users u).titleRoom).id,
      (w.users u).userId⟩ := by
    rw [subscription, hp, Option.map_some]
  refine ⟨_, ⟨_, hsent, rfl⟩, h.reseat ((Reseats.sendPacket w _).trans (.connectUser _ t u))
    (h.bij.steps (linkAndConnect_steps w p t u ht hu ha)) fun k => ?_⟩
  rw [List.foldl_cons, List.foldl_nil]
  simp only [World.linkRoomUserPacket, serve, List.mem_cons, h.subs]
  constructor
  · intro hor
    rcases hor with rfl | ⟨t', v, ht', hv⟩
    · exact ⟨t, u, by rw [World.connectUser_screens, if_pos rfl], hk⟩
    · refine ⟨t', v, ?_, hv⟩
      rw [World.connectUser_screens, he.screens, if_neg]
      · exact ht'
      · rintro rfl
        rw [ht] at ht'
        cases ht'
  · rintro ⟨t', v, ht', hv⟩
    rw [World.connectUser_screens, he.screens] at ht'
    split at ht'
    · cases ht'
      exact .inl (Option.some.inj (hv.symm.trans hk))
    · exact .inr ⟨t', v, ht', hv⟩

theorem takeScreen (h : SubInv w subs) {p : ProxyRef} (t : ScreenRef) {u : UserRef}
    (ha : (w.users u).alive = true) (hp : (w.rooms (w.users u).titleRoom).proxy = some p)
    (hu : (w.users u).screen = none) :
    ∃ subs', Serves w (w.takeScreen p t u) subs subs' ∧ SubInv (w.takeScreen p t u) subs' := by
  unfold World.takeScreen World.getUser?
  split
  · rename_i old hold
    split
    · exact ⟨subs, .quiet rfl subs, h⟩
    · obtain ⟨subs₁, hs₁, h₁⟩ := h.unlink hold
      have hw := unlinkScreenUser_wall w t old
      have hd := Reseats.disconnectUser w t
      have hm := Reseats.seatFrame.unlinkScreenUser w (some t) (some old)
      obtain ⟨subs₂, hs₂, h₂⟩ :=
        h₁.linkAndConnect (p := p) (t := t) (u := u) (by rw [hm.alive]; exact ha)
        (by rw [hm.titleRoom, hm.rooms]; exact hp)
          (by rw [hw.screens]; exact World.disconnectUser_idle w t)
        (by rw [hw.users]; exact disconnectUser_detached w t u hu)
      exact ⟨subs₂, hs₁.trans hs₂, h₂⟩
  · rename_i hidle
    exact h.linkAndConnect ha hp hidle hu

/-- `LinkScreenUser` of a live user of a linked room. -/
theorem linkScreenUser (h : SubInv w subs) {w' : World} {idx : Nat} {u : UserRef}
    (ha : (w.users u).alive = true) (hl : w.linkScreenUser idx (some u) = some w') :
    ∃ subs', Serves w w' subs subs' ∧ SubInv w' subs' := by
  have hsame : w' = w → ∃ subs', Serves w w' subs subs' ∧ SubInv w' subs' := by
    rintro rfl
    exact ⟨subs, .quiet rfl subs, h⟩
  unfold World.linkScreenUser at hl
  split at hl
  · cases hl; exact hsame rfl
  dsimp only at hl
  split at hl
  · cases hl; exact hsame rfl
  rename_i p hp
  split at hl
  case isFalse => cases hl
  split at hl
  · rename_i old hold
    split at hl
    · cases hl; exact hsame rfl
    · cases hl
      -- the user's old screen shows this very user
      have ht := (h.bij.paired old u ha).mpr hold
      obtain ⟨subs₁, hs₁, h₁⟩ := h.unlink ht
      have hm := Reseats.seatFrame.unlinkScreenUser w (some old) (some u)
      have hw := unlinkScreenUser_wall w old u
      obtain ⟨subs₂, hs₂, h₂⟩ := h₁.takeScreen _ (by rw [hm.alive]; exact ha)
        (by rw [hm.titleRoom, hm.rooms]; exact hp)
        (by rw [hw.users, World.disconnectUser_users w old u ht, if_pos rfl])
      exact ⟨subs₂, hs₁.trans hs₂, h₂⟩
  · rename_i hnone
    cases hl
    exact h.takeScreen _ ha hp hnone

/-! ## Users coming and going -/

/-- Something that ends the subscriptions of the users `out`, takes these off
their screens and deletes them. -/
theorem torn (h : SubInv w subs) {w' : World} {subs' : List Subscription} {out : UserRef → Prop}
    (hst : WallSteps w w') (hl : Links (fun _ => True) w') (hf : Fades w w')
    (he : Elsewhere out w w')
    (hout : ∀ u, (w.users u).alive = true → out u → (w'.users u).alive = false)
    (hroom : ∀ u, (w.users u).alive = true → ¬ out u → (w'.rooms (w.users u).titleRoom).proxy =
      (w.rooms (w.users u).titleRoom).proxy ∧
        (w'.rooms (w.users u).titleRoom).id = (w.rooms (w.users u).titleRoom).id)
    (hs : SendsSucceed w')
    (hsubs : ∀ k u, (w.users u).alive = true → subscription w u = some k →
      (k ∈ subs' ↔ k ∈ subs ∧ ¬ out u))
    (hmono : ∀ k ∈ subs', k ∈ subs) : SubInv w' subs' := by
  have hin : ∀ u, (w'.users u).alive = true → (w.users u).alive = true ∧ ¬ out u := fun u ha => by
    have ha' := hf.alive u ha
    refine ⟨ha', fun ho => ?_⟩
    rw [hout u ha' ho] at ha
    cases ha
  have hname : ∀ u, (w.users u).alive = true → ¬ out u → subscription w' u = subscription w u :=
    fun u ha ho => by
    rw [subscription, subscription, he.users u ha ho, (hroom u ha ho).1, (hroom u ha ho).2]
  have hb := h.bij.steps hst
  refine ⟨hb, h.homed.steps hst, hl, fun u ha => ?_, hs, fun k => ⟨fun hk => ?_, ?_⟩⟩
  · obtain ⟨ha', ho⟩ := hin u ha
    rw [he.users u ha' ho, (hroom u ha' ho).1]
    exact h.linked u ha'
  · obtain ⟨t, u, ht, hu⟩ := (h.subs k).mp (hmono k hk)
    have ha := h.bij.shows t u ht
    have ho := ((hsubs k u ha hu).mp hk).2
    exact ⟨t, u, by rw [he.screens t u ht ha ho]; exact ht, by rw [hname u ha ho]; exact hu⟩
  · intro ⟨t, u, ht, hu⟩
    obtain ⟨ha, ho⟩ := hin u (hb.shows t u ht)
    rw [hname u ha ho] at hu
    exact (hsubs k u ha hu).mpr ⟨(h.subs k).mpr ⟨t, u, hf.user t u ht, hu⟩, ho⟩

theorem delUser (h : SubInv w subs) (r : RoomRef) (userId : Int) :
    SubInv (w.delUser r userId).1 (subs.filter fun k =>
      !(some k.proxy == (w.rooms r).proxy && k.roomId == (w.rooms r).id &&
        k.userId == userId)) := by
  have hrooms := World.delUser_rooms w r userId
  have hb := h.bij.steps (delUser_steps h.bij r userId)
  refine h.torn (delUser_steps h.bij r userId) ?_ (Fades.teardownFrame.delUser w r userId)
    (delUser_elsewhere h.bij r userId) (fun u ha ho => ?_) (fun u _ _ =>
      ⟨(hrooms _).1, (hrooms _).2.1⟩)
    (fun n => ?_) (fun k u ha hu => ?_) fun k hk => (List.mem_filter.mp hk).1
  · exact h.links.congr (fun p => by rw [sameProxies_teardownFrame.delUser w r userId])
      (fun r' => (hrooms r').2.1)
      fun r' => (hrooms r').1
  · by_contra hne
    have hf := h.homed.steps (delUser_steps h.bij r userId) u (by simpa using hne)
    obtain ⟨-, hr, hk⟩ := h.bij.filed r userId u ho
    rw [(sameOwner_teardownFrame.delUser w r userId u).1,
      (sameOwner_teardownFrame.delUser w r userId u).2, hr, hk,
      (World.delUser_users w r ho).1, StdMap.find?_erase, if_pos rfl] at hf
    cases hf
  · rw [(SameSession.teardownFrame.delUser w r userId).sendOk]
    exact h.sends n
  · obtain ⟨p, hp, rfl⟩ := Option.map_eq_some_iff.mp hu
    rw [List.mem_filter]
    refine and_congr_right fun _ => ?_
    simp only [Bool.not_eq_true', Bool.and_eq_false_iff, beq_eq_false_iff_ne, ne_eq]
    constructor
    · intro hne ho
      obtain ⟨-, hr, hk⟩ := h.bij.filed r userId u ho
      rw [hr] at hp hne
      rcases hne with (hne | hne) | hne
      · exact hne hp.symm
      · exact hne rfl
      · exact hne hk
    · intro ho
      by_contra hne
      simp only [not_or, not_not] at hne
      obtain ⟨⟨hp', hid⟩, hk⟩ := hne
      have hr := h.links.back _ _ trivial hp
      rw [hid, h.links.back _ _ trivial hp'.symm] at hr
      apply ho
      rw [Option.some.inj hr, ← hk]
      exact h.homed u ha

theorem unlinkRoom (h : SubInv w subs) {p : ProxyRef} {r : RoomRef}
    (hp : (w.rooms r).proxy = some p) :
    SubInv (w.unlinkRoom p r).1 (subs.filter fun k =>
      !(k.proxy == p && k.roomId == (w.rooms r).id)) := by
  have hr := h.links.back r p trivial hp
  obtain ⟨packet,
      hu⟩ : ∃ packet,
      (w.unlinkRoom p r).1 = ((w.delRoom p (w.rooms r).id r).1.sendPacket packet).1 :=
    ⟨_, by rw [World.unlinkRoom, World.delRoom_found w r p hr]⟩
  have hw := SameWall.sendPacket (w.delRoom p (w.rooms r).id r).1 packet
  have hm := Reseats.sendPacket (w.delRoom p (w.rooms r).id r).1 packet
  rw [← hu] at hw hm
  refine h.torn (unlinkRoom_steps h.bij p r) ?_
    ((Fades.callFrame p).unlinkRoom Fades.teardownFrame w r)
    (show Elsewhere (fun u => (w.users u).titleRoom = r) w _ from
      (delRoom_elsewhere h.bij p _ r).trans (.of_same hw.screens hw.users))
    (fun u ha ho => ?_) (fun u _ ho => ?_) (fun n => ?_) (fun k u ha hu => ?_) fun k hk =>
      (List.mem_filter.mp hk).1
  · refine (h.links.delRoom p r fun r' he => Option.some.inj (he.symm.trans hr)).congr
      (fun q => ?_) (fun q => ?_)
      fun q => ?_
    · rw [hm.proxies]
    · rw [hm.rooms]
    · rw [hm.rooms]
  · by_contra hne
    rw [hw.users] at hne
    have hd := h.homed.steps (delRoom_steps h.bij p (w.rooms r).id r) u (by simpa using hne)
    rw [((sameOwner_callFrame p).delRoom sameOwner_teardownFrame w _ r u).2, ho,
      World.delRoom_users w r p hr (h.bij.toFiling.userId r)] at hd
    cases hd
  · rw [hm.rooms, World.delRoom_rooms_ne w r p _ ho]
    exact ⟨rfl, rfl⟩
  · rw [(sendOk_callFrame p).unlinkRoom sendOk_teardownFrame w r]
    exact h.sends n
  · obtain ⟨q, hq, rfl⟩ := Option.map_eq_some_iff.mp hu
    rw [List.mem_filter]
    refine and_congr_right fun _ => ?_
    simp only [Bool.not_eq_true', Bool.and_eq_false_iff, beq_eq_false_iff_ne, ne_eq]
    constructor
    · rintro hne rfl
      rcases hne with hne | hne
      · exact hne (Option.some.inj (hq.symm.trans hp))
      · exact hne rfl
    · intro ho
      by_contra hne
      simp only [not_or, not_not] at hne
      have hb := h.links.back _ _ trivial hq
      rw [hne.1, hne.2, hr] at hb
      exact ho (Option.some.inj hb).symm

theorem closeProxy (h : SubInv w subs) (p : ProxyRef) :
    SubInv (w.destory p) (subs.filter fun k => k.proxy != p) := by
  have hid : ∀ k r, (w.proxies p).rooms.find? k = some r → (w.rooms r).id = k := fun k r hf =>
    (h.links.entry p k r hf).2.1
  have ht := destory_tornDown p h.bij hid
  refine h.torn (destory_steps h.bij p) (h.links.destory h.bij p)
    ((Fades.callFrame p).destory Fades.teardownFrame w)
    (destory_elsewhere p h.bij hid) (fun u ha ho => ?_) (fun u _ ho => ?_) (fun n =>
      ?_) (fun k u ha hu => ?_)
    fun k hk => (List.mem_filter.mp hk).1
  · by_contra hne
    have hd := h.homed.steps (destory_steps h.bij p) u (by simpa using hne)
    rw [((sameOwner_callFrame p).destory sameOwner_teardownFrame w u).2, (ht.held _ ho).2] at hd
    cases hd
  · rw [ht.free _ ho]
    exact ⟨rfl, rfl⟩
  · rw [(sendOk_callFrame p).destory sendOk_teardownFrame w]
    exact h.sends n
  · obtain ⟨q, hq, rfl⟩ := Option.map_eq_some_iff.mp hu
    rw [List.mem_filter]
    refine and_congr_right fun _ => ?_
    have hb := h.links.back _ _ trivial hq
    rw [bne_iff_ne]
    constructor
    · intro hne ho
      have he := (h.links.entry p _ _ ho).2.2
      exact hne (Option.some.inj (hq.symm.trans he))
    · rintro ho rfl
      exact ho hb

/-- A change outside the wall that keeps the rooms of live users as they are. -/
theorem sameWall (h : SubInv w subs) {w' : World} (hw : SameWall w w')
    (hl : Links (fun _ => True) w')
    (hroom : ∀ u, (w.users u).alive = true → (w'.rooms (w.users u).titleRoom).proxy =
      (w.rooms (w.users u).titleRoom).proxy ∧
        (w'.rooms (w.users u).titleRoom).id = (w.rooms (w.users u).titleRoom).id)
    (hs : w'.sendOk = w.sendOk) : SubInv w' (subs.filter fun _ => true) :=
  h.torn hw.steps hl
    ⟨fun s u hu => by rwa [hw.screens] at hu, fun u ha => by rwa [hw.users] at ha⟩
    (show Elsewhere (fun _ => False) w w' from .of_same hw.screens hw.users)
    (fun _ _ ho => ho.elim) (fun u ha _ => hroom u ha) (fun n => by rw [hs]; exact h.sends n)
    (fun k _ _ _ => by simp) fun k hk => (List.mem_filter.mp hk).1

theorem linkRoom (h : SubInv w subs) (p : ProxyRef) {r : RoomRef} (hr : (w.rooms r).proxy = none) :
    SubInv (w.linkOnline p r).1 (subs.filter fun _ => true) := by
  have hadd : ∀ r', r' ≠ r → (w.addRoom p (w.rooms r).id r).1.rooms r' = w.rooms r' :=
    fun r' hne => by
    unfold World.addRoom
    split
    · rfl
    · dsimp only
      rw [World.onCreate, World.modifyRoom_rooms, if_neg hne]
      rfl
  have he := World.linkOnline_eq w p r
  refine h.sameWall ((SameWall.callFrame p).linkOnline w r) ?_ (fun u ha =>
    ?_) ((sendOk_callFrame p).linkOnline w r)
  · exact (h.links.addRoom p trivial hr).congr (fun q => by rw [he.2]) (fun q => by rw [he.1])
      fun q => by rw [he.1]
  · -- the room had no proxy, so no live user is in it
    rw [he.1, hadd]
    · exact ⟨rfl, rfl⟩
    · intro hu
      exact h.linked u ha (by rw [hu, hr])

theorem newUser (h : SubInv w subs) {r : RoomRef} (hr : (w.rooms r).proxy ≠ none) (userId : Int)
    (micId : Nat) (hn : (w.rooms r).users.find? userId = none) :
    SubInv (w.newUser r userId micId) subs := by
  have hroom : ∀ r', ((w.newUser r userId micId).rooms r').id = (w.rooms r').id ∧
      ((w.newUser r userId micId).rooms r').proxy = (w.rooms r').proxy := fun r' => by
    simp only [World.newUser, World.modifyRoom_rooms, World.modifyUser_rooms]
    split
    · rename_i he; rw [he]; exact ⟨rfl, rfl⟩
    · exact ⟨rfl, rfl⟩
  have hst := WallStep.create w r userId micId hn
  refine ⟨h.bij.step hst, h.homed.step hst, h.links.congr (fun _ => rfl) (fun r' => (hroom r').1)
    fun r' => (hroom r').2, fun u ha => ?_, h.sends, fun k => ?_⟩
  · rw [World.newUser_users] at ha ⊢
    split at ha
    · rw [(hroom _).2, if_pos ‹_›]
      exact hr
    · rw [(hroom _).2, if_neg ‹_›]
      exact h.linked u ha
  · rw [h.subs]
    refine exists_congr fun t => exists_congr fun u => and_congr_right fun ht => ?_
    have hne : u ≠ w.nextUser := Nat.ne_of_lt (h.bij.fresh u (h.bij.shows t u ht))
    rw [subscription, subscription, World.newUser_users, if_neg hne, (hroom _).1, (hroom _).2]

theorem addUser (h : SubInv w subs) {r : RoomRef} (hr : (w.rooms r).proxy ≠ none) (userId : Int)
    (micId : Nat) :
    SubInv (w.addUser r userId micId).1 (subs.filter fun _ => true) := by
  have hall : (subs.filter fun _ => true) = subs := List.filter_eq_self.mpr fun _ _ => rfl
  have hd : SubInv (if (w.rooms r).users.isEmpty then w.delAll r else w)
    (subs.filter fun _ => true) ∧
      ((if (w.rooms r).users.isEmpty then w.delAll r else w).rooms r).proxy =
      (w.rooms r).proxy := by
    split
    · have hroom : ∀ r', ((w.delAll r).rooms r').proxy = (w.rooms r').proxy ∧
          ((w.delAll r).rooms r').id = (w.rooms r').id := fun r' => by
        rw [World.delAll, World.modifyRoom_rooms]
        split
        · rename_i he; rw [he]; exact ⟨rfl, rfl⟩
        · exact ⟨rfl, rfl⟩
      exact ⟨h.sameWall (.delAll w r) (h.links.congr (fun _ => rfl) (fun r' =>
        (hroom r').2) fun r' => (hroom r').1)
        (fun u _ => hroom _) rfl, (hroom r).1⟩
    · rw [hall]
      exact ⟨h, rfl⟩
  obtain ⟨hd, hp⟩ := hd
  rw [hall] at hd ⊢
  unfold World.addUser
  generalize (if (w.rooms r).users.isEmpty then w.delAll r else w) = w₁ at hd hp
  dsimp only
  split
  · rename_i u _
    have hm : Reseats w₁ (w₁.modifyUser u fun x => { x with micId := micId }) := by
      refine ⟨⟨fun _ => rfl, fun u' => ?_, fun u' => ?_, fun u' => ?_, rfl, fun _ => rfl⟩, rfl, rfl,
        rfl⟩
      all_goals rw [World.modifyUser_users]; split <;> simp_all
    exact hd.reseat hm (hd.bij.step (.micId w₁ u micId)) hd.subs
  · rename_i hn
    exact hd.newUser (by rw [hp]; exact hr) userId micId hn

theorem modUser (h : SubInv w subs) (u : UserRef) (a v : Nat) :
    SubInv (w.modUser (some u) a v) (subs.filter fun _ => true) := by
  rw [List.filter_eq_self.mpr fun _ _ => rfl]
  have hsend : (w.modMedia u a v).sendOk = w.sendOk := by
    unfold World.modMedia World.mapIndex
    dsimp only
    split
    · split <;> split <;> rfl
    · rfl
  refine h.reseat ⟨.modMedia w u a v, World.modMedia_rooms w u a v, World.modMedia_proxies w u a v,
    hsend⟩
    (h.bij.modMedia u a v) fun k => ?_
  change k ∈ subs ↔ ∃ t u', ((w.modMedia u a v).screens t).user = some u' ∧ _
  rw [World.modMedia_screens]
  exact h.subs k

end SubInv

/-! ## Cleaning -/

theorem cleanScreens_of_idle {w : World} (h : ∀ t, (w.screens t).user = none) :
    w.cleanScreens = w := by
  have key : ∀ ts : List ScreenRef, ts.foldl (fun w t => (w.disconnectUser t).1) w = w :=
    fun ts => by
    induction ts with
    | nil => rfl
    | cons t ts ih => rw [List.foldl_cons, World.disconnectUser_of_idle w t (h t), ih]
  exact key _

/-- Cleaning sends nothing. -/
theorem cleanScreens_sent (w : World) : w.cleanScreens.sent = w.sent := by
  have key : ∀ (ts : List ScreenRef) (w : World),
    (ts.foldl (fun w t => (w.disconnectUser t).1) w).sent = w.sent :=
    fun ts => by
      induction ts with
      | nil => exact fun w => rfl
      | cons t ts ih => exact fun w => (ih _).trans (SameSession.disconnectUser w t).sent
  exact key _ w

/-! ## Runs -/

/-- Screens are cleaned only while idle, and an unlink request names the user
its screen shows, or a user on no screen and an idle screen. -/
def Paired (s : Desk) : DeskOp → Prop
  | .cleanScreens => ∀ t, (s.dlg.w.screens t).user = none
  | .unlinkScreenUser (some u) (some t) => (s.dlg.w.screens t).user = some u ∨
      ((s.dlg.w.screens t).user = none ∧ (s.dlg.w.users u).screen = none)
  | _ => True

def Desk.Inv (s : Desk) : Prop := SubInv s.dlg.w s.subs

namespace Desk.Inv

variable {s : Desk}

theorem handled {dlg : MonitorDlg}
    (hw : ∃ subs', Serves s.dlg.w dlg.w s.subs subs' ∧ SubInv dlg.w subs') :
    (s.handled dlg).Inv := by
  obtain ⟨subs', hs, hi⟩ := hw
  rw [Desk.Inv, Desk.handled, hs.served]
  exact hi

theorem idle (h : s.Inv) {dlg : MonitorDlg} (hw : dlg.w = s.dlg.w) : (s.handled dlg).Inv :=
  .handled ⟨s.subs, .quiet (by rw [hw]) _, by rw [hw]; exact h⟩

theorem linkScreenUser (h : s.Inv) {idx : Nat} {s' : Desk}
    (hst : s.step (.linkScreenUser idx) = some s') : s'.Inv := by
  simp only [Desk.step] at hst
  split at hst
  case isFalse => cases hst
  rename_i hn
  obtain ⟨dlg, hd, rfl⟩ := Option.map_eq_some_iff.mp hst
  unfold MonitorDlg.onLinkScreenUser at hd
  split at hd
  · obtain ⟨w', hw, rfl⟩ := Option.map_eq_some_iff.mp hd
    rename_i hc
    obtain ⟨u, hu⟩ := Option.isSome_iff_exists.mp hc.2.1
    rw [hu] at hw
    exact .handled (SubInv.linkScreenUser h (hn u hu).1 hw)
  · cases hd
    exact h.idle rfl

theorem watchRoomUser (h : s.Inv) {user : Option UserRef} {idx : Nat} {s' : Desk}
    (hst : s.step (.watchRoomUser user idx) = some s') : s'.Inv := by
  simp only [Desk.step] at hst
  split at hst
  case isFalse => cases hst
  rename_i hn
  obtain ⟨dlg, hd, rfl⟩ := Option.map_eq_some_iff.mp hst
  unfold MonitorDlg.onWatchRoomUser at hd
  split at hd
  · obtain ⟨w', hw, rfl⟩ := Option.map_eq_some_iff.mp hd
    rename_i hc
    obtain ⟨u, hu⟩ := Option.isSome_iff_exists.mp hc.1
    rw [hu] at hw
    exact .handled (SubInv.linkScreenUser h (hn u hu).1 hw)
  · cases hd
    exact h.idle rfl

/-- What the unlink handler does for a live user of a linked room. -/
theorem unlink_serves (h : s.Inv) {u : UserRef} (t : ScreenRef)
    (ha : (s.dlg.w.users u).alive = true) :
    ∃ k, subscription s.dlg.w u = some k ∧
      (s.handled (s.dlg.onUnlinkScreenUser (some u) (some t))).subs = s.subs.filter (· ≠ k) := by
  obtain ⟨k, hk⟩ := SubInv.subscription_of_alive h ha
  exact ⟨k, hk, (SubInv.unlinkScreenUser_serves h t u hk).served⟩

theorem unlinkScreenUser (h : s.Inv) {user : Option UserRef} {screen : Option ScreenRef} {s' : Desk}
    (hp : Paired s (.unlinkScreenUser user screen))
    (hst : s.step (.unlinkScreenUser user screen) = some s') :
    s'.Inv := by
  simp only [Desk.step] at hst
  split at hst
  case isFalse => cases hst
  rename_i hn
  cases hst
  cases user with
  | none => exact h.idle rfl
  | some u =>
    cases screen with
    | none => exact h.idle rfl
    | some t =>
      rcases hp with ht | ⟨ht, hu⟩
      · exact .handled (SubInv.unlink h ht)
      · -- nobody loses a seat, and the server had no subscription of the user
        obtain ⟨k, hk, hsubs⟩ := h.unlink_serves t (hn u rfl).1
        have hwall := unlinkScreenUser_wall s.dlg.w t u
        rw [Desk.Inv, hsubs]
        change SubInv (s.dlg.w.unlinkScreenUser (some t) (some u)) _
        refine SubInv.reseat h (Reseats.seatFrame.unlinkScreenUser _ _ _)
          (h.bij.steps (unlinkScreenUser_steps s.dlg.w _ _)) fun k' => ?_
        rw [List.mem_filter, h.subs, hwall.screens, World.disconnectUser_of_idle _ t ht]
        refine and_iff_left_of_imp ?_
        intro ⟨t', v, ht', hv⟩
        rw [decide_eq_true_eq]
        rintro rfl
        have hv' := h.bij.shows t' v ht'
        rw [← SubInv.subscription_inj h hv' (hn u rfl).1 hv hk,
          (h.bij.paired t' v hv').mp ht'] at hu
        cases hu

end Desk.Inv

theorem Desk.Launched.inv {s : Desk} (h : s.Launched) : s.Inv where
  bij := .launched h.world
  homed u ha := by rw [h.world.users u] at ha; cases ha
  links := by
    refine ⟨fun p k r hf => ?_, fun r p _ hr => ?_⟩
    · rw [h.rooms] at hf
      cases hf
    · rw [h.proxy] at hr
      cases hr
  linked u ha := by rw [h.world.users u] at ha; cases ha
  sends := h.sends
  subs k := by
    rw [h.subs]
    refine iff_of_false List.not_mem_nil ?_
    intro ⟨t, u, ht, _⟩
    rw [(h.world.screens t).1] at ht
    cases ht

theorem desk_step_inv {s s' : Desk} {op : DeskOp} (h : s.Inv) (hp : Paired s op)
    (hst : s.step op = some s') :
    s'.Inv := by
  cases op
  case lButtonUp => cases hst; exact h.idle rfl
  case selectUser user => cases hst; cases user <;> exact h.idle rfl
  case linkScreenUser idx => exact h.linkScreenUser hst
  case watchRoomUser user idx => exact h.watchRoomUser hst
  case unlinkScreenUser user screen => exact h.unlinkScreenUser hp hst
  case cleanScreens => cases hst; exact h.idle (cleanScreens_of_idle hp)
  case linkRoom p r =>
    simp only [Desk.step] at hst
    split at hst
    · cases hst; exact SubInv.linkRoom h p ‹_›
    · cases hst
  case unlinkRoom r =>
    obtain ⟨p, hr, rfl⟩ := Option.map_eq_some_iff.mp hst
    exact SubInv.unlinkRoom h hr
  case closeProxy p => cases hst; exact SubInv.closeProxy h p
  case addUser r userId micId =>
    simp only [Desk.step] at hst
    split at hst
    · cases hst; exact SubInv.addUser h ‹_› userId micId
    · cases hst
  case modUser u a v =>
    simp only [Desk.step] at hst
    split at hst
    · cases hst; exact SubInv.modUser h u a v
    · cases hst
  case delUser r userId => cases hst; exact SubInv.delUser h r userId

/-- A request that is not true any more leaves somebody streamed and not
shown, or shown and not streamed. -/
theorem not_matched_unlink {s : Desk} (h : s.Inv) {u : UserRef} {t : ScreenRef}
    (ha : (s.dlg.w.users u).alive = true) (hp : ¬ Paired s (.unlinkScreenUser (some u) (some t))) :
    ¬ (s.handled (s.dlg.onUnlinkScreenUser (some u) (some t))).Matched := by
  intro hmatch
  obtain ⟨k, hk, hsubs⟩ := h.unlink_serves t ha
  have hm := Reseats.seatFrame.unlinkScreenUser s.dlg.w (some t) (some u)
  have hwall := unlinkScreenUser_wall s.dlg.w t u
  have hscreens : ((s.handled (s.dlg.onUnlinkScreenUser (some u) (some t))).dlg.w.screens) =
      (s.dlg.w.disconnectUser t).1.screens := hwall.screens
  obtain ⟨hne, hidle⟩ := not_or.mp hp
  cases ht : (s.dlg.w.screens t).user with
  | none =>
    -- the user named is on another screen
    obtain ⟨t', hu⟩ := Option.ne_none_iff_exists'.mp fun hu => hidle ⟨ht, hu⟩
    have hon := (h.bij.paired t' u ha).mpr hu
    obtain ⟨k', hk', hname⟩ := (hmatch u (hm.alive u ▸ ha)).mpr
      ⟨t', by rw [hscreens, World.disconnectUser_of_idle _ t ht]; exact hon⟩
    rw [hsubs, List.mem_filter, decide_eq_true_eq] at hk'
    exact hk'.2 (Option.some.inj ((hm.subscription u ▸ hname).symm.trans hk))
  | some v =>
    -- the user shown is still subscribed
    have hv := h.bij.shows t v ht
    obtain ⟨k', hk'⟩ := SubInv.subscription_of_alive h hv
    have hkk : k' ≠ k := by
      rintro rfl
      rw [SubInv.subscription_inj h hv ha hk' hk] at ht
      exact hne ht
    have hleft : k' ∈ s.subs.filter (· ≠ k) :=
      List.mem_filter.mpr ⟨(h.subs k').mpr ⟨t, v, ht, hk'⟩, by simpa using hkk⟩
    obtain ⟨t', ht'⟩ := (hmatch v (hm.alive v ▸ hv)).mp
      ⟨k', hsubs ▸ hleft, (hm.subscription v).trans hk'⟩
    rw [hscreens, World.disconnectUser_screens _ t t' ht] at ht'
    split at ht'
    · cases ht'
    · exact absurd (SubInv.screen_inj h ht' ht) ‹_›

theorem not_matched_clean {s : Desk} (h : s.Inv) (hp : ¬ Paired s .cleanScreens) :
    ¬ (s.handled s.dlg.onCleanScreens).Matched := by
  intro hmatch
  obtain ⟨t, ht⟩ := not_forall.mp hp
  obtain ⟨u, hu⟩ := Option.ne_none_iff_exists'.mp ht
  have ha := h.bij.shows t u hu
  have hm := Reseats.seatFrame.cleanScreens s.dlg.w
  have hsubs : (s.handled s.dlg.onCleanScreens).subs = s.subs :=
    (Serves.quiet (cleanScreens_sent s.dlg.w) s.subs).served
  obtain ⟨k, hk⟩ := SubInv.subscription_of_alive h ha
  obtain ⟨t', ht'⟩ := (hmatch u (hm.alive u ▸ ha)).mp
    ⟨k, by rw [hsubs]; exact (h.subs k).mpr ⟨t, u, hu, hk⟩, (hm.subscription u).trans hk⟩
  have hidle := cleanScreens_idle s.dlg.w t'
  rw [show (s.dlg.w.cleanScreens.screens t').user = some u from ht'] at hidle
  cases hidle

theorem desk_guarded : deskSys.Guarded Paired Desk.Inv Desk.Matched where
  init _ h0 := h0.inv
  step _ _ _ h hp hst := desk_step_inv h hp hst
  safe _ h := SubInv.matched h
  sharp s op s' h hp hst := by
    cases op
    case unlinkScreenUser user screen =>
      cases user with
      | none => exact absurd trivial hp
      | some u =>
        cases screen with
        | none => exact absurd trivial hp
        | some t =>
          simp only [deskSys, LTS.ofFn, Desk.step] at hst
          split at hst
          · cases hst; exact not_matched_unlink h (‹Desk.Named _ _› u rfl).1 hp
          · cases hst
    case cleanScreens => cases hst; exact not_matched_clean h hp
    all_goals exact absurd trivial hp

/-- **Subscriptions.** In a run of the handlers with live users of linked
rooms, the users on screens are exactly those subscribed in every state iff
every cleaning finds the screens idle and every unlink request is still
true when it is handled. -/
theorem matched_iff {s₀ s : Desk} {ms : List (Move Desk DeskOp)} (h0 : s₀.Launched)
    (hr : deskSys.Run s₀ ms s) :
    (∀ x ∈ visited s₀ ms, x.Matched) ↔ ∀ m ∈ ms, Paired m.src m.lbl :=
  desk_guarded.safe_along_iff h0 hr

/-! ## Runs with one room -/

instance (s : Desk) (op : DeskOp) : Decidable (Paired s op) := by
  unfold Paired
  split <;> infer_instance

/-- No room linked, nobody dragged. -/
def Desk.launched : Desk where
  dlg := ⟨{ World.launched with rooms := fun r => ⟨r, none, .empty, []⟩ }, false, none⟩
  subs := []

theorem Desk.launched_launched : Desk.launched.Launched where
  world := ⟨fun _ => ⟨rfl, rfl, rfl⟩, fun _ => rfl, fun _ => rfl, fun _ => rfl⟩
  proxy _ := rfl
  rooms _ := rfl
  sends _ := rfl
  subs := rfl

/-- Two users; the second takes the screen of the first, moves on, and is let
go by a request that is still true. -/
def pairedOps : List DeskOp :=
  [.cleanScreens, .linkRoom 0 5, .addUser 5 7 1, .addUser 5 8 2, .watchRoomUser (some 0) 3,
    .selectUser (some 1),
    .linkScreenUser 3, .watchRoomUser (some 1) 4,
      .unlinkScreenUser (some 1) (some 4), .unlinkRoom 5]

theorem matched_iff_pairedOps :
    (∀ m ∈ moves Desk.step Desk.launched pairedOps, Paired m.src m.lbl) ∧
      ∀ x ∈ visited Desk.launched (moves Desk.step Desk.launched pairedOps), x.Matched := by
  have hp : ∀ m ∈ moves Desk.step Desk.launched pairedOps, Paired m.src m.lbl := by decide +kernel
  exact ⟨hp,
    (matched_iff Desk.launched_launched (run_of_exec pairedOps (by decide +kernel))).mpr hp⟩

/-- A page is shown and the screens are cleaned. -/
def cleanedOps : List DeskOp :=
  [.linkRoom 0 5, .addUser 5 7 1, .watchRoomUser (some 0) 3, .cleanScreens]

/-- The user is on no screen and still subscribed. -/
theorem streams_on :
    ∃ s, deskSys.Reachable s ∧ s.subs = [⟨0, 5, 7⟩] ∧
    (∀ t, (s.dlg.w.screens t).user = none) ∧ ¬ s.Matched := by
  obtain ⟨s, hr, hp⟩ := exists_reachable_of_exec Desk.Launched Desk.step cleanedOps
    (fun s => s.subs == [⟨0, 5, 7⟩] && (List.finRange MAXIMAL_SCREEN_NUM).all (fun t =>
      (s.dlg.w.screens t).user == none) &&
      (s.dlg.w.users 0).alive && subscription s.dlg.w 0 == some ⟨0, 5, 7⟩)
    Desk.launched_launched (by decide +kernel)
  simp only [Bool.and_eq_true, beq_iff_eq, List.all_eq_true, List.mem_finRange, true_implies] at hp
  obtain ⟨⟨⟨hsubs, hidle⟩, ha⟩, hname⟩ := hp
  refine ⟨s, hr, hsubs, hidle, fun hm => ?_⟩
  obtain ⟨t, ht⟩ := (hm 0 ha).mp ⟨_, by rw [hsubs]; exact List.mem_cons_self, hname⟩
  rw [hidle t] at ht
  cases ht

end MonitorAgent.L4
