import MonitorAgent.L3Wall.ScreenMgr

/-!
# What calls leave alone

A call on a proxy is made of few kinds of change: a send, an update of the
proxy, a room coming under it (`CallFrame`). So is the teardown of a room: a
screen lets go, a room forgets users or its proxy, a user is deleted
(`TeardownFrame`), and so is the assignment of users to screens: a screen
takes a user or lets go, a packet is sent (`SeatFrame`). A relation between the
worlds before and after that holds across these changes holds across the calls,
so a frame condition is shown for the changes only.
-/
namespace MonitorAgent.L3

/-- A relation that holds across every change a call on `p` is made of. -/
structure CallFrame (p : ProxyRef) (R : World → World → Prop) : Prop where
  refl : ∀ w, R w w
  trans : ∀ {w w' w''}, R w w' → R w' w'' → R w w''
  send : ∀ w packet, R w (World.sendPacket w packet).1
  proxy : ∀ w f, (∀ x : AvsProxy, (f x).id = x.id) → R w (w.modifyProxy p f)
  create : ∀ w r, R w (World.onCreate w r p)

namespace CallFrame

variable {p : ProxyRef} {R : World → World → Prop} (h : CallFrame p R) (w : World)
include h

theorem setStatus (status : ProxyStatus) : R w (w.setStatus p status) :=
  h.proxy w (fun x => { x with status := status }) fun _ => rfl

theorem pushWaits (r : RoomRef) : R w (w.pushWaits p r) :=
  h.proxy w (fun x => { x with waitsRooms := x.waitsRooms ++ [r] }) fun _ => rfl

theorem login : R w (w.login p).1 := by
  have hs := h.send w (w.loginPacket p)
  unfold World.login World.sendLogin
  split
  · exact h.refl w
  · split
    · rename_i w' he
      rw [he] at hs
      exact h.trans hs (h.setStatus w' .logining)
    · rename_i he
      rwa [he] at hs

theorem sendNats (n : Nat) : R w (w.sendNats p n).1 := by
  induction n generalizing w with
  | zero => exact h.refl w
  | succ n ih =>
    have hs := h.send w (w.natPacket p)
    unfold World.sendNats
    split
    · rename_i w' he
      rw [he] at hs
      exact h.trans hs (ih w')
    · rename_i he
      rwa [he] at hs

theorem onRxLogin : R w (w.onRxLogin p).1 := by
  have hs := h.sendNats w 3
  unfold World.onRxLogin
  split
  · exact h.refl w
  · split
    · rename_i w' he
      rw [he] at hs
      exact h.trans hs (h.setStatus w' .nating)
    · rename_i he
      rwa [he] at hs

theorem addRoom (roomId : Int) (r : RoomRef) : R w (w.addRoom p roomId r).1 := by
  unfold World.addRoom
  split
  · exact h.refl w
  · exact h.trans (h.proxy w (fun x => { x with rooms := x.rooms.insert roomId r }) fun _ =>
      rfl) (h.create _ r)

theorem linkOnline (r : RoomRef) : R w (w.linkOnline p r).1 := by
  have ha := h.addRoom w (w.rooms r).id r
  unfold World.linkOnline
  split
  · rename_i w' he
    rw [he] at ha
    exact h.trans ha (h.send w' _)
  · rename_i he
    rwa [he] at ha

theorem linkRoom (r : RoomRef) : R w (w.linkRoom p r).1 := by
  unfold World.linkRoom
  split
  · exact h.linkOnline w r
  · exact h.pushWaits w r

theorem linkRooms (rs : List RoomRef) : R w (rs.foldl (fun w r => (w.linkRoom p r).1) w) := by
  induction rs generalizing w with
  | nil => exact h.refl w
  | cons r rs ih => exact h.trans (h.linkRoom w r) (ih _)

theorem drainWaits : R w (w.drainWaits p) :=
  h.trans (h.linkRooms w _) (h.proxy _ (fun x => { x with waitsRooms := [] }) fun _ => rfl)

theorem onRxNAT : R w (w.onRxNAT p).1 := by
  unfold World.onRxNAT
  split
  · exact h.refl w
  · exact h.trans (h.setStatus w .online) (h.drainWaits _)

end CallFrame

/-- Other proxies stay as they are. -/
theorem otherProxies_callFrame (p : ProxyRef) :
    CallFrame p fun w w' => ∀ q, q ≠ p → w'.proxies q = w.proxies q where
  refl _ _ _ := rfl
  trans h h' q hq := (h' q hq).trans (h q hq)
  send w packet _ _ := by rw [World.sendPacket_proxies]
  proxy w f _ q hq := by rw [World.modifyProxy_proxies, if_neg hq]
  create _ _ _ _ := rfl

/-- A relation that holds across every change the teardown of a room is made
of. -/
structure TeardownFrame (R : World → World → Prop) : Prop where
  refl : ∀ w, R w w
  trans : ∀ {w w' w''}, R w w' → R w' w'' → R w w''
  screen : ∀ w s, R w (World.disconnectUser w s).1
  room : ∀ w r f,
    (∀ x : TitleRoom, (f x).id = x.id ∧ ((f x).proxy = x.proxy ∨ (f x).proxy = none)) →
    R w (w.modifyRoom r f)
  delete : ∀ w u, R w (w.modifyUser u fun x => { x with alive := false })

namespace TeardownFrame

variable {R : World → World → Prop} (h : TeardownFrame R) (w : World)
include h

theorem addNull (r : RoomRef) : R w (w.addNull r) :=
  h.room w r (fun x => { x with items := x.items ++ [none] }) fun _ => ⟨rfl, .inl rfl⟩

theorem dropUser (r : RoomRef) (userId : Int) (u : UserRef) : R w (w.dropUser r userId u) :=
  h.trans (h.room w r (fun x =>
    { x with users := x.users.erase userId, items := x.items.erase (some u) })
    fun _ => ⟨rfl, .inl rfl⟩) (h.delete _ u)

theorem delFound (r : RoomRef) (userId : Int) (u : UserRef) : R w (w.delFound r userId u) := by
  rw [World.delFound_eq]
  split
  · exact h.trans (h.screen w _) (h.dropUser _ r userId u)
  · exact h.dropUser w r userId u

theorem delUser (r : RoomRef) (userId : Int) : R w (w.delUser r userId).1 := by
  have ha : ∀ w : World, R w (if (w.rooms r).users.isEmpty then w.addNull r else w) := by
    intro w
    split
    · exact h.addNull w r
    · exact h.refl w
  unfold World.delUser
  split
  · exact h.trans (h.delFound w r userId _) (ha _)
  · exact ha w

theorem onDestoryGo (r : RoomRef) (n : Nat) (puser : Option Int) :
    R w (World.onDestoryGo r n puser w) := by
  induction n generalizing w puser with
  | zero => exact h.refl w
  | succ n ih =>
    cases puser with
    | none => exact h.refl w
    | some k =>
      unfold World.onDestoryGo
      split
      · exact h.refl w
      · exact h.trans (h.delUser w r _) (ih _ _)

theorem onDestory (r : RoomRef) : R w (w.onDestory r) :=
  h.trans (h.onDestoryGo w r _ _)
    (h.room _ r (fun x => { x with proxy := none }) fun _ => ⟨rfl, .inr rfl⟩)

end TeardownFrame

/-! ## Rooms leaving a proxy -/

section Leave

variable {p : ProxyRef} {R : World → World → Prop} (hc : CallFrame p R)
  (ht : TeardownFrame R) (w : World)
include hc ht

theorem CallFrame.delRoom (roomId : Int) (r : RoomRef) : R w (w.delRoom p roomId r).1 := by
  unfold World.delRoom
  split
  · exact hc.refl w
  · exact hc.trans (hc.proxy w (fun x => { x with rooms := x.rooms.erase roomId }) fun _ =>
      rfl) (ht.onDestory _ r)

theorem CallFrame.unlinkRoom (r : RoomRef) : R w (w.unlinkRoom p r).1 := by
  have hd := hc.delRoom ht w (w.rooms r).id r
  unfold World.unlinkRoom
  split
  · rename_i w' _ he
    rw [he] at hd
    exact hc.trans hd (hc.send w' _)
  · rename_i he
    rwa [he] at hd

theorem CallFrame.destoryGo (n : Nat) (proom : Option Int) : R w (World.destoryGo p n proom w) := by
  induction n generalizing w proom with
  | zero => exact hc.refl w
  | succ n ih =>
    cases proom with
    | none => exact hc.refl w
    | some k =>
      unfold World.destoryGo
      split
      · exact hc.refl w
      · exact hc.trans (hc.delRoom ht w _ _) (ih _ _)

theorem CallFrame.destory : R w (w.destory p) :=
  hc.trans (hc.proxy w (fun x => { x with ip := none }) fun _ => rfl) (hc.destoryGo ht _ _ _)

end Leave

/-! ## Users changing seats -/

/-- A relation that holds across every change the assignment of users to
screens is made of. -/
structure SeatFrame (R : World → World → Prop) : Prop where
  refl : ∀ w, R w w
  trans : ∀ {w w' w''}, R w w' → R w' w'' → R w w''
  send : ∀ w packet, R w (World.sendPacket w packet).1
  connect : ∀ w s u, R w (World.connectUser w s (some u)).1
  disconnect : ∀ w s, R w (World.disconnectUser w s).1

namespace SeatFrame

variable {R : World → World → Prop} (h : SeatFrame R) (w : World)
include h

theorem linkRoomUser (p : ProxyRef) (user : Option UserRef) : R w (w.linkRoomUser p user).1 := by
  cases user with
  | none => exact h.refl w
  | some u => exact h.send w _

theorem unlinkRoomUser (p : ProxyRef) (user : Option UserRef) :
    R w (w.unlinkRoomUser p user).1 := by
  cases user with
  | none => exact h.refl w
  | some u => exact h.send w _

theorem unlinkScreenUser (screen : Option ScreenRef) (oldUser : Option UserRef) :
    R w (w.unlinkScreenUser screen oldUser) := by
  unfold World.unlinkScreenUser
  split
  · rename_i s u
    dsimp only
    split
    · exact h.disconnect w s
    · exact h.trans (h.disconnect w s) (h.unlinkRoomUser _ _ _)
  · exact h.refl w

theorem takeScreen (p : ProxyRef) (s : ScreenRef) (u : UserRef) : R w (w.takeScreen p s u) := by
  unfold World.takeScreen
  split
  · split
    · exact h.refl w
    · exact h.trans (h.unlinkScreenUser w _ _) (h.trans (h.linkRoomUser _ p _) (h.connect _ s u))
  · exact h.trans (h.linkRoomUser w p _) (h.connect _ s u)

theorem linkScreenUser {w' : World} {idx : Nat} {user : Option UserRef}
    (hl : w.linkScreenUser idx user = some w') :
    R w w' := by
  unfold World.linkScreenUser at hl
  split at hl
  · cases hl; exact h.refl w
  split at hl
  · cases hl; exact h.refl w
  split at hl
  · cases hl; exact h.refl w
  split at hl
  · split at hl
    · split at hl
      · cases hl; exact h.refl w
      · cases hl; exact h.trans (h.unlinkScreenUser w _ _) (h.takeScreen _ _ _ _)
    · cases hl; exact h.takeScreen w _ _ _
  · cases hl

theorem cleanScreens : R w w.cleanScreens := by
  have key : ∀ (ts : List ScreenRef) (w : World),
    R w (ts.foldl (fun w t => (w.disconnectUser t).1) w) := fun ts => by
    induction ts with
    | nil => exact h.refl
    | cons t ts ih => exact fun w => h.trans (h.disconnect w t) (ih _)
  exact key _ w

end SeatFrame

end MonitorAgent.L3
