import MonitorAgent.L3Wall.Frame

/-!
# Scenes

What the scene worker does for a frame, a NAT datagram or a disconnection:
`Maintain` of the classes in Monitor/Monitor/Scene/AvsProxyScene/src. The
watch list, which `RoomsInfoScene` tells of each room, is not part of this
state.

Whatever a scene of `p` does, proxies keep their ids and no room comes under a
proxy other than `p` (`maintain_handover`).
-/
namespace MonitorAgent.L4

open MonitorAgent.L3

/-- mirrors Monitor/Monitor/Scene/AvsProxyScene/inc/RoomsInfoScene.h:14-20 -/
structure UserInfo where
  userId : Int
  micId : Nat
  audioSsrc : Nat
  videoSsrc : Nat
deriving DecidableEq

/-- `user_count_` is the length of `users`.
mirrors Monitor/Monitor/Scene/AvsProxyScene/inc/RoomsInfoScene.h:22-27 -/
structure RoomInfo where
  roomId : Int
  users : List UserInfo
deriving DecidableEq

/-- A scene and its parameter, the proxy id apart. -/
inductive Scene
  | resLogin
  | nat
  | roomsInfo (rooms : List RoomInfo)
  | modMedia (roomId userId : Int) (audioSsrc videoSsrc : Nat)
  | addUser (roomId userId : Int) (micId : Nat)
  | delUser (roomId userId : Int)
  | keepAlive
deriving DecidableEq

/-- The users of one room: `j` is a `pj_uint8_t`, so with 256 of them the loop
does not end.
mirrors Monitor/Monitor/Scene/AvsProxyScene/src/RoomsInfoScene.cpp:36-45 -/
def applyUsers (w : World) (r : RoomRef) (users : List UserInfo) : Option World :=
  if 256 ≤ users.length then none
  else some (users.foldl (fun w x =>
    let (w, u) := w.addUser r x.userId x.micId
    w.modUser (some u) x.audioSsrc x.videoSsrc) w)

/-- mirrors Monitor/Monitor/Scene/AvsProxyScene/src/RoomsInfoScene.cpp:32-47 -/
def applyRoom (p : ProxyRef) (w : World) (x : RoomInfo) : Option World :=
  match w.getRoom p x.roomId with
  | some r => applyUsers w r x.users
  | none => some w

/-- `none`: the scene does not return.
mirrors Monitor/Monitor/Scene/AvsProxyScene/src/RoomsInfoScene.cpp:24-49 -/
def roomsInfoScene (w : World) (p : ProxyRef) (rooms : List RoomInfo) : Option World :=
  if 256 ≤ rooms.length then none else rooms.foldlM (applyRoom p) w

/-- mirrors Monitor/Monitor/Scene/AvsProxyScene/src/ModMediaScene.cpp:13-28 -/
def modMediaScene (w : World) (p : ProxyRef) (roomId userId : Int) (audioSsrc videoSsrc : Nat) :
    Option World :=
  match w.getRoom p roomId with
  | none => some w
  | some r => (w.getUser r userId).map fun u => w.modUser (some u) audioSsrc videoSsrc

/-- mirrors Monitor/Monitor/Scene/AvsProxyScene/src/AddUserScene.cpp:12-24 -/
def addUserScene (w : World) (p : ProxyRef) (roomId userId : Int) (micId : Nat) : World :=
  match w.getRoom p roomId with
  | none => w
  | some r => (w.addUser r userId micId).1

/-- mirrors Monitor/Monitor/Scene/AvsProxyScene/src/DelUserScene.cpp:11-27 -/
def delUserScene (w : World) (p : ProxyRef) (roomId userId : Int) : Option World :=
  match w.getRoom p roomId with
  | none => some w
  | some r => (w.getUser r userId).map fun _ => (w.delUser r userId).1

/-- `Maintain` of a TCP or UDP scene bound to `p`; `none` if it does not
return. -/
def maintain (w : World) (p : ProxyRef) : Scene → Option World
  | .resLogin => some (w.onRxLogin p).1
  | .nat => some (w.onRxNAT p).1
  | .roomsInfo rooms => roomsInfoScene w p rooms
  | .modMedia roomId userId audioSsrc videoSsrc =>
    modMediaScene w p roomId userId audioSsrc videoSsrc
  | .addUser roomId userId micId => some (addUserScene w p roomId userId micId)
  | .delUser roomId userId => delUserScene w p roomId userId
  | .keepAlive => some w

/-! ## Rooms change hands -/

/-- Proxies keep their ids, and a room that has another proxy afterwards has
`p`. -/
structure Handover (p : ProxyRef) (w w' : World) : Prop where
  id : ∀ q, (w'.proxies q).id = (w.proxies q).id
  proxy : ∀ r q, (w'.rooms r).proxy = some q → (w.rooms r).proxy = some q ∨ q = p

namespace Handover

variable {p : ProxyRef}

theorem refl (w : World) : Handover p w w := ⟨fun _ => rfl, fun _ _ => .inl⟩

theorem trans {w w' w'' : World} (h : Handover p w w') (h' : Handover p w' w'') :
    Handover p w w'' :=
  ⟨fun q => (h'.id q).trans (h.id q), fun r q hq => (h'.proxy r q hq).elim (h.proxy r q) .inr⟩

theorem of_same {w w' : World} (hp : w'.proxies = w.proxies) (hr : w'.rooms = w.rooms) :
    Handover p w w' :=
  ⟨fun q => by rw [hp], fun r q hq => .inl (by rwa [hr] at hq)⟩

variable (w : World)

theorem sendPacket (packet : Packet) : Handover p w (w.sendPacket packet).1 :=
  of_same (World.sendPacket_proxies w packet) (by unfold World.sendPacket; split <;> rfl)

theorem modifyProxy (q : ProxyRef) (f : AvsProxy → AvsProxy) (hf : ∀ x, (f x).id = x.id) :
    Handover p w (w.modifyProxy q f) where
  id q' := by
    simp only [World.modifyProxy, Function.update_apply]
    split
    · rename_i he; rw [hf, he]
    · rfl
  proxy _ _ := .inl

theorem modifyRoom (r : RoomRef) (f : TitleRoom → TitleRoom)
    (hf : ∀ x q, (f x).proxy = some q → x.proxy = some q ∨ q = p) :
    Handover p w (w.modifyRoom r f) where
  id _ := rfl
  proxy r' q hq := by
    rw [World.modifyRoom_rooms] at hq
    split at hq
    · rename_i he; rw [he]; exact hf _ q hq
    · exact .inl hq

theorem callFrame : CallFrame p (Handover p) where
  refl := refl
  trans := trans
  send := sendPacket
  proxy w f hf := modifyProxy w p f hf
  create w r := modifyRoom w r _ fun _ _ hq => .inr (Option.some.inj hq).symm

theorem teardownFrame : TeardownFrame (Handover p) where
  refl := refl
  trans := trans
  screen w s := of_same (World.disconnectUser_proxies w s) (World.disconnectUser_rooms w s)
  room w r f hf := modifyRoom w r f fun x q hq => by
    rcases (hf x).2 with he | he
    · exact .inl (he ▸ hq)
    · rw [he] at hq; cases hq
  delete _ _ := of_same rfl rfl

theorem newUser (r : RoomRef) (userId : Int) (micId : Nat) :
    Handover p w (w.newUser r userId micId) where
  id _ := rfl
  proxy r' q hq := by
    simp only [World.newUser, World.modifyRoom_rooms, World.modifyUser_rooms] at hq
    split at hq
    · rename_i he; rw [he]; exact .inl hq
    · exact .inl hq

theorem addUser (r : RoomRef) (userId : Int) (micId : Nat) :
    Handover p w (w.addUser r userId micId).1 := by
  have hd : Handover p w (if (w.rooms r).users.isEmpty then w.delAll r else w) := by
    split
    · exact modifyRoom w r _ fun _ _ => .inl
    · exact refl w
  unfold World.addUser
  generalize (if (w.rooms r).users.isEmpty then w.delAll r else w) = w₁ at hd ⊢
  refine hd.trans ?_
  dsimp only
  split
  · exact of_same rfl rfl
  · exact newUser w₁ r userId micId

theorem modUser (user : Option UserRef) (audioSsrc videoSsrc : Nat) :
    Handover p w (w.modUser user audioSsrc videoSsrc) := by
  cases user with
  | none => exact refl w
  | some u => exact of_same (World.modMedia_proxies ..) (World.modMedia_rooms ..)

end Handover

/-! ## What scenes are made of -/

/-- A relation that holds across the calls a scene of `p` is made of. -/
structure SceneFrame (p : ProxyRef) (R : World → World → Prop) : Prop where
  call : CallFrame p R
  teardown : TeardownFrame R
  addUser : ∀ w r userId micId, R w (World.addUser w r userId micId).1
  modUser : ∀ w user audioSsrc videoSsrc, R w (World.modUser w user audioSsrc videoSsrc)

namespace SceneFrame

variable {p : ProxyRef} {R : World → World → Prop} (h : SceneFrame p R) {w w' : World}
include h

theorem applyUsers {r : RoomRef} {users : List UserInfo} (hu : applyUsers w r users = some w') :
    R w w' := by
  have hgo : ∀ (users : List UserInfo) (w : World), R w (users.foldl (fun w x =>
      let (w, u) := w.addUser r x.userId x.micId
      w.modUser (some u) x.audioSsrc x.videoSsrc) w) := fun users => by
    induction users with
    | nil => exact h.call.refl
    | cons x users ih =>
      exact fun w => h.call.trans (h.call.trans (h.addUser w r _ _) (h.modUser _ _ _ _)) (ih _)
  unfold L4.applyUsers at hu
  split at hu
  · cases hu
  · cases hu; exact hgo _ w

theorem applyRoom {x : RoomInfo} (hr : applyRoom p w x = some w') : R w w' := by
  unfold L4.applyRoom at hr
  split at hr
  · exact h.applyUsers hr
  · cases hr; exact h.call.refl w

theorem roomsInfoScene {rooms : List RoomInfo} (hs : roomsInfoScene w p rooms = some w') :
    R w w' := by
  have hgo : ∀ (rooms : List RoomInfo) (w : World),
    rooms.foldlM (L4.applyRoom p) w = some w' → R w w' :=
    fun rooms => by
      induction rooms with
      | nil => intro w hw; cases hw; exact h.call.refl w'
      | cons x rooms ih =>
        intro w hw
        rw [List.foldlM_cons] at hw
        obtain ⟨w₁, h1, h2⟩ := Option.bind_eq_some_iff.mp hw
        exact h.call.trans (h.applyRoom h1) (ih w₁ h2)
  unfold L4.roomsInfoScene at hs
  split at hs
  · cases hs
  · exact hgo rooms w hs

theorem maintain {scene : Scene} (hm : maintain w p scene = some w') : R w w' := by
  cases scene with
  | resLogin => cases hm; exact h.call.onRxLogin w
  | nat => cases hm; exact h.call.onRxNAT w
  | roomsInfo rooms => exact h.roomsInfoScene hm
  | modMedia roomId userId a v =>
    simp only [L4.maintain, modMediaScene] at hm
    split at hm
    · cases hm; exact h.call.refl w
    · obtain ⟨u, -, rfl⟩ := Option.map_eq_some_iff.mp hm
      exact h.modUser w _ a v
  | addUser roomId userId micId =>
    simp only [L4.maintain, addUserScene] at hm
    split at hm
    · cases hm; exact h.call.refl w
    · cases hm; exact h.addUser w _ userId micId
  | delUser roomId userId =>
    simp only [L4.maintain, delUserScene] at hm
    split at hm
    · cases hm; exact h.call.refl w
    · obtain ⟨u, -, rfl⟩ := Option.map_eq_some_iff.mp hm
      exact h.teardown.delUser w _ userId
  | keepAlive => cases hm; exact h.call.refl w

end SceneFrame

theorem Handover.sceneFrame (p : ProxyRef) : SceneFrame p (Handover p) where
  call := Handover.callFrame
  teardown := Handover.teardownFrame
  addUser := Handover.addUser
  modUser := Handover.modUser

/-- A scene bound to `p` hands no room to another proxy. -/
theorem maintain_handover {p : ProxyRef} {w w' : World} {scene : Scene}
    (h : maintain w p scene = some w') : Handover p w w' :=
  (Handover.sceneFrame p).maintain h

end MonitorAgent.L4
