import MonitorAgent.L3Wall.WallStep
import MonitorAgent.L3Wall.Frame

/-!
# Every operation is a sequence of wall steps

The functions of a proxy that only send, or only move rooms about, leave the
wall alone (`SameWall`). All others are taken apart into `WallStep`s, given
`Bij`: `WallSteps w (f w)` for each operation `f`.
-/
namespace MonitorAgent.L3

open Relation (ReflTransGen)

variable (w : World)

/-! ## Outside the wall -/

theorem SameWall.sendPacket (packet : Packet) : SameWall w (w.sendPacket packet).1 := by
  unfold World.sendPacket
  split <;> exact ⟨rfl, rfl, rfl, rfl, fun _ => rfl⟩

theorem SameWall.modifyProxy (p : ProxyRef) (f : AvsProxy → AvsProxy) :
    SameWall w (w.modifyProxy p f) :=
  ⟨rfl, rfl, rfl, rfl, fun _ => rfl⟩

theorem SameWall.modifyRoom (r : RoomRef) (f : TitleRoom → TitleRoom)
    (hf : ∀ x, (f x).users = x.users) :
    SameWall w (w.modifyRoom r f) :=
  ⟨rfl, rfl, rfl, rfl, fun r' => by rw [World.modifyRoom_rooms]; split <;> simp_all⟩

theorem SameWall.delAll (r : RoomRef) : SameWall w (w.delAll r) := .modifyRoom w r _ fun _ => rfl

theorem SameWall.addNull (r : RoomRef) : SameWall w (w.addNull r) := .modifyRoom w r _ fun _ => rfl

/-- No call on a proxy touches the wall, but for the teardown of a room. -/
theorem SameWall.callFrame (p : ProxyRef) : CallFrame p SameWall where
  refl := .refl
  trans := .trans
  send := .sendPacket
  proxy w f _ := .modifyProxy w p f
  create w r := .modifyRoom w r _ fun _ => rfl

theorem SameWall.linkRoomUser (p : ProxyRef) (user : Option UserRef) :
    SameWall w (w.linkRoomUser p user).1 := by
  cases user with
  | none => exact .refl w
  | some u => exact .sendPacket w _

theorem SameWall.unlinkRoomUser (p : ProxyRef) (user : Option UserRef) :
    SameWall w (w.unlinkRoomUser p user).1 := by
  cases user with
  | none => exact .refl w
  | some u => exact .sendPacket w _

/-! ## Rooms and users -/

theorem disconnectUser_steps (s : ScreenRef) : WallSteps w (w.disconnectUser s).1 := by
  cases h : (w.screens s).user with
  | none => rw [World.disconnectUser_of_idle w s h]
  | some u => exact .single (.disconnect w s u h)

theorem addUser_steps (r : RoomRef) (userId : Int) (micId : Nat) :
    WallSteps w (w.addUser r userId micId).1 := by
  have hd : SameWall w (if (w.rooms r).users.isEmpty then w.delAll r else w) := by
    split
    · exact .delAll w r
    · exact .refl w
  unfold World.addUser
  generalize (if (w.rooms r).users.isEmpty then w.delAll r else w) = w₁ at hd ⊢
  refine hd.steps.trans ?_
  dsimp only
  split
  · rename_i u _
    exact .single (.micId w₁ u micId)
  · rename_i hf
    exact .single (.create w₁ r userId micId hf)

variable {w} (hw : Bij w)
include hw

/-- Deleting a user who may be on a screen: the screen lets go, then the user
is deleted off every screen. -/
theorem delFound_steps (r : RoomRef) (userId : Int) (u : UserRef)
    (hf : (w.rooms r).users.find? userId = some u) : WallSteps w (w.delFound r userId u) := by
  rw [World.delFound_eq]
  cases hs : (w.users u).screen with
  | none => exact .single (.delete w r userId u hf hs)
  | some s =>
    have hu := (hw.paired s u (hw.filed r userId u hf).1).mpr hs
    refine .tail (.single (.disconnect w s u hu)) (.delete _ r userId u ?_ ?_)
    · rwa [World.disconnectUser_rooms]
    · simp [World.disconnectUser_users w s u hu]

theorem delUser_steps (r : RoomRef) (userId : Int) : WallSteps w (w.delUser r userId).1 := by
  unfold World.delUser
  split
  · rename_i u hf
    refine (delFound_steps hw r userId u hf).trans ?_
    dsimp only
    split
    · exact (SameWall.addNull _ r).steps
    · exact .refl
  · dsimp only
    split
    · exact (SameWall.addNull w r).steps
    · exact .refl

theorem onDestoryGo_steps (r : RoomRef) (n : Nat) (puser : Option Int) :
    WallSteps w (World.onDestoryGo r n puser w) := by
  induction n generalizing w puser with
  | zero => exact .refl
  | succ n ih =>
    cases puser with
    | none => exact .refl
    | some k =>
      unfold World.onDestoryGo
      split
      · exact .refl
      · rename_i u _
        have hd := delUser_steps hw r (w.users u).userId
        exact hd.trans (ih (hw.steps hd) _)

theorem onDestory_steps (r : RoomRef) : WallSteps w (w.onDestory r) :=
  (onDestoryGo_steps hw r _ _).trans
    (SameWall.modifyRoom _ r (fun x => { x with proxy := none }) fun _ => rfl).steps

theorem delRoom_steps (p : ProxyRef) (roomId : Int) (r : RoomRef) :
    WallSteps w (w.delRoom p roomId r).1 := by
  unfold World.delRoom
  split
  · exact .refl
  · have he := SameWall.modifyProxy w p fun x => { x with rooms := x.rooms.erase roomId }
    exact he.steps.trans (onDestory_steps (hw.steps he.steps) r)

theorem unlinkRoom_steps (p : ProxyRef) (r : RoomRef) : WallSteps w (w.unlinkRoom p r).1 := by
  have hd := delRoom_steps hw p (w.rooms r).id r
  unfold World.unlinkRoom
  split
  · rename_i w' _ he
    rw [he] at hd
    exact hd.trans (SameWall.sendPacket w' _).steps
  · rename_i w' _ _ _ he
    rwa [he] at hd

theorem destoryGo_steps (p : ProxyRef) (n : Nat) (proom : Option Int) :
    WallSteps w (World.destoryGo p n proom w) := by
  induction n generalizing w proom with
  | zero => exact .refl
  | succ n ih =>
    cases proom with
    | none => exact .refl
    | some k =>
      unfold World.destoryGo
      split
      · exact .refl
      · rename_i r _
        have hd := delRoom_steps hw p (w.rooms r).id r
        exact hd.trans (ih (hw.steps hd) _)

theorem destory_steps (p : ProxyRef) : WallSteps w (w.destory p) := by
  have he := SameWall.modifyProxy w p fun x => { x with ip := none }
  exact he.steps.trans (destoryGo_steps (hw.steps he.steps) p _ _)

omit hw

/-! ## Screens -/

variable (w)

theorem cleanScreens_steps : WallSteps w w.cleanScreens := by
  have key : ∀ (ss : List ScreenRef) (w : World),
      WallSteps w (ss.foldl (fun w s => (w.disconnectUser s).1) w) := fun ss => by
    induction ss with
    | nil => exact fun w => .refl
    | cons s ss ih => exact fun w => (disconnectUser_steps w s).trans (ih _)
  exact key _ w

/-- Cleaned screens are idle. -/
theorem cleanScreens_idle (t : ScreenRef) : (w.cleanScreens.screens t).user = none := by
  have key : ∀ (ss : List ScreenRef) (w : World), (t ∈ ss ∨ (w.screens t).user = none) →
      ((ss.foldl (fun w s => (w.disconnectUser s).1) w).screens t).user = none := fun ss => by
    induction ss with
    | nil => exact fun w h => h.resolve_left List.not_mem_nil
    | cons s ss ih =>
      intro w h
      refine ih _ ?_
      rw [World.disconnectUser_user]
      by_cases he : t = s
      · exact .inr (if_pos he)
      · refine h.imp (fun hm => (List.mem_cons.mp hm).resolve_left he) fun hn => ?_
        rw [if_neg he, hn]
  exact key _ w (.inl (List.mem_finRange t))

theorem cleanScreens_rooms : w.cleanScreens.rooms = w.rooms := by
  have key : ∀ (ss : List ScreenRef) (w : World),
      (ss.foldl (fun w s => (w.disconnectUser s).1) w).rooms = w.rooms := fun ss => by
    induction ss with
    | nil => exact fun w => rfl
    | cons s ss ih => exact fun w => (ih _).trans (World.disconnectUser_rooms w s)
  exact key _ w

theorem cleanScreens_identity : SameIdentity w w.cleanScreens := by
  have key : ∀ (ss : List ScreenRef) (w : World),
      SameIdentity w (ss.foldl (fun w s => (w.disconnectUser s).1) w) := fun ss => by
    induction ss with
    | nil => exact fun w => .refl w
    | cons s ss ih => exact fun w => (SameIdentity.disconnectUser w s).trans (ih _)
  exact key _ w

theorem unlinkScreenUser_steps (screen : Option ScreenRef) (oldUser : Option UserRef) :
    WallSteps w (w.unlinkScreenUser screen oldUser) := by
  unfold World.unlinkScreenUser
  split
  · rename_i s u
    refine (disconnectUser_steps w s).trans ?_
    dsimp only
    split
    · exact .refl
    · exact (SameWall.unlinkRoomUser _ _ _).steps
  · exact .refl

/-- What `UnlinkScreenUser` does to the seats is `DisconnectUser`. -/
theorem unlinkScreenUser_wall (s : ScreenRef) (u : UserRef) :
    SameWall (w.disconnectUser s).1 (w.unlinkScreenUser (some s) (some u)) := by
  unfold World.unlinkScreenUser
  dsimp only
  split
  · exact .refl _
  · exact .unlinkRoomUser _ _ _

/-- Nobody but the user shown loses a seat, and nobody gets one. -/
theorem disconnectUser_detached (s : ScreenRef) (u : UserRef) (hu : (w.users u).screen = none) :
    ((w.disconnectUser s).1.users u).screen = none := by
  cases hs : (w.screens s).user with
  | none => rwa [World.disconnectUser_of_idle w s hs]
  | some u' =>
    rw [World.disconnectUser_users w s u hs]
    split
    · rfl
    · exact hu

theorem disconnectUser_alive (s : ScreenRef) (u : UserRef) :
    ((w.disconnectUser s).1.users u).alive = (w.users u).alive :=
      (SameIdentity.disconnectUser w s).alive u

/-- The tail of `LinkScreenUser`: the packet, then the seat. -/
theorem linkAndConnect_steps (p : ProxyRef) (s : ScreenRef) (u : UserRef)
    (hs : (w.screens s).user = none) (hu : (w.users u).screen = none)
    (ha : (w.users u).alive = true) :
    WallSteps w ((w.linkRoomUser p (some u)).1.connectUser s (some u)).1 := by
  have he := SameWall.linkRoomUser w p (some u)
  refine .tail he.steps (.connect _ s u ?_ ?_ ?_)
  · rwa [he.screens]
  · rwa [he.users]
  · rwa [he.users]

theorem takeScreen_steps (p : ProxyRef) (s : ScreenRef) (u : UserRef)
    (hu : (w.users u).screen = none) (ha : (w.users u).alive = true) :
    WallSteps w (w.takeScreen p s u) := by
  unfold World.takeScreen World.getUser?
  split
  · rename_i oldUser _
    split
    · exact .refl
    · have he := unlinkScreenUser_wall w s oldUser
      refine (unlinkScreenUser_steps w _ _).trans (linkAndConnect_steps _ p s u ?_ ?_ ?_)
      · rw [he.screens]; exact World.disconnectUser_idle w s
      · rw [he.users]; exact disconnectUser_detached w s u hu
      · rw [he.users, disconnectUser_alive]; exact ha
  · rename_i hs
    exact linkAndConnect_steps w p s u hs hu ha

variable {w} (hw : Bij w)
include hw

theorem linkScreenUser_steps {w' : World} (idx : Nat) (u : UserRef) (ha : (w.users u).alive = true)
    (h : w.linkScreenUser idx (some u) = some w') : WallSteps w w' := by
  unfold World.linkScreenUser at h
  split at h
  · cases h; exact .refl
  dsimp only at h
  split at h
  · cases h; exact .refl
  split at h
  · split at h
    · rename_i hlt _ oldScreen hold
      split at h
      · cases h; exact .refl
      · cases h
        -- the old screen shows this very user, so letting go detaches it
        have hs := (hw.paired oldScreen u ha).mpr hold
        have he := unlinkScreenUser_wall w oldScreen u
        refine (unlinkScreenUser_steps w _ _).trans (takeScreen_steps _ _ _ u ?_ ?_)
        · rw [he.users, World.disconnectUser_users w oldScreen u hs, if_pos rfl]
        · rw [he.users, disconnectUser_alive]; exact ha
    · rename_i hnone
      cases h
      exact takeScreen_steps w _ _ u hnone ha
  · cases h

end MonitorAgent.L3
