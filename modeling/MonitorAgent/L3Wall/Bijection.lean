import MonitorAgent.Core.LTS
import MonitorAgent.L3Wall.Operations

/-!
# Screens and users agree

The runs of the wall: any order of the operations that touch screens and
users, each taken as atomic. `connectUser` is enabled where its one caller
makes the call, for a live user off every screen and an idle screen; the
operations that are given a user are enabled for live users.

`seating_reachable`: in every reachable state a screen shows a live user
exactly when that user is on that screen, under the index the screen has; a
user on no screen has the invalid index; a screen takes media exactly when it
shows a user; and no screen shows a deleted one.
-/
namespace MonitorAgent.L3

open LTS

inductive WallOp
  | linkScreenUser (newScreenIdx : Nat) (newUser : UserRef)
  | unlinkScreenUser (screen : ScreenRef) (oldUser : UserRef)
  | connectUser (screen : ScreenRef) (user : UserRef)
  | disconnectUser (screen : ScreenRef)
  | cleanScreens
  | addUser (room : RoomRef) (userId : Int) (micId : Nat)
  | delUser (room : RoomRef) (userId : Int)
  | modUser (user : UserRef) (audioSsrc videoSsrc : Nat)
  | linkRoom (proxy : ProxyRef) (room : RoomRef)
  | onRxNAT (proxy : ProxyRef)
  | unlinkRoom (proxy : ProxyRef) (room : RoomRef)
  | onDestory (room : RoomRef)
  | destory (proxy : ProxyRef)

namespace World

def wallStep (w : World) : WallOp → Option World
  | .linkScreenUser idx u => if (w.users u).alive then w.linkScreenUser idx (some u) else none
  | .unlinkScreenUser s u =>
    if (w.users u).alive then some (w.unlinkScreenUser (some s) (some u)) else none
  | .connectUser s u =>
    if (w.screens s).user = none ∧ (w.users u).screen = none ∧ (w.users u).alive then
      some (w.connectUser s (some u)).1
    else none
  | .disconnectUser s => some (w.disconnectUser s).1
  | .cleanScreens => some w.cleanScreens
  | .addUser r userId micId => some (w.addUser r userId micId).1
  | .delUser r userId => some (w.delUser r userId).1
  | .modUser u a v => if (w.users u).alive then some (w.modUser (some u) a v) else none
  | .linkRoom p r => some (w.linkRoom p r).1
  | .onRxNAT p => some (w.onRxNAT p).1
  | .unlinkRoom p r => some (w.unlinkRoom p r).1
  | .onDestory r => some (w.onDestory r)
  | .destory p => some (w.destory p)

/-- After `Prepare`, before the server has told of any user.
mirrors Monitor/Monitor/ScreenMgr.cpp:142-146 -/
structure Launched (w : World) : Prop where
  screens : ∀ s, (w.screens s).user = none ∧ (w.screens s).index = s.val ∧
    (w.screens s).mediaActive = false
  users : ∀ u, (w.users u).alive = false
  rooms : ∀ r, (w.rooms r).users = .empty
  avIndexMap : ∀ m, w.avIndexMap m = .empty

end World

/-- The runs of the wall. -/
def wallSys : LTS World WallOp := .ofFn World.Launched World.wallStep

theorem Bij.launched {w : World} (h : w.Launched) : Bij w where
  paired s u ha := by rw [h.users u] at ha; cases ha
  idx s u ha := by rw [h.users u] at ha; cases ha
  noIdx u ha := by rw [h.users u] at ha; cases ha
  active s := by rw [(h.screens s).1, (h.screens s).2.2]; rfl
  shows s u he := by rw [(h.screens s).1] at he; cases he
  index s := (h.screens s).2.1
  filed r k u hf := by rw [h.rooms] at hf; cases hf
  fresh u ha := by rw [h.users u] at ha; cases ha

theorem wallStep_modUser {w w' : World} {u : UserRef} {a v : Nat}
    (h : w.wallStep (.modUser u a v) = some w') :
    (w.users u).alive = true ∧ w' = w.modMedia u a v := by
  simp only [World.wallStep] at h
  split at h
  · rename_i ha; cases h; exact ⟨ha, rfl⟩
  · cases h

/-- An operation is a sequence of wall steps, or it is `ModMedia`. -/
theorem wallStep_cases {w w' : World} {op : WallOp} (hw : Bij w) (h : w.wallStep op = some w') :
    WallSteps w w' ∨ ∃ u a v, op = .modUser u a v ∧ (w.users u).alive = true ∧
    w' = w.modMedia u a v := by
  cases op
  case linkScreenUser idx u =>
    simp only [World.wallStep] at h
    split at h
    · rename_i ha; exact .inl (linkScreenUser_steps hw idx u ha h)
    · cases h
  case unlinkScreenUser s u =>
    simp only [World.wallStep] at h
    split at h
    · cases h; exact .inl (unlinkScreenUser_steps w _ _)
    · cases h
  case connectUser s u =>
    simp only [World.wallStep] at h
    split at h
    · rename_i hc; cases h; exact .inl (.single (.connect w s u hc.1 hc.2.1 hc.2.2))
    · cases h
  case modUser u a v => exact .inr ⟨u, a, v, rfl, wallStep_modUser h⟩
  all_goals cases h; refine .inl ?_
  case disconnectUser s => exact disconnectUser_steps w s
  case cleanScreens => exact cleanScreens_steps w
  case addUser r userId micId => exact addUser_steps w r userId micId
  case delUser r userId => exact delUser_steps hw r userId
  case linkRoom p r => exact ((SameWall.callFrame p).linkRoom w r).steps
  case onRxNAT p => exact ((SameWall.callFrame p).onRxNAT w).steps
  case unlinkRoom p r => exact unlinkRoom_steps hw p r
  case onDestory r => exact onDestory_steps hw r
  case destory p => exact destory_steps hw p

theorem SameIdentity.modMedia (w : World) (u : UserRef) (a v : Nat) :
    SameIdentity w (w.modMedia u a v) where
  index s := by rw [World.modMedia_screens]
  alive u' := by rw [World.modMedia_users]; split <;> simp_all
  titleRoom u' := by rw [World.modMedia_users]; split <;> simp_all
  userId u' := by rw [World.modMedia_users]; split <;> simp_all
  nextUser := World.modMedia_nextUser w u a v
  roomUsers r := by rw [World.modMedia_rooms]

theorem Bij.modMedia {w : World} (h : Bij w) (u : UserRef) (a v : Nat) : Bij (w.modMedia u a v) :=
  h.congr (World.modMedia_screens w u a v)
    (fun u' => by rw [World.modMedia_users]; split <;> simp_all) (.modMedia w u a v)

theorem bij_inductive : wallSys.Inductive Bij where
  init _ h0 := .launched h0
  step w op w' hw hs := by
    rcases wallStep_cases hw hs with h | ⟨u, a, v, -, -, rfl⟩
    · exact hw.steps h
    · exact hw.modMedia u a v

/-- **Screens and users agree**, whatever operations ran in whatever order. -/
theorem seating_reachable (w : World) (hr : wallSys.Reachable w) : Seating w :=
  (bij_inductive.reachable w hr).toSeating

theorem World.launched_launched : World.launched.Launched :=
  ⟨fun _ => ⟨rfl, rfl, rfl⟩, fun _ => rfl, fun _ => rfl, fun _ => rfl⟩

/-- Two users, the second taking the screen of the first. -/
def displace : List WallOp :=
  [.addUser 0 7 1, .addUser 0 8 2, .linkScreenUser 3 0, .linkScreenUser 3 1]

theorem seating_displace :
    ∃ w, (w.screens 3).user = some 1 ∧ (w.users 0).screen = none ∧ Seating w := by
  obtain ⟨w, hr, hp⟩ := exists_reachable_of_exec World.Launched World.wallStep displace
    (fun w => (w.screens 3).user == some 1 && (w.users 0).screen == none)
    World.launched_launched (by decide +kernel)
  simp only [Bool.and_eq_true, beq_iff_eq] at hp
  exact ⟨w, hp.1, hp.2, seating_reachable w hr⟩

end MonitorAgent.L3
