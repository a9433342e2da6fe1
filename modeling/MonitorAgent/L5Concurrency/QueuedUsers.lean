import MonitorAgent.L4Session.Subscriptions
import MonitorAgent.L4Titles.WatchsList

/-!
# Users named by queued messages

A message about a user carries a pointer, and `draging_user_` keeps the one
selected last. The UI thread puts them there; the thread that reads the pipe
follows them at some later time, and in between a `DelUser` scene or the
teardown of a room may delete the user. `DelUser` takes the user off its
screen, it looks neither into the pipe nor at the drag.

A drag takes the data of any item without children for a `User *`
(Monitor/Monitor/Title.cpp:108-121); the items of rooms and nodes have none
for a while, and their data is a `Node *`. Which items there are is not part of
the state: a drag may begin at any.

* `filed_iff`: along a run every pointer in the pipe or the drag is a user's in
  the `users_` of an existing room exactly if nothing deletes a user while it is
  named and each drag begins at the item of such a user. Then each handler
  finds its user there.
* `dead_user`: a page is shown, a user of it leaves, and the handler of
  `WM_WATCH_ROOM_USER` is about to use the deleted object.
-/
namespace MonitorAgent.L5.QueuedUsers

open MonitorAgent.L3 MonitorAgent.L4 LTS

/-- What a `User *` of a message points to. -/
inductive Pointer
  | user (user : UserRef)
  | node (n : NodeRef)
deriving DecidableEq

/-- An item of the tree control: of a user, of a room or node, or empty. -/
inductive Item
  | user (user : UserRef)
  | node (n : NodeRef)
  | empty

def Item.data : Item → Option Pointer
  | .user u => some (.user u)
  | .node n => some (.node n)
  | .empty => none

/-- A message, or a `WM_SELECT_USER` with the data of a node's item. -/
inductive Queued
  | message (m : Message)
  | selectNode (n : NodeRef)

/-- The dialog, `g_mainframe_pipe`, and the rooms that exist. `dragingNode` is
the node that `draging_user_` points to, if it is one. -/
structure St where
  dlg : MonitorDlg
  pipe : List Queued
  rooms : List RoomRef
  dragingNode : Option NodeRef

/-- The user whose pointer a message carries. -/
def user? : Message → Option UserRef
  | .selectUser user => user
  | .watchRoomUser user _ => user
  | .unlinkRoomUser user _ => user
  | _ => none

def Queued.pointer? : Queued → Option Pointer
  | .message m => (user? m).map .user
  | .selectNode n => some (.node n)

/-- What the UI thread sends; what the thread of the pipe handles; what the
scene worker and the teardown of rooms do. `delRoom` is a pass of `Destory`. -/
inductive Act
  | beginDrag (item : Item) (hasChildren : Bool)
  | lButtonUp
  | screenLButtonUp (screen : ScreenRef)
  | screenLButtonDblClk (screen : ScreenRef)
  | showPage (room : RoomRef) (offset first : Nat)
  | send (m : Message)
  | handle
  | addUser (room : RoomRef) (userId : Int) (micId : Nat)
  | modUser (room : RoomRef) (userId : Int) (audioSsrc videoSsrc : Nat)
  | delUser (room : RoomRef) (userId : Int)
  | newRoom (room : RoomRef) (proxy : Option ProxyRef)
  | deleteRoom (room : RoomRef)
  | linkRoom (proxy : ProxyRef) (room : RoomRef)
  | onRxNAT (proxy : ProxyRef)
  | unlinkRoom (proxy : ProxyRef) (room : RoomRef)
  | delRoom (proxy : ProxyRef) (room : RoomRef)

namespace St

variable (x : St)

def setWall (w : World) : St := { x with dlg := { x.dlg with w := w } }

def send (qs : List Queued) : St := { x with pipe := x.pipe ++ qs }

def sendMessage (m : Message) : St := x.send [.message m]

/-- mirrors Monitor/Monitor/Title.cpp:108-121 -/
def onTvnBeginDrag (item : Item) (hasChildren : Bool) : St :=
  if hasChildren then x
  else match item.data with
    | none => x
    | some (.user u) => x.sendMessage (.selectUser (some u))
    | some (.node n) => x.send [.selectNode n]

/-- The handlers of the messages about users and screens; what the other
handlers do to rooms and proxies are steps of their own.
mirrors Monitor/Monitor/MonitorDlg.cpp:459-492 -/
def eventOnPipe : Message → Option MonitorDlg
  | .selectUser user => some (x.dlg.onSelectUser user)
  | .watchRoomUser user idx => x.dlg.onWatchRoomUser user idx
  | .linkRoomUser idx => x.dlg.onLinkScreenUser idx
  | .unlinkRoomUser user screen => some (x.dlg.onUnlinkScreenUser user screen)
  | .cleanScreens => some x.dlg.onCleanScreens
  | _ => some x.dlg

/-- `LinkScreenUser` is about to take a node for a user. -/
def linksNode : Message → Prop
  | .linkRoomUser idx => idx ≠ INVALID_SCREEN_INDEX ∧ x.dlg.isDraging ∧ x.dragingNode.isSome
  | _ => False

instance : (m : Message) → Decidable (x.linksNode m)
  | .linkRoomUser _ => inferInstanceAs (Decidable (_ ∧ _ ∧ _))
  | .selectUser _ | .watchRoomUser _ _ | .unlinkRoomUser _ _ | .expandedRoom _ _
  | .shrinkedRoom _ | .disconnectAllProxys | .cleanScreens | .continueTraverse _
  | .changeLayout => inferInstanceAs (Decidable False)

/-- Nothing is known of the program once it has used a node as a user.
mirrors Monitor/Monitor/MonitorDlg.cpp:448-494 -/
def handle : Option St :=
  match x.pipe with
  | [] => none
  | .selectNode n :: rest =>
    some { x with
      dlg := { x.dlg with isDraging := true, dragingUser := none }
      dragingNode := some n, pipe := rest }
  | .message m :: rest =>
    if x.linksNode m then none
    else (x.eventOnPipe m).map fun dlg =>
      { x with
        dlg := dlg, pipe := rest
        dragingNode := if dlg.dragingUser.isSome then none else x.dragingNode }

/-- The messages of the UI thread: Monitor/Monitor/Title.cpp:108-121,
Screen.cpp:474-482, TitleRoom.cpp:235-255. `send` are messages that carry no
user. `DelUser` is one step; what comes while it runs comes before it. A room
taken out of the tree is torn down first (TitleNode.cpp:146-168); `proxy_` of a
new one is what its memory holds. -/
def step : Act → Option St
  | .beginDrag item hasChildren => some (x.onTvnBeginDrag item hasChildren)
  | .lButtonUp => some { x with dlg := x.dlg.onLButtonUp, dragingNode := none }
  | .screenLButtonUp s => some (x.sendMessage (.linkRoomUser (x.dlg.w.screens s).index))
  | .screenLButtonDblClk s =>
    some (x.sendMessage (.unlinkRoomUser (x.dlg.w.screens s).user (some s)))
  | .showPage r offset first =>
    if r ∈ x.rooms then
      some (x.send ((Watch.showUsers first offset
        ((x.dlg.w.rooms r).users.entries.map Prod.snd)).1.map .message))
    else none
  | .send m => if user? m = none then some (x.sendMessage m) else none
  | .handle => x.handle
  | .addUser r userId micId =>
    if r ∈ x.rooms then some (x.setWall (x.dlg.w.addUser r userId micId).1) else none
  | .modUser r userId a v =>
    if r ∈ x.rooms then
      (x.dlg.w.getUser r userId).map fun u => x.setWall (x.dlg.w.modUser (some u) a v)
    else none
  | .delUser r userId => if r ∈ x.rooms then some (x.setWall (x.dlg.w.delUser r userId).1) else none
  | .newRoom r proxy =>
    if r ∈ x.rooms then none
    else some { x.setWall (x.dlg.w.modifyRoom r fun room => ⟨room.id, proxy, .empty, []⟩) with
      rooms := r :: x.rooms }
  | .deleteRoom r =>
    some { x.setWall (x.dlg.w.onDestory r) with rooms := x.rooms.filter (· ≠ r) }
  | .linkRoom p r => some (x.setWall (x.dlg.w.linkRoom p r).1)
  | .onRxNAT p => some (x.setWall (x.dlg.w.onRxNAT p).1)
  | .unlinkRoom p r => some (x.setWall (x.dlg.w.unlinkRoom p r).1)
  | .delRoom p r => some (x.setWall (x.dlg.w.delRoom p (x.dlg.w.rooms r).id r).1)

/-- No users, nobody dragged, nothing sent. -/
structure Launched : Prop where
  world : x.dlg.w.Launched
  dragingUser : x.dlg.dragingUser = none
  dragingNode : x.dragingNode = none
  pipe : x.pipe = []

/-- A user in the `users_` of a room that exists. -/
def Filed : Pointer → Prop
  | .user u => ∃ r ∈ x.rooms, ∃ e ∈ (x.dlg.w.rooms r).users.entries, e.2 = u
  | .node _ => False

/-- What `draging_user_` points to. -/
def dragged : Option Pointer :=
  match x.dragingNode with
  | some n => some (.node n)
  | none => x.dlg.dragingUser.map .user

/-- What the pipe and the drag point to. -/
def named : List Pointer := x.pipe.filterMap Queued.pointer? ++ x.dragged.toList

/-- The user the handler of the next message takes, if its checks let it.
mirrors Monitor/Monitor/MonitorDlg.cpp:362-406 -/
def uses : Option Pointer :=
  match x.pipe with
  | .selectNode n :: _ => some (.node n)
  | .message (.selectUser user) :: _ => user.map .user
  | .message (.watchRoomUser user idx) :: _ =>
    if idx ≠ INVALID_SCREEN_INDEX then user.map .user else none
  | .message (.linkRoomUser idx) :: _ =>
    if idx ≠ INVALID_SCREEN_INDEX ∧ x.dlg.isDraging then x.dragged else none
  | .message (.unlinkRoomUser user screen) :: _ => if screen.isSome then user.map .user else none
  | _ => none

/-- The users of a room, in the order of the map. -/
def usersOf (w : World) (r : RoomRef) : List UserRef := (w.rooms r).users.entries.map Prod.snd

/-- The users that `DelUser` will be called for. -/
def deletes : Act → List UserRef
  | .delUser r userId => ((x.dlg.w.rooms r).users.find? userId).toList
  | .deleteRoom r => usersOf x.dlg.w r
  | .unlinkRoom p r | .delRoom p r =>
    if ((x.dlg.w.proxies p).rooms.find? (x.dlg.w.rooms r).id).isSome then usersOf x.dlg.w r else []
  | _ => []

/-- A drag begins where there is nothing to select, or at the item of a user. -/
def Drags : Act → Prop
  | .beginDrag item hasChildren => hasChildren = false → ∀ p ∈ item.data, x.Filed p
  | _ => True

/-- Nobody that is named is deleted, and only users are dragged. -/
def Spares (a : Act) : Prop := (∀ p ∈ x.named, ∀ u ∈ x.deletes a, p ≠ .user u) ∧ x.Drags a

end St

def sys : LTS St Act := .ofFn St.Launched St.step

/-! ## Users are deleted -/

/-- From `w` to `w'` the users `gone` are deleted, and nobody else is
concerned. -/
structure Evicts (gone : List UserRef) (w w' : World) : Prop where
  steps : WallSteps w w'
  titleRoom : ∀ u, (w'.users u).titleRoom = (w.users u).titleRoom
  fades : ∀ u, (w'.users u).alive = true → (w.users u).alive = true
  spared : ∀ u, (w.users u).alive = true → u ∉ gone → w'.users u = w.users u
  gone : ∀ u ∈ gone, (w'.users u).alive = false

namespace Evicts

variable {gone : List UserRef} {w w' w'' : World}

/-- A change outside the wall before. -/
theorem after (hw : SameWall w w') (h : Evicts gone w' w'') : Evicts gone w w'' where
  steps := hw.steps.trans h.steps
  titleRoom u := by rw [h.titleRoom, hw.users]
  fades u ha := by rw [← hw.users]; exact h.fades u ha
  spared u ha hn := by rw [h.spared u (by rw [hw.users]; exact ha) hn, hw.users]
  gone := h.gone

/-- A change outside the wall afterwards. -/
theorem before (h : Evicts gone w w') (hw : SameWall w' w'') : Evicts gone w w'' where
  steps := h.steps.trans hw.steps
  titleRoom u := by rw [hw.users, h.titleRoom]
  fades u ha := h.fades u (by rwa [hw.users] at ha)
  spared u ha hn := by rw [hw.users, h.spared u ha hn]
  gone u hu := by rw [hw.users, h.gone u hu]

theorem refl (w : World) : Evicts [] w w :=
  ⟨.refl, fun _ => rfl, fun _ => id, fun _ _ _ => rfl, fun _ h => nomatch h⟩

end Evicts

theorem mem_usersOf {w : World} {r : RoomRef} {u : UserRef} :
    u ∈ St.usersOf w r ↔ ∃ k, (w.rooms r).users.find? k = some u := by
  rw [St.usersOf, List.mem_map]
  refine ⟨fun ⟨e, he, hu⟩ => ⟨e.1, (StdMap.mem_entries_iff _ _ _).mp (hu ▸ he)⟩, fun ⟨k, hf⟩ =>
    ⟨(k, u), (StdMap.mem_entries_iff _ _ _).mpr hf, rfl⟩⟩

section Evicts

variable {w : World} (hw : Bij w) (hh : Homed w)
include hw hh

theorem evicts_delUser (r : RoomRef) (userId : Int) :
    Evicts ((w.rooms r).users.find? userId).toList w (w.delUser r userId).1 where
  steps := delUser_steps hw r userId
  titleRoom u := (sameOwner_teardownFrame.delUser w r userId u).2
  fades := (Fades.teardownFrame.delUser w r userId).alive
  spared u ha hn :=
    (delUser_elsewhere hw r userId).users u ha fun hf => hn (Option.mem_toList.mpr hf)
  gone u hu := by
    have hf := Option.mem_toList.mp hu
    obtain ⟨-, hr, hk⟩ := hw.filed r userId u hf
    obtain ⟨hk', hr'⟩ := sameOwner_teardownFrame.delUser w r userId u
    -- a live user would still be filed
    have hhome := hh.steps (delUser_steps hw r userId) u
    rw [hr', hk', hr, hk, (World.delUser_users w r hf).1, StdMap.find?_erase, if_pos rfl] at hhome
    exact Bool.eq_false_iff.mpr fun ha => nomatch hhome ha

theorem evicts_onDestory (r : RoomRef) : Evicts (St.usersOf w r) w (w.onDestory r) where
  steps := onDestory_steps hw r
  titleRoom u := (sameOwner_teardownFrame.onDestory w r u).2
  fades := (Fades.teardownFrame.onDestory w r).alive
  spared u ha hn := by
    refine (onDestory_elsewhere hw r).users u ha fun hr =>
      hn (mem_usersOf.mpr ⟨(w.users u).userId, ?_⟩)
    rw [← hr]
    exact hh u ha
  gone u hu := by
    obtain ⟨k, hf⟩ := mem_usersOf.mp hu
    have hhome := hh.steps (onDestory_steps hw r) u
    rw [(sameOwner_teardownFrame.onDestory w r u).2, (hw.filed r k u hf).2.1,
      World.onDestory_users w r (hw.toFiling.userId r)] at hhome
    exact Bool.eq_false_iff.mpr fun ha => nomatch hhome ha

theorem evicts_delRoom (p : ProxyRef) (roomId : Int) (r : RoomRef) :
    Evicts (if ((w.proxies p).rooms.find? roomId).isSome then St.usersOf w r else []) w
      (w.delRoom p roomId r).1 := by
  have he := SameWall.modifyProxy w p fun x => { x with rooms := x.rooms.erase roomId }
  unfold World.delRoom
  cases (w.proxies p).rooms.find? roomId with
  | none => exact .refl w
  | some r₀ => exact .after he (evicts_onDestory (hw.steps he.steps) (hh.steps he.steps) r)

theorem evicts_unlinkRoom (p : ProxyRef) (r : RoomRef) :
    Evicts (if ((w.proxies p).rooms.find? (w.rooms r).id).isSome then St.usersOf w r else []) w
      (w.unlinkRoom p r).1 := by
  have hd := evicts_delRoom hw hh p (w.rooms r).id r
  generalize (if ((w.proxies p).rooms.find? (w.rooms r).id).isSome then St.usersOf w r else []) =
    gone at hd ⊢
  unfold World.unlinkRoom
  split
  · rename_i w' _ he
    rw [he] at hd
    exact hd.before (.sendPacket w' _)
  · rename_i he
    rwa [he] at hd

end Evicts

/-! ## What is named -/

theorem St.mem_named {x : St} {p : Pointer} :
    p ∈ x.named ↔ (∃ q ∈ x.pipe, q.pointer? = some p) ∨ x.dragged = some p := by
  rw [named, List.mem_append, List.mem_filterMap, Option.mem_toList]

/-- A page names users of the room. -/
theorem mem_showUsers {first offset : Nat} {users : List UserRef} {m : Message}
    (h : m ∈ (Watch.showUsers first offset users).1) : ∃ u ∈ users, user? m = some u := by
  induction users generalizing offset with
  | nil => cases h
  | cons user users ih =>
    have hsent : m ∈ (if first ≤ offset then
          [Message.watchRoomUser (some user) (u32 (offset - first))] else []) →
        ∃ u ∈ user :: users, user? m = some u := by
      intro hm
      split at hm
      · cases List.mem_singleton.mp hm
        exact ⟨user, List.mem_cons_self, rfl⟩
      · cases hm
    unfold Watch.showUsers at h
    dsimp only at h
    split at h
    · exact hsent h
    · rcases List.mem_append.mp h with hm | hm
      · exact hsent hm
      · obtain ⟨u, hu, hm⟩ := ih hm
        exact ⟨u, List.mem_cons_of_mem _ hu, hm⟩

/-- What a handler takes is named. -/
theorem St.named_of_uses {x : St} {p : Pointer} (h : x.uses = some p) : p ∈ x.named := by
  have hhead : ∀ q rest, x.pipe = q :: rest → q.pointer? = some p →
      (∃ q ∈ x.pipe, q.pointer? = some p) ∨ x.dragged = some p :=
    fun q rest hp hq => .inl ⟨q, by rw [hp]; exact List.mem_cons_self, hq⟩
  rw [mem_named]
  unfold uses at h
  split at h
  · exact hhead (.selectNode _) _ ‹_› h
  · exact hhead (.message (.selectUser _)) _ ‹_› h
  · split at h
    · exact hhead (.message (.watchRoomUser _ _)) _ ‹_› h
    · cases h
  · split at h
    · exact .inr h
    · cases h
  · split at h
    · exact hhead (.message (.unlinkRoomUser _ _)) _ ‹_› h
    · cases h
  · cases h

/-! ## The invariant -/

/-- A live user. -/
def St.Alive (x : St) : Pointer → Prop
  | .user u => (x.dlg.w.users u).alive = true
  | .node _ => False

/-- Live users are filed in rooms that exist, and what is named is one. -/
structure Inv (x : St) : Prop where
  bij : Bij x.dlg.w
  homed : Homed x.dlg.w
  rooms : ∀ u, (x.dlg.w.users u).alive = true → (x.dlg.w.users u).titleRoom ∈ x.rooms
  named : ∀ p ∈ x.named, x.Alive p

theorem Inv.launched {x : St} (h : x.Launched) : Inv x where
  bij := .launched h.world
  homed u ha := by rw [h.world.users] at ha; cases ha
  rooms u ha := by rw [h.world.users] at ha; cases ha
  named p hp := by
    rw [St.mem_named, h.pipe, St.dragged, h.dragingNode, h.dragingUser] at hp
    rcases hp with ⟨q, hq, -⟩ | hd
    · cases hq
    · cases hd

/-- Users keep their rooms; a new one is alive, in the room it was added to. -/
theorem addUser_owner (w : World) (r : RoomRef) (userId : Int) (micId : Nat) (u : UserRef) :
    (((w.addUser r userId micId).1.users u).alive = (w.users u).alive ∧
        ((w.addUser r userId micId).1.users u).titleRoom = (w.users u).titleRoom) ∨
      (((w.addUser r userId micId).1.users u).alive = true ∧
        ((w.addUser r userId micId).1.users u).titleRoom = r) := by
  have hd : (if (w.rooms r).users.isEmpty then w.delAll r else w).users = w.users := by
    split <;> rfl
  unfold World.addUser
  generalize (if (w.rooms r).users.isEmpty then w.delAll r else w) = w₁ at hd ⊢
  rw [← hd]
  dsimp only
  split
  · refine .inl ?_
    rw [World.modifyUser_users]
    split
    · rename_i he; rw [he]; exact ⟨rfl, rfl⟩
    · exact ⟨rfl, rfl⟩
  · rw [World.newUser_users]
    split
    · exact .inr ⟨rfl, rfl⟩
    · exact .inl ⟨rfl, rfl⟩

namespace Inv

variable {x y : St} (h : Inv x)
include h

theorem filed {p : Pointer} (hp : p ∈ x.named) : x.Filed p := by
  have ha := h.named p hp
  cases p with
  | user u => exact ⟨_, h.rooms u ha, _, (StdMap.mem_entries_iff _ _ _).mpr (h.homed u ha), rfl⟩
  | node n => exact ha.elim

/-- A user that is filed is alive. -/
theorem alive {p : Pointer} (hp : x.Filed p) : x.Alive p := by
  cases p with
  | user u =>
    obtain ⟨r, -, e, hf, rfl⟩ := hp
    exact (h.bij.filed r e.1 e.2 ((StdMap.mem_entries_iff _ _ _).mp hf)).1
  | node n => exact hp.elim

/-- The drag is a user's, if there is one. -/
theorem dragged {p : Pointer} (hd : x.dragged = some p) :
    ∃ u, p = .user u ∧ x.dlg.dragingUser = some u := by
  have ha := h.named p (St.mem_named.mpr (.inr hd))
  cases p with
  | user u =>
    unfold St.dragged at hd
    split at hd
    · cases hd
    · obtain ⟨v, hv, he⟩ := Option.map_eq_some_iff.mp hd
      cases he
      exact ⟨u, rfl, hv⟩
  | node n => exact ha.elim

theorem dragingNode : x.dragingNode = none := by
  cases hn : x.dragingNode with
  | none => rfl
  | some n =>
    have hd : x.dragged = some (.node n) := by rw [St.dragged, hn]
    exact (h.named _ (St.mem_named.mpr (.inr hd))).elim

/-- Seats and packets change, and what is named was named or is alive. -/
theorem reseat (hb : Bij y.dlg.w) (e : SameIdentity x.dlg.w y.dlg.w) (hr : y.rooms = x.rooms)
    (hn : ∀ p ∈ y.named, p ∈ x.named ∨ x.Alive p) : Inv y where
  bij := hb
  homed := h.homed.same e
  rooms u ha := by
    rw [e.alive] at ha
    rw [e.titleRoom, hr]
    exact h.rooms u ha
  named p hp := by
    have ha : x.Alive p := (hn p hp).elim (h.named p) id
    cases p with
    | user u => exact (e.alive u).trans ha
    | node n => exact ha

/-- The UI thread sends, or lets the drag go. -/
theorem send (hw : y.dlg.w = x.dlg.w) (hr : y.rooms = x.rooms)
    (hn : ∀ p ∈ y.named, p ∈ x.named ∨ x.Alive p) : Inv y :=
  h.reseat (hw ▸ h.bij)
    (hw ▸ ⟨fun _ => rfl, fun _ => rfl, fun _ => rfl, fun _ => rfl, rfl, fun _ => rfl⟩) hr hn

theorem sends (qs : List Queued) (hq : ∀ q ∈ qs, ∀ p, q.pointer? = some p → x.Alive p) :
    Inv (x.send qs) := by
  refine h.send rfl rfl fun p hp => ?_
  rw [St.mem_named] at hp
  rcases hp with ⟨q, hm, hp⟩ | hd
  · rcases List.mem_append.mp hm with hm | hm
    · exact .inl (St.mem_named.mpr (.inl ⟨q, hm, hp⟩))
    · exact .inr (hq q hm p hp)
  · exact .inl (St.mem_named.mpr (.inr hd))

theorem sendMessage (m : Message) (hm : ∀ u, user? m = some u → (x.dlg.w.users u).alive = true) :
    Inv (x.sendMessage m) := by
  refine h.sends _ fun q hq p hp => ?_
  rw [List.mem_singleton.mp hq] at hp
  obtain ⟨u, hu, rfl⟩ := Option.map_eq_some_iff.mp hp
  exact hm u hu

/-- Rooms and proxies change, outside the wall. -/
theorem outside {w : World} (hw : SameWall x.dlg.w w) : Inv (x.setWall w) where
  bij := h.bij.steps hw.steps
  homed := h.homed.steps hw.steps
  rooms u := by
    change (w.users u).alive = true → (w.users u).titleRoom ∈ x.rooms
    rw [hw.users]
    exact h.rooms u
  named p hp := by
    have ha := h.named p hp
    cases p with
    | user u =>
      change (w.users u).alive = true
      rw [hw.users]
      exact ha
    | node n => exact ha

theorem evict {w : World} {gone : List UserRef} (he : Evicts gone x.dlg.w w)
    (hs : ∀ p ∈ x.named, ∀ u ∈ gone, p ≠ .user u) :
    Inv (x.setWall w) where
  bij := h.bij.steps he.steps
  homed := h.homed.steps he.steps
  rooms u ha := by
    change (w.users u).titleRoom ∈ x.rooms
    rw [he.titleRoom]
    exact h.rooms u (he.fades u ha)
  named p hp := by
    have ha := h.named p hp
    cases p with
    | user u =>
      change (w.users u).alive = true
      rw [he.spared u ha fun hu => hs _ hp u hu rfl]
      exact ha
    | node n => exact ha

/-- A handler took its message off the pipe; the drag is as before, let go,
or the user of the message. -/
theorem handled {m : Message} {rest : List Queued} (hp : x.pipe = .message m :: rest)
    {dlg : MonitorDlg} (hb : Bij dlg.w) (e : SameIdentity x.dlg.w dlg.w)
    (hd : ∀ u, dlg.dragingUser = some u → x.dlg.dragingUser = some u ∨ user? m = some u) :
    Inv { x with
      dlg := dlg, pipe := rest
      dragingNode := if dlg.dragingUser.isSome then none else x.dragingNode } := by
  refine h.reseat hb e rfl fun p hn => .inl ?_
  rw [St.mem_named] at hn ⊢
  rw [hp]
  rcases hn with ⟨q, hq, hn⟩ | hn
  · exact .inl ⟨q, List.mem_cons_of_mem _ hq, hn⟩
  · have hnode : (if dlg.dragingUser.isSome then none else x.dragingNode) = none := by
      rw [h.dragingNode, ite_self]
    simp only [St.dragged, hnode] at hn
    obtain ⟨u, hu, rfl⟩ := Option.map_eq_some_iff.mp hn
    rcases hd u hu with hu | hu
    · refine .inr ?_
      rw [St.dragged, h.dragingNode, hu]
      rfl
    · exact .inl ⟨.message m, List.mem_cons_self, congrArg (Option.map Pointer.user) hu⟩

/-- A user named is alive, so the screens take and let go of live users. -/
theorem linkScreenUser {u : UserRef} (hu : .user u ∈ x.named) {idx : Nat} {w : World}
    (hl : x.dlg.w.linkScreenUser idx (some u) = some w) : Bij w ∧ SameIdentity x.dlg.w w :=
  ⟨h.bij.steps (linkScreenUser_steps h.bij idx u (h.named _ hu) hl),
    (Reseats.seatFrame.linkScreenUser _ hl).toSameIdentity⟩

/-- The dialog after a message. -/
theorem eventOnPipe {m : Message} {rest : List Queued} (hp : x.pipe = .message m :: rest)
    {dlg : MonitorDlg} (hd : x.eventOnPipe m = some dlg) :
    Inv { x with
      dlg := dlg, pipe := rest
      dragingNode := if dlg.dragingUser.isSome then none else x.dragingNode } := by
  have hhead : ∀ u, user? m = some u → .user u ∈ x.named := by
    intro u hu
    refine St.mem_named.mpr (.inl ⟨.message m, ?_, congrArg (Option.map Pointer.user) hu⟩)
    rw [hp]
    exact List.mem_cons_self
  have hsame : ∀ {dlg : MonitorDlg}, dlg.w = x.dlg.w →
      (∀ u, dlg.dragingUser = some u → x.dlg.dragingUser = some u ∨ user? m = some u) →
      Inv { x with
        dlg := dlg, pipe := rest
        dragingNode := if dlg.dragingUser.isSome then none else x.dragingNode } := fun hw =>
    h.handled hp (hw ▸ h.bij)
      (hw ▸ ⟨fun _ => rfl, fun _ => rfl, fun _ => rfl, fun _ => rfl, rfl, fun _ => rfl⟩)
  cases m
  case selectUser user =>
    cases hd
    cases user with
    | none => exact hsame rfl fun u hu => .inl hu
    | some v => exact hsame rfl fun u hu => .inr hu
  case watchRoomUser user idx =>
    simp only [St.eventOnPipe, MonitorDlg.onWatchRoomUser] at hd
    split at hd
    · obtain ⟨w, hl, rfl⟩ := Option.map_eq_some_iff.mp hd
      rename_i hc
      obtain ⟨v, rfl⟩ := Option.isSome_iff_exists.mp hc.1
      obtain ⟨hb, e⟩ := h.linkScreenUser (hhead v rfl) hl
      exact h.handled hp hb e fun u hu => .inl hu
    · cases hd
      exact hsame rfl fun u hu => .inl hu
  case linkRoomUser idx =>
    simp only [St.eventOnPipe, MonitorDlg.onLinkScreenUser] at hd
    split at hd
    · obtain ⟨w, hl, rfl⟩ := Option.map_eq_some_iff.mp hd
      rename_i hc
      obtain ⟨v, hv⟩ := Option.isSome_iff_exists.mp hc.2.1
      have hdragged : x.dragged = some (.user v) := by
        rw [St.dragged, h.dragingNode, hv]
        rfl
      rw [hv] at hl
      obtain ⟨hb, e⟩ := h.linkScreenUser (St.mem_named.mpr (.inr hdragged)) hl
      exact h.handled hp hb e fun u hu => nomatch hu
    · cases hd
      exact hsame rfl fun u hu => .inl hu
  case unlinkRoomUser user screen =>
    cases hd
    unfold MonitorDlg.onUnlinkScreenUser
    split
    · exact h.handled hp (h.bij.steps (unlinkScreenUser_steps x.dlg.w _ _))
        (Reseats.seatFrame.unlinkScreenUser x.dlg.w _ _).toSameIdentity fun u hu => .inl hu
    · exact hsame rfl fun u hu => .inl hu
  case cleanScreens =>
    cases hd
    exact h.handled hp (h.bij.steps (cleanScreens_steps x.dlg.w))
      (Reseats.seatFrame.cleanScreens x.dlg.w).toSameIdentity fun u hu => .inl hu
  all_goals
    cases hd
    exact hsame rfl fun u hu => .inl hu

theorem handle (hst : x.handle = some y) : Inv y := by
  unfold St.handle at hst
  split at hst
  · cases hst
  · -- a node is not named
    rename_i n rest hp
    refine (h.named (.node n) (St.mem_named.mpr (.inl ⟨.selectNode n, ?_, rfl⟩))).elim
    rw [hp]
    exact List.mem_cons_self
  · rename_i m rest hp
    split at hst
    · cases hst
    · obtain ⟨dlg, hd, rfl⟩ := Option.map_eq_some_iff.mp hst
      exact h.eventOnPipe hp hd

/-! ### Rooms and users come -/

theorem addUser {r : RoomRef} (hr : r ∈ x.rooms) (userId : Int) (micId : Nat) :
    Inv (x.setWall (x.dlg.w.addUser r userId micId).1) := by
  have hsteps := addUser_steps x.dlg.w r userId micId
  have howner := addUser_owner x.dlg.w r userId micId
  generalize (x.dlg.w.addUser r userId micId).1 = w at hsteps howner ⊢
  refine ⟨h.bij.steps hsteps, h.homed.steps hsteps, fun u ha => ?_, fun p hp => ?_⟩
  · change (w.users u).titleRoom ∈ x.rooms
    rcases howner u with ⟨hal, hto⟩ | ⟨-, hto⟩
    · rw [hto]
      exact h.rooms u (hal.symm.trans ha)
    · rw [hto]
      exact hr
  · have ha := h.named p hp
    cases p with
    | user u =>
      change (w.users u).alive = true
      rcases howner u with ⟨hal, -⟩ | ⟨hal, -⟩
      · exact hal.trans ha
      · exact hal
    | node n => exact ha

theorem modUser (u : UserRef) (audioSsrc videoSsrc : Nat) :
    Inv (x.setWall (x.dlg.w.modUser (some u) audioSsrc videoSsrc)) :=
  h.reseat (h.bij.modMedia u audioSsrc videoSsrc) (.modMedia x.dlg.w u audioSsrc videoSsrc) rfl
    fun _ => .inl

/-- A room that does not exist has no users to lose. -/
theorem newRoom {r : RoomRef} (hr : r ∉ x.rooms) (proxy : Option ProxyRef) :
    Inv { x.setWall (x.dlg.w.modifyRoom r fun room => ⟨room.id, proxy, .empty, []⟩) with
      rooms := r :: x.rooms } := by
  have hfind : ∀ r' k,
      ((x.dlg.w.modifyRoom r fun room => ⟨room.id, proxy, .empty, []⟩).rooms r').users.find? k =
      if r' = r then none else (x.dlg.w.rooms r').users.find? k := fun r' k => by
    rw [World.modifyRoom_rooms]
    split <;> rfl
  have hscreens := x.dlg.w.modifyRoom_screens r fun room => ⟨room.id, proxy, .empty, []⟩
  have husers := x.dlg.w.modifyRoom_users r fun room => ⟨room.id, proxy, .empty, []⟩
  have hnext := x.dlg.w.modifyRoom_nextUser r fun room => ⟨room.id, proxy, .empty, []⟩
  generalize (x.dlg.w.modifyRoom r fun room => ⟨room.id, proxy, .empty, []⟩) = w
    at hfind hscreens husers hnext ⊢
  refine ⟨h.bij.ofRooms hscreens husers hnext fun r' k u hf => ?_, fun u ha => ?_, fun u ha => ?_,
    fun p hp => ?_⟩
  · change (w.rooms r').users.find? k = some u at hf
    rw [hfind] at hf
    split at hf
    · cases hf
    · exact hf
  · change (w.users u).alive = true at ha
    change (w.rooms (w.users u).titleRoom).users.find? (w.users u).userId = some u
    rw [husers] at ha ⊢
    rw [hfind, if_neg (ne_of_mem_of_not_mem (h.rooms u ha) hr)]
    exact h.homed u ha
  · change (w.users u).alive = true at ha
    change (w.users u).titleRoom ∈ r :: x.rooms
    rw [husers] at ha ⊢
    exact List.mem_cons_of_mem _ (h.rooms u ha)
  · have ha := h.named p hp
    cases p with
    | user u =>
      change (w.users u).alive = true
      rw [husers]
      exact ha
    | node n => exact ha

/-- A room torn down holds no live user. -/
theorem deleteRoom {r : RoomRef} (hs : ∀ p ∈ x.named, ∀ u ∈ St.usersOf x.dlg.w r, p ≠ .user u) :
    Inv { x.setWall (x.dlg.w.onDestory r) with rooms := x.rooms.filter (· ≠ r) } := by
  have he := evicts_onDestory h.bij h.homed r
  obtain ⟨hb, hh, hrooms, hnamed⟩ := h.evict he hs
  refine ⟨hb, hh,
    fun u ha => List.mem_filter.mpr ⟨hrooms u ha, decide_eq_true fun hr => ?_⟩,
    fun p hp => ?_⟩
  · have hhome := hh u ha
    rw [hr] at hhome
    exact nomatch
      (World.onDestory_users x.dlg.w r (h.bij.toFiling.userId r) _).symm.trans hhome
  · have halive := hnamed p hp
    cases p with
    | user u => exact halive
    | node n => exact halive

/-- A drag from a user's item, or one that selects nothing. -/
theorem onTvnBeginDrag {item : Item} {hasChildren : Bool}
    (hd : hasChildren = false → ∀ p ∈ item.data, x.Filed p) :
    Inv (x.onTvnBeginDrag item hasChildren) := by
  unfold St.onTvnBeginDrag
  split
  · exact h
  · rename_i hc
    have hfiled := hd (Bool.eq_false_iff.mpr hc)
    split
    · exact h
    · rename_i u hu
      refine h.sendMessage _ fun v hv => ?_
      cases hv
      exact h.alive (hfiled (.user u) hu)
    · rename_i n hn
      exact (hfiled (.node n) hn).elim

/-- A step that spares the named. -/
theorem step {a : Act} (hs : x.Spares a) (hst : x.step a = some y) : Inv y := by
  obtain ⟨hs, hd⟩ := hs
  cases a
  case beginDrag item hasChildren =>
    cases hst
    exact h.onTvnBeginDrag hd
  case lButtonUp =>
    cases hst
    refine h.send rfl rfl fun p hp => .inl ?_
    rw [St.mem_named] at hp ⊢
    exact hp.imp_right fun hd => nomatch hd
  case screenLButtonUp s => cases hst; exact h.sendMessage _ fun u hu => nomatch hu
  case screenLButtonDblClk s => cases hst; exact h.sendMessage _ fun u hu => h.bij.shows s u hu
  case showPage r offset first =>
    simp only [St.step] at hst
    split at hst
    · cases hst
      refine h.sends _ fun q hq p hp => ?_
      obtain ⟨m, hm, rfl⟩ := List.mem_map.mp hq
      obtain ⟨v, hv, hm⟩ := mem_showUsers hm
      obtain ⟨k, hf⟩ := mem_usersOf.mp hv
      rw [Queued.pointer?, hm] at hp
      cases hp
      exact (h.bij.filed r k v hf).1
    · cases hst
  case send m =>
    simp only [St.step] at hst
    split at hst
    · rename_i hm
      cases hst
      exact h.sendMessage m fun u hu => nomatch hm.symm.trans hu
    · cases hst
  case handle => exact h.handle hst
  case addUser r userId micId =>
    simp only [St.step] at hst
    split at hst
    · cases hst; exact h.addUser ‹_› userId micId
    · cases hst
  case modUser r userId a v =>
    simp only [St.step] at hst
    split at hst
    · obtain ⟨u, -, rfl⟩ := Option.map_eq_some_iff.mp hst
      exact h.modUser u a v
    · cases hst
  case delUser r userId =>
    simp only [St.step] at hst
    split at hst
    · cases hst; exact h.evict (evicts_delUser h.bij h.homed r userId) hs
    · cases hst
  case newRoom r proxy =>
    simp only [St.step] at hst
    split at hst
    · cases hst
    · cases hst; exact h.newRoom ‹_› proxy
  case deleteRoom r => cases hst; exact h.deleteRoom hs
  case linkRoom p r => cases hst; exact h.outside ((SameWall.callFrame p).linkRoom _ r)
  case onRxNAT p => cases hst; exact h.outside ((SameWall.callFrame p).onRxNAT _)
  case unlinkRoom p r => cases hst; exact h.evict (evicts_unlinkRoom h.bij h.homed p r) hs
  case delRoom p r => cases hst; exact h.evict (evicts_delRoom h.bij h.homed p _ r) hs

end Inv

/-! ## Runs -/

/-- A step that deletes users leaves the pipe and the drag alone. -/
theorem evicts_deletes {x y : St} {a : Act} (h : Inv x) (hst : x.step a = some y)
    (ha : x.deletes a ≠ []) :
    Evicts (x.deletes a) x.dlg.w y.dlg.w ∧ y.named = x.named := by
  cases a
  case delUser r userId =>
    simp only [St.step] at hst
    split at hst
    · cases hst; exact ⟨evicts_delUser h.bij h.homed r userId, rfl⟩
    · cases hst
  case deleteRoom r => cases hst; exact ⟨evicts_onDestory h.bij h.homed r, rfl⟩
  case unlinkRoom p r => cases hst; exact ⟨evicts_unlinkRoom h.bij h.homed p r, rfl⟩
  case delRoom p r => cases hst; exact ⟨evicts_delRoom h.bij h.homed p _ r, rfl⟩
  all_goals exact absurd rfl ha

/-- A drag from elsewhere names what is not filed. -/
theorem names_unfiled {x y : St} {a : Act} (hst : x.step a = some y) (hd : ¬ x.Drags a) :
    ∃ p ∈ y.named, ¬ y.Filed p := by
  cases a
  case beginDrag item hasChildren =>
    simp only [St.Drags, Classical.not_imp, not_forall] at hd
    obtain ⟨rfl, p, hp, hn⟩ := hd
    cases hst
    have hmem : ∀ q : Queued, q ∈ x.pipe ++ [q] := fun q => by simp
    cases p with
    | user u =>
      have hy : x.onTvnBeginDrag item false = x.sendMessage (.selectUser (some u)) := by
        unfold St.onTvnBeginDrag
        simp only [Option.mem_def.mp hp]
        rfl
      rw [hy]
      exact ⟨.user u, St.mem_named.mpr (.inl ⟨_, hmem _, rfl⟩), hn⟩
    | node n =>
      have hy : x.onTvnBeginDrag item false = x.send [.selectNode n] := by
        unfold St.onTvnBeginDrag
        simp only [Option.mem_def.mp hp]
        rfl
      rw [hy]
      exact ⟨.node n, St.mem_named.mpr (.inl ⟨_, hmem _, rfl⟩), hn⟩
  all_goals exact absurd trivial hd

theorem guarded : sys.Guarded St.Spares Inv fun x => ∀ p ∈ x.named, x.Filed p where
  init _ h0 := .launched h0
  step _ _ _ h hs hst := h.step hs hst
  safe _ h _ hp := h.filed hp
  sharp x a y h hs hst hsafe := by
    rcases not_and_or.mp hs with hs | hd
    · -- a user named is deleted, and nothing files it again
      simp only [not_forall, not_not] at hs
      obtain ⟨p, hn, u, hu, rfl⟩ := hs
      obtain ⟨he, hnamed⟩ := evicts_deletes h hst (List.ne_nil_of_mem hu)
      obtain ⟨r, -, e, hf, rfl⟩ := hsafe (.user u) (hnamed ▸ hn)
      have ha :=
        ((h.bij.steps he.steps).filed r e.1 e.2 ((StdMap.mem_entries_iff _ _ _).mp hf)).1
      rw [he.gone e.2 hu] at ha
      cases ha
    · obtain ⟨p, hp, hn⟩ := names_unfiled hst hd
      exact hn (hsafe p hp)

/-- **Queued users.** Along a run every pointer in the pipe or the drag is that
of a user in the `users_` of an existing room iff no step deletes a user while
it is pointed to and no drag begins elsewhere than at such a user's item; and
then so is what each handler is about to use. -/
theorem filed_iff {x₀ x : St} {ms : List (Move St Act)} (h0 : x₀.Launched) (hr : sys.Run x₀ ms x) :
    ((∀ y ∈ visited x₀ ms, ∀ p ∈ y.named, y.Filed p) ↔ ∀ m ∈ ms, m.src.Spares m.lbl) ∧
      ((∀ m ∈ ms, m.src.Spares m.lbl) → ∀ y ∈ visited x₀ ms, ∀ p ∈ y.uses, y.Filed p) := by
  have hiff := guarded.safe_along_iff h0 hr
  exact ⟨hiff, fun hs y hy p hp => hiff.mpr hs y hy p (St.named_of_uses hp)⟩

/-! ## Runs that delete users -/

instance (x : St) : (p : Pointer) → Decidable (x.Filed p)
  | .user _ => inferInstanceAs (Decidable (∃ r ∈ x.rooms, ∃ e ∈ _, _))
  | .node _ => inferInstanceAs (Decidable False)

instance (x : St) (a : Act) : Decidable (x.Drags a) := by
  cases a
  case beginDrag item hasChildren => exact inferInstanceAs (Decidable (_ → ∀ p ∈ item.data, _))
  all_goals exact inferInstanceAs (Decidable True)

instance (x : St) (a : Act) : Decidable (x.Spares a) := inferInstanceAs (Decidable (_ ∧ _))

/-- One room. -/
def St.launched : St := ⟨⟨.launched, false, none⟩, [], [0], none⟩

theorem St.launched_launched : St.launched.Launched := ⟨World.launched_launched, rfl, rfl, rfl⟩

/-- A user is dragged to a screen while another leaves, and leaves later. -/
def dragged : List Act :=
  [.addUser 0 7 1, .addUser 0 8 2, .beginDrag (.node 0) true, .beginDrag (.user 0) false,
    .delUser 0 8, .handle, .screenLButtonUp 3, .handle, .delUser 0 7]

theorem filed_iff_dragged : (∀ m ∈ moves St.step .launched dragged, m.src.Spares m.lbl) ∧
    ((∀ y ∈ visited .launched (moves St.step .launched dragged), ∀ p ∈ y.named, y.Filed p) ∧
      ∀ y ∈ visited .launched (moves St.step .launched dragged), ∀ p ∈ y.uses, y.Filed p) := by
  have hs : ∀ m ∈ moves St.step .launched dragged, m.src.Spares m.lbl := by decide +kernel
  have h := filed_iff St.launched_launched (run_of_exec dragged (by decide +kernel))
  exact ⟨hs, h.1.mpr hs, h.2 hs⟩

/-- The only user of a room leaves while the page that shows it is in the
pipe. -/
def left : List Act := [.addUser 0 7 1, .showPage 0 0 0, .delUser 0 7]

/-- `OnWatchRoomUser` is about to use an object that is in no room. -/
theorem dead_user : ∃ x, sys.Reachable x ∧ ∃ p ∈ x.uses, ¬ x.Filed p := by
  obtain ⟨x, hr, hp⟩ := exists_reachable_of_exec St.Launched St.step left
    (fun x => x.uses == some (.user 0) && !decide (x.Filed (.user 0))) St.launched_launched
    (by decide +kernel)
  simp only [Bool.and_eq_true, beq_iff_eq, Bool.not_eq_true', decide_eq_false_iff_not] at hp
  exact ⟨x, hr, .user 0, hp.1, hp.2⟩

end MonitorAgent.L5.QueuedUsers
