import MonitorAgent.L3Wall.Screen

/-!
# Rooms and their users

`TitleRoom` (Monitor/Monitor/TitleRoom.cpp:54-229). `AddUser` and `DelUser`
are the only places where a `User` is created and deleted; `OnDestory`
deletes all of them with the iterator `DelUser` hands back.

`newUser` and `dropUser` are the heap effects of the two: a fresh object
filed under its id, and an object off every screen taken out and deleted.
-/
namespace MonitorAgent.L3.World

/-! ## Creating and deleting a user -/

/-- `users_[user_id] = new User(user_id, mic_id, this)` and its tree item.
mirrors Monitor/Monitor/TitleRoom.cpp:148-162 -/
def newUser (w : World) (r : RoomRef) (userId : Int) (micId : Nat) : World :=
  let user : User := {
    userId := userId, micId := micId, screen := none, screenIdx := INVALID_SCREEN_INDEX,
    titleRoom := r, audioSsrc := 0, videoSsrc := 0, alive := true }
  let w' := (w.modifyUser w.nextUser fun _ => user).modifyRoom r fun x =>
    { x with users := x.users.assign userId w.nextUser, items := x.items ++ [some w.nextUser] }
  { w' with nextUser := w.nextUser + 1 }

/-- The entry, the tree item and the object go.
mirrors Monitor/Monitor/TitleRoom.cpp:176,183,191 -/
def dropUser (w : World) (r : RoomRef) (userId : Int) (u : UserRef) : World :=
  (w.modifyRoom r fun x =>
    { x with users := x.users.erase userId, items := x.items.erase (some u) }).modifyUser u
    fun x => { x with alive := false }

/-! ## The functions of `TitleRoom` -/

/-- mirrors Monitor/Monitor/TitleRoom.cpp:64-67 -/
def onCreate (w : World) (r : RoomRef) (proxy : ProxyRef) : World :=
  w.modifyRoom r fun x => { x with proxy := some proxy }

/-- `DelAll` on a room: it has no child nodes, only tree items. -/
def delAll (w : World) (r : RoomRef) : World := w.modifyRoom r fun x => { x with items := [] }

/-- mirrors Monitor/Monitor/Node.cpp:38-47 -/
def addNull (w : World) (r : RoomRef) : World :=
  w.modifyRoom r fun x => { x with items := x.items ++ [none] }

/-- mirrors Monitor/Monitor/TitleRoom.cpp:129-166 -/
def addUser (w : World) (r : RoomRef) (userId : Int) (micId : Nat) : World × UserRef :=
  let w := if (w.rooms r).users.isEmpty then w.delAll r else w
  match (w.rooms r).users.find? userId with
  | some u => (w.modifyUser u fun x => { x with micId := micId }, u)
  | none => (w.newUser r userId micId, w.nextUser)

/-- The deletion of a user found in the map: its screen first lets go of it.
mirrors Monitor/Monitor/TitleRoom.cpp:176-193 -/
def delFound (w : World) (r : RoomRef) (userId : Int) (u : UserRef) : World :=
  let w := w.modifyRoom r fun x =>
  { x with users := x.users.erase userId, items := x.items.erase (some u) }
  let w := match (w.users u).screen with
    | some s => (w.disconnectUser s).1
    | none => w
  w.modifyUser u fun x => { x with alive := false }

/-- The second value is what the iterator argument is left at.
mirrors Monitor/Monitor/TitleRoom.cpp:168-199 -/
def delUser (w : World) (r : RoomRef) (userId : Int) : World × Option Int :=
  match (w.rooms r).users.find? userId with
  | some u =>
    let w' := w.delFound r userId u
    (if (w'.rooms r).users.isEmpty then w'.addNull r else w', (w.rooms r).users.upper userId)
  | none => (if (w.rooms r).users.isEmpty then w.addNull r else w, none)

/-- For an unknown id `AddUser` is called with `room_lock_` held, and locks it
again: `none`, the caller never returns.
mirrors Monitor/Monitor/TitleRoom.cpp:201-216 -/
def getUser (w : World) (r : RoomRef) (userId : Int) : Option UserRef :=
  (w.rooms r).users.find? userId

/-- mirrors Monitor/Monitor/TitleRoom.cpp:218-227 -/
def modUser (w : World) (user : Option UserRef) (audioSsrc videoSsrc : Nat) : World :=
  match user with
  | none => w
  | some u => w.modMedia u audioSsrc videoSsrc

/-- The loop of `OnDestory` from an iterator on. The fuel is the size of the
map: every pass erases an entry.
mirrors Monitor/Monitor/TitleRoom.cpp:71-79 -/
def onDestoryGo (r : RoomRef) : Nat → Option Int → World → World
  | 0, _, w => w
  | _ + 1, none, w => w
  | n + 1, some k, w =>
    match (w.rooms r).users.find? k with
    | none => w
    | some u =>
        onDestoryGo r n (w.delUser r (w.users u).userId).2 (w.delUser r (w.users u).userId).1

/-- mirrors Monitor/Monitor/TitleRoom.cpp:69-84 -/
def onDestory (w : World) (r : RoomRef) : World :=
  (onDestoryGo r (w.rooms r).users.size (w.rooms r).users.begin w).modifyRoom r
    fun x => { x with proxy := none }

/-! ## What they do -/

section NewUser

variable (w : World) (r : RoomRef) (userId : Int) (micId : Nat)

@[simp] theorem newUser_screens : (w.newUser r userId micId).screens = w.screens := rfl
@[simp] theorem newUser_nextUser : (w.newUser r userId micId).nextUser = w.nextUser + 1 := rfl
@[simp] theorem newUser_proxies : (w.newUser r userId micId).proxies = w.proxies := rfl
@[simp] theorem newUser_avIndexMap : (w.newUser r userId micId).avIndexMap = w.avIndexMap := rfl

theorem newUser_users (u : UserRef) :
    (w.newUser r userId micId).users u =
      if u = w.nextUser then
        { userId := userId, micId := micId, screen := none, screenIdx := INVALID_SCREEN_INDEX,
          titleRoom := r, audioSsrc := 0, videoSsrc := 0, alive := true }
      else w.users u := by
  simp only [newUser, modifyRoom_users, modifyUser_users]

theorem newUser_find? (r' : RoomRef) (k : Int) :
    ((w.newUser r userId micId).rooms r').users.find? k =
      if r' = r ∧ k = userId then some w.nextUser else (w.rooms r').users.find? k := by
  simp only [newUser, modifyRoom_rooms]
  by_cases hr : r' = r
  · simp [hr, StdMap.find?_assign]
  · simp [hr]

end NewUser

section DropUser

variable (w : World) (r : RoomRef) (userId : Int) (u : UserRef)

@[simp] theorem dropUser_screens : (w.dropUser r userId u).screens = w.screens := rfl
@[simp] theorem dropUser_nextUser : (w.dropUser r userId u).nextUser = w.nextUser := rfl
@[simp] theorem dropUser_proxies : (w.dropUser r userId u).proxies = w.proxies := rfl
@[simp] theorem dropUser_avIndexMap : (w.dropUser r userId u).avIndexMap = w.avIndexMap := rfl

theorem dropUser_users (u' : UserRef) :
    (w.dropUser r userId u).users u' = if u' = u then
    { w.users u with alive := false } else w.users u' :=
  modifyUser_users ..

theorem dropUser_find? (r' : RoomRef) (k : Int) :
    ((w.dropUser r userId u).rooms r').users.find? k =
      if r' = r ∧ k = userId then none else (w.rooms r').users.find? k := by
  rw [dropUser, modifyUser_rooms, modifyRoom_rooms]
  by_cases hr : r' = r
  · simp [hr, StdMap.find?_erase]
  · simp [hr]

/-- Letting go of the screen and taking the entry out commute. -/
theorem delFound_eq :
    w.delFound r userId u = match (w.users u).screen with
      | some s => (w.disconnectUser s).1.dropUser r userId u
      | none => w.dropUser r userId u := by
  unfold delFound
  dsimp only
  rw [modifyRoom_users]
  cases (w.users u).screen with
  | none => rfl
  | some s =>
    simp only [disconnectUser, modifyRoom_screens]
    cases (w.screens s).user <;> rfl

end DropUser

end MonitorAgent.L3.World
