import MonitorAgent.L4Titles.ProxyTeardown
import MonitorAgent.L5Concurrency.NodeCalls

/-!
# `AddUser`, `DelUser` and `OnItemExpanded`, call by call

`AddUser` and `DelUser` (Monitor/Monitor/TitleRoom.cpp:129-199) run on threads
of their own, and each of their calls of the tree control is a message to the
UI thread, which goes on with its own work between two of them; so is each call
of `OnItemExpanded` when a watch comes to a node. The lock of a room lets one
thread at a time into its functions. Nodes have no lock: here no node is
expanded by two threads at once, what a thread is in is not kicked out, and the
names of new children fit their buffer.
-/
namespace MonitorAgent.L5.RoomCalls

open MonitorAgent.L3 MonitorAgent.L4 LTS

/-- Where the thread is that holds `room_lock_`: in the loop of `DelAll`,
before the `InsertItem` of a user that is filed, before the `DeleteItem` of
one that is not any more, before that one is deleted, before the test for
`AddNull`. A room that is `new` has no empty item below its own yet. -/
inductive Pc
  | new
  | unlocked
  | delAll (userId : Int) (micId : Nat)
  | inserting (user : UserRef)
  | deleting (user : UserRef)
  | deleted (user : UserRef)
  | adding (found : Bool)
deriving DecidableEq

/-- The tree control with the nodes and the wall, the threads in the rooms, and
those that expand nodes. -/
structure St where
  s : TreeItems
  pc : RoomRef → Pc
  expanding : NodeRef → Expansion

inductive Act
  | addUser (room : RoomRef) (userId : Int) (micId : Nat)
  | delUser (room : RoomRef) (userId : Int)
  | advance (room : RoomRef)
  | expand (n : NodeRef)
  | answer (n : NodeRef) (response : Option Document)
  | proceed (n : NodeRef)
  | seat (op : WallOp)

/-- The first half of `newUser`.
mirrors Monitor/Monitor/TitleRoom.cpp:148-149 -/
def fileUser (w : World) (r : RoomRef) (userId : Int) (micId : Nat) : World :=
  let user : User := {
    userId := userId, micId := micId, screen := none, screenIdx := INVALID_SCREEN_INDEX,
    titleRoom := r, audioSsrc := 0, videoSsrc := 0, alive := true }
  let w' := (w.modifyUser w.nextUser fun _ => user).modifyRoom r fun y =>
    { y with users := y.users.assign userId w.nextUser }
  { w' with nextUser := w.nextUser + 1 }

namespace St

variable (x : St)

def setWall (w : World) : St := { x with s := { x.s with t := { x.s.t with w := w } } }

def goto (r : RoomRef) (pc : Pc) : St := { x with pc := Function.update x.pc r pc }

def reach (n : NodeRef) (e : Expansion) : St :=
  { x with expanding := Function.update x.expanding n e }

theorem goto_self {r : RoomRef} {pc : Pc} (h : x.pc r = pc) : x.goto r pc = x := by
  rw [goto, ← h, Function.update_eq_self]

/-! ### Rooms -/

/-- The user is found, or made and filed; the item is still to come.
mirrors Monitor/Monitor/TitleRoom.cpp:139-149 -/
def findUser (r : RoomRef) (userId : Int) (micId : Nat) : St :=
  let w := x.s.t.w
  match (w.rooms r).users.find? userId with
  | some u => (x.setWall (w.modifyUser u fun y => { y with micId := micId })).goto r .unlocked
  | none => (x.setWall (fileUser w r userId micId)).goto r (.inserting w.nextUser)

/-- mirrors Monitor/Monitor/TitleRoom.cpp:129-149 -/
def addUser (r : RoomRef) (userId : Int) (micId : Nat) : St :=
  if (x.s.t.w.rooms r).users.isEmpty then x.goto r (.delAll userId micId)
  else x.findUser r userId micId

/-- mirrors Monitor/Monitor/TitleRoom.cpp:168-177 -/
def delUser (r : RoomRef) (userId : Int) : St :=
  let w := x.s.t.w
  match (w.rooms r).users.find? userId with
  | some u =>
    (x.setWall (w.modifyRoom r fun y => { y with users := y.users.erase userId })).goto r
    (.deleting u)
  | none => x.goto r (.adding false)

/-- `DisconnectUser` and `delete`.
mirrors Monitor/Monitor/TitleRoom.cpp:185-192 -/
def release (u : UserRef) : St :=
  let w := x.s.t.w
  let w := match (w.users u).screen with
    | some s => (w.disconnectUser s).1
    | none => w
  x.setWall (w.modifyUser u fun y => { y with alive := false })

/-- The next call of the thread in the room; an item of `DelAll` at a time.
mirrors Monitor/Monitor/Node.cpp:51-58, Monitor/Monitor/TitleRoom.cpp:160 and
183-199 -/
def advance (r : RoomRef) : Option St :=
  let w := x.s.t.w
  match x.pc r with
  | .new | .unlocked => none
  | .delAll userId micId =>
    match (w.rooms r).items with
    | _ :: items => some (x.setWall (w.modifyRoom r fun y => { y with items := items }))
    | [] => some (x.findUser r userId micId)
  | .inserting u =>
    some ((x.setWall (w.modifyRoom r fun y => { y with items := y.items ++ [some u] })).goto r
      .unlocked)
  | .deleting u =>
    some ((x.setWall (w.modifyRoom r fun y => { y with items := y.items.erase (some u) })).goto r
      (.deleted u))
  | .deleted u => some ((x.release u).goto r (.adding true))
  | .adding _ =>
    some ((if (w.rooms r).users.isEmpty then x.setWall (w.addNull r) else x).goto r .unlocked)

/-! ### Nodes -/

/-- mirrors Monitor/Monitor/TitleNode.cpp:56-59 -/
def onItemExpanded (n : NodeRef) : St :=
  x.reach n (if (x.s.t.nodes n).nodes.isEmpty then .clearing else .requesting)

/-- mirrors Monitor/Monitor/TitleNode.cpp:65-68 -/
def finish (s : TreeItems) (n : NodeRef) : St :=
  { x with s := if (s.t.nodes n).nodes.isEmpty then s.addNull n else s }.reach n .idle

/-- The server has answered, maybe with what does not parse.
mirrors Monitor/Monitor/TitleNode.cpp:61-63 and 81-82 -/
def answer (n : NodeRef) (response : Option Document) : Option St :=
  match x.expanding n with
  | .requesting =>
    match response with
    | some d => some (x.reach n (.listing d d.entries))
    | none => some (x.finish x.s n)
  | _ => none

/-- mirrors Monitor/Monitor/TitleNode.cpp:107 and 135, Monitor/Monitor/Node.cpp:98 -/
def file (n : NodeRef) (d : Document) (e : Entry) (es : List Entry) : St :=
  let child := x.s.t.nextNode
  (({ x with s := fileItem x.s n d.heading e }.goto child
    (if d.heading = Heading.dynamicNode then .new else .unlocked)).reach child .filed).reach n
      (.inserting d child es)

/-- mirrors Monitor/Monitor/Node.cpp:100-107 -/
def place (n : NodeRef) (d : Document) (child : NodeRef) (es : List Entry) : St :=
  ({ x with s := placeItem x.s n child }.reach child .placed).reach n (.inserted d child es)

/-- mirrors Monitor/Monitor/Node.cpp:109-116 -/
def order (n : NodeRef) (d : Document) (child : NodeRef) (es : List Entry) : St :=
  (({ x with s := orderItem x.s n child }.goto child .unlocked).reach child .idle).reach n
    (.listing d es)

/-- A child that is new is filed.
mirrors Monitor/Monitor/TitleNode.cpp:91-110 and 119-138 -/
def parse (n : NodeRef) (d : Document) (e : Entry) (es : List Entry) : St :=
  match x.s.t.getNodeOrRoom n e.id with
  | some child =>
    { x with s := { x.s with t := x.s.t.update child e.name e.order e.usercount } }.reach n
      (.listing d es)
  | none => x.file n d e es

/-- The next call of the thread that expands the node; an item of `DelAll` at a
time. `KickoutRedundantNodes` calls `DelUser` only.
mirrors Monitor/Monitor/Node.cpp:51-73 and 91-117, Monitor/Monitor/TitleNode.cpp:142 -/
def proceed (n : NodeRef) : Option St :=
  match x.expanding n with
  | .idle | .filed | .placed | .requesting => none
  | .clearing =>
    match x.s.items n with
    | _ :: items => some { x with s := { x.s with items := Function.update x.s.items n items } }
    | [] => some ({ x with s := x.s.delAll n }.reach n .requesting)
  | .listing d (e :: es) => some (x.parse n d e es)
  | .listing d [] => some (x.finish (x.s.kickoutRedundantNodes n d.ids) n)
  | .inserting d child es => some (x.place n d child es)
  | .inserted d child es => some (x.order n d child es)

/-- A thread is in the room, or at the node. -/
def Busy (n : NodeRef) : Prop := x.pc n ≠ .unlocked ∨ x.expanding n ≠ .idle

instance (n : NodeRef) : Decidable (x.Busy n) := inferInstanceAs (Decidable (_ ∨ _))

/-- What a thread is in is not deleted: the UI thread would wait for the lock
of a room, or the thread go on in freed memory. -/
def Spares (x' : St) : Prop := ∀ n < x.s.t.nextNode, x.Busy n → (x'.s.t.nodes n).alive = true

instance (x' : St) : Decidable (x.Spares x') :=
  inferInstanceAs (Decidable (∀ n < x.s.t.nextNode, _ → _))

/-- A room or node that was deleted is not used. The users that a room has when
it is kicked out are deleted by steps of their own, or with it. -/
def step : Act → Option St
  | .addUser r userId micId =>
    if RoomExists x.s.t r ∧ x.pc r = .unlocked then some (x.addUser r userId micId) else none
  | .delUser r userId =>
    if RoomExists x.s.t r ∧ x.pc r = .unlocked then some (x.delUser r userId) else none
  | .advance r => x.advance r
  | .expand n =>
    if (x.s.t.nodes n).alive ∧ (x.s.t.nodes n).nodeType = .titleNode ∧ x.expanding n = .idle then
      some (x.onItemExpanded n)
    else none
  | .answer n response => x.answer n response
  | .proceed n => (x.proceed n).filter fun x' => x.Spares x'
  | .seat op => if seats op then (x.s.t.w.wallStep op).map x.setWall else none

/-- Nodes as they are added, no rooms and no users yet. -/
structure Launched : Prop where
  items : x.s.Launched
  world : x.s.t.w.Launched
  nodes : ∀ n, (x.s.t.nodes n).nodeType ≠ .titleRoom
  pc : ∀ r, x.pc r = .unlocked
  expanding : ∀ n, x.expanding n = .idle

end St

def sys : LTS St Act := .ofFn St.Launched St.step

/-! ## Both halves of a new user -/

section FileUser

variable (w : World) (r : RoomRef) (userId : Int) (micId : Nat)

theorem fileUser_rooms (r' : RoomRef) : (fileUser w r userId micId).rooms r' =
    if r' = r then { w.rooms r with users := (w.rooms r).users.assign userId w.nextUser }
    else w.rooms r' := by
  simp only [fileUser, World.modifyRoom_rooms, World.modifyUser_rooms]

theorem fileUser_users (u : UserRef) : (fileUser w r userId micId).users u =
    if u = w.nextUser then
      { userId := userId, micId := micId, screen := none, screenIdx := INVALID_SCREEN_INDEX,
        titleRoom := r, audioSsrc := 0, videoSsrc := 0, alive := true }
    else w.users u := by
  simp only [fileUser, World.modifyRoom_users, World.modifyUser_users]

/-- `newUser` is both halves. -/
theorem newUser_eq : w.newUser r userId micId =
    (fileUser w r userId micId).modifyRoom r fun y =>
      { y with items := y.items ++ [some w.nextUser] } := by
  simp only [World.newUser, fileUser, World.modifyRoom, World.modifyUser, Function.update_self,
    Function.update_idem]

end FileUser

end MonitorAgent.L5.RoomCalls
