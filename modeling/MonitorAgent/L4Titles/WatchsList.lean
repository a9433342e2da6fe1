import MonitorAgent.L3Wall.MonitorDlg
import MonitorAgent.L4Titles.Title

/-!
# The list of watched rooms

`WatchsList` (Monitor/Monitor/WatchsList.cpp): a walk over the tree below the
watched node that stops at every room, and the rooms that were added on the
way, shown page by page. `TitleNode::OnWatched` and `WatchsList::OnTraverse`
call each other; a walk that does not end is out of fuel for every fuel.

`calls` is a ghost: the rooms whose `OnWatched` was called and the calls of
`NextPage`.
-/
namespace MonitorAgent.L4

open L3 Titles

/-- mirrors Monitor/Monitor/WatchsList.h:45-50; the top of the stack is first. -/
structure WatchsList where
  node : Option NodeRef
  title : Option NodeRef
  watching : Bool
  page : Nat
  rooms : List NodeRef
  traverseStack : List NodeRef
deriving DecidableEq

inductive Call
  | watched (room : NodeRef)
  | nextPage
deriving DecidableEq

structure Watch where
  t : Titles
  list : WatchsList
  pipe : List Message
  calls : List Call

namespace Watch

variable (s : Watch)

def sendMessage (m : Message) : Watch := { s with pipe := s.pipe ++ [m] }

/-! ## Pages -/

/-- mirrors Monitor/Monitor/TitleRoom.cpp:229-233 -/
def increaseCount (room : NodeRef) (userCount : Nat) : Nat :=
  u32 (userCount + (s.t.w.rooms room).users.size)

/-- mirrors Monitor/Monitor/WatchsList.cpp:96-112 -/
def pageCount : Nat :=
  let userCount := s.list.rooms.foldl (fun n room => s.increaseCount room n) 0
  if userCount % MAXIMAL_SCREEN_NUM = 0 then userCount / MAXIMAL_SCREEN_NUM
  else userCount / MAXIMAL_SCREEN_NUM + 1

/-- The messages for the users of a room from `offset` on, and where `offset`
ends; `none` when the page is full.
mirrors Monitor/Monitor/TitleRoom.cpp:235-255 -/
def showUsers (first : Nat) : Nat → List UserRef → List Message × Option Nat
  | offset, [] => ([], some offset)
  | offset, user :: users =>
    let sent := if first ≤ offset then [.watchRoomUser (some user) (u32 (offset - first))] else []
    let offset := u32 (offset + 1)
    if u32 (first + MAXIMAL_SCREEN_NUM) ≤ offset then (sent, none)
    else (sent ++ (showUsers first offset users).1, (showUsers first offset users).2)

/-- The rooms from `offset` on, until the page is full. -/
def showRooms (first : Nat) : Nat → List NodeRef → List Message
  | _, [] => []
  | offset, room :: rooms =>
    match showUsers first offset ((s.t.w.rooms room).users.entries.map Prod.snd) with
    | (sent, some offset) => sent ++ showRooms first offset rooms
    | (sent, none) => sent

/-- mirrors Monitor/Monitor/WatchsList.cpp:130-149 -/
def onShowPage : Watch :=
  let first := u32 (u32 (s.list.page - 1) * MAXIMAL_SCREEN_NUM)
  { s with pipe := s.pipe ++ .cleanScreens :: s.showRooms first 0 s.list.rooms }

def setPage (page : Nat) : Watch := { s with list := { s.list with page := page } }

/-- mirrors Monitor/Monitor/WatchsList.cpp:114-120 -/
def nextPage : Watch :=
  let s : Watch := { s with calls := s.calls ++ [.nextPage] }
  if s.list.watching then (s.setPage (min s.pageCount (u32 (s.list.page + 1)))).onShowPage else s

/-- mirrors Monitor/Monitor/WatchsList.cpp:122-128 -/
def prevPage : Watch :=
  if s.list.watching then (s.setPage (max 1 (u32 (s.list.page - 1)))).onShowPage else s

/-! ## The menu -/

inductive MenuItem
  | lookup
  | unlookup
deriving DecidableEq

/-- The item that the menu of a node has, and its text.
mirrors Monitor/Monitor/WatchsList.cpp:41-51 -/
def onConfig (node : Option NodeRef) : Option (MenuItem × String) :=
  match node with
  | none => none
  | some n =>
    let watched := s.list.watching ∧ s.list.node = some n
    let verb := if watched then "取消查看" else "查看"
    match (s.t.nodes n).nodeType with
    | .titleNode => some (if watched then .unlookup else .lookup, verb ++ "大区")
    | .titleRoom => some (if watched then .unlookup else .lookup, verb ++ "房间")
    | _ => none

/-! ## The walk -/

/-- mirrors Monitor/Monitor/WatchsList.cpp:25-39 -/
def finish : Watch :=
  { s.sendMessage .cleanScreens with list := ⟨none, none, false, 0, [], []⟩ }

def push (node : NodeRef) : Watch :=
  { s with list := { s.list with traverseStack := node :: s.list.traverseStack } }

def pop : Watch := { s with list := { s.list with traverseStack := s.list.traverseStack.tail } }

/-- mirrors Monitor/Monitor/WatchsList.cpp:85-94 -/
def addRoom (room : NodeRef) : Watch :=
  match s.list.title, s.list.node with
  | some title, some node =>
    if s.list.watching ∧ s.t.belowWatchedNode room node then
      let s := s.sendMessage (.continueTraverse title)
      { s with list := { s.list with rooms := OrderSet.insert s.t.orderOf room s.list.rooms } }
    else s
  | _, _ => s

/-- mirrors Monitor/Monitor/TitleRoom.cpp:86-96 -/
def roomOnWatched (ctrl : Option NodeRef) (room : NodeRef) : Watch :=
  let s : Watch := { s with calls := s.calls ++ [.watched room] }
  if (s.t.w.rooms room).proxy ≠ none then s.addRoom room else
    s.sendMessage (.expandedRoom ctrl room)

/-- `TitleNode::OnWatched` up to its call of `OnTraverse`.
mirrors Monitor/Monitor/TitleNode.cpp:37-52 -/
def expand (listing : Int → Option Document) (node : NodeRef) : Watch :=
  let s : Watch := { s with t := s.t.onItemExpanded listing node }
  (s.t.nodes node).nodesOrder.reverse.foldl push s

/-- `OnWatched` of a node, where `onTraverse` is what `OnTraverse` does. -/
def onWatched (listing : Int → Option Document) (onTraverse : Watch → Option Watch)
    (ctrl : Option NodeRef) (node : NodeRef) : Option Watch :=
  match (s.t.nodes node).nodeType with
  | .titleNode => onTraverse (s.expand listing node)
  | .titleRoom => some (s.roomOnWatched ctrl node)
  | _ => some s

/-- mirrors Monitor/Monitor/WatchsList.cpp:68-83 -/
def onTraverse (listing : Int → Option Document) : Nat → Watch → Option Watch
  | 0, _ => none
  | fuel + 1, s =>
    match s.list.traverseStack with
    | node :: _ => s.pop.onWatched listing (onTraverse listing fuel) s.list.title node
    | [] => some s.nextPage

/-- `Begin` up to its call of `OnWatched`. -/
def opened (node title : NodeRef) : Watch :=
  { s.finish with list := ⟨some node, some title, true, 0, [], []⟩ }

/-- mirrors Monitor/Monitor/WatchsList.cpp:14-23 -/
def start (listing : Int → Option Document) (fuel : Nat) (node title : NodeRef) : Option Watch :=
  (s.opened node title).onWatched listing (onTraverse listing fuel) (some title) node

/-! ## What the steps of a walk leave alone -/

variable {listing : Int → Option Document}

omit s in
theorem foldl_push (ns : List NodeRef) (s : Watch) :
    (ns.foldl push s).t = s.t ∧ (ns.foldl push s).calls = s.calls ∧
    (ns.foldl push s).list.traverseStack = ns.reverse ++ s.list.traverseStack := by
  induction ns generalizing s with
  | nil => exact ⟨rfl, rfl, rfl⟩
  | cons n ns ih =>
    obtain ⟨ht, hc, hs⟩ := ih (s.push n)
    exact ⟨ht, hc, by rw [List.foldl_cons, hs, List.reverse_cons, List.append_assoc]; rfl⟩

variable (listing) in
theorem expand_eq (n : NodeRef) : (s.expand listing n).t = s.t.onItemExpanded listing n ∧
    (s.expand listing n).calls = s.calls ∧ (s.expand listing n).list.traverseStack =
      ((s.t.onItemExpanded listing n).nodes n).nodesOrder ++ s.list.traverseStack := by
  obtain ⟨ht, hc, hs⟩ := foldl_push (((s.t.onItemExpanded listing n).nodes n).nodesOrder.reverse)
    { s with t := s.t.onItemExpanded listing n }
  exact ⟨ht, hc, by rw [List.reverse_reverse] at hs; exact hs⟩

/-- Adding a room to the list leaves the tree and the stack alone. -/
theorem addRoom_rest (room : NodeRef) :
    (s.addRoom room).t = s.t ∧ (s.addRoom room).calls = s.calls ∧
    (s.addRoom room).list.traverseStack = s.list.traverseStack := by
  unfold addRoom
  split
  · split <;> exact ⟨rfl, rfl, rfl⟩
  · exact ⟨rfl, rfl, rfl⟩

theorem addRoom_page (room : NodeRef) : (s.addRoom room).list.page = s.list.page ∧
    (s.addRoom room).list.watching = s.list.watching := by
  unfold addRoom
  split
  · split <;> exact ⟨rfl, rfl⟩
  · exact ⟨rfl, rfl⟩

theorem roomOnWatched_rest (ctrl : Option NodeRef) (room : NodeRef) :
    (s.roomOnWatched ctrl room).t = s.t ∧ (s.roomOnWatched ctrl room).calls =
    s.calls ++ [.watched room] ∧
      (s.roomOnWatched ctrl room).list.traverseStack = s.list.traverseStack := by
  unfold roomOnWatched
  dsimp only
  split
  · exact addRoom_rest _ room
  · exact ⟨rfl, rfl, rfl⟩

theorem roomOnWatched_page (ctrl : Option NodeRef) (room : NodeRef) :
    (s.roomOnWatched ctrl room).list.page = s.list.page ∧
      (s.roomOnWatched ctrl room).list.watching = s.list.watching := by
  unfold roomOnWatched
  dsimp only
  split
  · exact addRoom_page _ room
  · exact ⟨rfl, rfl⟩

theorem nextPage_rest : s.nextPage.t = s.t ∧ s.nextPage.calls = s.calls ++ [.nextPage] ∧
    s.nextPage.list.traverseStack = s.list.traverseStack := by
  unfold nextPage
  dsimp only
  split <;> exact ⟨rfl, rfl, rfl⟩

theorem prevPage_rest : s.prevPage.t = s.t ∧ s.prevPage.calls = s.calls ∧
    s.prevPage.list.traverseStack = s.list.traverseStack := by
  unfold prevPage
  split <;> exact ⟨rfl, rfl, rfl⟩

/-- A walk on its way: only the tree and the stack have changed. -/
structure OnWay (s s' : Watch) : Prop where
  list : ∃ stack, s'.list = { s.list with traverseStack := stack }
  pipe : s'.pipe = s.pipe
  calls : s'.calls = s.calls

omit s in
theorem OnWay.trans {s s' s'' : Watch} (h : OnWay s s') (h' : OnWay s' s'') : OnWay s s'' where
  list := by
    obtain ⟨stack, he⟩ := h.list
    obtain ⟨stack', he'⟩ := h'.list
    exact ⟨stack', by rw [he', he]⟩
  pipe := h'.pipe.trans h.pipe
  calls := h'.calls.trans h.calls

theorem onWay_pop : OnWay s s.pop := ⟨⟨_, rfl⟩, rfl, rfl⟩

theorem onWay_push (node : NodeRef) : OnWay s (s.push node) := ⟨⟨_, rfl⟩, rfl, rfl⟩

theorem onWay_expand (node : NodeRef) : OnWay s (s.expand listing node) := by
  have key : ∀ (ns : List NodeRef) (x : Watch), OnWay x (ns.foldl push x) := fun ns => by
    induction ns with
    | nil => exact fun x => ⟨⟨_, rfl⟩, rfl, rfl⟩
    | cons n ns ih => exact fun x => (x.onWay_push n).trans (ih _)
  have hopen : OnWay s { s with t := s.t.onItemExpanded listing node } := ⟨⟨_, rfl⟩, rfl, rfl⟩
  unfold expand
  exact hopen.trans (key _ _)

/-- **How a call of `OnTraverse` ends**: with `NextPage`, with a room, or with
an item that is neither room nor node. -/
theorem onTraverse_ends {fuel : Nat} {s s' : Watch} (h : s.onTraverse listing fuel = some s') :
    ∃ s₁, OnWay s s₁ ∧
      (s' = s₁.nextPage ∨ s' = s₁ ∨ ∃ room, s' = s₁.roomOnWatched s.list.title room) := by
  induction fuel generalizing s with
  | zero => cases h
  | succ fuel ih =>
    rw [onTraverse] at h
    split at h
    · rename_i node _ _
      rw [onWatched] at h
      split at h
      · obtain ⟨s₁, hs₁, hend⟩ := ih h
        have hexpand : OnWay s.pop (s.pop.expand listing node) := onWay_expand s.pop node
        have hway := s.onWay_pop.trans hexpand
        obtain ⟨stack, hlist⟩ := hway.list
        refine ⟨s₁, hway.trans hs₁, ?_⟩
        rwa [hlist] at hend
      · cases h
        exact ⟨s.pop, s.onWay_pop, .inr (.inr ⟨node, rfl⟩)⟩
      · cases h
        exact ⟨s.pop, s.onWay_pop, .inr (.inl rfl)⟩
    · cases h
      exact ⟨s, ⟨⟨_, rfl⟩, rfl, rfl⟩, .inl rfl⟩

/-- `Begin` calls `OnWatched` of the node as if it were on the stack. -/
theorem start_eq (fuel : Nat) (node title : NodeRef) :
    s.start listing fuel node title =
      ((s.opened node title).push node).onTraverse listing (fuel + 1) := rfl

end Watch
end MonitorAgent.L4
