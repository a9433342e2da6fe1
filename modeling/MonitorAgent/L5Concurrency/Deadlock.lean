import MonitorAgent.Core.LTS
import MonitorAgent.Core.WaitFor
import MonitorAgent.L3Wall.Layout

/-!
# The UI thread and the workers

Three threads run handlers: the UI thread those of its windows, the scene
worker scenes, and the thread of `g_mainframe_pipe` messages. Here a function
is the mutexes it takes and the calls into windows it makes, in order; which
branches it takes and how long its loops are is an argument of it.

`room_lock_` and `render_mutex_` are held across calls into windows of the UI
thread, and the UI thread takes both in handlers of its own. The mutexes are
taken in one order, but `GetUser` takes `room_lock_` twice for a user that it
does not find.

* `acyclic_of_spares`: no cycle in the wait-for relation in any state of a
  run in which the UI thread never waits for a mutex whose holder still makes
  a call under it, and `GetUser` finds the user.
* `stalled_forever`: a UI thread that does never gets on.
* `deadlock`: `AddUser` inserts the item of a user while the UI thread
  expands the room.
-/
namespace MonitorAgent.L5.Deadlock

open MonitorAgent.L3 LTS Instr

inductive Thread
  | ui
  | scene
  | pipe
deriving DecidableEq

instance : Fintype Thread :=
  ⟨⟨[Thread.ui, .scene, .pipe], by decide⟩, fun t => by cases t <;> decide⟩

/-- `rooms_lock_` of a proxy, `room_lock_` of a room, `render_mutex_` of a
screen. -/
inductive Lock
  | rooms (p : ProxyRef)
  | room (r : RoomRef)
  | render (s : ScreenRef)
deriving DecidableEq

/-- The order they are taken in. -/
def Lock.rank : Lock → Nat
  | .rooms _ => 0
  | .room _ => 1
  | .render _ => 2

abbrev Code := List (Instr Lock)

def calls (n : Nat) : Code := List.replicate n .call

/-! ## Screens -/

/-- mirrors Monitor/Monitor/Screen.cpp:148-153 -/
def moveToRect (s : ScreenRef) : Code := locked (.render s) (calls 2)

/-- mirrors Monitor/Monitor/Screen.cpp:155-159 -/
def hideWindow (s : ScreenRef) : Code := locked (.render s) (calls 1)

/-- mirrors Monitor/Monitor/Screen.cpp:161-166 -/
def updateWindow (s : ScreenRef) : Code := locked (.render s) (calls 2)

/-- `none`: the screen shows nobody.
mirrors Monitor/Monitor/Screen.cpp:395-411 -/
def disconnectUser (screen : Option ScreenRef) : Code := screen.elim [] updateWindow

/-- mirrors Monitor/Monitor/ScreenMgr.cpp:441-447 -/
def hideAll : Code := (List.finRange MAXIMAL_SCREEN_NUM).flatMap hideWindow

/-- The windows of the titles and their tabs, then the screens of the layout.
mirrors Monitor/Monitor/ScreenMgr.cpp:324-439 and TitlesCtl.cpp:124-140 -/
def layOut (titles : Nat) (resolution : Resolution) : Code :=
  calls (titles + 2) ++
  ((List.finRange MAXIMAL_SCREEN_NUM).take resolution.tiles).flatMap moveToRect

/-- mirrors Monitor/Monitor/ScreenMgr.cpp:273-290 -/
def changeLayout (titles : Nat) (resolution : Resolution) : Code :=
  hideAll ++ layOut titles resolution

/-! ## Tree items -/

/-- mirrors Monitor/Monitor/Node.cpp:38-47 -/
def addNull : Code := calls 1

/-- mirrors Monitor/Monitor/Node.cpp:49-59 -/
def delAll (items : Nat) : Code := calls (1 + 2 * items)

/-- mirrors Monitor/Monitor/Node.cpp:91-118 -/
def addNodeOrRoom : Code := calls 3

/-! ## Rooms -/

section Rooms

variable (r : RoomRef)

/-- `items` are those deleted if the room has no users.
mirrors Monitor/Monitor/TitleRoom.cpp:129-166 -/
def addUser (items : Option Nat) (known : Bool) : Code :=
  locked (.room r) (items.elim [] delAll ++ if known then [] else calls 1)

/-- The screen of the user, if there is a user.
mirrors Monitor/Monitor/TitleRoom.cpp:168-199 -/
def delUser (user : Option (Option ScreenRef)) (emptied : Bool) : Code :=
  locked (.room r) (user.elim [] (fun screen => .call :: disconnectUser screen) ++
    if emptied then addNull else [])

/-- `AddUser` is called with `room_lock_` held.
mirrors Monitor/Monitor/TitleRoom.cpp:201-216 -/
def getUser (items : Option Nat) (known : Bool) : Code :=
  locked (.room r) (if known then [] else addUser r items false)

/-- mirrors Monitor/Monitor/TitleRoom.cpp:218-227 -/
def modUser : Code := locked (.room r) []

/-- mirrors Monitor/Monitor/TitleRoom.cpp:229-233 -/
def increaseCount : Code := locked (.room r) []

/-- mirrors Monitor/Monitor/TitleRoom.cpp:235-255 -/
def onShowPage : Code := locked (.room r) []

/-- mirrors Monitor/Monitor/TitleRoom.cpp:98-105 -/
def onItemExpanded : Code := locked (.room r) []

/-- mirrors Monitor/Monitor/TitleRoom.cpp:107-128 -/
def onItemShrinked : Code := locked (.room r) []

/-- The screens of the users, in the order they are deleted; the last leaves
the room empty. mirrors Monitor/Monitor/TitleRoom.cpp:69-84 -/
def onDestory : List (Option ScreenRef) → Code
  | [] => []
  | screen :: screens => delUser r (some screen) screens.isEmpty ++ onDestory screens

end Rooms

/-- A room to tear down, and the screens of its users. -/
structure Teardown where
  room : RoomRef
  screens : List (Option ScreenRef)

def Teardown.code (x : Teardown) : Code := onDestory x.room x.screens

/-! ## Proxies -/

section Proxies

variable (p : ProxyRef)

/-- mirrors Monitor/Monitor/AvsProxy.cpp:233-243 -/
def addRoom : Code := locked (.rooms p) []

/-- `none`: the proxy has no such room.
mirrors Monitor/Monitor/AvsProxy.cpp:245-255 -/
def delRoom (room : Option Teardown) : Code := locked (.rooms p) (room.elim [] Teardown.code)

/-- mirrors Monitor/Monitor/AvsProxy.cpp:257-267 -/
def getRoom : Code := locked (.rooms p) []

/-- mirrors Monitor/Monitor/AvsProxy.cpp:269-273 -/
def getRoomSize : Code := locked (.rooms p) []

/-- mirrors Monitor/Monitor/AvsProxy.cpp:184-211 -/
def linkRoom (online : Bool) : Code := if online then addRoom p else []

/-- mirrors Monitor/Monitor/AvsProxy.cpp:71-88 -/
def onRxNAT (waitsRooms : List RoomRef) : Code := waitsRooms.flatMap fun _ => linkRoom p true

/-- mirrors Monitor/Monitor/AvsProxy.cpp:111-140 -/
def destory (rooms : List Teardown) : Code := rooms.flatMap fun x => delRoom p (some x)

end Proxies

/-! ## The tree and the list of watched rooms -/

/-- What `TitleNode::OnItemExpanded` comes to: items deleted of a node
without children, children added, rooms kicked out, an empty listing. -/
structure Expansion where
  items : Option Nat
  added : Nat
  kicked : List Teardown
  emptied : Bool

/-- mirrors Monitor/Monitor/TitleNode.cpp:54-70 -/
def Expansion.code (x : Expansion) : Code :=
  x.items.elim [] delAll ++ (List.range x.added).flatMap (fun _ => addNodeOrRoom) ++
  x.kicked.flatMap Teardown.code ++
    if x.emptied then addNull else []

/-- Rooms counted, and rooms until the page is full.
mirrors Monitor/Monitor/WatchsList.cpp:96-149 -/
def nextPage (counted shown : List RoomRef) : Code :=
  counted.flatMap increaseCount ++ shown.flatMap onShowPage

def prevPage (shown : List RoomRef) : Code := shown.flatMap onShowPage

/-- What `OnTraverse` comes to after the nodes it expands: a room, with the
calls of `BelowWatchedNode` if it is linked, or the end of the list. -/
inductive Stop
  | room (below : Option Nat)
  | page (counted shown : List RoomRef)

def Stop.code : Stop → Code
  | .room below => below.elim [] calls
  | .page counted shown => nextPage counted shown

/-- mirrors Monitor/Monitor/WatchsList.cpp:68-83 and TitleNode.cpp:37-52 -/
def onTraverse (expanded : List Expansion) (stop : Stop) : Code :=
  expanded.flatMap Expansion.code ++ stop.code

/-! ## Handlers -/

/-- A room of `RoomsInfoScene`: for each user the arguments of `AddUser`, and
the calls of `BelowWatchedNode`. -/
structure RoomUsers where
  room : RoomRef
  users : List (Option Nat × Bool)
  below : Option Nat

/-- mirrors Monitor/Monitor/Scene/AvsProxyScene/src/RoomsInfoScene.cpp:24-49 -/
def RoomUsers.code (x : RoomUsers) : Code :=
  x.users.flatMap (fun user => addUser x.room user.1 user.2 ++ modUser x.room) ++
  x.below.elim [] calls

/-- Handlers of the UI thread, scenes, and messages. The screens of
`linkScreenUser` are those that let a user go. -/
inductive Handler
  | nodeExpanded (x : Expansion)
  | roomExpanded (r : RoomRef)
  | roomShrinked (r : RoomRef)
  | lookUpNode (expanded : List Expansion) (stop : Stop)
  | nextPage (counted shown : List RoomRef)
  | prevPage (shown : List RoomRef)
  | size (titles : Nat) (resolution : Resolution)
  | nat (p : ProxyRef) (waitsRooms : List RoomRef)
  | roomsInfo (p : ProxyRef) (rooms : List (Option RoomUsers))
  | modMedia (p : ProxyRef) (room : Option RoomRef) (items : Option Nat) (known : Bool)
  | addUser (p : ProxyRef) (room : Option RoomRef) (items : Option Nat) (known : Bool)
  | delUser (p : ProxyRef) (room : Option RoomRef) (items : Option Nat) (known : Bool)
      (screen : Option ScreenRef)
      (emptied : Bool)
  | discProxy (p : ProxyRef) (rooms : List Teardown)
  | linkScreenUser (screens : List ScreenRef)
  | unlinkScreenUser (screen : Option ScreenRef)
  | cleanScreens (screens : List ScreenRef)
  | linkRoom (p : ProxyRef) (online : Bool)
  | unlinkRoom (p : ProxyRef) (room : Option Teardown)
  | continueTraverse (expanded : List Expansion) (stop : Stop)
  | changeLayout (titles : Nat) (resolution : Resolution)

namespace Handler

def thread : Handler → Thread
  | .nodeExpanded _ | .roomExpanded _ | .roomShrinked _ | .lookUpNode _ _ | .nextPage _ _
  | .prevPage _ | .size _ _ => .ui
  | .nat _ _ | .roomsInfo _ _ | .modMedia _ _ _ _ | .addUser _ _ _ _ | .delUser _ _ _ _ _ _
  | .discProxy _ _ => .scene
  | _ => .pipe

def code : Handler → Code
  | .nodeExpanded x => x.code
  | .roomExpanded r => onItemExpanded r
  | .roomShrinked r => onItemShrinked r
  | .lookUpNode expanded stop => onTraverse expanded stop
  | .nextPage counted shown => Deadlock.nextPage counted shown
  | .prevPage shown => Deadlock.prevPage shown
  | .size titles resolution => layOut titles resolution
  | .nat p waitsRooms => onRxNAT p waitsRooms
  | .roomsInfo p rooms => rooms.flatMap fun room => getRoom p ++ room.elim [] RoomUsers.code
  | .modMedia p room items known =>
    getRoom p ++ room.elim [] fun r => getUser r items known ++ modUser r
  | .addUser p room items known => getRoom p ++ room.elim [] fun r => Deadlock.addUser r items known
  | .delUser p room items known screen emptied =>
    getRoom p ++ room.elim [] fun r => getUser r items known ++
    Deadlock.delUser r (some screen) emptied
  | .discProxy p rooms => destory p rooms
  | .linkScreenUser screens | .cleanScreens screens => screens.flatMap updateWindow
  | .unlinkScreenUser screen => disconnectUser screen
  | .linkRoom p online => Deadlock.linkRoom p online
  | .unlinkRoom p room => delRoom p room ++ room.elim [] fun _ => getRoomSize p
  | .continueTraverse expanded stop => onTraverse expanded stop
  | .changeLayout titles resolution => Deadlock.changeLayout titles resolution

/-- `GetUser` finds the user. -/
def Known : Handler → Prop
  | .modMedia _ room _ known | .delUser _ room _ known _ _ => room = none ∨ known = true
  | _ => True

end Handler

/-! ## The order of the mutexes -/

theorem inner_calls (k n : Nat) : Inner Lock.rank k (calls n) := .replicate n

theorem inner_delAll (k items : Nat) : Inner Lock.rank k (delAll items) := inner_calls k _

theorem inner_addNull (k : Nat) : Inner Lock.rank k addNull := inner_calls k _

theorem inner_addNodeOrRoom (k : Nat) : Inner Lock.rank k addNodeOrRoom := inner_calls k _

theorem inner_elim {A : Type} {k : Nat} {f : A → Code} (h : ∀ a, Inner Lock.rank k (f a))
    (o : Option A) :
    Inner Lock.rank k (o.elim [] f) := by
  cases o with
  | none => exact .nil
  | some a => exact h a

theorem inner_if {k : Nat} {b b' : Code} (h : Inner Lock.rank k b) (h' : Inner Lock.rank k b')
    (c : Bool) :
    Inner Lock.rank k (if c then b else b') := by
  split
  · exact h
  · exact h'

theorem outer_elim {A : Type} {f : A → Code} (h : ∀ a, Outer Lock.rank (f a)) (o : Option A) :
    Outer Lock.rank (o.elim [] f) := by
  cases o with
  | none => exact .nil
  | some a => exact h a

/-- A window is updated under any mutex of rooms and proxies. -/
theorem inner_updateWindow (s : ScreenRef) : Inner Lock.rank 2 (updateWindow s) :=
  .locked (Nat.le_refl _) rfl (inner_calls _ _)

theorem inner_disconnectUser (screen : Option ScreenRef) :
    Inner Lock.rank 2 (disconnectUser screen) :=
  inner_elim inner_updateWindow screen

/-- What `DelUser` does under `room_lock_`. -/
theorem inner_delUser (user : Option (Option ScreenRef)) (emptied : Bool) : Inner Lock.rank 2
    (user.elim [] (fun screen => .call :: disconnectUser screen) ++ if emptied then
      addNull else []) :=
  (inner_elim (fun screen => Inner.call.append (inner_disconnectUser screen)) user).append
    (inner_if (inner_addNull 2) .nil emptied)

/-- A room is torn down under `rooms_lock_`: `DelUser` finds its user, so the
first thing it does is to delete the item. -/
theorem inner_onDestory (r : RoomRef) (screens : List (Option ScreenRef)) :
    Inner Lock.rank 1 (onDestory r screens) := by
  induction screens with
  | nil => exact .nil
  | cons screen screens ih =>
    have hdel : Inner Lock.rank 1 (delUser r (some screen) screens.isEmpty) :=
      .locked (Nat.le_refl _) rfl (inner_delUser (some screen) screens.isEmpty)
    exact hdel.append ih

theorem Teardown.inner (x : Teardown) : Inner Lock.rank 1 x.code := inner_onDestory x.room x.screens

theorem outer_delRoom (p : ProxyRef) (room : Option Teardown) : Outer Lock.rank (delRoom p room) :=
  .locked (inner_elim Teardown.inner room)

theorem outer_addUser (r : RoomRef) (items : Option Nat) (known : Bool) :
    Outer Lock.rank (addUser r items known) :=
  .locked ((inner_elim (inner_delAll 2) items).append (inner_if .nil (inner_calls 2 1) known))

theorem outer_delUser (r : RoomRef) (user : Option (Option ScreenRef)) (emptied : Bool) :
    Outer Lock.rank (delUser r user emptied) :=
  .locked (inner_delUser user emptied)

/-- `room_lock_` and nothing under it. -/
theorem outer_room (r : RoomRef) : Outer Lock.rank (locked (.room r) []) := .locked .nil

theorem outer_rooms (p : ProxyRef) : Outer Lock.rank (locked (.rooms p) []) := .locked .nil

theorem Expansion.outer (x : Expansion) : Outer Lock.rank x.code := by
  have hitems : Outer Lock.rank (x.items.elim [] delAll) :=
    (inner_elim (inner_delAll 0) x.items).outer
  have hadded : Outer Lock.rank ((List.range x.added).flatMap fun _ => addNodeOrRoom) :=
    .flatMap (fun _ => (inner_addNodeOrRoom 0).outer) _
  have hkicked : Outer Lock.rank (x.kicked.flatMap Teardown.code) :=
    .flatMap (fun y => y.inner.outer) _
  exact ((hitems.append hadded).append hkicked).append
    (inner_if (inner_addNull 0) .nil x.emptied).outer

theorem outer_nextPage (counted shown : List RoomRef) : Outer Lock.rank (nextPage counted shown) :=
  .append (.flatMap outer_room counted) (.flatMap outer_room shown)

theorem Stop.outer (stop : Stop) : Outer Lock.rank stop.code := by
  cases stop with
  | room below => exact (inner_elim (inner_calls 0) below).outer
  | page counted shown => exact outer_nextPage counted shown

theorem outer_onTraverse (expanded : List Expansion) (stop : Stop) :
    Outer Lock.rank (onTraverse expanded stop) :=
  .append (.flatMap Expansion.outer expanded) stop.outer

theorem RoomUsers.outer (x : RoomUsers) : Outer Lock.rank x.code :=
  have husers := fun user : Option Nat × Bool => outer_addUser x.room user.1 user.2
  .append (.flatMap (fun user => .append (husers user) (outer_room x.room)) x.users)
    (inner_elim (inner_calls 0) x.below).outer

theorem outer_layOut (titles : Nat) (resolution : Resolution) :
    Outer Lock.rank (layOut titles resolution) :=
  .append (inner_calls 0 _).outer (.flatMap (fun _ => .locked (inner_calls _ _)) _)

/-- **Order.** Every handler takes its mutexes in order, if `GetUser` finds
the user. -/
theorem Handler.outer (h : Handler) (hk : h.Known) : Outer Lock.rank h.code := by
  cases h
  case nodeExpanded x => exact x.outer
  case roomExpanded r => exact outer_room r
  case roomShrinked r => exact outer_room r
  case lookUpNode expanded stop => exact outer_onTraverse expanded stop
  case nextPage counted shown => exact outer_nextPage counted shown
  case prevPage shown => exact .flatMap outer_room shown
  case size titles resolution => exact outer_layOut titles resolution
  case nat p waitsRooms => exact .flatMap (fun _ => outer_rooms p) waitsRooms
  case roomsInfo p rooms =>
    exact .flatMap (fun room => .append (outer_rooms p) (outer_elim RoomUsers.outer room)) rooms
  case modMedia p room items known =>
    rcases hk with rfl | rfl
    · exact .append (outer_rooms p) .nil
    · exact .append (outer_rooms p) (outer_elim (fun r =>
        .append (outer_room r) (outer_room r)) room)
  case addUser p room items known =>
    exact .append (outer_rooms p) (outer_elim (fun r => outer_addUser r items known) room)
  case delUser p room items known screen emptied =>
    rcases hk with rfl | rfl
    · exact .append (outer_rooms p) .nil
    · exact .append (outer_rooms p) (outer_elim (fun r =>
        .append (outer_room r) (outer_delUser r (some screen) emptied)) room)
  case discProxy p rooms => exact .flatMap (fun x => outer_delRoom p (some x)) rooms
  case linkScreenUser screens => exact .flatMap (fun s => (inner_updateWindow s).outer) screens
  case unlinkScreenUser screen => exact (inner_disconnectUser screen).outer
  case cleanScreens screens => exact .flatMap (fun s => (inner_updateWindow s).outer) screens
  case linkRoom p online =>
    cases online with
    | false => exact .nil
    | true => exact outer_rooms p
  case unlinkRoom p room =>
    exact .append (outer_delRoom p room) (outer_elim (fun _ => outer_rooms p) room)
  case continueTraverse expanded stop => exact outer_onTraverse expanded stop
  case changeLayout titles resolution =>
    exact .append (.flatMap (fun _ => .locked (inner_calls _ _)) _) (outer_layOut titles resolution)

/-! ## Runs -/

abbrev St := Threads Thread Lock

/-- A thread that has nothing to do starts a handler; a thread goes on. -/
inductive Act
  | start (h : Handler)
  | run (t : Thread)

namespace St

variable (s : St)

def step : Act → Option St
  | .start h =>
    if s.code h.thread = [] then some (s.set h.thread h.code (s.held h.thread)) else none
  | .run t => s.run .ui t

def Launched : Prop := ∀ t, s.code t = [] ∧ s.held t = []

/-- The UI thread comes to a mutex only while its holder makes no call under
it, another thread takes one it waits for only to release it without a call,
and `GetUser` finds the user. -/
def Spares : Act → Prop
  | .start h => h.Known ∧ (h.thread = .ui → s.Open .ui h.code)
  | .run t => s.Yields .ui t

/-- The mutexes are taken in order, and the UI thread gets on. -/
structure Inv : Prop where
  disciplined : ∀ t, Disciplined Lock.rank (s.held t) (s.code t)
  stalled : ¬ s.Stalled .ui

end St

def sys : LTS St Act := .ofFn St.Launched St.step

theorem St.Inv.launched {s : St} (h : s.Launched) : s.Inv where
  disciplined t := by rw [(h t).1, (h t).2]; rfl
  stalled := by
    intro ⟨l, hl, _⟩
    rw [(h .ui).1] at hl
    cases hl

theorem St.Inv.start {s : St} (hi : s.Inv) {h : Handler} (hidle : s.code h.thread = [])
    (hk : h.Known) (ho : h.thread = .ui → s.Open .ui h.code) :
    St.Inv (s.set h.thread h.code (s.held h.thread)) where
  disciplined t := by
    rw [Threads.set_code, Threads.set_held]
    split
    · have hheld := hi.disciplined h.thread
      rw [hidle] at hheld
      rw [show s.held h.thread = [] from hheld]
      exact (h.outer hk).disciplined
    · exact hi.disciplined t
  stalled := by
    by_cases hui : h.thread = .ui
    · rw [hui] at hidle ⊢
      rw [Threads.stalled_set_loop]
      exact not_not.mpr (ho hui)
    · -- an idle thread holds nothing
      have hheld := hi.disciplined h.thread
      rw [hidle] at hheld
      rw [Threads.stalled_set_other hui, show s.held h.thread = [] from hheld]
      rintro ⟨l, hl, ⟨hh, -⟩ | ⟨t, ht, -, hh, hc⟩⟩
      · cases hh
      · exact hi.stalled ⟨l, hl, t, ht, hh, hc⟩

theorem St.Inv.step {s s' : St} {a : Act} (hi : s.Inv) (hs : s.Spares a)
    (hst : s.step a = some s') : s'.Inv := by
  cases a with
  | start h =>
    simp only [St.step] at hst
    split at hst
    · cases hst; exact hi.start ‹_› hs.1 hs.2
    · cases hst
  | run t =>
    exact ⟨Threads.disciplined_run hi.disciplined hst,
      fun hst' => (Threads.stalled_run_iff hi.stalled hst).mp hst' hs⟩

/-- `GetUser` takes `room_lock_` under itself. -/
theorem getUser_unordered (p : ProxyRef) (r : RoomRef) (items : Option Nat) (c : Code) :
    ¬ Disciplined Lock.rank [] (getRoom p ++ (getUser r items false ++ c)) := by
  intro h
  have h' : Disciplined Lock.rank ([Lock.rooms p].filter (· ≠ .rooms p))
    (getUser r items false ++ c) := h.2.2.2
  exact Nat.lt_irrefl _ (h'.2.2.1 (.room r) List.mem_cons_self)

theorem Handler.known_of_disciplined {h : Handler} (hd : Disciplined Lock.rank [] h.code) :
    h.Known := by
  cases h
  case modMedia p room items known =>
    cases known with
    | true => exact .inr rfl
    | false =>
      cases room with
      | none => exact .inl rfl
      | some r => exact absurd hd (getUser_unordered p r items _)
  case delUser p room items known screen emptied =>
    cases known with
    | true => exact .inr rfl
    | false =>
      cases room with
      | none => exact .inl rfl
      | some r => exact absurd hd (getUser_unordered p r items _)
  all_goals trivial

theorem guarded : sys.Guarded St.Spares St.Inv St.Inv where
  init _ h0 := .launched h0
  step _ _ _ hi hs hst := hi.step hs hst
  safe _ hi := hi
  sharp s a s' hi hs hst hi' := by
    cases a with
    | run t => exact hi'.stalled ((Threads.stalled_run_iff hi.stalled hst).mpr hs)
    | start h =>
      have hstart : s.step (.start h) = some s' := hst
      simp only [St.step] at hstart
      split at hstart
      · rename_i hidle
        cases hstart
        refine hs ⟨Handler.known_of_disciplined ?_, fun hui => ?_⟩
        · have hheld := hi.disciplined h.thread
          rw [hidle] at hheld
          have hd := hi'.disciplined h.thread
          rwa [Threads.set_code, Threads.set_held, if_pos rfl, if_pos rfl,
            show s.held h.thread = [] from hheld] at hd
        · have hopen := hi'.stalled
          rw [hui, Threads.stalled_set_loop] at hopen
          exact not_not.mp hopen
      · cases hstart

/-- **No deadlock.** Along a run the mutexes are taken in order and the UI
thread gets on iff every step spares it; and then nobody waits for himself. -/
theorem acyclic_of_spares {s₀ s : St} {ms : List (Move St Act)} (h0 : s₀.Launched)
    (hr : sys.Run s₀ ms s) :
    ((∀ y ∈ visited s₀ ms, y.Inv) ↔ ∀ m ∈ ms, m.src.Spares m.lbl) ∧
      ((∀ m ∈ ms, m.src.Spares m.lbl) → ∀ y ∈ visited s₀ ms, ¬ y.Cycle .ui) := by
  have hiff := guarded.safe_along_iff h0 hr
  exact ⟨hiff, fun hs y hy => Threads.acyclic .ui (hiff.mpr hs y hy).disciplined
    (hiff.mpr hs y hy).stalled⟩

/-- Another handler does not help. -/
theorem stalled_step {s s' : St} {a : Act} (hs : s.Stalled .ui) (hst : s.step a = some s') :
    s'.Stalled .ui ∧ s'.code .ui = s.code .ui := by
  cases a with
  | run t => exact hs.run hst
  | start h =>
    simp only [St.step] at hst
    split at hst
    · rename_i hidle
      cases hst
      obtain ⟨l, hl, t, ht, hh, hc⟩ := hs
      have hui : h.thread ≠ .ui := by
        intro he
        rw [← he, hidle] at hl
        cases hl
      have hne : t ≠ h.thread := by
        rintro rfl
        rw [hidle] at hc
        exact hc
      refine ⟨(Threads.stalled_set_other hui _ _).mpr ⟨l, hl, .inr ⟨t, ht, hne, hh, hc⟩⟩, ?_⟩
      rw [Threads.set_code, if_neg (Ne.symm hui)]
    · cases hst

/-- Once the UI thread waits for a mutex that is held across a call, it waits
for good. -/
theorem stalled_forever {s s' : St} {ms : List (Move St Act)} (hr : sys.Run s ms s')
    (hs : s.Stalled .ui) :
    s'.Stalled .ui ∧ s'.code .ui = s.code .ui := by
  induction hr with
  | nil => exact ⟨hs, rfl⟩
  | cons hst _ ih =>
    obtain ⟨hs', hc'⟩ := stalled_step hs hst
    obtain ⟨hs'', hc''⟩ := ih hs'
    exact ⟨hs'', hc''.trans hc'⟩

/-! ## Runs of the three threads -/

instance (s : St) (c : Code) : Decidable (s.Open .ui c) :=
  inferInstanceAs (Decidable (∀ l ∈ wants c, ∀ t, t ≠ Thread.ui → l ∈ s.held t →
    ¬ Calls l (s.code t)))

instance (s : St) (t : Thread) : Decidable (s.Yields .ui t) := by
  unfold Threads.Yields
  split <;> infer_instance

instance (h : Handler) : Decidable h.Known := by
  unfold Handler.Known
  split <;> infer_instance

instance (s : St) : (a : Act) → Decidable (s.Spares a)
  | .start h => inferInstanceAs (Decidable (h.Known ∧ _))
  | .run t => inferInstanceAs (Decidable (s.Yields .ui t))

instance (s : St) (t t' : Thread) : Decidable (s.LockWaits t t') :=
  inferInstanceAs (Decidable (∃ l ∈ wants (s.code t), l ∈ s.held t'))

def St.launched : St := ⟨fun _ => [], fun _ => []⟩

theorem St.launched_launched : St.launched.Launched := fun _ => ⟨rfl, rfl⟩

/-- A user is added to room 0; the room is expanded while `ModMedia` has its
mutex. -/
def expanded : List Act :=
  .start (.addUser 0 (some 0) (some 1) false) :: List.replicate 8 (.run .scene) ++
    [.start (.modMedia 0 (some 0) none true), .run .scene, .run .scene, .run .scene,
      .start (.roomExpanded 0),
      .run .scene, .run .ui, .run .ui, .run .scene, .run .scene]

theorem acyclic_of_spares_expanded : (∀ m ∈ moves St.step .launched expanded, m.src.Spares m.lbl) ∧
    ((∀ y ∈ visited .launched (moves St.step .launched expanded), y.Inv) ∧
      ∀ y ∈ visited .launched (moves St.step .launched expanded), ¬ y.Cycle .ui) := by
  have hs : ∀ m ∈ moves St.step .launched expanded, m.src.Spares m.lbl := by decide +kernel
  have h := acyclic_of_spares St.launched_launched (run_of_exec expanded (by decide +kernel))
  exact ⟨hs, h.1.mpr hs, h.2 hs⟩

/-- The room is expanded while `AddUser` is about to insert an item. -/
def inserted : List Act :=
  .start (.addUser 0 (some 0) none false) :: List.replicate 3 (.run .scene) ++
  [.start (.roomExpanded 0)]

/-- The UI thread waits for `room_lock_`, and its holder for the UI thread. -/
theorem deadlock : ∃ s, sys.Reachable s ∧ s.Cycle .ui := by
  obtain ⟨s, hr, hp⟩ := exists_reachable_of_exec St.Launched St.step inserted
    (fun s => decide (s.LockWaits .ui .scene) && (s.code .scene).head? == some .call &&
      !(s.code .ui).isEmpty)
    St.launched_launched (by decide +kernel)
  simp only [Bool.and_eq_true, decide_eq_true_eq, beq_iff_eq, Bool.not_eq_true',
    List.isEmpty_eq_false_iff] at hp
  obtain ⟨⟨hlock, hcall⟩, hbusy⟩ := hp
  exact ⟨s, hr, .ui, .tail (.single (.inl hlock)) (.inr ⟨⟨by decide, hcall⟩, rfl, hbusy⟩)⟩

end MonitorAgent.L5.Deadlock
