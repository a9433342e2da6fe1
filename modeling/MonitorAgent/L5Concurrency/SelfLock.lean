import MonitorAgent.Core.Relock
import MonitorAgent.L3Wall.Links
import MonitorAgent.L4Session.RoomsInfoScene

/-!
# Mutexes a thread already holds

The mutexes that handlers take, each an `std::mutex` of an object, which its
owner must not lock again. A function is the mutexes it takes, in order, with
those of the functions it calls; calls into windows do not matter here. What
decides whether `GetUser` and `LinkRoom` take another mutex is read from the
state. The other branches and the lengths of loops are arguments, so that a
handler stands for all of its paths.

Mutexes nest in one order (`Lock.rank`), but for `GetUser`, which calls
`AddUser` for a user that it does not find.

* `relocks_iff`: a handler takes a mutex it holds exactly if it is a
  `ModMediaScene` or `DelUserScene` for a user that the room does not have.
* `stuck_iff`: those scenes never return.
-/
namespace MonitorAgent.L5.SelfLock

open MonitorAgent.L3 MonitorAgent.L4 LTS Instr

/-- `linked_proxys_lock_`, `waits_rooms_lock_` and `rooms_lock_` of a proxy,
`room_lock_` of a room, `media_active_lock_` of a screen, `tcp_lock_` of a
proxy. -/
inductive Lock
  | linkedProxys
  | waitsRooms (p : ProxyRef)
  | rooms (p : ProxyRef)
  | room (r : RoomRef)
  | mediaActive (s : ScreenRef)
  | tcp (p : ProxyRef)
deriving DecidableEq

/-- The order they nest in. -/
def Lock.rank : Lock → Nat
  | .linkedProxys => 0
  | .waitsRooms _ => 1
  | .rooms _ => 2
  | .room _ => 3
  | .mediaActive _ => 4
  | .tcp _ => 5

abbrev Code := List (Instr Lock)

/-! ## Screens -/

section Screens

variable (s : ScreenRef)

/-- mirrors Monitor/Monitor/Screen.cpp:180-189 -/
def audioScene : Code := locked (.mediaActive s) []

/-- mirrors Monitor/Monitor/Screen.cpp:196-209 -/
def videoScene : Code := locked (.mediaActive s) []

/-- mirrors Monitor/Monitor/Screen.cpp:379-393 -/
def connectUser : Code := locked (.mediaActive s) []

end Screens

/-- `none`: there is no screen, or it shows nobody.
mirrors Monitor/Monitor/Screen.cpp:395-411 -/
def disconnectUser (screen : Option ScreenRef) : Code :=
  screen.elim [] fun s => locked (.mediaActive s) []

/-! ## Rooms -/

section Rooms

variable (r : RoomRef)

/-- mirrors Monitor/Monitor/TitleRoom.cpp:129-166 -/
def addUser : Code := locked (.room r) []

/-- The screen of the user, if there is a user and it is on one.
mirrors Monitor/Monitor/TitleRoom.cpp:168-199 -/
def delUser (screen : Option ScreenRef) : Code := locked (.room r) (disconnectUser screen)

/-- mirrors Monitor/Monitor/TitleRoom.cpp:201-216 -/
def getUser (w : World) (userId : Int) : Code :=
  locked (.room r) (if ((w.rooms r).users.find? userId).isSome then [] else addUser r)

/-- mirrors Monitor/Monitor/TitleRoom.cpp:218-227 -/
def modUser : Code := locked (.room r) []

/-- mirrors Monitor/Monitor/TitleRoom.cpp:229-233 -/
def increaseCount : Code := locked (.room r) []

/-- mirrors Monitor/Monitor/TitleRoom.cpp:235-255 -/
def onShowPage : Code := locked (.room r) []

/-- mirrors Monitor/Monitor/TitleRoom.cpp:98-105 -/
def onItemExpanded : Code := locked (.room r) []

/-- mirrors Monitor/Monitor/TitleRoom.cpp:107-128 -/
def onItemShrinked : Code := locked (.room r) []

/-- The screens of the users, in the order they are deleted.
mirrors Monitor/Monitor/TitleRoom.cpp:69-84 -/
def onDestory (screens : List (Option ScreenRef)) : Code := screens.flatMap (delUser r)

end Rooms

/-- A room to tear down, and the screens of its users. -/
structure Teardown where
  room : RoomRef
  screens : List (Option ScreenRef)

def Teardown.code (x : Teardown) : Code := onDestory x.room x.screens

/-! ## Proxies -/

section Proxies

variable (p : ProxyRef)

/-- mirrors Monitor/Monitor/AvsProxy.cpp:275-279 -/
def sendTCPPacket : Code := locked (.tcp p) []

/-- mirrors Monitor/Monitor/AvsProxy.cpp:24-46 -/
def login (sends : Bool) : Code := if sends then sendTCPPacket p else []

/-- mirrors Monitor/Monitor/AvsProxy.cpp:233-243 -/
def addRoom : Code := locked (.rooms p) []

/-- `none`: the proxy has no such room.
mirrors Monitor/Monitor/AvsProxy.cpp:245-255 -/
def delRoom (room : Option Teardown) : Code := locked (.rooms p) (room.elim [] Teardown.code)

/-- mirrors Monitor/Monitor/AvsProxy.cpp:257-267 -/
def getRoom : Code := locked (.rooms p) []

/-- mirrors Monitor/Monitor/AvsProxy.cpp:269-273 -/
def getRoomSize : Code := locked (.rooms p) []

/-- A proxy that is not online yet puts the room on its list.
mirrors Monitor/Monitor/AvsProxy.cpp:184-211 -/
def linkRoom (w : World) (r : RoomRef) : Code :=
  if (w.proxies p).status = .online then
    addRoom p ++ if ((w.proxies p).rooms.find? (w.rooms r).id).isNone then sendTCPPacket p else []
  else locked (.waitsRooms p) []

/-- The loop of `OnRxNAT`, in the state each pass finds. -/
def linkRooms : World → List RoomRef → Code
  | _, [] => []
  | w, r :: rs => linkRoom p w r ++ linkRooms (w.linkRoom p r).1 rs

/-- mirrors Monitor/Monitor/AvsProxy.cpp:71-88 -/
def onRxNAT (w : World) : Code :=
  if (w.proxies p).status ≠ .nating then []
  else locked (.waitsRooms p) (linkRooms p (w.setStatus p .online) (w.proxies p).waitsRooms)

/-- mirrors Monitor/Monitor/AvsProxy.cpp:213-231 -/
def unlinkRoom (room : Option Teardown) : Code :=
  delRoom p room ++ room.elim [] fun _ => sendTCPPacket p

/-- mirrors Monitor/Monitor/AvsProxy.cpp:111-140 -/
def destory (rooms : List Teardown) : Code := rooms.flatMap fun x => delRoom p (some x)

end Proxies

/-- mirrors Monitor/Monitor/ScreenMgr.cpp:769-787 -/
def addProxy : Code := locked .linkedProxys []

/-- mirrors Monitor/Monitor/ScreenMgr.cpp:789-807 -/
def delProxy : Code := locked .linkedProxys []

/-- mirrors Monitor/Monitor/ScreenMgr.cpp:809-819 -/
def getProxy : Code := locked .linkedProxys []

/-- mirrors Monitor/Monitor/ScreenMgr.cpp:822-842 -/
def delAllProxys : Code := locked .linkedProxys []

/-! ## The screen manager -/

/-- A screen that lets its user go, and the proxy that is told.
mirrors Monitor/Monitor/ScreenMgr.cpp:259-271 -/
def unlinkScreenUser (screen : Option ScreenRef) (proxy : Option ProxyRef) : Code :=
  disconnectUser screen ++ proxy.elim [] sendTCPPacket

/-- The screens that let their users go, and the link unless the function
returned before.
mirrors Monitor/Monitor/ScreenMgr.cpp:228-257 -/
def linkScreenUser (unlinked : List (Option ScreenRef × Option ProxyRef))
    (link : Option (ProxyRef × ScreenRef)) : Code :=
  unlinked.flatMap (fun x => unlinkScreenUser x.1 x.2) ++
    link.elim [] fun x => sendTCPPacket x.1 ++ connectUser x.2

/-- `found`: the proxy is known; `added`: otherwise, it could be added.
mirrors Monitor/Monitor/ScreenMgr.cpp:181-205 and 704-727 -/
def onLinkRoom (w : World) (p : ProxyRef) (r : RoomRef) (found added sends : Bool) : Code :=
  getProxy ++ (if found then [] else addProxy ++ if added then login p sends else []) ++
  linkRoom p w r

/-- `none`: `UnlinkRoom` fails. Otherwise, whether the room was the last.
mirrors Monitor/Monitor/ScreenMgr.cpp:207-224 -/
def onUnlinkRoom (p : ProxyRef) (room : Option Teardown) (last : Option Bool) : Code :=
  unlinkRoom p room ++ last.elim [] fun last => getRoomSize p ++ if last then delProxy else []

/-! ## The list of watched rooms -/

/-- Rooms counted, and rooms until the page is full.
mirrors Monitor/Monitor/WatchsList.cpp:96-149 -/
def nextPage (counted shown : List RoomRef) : Code :=
  counted.flatMap increaseCount ++ shown.flatMap onShowPage

/-- mirrors Monitor/Monitor/WatchsList.cpp:122-149 -/
def prevPage (shown : List RoomRef) : Code := shown.flatMap onShowPage

/-- The rooms kicked out by the nodes that are expanded, and the page if the
stack was empty.
mirrors Monitor/Monitor/WatchsList.cpp:68-83 and TitleNode.cpp:37-70 -/
def onTraverse (kicked : List Teardown) (page : Option (List RoomRef × List RoomRef)) : Code :=
  kicked.flatMap Teardown.code ++ page.elim [] fun x => nextPage x.1 x.2

/-! ## Handlers -/

/-- Scenes, handlers of the event thread, messages of the main pipe, and
handlers of the windows. -/
inductive Handler
  | resLogin (p : ProxyRef)
  | nat (p : ProxyRef)
  | roomsInfo (p : ProxyRef) (rooms : List (Int × Nat))
  | modMedia (p : ProxyRef) (roomId userId : Int)
  | addUser (p : ProxyRef) (roomId userId : Int)
  | delUser (p : ProxyRef) (roomId userId : Int) (screen : Option ScreenRef)
  | keepAlive (p : ProxyRef)
  | discProxy (p : ProxyRef) (rooms : List Teardown)
  | tcpParamScene
  | tcpClosed
  | udpParamScene
  | udpMedia (medium : Medium) (screen : Option ScreenRef)
  | linkScreenUser (unlinked : List (Option ScreenRef × Option ProxyRef))
      (link : Option (ProxyRef × ScreenRef))
  | unlinkScreenUser (screen : Option ScreenRef) (proxy : Option ProxyRef)
  | linkRoom (p : ProxyRef) (r : RoomRef) (found added sends : Bool)
  | unlinkRoom (p : ProxyRef) (room : Option Teardown) (last : Option Bool)
  | disconnectAllProxys
  | cleanScreens (screens : List (Option ScreenRef))
  | continueTraverse (kicked : List Teardown) (page : Option (List RoomRef × List RoomRef))
  | lookUpNode (kicked : List Teardown) (page : Option (List RoomRef × List RoomRef))
  | unlookUpNode
  | nextPage (counted shown : List RoomRef)
  | prevPage (shown : List RoomRef)
  | nodeExpanded (kicked : List Teardown)
  | roomExpanded (r : RoomRef)
  | roomShrinked (r : RoomRef)

/-- What a handler takes. -/
def Handler.code (w : World) : Handler → Code
  | .resLogin _ | .keepAlive _ | .unlookUpNode => []
  | .nat p => onRxNAT p w
  | .roomsInfo p rooms => rooms.flatMap fun x => getRoom p ++
      (w.getRoom p x.1).elim [] fun r => (List.range x.2).flatMap fun _ =>
      SelfLock.addUser r ++ modUser r
  | .modMedia p roomId userId => getRoom p ++
      (w.getRoom p roomId).elim [] fun r => getUser r w userId ++ modUser r
  | .addUser p roomId _ => getRoom p ++ (w.getRoom p roomId).elim [] SelfLock.addUser
  | .delUser p roomId userId screen => getRoom p ++
      (w.getRoom p roomId).elim [] fun r => getUser r w userId ++ SelfLock.delUser r screen
  | .discProxy p rooms => destory p rooms
  | .tcpParamScene | .udpParamScene => getProxy
  | .tcpClosed => delProxy
  | .udpMedia .audio screen => screen.elim [] audioScene
  | .udpMedia .video screen => screen.elim [] videoScene
  | .linkScreenUser unlinked link => SelfLock.linkScreenUser unlinked link
  | .unlinkScreenUser screen proxy => SelfLock.unlinkScreenUser screen proxy
  | .linkRoom p r found added sends => onLinkRoom w p r found added sends
  | .unlinkRoom p room last => onUnlinkRoom p room last
  | .disconnectAllProxys => delAllProxys
  | .cleanScreens screens => screens.flatMap disconnectUser
  | .continueTraverse kicked page | .lookUpNode kicked page => onTraverse kicked page
  | .nextPage counted shown => SelfLock.nextPage counted shown
  | .prevPage shown => SelfLock.prevPage shown
  | .nodeExpanded kicked => kicked.flatMap Teardown.code
  | .roomExpanded r => onItemExpanded r
  | .roomShrinked r => onItemShrinked r

/-- The user of a `ModMediaScene` or `DelUserScene` is in its room, if the
proxy knows the room. -/
def Handler.Known (w : World) : Handler → Prop
  | .modMedia p roomId userId | .delUser p roomId userId _ =>
    ∀ r, w.getRoom p roomId = some r → ((w.rooms r).users.find? userId).isSome
  | _ => True

/-! ## The order of the mutexes -/

section Order

theorem nested_disconnectUser {k : Nat} (hk : k ≤ 4) (screen : Option ScreenRef) :
    Nested Lock.rank k (disconnectUser screen) :=
  .elim (fun s => Nested.locked (l := Lock.mediaActive s) hk .nil) screen

theorem nested_delUser {k : Nat} (hk : k ≤ 3) (r : RoomRef) (screen : Option ScreenRef) :
    Nested Lock.rank k (delUser r screen) :=
      .locked hk (nested_disconnectUser (Nat.le_refl 4) screen)

theorem nested_teardown {k : Nat} (hk : k ≤ 3) (x : Teardown) : Nested Lock.rank k x.code :=
  .flatMap (nested_delUser hk x.room) x.screens

theorem nested_teardowns {k : Nat} (hk : k ≤ 3) (xs : List Teardown) :
    Nested Lock.rank k (xs.flatMap Teardown.code) := .flatMap (nested_teardown hk) xs

/-- A mutex of a room that guards nothing. -/
theorem nested_room (r : RoomRef) : Nested Lock.rank 0 (locked (.room r) []) :=
  .locked (Nat.zero_le _) .nil

theorem nested_getRoom (p : ProxyRef) : Nested Lock.rank 0 (getRoom p) :=
  .locked (Nat.zero_le _) .nil

theorem nested_linkedProxys : Nested Lock.rank 0 (locked .linkedProxys []) :=
  .locked (Nat.le_refl 0) .nil

theorem nested_sendTCPPacket {k : Nat} (hk : k ≤ 5) (p : ProxyRef) :
    Nested Lock.rank k (sendTCPPacket p) :=
  .locked hk .nil

theorem nested_delRoom (p : ProxyRef) (room : Option Teardown) :
    Nested Lock.rank 0 (delRoom p room) :=
  .locked (Nat.zero_le _) (.elim (nested_teardown (Nat.le_refl 3)) room)

theorem nested_pages (rooms : List RoomRef) :
    Nested Lock.rank 0 (rooms.flatMap fun r => locked (.room r) []) :=
  .flatMap nested_room rooms

theorem nested_nextPage (counted shown : List RoomRef) :
    Nested Lock.rank 0 (nextPage counted shown) :=
  (nested_pages counted).append (nested_pages shown)

theorem nested_onTraverse (kicked : List Teardown) (page : Option (List RoomRef × List RoomRef)) :
    Nested Lock.rank 0 (onTraverse kicked page) :=
  (nested_teardowns (Nat.zero_le 3) kicked).append (.elim (fun x => nested_nextPage x.1 x.2) page)

theorem nested_unlinkScreenUser (screen : Option ScreenRef) (proxy : Option ProxyRef) :
    Nested Lock.rank 0 (unlinkScreenUser screen proxy) :=
  (nested_disconnectUser (Nat.zero_le 4) screen).append
    (.elim (nested_sendTCPPacket (Nat.zero_le 5)) proxy)

/-- A room that is linked on an online proxy takes nothing that `OnRxNAT`
holds. -/
theorem nested_linkRoom_online {w : World} {p : ProxyRef} (h : (w.proxies p).status = .online)
    {k : Nat} (hk : k ≤ 2) (r : RoomRef) : Nested Lock.rank k (linkRoom p w r) := by
  rw [linkRoom, if_pos h]
  exact Nested.append (.locked hk .nil)
    (.ite (nested_sendTCPPacket (Nat.le_trans hk (by decide)) p) .nil _)

theorem nested_linkRoom (w : World) (p : ProxyRef) (r : RoomRef) :
    Nested Lock.rank 0 (linkRoom p w r) := by
  by_cases h : (w.proxies p).status = .online
  · exact nested_linkRoom_online h (Nat.zero_le 2) r
  · rw [linkRoom, if_neg h]
    exact .locked (Nat.zero_le _) .nil

/-- Linking a room leaves the proxy online. -/
theorem linkRoom_online {w : World} {p : ProxyRef} (h : (w.proxies p).status = .online)
    (r : RoomRef) :
    ((w.linkRoom p r).1.proxies p).status = .online := by
  rw [World.linkRoom, if_pos h, (World.linkOnline_eq w p r).2, (World.addRoom_rest w p _ r p).2, h]

theorem nested_linkRooms {w : World} {p : ProxyRef} (h : (w.proxies p).status = .online)
    (rs : List RoomRef) :
    Nested Lock.rank 2 (linkRooms p w rs) := by
  induction rs generalizing w with
  | nil => exact .nil
  | cons r rs ih =>
    exact (nested_linkRoom_online h (Nat.le_refl 2) r).append (ih (linkRoom_online h r))

theorem nested_onRxNAT (p : ProxyRef) (w : World) : Nested Lock.rank 0 (onRxNAT p w) := by
  rw [onRxNAT]
  split
  · exact .nil
  · refine .locked (Nat.zero_le _) (nested_linkRooms ?_ _)
    rw [World.setStatus, World.modifyProxy_proxies, if_pos rfl]

theorem nested_getUser {w : World} {r : RoomRef} {userId : Int}
    (h : ((w.rooms r).users.find? userId).isSome) :
    Nested Lock.rank 0 (getUser r w userId) := by
  rw [getUser, if_pos h]
  exact nested_room r

/-- A user that is not found is added under the mutex that `AddUser` takes. -/
theorem relocks_getUser {w : World} {r : RoomRef} {userId : Int}
    (h : ¬ ((w.rooms r).users.find? userId).isSome) (c : Code) :
    Relocks [] (getUser r w userId ++ c) := by
  rw [getUser, if_neg h, addUser]
  have hrelocks := relocks_locked_locked (Lock.room r) [] [] c
  rwa [List.append_nil] at hrelocks

end Order

/-! ## Handlers -/

/-- What `GetUser` and the rest of the scene take. -/
theorem relocks_user_iff {w : World} {p : ProxyRef} {roomId userId : Int} {rest : RoomRef → Code}
    (hrest : ∀ r, Nested Lock.rank 0 (rest r)) :
    Relocks [] (getRoom p ++ (w.getRoom p roomId).elim [] fun r => getUser r w userId ++ rest r) ↔
      ¬ ∀ r, w.getRoom p roomId = some r → ((w.rooms r).users.find? userId).isSome := by
  rw [nested_getRoom p [] _ (fun _ h => nomatch h)]
  cases w.getRoom p roomId with
  | none => simp [Relocks]
  | some r =>
    simp only [Option.elim_some, Option.some.injEq, forall_eq']
    by_cases h : ((w.rooms r).users.find? userId).isSome
    · have hfree := ((nested_getUser h).append (hrest r)).not_relocks
      exact iff_of_false hfree (fun hn => hn h)
    · exact iff_of_true (relocks_getUser h (rest r)) h

theorem nested_handler (w : World) {h : Handler} (hm : ∀ p r u, h ≠ .modMedia p r u)
    (hd : ∀ p r u s, h ≠ .delUser p r u s) : Nested Lock.rank 0 (h.code w) := by
  cases h with
  | resLogin p | keepAlive p | unlookUpNode => exact .nil
  | nat p => exact nested_onRxNAT p w
  | roomsInfo p rooms =>
    have husers : ∀ (r : RoomRef) (n : Nat),
        Nested Lock.rank 0 ((List.range n).flatMap fun _ => SelfLock.addUser r ++ modUser r) :=
          fun r n =>
      .flatMap (fun _ => (nested_room r).append (nested_room r)) (List.range n)
    exact .flatMap (fun x => (nested_getRoom p).append (.elim (fun r => husers r x.2) _)) rooms
  | modMedia p r u => exact absurd rfl (hm p r u)
  | addUser p roomId userId => exact (nested_getRoom p).append (.elim nested_room _)
  | delUser p r u s => exact absurd rfl (hd p r u s)
  | discProxy p rooms => exact .flatMap (fun x => nested_delRoom p (some x)) rooms
  | tcpParamScene | udpParamScene | tcpClosed | disconnectAllProxys => exact nested_linkedProxys
  | udpMedia medium screen =>
    cases medium with
    | audio | video => exact nested_disconnectUser (Nat.zero_le 4) screen
  | linkScreenUser unlinked link =>
    have hlink : ∀ x : ProxyRef × ScreenRef,
    Nested Lock.rank 0 (sendTCPPacket x.1 ++ connectUser x.2) := fun x =>
      (nested_sendTCPPacket (Nat.zero_le 5) x.1).append (.locked (Nat.zero_le _) .nil)
    exact Nested.append (.flatMap (fun x => nested_unlinkScreenUser x.1 x.2) unlinked)
      (.elim hlink link)
  | unlinkScreenUser screen proxy => exact nested_unlinkScreenUser screen proxy
  | linkRoom p r found added sends =>
    have hadd : Nested Lock.rank 0 (if found then [] else addProxy ++ if added then
      login p sends else []) :=
      .ite .nil (nested_linkedProxys.append
        (.ite (.ite (nested_sendTCPPacket (Nat.zero_le 5) p) .nil _) .nil _)) _
    exact (nested_linkedProxys.append hadd).append (nested_linkRoom w p r)
  | unlinkRoom p room last =>
    have hunlink : Nested Lock.rank 0 (unlinkRoom p room) :=
      (nested_delRoom p room).append (.elim (fun _ => nested_sendTCPPacket (Nat.zero_le 5) p) room)
    exact hunlink.append
      (.elim (fun _ => (nested_getRoom p).append (.ite nested_linkedProxys .nil _)) last)
  | cleanScreens screens => exact .flatMap (nested_disconnectUser (Nat.zero_le 4)) screens
  | continueTraverse kicked page | lookUpNode kicked page => exact nested_onTraverse kicked page
  | nextPage counted shown => exact nested_nextPage counted shown
  | prevPage shown => exact nested_pages shown
  | nodeExpanded kicked => exact nested_teardowns (Nat.zero_le 3) kicked
  | roomExpanded r | roomShrinked r => exact nested_room r

/-- **No handler takes a mutex that it holds**, unless it looks up a user that
is not there. -/
theorem relocks_iff (w : World) (h : Handler) : ¬ Relocks [] (h.code w) ↔ h.Known w := by
  cases h
  case modMedia p roomId userId => exact not_iff_comm.mp (relocks_user_iff nested_room).symm
  case delUser p roomId userId screen =>
    exact not_iff_comm.mp (relocks_user_iff fun r => nested_delUser (Nat.zero_le 3) r screen).symm
  all_goals
    refine iff_of_true (nested_handler w ?_ ?_).not_relocks trivial
    · intros; exact Handler.noConfusion
    · intros; exact Handler.noConfusion

/-- The scenes that take a mutex twice are those that do not return. -/
theorem stuck_iff (w : World) (p : ProxyRef) (roomId userId : Int) (a v : Nat)
    (screen : Option ScreenRef) :
    (maintain w p (.modMedia roomId userId a v) = none ↔
      Relocks [] ((Handler.modMedia p roomId userId).code w)) ∧
      (maintain w p (.delUser roomId userId) = none ↔
        Relocks [] ((Handler.delUser p roomId userId screen).code w)) := by
  have hmod : Relocks [] ((Handler.modMedia p roomId userId).code w) ↔ _ :=
    relocks_user_iff nested_room
  have hdel : Relocks [] ((Handler.delUser p roomId userId screen).code w) ↔ _ :=
    relocks_user_iff fun r => nested_delUser (Nat.zero_le 3) r screen
  rw [hmod, hdel]
  simp only [maintain, modMediaScene, delUserScene, World.getUser]
  cases w.getRoom p roomId with
  | none => simp
  | some r => simp

/-- The room has no users. -/
theorem modMedia_unknown_relocks :
    ∃ w, wallSys.Reachable w ∧ w.getRoom 0 7 = some 7 ∧
    Relocks [] ((Handler.modMedia 0 7 9).code w) :=
  ⟨roomKnown, .init ⟨World.launched_launched.screens, fun _ => rfl, fun _ => rfl, fun _ =>
    rfl⟩, by decide +kernel,
    by decide +kernel⟩

end MonitorAgent.L5.SelfLock
