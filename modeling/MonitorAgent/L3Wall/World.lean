import MonitorAgent.Core.StdMap
import Mathlib.Algebra.GroupWithZero.Nat
import Mathlib.Logic.Function.Basic

/-!
# The client's objects

The screens of the wall, the users, rooms and proxies the server told of, the
two global SSRC tables, and the packets sent so far, as one state. Objects
live in heaps indexed by references, as pointers do in the source; a pointer
that may be null is an `Option`. `User.alive` says that the object has not
been deleted (Monitor/Monitor/TitleRoom.cpp:191); no function reads it.

Whether the next send succeeds is read from `sendOk`, by the number of sends
tried so far. Each `modify…` changes one object; the lemmas after it say what
it leaves alone, so that later proofs do not unfold it.
-/
namespace MonitorAgent.L3

/-- mirrors Monitor/Monitor/Com.h:40 -/
def MAXIMAL_SCREEN_NUM : Nat := 15

instance : NeZero MAXIMAL_SCREEN_NUM := ⟨Nat.succ_ne_zero 14⟩

/-- `-1` in a `pj_uint32_t`. mirrors Monitor/Monitor/Com.h:39 -/
def INVALID_SCREEN_INDEX : Nat := 4294967295

/-- Narrowing to `pj_uint8_t`. -/
def u8 (n : Nat) : Nat := n % 256

/-- Conversion to `pj_uint32_t`. -/
def u32 (n : Int) : Nat := (n % 4294967296).toNat

abbrev ScreenRef := Fin MAXIMAL_SCREEN_NUM
abbrev UserRef := Nat
abbrev RoomRef := Nat
abbrev ProxyRef := Nat

inductive PjStatus
  | success
  | einval
  | enotfound
  | eexists
  | esend
deriving DecidableEq

/-- mirrors Monitor/Monitor/Com.h:49 -/
inductive Medium
  | audio
  | video
deriving DecidableEq

/-- The one of an audio and a video value that belongs to the medium. -/
def Medium.pick (audio video : Nat) : Medium → Nat
  | .audio => audio
  | .video => video

/-- mirrors Monitor/Monitor/AvsProxy.h:11-17 -/
inductive ProxyStatus
  | uninit
  | logining
  | nating
  | online
deriving DecidableEq

/-- mirrors Monitor/Monitor/Screen.h:81-88; `shown` is what the last
`ShowWindow` made it. -/
structure Screen where
  user : Option UserRef
  index : Nat
  mediaActive : Bool
  shown : Bool
deriving DecidableEq

/-- mirrors Monitor/Monitor/TitleRoom.h:47-53; `title_room_` is only ever the
room that created the user. -/
structure User where
  userId : Int
  micId : Nat
  screen : Option ScreenRef
  screenIdx : Nat
  titleRoom : RoomRef
  audioSsrc : Nat
  videoSsrc : Nat
  alive : Bool
deriving DecidableEq

def User.ssrc (u : User) : Medium → Nat := Medium.pick u.audioSsrc u.videoSsrc

/-- mirrors Monitor/Monitor/TitleRoom.h:84-88; `items` are the child items of
the room in the tree control, a placeholder being `none`. -/
structure TitleRoom where
  id : Int
  proxy : Option ProxyRef
  users : StdMap Int UserRef
  items : List (Option UserRef)

/-- mirrors Monitor/Monitor/AvsProxy.h:44-57 -/
structure AvsProxy where
  id : Nat
  ip : Option String
  udpPort : Nat
  status : ProxyStatus
  rooms : StdMap Int RoomRef
  waitsRooms : List RoomRef

/-- The request structs of Monitor/Monitor/AvsProxyStructs.h, with the fields
that are filled in; `nat` also has the address the datagram goes to. -/
inductive Request
  | login (proxyId clientId : Nat) (mediaIp : String) (mediaPort : Nat)
  | nat (ip : Option String) (udpPort proxyId clientId : Nat)
  | linkRoom (proxyId clientId : Nat) (roomId : Int)
  | unlinkRoom (proxyId clientId : Nat) (roomId : Int)
  | linkRoomUser (proxyId clientId : Nat) (roomId userId : Int) (linkMediaMask : Nat)
  | unlinkRoomUser (proxyId clientId : Nat) (roomId userId : Int) (unlinkMediaMask : Nat)
deriving DecidableEq

/-- A request and the proxy object that sent it. -/
structure Packet where
  proxy : ProxyRef
  request : Request
deriving DecidableEq

/-- mirrors Monitor/Monitor/Config.h:13-15 -/
structure Config where
  clientId : Nat
  localIp : String
  localMediaPort : Nat

structure World where
  screens : ScreenRef → Screen
  users : UserRef → User
  nextUser : UserRef
  rooms : RoomRef → TitleRoom
  proxies : ProxyRef → AvsProxy
  avIndexMap : Medium → StdMap Nat Nat
  sent : List Packet
  sends : Nat
  sendOk : Nat → Bool
  config : Config

namespace World

/-- Fifteen idle screens and no user; every room has proxy 0. -/
def launched : World where
  screens s := ⟨none, s.val, false, true⟩
  users _ := ⟨0, 0, none, INVALID_SCREEN_INDEX, 0, 0, 0, false⟩
  nextUser := 0
  rooms r := ⟨r, some 0, .empty, []⟩
  proxies p := ⟨p, none, 0, .uninit, .empty, []⟩
  avIndexMap _ := .empty
  sent := []
  sends := 0
  sendOk _ := true
  config := ⟨1, "127.0.0.1", 5000⟩

/-! ## Changing one object -/

def modifyScreen (w : World) (s : ScreenRef) (f : Screen → Screen) : World :=
  { w with screens := Function.update w.screens s (f (w.screens s)) }

def modifyUser (w : World) (u : UserRef) (f : User → User) : World :=
  { w with users := Function.update w.users u (f (w.users u)) }

def modifyRoom (w : World) (r : RoomRef) (f : TitleRoom → TitleRoom) : World :=
  { w with rooms := Function.update w.rooms r (f (w.rooms r)) }

def modifyProxy (w : World) (p : ProxyRef) (f : AvsProxy → AvsProxy) : World :=
  { w with proxies := Function.update w.proxies p (f (w.proxies p)) }

def modifyIndexMap (w : World) (m : Medium) (f : StdMap Nat Nat → StdMap Nat Nat) : World :=
  { w with avIndexMap := Function.update w.avIndexMap m (f (w.avIndexMap m)) }

/-- `pj_sock_send`, and `SendRTPPacket` for a `nat` request. -/
def sendPacket (w : World) (packet : Packet) : World × PjStatus :=
  if w.sendOk w.sends then
    ({ w with sends := w.sends + 1, sent := w.sent ++ [packet] }, .success)
  else ({ w with sends := w.sends + 1 }, .esend)

@[simp] theorem sendPacket_proxies (w : World) (packet : Packet) :
    (w.sendPacket packet).1.proxies = w.proxies := by
  unfold sendPacket; split <;> rfl

theorem sendPacket_rooms (w : World) (packet : Packet) :
    (w.sendPacket packet).1.rooms = w.rooms := by
  unfold sendPacket; split <;> rfl

section Screens

variable (w : World) (s : ScreenRef) (f : Screen → Screen)

theorem modifyScreen_screens (s' : ScreenRef) :
    (w.modifyScreen s f).screens s' = if s' = s then f (w.screens s) else w.screens s' :=
  Function.update_apply ..

@[simp] theorem modifyScreen_users : (w.modifyScreen s f).users = w.users := rfl
@[simp] theorem modifyScreen_nextUser : (w.modifyScreen s f).nextUser = w.nextUser := rfl
@[simp] theorem modifyScreen_rooms : (w.modifyScreen s f).rooms = w.rooms := rfl
@[simp] theorem modifyScreen_proxies : (w.modifyScreen s f).proxies = w.proxies := rfl
@[simp] theorem modifyScreen_avIndexMap : (w.modifyScreen s f).avIndexMap = w.avIndexMap := rfl

end Screens

section Users

variable (w : World) (u : UserRef) (f : User → User)

theorem modifyUser_users (u' : UserRef) :
    (w.modifyUser u f).users u' = if u' = u then f (w.users u) else w.users u' :=
  Function.update_apply ..

@[simp] theorem modifyUser_screens : (w.modifyUser u f).screens = w.screens := rfl
@[simp] theorem modifyUser_nextUser : (w.modifyUser u f).nextUser = w.nextUser := rfl
@[simp] theorem modifyUser_rooms : (w.modifyUser u f).rooms = w.rooms := rfl
@[simp] theorem modifyUser_proxies : (w.modifyUser u f).proxies = w.proxies := rfl
@[simp] theorem modifyUser_avIndexMap : (w.modifyUser u f).avIndexMap = w.avIndexMap := rfl

end Users

section Rooms

variable (w : World) (r : RoomRef) (f : TitleRoom → TitleRoom)

theorem modifyRoom_rooms (r' : RoomRef) :
    (w.modifyRoom r f).rooms r' = if r' = r then f (w.rooms r) else w.rooms r' :=
  Function.update_apply ..

@[simp] theorem modifyRoom_screens : (w.modifyRoom r f).screens = w.screens := rfl
@[simp] theorem modifyRoom_users : (w.modifyRoom r f).users = w.users := rfl
@[simp] theorem modifyRoom_nextUser : (w.modifyRoom r f).nextUser = w.nextUser := rfl
@[simp] theorem modifyRoom_proxies : (w.modifyRoom r f).proxies = w.proxies := rfl
@[simp] theorem modifyRoom_avIndexMap : (w.modifyRoom r f).avIndexMap = w.avIndexMap := rfl

end Rooms

theorem modifyProxy_proxies (w : World) (p : ProxyRef) (f : AvsProxy → AvsProxy) (p' : ProxyRef) :
    (w.modifyProxy p f).proxies p' = if p' = p then f (w.proxies p) else w.proxies p' :=
  Function.update_apply ..

section IndexMap

variable (w : World) (m : Medium) (f : StdMap Nat Nat → StdMap Nat Nat)

theorem modifyIndexMap_avIndexMap (m' : Medium) :
    (w.modifyIndexMap m f).avIndexMap m' = if m' = m then f (w.avIndexMap m) else
    w.avIndexMap m' := by
  simp only [modifyIndexMap, Function.update_apply]

@[simp] theorem modifyIndexMap_screens : (w.modifyIndexMap m f).screens = w.screens := rfl
@[simp] theorem modifyIndexMap_users : (w.modifyIndexMap m f).users = w.users := rfl
@[simp] theorem modifyIndexMap_nextUser : (w.modifyIndexMap m f).nextUser = w.nextUser := rfl
@[simp] theorem modifyIndexMap_rooms : (w.modifyIndexMap m f).rooms = w.rooms := rfl
@[simp] theorem modifyIndexMap_proxies : (w.modifyIndexMap m f).proxies = w.proxies := rfl

end IndexMap

end World
end MonitorAgent.L3
