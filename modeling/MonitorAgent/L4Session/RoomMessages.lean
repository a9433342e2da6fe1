import MonitorAgent.L4Session.LinkedProxys

/-!
# The two room messages

What the window does for WM_EXPANDEDROOM and WM_SHRINKEDROOM
(Monitor/Monitor/ScreenMgr.cpp:181-224,705-729). Asking for the proxy of a room
and opening a connection to it are given by their outcomes; every send is one
of the world.
-/
namespace MonitorAgent.L4

open MonitorAgent.L3

namespace ScreenMgr

variable (s : ScreenMgr)

def setWorld (w : World) : ScreenMgr := { s with w := w }

/-- `LinkRoom` of the proxy; a room that is linked already is no failure.
mirrors Monitor/Monitor/ScreenMgr.cpp:725-728 -/
def linkThrough (p : ProxyRef) (r : RoomRef) : ScreenMgr × PjStatus :=
  match s.w.linkRoom p r with
  | (w, .eexists) => (s.setWorld w, .success)
  | (w, status) => (s.setWorld w, status)

/-- The proxy is not linked yet. `connect` is what opening the connection
returns. mirrors Monitor/Monitor/ScreenMgr.cpp:713-722 -/
def linkNew (param : LinkRoomParam) (connect : PjStatus) : ScreenMgr × PjStatus :=
  match connect with
  | .success =>
    match s.addProxy param.proxyId param.proxyIp param.proxyUdpPort with
    | none => (s, .einval)
    | some (s, p) =>
      match s.w.login p with
      | (w, .success) => (s.setWorld w).linkThrough p param.titleRoom
      | (w, status) => (s.setWorld w, status)
  | status => (s, status)

/-- mirrors Monitor/Monitor/ScreenMgr.cpp:705-729 -/
def linkRoom (param : LinkRoomParam) (connect : PjStatus) : ScreenMgr × PjStatus :=
  match s.getProxy param.proxyId with
  | some p => s.linkThrough p param.titleRoom
  | none => s.linkNew param connect

/-- `answer` is the response of the web server, `none` if it does not parse;
`title` is the watch that asked, and the third value the one that is told to
go on without the room. mirrors Monitor/Monitor/ScreenMgr.cpp:181-205 -/
def onLinkRoom {Title : Type} (r : RoomRef) (title : Option Title)
    (answer : Option (Nat × String × Nat)) (connect : PjStatus) :
    ScreenMgr × PjStatus × Option Title :=
  match answer with
  | none => (s, .einval, title)
  | some (id, ip, udpPort) =>
    match s.linkRoom ⟨id, ip, udpPort, r⟩ connect with
    | (s, .success) => (s, .success, none)
    | (s, status) => (s, status, title)

/-- mirrors Monitor/Monitor/ScreenMgr.cpp:207-224 -/
def onUnlinkRoom (r : RoomRef) : ScreenMgr × PjStatus :=
  match (s.w.rooms r).proxy with
  | none => (s, .einval)
  | some p =>
    match s.w.unlinkRoom p r with
    | (w, .success) =>
      (if w.getRoomSize p = 0 then ((s.setWorld w).delProxy p).1 else s.setWorld w, .success)
    | (w, status) => (s.setWorld w, status)

/-! ## What they leave alone -/

@[simp] theorem setWorld_linkedProxys (w : World) : (s.setWorld w).linkedProxys = s.linkedProxys :=
  rfl
@[simp] theorem setWorld_nextProxy (w : World) : (s.setWorld w).nextProxy = s.nextProxy := rfl
@[simp] theorem setWorld_w (w : World) : (s.setWorld w).w = w := rfl

theorem linkThrough_fst (p : ProxyRef) (r : RoomRef) :
    (s.linkThrough p r).1 = s.setWorld (s.w.linkRoom p r).1 := by
  unfold linkThrough
  split
  · rename_i w he; rw [he]
  · rename_i w status _ he; rw [he]

/-- `AddProxy` files a new object, for an id that is free. -/
theorem addProxy_eq {id : Nat} (hf : s.linkedProxys.find? id = none) (ip : String) (udpPort : Nat) :
    s.addProxy id ip udpPort = some ({ s with
      w := s.w.modifyProxy s.nextProxy fun _ => newProxy id ip udpPort
      linkedProxys := s.linkedProxys.insert id s.nextProxy
      nextProxy := s.nextProxy + 1
      tcpEv := Function.update s.tcpEv s.nextProxy .null
      pipe := s.pipe ++ [.connProxy s.nextProxy] }, s.nextProxy) := by
  unfold addProxy
  rw [hf]

end ScreenMgr
end MonitorAgent.L4
