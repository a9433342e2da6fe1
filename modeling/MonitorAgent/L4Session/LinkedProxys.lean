import MonitorAgent.L4Session.Scenes

/-!
# The linked proxies

`ScreenMgr` as the keeper of the proxy objects (Monitor/Monitor/ScreenMgr.cpp:
731-841): the map `linked_proxys_` from ids to objects, the requests `AddProxy`
and `DelProxy` send to the event thread, and the scenes queued for the scene
worker. Objects are numbered as they are created. The number tells two objects
of one id apart; a deleted object keeps its fields and its number is not used
again. The socket is left out: nothing here depends on it.
-/
namespace MonitorAgent.L4

open MonitorAgent.L3

/-- A call queued in `pipe_fds_`. -/
inductive PipeRequest
  | connProxy (proxy : ProxyRef)
  | discProxy (proxy : ProxyRef)
deriving DecidableEq

/-- A call queued in `sync_thread_pool_`. -/
inductive SceneTask
  | maintain (scene : Scene) (proxy : ProxyRef)
  | discProxy (proxy : ProxyRef)
deriving DecidableEq

def PipeRequest.proxy : PipeRequest → ProxyRef
  | .connProxy p => p
  | .discProxy p => p

def SceneTask.proxy : SceneTask → ProxyRef
  | .maintain _ p => p
  | .discProxy p => p

/-- `tcp_ev_` of a proxy, and whether `event_add` took it. -/
inductive TcpEv
  | null
  | allocated (added : Bool)
  | freed
deriving DecidableEq

structure ScreenMgr where
  w : World
  linkedProxys : StdMap Nat ProxyRef
  nextProxy : ProxyRef
  tcpEv : ProxyRef → TcpEv
  pipe : List PipeRequest
  scenes : List SceneTask

/-- mirrors Monitor/Monitor/ScreenMgr.h:59-66, without the port to connect to -/
structure LinkRoomParam where
  proxyId : Nat
  proxyIp : String
  proxyUdpPort : Nat
  titleRoom : RoomRef
deriving DecidableEq

namespace ScreenMgr

variable (s : ScreenMgr)

def id (p : ProxyRef) : Nat := (s.w.proxies p).id

/-- mirrors Monitor/Monitor/ScreenMgr.cpp:809-819 -/
def getProxy (id : Nat) : Option ProxyRef := s.linkedProxys.find? id

/-- mirrors Monitor/Monitor/AvsProxy.cpp:10-22 -/
def newProxy (id : Nat) (ip : String) (udpPort : Nat) : AvsProxy :=
  ⟨id, some ip, udpPort, .uninit, .empty, []⟩

/-- mirrors Monitor/Monitor/ScreenMgr.cpp:769-787 -/
def addProxy (id : Nat) (ip : String) (udpPort : Nat) : Option (ScreenMgr × ProxyRef) :=
  match s.linkedProxys.find? id with
  | some _ => none
  | none => some ({ s with
      w := s.w.modifyProxy s.nextProxy fun _ => newProxy id ip udpPort
      linkedProxys := s.linkedProxys.insert id s.nextProxy
      nextProxy := s.nextProxy + 1
      tcpEv := Function.update s.tcpEv s.nextProxy .null
      pipe := s.pipe ++ [.connProxy s.nextProxy] }, s.nextProxy)

/-- The second value is that of the entry removed.
mirrors Monitor/Monitor/ScreenMgr.cpp:789-807 -/
def delProxy (p : ProxyRef) : ScreenMgr × Option ProxyRef :=
  match s.linkedProxys.find? (s.id p) with
  | none => (s, none)
  | some q =>
    ({ s with linkedProxys := s.linkedProxys.erase (s.id p), pipe := s.pipe ++ [.discProxy p] },
      some q)

/-- mirrors Monitor/Monitor/ScreenMgr.cpp:822-841 -/
def delAllProxys : ScreenMgr :=
  { s with
    linkedProxys := .empty
    pipe := s.pipe ++ s.linkedProxys.entries.map fun e => .discProxy e.2 }

/-- The two flags say whether `event_new` and `event_add` succeed.
mirrors Monitor/Monitor/ScreenMgr.cpp:731-748 -/
def connProxy (p : ProxyRef) (allocated added : Bool) : ScreenMgr :=
  { s with tcpEv := Function.update s.tcpEv p (if allocated then .allocated added else .null) }

/-- mirrors Monitor/Monitor/ScreenMgr.cpp:750-767 -/
def discProxy (p : ProxyRef) : ScreenMgr :=
  { s with
    tcpEv := if s.tcpEv p = .null then s.tcpEv else Function.update s.tcpEv p .freed
    scenes := s.scenes ++ [.discProxy p] }

/-- The closed branch of `EventOnTcpRead` up to its call of `DelProxy`.
mirrors Monitor/Monitor/ScreenMgr.cpp:638-643 -/
def closeTcp (p : ProxyRef) : ScreenMgr := { s with tcpEv := Function.update s.tcpEv p .null }

end ScreenMgr

/-- A scene run by the worker; `none` if it does not return.
mirrors Monitor/Monitor/Scene/AvsProxyScene/src/DiscProxyScene.cpp:4-13 -/
def SceneTask.run (w : World) : SceneTask → Option World
  | .maintain scene p => L4.maintain w p scene
  | .discProxy p => some (w.destory p)

theorem SceneTask.run_handover {w w' : World} {t : SceneTask} (h : t.run w = some w') :
    Handover t.proxy w w' := by
  cases t with
  | maintain scene p => exact maintain_handover h
  | discProxy p => cases h; exact Handover.callFrame.destory Handover.teardownFrame w

end MonitorAgent.L4
