import MonitorAgent.L3Wall.TitleRoom

/-!
# Proxy objects

`AvsProxy` (Monitor/Monitor/AvsProxy.cpp): the login handshake, the rooms
linked through the proxy, and the packets it sends. A function that several
threads may be inside of at once is put together from its atomic parts
(`sendLogin` and `setStatus`, `pushWaits` and `linkOnline`, `drainWaits`), so
that the split-step models run the same code.
-/
namespace MonitorAgent.L3.World

/-! ## Packets -/

/-- mirrors Monitor/Monitor/AvsProxy.cpp:28-34 -/
def loginPacket (w : World) (p : ProxyRef) : Packet :=
  ⟨p, .login (w.proxies p).id w.config.clientId w.config.localIp w.config.localMediaPort⟩

/-- mirrors Monitor/Monitor/AvsProxy.cpp:52-54 -/
def natPacket (w : World) (p : ProxyRef) : Packet :=
  ⟨p, .nat (w.proxies p).ip (w.proxies p).udpPort (w.proxies p).id w.config.clientId⟩

/-- mirrors Monitor/Monitor/AvsProxy.cpp:190-194 -/
def linkRoomPacket (w : World) (p : ProxyRef) (r : RoomRef) : Packet :=
  ⟨p, .linkRoom (w.proxies p).id w.config.clientId (w.rooms r).id⟩

/-- mirrors Monitor/Monitor/AvsProxy.cpp:218-222 -/
def unlinkRoomPacket (w : World) (p : ProxyRef) (r : RoomRef) : Packet :=
  ⟨p, .unlinkRoom (w.proxies p).id w.config.clientId (w.rooms r).id⟩

/-- mirrors Monitor/Monitor/command.h:50-54 -/
def MEDIA_MASK_VIDEO : Nat := 2

/-- mirrors Monitor/Monitor/AvsProxy.cpp:146-152 -/
def linkRoomUserPacket (w : World) (p : ProxyRef) (u : UserRef) : Packet :=
  ⟨p, .linkRoomUser (w.proxies p).id w.config.clientId
    (w.rooms (w.users u).titleRoom).id (w.users u).userId
    MEDIA_MASK_VIDEO⟩

/-- mirrors Monitor/Monitor/AvsProxy.cpp:167-173 -/
def unlinkRoomUserPacket (w : World) (p : ProxyRef) (u : UserRef) : Packet :=
  ⟨p, .unlinkRoomUser (w.proxies p).id w.config.clientId
    (w.rooms (w.users u).titleRoom).id (w.users u).userId
    MEDIA_MASK_VIDEO⟩

/-! ## The handshake -/

def setStatus (w : World) (p : ProxyRef) (status : ProxyStatus) : World :=
  w.modifyProxy p fun x => { x with status := status }

def sendLogin (w : World) (p : ProxyRef) : World × PjStatus := w.sendPacket (w.loginPacket p)

/-- mirrors Monitor/Monitor/AvsProxy.cpp:24-46 -/
def login (w : World) (p : ProxyRef) : World × PjStatus :=
  if (w.proxies p).status ≠ .uninit then (w, .success)
  else match w.sendLogin p with
    | (w, .success) => (w.setStatus p .logining, .success)
    | (w, status) => (w, status)

/-- The three datagrams of `OnRxLogin`, up to the first that fails. -/
def sendNats (w : World) (p : ProxyRef) : Nat → World × PjStatus
  | 0 => (w, .success)
  | n + 1 =>
    match w.sendPacket (w.natPacket p) with
    | (w, .success) => sendNats w p n
    | (w, status) => (w, status)

/-- mirrors Monitor/Monitor/AvsProxy.cpp:48-69 -/
def onRxLogin (w : World) (p : ProxyRef) : World × PjStatus :=
  if (w.proxies p).status ≠ .logining then (w, .success)
  else match w.sendNats p 3 with
    | (w, .success) => (w.setStatus p .nating, .success)
    | (w, status) => (w, status)

/-! ## Rooms of a proxy -/

/-- mirrors Monitor/Monitor/AvsProxy.cpp:233-243 -/
def addRoom (w : World) (p : ProxyRef) (roomId : Int) (r : RoomRef) : World × PjStatus :=
  if ((w.proxies p).rooms.find? roomId).isSome then (w, .eexists)
  else ((w.modifyProxy p fun x => { x with rooms := x.rooms.insert roomId r }).onCreate r p,
    .success)

/-- The third value is what the iterator argument is left at.
mirrors Monitor/Monitor/AvsProxy.cpp:245-255 -/
def delRoom (w : World) (p : ProxyRef) (roomId : Int) (r : RoomRef) :
    World × PjStatus × Option Int :=
  match (w.proxies p).rooms.find? roomId with
  | none => (w, .enotfound, none)
  | some _ =>
    ((w.modifyProxy p fun x => { x with rooms := x.rooms.erase roomId }).onDestory r, .success,
      (w.proxies p).rooms.upper roomId)

/-- mirrors Monitor/Monitor/AvsProxy.cpp:257-267 -/
def getRoom (w : World) (p : ProxyRef) (roomId : Int) : Option RoomRef :=
  (w.proxies p).rooms.find? roomId

/-- mirrors Monitor/Monitor/AvsProxy.cpp:269-273 -/
def getRoomSize (w : World) (p : ProxyRef) : Nat := (w.proxies p).rooms.size

/-- `LinkRoom` once the proxy is online.
mirrors Monitor/Monitor/AvsProxy.cpp:188-202 -/
def linkOnline (w : World) (p : ProxyRef) (r : RoomRef) : World × PjStatus :=
  match w.addRoom p (w.rooms r).id r with
  | (w, .success) => w.sendPacket (w.linkRoomPacket p r)
  | (w, _) => (w, .eexists)

/-- mirrors Monitor/Monitor/AvsProxy.cpp:206-207 -/
def pushWaits (w : World) (p : ProxyRef) (r : RoomRef) : World :=
  w.modifyProxy p fun x => { x with waitsRooms := x.waitsRooms ++ [r] }

/-- mirrors Monitor/Monitor/AvsProxy.cpp:184-211 -/
def linkRoom (w : World) (p : ProxyRef) (r : RoomRef) : World × PjStatus :=
  if (w.proxies p).status = .online then w.linkOnline p r else (w.pushWaits p r, .success)

/-- The locked part of `OnRxNAT`: every waiting room is linked, then the list
is cleared. mirrors Monitor/Monitor/AvsProxy.cpp:79-85 -/
def drainWaits (w : World) (p : ProxyRef) : World :=
  ((w.proxies p).waitsRooms.foldl (fun w r => (w.linkRoom p r).1) w).modifyProxy p
    fun x => { x with waitsRooms := [] }

/-- mirrors Monitor/Monitor/AvsProxy.cpp:71-88 -/
def onRxNAT (w : World) (p : ProxyRef) : World × PjStatus :=
  if (w.proxies p).status ≠ .nating then (w, .success)
  else ((w.setStatus p .online).drainWaits p, .success)

/-- mirrors Monitor/Monitor/AvsProxy.cpp:213-231 -/
def unlinkRoom (w : World) (p : ProxyRef) (r : RoomRef) : World × PjStatus :=
  match w.delRoom p (w.rooms r).id r with
  | (w, .success, _) => w.sendPacket (w.unlinkRoomPacket p r)
  | (w, _, _) => (w, .enotfound)

/-- The loop of `Destory` from an iterator on, with the size of the map as
fuel. mirrors Monitor/Monitor/AvsProxy.cpp:127-139 -/
def destoryGo (p : ProxyRef) : Nat → Option Int → World → World
  | 0, _, w => w
  | _ + 1, none, w => w
  | n + 1, some k, w =>
    match (w.proxies p).rooms.find? k with
    | none => w
    | some r => destoryGo p n (w.delRoom p (w.rooms r).id r).2.2 (w.delRoom p (w.rooms r).id r).1

/-- mirrors Monitor/Monitor/AvsProxy.cpp:111-140 -/
def destory (w : World) (p : ProxyRef) : World :=
  let w := w.modifyProxy p fun x => { x with ip := none }
  destoryGo p (w.proxies p).rooms.size (w.proxies p).rooms.begin w

/-- mirrors Monitor/Monitor/AvsProxy.cpp:141-160 -/
def linkRoomUser (w : World) (p : ProxyRef) (user : Option UserRef) : World × PjStatus :=
  match user with
  | none => (w, .einval)
  | some u => w.sendPacket (w.linkRoomUserPacket p u)

/-- mirrors Monitor/Monitor/AvsProxy.cpp:162-182 -/
def unlinkRoomUser (w : World) (p : ProxyRef) (user : Option UserRef) : World × PjStatus :=
  match user with
  | none => (w, .einval)
  | some u => w.sendPacket (w.unlinkRoomUserPacket p u)

end MonitorAgent.L3.World
