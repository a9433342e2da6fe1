import MonitorAgent.Core.BigEndian
import MonitorAgent.Core.ForLoop
import MonitorAgent.L1Wire.TcpStorage

/-!
# Frames decoded

`ScreenMgr::TcpParamScene` (Monitor/Monitor/ScreenMgr.cpp:484-543) up to the
parameter it constructs. The constructors read one field after the other
through `pj_ntoh_assign`, which moves a pointer and counts `storage_len` down,
and looks at neither.

The memory behind the pointer goes on past the frame, so it is a function.
`reads` logs each read with the `storage_len` of that moment. Values are loaded
by a little-endian host.
-/
namespace MonitorAgent.L1

open BigEndian ForLoop TcpStorage

/-- Memory from the first byte of the frame on. -/
abbrev Memory := Nat → UInt8

def Memory.bytes (mem : Memory) (off size : Nat) : List UInt8 :=
  (List.range size).map fun i => mem (off + i)

/-- `*(T *)storage` on a little-endian host. -/
def Memory.load (mem : Memory) (off size : Nat) : Nat := leValue (mem.bytes off size)

/-- `ntohs`, `ntohl` or `ntohll`, by the size of the type.
mirrors Monitor/Monitor/Com.h:149-172 -/
def unserialize (size t : Nat) : Nat := swap size t

structure Read where
  offset : Nat
  size : Nat
  storageLen : Nat
deriving DecidableEq

/-- `storage`, as an offset, and `storage_len`. -/
structure Cursor where
  storage : Nat
  storageLen : Nat
  reads : List Read
deriving DecidableEq

/-- What a field of that size does to the cursor. -/
def Cursor.advance (c : Cursor) (size : Nat) : Cursor :=
  ⟨c.storage + size, u16 (c.storageLen + 65536 - size),
    c.reads ++ [⟨c.storage, size, c.storageLen⟩]⟩

/-- mirrors Monitor/Monitor/Com.h:174-180 -/
def pjNtohAssign (mem : Memory) (size : Nat) (c : Cursor) : Nat × Cursor :=
  (unserialize size (mem.load c.storage size), c.advance size)

def int32 (v : Nat) : Int32 := (UInt32.ofNat v).toInt32

def int64 (v : Nat) : Int64 := (UInt64.ofNat v).toInt64

/-! ## Parameters -/

/-- mirrors Monitor/Monitor/Scene/Parameter.h:20-23 -/
structure TcpParameter where
  length : UInt16
  clientRequestType : UInt16
  proxyId : UInt16
  clientId : UInt16
deriving DecidableEq

/-- mirrors Monitor/Monitor/Scene/AvsProxyScene/inc/RoomsInfoScene.h:14-20 -/
structure UserInfo where
  userId : Int64
  micId : UInt32
  audioSsrc : UInt32
  videoSsrc : UInt32
deriving DecidableEq, Inhabited

/-- mirrors Monitor/Monitor/Scene/AvsProxyScene/inc/RoomsInfoScene.h:22-27 -/
structure RoomInfo where
  roomId : Int32
  userCount : UInt32
  usersInfo : List UserInfo
deriving DecidableEq

inductive Parameter
  | resLogin (tcp : TcpParameter)
  | roomsInfo (tcp : TcpParameter) (roomCount : UInt32) (roomsInfo : List RoomInfo)
  | modMedia (tcp : TcpParameter) (roomId : Int32) (userId : Int64) (audioSsrc videoSsrc : UInt32)
  | addUser (tcp : TcpParameter) (roomId : Int32) (userId : Int64) (micId : UInt32)
  | delUser (tcp : TcpParameter) (roomId : Int32) (userId : Int64)
  | keepAlive (tcp : TcpParameter)
deriving DecidableEq

section Constructors

variable (mem : Memory)

/-- mirrors Monitor/Monitor/Scene/Parameter.h:10-16 -/
def tcpParameter (c : Cursor) : TcpParameter × Cursor :=
  let (length, c) := pjNtohAssign mem 2 c
  let (clientRequestType, c) := pjNtohAssign mem 2 c
  let (proxyId, c) := pjNtohAssign mem 2 c
  let (clientId, c) := pjNtohAssign mem 2 c
  (⟨.ofNat length, .ofNat clientRequestType, .ofNat proxyId, .ofNat clientId⟩, c)

/-- mirrors Monitor/Monitor/Scene/AvsProxyScene/src/ModMediaScene.cpp:4-11 -/
def modMediaParameter (c : Cursor) : Parameter × Cursor :=
  let (tcp, c) := tcpParameter mem c
  let (roomId, c) := pjNtohAssign mem 4 c
  let (userId, c) := pjNtohAssign mem 8 c
  let (audioSsrc, c) := pjNtohAssign mem 4 c
  let (videoSsrc, c) := pjNtohAssign mem 4 c
  (.modMedia tcp (int32 roomId) (int64 userId) (.ofNat audioSsrc) (.ofNat videoSsrc), c)

/-- mirrors Monitor/Monitor/Scene/AvsProxyScene/src/AddUserScene.cpp:4-10 -/
def addUserParameter (c : Cursor) : Parameter × Cursor :=
  let (tcp, c) := tcpParameter mem c
  let (roomId, c) := pjNtohAssign mem 4 c
  let (userId, c) := pjNtohAssign mem 8 c
  let (micId, c) := pjNtohAssign mem 4 c
  (.addUser tcp (int32 roomId) (int64 userId) (.ofNat micId), c)

/-- mirrors Monitor/Monitor/Scene/AvsProxyScene/src/DelUserScene.cpp:4-9 -/
def delUserParameter (c : Cursor) : Parameter × Cursor :=
  let (tcp, c) := tcpParameter mem c
  let (roomId, c) := pjNtohAssign mem 4 c
  let (userId, c) := pjNtohAssign mem 8 c
  (.delUser tcp (int32 roomId) (int64 userId), c)

/-- mirrors Monitor/Monitor/Scene/AvsProxyScene/src/RoomsInfoScene.cpp:16-19 -/
def userInfo (c : Cursor) : UserInfo × Cursor :=
  let (userId, c) := pjNtohAssign mem 8 c
  let (micId, c) := pjNtohAssign mem 4 c
  let (audioSsrc, c) := pjNtohAssign mem 4 c
  let (videoSsrc, c) := pjNtohAssign mem 4 c
  (⟨int64 userId, .ofNat micId, .ofNat audioSsrc, .ofNat videoSsrc⟩, c)

/-- An element is pushed back, and the one at `j` read; `j` is a `pj_uint8_t`.
mirrors Monitor/Monitor/Scene/AvsProxyScene/src/RoomsInfoScene.cpp:13-20 -/
def usersInfo (fuel userCount : Nat) (c : Cursor) : Option (List UserInfo × Cursor) :=
  forLoop 256 userCount (fun j (users, c) =>
    let (user, c) := userInfo mem c
    some ((users ++ [default]).set j user, c)) fuel 0 ([], c)

/-- The passes left; `i` is as wide as `room_count_`.
mirrors Monitor/Monitor/Scene/AvsProxyScene/src/RoomsInfoScene.cpp:8-21 -/
def roomsInfo (fuel : Nat) : Nat → Cursor → Option (List RoomInfo × Cursor)
  | 0, c => some ([], c)
  | n + 1, c =>
    let (roomId, c) := pjNtohAssign mem 4 c
    let (userCount, c) := pjNtohAssign mem 4 c
    (usersInfo mem fuel userCount c).bind fun (users, c) =>
      (roomsInfo fuel n c).map fun (rooms, c) =>
      (⟨int32 roomId, .ofNat userCount, users⟩ :: rooms, c)

/-- mirrors Monitor/Monitor/Scene/AvsProxyScene/src/RoomsInfoScene.cpp:4-22 -/
def roomsInfoParameter (fuel : Nat) (c : Cursor) : Option (Parameter × Cursor) :=
  let (tcp, c) := tcpParameter mem c
  let (roomCount, c) := pjNtohAssign mem 4 c
  (roomsInfo mem fuel roomCount c).map fun (rooms, c) =>
    (.roomsInfo tcp (.ofNat roomCount) rooms, c)

end Constructors

/-! ## The type of a frame -/

/-- The types `TcpParamScene` knows. -/
inductive ClientRequest
  | login
  | roomsInfo
  | roomModMedia
  | roomAddUser
  | roomDelUser
  | keepAlive
deriving DecidableEq

/-- mirrors Monitor/Monitor/command.h:41-50 -/
def clientRequest? : Nat → Option ClientRequest
  | 0 => some .login
  | 1 => some .roomsInfo
  | 2 => some .roomModMedia
  | 3 => some .roomAddUser
  | 4 => some .roomDelUser
  | 6 => some .keepAlive
  | _ => none

def Memory.request? (mem : Memory) : Option ClientRequest :=
  clientRequest? (unserialize 2 (mem.load 2 2))

/-- The parameter of a frame of that type, from its first byte on. -/
def parameter (mem : Memory) (fuel : Nat) : ClientRequest → Cursor → Option (Parameter × Cursor)
  | .login, c => let (tcp, c) := tcpParameter mem c; some (.resLogin tcp, c)
  | .roomsInfo, c => roomsInfoParameter mem fuel c
  | .roomModMedia, c => some (modMediaParameter mem c)
  | .roomAddUser, c => some (addUserParameter mem c)
  | .roomDelUser, c => some (delUserParameter mem c)
  | .keepAlive, c => let (tcp, c) := tcpParameter mem c; some (.keepAlive tcp, c)

/-- The parameter, if the type is known, and the reads; `none` if a
constructor does not return.
mirrors Monitor/Monitor/ScreenMgr.cpp:484-535 -/
def tcpParamScene (mem : Memory) (fuel storageLen : Nat) : Option (Option Parameter × List Read) :=
  if storageLen = 0 then some (none, [])
  else
    let typeRead : Read := ⟨2, 2, storageLen⟩
    match mem.request? with
    | none => some (none, [typeRead])
    | some request =>
      (parameter mem fuel request ⟨0, storageLen, []⟩).map fun (param, c) =>
      (some param, typeRead :: c.reads)

end MonitorAgent.L1
