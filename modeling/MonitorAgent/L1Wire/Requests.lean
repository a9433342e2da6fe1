import MonitorAgent.Core.Scalar
import MonitorAgent.L1Wire.Reassembly
import MonitorAgent.L1Wire.RoomsInfo

/-!
# The requests to a proxy

The packed structs of Monitor/Monitor/AvsProxyStructs.h. `Serialize` converts
each field in place, except `media_ip`, and sets `length`; what is sent is the
memory of the struct. Here it is read back field by field, in the order in which
the struct declares them.

* `TcpRequest.readBack_serialized`: every field of a TCP request is read back.
* `requests_cut`: `length` announces the whole of a TCP request, and requests in a
  row are cut off one by one, however they are read.
-/
namespace MonitorAgent.L1

open BigEndian TcpStorage

/-! ## Writing and reading a field -/

/-- `pj_htons`, `pj_htonl` or `pj_htonll`, by the size of the type.
mirrors Monitor/Monitor/Com.h:118-142 -/
def serialize {T : Type} [Scalar T] (t : T) : T := if Scalar.size T = 1 then t else Scalar.reorder t

/-- The next field, converted from network order. -/
def readField (T : Type) [Scalar T] (mem : Memory) (c : Cursor) : T × Cursor :=
  let (v, c) := pjNtohAssign mem (Scalar.size T) c
  (Scalar.ofBits v, c)

/-- The next field, as it is in memory. -/
def loadField (T : Type) [Scalar T] (mem : Memory) (c : Cursor) : T × Cursor :=
  (Scalar.ofBits (mem.load c.storage (Scalar.size T)), c.advance (Scalar.size T))

section Field

variable {T : Type} [Scalar T] {mem : Memory} {c : Cursor} {bs : List UInt8}

theorem store_serialize (t : T) :
    Scalar.store (serialize t) = beBytes (Scalar.size T) (Scalar.bits t) := by
  rw [serialize]
  split
  · exact Scalar.store_of_size_one ‹_› t
  · exact Scalar.store_reorder t

/-- A field that was serialized is read back, and the pointer is behind it. -/
theorem readField_serialized {t : T} (h : Spells mem c.storage (Scalar.store (serialize t) ++ bs)) :
    readField T mem c = (t, c.advance (Scalar.size T)) ∧
      Spells mem (c.advance (Scalar.size T)).storage bs := by
  rw [store_serialize] at h
  obtain ⟨hvalue, hrest⟩ := h.field
  refine ⟨?_, hrest⟩
  simp only [readField, pjNtohAssign_eq, hvalue, Scalar.ofBits_mod]

/-- A field that was left as it is is loaded as it was. -/
theorem loadField_stored {t : T} (h : Spells mem c.storage (Scalar.store t ++ bs)) :
    loadField T mem c = (t, c.advance (Scalar.size T)) ∧
      Spells mem (c.advance (Scalar.size T)).storage bs := by
  obtain ⟨hstored, hrest⟩ := h.append
  rw [Scalar.length_store] at hrest
  refine ⟨?_, hrest⟩
  have hload : mem.load c.storage (Scalar.size T) = Scalar.bits t := by
    rw [Spells, Scalar.length_store] at hstored
    rw [Memory.load, hstored, leValue, Scalar.store, List.reverse_reverse, beValue_beBytes,
      Nat.mod_eq_of_lt (Scalar.bits_lt t)]
  rw [loadField, hload, Scalar.ofBits_bits]

end Field

/-! ## The structs -/

/-- The fields that every TCP request begins with.
mirrors Monitor/Monitor/AvsProxyStructs.h:19-25,40-46,60-66,85-91,110-116,132-138 -/
structure RequestHeader where
  length : UInt16
  clientRequestType : UInt16
  proxyId : UInt16
  clientId : UInt16
deriving DecidableEq

/-- mirrors Monitor/Monitor/AvsProxyStructs.h:8-28 -/
structure RequestToAvsProxyLogin extends RequestHeader where
  mediaIp : UInt32
  mediaPort : UInt16
deriving DecidableEq

/-- mirrors Monitor/Monitor/AvsProxyStructs.h:30-47 -/
abbrev RequestToAvsProxyLogout := RequestHeader

/-- mirrors Monitor/Monitor/AvsProxyStructs.h:49-68 -/
structure RequestToAvsProxyLinkRoom extends RequestHeader where
  roomId : Int32
deriving DecidableEq

/-- mirrors Monitor/Monitor/AvsProxyStructs.h:70 -/
abbrev RequestToAvsProxyUnlinkRoom := RequestToAvsProxyLinkRoom

/-- A user of a room, and the media to link or unlink. -/
structure RoomUserRequest extends RequestHeader where
  roomId : Int32
  userId : Int64
  mediaMask : UInt8
deriving DecidableEq

/-- mirrors Monitor/Monitor/AvsProxyStructs.h:72-95 -/
abbrev RequestToAvsProxyLinkRoomUser := RoomUserRequest

/-- mirrors Monitor/Monitor/AvsProxyStructs.h:97-120 -/
abbrev RequestToAvsProxyUnlinkRoomUser := RoomUserRequest

/-- mirrors Monitor/Monitor/AvsProxyStructs.h:122-139 -/
abbrev RequestToAvsProxyKeepAlive := RequestHeader

/-- mirrors Monitor/Monitor/AvsProxyStructs.h:141-155 -/
structure RequestToAvsProxyNat where
  clientRequestType : UInt16
  proxyId : UInt16
  roomId : Int32
  clientId : UInt16
deriving DecidableEq

namespace RequestHeader

/-- The first four lines of `Serialize`, for a struct of that size. -/
def serialize (size : Nat) (r : RequestHeader) : RequestHeader where
  length := L1.serialize (.ofNat (size - 2))
  clientRequestType := L1.serialize r.clientRequestType
  proxyId := L1.serialize r.proxyId
  clientId := L1.serialize r.clientId

/-- The memory of the fields. -/
def packed (r : RequestHeader) : List UInt8 :=
  Scalar.store r.length ++ (Scalar.store r.clientRequestType ++ (Scalar.store r.proxyId ++
    Scalar.store r.clientId))

def read (mem : Memory) (c : Cursor) : RequestHeader × Cursor :=
  let (length, c) := readField UInt16 mem c
  let (clientRequestType, c) := readField UInt16 mem c
  let (proxyId, c) := readField UInt16 mem c
  let (clientId, c) := readField UInt16 mem c
  (⟨length, clientRequestType, proxyId, clientId⟩, c)

/-- The size of a struct that has no other fields. -/
def sizeof : Nat := 8

/-- What is read back: `length` counts the bytes behind it. -/
def sent (size : Nat) (r : RequestHeader) : RequestHeader := { r with length := .ofNat (size - 2) }

theorem length_packed (r : RequestHeader) : r.packed.length = 8 := by
  simp only [packed, List.length_append, Scalar.length_store]
  rfl

theorem read_serialized (size : Nat) (r : RequestHeader) {mem : Memory}
    {c : Cursor} {bs : List UInt8}
    (h : Spells mem c.storage ((r.serialize size).packed ++ bs)) :
    read mem c = (r.sent size, c.skip headerSizes) ∧
      Spells mem (c.skip headerSizes).storage bs := by
  simp only [packed, List.append_assoc] at h
  obtain ⟨h1, h⟩ := readField_serialized h
  obtain ⟨h2, h⟩ := readField_serialized h
  obtain ⟨h3, h⟩ := readField_serialized h
  obtain ⟨h4, h⟩ := readField_serialized h
  simp only [read, h1, h2, h3, h4]
  exact ⟨rfl, h⟩

/-- The memory is the encoding of what is read back. -/
theorem packed_serialize (size : Nat) (r : RequestHeader) :
    (r.serialize size).packed =
      encodeHeader ⟨.ofNat (size - 2), r.clientRequestType, r.proxyId, r.clientId⟩ := by
  simp only [packed, serialize, store_serialize]
  rfl

end RequestHeader

namespace RequestToAvsProxyLogin

def sizeof : Nat := 14

/-- `media_ip` is in network order already.
mirrors Monitor/Monitor/AvsProxyStructs.h:10-17 -/
def serialize (r : RequestToAvsProxyLogin) : RequestToAvsProxyLogin where
  toRequestHeader := r.toRequestHeader.serialize sizeof
  mediaIp := r.mediaIp
  mediaPort := L1.serialize r.mediaPort

def packed (r : RequestToAvsProxyLogin) : List UInt8 :=
  r.toRequestHeader.packed ++ (Scalar.store r.mediaIp ++ (Scalar.store r.mediaPort ++ []))

def read (mem : Memory) (c : Cursor) : RequestToAvsProxyLogin × Cursor :=
  let (header, c) := RequestHeader.read mem c
  let (mediaIp, c) := loadField UInt32 mem c
  let (mediaPort, c) := readField UInt16 mem c
  (⟨header, mediaIp, mediaPort⟩, c)

def sent (r : RequestToAvsProxyLogin) : RequestToAvsProxyLogin :=
  { r with toRequestHeader := r.toRequestHeader.sent sizeof }

theorem read_serialized (r : RequestToAvsProxyLogin) {mem : Memory} {c : Cursor}
    (h : Spells mem c.storage r.serialize.packed) : (read mem c).1 = r.sent := by
  simp only [serialize, packed] at h
  obtain ⟨hheader, h⟩ := r.toRequestHeader.read_serialized sizeof h
  obtain ⟨hip, h⟩ := loadField_stored h
  obtain ⟨hport, -⟩ := readField_serialized h
  simp only [read, hheader, hip, hport, sent]

end RequestToAvsProxyLogin

namespace RequestToAvsProxyLinkRoom

def sizeof : Nat := 12

/-- mirrors Monitor/Monitor/AvsProxyStructs.h:51-58 -/
def serialize (r : RequestToAvsProxyLinkRoom) : RequestToAvsProxyLinkRoom where
  toRequestHeader := r.toRequestHeader.serialize sizeof
  roomId := L1.serialize r.roomId

def packed (r : RequestToAvsProxyLinkRoom) : List UInt8 :=
  r.toRequestHeader.packed ++ (Scalar.store r.roomId ++ [])

def read (mem : Memory) (c : Cursor) : RequestToAvsProxyLinkRoom × Cursor :=
  let (header, c) := RequestHeader.read mem c
  let (roomId, c) := readField Int32 mem c
  (⟨header, roomId⟩, c)

def sent (r : RequestToAvsProxyLinkRoom) : RequestToAvsProxyLinkRoom :=
  { r with toRequestHeader := r.toRequestHeader.sent sizeof }

theorem read_serialized (r : RequestToAvsProxyLinkRoom) {mem : Memory} {c : Cursor}
    (h : Spells mem c.storage r.serialize.packed) : (read mem c).1 = r.sent := by
  simp only [serialize, packed] at h
  obtain ⟨hheader, h⟩ := r.toRequestHeader.read_serialized sizeof h
  obtain ⟨hroom, -⟩ := readField_serialized h
  simp only [read, hheader, hroom, sent]

end RequestToAvsProxyLinkRoom

namespace RoomUserRequest

def sizeof : Nat := 21

/-- mirrors Monitor/Monitor/AvsProxyStructs.h:74-83,99-108 -/
def serialize (r : RoomUserRequest) : RoomUserRequest where
  toRequestHeader := r.toRequestHeader.serialize sizeof
  roomId := L1.serialize r.roomId
  userId := L1.serialize r.userId
  mediaMask := L1.serialize r.mediaMask

def packed (r : RoomUserRequest) : List UInt8 :=
  r.toRequestHeader.packed ++ (Scalar.store r.roomId ++ (Scalar.store r.userId ++
    (Scalar.store r.mediaMask ++ [])))

def read (mem : Memory) (c : Cursor) : RoomUserRequest × Cursor :=
  let (header, c) := RequestHeader.read mem c
  let (roomId, c) := readField Int32 mem c
  let (userId, c) := readField Int64 mem c
  let (mediaMask, c) := readField UInt8 mem c
  (⟨header, roomId, userId, mediaMask⟩, c)

def sent (r : RoomUserRequest) : RoomUserRequest :=
  { r with toRequestHeader := r.toRequestHeader.sent sizeof }

theorem read_serialized (r : RoomUserRequest) {mem : Memory} {c : Cursor}
    (h : Spells mem c.storage r.serialize.packed) : (read mem c).1 = r.sent := by
  simp only [serialize, packed] at h
  obtain ⟨hheader, h⟩ := r.toRequestHeader.read_serialized sizeof h
  obtain ⟨hroom, h⟩ := readField_serialized h
  obtain ⟨huser, h⟩ := readField_serialized h
  obtain ⟨hmask, -⟩ := readField_serialized h
  simp only [read, hheader, hroom, huser, hmask, sent]

end RoomUserRequest

namespace RequestToAvsProxyNat

/-- mirrors Monitor/Monitor/AvsProxyStructs.h:143-149 -/
def serialize (r : RequestToAvsProxyNat) : RequestToAvsProxyNat where
  clientRequestType := L1.serialize r.clientRequestType
  proxyId := L1.serialize r.proxyId
  roomId := L1.serialize r.roomId
  clientId := L1.serialize r.clientId

def packed (r : RequestToAvsProxyNat) : List UInt8 :=
  Scalar.store r.clientRequestType ++ (Scalar.store r.proxyId ++ (Scalar.store r.roomId ++
    (Scalar.store r.clientId ++ [])))

def read (mem : Memory) (c : Cursor) : RequestToAvsProxyNat × Cursor :=
  let (clientRequestType, c) := readField UInt16 mem c
  let (proxyId, c) := readField UInt16 mem c
  let (roomId, c) := readField Int32 mem c
  let (clientId, c) := readField UInt16 mem c
  (⟨clientRequestType, proxyId, roomId, clientId⟩, c)

theorem read_serialized (r : RequestToAvsProxyNat) {mem : Memory} {c : Cursor}
    (h : Spells mem c.storage r.serialize.packed) : (read mem c).1 = r := by
  obtain ⟨htype, h⟩ := readField_serialized h
  obtain ⟨hproxy, h⟩ := readField_serialized h
  obtain ⟨hroom, h⟩ := readField_serialized h
  obtain ⟨hclient, -⟩ := readField_serialized h
  simp only [read, htype, hproxy, hroom, hclient]

end RequestToAvsProxyNat
/-! ## TCP requests -/

inductive TcpRequest
  | login (r : RequestToAvsProxyLogin)
  | logout (r : RequestToAvsProxyLogout)
  | linkRoom (r : RequestToAvsProxyLinkRoom)
  | unlinkRoom (r : RequestToAvsProxyUnlinkRoom)
  | linkRoomUser (r : RequestToAvsProxyLinkRoomUser)
  | unlinkRoomUser (r : RequestToAvsProxyUnlinkRoomUser)
  | keepAlive (r : RequestToAvsProxyKeepAlive)
deriving DecidableEq

namespace TcpRequest

def header : TcpRequest → RequestHeader
  | .login r => r.toRequestHeader
  | .logout r | .keepAlive r => r
  | .linkRoom r | .unlinkRoom r => r.toRequestHeader
  | .linkRoomUser r | .unlinkRoomUser r => r.toRequestHeader

def sizeof : TcpRequest → Nat
  | .login _ => RequestToAvsProxyLogin.sizeof
  | .logout _ | .keepAlive _ => RequestHeader.sizeof
  | .linkRoom _ | .unlinkRoom _ => RequestToAvsProxyLinkRoom.sizeof
  | .linkRoomUser _ | .unlinkRoomUser _ => RoomUserRequest.sizeof

/-- What `Serialize` leaves in memory, which is what is sent. -/
def wire : TcpRequest → List UInt8
  | .login r => r.serialize.packed
  | .logout r | .keepAlive r => (r.serialize RequestHeader.sizeof).packed
  | .linkRoom r | .unlinkRoom r => r.serialize.packed
  | .linkRoomUser r | .unlinkRoomUser r => r.serialize.packed

/-- The fields, read as those of a request of the same kind. -/
def readBack (r : TcpRequest) (mem : Memory) (c : Cursor) : TcpRequest :=
  match r with
  | .login _ => .login (RequestToAvsProxyLogin.read mem c).1
  | .logout _ => .logout (RequestHeader.read mem c).1
  | .linkRoom _ => .linkRoom (RequestToAvsProxyLinkRoom.read mem c).1
  | .unlinkRoom _ => .unlinkRoom (RequestToAvsProxyLinkRoom.read mem c).1
  | .linkRoomUser _ => .linkRoomUser (RoomUserRequest.read mem c).1
  | .unlinkRoomUser _ => .unlinkRoomUser (RoomUserRequest.read mem c).1
  | .keepAlive _ => .keepAlive (RequestHeader.read mem c).1

/-- The request with the `length` that `Serialize` sets. -/
def sent : TcpRequest → TcpRequest
  | .login r => .login r.sent
  | .logout r => .logout (r.sent RequestHeader.sizeof)
  | .linkRoom r => .linkRoom r.sent
  | .unlinkRoom r => .unlinkRoom r.sent
  | .linkRoomUser r => .linkRoomUser r.sent
  | .unlinkRoomUser r => .unlinkRoomUser r.sent
  | .keepAlive r => .keepAlive (r.sent RequestHeader.sizeof)

variable (r : TcpRequest)

theorem readBack_serialized {mem : Memory} {c : Cursor} (h : Spells mem c.storage r.wire) :
    r.readBack mem c = r.sent := by
  have hheader (r : RequestHeader) (h : Spells mem c.storage
    (r.serialize RequestHeader.sizeof).packed) :
      (RequestHeader.read mem c).1 = r.sent RequestHeader.sizeof := by
    rw [← List.append_nil (r.serialize _).packed] at h
    rw [(r.read_serialized _ h).1]
  cases r with
  | login r => rw [readBack, r.read_serialized h, sent]
  | logout r => rw [readBack, hheader r h, sent]
  | linkRoom r => rw [readBack, r.read_serialized h, sent]
  | unlinkRoom r => rw [readBack, r.read_serialized h, sent]
  | linkRoomUser r => rw [readBack, r.read_serialized h, sent]
  | unlinkRoomUser r => rw [readBack, r.read_serialized h, sent]
  | keepAlive r => rw [readBack, hheader r h, sent]

/-- What `TcpParameter` finds in a request. -/
def parameter : TcpParameter :=
  ⟨.ofNat (r.sizeof - 2), r.header.clientRequestType, r.header.proxyId, r.header.clientId⟩

theorem wire_header : ∃ fields, r.wire = encodeHeader r.parameter ++ fields := by
  cases r with
  | login r =>
      exact ⟨_, by rw [wire, RequestToAvsProxyLogin.packed, RequestToAvsProxyLogin.serialize,
      RequestHeader.packed_serialize]; rfl⟩
  | logout r | keepAlive r =>
    exact ⟨[], by rw [wire, RequestHeader.packed_serialize, List.append_nil]; rfl⟩
  | linkRoom r | unlinkRoom r =>
    exact ⟨_, by rw [wire, RequestToAvsProxyLinkRoom.packed, RequestToAvsProxyLinkRoom.serialize,
      RequestHeader.packed_serialize]; rfl⟩
  | linkRoomUser r | unlinkRoomUser r =>
    exact ⟨_, by rw [wire, RoomUserRequest.packed, RoomUserRequest.serialize,
      RequestHeader.packed_serialize]; rfl⟩

theorem length_wire : r.wire.length = r.sizeof := by
  cases r <;> simp only [wire, sizeof, RequestToAvsProxyLogin.packed,
    RequestToAvsProxyLinkRoom.packed,
    RoomUserRequest.packed, List.length_append, RequestHeader.length_packed, Scalar.length_store,
    List.length_nil] <;> rfl

theorem tcpParameter_serialized {mem : Memory} {c : Cursor} (h : Spells mem c.storage r.wire) :
    (tcpParameter mem c).1 = r.parameter := by
  obtain ⟨fields, hw⟩ := r.wire_header
  rw [hw] at h
  rw [tcpParameter_eq]
  exact headerAt_encoded h.append.1

/-! ## Requests in a row -/

theorem sizeof_le : 8 ≤ r.sizeof ∧ r.sizeof ≤ 21 := by
  cases r <;> (rw [sizeof]; decide)

theorem lenField_encodeHeader (tcp : TcpParameter) (bs : List UInt8) :
    lenField (encodeHeader tcp ++ bs) = tcp.length.toNat := by
  have hlt := tcp.length.toNat_lt
  simp only [lenField, encodeHeader, beBytes, List.cons_append, List.nil_append,
    List.getD_cons_zero,
    List.getD_cons_succ, UInt8.toNat_ofNat']
  omega

theorem length_parameter : r.parameter.length.toNat = r.sizeof - 2 := by
  have hle := r.sizeof_le
  exact UInt16.toNat_ofNat_of_lt' (Nat.lt_of_le_of_lt (m := 19) (by omega) (by decide))

theorem lenField_wire : r.wire.length = lenField r.wire + 2 := by
  obtain ⟨fields, hw⟩ := r.wire_header
  have hle := r.sizeof_le
  rw [length_wire, hw, lenField_encodeHeader, length_parameter]
  omega

theorem length_wire_min : 8 ≤ r.wire.length := by
  rw [length_wire]
  exact r.sizeof_le.1

theorem length_wire_max : r.wire.length ≤ MAX_STORAGE_SIZE := by
  have hle := r.sizeof_le.2
  rw [length_wire, MAX_STORAGE_SIZE]
  omega

/-- A request is a frame. -/
def frame : Frame where
  bytes := r.wire
  min := r.length_wire_min
  max := r.length_wire_max
  len := r.lenField_wire

/-- No request has 256 bytes or more. -/
theorem head_wire : r.wire.head? = some 0 := by
  obtain ⟨fields, hw⟩ := r.wire_header
  have hle := r.sizeof_le
  have hhigh : UInt8.ofNat (r.parameter.length.toNat / 256 ^ 1) = 0 := by
    rw [length_parameter, Nat.div_eq_of_lt (by omega)]
    rfl
  rw [hw, encodeHeader, beBytes, hhigh]
  rfl

end TcpRequest

/-- The first bytes of the frames keep clear of the length that is misread when
it comes alone. -/
theorem reassembles_of_heads {fs : List Frame}
    (hheads : ∀ f ∈ fs, f.bytes.head? ≠ some 3) {s₀ : Conn}
    {chunks : List (List UInt8)} (hfresh : s₀.frames = []) (hoff : s₀.offset = 0)
    (hwire : chunks.flatten = TcpStorage.wire fs) (hfits : fits s₀ chunks = true) :
    Reassembles fs s₀ chunks := by
  have hbuf : s₀.buffered = [] := by rw [Conn.buffered, hoff, List.take_zero]
  have hsync : Synced s₀.storage [] fs chunks.flatten s₀ :=
    ⟨hfresh, by rw [hbuf]; exact hwire, by rw [hoff]; exact Nat.zero_le _, fun _ => rfl⟩
  have hshort : Partial fs s₀ := fun f _ => by
    have := f.min
    omega
  have hreads := reads_iff chunks hsync hshort hfits
  simp only [List.nil_append, wire_nil, hbuf] at hreads
  have hall := hreads.mpr <| by
    rintro k - - ⟨done, todo, hfs, hrcvd, -⟩
    -- the byte 3 would be the first one of the frame under way
    have hstream : TcpStorage.wire done ++ ([3] ++ (chunks.drop k).flatten) =
        TcpStorage.wire done ++ TcpStorage.wire todo := by
      rw [← wire_append, ← hfs, ← hwire, ← List.append_assoc, ← hrcvd, ← List.flatten_append,
        List.take_append_drop]
    have hrest := List.append_cancel_left hstream
    cases todo with
    | nil => cases hrest
    | cons f todo =>
      refine hheads f (by rw [hfs]; simp) ?_
      obtain ⟨b, bs, hb⟩ := List.exists_cons_of_length_pos (l := f.bytes) (by have := f.min; omega)
      rw [wire_cons, hb, List.cons_append, List.cons_append, List.cons.injEq] at hrest
      rw [hb, ← hrest.1]
      rfl
  refine ⟨by rw [hbuf]; exact hall, ?_⟩
  obtain ⟨s, hs, hin⟩ := hall chunks.length (Nat.le_refl _)
  rw [List.take_length] at hs hin
  rw [hwire] at hin
  exact ⟨s, hs, hin.complete⟩

/-- However requests in a row are cut into reads, they are handed on one by one. -/
theorem requests_cut (rs : List TcpRequest) {s₀ : Conn} {chunks : List (List UInt8)}
    (hfresh : s₀.frames = []) (hoff : s₀.offset = 0)
    (hwire : chunks.flatten = rs.flatMap TcpRequest.wire) (hfits : fits s₀ chunks = true) :
    Reassembles (rs.map TcpRequest.frame) s₀ chunks := by
  refine reassembles_of_heads ?_ hfresh hoff ?_ hfits
  · intro f hf
    obtain ⟨r, -, rfl⟩ := List.mem_map.mp hf
    have hhead : r.frame.bytes.head? = some 0 := r.head_wire
    rw [hhead]
    decide
  · rw [hwire, TcpStorage.wire, List.flatMap_map]
    rfl

end MonitorAgent.L1
