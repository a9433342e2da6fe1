import MonitorAgent.L1Wire.Requests

/-!
# What a proxy announces

The frames a proxy sends once the client is logged in, as the constructors of
Monitor/Monitor/Scene/AvsProxyScene/src read them: the rooms with their users, a
change of a user's media, a user who comes and one who leaves, and the keep-alive.

* `tcpParamScene_encode`: an announcement is read back, whatever is behind it in
  memory.
-/
namespace MonitorAgent.L1

open BigEndian TcpStorage

inductive Announcement
  | roomsInfo (rooms : List ListedRoom)
  | modMedia (roomId : Int32) (userId : Int64) (audioSsrc videoSsrc : UInt32)
  | addUser (roomId : Int32) (userId : Int64) (micId : UInt32)
  | delUser (roomId : Int32) (userId : Int64)
  | keepAlive
deriving DecidableEq

namespace Announcement

/-- mirrors Monitor/Monitor/command.h:41-50 -/
def type : Announcement → UInt16
  | roomsInfo _ => 1
  | modMedia .. => 2
  | addUser .. => 3
  | delUser .. => 4
  | keepAlive => 6

/-- What follows the header. -/
def fields : Announcement → List UInt8
  | roomsInfo rooms => beBytes 4 rooms.length ++ encodeRooms rooms
  | modMedia roomId userId audioSsrc videoSsrc => beBytes 4 roomId.toUInt32.toNat ++
    (beBytes 8 userId.toUInt64.toNat ++ (beBytes 4 audioSsrc.toNat ++ beBytes 4 videoSsrc.toNat))
  | addUser roomId userId micId =>
    beBytes 4 roomId.toUInt32.toNat ++ (beBytes 8 userId.toUInt64.toNat ++ beBytes 4 micId.toNat)
  | delUser roomId userId => beBytes 4 roomId.toUInt32.toNat ++ beBytes 8 userId.toUInt64.toNat
  | keepAlive => []

/-- The header, sent to a client by a proxy. -/
def tcp (proxyId clientId : UInt16) (m : Announcement) : TcpParameter :=
  ⟨.ofNat (m.fields.length + 6), m.type, proxyId, clientId⟩

def encode (proxyId clientId : UInt16) (m : Announcement) : List UInt8 :=
  encodeHeader (m.tcp proxyId clientId) ++ m.fields

/-- The parameter the client constructs. -/
def parameter (proxyId clientId : UInt16) (m : Announcement) : Parameter :=
  match m with
  | roomsInfo rooms =>
      .roomsInfo (m.tcp proxyId clientId) (.ofNat rooms.length) (rooms.map ListedRoom.info)
  | modMedia roomId userId audioSsrc videoSsrc =>
    .modMedia (m.tcp proxyId clientId) roomId userId audioSsrc videoSsrc
  | addUser roomId userId micId => .addUser (m.tcp proxyId clientId) roomId userId micId
  | delUser roomId userId => .delUser (m.tcp proxyId clientId) roomId userId
  | keepAlive => .keepAlive (m.tcp proxyId clientId)

/-- The type as `TcpParamScene` tells it. -/
def request : Announcement → ClientRequest
  | roomsInfo _ => .roomsInfo
  | modMedia .. => .roomModMedia
  | addUser .. => .roomAddUser
  | delUser .. => .roomDelUser
  | keepAlive => .keepAlive

variable (proxyId clientId : UInt16) (m : Announcement)

theorem clientRequest_type : clientRequest? m.type.toNat = some m.request := by
  cases m <;> rfl

theorem length_encode : (m.encode proxyId clientId).length = m.fields.length + 8 := by
  rw [encode, List.length_append, length_encodeHeader, Nat.add_comm]

variable {proxyId clientId : UInt16} {m : Announcement} {mem : Memory}

theorem request_encode (h : Spells mem 0 (m.encode proxyId clientId)) :
    mem.request? = some m.request := by
  have hheader := headerAt_encoded h.append.1
  have htype : UInt16.ofNat (mem.value 2 2) = m.type :=
    congrArg TcpParameter.clientRequestType hheader
  have hlt : mem.value 2 2 < 65536 := mem.value_lt 2 2
  rw [Memory.request?, unserialize_load, ← m.clientRequest_type, ← htype,
    UInt16.toNat_ofNat_of_lt' hlt]

/-- What the constructor of a type does on an announcement. -/
theorem parameter_encode (hfit : (m.encode proxyId clientId).length ≤ MAX_STORAGE_SIZE)
    (h : Spells mem 0 (m.encode proxyId clientId)) {fuel : Nat} (hf : 256 ≤ fuel) :
    ∃ c, L1.parameter mem fuel m.request ⟨0, (m.encode proxyId clientId).length, []⟩ =
      some (m.parameter proxyId clientId, c) := by
  have hheader := headerAt_encoded h.append.1
  have hfields := h.append.2
  rw [length_encodeHeader] at hfields
  cases m with
  | roomsInfo rooms =>
    obtain ⟨c, hc, -⟩ := roomsInfoParameter_encoded hfit h hf
    exact ⟨c, hc⟩
  | modMedia roomId userId audioSsrc videoSsrc =>
    obtain ⟨h8, hrest⟩ := hfields.field
    obtain ⟨h12, hrest⟩ := hrest.field
    obtain ⟨h20, hrest⟩ := hrest.field
    have h24 := hrest.value
    simp only [request, L1.parameter, modMediaParameter, tcpParameter_eq, pjNtohAssign_eq,
      Cursor.skip_storage, Cursor.advance_storage, headerSizes, List.sum_cons, List.sum_nil]
    simp only [Nat.zero_add, Nat.reduceAdd] at h8 h12 h20 h24 ⊢
    rw [hheader, h8, h12, h20, h24, int32_read, int64_read, uint32_read, uint32_read]
    exact ⟨_, rfl⟩
  | addUser roomId userId micId =>
    obtain ⟨h8, hrest⟩ := hfields.field
    obtain ⟨h12, hrest⟩ := hrest.field
    have h20 := hrest.value
    simp only [request, L1.parameter, addUserParameter, tcpParameter_eq, pjNtohAssign_eq,
      Cursor.skip_storage, Cursor.advance_storage, headerSizes, List.sum_cons, List.sum_nil]
    simp only [Nat.zero_add, Nat.reduceAdd] at h8 h12 h20 ⊢
    rw [hheader, h8, h12, h20, int32_read, int64_read, uint32_read]
    exact ⟨_, rfl⟩
  | delUser roomId userId =>
    obtain ⟨h8, hrest⟩ := hfields.field
    have h12 := hrest.value
    simp only [request, L1.parameter, delUserParameter, tcpParameter_eq, pjNtohAssign_eq,
      Cursor.skip_storage, Cursor.advance_storage, headerSizes, List.sum_cons, List.sum_nil]
    simp only [Nat.zero_add, Nat.reduceAdd] at h8 h12 ⊢
    rw [hheader, h8, h12, int32_read, int64_read]
    exact ⟨_, rfl⟩
  | keepAlive =>
    simp only [request, L1.parameter, tcpParameter_eq]
    rw [hheader]
    exact ⟨_, rfl⟩

/-- **An announcement is read back.** -/
theorem tcpParamScene_encode (hfit : (m.encode proxyId clientId).length ≤ MAX_STORAGE_SIZE)
    (h : Spells mem 0 (m.encode proxyId clientId)) {fuel : Nat} (hf : 256 ≤ fuel) :
    ∃ reads, tcpParamScene mem fuel (m.encode proxyId clientId).length =
      some (some (m.parameter proxyId clientId), reads) := by
  obtain ⟨c, hc⟩ := parameter_encode hfit h hf
  have hlen := m.length_encode proxyId clientId
  rw [tcpParamScene, if_neg (by omega), request_encode h]
  simp only [hc, Option.map_some]
  exact ⟨_, rfl⟩

/-! ## As a frame of the stream -/

/-- The frame of an announcement that fits the client's buffer. -/
def frame (proxyId clientId : UInt16) (m : Announcement)
    (hfit : (m.encode proxyId clientId).length ≤ MAX_STORAGE_SIZE) : Frame where
  bytes := m.encode proxyId clientId
  min := by rw [length_encode]; omega
  max := hfit
  len := by
    have hlen := m.length_encode proxyId clientId
    have hmax : MAX_STORAGE_SIZE = 1024 := rfl
    have hsize : UInt16.size = 65536 := rfl
    rw [encode, TcpRequest.lenField_encodeHeader, ← encode, hlen, tcp,
      UInt16.toNat_ofNat_of_lt' (by omega)]

end Announcement
end MonitorAgent.L1
