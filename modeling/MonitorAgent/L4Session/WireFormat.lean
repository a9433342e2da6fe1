import MonitorAgent.L1Wire.Requests
import MonitorAgent.L4Session.UdpRead

/-!
# Writers and readers of the wire format

The requests that `AvsProxyStructs.h` serializes against the repository's own
readers: `unserialize`, field by field, `TcpParameter` and `NATParameter`
(Monitor/Monitor/Scene/Parameter.h), and the length rule of `EventOnTcpRead`.

* `wire_agrees`: what is written is read, for every value of every field.
-/
namespace MonitorAgent.L4

open L1 L1.TcpStorage BigEndian

/-- A TCP request is read back, with the length of what follows it. -/
structure TcpAgrees (r : TcpRequest) : Prop where
  fields : ∀ (mem : Memory) (c : Cursor), Spells mem c.storage r.wire → r.readBack mem c = r.sent
  length : r.sent.header.length.toNat + 2 = r.wire.length
  parameter : ∀ (mem : Memory) (c : Cursor), Spells mem c.storage r.wire →
    (tcpParameter mem c).1 =
      ⟨r.sent.header.length, r.header.clientRequestType, r.header.proxyId, r.header.clientId⟩

structure NatAgrees (r : RequestToAvsProxyNat) : Prop where
  fields : ∀ (mem : Memory) (c : Cursor), Spells mem c.storage r.serialize.packed →
    (RequestToAvsProxyNat.read mem c).1 = r
  parameter : ∀ (mem : Memory) (c : Cursor), Spells mem c.storage r.serialize.packed →
    (natParameter mem c).1 = ⟨⟨r.clientRequestType, r.proxyId, r.roomId⟩, r.clientId⟩

theorem sent_header (r : TcpRequest) : r.sent.header = r.header.sent r.sizeof := by
  cases r <;> rfl

theorem tcpAgrees (r : TcpRequest) : TcpAgrees r where
  fields _ _ h := r.readBack_serialized h
  length := by
    have hle := r.sizeof_le
    have hlen : r.sent.header.length.toNat = r.sizeof - 2 := by
      rw [sent_header]
      exact r.length_parameter
    rw [hlen, r.length_wire]
    omega
  parameter _ _ h := by
    rw [r.tcpParameter_serialized h, sent_header]
    rfl

/-- `NATParameter` reads the fields in the order in which they are declared. -/
theorem natParameter_serialized (r : RequestToAvsProxyNat) {mem : Memory} {c : Cursor}
    (h : Spells mem c.storage r.serialize.packed) :
    (natParameter mem c).1 = ⟨⟨r.clientRequestType, r.proxyId, r.roomId⟩, r.clientId⟩ := by
  simp only [RequestToAvsProxyNat.packed, RequestToAvsProxyNat.serialize, store_serialize] at h
  obtain ⟨htype, h⟩ := h.field
  obtain ⟨hproxy, h⟩ := h.field
  obtain ⟨hroom, h⟩ := h.field
  obtain ⟨hclient, -⟩ := h.field
  -- the sizes of the scalars, as the reader has them
  have htype : mem.value c.storage 2 = r.clientRequestType.toNat % 256 ^ 2 := htype
  have hproxy : mem.value (c.storage + 2) 2 = r.proxyId.toNat % 256 ^ 2 := hproxy
  have hroom : mem.value (c.storage + 2 + 2) 4 = r.roomId.toUInt32.toNat % 256 ^ 4 := hroom
  have hclient : mem.value (c.storage + 2 + 2 + 4) 2 = r.clientId.toNat % 256 ^ 2 := hclient
  simp only [natParameter, udpParameter, pjNtohAssign_eq, Cursor.advance_storage,
    htype, hproxy, hroom,
    hclient, uint16_read, int32_read]

theorem natAgrees (r : RequestToAvsProxyNat) : NatAgrees r where
  fields _ _ h := r.read_serialized h
  parameter _ _ h := natParameter_serialized r h

/-- **The wire format.** Every field of every request is read back, as are the
header and the NAT parameters, and requests in a row are cut at their boundaries,
however they are cut into reads and whatever the buffer held before. -/
theorem wire_agrees : (∀ r : TcpRequest, TcpAgrees r) ∧ (∀ r : RequestToAvsProxyNat, NatAgrees r) ∧
    ∀ (rs : List TcpRequest) (s₀ : Conn) (chunks : List (List UInt8)), s₀.frames = [] →
      s₀.offset = 0 → chunks.flatten = rs.flatMap TcpRequest.wire → fits s₀ chunks = true →
        Reassembles (rs.map TcpRequest.frame) s₀ chunks :=
  ⟨tcpAgrees, natAgrees, fun rs _ _ => requests_cut rs⟩

/-- A login to proxy 7 and a request for its room 5. -/
def loginAndLink : List TcpRequest :=
  [.login ⟨⟨0, 0, 7, 10⟩, 0x0100007F, 12000⟩, .linkRoom ⟨⟨0, 2, 7, 10⟩, 5⟩]

/-- The second read ends in the middle of the second request's length. -/
def loginAndLinkReads : List (List UInt8) :=
  [[0], [12, 0, 0, 0, 7, 0, 10, 127, 0, 0, 1, 46, 224, 0], [10, 0, 2, 0, 7, 0, 10, 0, 0, 0, 5]]

theorem wire_agrees_loginAndLink :
    Reassembles (loginAndLink.map TcpRequest.frame) ⟨.fill 0xFF, 0, [], false⟩ loginAndLinkReads :=
  wire_agrees.2.2 loginAndLink _ _ rfl rfl (by decide +kernel) (by decide +kernel)

end MonitorAgent.L4
