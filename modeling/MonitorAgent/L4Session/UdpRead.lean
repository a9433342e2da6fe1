import MonitorAgent.L1Wire.Decoding
import MonitorAgent.L3Wall.UdpScene
import MonitorAgent.L4Session.LinkedProxys

/-!
# A datagram comes in

`EventOnUdpRead` and `UdpParamScene` (Monitor/Monitor/ScreenMgr.cpp:545-585,
651-687). A datagram goes to a screen by the table of its medium, or has a NAT
scene queued for the proxy its payload names. `media_index` is -1 for a payload
type that is neither, but it is an unsigned byte, so 255 passes the check and
is the index into the tables. The fields of a NAT payload are read one after
the other (`Cursor`), after a check that there is a payload at all.

`pjmedia_rtp_decode_rtp` is a parameter: it finds the header and the payload
within the datagram, or refuses it.

* `dispatch_iff`: the tables are indexed within bounds, the NAT payload is read
  within its length and datagrams of other types are dropped, exactly if the
  datagram is of one of the three types and a NAT payload has none or all of
  its 10 bytes.
* `dispatch_strays`: payload type 96 passes for a medium, and a NAT payload of 4
  bytes is read to its tenth.
-/
namespace MonitorAgent.L4

open MonitorAgent.L3
open L1.TcpStorage (u16)

/-! ## NAT parameters -/

/-- mirrors Monitor/Monitor/Scene/Parameter.h:27-42 -/
structure UdpParameter where
  avsRequestType : UInt16
  proxyId : UInt16
  roomId : Int32
deriving DecidableEq

/-- mirrors Monitor/Monitor/Scene/AvsProxyScene/inc/NATScene.h:7-14 -/
structure NATParameter extends UdpParameter where
  clientId : UInt16
deriving DecidableEq

/-- mirrors Monitor/Monitor/Scene/Parameter.h:30-35 -/
def udpParameter (mem : L1.Memory) (c : L1.Cursor) : UdpParameter × L1.Cursor :=
  let (avsRequestType, c) := L1.pjNtohAssign mem 2 c
  let (proxyId, c) := L1.pjNtohAssign mem 2 c
  let (roomId, c) := L1.pjNtohAssign mem 4 c
  (⟨.ofNat avsRequestType, .ofNat proxyId, L1.int32 roomId⟩, c)

/-- mirrors Monitor/Monitor/Scene/AvsProxyScene/src/NATScene.cpp:4-8 -/
def natParameter (mem : L1.Memory) (c : L1.Cursor) : NATParameter × L1.Cursor :=
  let (udp, c) := udpParameter mem c
  let (clientId, c) := L1.pjNtohAssign mem 2 c
  (⟨udp, .ofNat clientId⟩, c)

def natSizes : List Nat := [2, 2, 4, 2]

theorem natParameter_cursor (mem : L1.Memory) (c : L1.Cursor) :
    (natParameter mem c).2 = c.skip natSizes := by
  simp only [natParameter, udpParameter, L1.pjNtohAssign_eq]
  rfl

/-! ## Dispatch -/

/-- What is known of a datagram once it is decoded; `payload` is an offset. -/
structure RtpPacket where
  hdr : RtpHdr
  payload : Nat
  payloadLen : Nat

/-- `storage`, and the `datalen` that `recvfrom` sets. -/
structure Datagram where
  bytes : L1.Memory
  len : Nat

/-- What becomes of a datagram: the state, the call made for it, and what was
read through `pj_ntoh_assign`. -/
structure Dispatch where
  s : ScreenMgr
  call : UdpCall
  reads : List L1.Read

def Dispatch.ignored (s : ScreenMgr) : Dispatch := ⟨s, .dropped, []⟩

/-- `pjmedia_rtp_decode_rtp`: the status is not `PJ_SUCCESS` for `none`. -/
abbrev DecodeRtp := L1.Memory → Nat → Option RtpPacket

/-- Header, payload and payload length are within the datagram. -/
def DecodeRtp.Within (decode : DecodeRtp) : Prop :=
  ∀ mem n pkt, decode mem n = some pkt → pkt.payload + pkt.payloadLen ≤ n

namespace ScreenMgr

variable (s : ScreenMgr)

/-- The parameter is there before it is known whether its proxy is.
mirrors Monitor/Monitor/ScreenMgr.cpp:551-561 -/
def natScene (storage : L1.Memory) (storageLen : Nat) : Dispatch :=
  let (param, c) := natParameter storage ⟨0, storageLen, []⟩
  match s.getProxy param.proxyId.toNat with
  | none => ⟨s, .natScene, c.reads⟩
  | some p => ⟨{ s with scenes := s.scenes ++ [.maintain .nat p] }, .natScene, c.reads⟩

/-- mirrors Monitor/Monitor/ScreenMgr.cpp:545-585 -/
def udpParamScene (hdr : RtpHdr) (storage : L1.Memory) (storageLen : Nat) : Dispatch :=
  match s.w.udpParamScene hdr storageLen with
  | .natScene => s.natScene storage storageLen
  | call => ⟨s, call, []⟩

variable (decode : DecodeRtp)

/-- `received` is `none` if the event is no `EV_READ` or `recvfrom` fails. The
lengths are cast to a `pj_uint16_t`.
mirrors Monitor/Monitor/ScreenMgr.cpp:651-687 -/
def eventOnUdpRead (received : Option Datagram) : Dispatch :=
  match received with
  | none => .ignored s
  | some d =>
    if 12 ≤ d.len ∧ d.len < 65536 then
      match decode d.bytes d.len with
      | none => .ignored s
      | some pkt =>
        if pkt.hdr.pt = RTP_EXPAND_PAYLOAD_TYPE then
          s.udpParamScene pkt.hdr (fun i => d.bytes (pkt.payload + i)) (u16 pkt.payloadLen)
        else s.udpParamScene pkt.hdr d.bytes (u16 d.len)
    else .ignored s

/-! ## Which branch is taken -/

theorem eventOnUdpRead_ignored {d : Datagram}
    (h : ¬ (12 ≤ d.len ∧ d.len < 65536) ∨ decode d.bytes d.len = none) :
    s.eventOnUdpRead decode (some d) = .ignored s := by
  rw [eventOnUdpRead]
  split
  · rw [h.resolve_left (not_not_intro ‹_›)]
  · rfl

end ScreenMgr

/-- Audio, video or the payload type of NAT datagrams. -/
def KnownType (hdr : RtpHdr) : Prop :=
  hdr.pt = RTP_MEDIA_AUDIO_TYPE ∨ hdr.pt = RTP_MEDIA_VIDEO_TYPE ∨ hdr.pt = RTP_EXPAND_PAYLOAD_TYPE

instance (hdr : RtpHdr) : Decidable (KnownType hdr) := inferInstanceAs (Decidable (_ ∨ _ ∨ _))

section Branches

variable (w : World) (hdr : RtpHdr) {n : Nat}

theorem udpParamScene_expand (hn : n ≠ 0) (h : hdr.pt = RTP_EXPAND_PAYLOAD_TYPE) :
    w.udpParamScene hdr n = .natScene := by
  rw [World.udpParamScene, if_neg hn, if_pos h]

theorem udpParamScene_natScene (h : w.udpParamScene hdr n = .natScene) :
    hdr.pt = RTP_EXPAND_PAYLOAD_TYPE := by
  unfold World.udpParamScene at h
  grind

theorem udpParamScene_noTable (hn : n ≠ 0) :
    w.udpParamScene hdr n = .noTable ↔ ¬ KnownType hdr := by
  unfold World.udpParamScene KnownType
  grind

end Branches

namespace ScreenMgr

variable (s : ScreenMgr) (hdr : RtpHdr) (storage : L1.Memory) {n : Nat}

theorem natScene_call (n : Nat) : (s.natScene storage n).call = .natScene := by
  rw [natScene]
  obtain ⟨param, c⟩ := natParameter storage ⟨0, n, []⟩
  cases h : s.getProxy param.proxyId.toNat <;> simp only [h]

theorem natScene_reads (n : Nat) :
    (s.natScene storage n).reads = ((⟨0, n, []⟩ : L1.Cursor).skip natSizes).reads := by
  rw [← natParameter_cursor storage, natScene]
  obtain ⟨param, c⟩ := natParameter storage ⟨0, n, []⟩
  cases h : s.getProxy param.proxyId.toNat <;> simp only [h]

theorem udpParamScene_call (n : Nat) :
    (s.udpParamScene hdr storage n).call = s.w.udpParamScene hdr n := by
  rw [udpParamScene]
  split
  · rename_i h
    rw [h, natScene_call]
  · rfl

theorem udpParamScene_nat (hn : n ≠ 0) (h : hdr.pt = RTP_EXPAND_PAYLOAD_TYPE) :
    s.udpParamScene hdr storage n = s.natScene storage n := by
  rw [udpParamScene, udpParamScene_expand s.w hdr hn h]

theorem udpParamScene_empty : s.udpParamScene hdr storage 0 = .ignored s := rfl

theorem udpParamScene_reads (h : hdr.pt ≠ RTP_EXPAND_PAYLOAD_TYPE) :
    (s.udpParamScene hdr storage n).reads = [] := by
  rw [udpParamScene]
  split
  · exact absurd (udpParamScene_natScene s.w hdr ‹_›) h
  · rfl

end ScreenMgr

/-! ## Safe dispatch -/

/-- What an accepted datagram is decoded to. -/
def Datagram.packet (decode : DecodeRtp) (d : Datagram) : Option RtpPacket :=
  if 12 ≤ d.len ∧ d.len < 65536 then decode d.bytes d.len else none

/-- The index is that of a medium, a payload is read within its length, and
datagrams of other types change nothing and reach no screen. -/
structure SafeDispatch (decode : DecodeRtp) (s : ScreenMgr) (d : Datagram) : Prop where
  table : (s.eventOnUdpRead decode (some d)).call ≠ .noTable
  payload : ∀ pkt ∈ d.packet decode, ∀ r ∈ (s.eventOnUdpRead decode (some d)).reads,
    r.offset + r.size ≤ pkt.payloadLen
  selective : ∀ pkt ∈ d.packet decode, ¬ KnownType pkt.hdr →
    (s.eventOnUdpRead decode (some d)).s = s ∧ (s.eventOnUdpRead decode (some d)).call = .dropped

/-- One of the three types, and a NAT payload is empty or has all its fields. -/
def Fits (decode : DecodeRtp) (d : Datagram) : Prop :=
  ∀ pkt ∈ d.packet decode, KnownType pkt.hdr ∧
    (pkt.hdr.pt = RTP_EXPAND_PAYLOAD_TYPE → pkt.payloadLen = 0 ∨ 10 ≤ pkt.payloadLen)

namespace Datagram

variable {decode : DecodeRtp} {d : Datagram} {pkt : RtpPacket} (s : ScreenMgr)

theorem packet_none (h : d.packet decode = none) :
    s.eventOnUdpRead decode (some d) = .ignored s := by
  refine s.eventOnUdpRead_ignored decode ?_
  by_contra hc
  obtain ⟨hlen, hdec⟩ := not_or.mp hc
  rw [packet, if_pos (not_not.mp hlen)] at h
  exact hdec h

theorem packet_some (h : d.packet decode = some pkt) :
    (12 ≤ d.len ∧ d.len < 65536) ∧ decode d.bytes d.len = some pkt := by
  rw [packet] at h
  split at h
  · exact ⟨‹_›, h⟩
  · cases h

theorem dispatch_nat (hd : decode.Within) (h : d.packet decode = some pkt)
    (ht : pkt.hdr.pt = RTP_EXPAND_PAYLOAD_TYPE) :
    s.eventOnUdpRead decode (some d) =
      s.udpParamScene pkt.hdr (fun i => d.bytes (pkt.payload + i)) pkt.payloadLen := by
  obtain ⟨hlen, hdec⟩ := packet_some h
  have hpl : u16 pkt.payloadLen = pkt.payloadLen := by
    have := hd _ _ _ hdec
    exact Nat.mod_eq_of_lt (by omega)
  simp only [ScreenMgr.eventOnUdpRead, if_pos hlen, hdec, if_pos ht, hpl]

theorem dispatch_other (h : d.packet decode = some pkt)
    (ht : pkt.hdr.pt ≠ RTP_EXPAND_PAYLOAD_TYPE) :
    s.eventOnUdpRead decode (some d) = s.udpParamScene pkt.hdr d.bytes d.len := by
  obtain ⟨hlen, hdec⟩ := packet_some h
  have hn : u16 d.len = d.len := Nat.mod_eq_of_lt hlen.2
  simp only [ScreenMgr.eventOnUdpRead, if_pos hlen, hdec, if_neg ht, hn]

end Datagram

/-- All four fields are within the payload if its length is the sum of their
sizes or more. -/
theorem nat_reads_iff (n : Nat) (hn : n < 65536) :
    (∀ r ∈ ((⟨0, n, []⟩ : L1.Cursor).skip natSizes).reads, r.offset + r.size ≤ n) ↔ 10 ≤ n := by
  have htr := (L1.Cursor.tracks_start n).skip hn natSizes
  have hend : ((⟨0, n, []⟩ : L1.Cursor).skip natSizes).storage = 10 := by
    rw [L1.Cursor.skip_storage]
    rfl
  constructor
  · intro h
    rcases htr.last with h0 | ⟨r, hr, he⟩
    · omega
    · have := h r hr
      omega
  · intro h r hr
    have := htr.upTo r hr
    omega

section Safe

variable {decode : DecodeRtp} {d : Datagram} {pkt : RtpPacket} (s : ScreenMgr)

theorem safe_ignored (h : s.eventOnUdpRead decode (some d) = .ignored s) :
    SafeDispatch decode s d where
  table := by
    rw [h]
    exact fun e => nomatch e
  payload _ _ r hr := by
    rw [h] at hr
    cases hr
  selective _ _ _ := by
    rw [h]
    exact ⟨rfl, rfl⟩

theorem safe_nat_iff (hd : decode.Within) (h : d.packet decode = some pkt)
    (ht : pkt.hdr.pt = RTP_EXPAND_PAYLOAD_TYPE) :
    SafeDispatch decode s d ↔ pkt.payloadLen = 0 ∨ 10 ≤ pkt.payloadLen := by
  have he := Datagram.dispatch_nat s hd h ht
  by_cases h0 : pkt.payloadLen = 0
  · rw [h0, ScreenMgr.udpParamScene_empty] at he
    exact iff_of_true (safe_ignored s he) (.inl h0)
  · rw [ScreenMgr.udpParamScene_nat _ _ _ h0 ht] at he
    have hlt : pkt.payloadLen < 65536 := by
      obtain ⟨hlen, hdec⟩ := Datagram.packet_some h
      have := hd _ _ _ hdec
      omega
    rw [or_iff_right h0, ← nat_reads_iff pkt.payloadLen hlt,
      ← s.natScene_reads (fun i => d.bytes (pkt.payload + i)), ← he]
    constructor
    · exact fun hs => hs.payload pkt h
    · intro hr
      refine ⟨?_, fun pkt' hp => ?_, fun pkt' hp hk => ?_⟩
      · rw [he, ScreenMgr.natScene_call]
        exact fun e => nomatch e
      · obtain rfl := Option.some.inj (h.symm.trans hp)
        exact hr
      · obtain rfl := Option.some.inj (h.symm.trans hp)
        exact absurd (.inr (.inr ht)) hk

theorem safe_other_iff (h : d.packet decode = some pkt)
    (ht : pkt.hdr.pt ≠ RTP_EXPAND_PAYLOAD_TYPE) :
    SafeDispatch decode s d ↔ KnownType pkt.hdr := by
  have he := Datagram.dispatch_other s h ht
  have hn : d.len ≠ 0 := by
    have := (Datagram.packet_some h).1.1
    omega
  have htable : (s.eventOnUdpRead decode (some d)).call = .noTable ↔ ¬ KnownType pkt.hdr := by
    rw [he, ScreenMgr.udpParamScene_call, udpParamScene_noTable _ _ hn]
  constructor
  · intro hs
    by_contra hk
    exact hs.table (htable.mpr hk)
  · intro hk
    refine ⟨fun e => htable.mp e hk, fun pkt' _ r hr => ?_, fun pkt' hp hk' => ?_⟩
    · rw [he, ScreenMgr.udpParamScene_reads _ _ _ ht] at hr
      cases hr
    · obtain rfl := Option.some.inj (h.symm.trans hp)
      exact absurd hk hk'

end Safe

/-- **Dispatch of datagrams.** Whatever the tables hold, the dispatch of a
datagram is safe and selective exactly if it is of one of the three types and,
for a NAT datagram, the payload has no bytes or at least 10. -/
theorem dispatch_iff {decode : DecodeRtp} (hd : decode.Within) (s : ScreenMgr) (d : Datagram) :
    SafeDispatch decode s d ↔ Fits decode d := by
  cases h : d.packet decode with
  | none =>
    exact iff_of_true (safe_ignored s (Datagram.packet_none s h))
      fun pkt hp => nomatch h.symm.trans hp
  | some pkt =>
    have hfits : Fits decode d ↔ KnownType pkt.hdr ∧
        (pkt.hdr.pt = RTP_EXPAND_PAYLOAD_TYPE → pkt.payloadLen = 0 ∨ 10 ≤ pkt.payloadLen) :=
      ⟨fun hf => hf pkt h, fun hf pkt' hp => Option.some.inj (h.symm.trans hp) ▸ hf⟩
    rw [hfits]
    by_cases ht : pkt.hdr.pt = RTP_EXPAND_PAYLOAD_TYPE
    · have hk : KnownType pkt.hdr := .inr (.inr ht)
      rw [safe_nat_iff s hd h ht, and_iff_right hk, imp_iff_right ht]
    · rw [safe_other_iff s h ht, and_iff_left (absurd · ht)]

/-! ## Three datagrams -/

/-- The decoder for headers that start with this byte: version 2, and neither
padding nor extension nor CSRC, so the payload comes after 12 bytes. -/
def plainRtp : DecodeRtp := fun mem n =>
  if mem 0 = 0x80 ∧ 12 ≤ n then
    some ⟨receivedHdr ((mem 1).toNat % 128) (mem.bytes 8 4), 12, n - 12⟩
  else none

theorem plainRtp_within : plainRtp.Within := by
  intro mem n pkt h
  unfold plainRtp at h
  split at h
  · cases h
    simp only
    omega
  · cases h

def datagram (bytes : List UInt8) : Datagram := ⟨fun i => bytes.getD i 0, bytes.length⟩

/-- The header of a datagram with this type and SSRC 5. -/
def plainHdr (pt : UInt8) : List UInt8 := [0x80, pt, 0, 1, 0, 0, 0, 0, 0, 0, 0, 5]

/-- Proxy 7 is linked, as object 0. -/
def ScreenMgr.oneLinked : ScreenMgr :=
  ⟨.launched, StdMap.empty.insert 7 0, 1, fun _ => .null, [], []⟩

/-- A whole NAT payload has a scene queued. -/
theorem dispatch_iff_nat :
    SafeDispatch plainRtp .oneLinked (datagram (plainHdr 110 ++ [0, 1, 0, 7, 0, 0, 0, 5, 0, 3])) ∧
      (ScreenMgr.oneLinked.eventOnUdpRead plainRtp
        (some (datagram (plainHdr 110 ++ [0, 1, 0, 7, 0, 0, 0, 5, 0, 3])))).s.scenes =
          [.maintain .nat 0] := by
  refine ⟨(dispatch_iff plainRtp_within .oneLinked _).mpr fun pkt hp => ?_, by decide +kernel⟩
  cases hp
  decide

/-- Nobody on a screen, and no proxy. -/
def ScreenMgr.launched : ScreenMgr := ⟨.launched, .empty, 0, fun _ => .null, [], []⟩

/-- Type 96 is looked up in a table there is not; of a NAT payload of 4 bytes 10
are read, `storage_len` going below zero. -/
theorem dispatch_strays :
    (ScreenMgr.launched.eventOnUdpRead plainRtp (some (datagram (plainHdr 96)))).call = .noTable ∧
      ¬ SafeDispatch plainRtp .launched (datagram (plainHdr 96)) ∧
      ⟨8, 2, 65532⟩ ∈ (ScreenMgr.launched.eventOnUdpRead plainRtp
        (some (datagram (plainHdr 110 ++ [0, 1, 0, 7])))).reads ∧
      ¬ SafeDispatch plainRtp .launched (datagram (plainHdr 110 ++ [0, 1, 0, 7])) := by
  have htable : (ScreenMgr.launched.eventOnUdpRead plainRtp (some (datagram (plainHdr 96)))).call =
      .noTable := by
    decide +kernel
  have hread : ⟨8, 2, 65532⟩ ∈ (ScreenMgr.launched.eventOnUdpRead plainRtp
      (some (datagram (plainHdr 110 ++ [0, 1, 0, 7])))).reads := by decide +kernel
  refine ⟨htable, fun h => h.table htable, hread, fun h => ?_⟩
  exact absurd (h.payload _ rfl _ hread) (by decide)

end MonitorAgent.L4
