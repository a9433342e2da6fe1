import Mathlib.Data.List.Chain
import MonitorAgent.L1Wire.Decoding
import MonitorAgent.L3Wall.VideoStream

/-!
# The numbering that the jitter buffer sees

`OnRxVideo` (Monitor/Monitor/Screen.cpp:211-270) compares `pj_ntohl(hdr->ts)` with
the timestamp of the picture decoded last, and passes `hdr->seq` and `hdr->ts` to
the jitter buffer as they were received. A little-endian host passes them with
their bytes the other way round.

* `receive_puts`: what is passed, for any packets and whatever pjmedia answers.
* `numbering_iff`: the jitter buffer sees the sender's numbering exactly if each
  timestamp reads the same backwards and the numbers go up by 256; of a run that
  is numbered in sequence, if it has one packet, or is 65535 and 0.
* `numbered_1_2`: packets 1 and 2, put as 256 and 512.
-/
namespace MonitorAgent.L3

open BigEndian

/-- A call of `OnRxVideo`. -/
structure VideoPacket where
  frame : L1.Memory
  framelen : Nat

namespace VideoPacket

/-- The sequence number that the sender gave. -/
def wireSeq (p : VideoPacket) : Nat := p.frame.value 2 2

def wireTs (p : VideoPacket) : Nat := p.frame.value 4 4

/-- The bytes of the timestamp. -/
def tsBytes (p : VideoPacket) : List UInt8 := p.frame.bytes 4 4

def hdr (p : VideoPacket) : VideoHdr := videoHdr p.frame

end VideoPacket

section Receive

variable {ρ β κ : Type} (ext : Pjmedia ρ β κ)

/-- Packets one after the other, with what is put for each. -/
def receive (fuel : Nat) : VidStream ρ β κ → List VideoPacket →
    Option (VidStream ρ β κ × List (VideoPacket × PutFrame))
  | s, [] => some (s, [])
  | s, p :: ps =>
    (onRxVideo ext fuel s p.frame p.framelen).bind fun r =>
      (receive fuel r.stream ps).map fun (s', puts) => (s', (r.put.map (p, ·)).toList ++ puts)

/-- The packet gets as far as the jitter buffer, and is not the one that resets it. -/
def isPut (rtp : ρ) (p : VideoPacket) : Bool :=
  p.framelen ≠ 0 && match ext.rtpDecodeRtp rtp p.frame p.framelen with
    | none => false
    | some (_, payloadlen) => payloadlen ≠ 0 && !(ext.rtpSessionUpdate2 rtp p.frame).2

/-- The session after the packet. -/
def rtpAfter (rtp : ρ) (p : VideoPacket) : ρ :=
  if p.framelen = 0 then rtp
  else match ext.rtpDecodeRtp rtp p.frame p.framelen with
    | none => rtp
    | some _ => (ext.rtpSessionUpdate2 rtp p.frame).1

/-- The packets that are put. -/
def putPackets : ρ → List VideoPacket → List VideoPacket
  | _, [] => []
  | rtp, p :: ps =>
    if isPut ext rtp p then p :: putPackets (rtpAfter ext rtp p) ps else
    putPackets (rtpAfter ext rtp p) ps

end Receive

/-- Each number is one more than the one before, modulo 2^16. -/
def InSequence (ps : List VideoPacket) : Prop :=
  (ps.map VideoPacket.wireSeq).IsChain fun a b => b = (a + 1) % 65536

instance (ps : List VideoPacket) : Decidable (InSequence ps) :=
  inferInstanceAs (Decidable (List.IsChain _ _))

/-- The jitter buffer sees the sender's numbering, and timestamps as `OnRxVideo`
compares them. -/
structure SeesNumbering (puts : List (VideoPacket × PutFrame)) : Prop where
  inSequence : (puts.map fun x => x.2.seq).IsChain fun a b => b = (a + 1) % 65536
  sameTs : ∀ x ∈ puts, ∀ y ∈ puts, x.2.ts = y.2.ts ↔ x.1.wireTs = y.1.wireTs
  compared : ∀ x ∈ puts, x.2.ts = pjNtohl x.1.hdr.ts

/-- The number after `a`, if the bytes of both are the other way round. -/
def SwappedNext (a b : Nat) : Prop :=
  b = if a < 65280 then a + 256 else if a < 65535 then a - 65279 else 0

/-- Packets that are numbered as a little-endian host counts. -/
structure NumberedBackwards (ps : List VideoPacket) : Prop where
  ts : ∀ p ∈ ps, p.tsBytes.reverse = p.tsBytes
  seq : (ps.map VideoPacket.wireSeq).IsChain SwappedNext

/-! ## What is put -/

section Receive

variable {ρ β κ : Type} (ext : Pjmedia ρ β κ)

theorem decodePicture_rtp {fuel : Nat} {s : VidStream ρ β κ} {lastTs : UInt32} {cnt : Nat}
    {d : Decoded ρ β κ} (h : decodePicture ext fuel s lastTs cnt = some d) :
    d.stream.rtp = s.rtp := by
  obtain ⟨f, -, he⟩ := Option.map_eq_some_iff.mp h
  rw [← he]

theorem learn_rtp (scanned : Scan) (s : VidStream ρ β κ) : (learn scanned s).rtp = s.rtp := by
  rw [learn]
  split <;> rfl

theorem decodeVidFrame_rtp {fuel : Nat} {s : VidStream ρ β κ} {d : Decoded ρ β κ}
    (h : decodeVidFrame ext fuel s = some d) : d.stream.rtp = s.rtp := by
  obtain ⟨⟨scanned, got⟩, -, hd⟩ := Option.bind_eq_some_iff.mp h
  obtain ⟨d', hd', he⟩ := Option.map_eq_some_iff.mp hd
  rw [← he]
  refine (learn_rtp scanned d'.stream).trans ?_
  cases got with
  | false =>
    cases hd'
    rfl
  | true =>
    simp only [if_true, decodeScanned] at hd'
    split at hd'
    · exact (decodePicture_rtp ext hd').trans rfl
    · exact decodePicture_rtp ext hd'

theorem decodeInto_rtp {fuel : Nat} {s s' : VidStream ρ β κ} (h : decodeInto ext fuel s = some s') :
    s'.rtp = s.rtp := by
  obtain ⟨d, hd, he⟩ := Option.map_eq_some_iff.mp h
  have hrtp := decodeVidFrame_rtp ext hd
  rw [← he]
  split <;> exact hrtp

theorem decodeIfDue_rtp {fuel : Nat} {hdr : VideoHdr} {s s' : VidStream ρ β κ}
    (h : decodeIfDue ext fuel hdr s = some s') : s'.rtp = s.rtp := by
  rw [decodeIfDue] at h
  split at h
  · split at h
    · exact decodeInto_rtp ext h
    · cases h
      rfl
  · cases h
    rfl

theorem paintDecoded_spec (put : Option PutFrame) (s : VidStream ρ β κ) :
    (paintDecoded put s).stream.rtp = s.rtp ∧ (paintDecoded put s).put = put := by
  rw [paintDecoded]
  split <;> exact ⟨rfl, rfl⟩

theorem bufferPayload_spec (restart : Bool) (frame : PutFrame) (s : VidStream ρ β κ) :
    (bufferPayload ext restart frame s).stream.rtp = s.rtp ∧
      (bufferPayload ext restart frame s).put = if restart then none else some frame := by
  cases restart with
  | true => exact paintDecoded_spec _ _
  | false => exact paintDecoded_spec _ _

/-- The sequence number and the timestamp are passed as they were loaded. -/
def PutAsLoaded (p : VideoPacket) (f : PutFrame) : Prop := f.seq = p.hdr.seq.toNat ∧ f.ts = p.hdr.ts

theorem onRxVideo_spec {fuel : Nat} {s : VidStream ρ β κ} {p : VideoPacket} {r : RxVideo ρ β κ}
    (h : onRxVideo ext fuel s p.frame p.framelen = some r) :
    r.stream.rtp = rtpAfter ext s.rtp p ∧ (r.put.isSome = isPut ext s.rtp p) ∧
      ∀ f ∈ r.put, PutAsLoaded p f := by
  rw [onRxVideo] at h
  rw [rtpAfter, isPut]
  by_cases hlen : p.framelen = 0
  · rw [if_pos hlen] at h
    cases h
    simp [hlen]
  · rw [if_neg hlen] at h ⊢
    cases hdec : ext.rtpDecodeRtp s.rtp p.frame p.framelen with
    | none =>
      rw [hdec] at h
      cases h
      obtain ⟨hrtp, hput⟩ := paintDecoded_spec none s
      rw [hrtp, hput]
      simp
    | some payload =>
      obtain ⟨offset, payloadlen⟩ := payload
      rw [hdec] at h
      by_cases hempty : payloadlen = 0
      · simp only [hempty, if_true, Option.some.injEq] at h
        rw [← h]
        simp [hempty]
      · simp only [hempty, if_false] at h
        obtain ⟨s', hdue, he⟩ := Option.map_eq_some_iff.mp h
        obtain ⟨hrtp, hput⟩ := bufferPayload_spec ext (ext.rtpSessionUpdate2 s.rtp p.frame).2
          ⟨p.frame.bytes offset payloadlen, (videoHdr p.frame).seq.toNat, (videoHdr p.frame).ts⟩ s'
        rw [← he, hrtp, hput, decodeIfDue_rtp ext hdue]
        cases (ext.rtpSessionUpdate2 s.rtp p.frame).2 <;> simp [hlen, hempty,
          PutAsLoaded, VideoPacket.hdr]

/-- The packets that are put, and nothing of them is converted. -/
theorem receive_puts {fuel : Nat} {s s' : VidStream ρ β κ} {ps : List VideoPacket}
    {puts : List (VideoPacket × PutFrame)} (h : receive ext fuel s ps = some (s', puts)) :
    puts.map Prod.fst = putPackets ext s.rtp ps ∧ ∀ x ∈ puts, PutAsLoaded x.1 x.2 := by
  induction ps generalizing s puts with
  | nil =>
    cases h
    exact ⟨rfl, fun _ hx => nomatch hx⟩
  | cons p ps ih =>
    obtain ⟨r, hr, hmap⟩ := Option.bind_eq_some_iff.mp h
    obtain ⟨⟨t, rest⟩, hrest, he⟩ := Option.map_eq_some_iff.mp hmap
    cases he
    obtain ⟨hrtp, hput, hloaded⟩ := onRxVideo_spec ext hr
    obtain ⟨hfst, hall⟩ := ih hrest
    rw [hrtp] at hfst
    rw [putPackets, ← hput, ← hfst]
    cases hf : r.put with
    | none => exact ⟨rfl, hall⟩
    | some f =>
      refine ⟨rfl, fun x hx => ?_⟩
      rcases List.mem_cons.mp hx with rfl | hx
      · exact hloaded f hf
      · exact hall x hx

end Receive

/-! ## What the bytes say -/

namespace VideoPacket

theorem wireSeq_lt (p : VideoPacket) : p.wireSeq < 65536 := p.frame.value_lt 2 2

/-- The two bytes of the number, the other way round. -/
theorem hdr_seq (p : VideoPacket) : p.hdr.seq.toNat = p.wireSeq % 256 * 256 + p.wireSeq / 256 := by
  have hbytes : p.frame.bytes 2 2 = [p.frame 2, p.frame 3] := rfl
  have hload : p.frame.load 2 2 = (p.frame 3).toNat * 256 + (p.frame 2).toNat := by
    rw [L1.Memory.load, hbytes, leValue]
    simp [beValue]
  have hwire : p.wireSeq = (p.frame 2).toNat * 256 + (p.frame 3).toNat := by
    rw [wireSeq, L1.Memory.value, hbytes]
    simp [beValue]
  have h2 := (p.frame 2).toNat_lt
  have h3 := (p.frame 3).toNat_lt
  have hhigh : p.wireSeq / 256 = (p.frame 2).toNat := by omega
  have hlow : p.wireSeq % 256 = (p.frame 3).toNat := by omega
  have hlt : (p.frame 3).toNat * 256 + (p.frame 2).toNat < 65536 := by omega
  rw [hdr, videoHdr, hload, hhigh, hlow]
  exact UInt16.toNat_ofNat_of_lt' hlt

theorem hdr_ts (p : VideoPacket) : p.hdr.ts.toNat = leValue p.tsBytes :=
  UInt32.toNat_ofNat_of_lt' (p.frame.load_lt 4 4)

/-- Converted, the timestamp is the one of the sender. -/
theorem pjNtohl_hdr_ts (p : VideoPacket) : (pjNtohl p.hdr.ts).toNat = p.wireTs := by
  have hswap : L1.unserialize 4 p.hdr.ts.toNat = p.wireTs := by
    rw [hdr_ts]
    exact L1.unserialize_load p.frame 4 4
  rw [pjNtohl, hswap]
  exact UInt32.toNat_ofNat_of_lt' (p.frame.value_lt 4 4)

theorem hdr_ts_inj (p q : VideoPacket) : p.hdr.ts = q.hdr.ts ↔ p.wireTs = q.wireTs := by
  have hlen : p.tsBytes.length = q.tsBytes.length := by
    rw [tsBytes, tsBytes, L1.Memory.length_bytes, L1.Memory.length_bytes]
  rw [← UInt32.toNat_inj, hdr_ts, hdr_ts, leValue, leValue, beValue_inj (by simp [hlen]),
    List.reverse_inj]
  exact (beValue_inj hlen).symm

theorem hdr_ts_eq_pjNtohl (p : VideoPacket) :
    p.hdr.ts = pjNtohl p.hdr.ts ↔ p.tsBytes.reverse = p.tsBytes := by
  rw [← UInt32.toNat_inj, pjNtohl_hdr_ts, hdr_ts]
  exact leValue_eq_beValue_iff _

end VideoPacket

theorem two_digits {h l : Nat} (hl : l < 256) :
    (h * 256 + l) % 256 = l ∧ (h * 256 + l) / 256 = h := by
  omega

theorem exists_digits {a : Nat} (ha : a < 65536) : ∃ h l, h < 256 ∧ l < 256 ∧ a = h * 256 + l :=
  ⟨a / 256, a % 256, by omega, by omega, by omega⟩

/-- The number with its bytes the other way round, and one more. -/
theorem swapped_succ {h l : Nat} (hh : h < 256) (hl : l < 256) :
    (l * 256 + h + 1) % 65536 =
      if h < 255 then l * 256 + h + 1 else if l < 255 then (l + 1) * 256 else 0 := by
  split
  · exact Nat.mod_eq_of_lt (by omega)
  · split
    · rw [Nat.mod_eq_of_lt (by omega)]
      omega
    · obtain rfl : h = 255 := by omega
      obtain rfl : l = 255 := by omega
      rfl

/-- With the bytes the other way round, another number is the next one. -/
theorem swappedNext_iff {a b : Nat} (ha : a < 65536) (hb : b < 65536) :
    b % 256 * 256 + b / 256 = (a % 256 * 256 + a / 256 + 1) % 65536 ↔ SwappedNext a b := by
  obtain ⟨ah, al, hah, hal, rfl⟩ := exists_digits ha
  obtain ⟨bh, bl, hbh, hbl, rfl⟩ := exists_digits hb
  clear ha hb
  rw [(two_digits hal).1, (two_digits hal).2, (two_digits hbl).1, (two_digits hbl).2, SwappedNext,
    swapped_succ hah hal]
  by_cases hhigh : ah < 255
  · have hlt : ah * 256 + al < 65280 := by omega
    rw [if_pos hhigh, if_pos hlt]
    omega
  · obtain rfl : ah = 255 := by omega
    have hge : ¬ 255 * 256 + al < 65280 := by omega
    rw [if_neg hhigh, if_neg hge]
    by_cases hlow : al < 255
    · have hlt : 255 * 256 + al < 65535 := by omega
      rw [if_pos hlow, if_pos hlt]
      omega
    · have hge' : ¬ 255 * 256 + al < 65535 := by omega
      rw [if_neg hlow, if_neg hge']
      omega

/-- Numbers that are in sequence, and with their bytes the other way round. -/
theorem swappedNext_inSequence {ns : List Nat} (hlt : ∀ n ∈ ns, n < 65536)
    (hseq : ns.IsChain fun a b => b = (a + 1) % 65536) :
    ns.IsChain SwappedNext ↔ ns.length ≤ 1 ∨ ns = [65535, 0] := by
  cases ns with
  | nil => simp
  | cons a ns =>
    cases ns with
    | nil => simp
    | cons b ns =>
      obtain ⟨hab, hrest⟩ := List.isChain_cons_cons.mp hseq
      have ha : a < 65536 := hlt a (by simp)
      constructor
      · intro h
        obtain ⟨hsw, hswaps⟩ := List.isChain_cons_cons.mp h
        have hwrap : a = 65535 ∧ b = 0 := by
          rw [SwappedNext] at hsw
          split at hsw
          · omega
          · split at hsw <;> omega
        obtain ⟨rfl, rfl⟩ := hwrap
        cases ns with
        | nil => exact .inr rfl
        | cons c ns =>
          -- 1 is next to 0, and 256 would have to be
          have hc := (List.isChain_cons_cons.mp hrest).1
          have hc' := (List.isChain_cons_cons.mp hswaps).1
          rw [SwappedNext, if_pos (by decide)] at hc'
          omega
      · rintro (hlen | he)
        · simp at hlen
        · rw [he]
          simp [SwappedNext]

/-! ## The numbering -/

section Receive

variable {puts : List (VideoPacket × PutFrame)}

theorem inSequence_iff (h : ∀ x ∈ puts, PutAsLoaded x.1 x.2) :
    ((puts.map fun x => x.2.seq).IsChain fun a b => b = (a + 1) % 65536) ↔
      ((puts.map Prod.fst).map VideoPacket.wireSeq).IsChain SwappedNext := by
  have hmap : (puts.map fun x => x.2.seq) =
      (puts.map Prod.fst).map fun p => ((p.wireSeq % 256 * 256 + p.wireSeq / 256 : Nat) : Int) := by
    rw [List.map_map]
    refine List.map_congr_left fun x hx => ?_
    rw [(h x hx).1, VideoPacket.hdr_seq]
    rfl
  rw [hmap]
  refine (List.isChain_map _).trans (Iff.trans ?_ (List.isChain_map _).symm)
  refine List.IsChain.iff fun p q => ?_
  rw [← swappedNext_iff p.wireSeq_lt q.wireSeq_lt]
  omega

theorem seesNumbering_iff (h : ∀ x ∈ puts, PutAsLoaded x.1 x.2) :
    SeesNumbering puts ↔ NumberedBackwards (puts.map Prod.fst) := by
  constructor
  · intro hs
    refine ⟨fun p hp => ?_, (inSequence_iff h).mp hs.inSequence⟩
    obtain ⟨x, hx, rfl⟩ := List.mem_map.mp hp
    exact x.1.hdr_ts_eq_pjNtohl.mp ((h x hx).2.symm.trans (hs.compared x hx))
  · intro hn
    refine ⟨(inSequence_iff h).mpr hn.seq, fun x hx y hy => ?_, fun x hx => ?_⟩
    · rw [(h x hx).2, (h y hy).2]
      exact x.1.hdr_ts_inj y.1
    · exact (h x hx).2.trans (x.1.hdr_ts_eq_pjNtohl.mpr (hn.ts x.1 (List.mem_map_of_mem hx)))

variable {ρ β κ : Type} (ext : Pjmedia ρ β κ)

/-- **The sender's numbering.** For any packets the jitter buffer sees it exactly if
those that are put are numbered backwards; and if all of a run in sequence are put,
exactly if there is one of them, or two numbered 65535 and 0, and each timestamp
reads the same backwards. -/
theorem numbering_iff {fuel : Nat} {s s' : VidStream ρ β κ} {ps : List VideoPacket}
    (h : receive ext fuel s ps = some (s', puts)) :
    (SeesNumbering puts ↔ NumberedBackwards (putPackets ext s.rtp ps)) ∧
      (putPackets ext s.rtp ps = ps → InSequence ps →
        (SeesNumbering puts ↔ (∀ p ∈ ps, p.tsBytes.reverse = p.tsBytes) ∧
          (ps.length ≤ 1 ∨ ps.map VideoPacket.wireSeq = [65535, 0]))) := by
  obtain ⟨hfst, hloaded⟩ := receive_puts ext h
  have hiff := seesNumbering_iff hloaded
  rw [hfst] at hiff
  refine ⟨hiff, fun hall hseq => hiff.trans ?_⟩
  have hlt : ∀ n ∈ ps.map VideoPacket.wireSeq, n < 65536 := by
    intro n hn
    obtain ⟨p, -, rfl⟩ := List.mem_map.mp hn
    exact p.wireSeq_lt
  have hnums := swappedNext_inSequence hlt hseq
  rw [List.length_map] at hnums
  rw [hall]
  exact ⟨fun hb => ⟨hb.ts, hnums.mp hb.seq⟩, fun hb => ⟨hb.1, hnums.mpr hb.2⟩⟩

end Receive

/-! ## Two packets -/

/-- A packet with this number, this timestamp and one byte of payload. -/
def videoPacket (seq ts : List UInt8) : VideoPacket :=
  ⟨fun i => ([128, 29] ++ seq ++ ts ++ [0, 0, 0, 1, 65]).getD i 0, 13⟩

/-- Around the end of the numbers, with a timestamp that reads the same backwards. -/
theorem numbering_iff_wrapped :
    let ps := [videoPacket [255, 255] [1, 2, 2, 1], videoPacket [0, 0] [1, 2, 2, 1]]
    ∃ s puts, receive listPjmedia 2 (preparedStream []) ps = some (s, puts) ∧ puts.length = 2 ∧
      SeesNumbering puts := by
  intro ps
  obtain ⟨⟨s, puts⟩, hr⟩ : ∃ r, receive listPjmedia 2 (preparedStream []) ps = some r :=
    Option.isSome_iff_exists.mp (by decide +kernel)
  have hlen : (receive listPjmedia 2 (preparedStream []) ps).map (·.2.length) = some 2 := by
    decide +kernel
  rw [hr] at hlen
  refine ⟨s, puts, hr, Option.some.inj hlen, ?_⟩
  exact ((numbering_iff listPjmedia hr).2 rfl (by decide)).mpr ⟨by decide, .inr rfl⟩

/-- Packets 1 and 2 are put as 256 and 512. -/
theorem numbered_1_2 :
    let ps := [videoPacket [0, 1] [0, 0, 11, 184], videoPacket [0, 2] [0, 0, 11, 184]]
    InSequence ps ∧ ∃ s puts, receive listPjmedia 2 (preparedStream []) ps = some (s, puts) ∧
      puts.map (·.2.seq) = [256, 512] ∧ ¬ SeesNumbering puts := by
  intro ps
  obtain ⟨⟨s, puts⟩, hr⟩ : ∃ r, receive listPjmedia 2 (preparedStream []) ps = some r :=
    Option.isSome_iff_exists.mp (by decide +kernel)
  have hseq : (receive listPjmedia 2 (preparedStream []) ps).map (·.2.map (·.2.seq)) =
    some [256, 512] := by
    decide +kernel
  rw [hr] at hseq
  have hputs : puts.map (·.2.seq) = [256, 512] := Option.some.inj hseq
  refine ⟨by decide, s, puts, hr, hputs, fun hs => ?_⟩
  have hchain := hs.inSequence
  rw [hputs] at hchain
  exact absurd hchain (by decide)

end MonitorAgent.L3
