import MonitorAgent.Core.ForLoop
import MonitorAgent.L1Wire.Parameter
import MonitorAgent.L3Wall.World

/-!
# The video stream of a screen

`Screen::OnRxVideo` and `Screen::decode_vid_frame`
(Monitor/Monitor/Screen.cpp:211-372). Packets go into a jitter buffer, a picture
comes out of it once a packet of the next one is there, and the codec gets the
packets of the picture through the array `rx_frames`.

pjmedia is not part of the repository: what is called of it is a `Pjmedia`, over
any state of the session, of the jitter buffer and of the codec. The buffer shows
a list of entries, of which the first can be removed.
-/
namespace MonitorAgent.L3

open ForLoop

/-- What a peek finds, `none` being `PJMEDIA_JB_ZERO_EMPTY_FRAME`. -/
inductive JbEntry
  | normal (payload : List UInt8) (seq : Int) (ts : UInt32)
  | missing
deriving DecidableEq

inductive FrameType
  | none
  | video
  | other
deriving DecidableEq

/-- `pjmedia_frame`; `buf` is `none` for `NULL`. -/
structure MediaFrame where
  type : FrameType
  buf : Option (List UInt8)
  size : Nat
  timestamp : UInt64
  bitInfo : UInt32
deriving DecidableEq

/-- `none` and `false` are statuses other than `PJ_SUCCESS`; `rtpDecodeRtp` gives
the offset and the length of the payload, the header being in front;
`rtpSessionUpdate2` says whether the session restarts. -/
structure Pjmedia (ρ β κ : Type) where
  rtpDecodeRtp : ρ → L1.Memory → Nat → Option (Nat × Nat)
  rtpSessionUpdate2 : ρ → L1.Memory → ρ × Bool
  jbufIsFull : β → Bool
  jbufReset : β → β
  jbufPutFrame3 : β → List UInt8 → Int → UInt32 → β
  jbufRemoveFrame : β → Nat → β
  entries : β → List JbEntry
  entries_removeFrame : ∀ jb n, entries (jbufRemoveFrame jb n) = (entries jb).drop n
  vidCodecDecode : κ → List MediaFrame → Nat → MediaFrame → κ × MediaFrame × Bool

/-- `rx_frames` and `rx_frame_cnt`.
mirrors Monitor/Monitor/Screen.cpp:77-79 -/
structure RxFrames where
  cnt : UInt32
  frames : List MediaFrame
  size : frames.length = cnt.toNat

def RxFrames.set (rx : RxFrames) (i : Nat) (frame : MediaFrame) : RxFrames :=
  ⟨rx.cnt, rx.frames.set i frame, by rw [List.length_set, rx.size]⟩

/-- mirrors Monitor/Monitor/Screen.h:31-44 -/
structure VidStream (ρ β κ : Type) where
  rtp : ρ
  jb : β
  codec : κ
  decMaxSize : UInt32
  decFrame : MediaFrame
  rx : RxFrames
  lastDecTs : UInt32
  lastDecSeq : Int

/-! ## Looking for a picture -/

/-- The locals of `decode_vid_frame`. -/
structure Scan where
  lastTs : UInt32
  frmFirstSeq : Int
  frmLastSeq : Int
  cnt : Nat

def Scan.init : Scan := ⟨0, 0, 0, 0⟩

/-- One pass, with what was peeked; it ends the loop with this `got_frame`.
mirrors Monitor/Monitor/Screen.cpp:290-308 -/
def scanStep (s : Scan) : Option JbEntry → Scan × Option Bool
  | some (.normal _ seq ts) =>
    let s := if s.lastTs = 0 then { s with lastTs := ts, frmFirstSeq := seq } else s
    if ts ≠ s.lastTs then (s, some true) else ({ s with frmLastSeq := seq }, none)
  | some .missing => (s, none)
  | none => (s, some false)

/-- `cnt` is `unsigned`.
mirrors Monitor/Monitor/Screen.cpp:281-309 -/
def scan (jb : List JbEntry) : Nat → Scan → Option (Scan × Bool)
  | 0, _ => none
  | fuel + 1, s =>
    match scanStep s jb[s.cnt]? with
    | (s, some got) => some (s, got)
    | (s, none) => scan jb fuel { s with cnt := (s.cnt + 1) % 4294967296 }

section Scan

variable {s s' : Scan} {jb : List JbEntry} {payload : List UInt8} {seq : Int} {ts : UInt32}

theorem scanStep_first (h : s.lastTs = 0) :
    scanStep s (some (.normal payload seq ts)) =
      ({ s with lastTs := ts, frmFirstSeq := seq, frmLastSeq := seq }, none) := by
  simp [scanStep, h]

theorem scanStep_same (h : s.lastTs ≠ 0) (ht : ts = s.lastTs) :
    scanStep s (some (.normal payload seq ts)) = ({ s with frmLastSeq := seq }, none) := by
  simp only [scanStep, if_neg h, ne_eq, ht, not_true_eq_false, if_false]

theorem scanStep_next (h : s.lastTs ≠ 0) (ht : ts ≠ s.lastTs) :
    scanStep s (some (.normal payload seq ts)) = (s, some true) := by
  simp only [scanStep, if_neg h, if_pos ht]

theorem scanStep_cnt (s : Scan) (peeked : Option JbEntry) : (scanStep s peeked).1.cnt = s.cnt := by
  cases peeked with
  | none => rfl
  | some e =>
    cases e with
    | missing => rfl
    | normal payload seq ts =>
      simp only [scanStep]
      split <;> split <;> rfl

theorem scan_more (h : scanStep s jb[s.cnt]? = (s', none)) (fuel : Nat) :
    scan jb (fuel + 1) s = scan jb fuel { s' with cnt := (s'.cnt + 1) % 4294967296 } := by
  rw [scan, h]

theorem scan_stop {got : Bool} (h : scanStep s jb[s.cnt]? = (s', some got)) (fuel : Nat) :
    scan jb (fuel + 1) s = some (s', got) := by
  rw [scan, h]

/-- A pass of the loop for each entry that is counted. -/
theorem scan_cnt_lt {got : Bool} {fuel : Nat} (h : scan jb fuel s = some (s', got)) :
    s'.cnt < s.cnt + fuel := by
  induction fuel generalizing s with
  | zero => cases h
  | succ fuel ih =>
    have hcnt := scanStep_cnt s jb[s.cnt]?
    rcases hstep : scanStep s jb[s.cnt]? with ⟨s₁, _ | got'⟩
    · rw [scan_more hstep] at h
      have hlt := ih h
      have hle := Nat.mod_le (s₁.cnt + 1) 4294967296
      rw [hstep] at hcnt
      simp only [] at hlt hcnt
      omega
    · rw [scan_stop hstep] at h
      cases h
      rw [hstep] at hcnt
      simp only [] at hcnt
      omega

end Scan

/-! ## Decoding it -/

/-- What a pass of the second loop leaves in `rx_frames[i]`.
mirrors Monitor/Monitor/Screen.cpp:328-347 -/
def rxFrame (lastTs : UInt32) : Option JbEntry → MediaFrame
  | some (.normal payload _ _) => ⟨.video, some payload, payload.length, lastTs.toUInt64, 0⟩
  | _ => ⟨.none, none, 0, lastTs.toUInt64, 0⟩

/-- The array, and the indices written so far. -/
structure Filling where
  rx : RxFrames
  written : List Nat

/-- mirrors Monitor/Monitor/Screen.cpp:324-348 -/
def fillFrame (jb : List JbEntry) (lastTs : UInt32) (i : Nat) (f : Filling) : Option Filling :=
  some ⟨f.rx.set i (rxFrame lastTs jb[i]?), f.written ++ [i]⟩

/-- `given` is what the codec got. -/
structure Decoded (ρ β κ : Type) where
  stream : VidStream ρ β κ
  status : PjStatus
  written : List Nat
  given : Option (List MediaFrame)

section Stream

variable {ρ β κ : Type} (ext : Pjmedia ρ β κ)

/-- The array is filled, then read by the codec, then the picture is removed.
mirrors Monitor/Monitor/Screen.cpp:324-360 -/
def decodePicture (fuel : Nat) (s : VidStream ρ β κ) (lastTs : UInt32) (cnt : Nat) :
    Option (Decoded ρ β κ) :=
  (forLoop 4294967296 cnt (fillFrame (ext.entries s.jb) lastTs) fuel 0 ⟨s.rx, []⟩).map fun f =>
    let given := f.rx.frames.take cnt
    let (codec, decFrame, ok) :=
      ext.vidCodecDecode s.codec given (s.decFrame.size % 4294967296) s.decFrame
    { stream := { s with
        rx := f.rx
        codec := codec
        decFrame := if ok then decFrame else { decFrame with type := .none, size := 0 }
        jb := ext.jbufRemoveFrame s.jb cnt }
      status := .success
      written := f.written
      given := some given }

/-- What does not fit into the array is dropped first.
mirrors Monitor/Monitor/Screen.cpp:311-361 -/
def decodeScanned (fuel : Nat) (s : VidStream ρ β κ) (lastTs : UInt32) (cnt : Nat) :
    Option (Decoded ρ β κ) :=
  if s.rx.cnt.toNat < cnt then
    decodePicture ext fuel { s with jb := ext.jbufRemoveFrame s.jb (cnt - s.rx.cnt.toNat) } lastTs
      s.rx.cnt.toNat
  else decodePicture ext fuel s lastTs cnt

/-- mirrors Monitor/Monitor/Screen.cpp:363-369 -/
def learn (scanned : Scan) (s : VidStream ρ β κ) : VidStream ρ β κ :=
  if s.decFrame.type = .video ∧ s.decFrame.size ≠ 0 then
    { s with lastDecSeq := scanned.frmLastSeq, lastDecTs := scanned.lastTs }
  else s

/-- mirrors Monitor/Monitor/Screen.cpp:272-372 -/
def decodeVidFrame (fuel : Nat) (s : VidStream ρ β κ) : Option (Decoded ρ β κ) :=
  (scan (ext.entries s.jb) fuel .init).bind fun (scanned, got) =>
    let decoded := if got then decodeScanned ext fuel s scanned.lastTs scanned.cnt
      else some ⟨s, .enotfound, [], none⟩
    decoded.map fun d => { d with stream := learn scanned d.stream }

/-! ## Receiving a packet -/

/-- The fields of `pjmedia_rtp_hdr` that are read, as a little-endian host loads
them. -/
structure VideoHdr where
  m : Bool
  seq : UInt16
  ts : UInt32

def videoHdr (frame : L1.Memory) : VideoHdr :=
  ⟨128 ≤ frame 1, .ofNat (frame.load 2 2), .ofNat (frame.load 4 4)⟩

def pjNtohl (v : UInt32) : UInt32 := .ofNat (L1.unserialize 4 v.toNat)

/-- What is passed to `pjmedia_jbuf_put_frame3`. -/
structure PutFrame where
  payload : List UInt8
  seq : Int
  ts : UInt32
deriving DecidableEq

/-- `painted` is the buffer that is painted. -/
structure RxVideo (ρ β κ : Type) where
  stream : VidStream ρ β κ
  put : Option PutFrame
  painted : Option (Option (List UInt8))

/-- mirrors Monitor/Monitor/Screen.cpp:242-247 -/
def decodeInto (fuel : Nat) (s : VidStream ρ β κ) : Option (VidStream ρ β κ) :=
  (decodeVidFrame ext fuel { s with decFrame := { s.decFrame with
    size := s.decMaxSize.toNat } }).map fun d =>
    if d.status = .success then d.stream
    else { d.stream with decFrame := { d.stream.decFrame with size := 0 } }

/-- mirrors Monitor/Monitor/Screen.cpp:230-249 -/
def decodeIfDue (fuel : Nat) (hdr : VideoHdr) (s : VidStream ρ β κ) : Option (VidStream ρ β κ) :=
  if pjNtohl hdr.ts ≠ s.decFrame.timestamp.toUInt32 ∨ hdr.m then
    if ext.jbufIsFull s.jb ∨ s.decFrame.size = 0 then decodeInto ext fuel s else some s
  else some s

/-- mirrors Monitor/Monitor/Screen.cpp:264-269 -/
def paintDecoded (put : Option PutFrame) (s : VidStream ρ β κ) : RxVideo ρ β κ :=
  if s.decFrame.type = .video ∧ 0 < s.decFrame.size then
    ⟨{ s with decFrame := { s.decFrame with size := 0 } }, put, some s.decFrame.buf⟩
  else ⟨s, put, none⟩

/-- mirrors Monitor/Monitor/Screen.cpp:252-269 -/
def bufferPayload (restart : Bool) (frame : PutFrame) (s : VidStream ρ β κ) : RxVideo ρ β κ :=
  if restart then paintDecoded none { s with jb := ext.jbufReset s.jb }
  else paintDecoded (some frame)
    { s with jb := ext.jbufPutFrame3 s.jb frame.payload frame.seq frame.ts }

/-- mirrors Monitor/Monitor/Screen.cpp:211-270 -/
def onRxVideo (fuel : Nat) (s : VidStream ρ β κ) (frame : L1.Memory) (framelen : Nat) :
    Option (RxVideo ρ β κ) :=
  if framelen = 0 then some ⟨s, none, none⟩
  else match ext.rtpDecodeRtp s.rtp frame framelen with
    | none => some (paintDecoded none s)
    | some (payload, payloadlen) =>
      let hdr := videoHdr frame
      let (rtp, restart) := ext.rtpSessionUpdate2 s.rtp frame
      let s := { s with rtp := rtp }
      if payloadlen = 0 then some ⟨s, none, none⟩
      else (decodeIfDue ext fuel hdr s).map
        (bufferPayload ext restart ⟨frame.bytes payload payloadlen, hdr.seq.toNat, hdr.ts⟩)

end Stream

/-! ## A buffer that is a list -/

/-- A buffer that is its entries, and a codec that decodes whatever it gets. -/
def listPjmedia : Pjmedia Unit (List JbEntry) Unit where
  rtpDecodeRtp _ _ framelen := some (12, framelen - 12)
  rtpSessionUpdate2 _ _ := ((), false)
  jbufIsFull _ := false
  jbufReset _ := []
  jbufPutFrame3 jb payload seq ts := jb ++ [.normal payload seq ts]
  jbufRemoveFrame jb n := jb.drop n
  entries jb := jb
  entries_removeFrame _ _ := rfl
  vidCodecDecode _ _ _ frame := ((), { frame with type := .video }, true)

/-- A stream as it is prepared, with this in the buffer. -/
def preparedStream (jb : List JbEntry) : VidStream Unit (List JbEntry) Unit where
  rtp := ()
  jb := jb
  codec := ()
  decMaxSize := 400
  decFrame := ⟨.none, none, 0, 0, 0⟩
  rx := ⟨2, [⟨.none, none, 0, 0, 0⟩, ⟨.none, none, 0, 0, 0⟩], rfl⟩
  lastDecTs := 0
  lastDecSeq := 0

end MonitorAgent.L3
