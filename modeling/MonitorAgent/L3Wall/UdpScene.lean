import MonitorAgent.L1Wire.RoomsInfo
import MonitorAgent.L3Wall.Routing

/-!
# Where an RTP datagram goes

`ScreenMgr::UdpParamScene` (Monitor/Monitor/ScreenMgr.cpp:545-585). The SSRC
of a user came through `pj_ntoh_assign`, so it has the order of the host; the
header is used as it was received, so `rtp_hdr->ssrc` has the order of the
network, and a little-endian host looks up the bytes the other way round.

* `delivered_iff`: a datagram with the SSRC of a user on a screen goes to that
  screen exactly if its four bytes are the same read backwards, as long as no
  user gives it up on a screen.
* `ssrc_5_dropped`: a user with SSRC 5 is on a screen, and gets nothing.
-/
namespace MonitorAgent.L3

open LTS BigEndian

/-- mirrors Monitor/Monitor/command.h:56-61 -/
def RTP_MEDIA_AUDIO_TYPE : Nat := 11
def RTP_MEDIA_VIDEO_TYPE : Nat := 29
def RTP_EXPAND_PAYLOAD_TYPE : Nat := 110

def Medium.payloadType : Medium → Nat
  | .audio => RTP_MEDIA_AUDIO_TYPE
  | .video => RTP_MEDIA_VIDEO_TYPE

/-- The fields of `pjmedia_rtp_hdr` that are read. -/
structure RtpHdr where
  pt : Nat
  ssrc : Nat

/-- A header as it was received, its SSRC being these bytes: the field is
loaded by a little-endian host. -/
def receivedHdr (pt : Nat) (ssrc : List UInt8) : RtpHdr := ⟨pt, leValue ssrc⟩

inductive UdpCall
  | dropped
  | natScene
  | mediaScene (medium : Medium) (screen : ScreenRef)
  | noTable
deriving DecidableEq

/-- `media_index` is a `pj_uint8_t`, so for any other payload type it is 255,
never -1, and there is no such table.
mirrors Monitor/Monitor/ScreenMgr.cpp:545-585 -/
def World.udpParamScene (w : World) (hdr : RtpHdr) (storageLen : Nat) : UdpCall :=
  let media (m : Medium) : UdpCall := match w.mediaScreen m hdr.ssrc with
    | some s => .mediaScene m s
    | none => .dropped
  if storageLen = 0 then .dropped
  else if hdr.pt = RTP_EXPAND_PAYLOAD_TYPE then .natScene
  else if hdr.pt = RTP_MEDIA_VIDEO_TYPE then media .video
  else if hdr.pt = RTP_MEDIA_AUDIO_TYPE then media .audio
  else .noTable

theorem udpParamScene_media (w : World) (m : Medium) (ssrc : List UInt8) {n : Nat} (hn : 0 < n)
    (s : ScreenRef) :
    w.udpParamScene (receivedHdr m.payloadType ssrc) n = .mediaScene m s ↔
      (w.avIndexMap m).find? (leValue ssrc) = some s.val := by
  have hlookup : w.mediaScreen m (leValue ssrc) = some s ↔
    (w.avIndexMap m).find? (leValue ssrc) = some s.val := by
    rw [World.mediaScreen]
    cases (w.avIndexMap m).find? (leValue ssrc) with
    | none => simp
    | some idx =>
      simp only [Option.some.injEq]
      split
      · rw [Option.some.injEq, Fin.ext_iff]
      · rename_i hbig
        refine iff_of_false (fun e => nomatch e) ?_
        rintro rfl
        exact hbig s.isLt
  have hcall : w.udpParamScene (receivedHdr m.payloadType ssrc) n =
      match w.mediaScreen m (leValue ssrc) with
      | some s => .mediaScene m s
      | none => .dropped := by
    have h0 : n ≠ 0 := by omega
    cases m <;> simp [World.udpParamScene, receivedHdr, Medium.payloadType, h0,
      RTP_MEDIA_AUDIO_TYPE,
      RTP_MEDIA_VIDEO_TYPE, RTP_EXPAND_PAYLOAD_TYPE]
  rw [hcall, ← hlookup]
  cases w.mediaScreen m (leValue ssrc) with
  | none => simp
  | some s' => simp

/-- The table has an entry for what the header holds exactly if the user on
the screen has an SSRC of which the bytes are the other way round. -/
theorem RoutedAt.lookup_iff {m : Medium} {bs : List UInt8} {w : World}
    (h : RoutedAt m (leValue bs) w)
    {s : ScreenRef} {u : UserRef} (hs : (w.screens s).user = some u)
    (hu : (w.users u).ssrc m = beValue bs) (h0 : 0 < beValue bs) :
    (w.avIndexMap m).find? (leValue bs) = some s.val ↔ leValue bs = beValue bs := by
  rw [h]
  constructor
  · rintro ⟨-, s', hval, u', hs', he⟩
    obtain rfl := Fin.ext hval
    rw [hs] at hs'
    cases hs'
    exact he.symm.trans hu
  · intro he
    rw [he]
    exact ⟨h0, s, rfl, u, hs, hu⟩

/-- The bytes of an SSRC in a frame, as the decoder reads them. -/
theorem decoded_ssrc {mem : L1.Memory} {c : L1.Cursor} {bs : List UInt8}
    (h : L1.Spells mem c.storage bs) (hbs : bs.length = 4) :
    (L1.pjNtohAssign mem 4 c).1 = beValue bs := by
  rw [L1.pjNtohAssign_eq, L1.Memory.value, ← hbs, h]

/-- **Announced SSRCs and datagrams.** No two live users share the SSRC, and
this state of a run has a user on a screen who was announced with it. If the
bytes are the same read backwards and no user has given the SSRC up on a screen,
a datagram with it goes to that screen. Where the number that the host looks up
is not shared or given up either, it goes there only if the bytes are so. -/
theorem delivered_iff {m : Medium} {bs : List UInt8} {w₀ w : World} {ms : List (Move World WallOp)}
    (h0 : w₀.Launched) (hr : wallSys.Run w₀ ms w)
    (hd : ∀ x ∈ visited w₀ ms, DistinctAt m (beValue bs) x) {x : World} (hx : x ∈ visited w₀ ms)
    {mem : L1.Memory} {c : L1.Cursor} (hbs : bs.length = 4) (hmem : L1.Spells mem c.storage bs)
    {u : UserRef} {k : ScreenRef} (hu : (x.screens k).user = some u)
    (hssrc : (x.users u).ssrc m = (L1.pjNtohAssign mem 4 c).1) (hpos : 0 < (x.users u).ssrc m)
    {n : Nat} (hn : 0 < n) :
    ((bs.reverse = bs ∧ ∀ mv ∈ ms, KeepsAt m (beValue bs) mv.src mv.lbl) →
        x.udpParamScene (receivedHdr m.payloadType bs) n = .mediaScene m k) ∧
      ((∀ x ∈ visited w₀ ms, DistinctAt m (leValue bs) x) →
        (∀ mv ∈ ms, KeepsAt m (leValue bs) mv.src mv.lbl) →
        x.udpParamScene (receivedHdr m.payloadType bs) n = .mediaScene m k → bs.reverse = bs) := by
  rw [decoded_ssrc hmem hbs] at hssrc
  have hcall : (∀ x ∈ visited w₀ ms, DistinctAt m (leValue bs) x) →
      (∀ mv ∈ ms, KeepsAt m (leValue bs) mv.src mv.lbl) →
      (x.udpParamScene (receivedHdr m.payloadType bs) n = .mediaScene m k ↔ bs.reverse = bs) := by
    intro hd hk
    have hrun : (wallSys.within (DistinctAt m (leValue bs))).Run w₀ ms w := hr.within hd
    have hinit := (routedAt_guarded m (leValue bs)).init w₀ ⟨h0, hd w₀ List.mem_cons_self⟩
    have hrouted := (routedAt_guarded m (leValue bs)).safe_of hrun hinit hk x hx
    rw [udpParamScene_media x m bs hn, hrouted.lookup_iff hu hssrc (hssrc ▸ hpos),
      leValue_eq_beValue_iff]
  constructor
  · intro ⟨hback, hk⟩
    have hsame : leValue bs = beValue bs := (leValue_eq_beValue_iff bs).mpr hback
    rw [← hsame] at hd hk
    exact (hcall hd hk).mpr hback
  · intro hd hk hcalled
    exact (hcall hd hk).mp hcalled

/-! ## Two runs with one user -/

/-- A frame that holds an SSRC of 4 bytes at offset 20. -/
def ssrcAt20 (bs : List UInt8) : L1.Memory := fun i => (List.replicate 20 0 ++ bs).getD i 0

def announce (ssrc : Nat) : List WallOp := [.addUser 0 7 1, .modUser 0 ssrc 0, .linkScreenUser 3 0]

theorem announced_alone {m : Medium} {key : Nat} {ops : List WallOp}
    (hex : (exec World.wallStep .launched ops).isSome)
    (hn : ∀ x ∈ visited World.launched (moves World.wallStep .launched ops), x.nextUser ≤ 1) :
    ∀ x ∈ visited World.launched (moves World.wallStep .launched ops), DistinctAt m key x := by
  intro x hx
  have hr : wallSys.Run _ _ _ := run_of_exec ops hex
  have hb := bij_inductive.visited hr (.launched World.launched_launched) x hx
  exact (distinct_iff x).mp (distinct_of_single hb (hn x hx)) m key

instance (m : Medium) (ssrc : Nat) (w : World) : (op : WallOp) → Decidable (KeepsAt m ssrc w op)
  | .modUser _ _ _ => inferInstanceAs (Decidable (_ → _ → _ → _))
  | .linkScreenUser _ _ | .unlinkScreenUser _ _ | .connectUser _ _ | .disconnectUser _
  | .cleanScreens | .addUser _ _ _ | .delUser _ _ | .linkRoom _ _ | .onRxNAT _ | .unlinkRoom _ _
  | .onDestory _ | .destory _ => inferInstanceAs (Decidable True)

/-- SSRC 0x01000001 reads the same from both ends. -/
theorem delivered_palindrome :
    ∃ x : World,
    (x.users 0).ssrc .audio = (L1.pjNtohAssign (ssrcAt20 [1, 0, 0, 1]) 4 ⟨20, 28, []⟩).1 ∧
      x.udpParamScene (receivedHdr RTP_MEDIA_AUDIO_TYPE [1, 0, 0, 1]) 172 =
      .mediaScene .audio 3 := by
  have hex : (exec World.wallStep .launched (announce 0x01000001)).isSome := by decide +kernel
  obtain ⟨x, hx⟩ := Option.isSome_iff_exists.mp hex
  have hp : (exec World.wallStep .launched (announce 0x01000001)).map
      (fun x => ((x.screens 3).user, (x.users 0).ssrc .audio)) = some (some 0, 0x01000001) := by
        decide +kernel
  have hr : wallSys.Run _ _ _ := run_of_exec (announce 0x01000001) hex
  simp only [hx, Option.map_some, Option.some.injEq, Prod.mk.injEq, Option.get_some] at hp hr
  have hssrc : (L1.pjNtohAssign (ssrcAt20 [1, 0, 0, 1]) 4 ⟨20, 28, []⟩).1 = 0x01000001 := by decide
  have hlast : x ∈ visited World.launched (moves World.wallStep .launched (announce 0x01000001)) :=
    hr.last_mem
  refine ⟨x, hp.2.trans hssrc.symm, ?_⟩
  have hmem : L1.Spells (ssrcAt20 [1, 0, 0, 1]) 20 [1, 0, 0, 1] := by decide
  have hkeep : ∀ mv ∈ moves World.wallStep .launched (announce 0x01000001),
      KeepsAt .audio (beValue [1, 0, 0, 1]) mv.src mv.lbl := by decide +kernel
  exact (delivered_iff (m := .audio) World.launched_launched hr
    (announced_alone hex (by decide +kernel)) hlast (c := ⟨20, 28, []⟩) rfl hmem hp.1
    (hp.2.trans hssrc.symm) (by rw [hp.2]; decide) (by decide)).1 ⟨rfl, hkeep⟩

/-- SSRC 5 is looked up as 0x05000000. -/
theorem ssrc_5_dropped :
    ∃ x : World, (wallSys.within Distinct).Reachable x ∧ (x.screens 3).user = some 0 ∧
      (x.users 0).ssrc .audio = (L1.pjNtohAssign (ssrcAt20 [0, 0, 0, 5]) 4 ⟨20, 28, []⟩).1 ∧
      x.udpParamScene (receivedHdr RTP_MEDIA_AUDIO_TYPE [0, 0, 0, 5]) 172 = .dropped := by
  have hex : (exec World.wallStep .launched (announce 5)).isSome := by decide +kernel
  obtain ⟨x, hx⟩ := Option.isSome_iff_exists.mp hex
  have hp : (exec World.wallStep .launched (announce 5)).map (fun x =>
    ((x.screens 3).user, (x.users 0).ssrc .audio,
      x.udpParamScene (receivedHdr RTP_MEDIA_AUDIO_TYPE [0, 0, 0, 5]) 172)) =
      some (some 0, 5, .dropped) := by
    decide +kernel
  have hr := run_single (announce 5) hex (by decide +kernel)
  have hssrc : (L1.pjNtohAssign (ssrcAt20 [0, 0, 0, 5]) 4 ⟨20, 28, []⟩).1 = 5 := by decide
  simp only [hx, Option.map_some, Option.some.injEq, Prod.mk.injEq, Option.get_some] at hp hr
  exact ⟨x, ⟨_, _, ⟨World.launched_launched, .launched World.launched_launched⟩, hr⟩, hp.1,
    hp.2.1.trans hssrc.symm, hp.2.2⟩

end MonitorAgent.L3
