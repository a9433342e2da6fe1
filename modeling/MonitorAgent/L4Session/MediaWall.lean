import MonitorAgent.L2Queue.Handling
import MonitorAgent.L3Wall.VideoStream
import MonitorAgent.L4Session.UdpRead

/-!
# From the datagrams to the pictures

All that media pass through: `EventOnUdpRead` looks the screen up,
`AudioScene` and `VideoScene` (Monitor/Monitor/Screen.cpp:181-209) look at
`media_active_` under its lock, copy the datagram and schedule it in the pool
of one thread the screen has for the medium, and that thread calls `OnRxAudio`
or `OnRxVideo`. Meanwhile users come and go: any operation of the wall may
come between any two steps. The copy is not written again, so it is the
datagram itself.

A step is the lookup, the look at `media_active_`, one step of `Schedule`, one
step of a pool's thread, its owner's, or an operation of the wall. A screen that
is looked up under the index 255 is none there is, and ends what the model says
of the network thread (`Udp.strayed`). A worker whose `OnRxVideo` does not
return stays in it.

Results:
* `decoded_in_order`: what a screen has decoded and painted is what `OnRxVideo`
  makes of the datagrams that passed, one after the other, up to a backlog that
  it has still to come to; each carried the SSRC of the user who was on the
  screen when it came in.
* `idle_screen`: while nobody is on a screen nothing passes to it, and it
  paints at most one picture for each datagram in its backlog.
* `late_picture`: a picture may be that of the user before.
-/
namespace MonitorAgent.L4.Media

open MonitorAgent.L2 MonitorAgent.L3 LTS

abbrev Channel := Medium × ScreenRef

/-- Where the network thread stands with a datagram. -/
inductive Udp
  | idle
  | looked (c : Channel) (d : Datagram)
  | active (c : Channel) (d : Datagram)
  | scheduling (c : Channel)
  | strayed

/-- A stream and what it has painted. -/
structure View (ρ β κ : Type) where
  stream : VidStream ρ β κ
  painted : List (Option (List UInt8))

structure St (ρ β κ : Type) where
  mgr : ScreenMgr
  udp : Udp
  pools : Channel → PoolThread Datagram
  views : ScreenRef → View ρ β κ

inductive Label
  | wall (op : WallOp)
  | datagram (d : Datagram)
  | check
  | schedule
  | notify
  | makeHeap (threads : List Nat)
  | worker (c : Channel)
  | spurious (c : Channel)
  | owner (c : Channel)

variable {ρ β κ : Type} (decode : DecodeRtp) (pj : Pjmedia ρ β κ) (fuel : Nat) (wakes : Bool)

/-- `Screen::OnRxVideo` with its `Painting`. -/
def View.onRxVideo (v : View ρ β κ) (d : Datagram) : Option (View ρ β κ) :=
  (L3.onRxVideo pj fuel v.stream d.bytes d.len).map fun r =>
    ⟨r.stream, v.painted ++ r.painted.toList⟩

/-- mirrors Monitor/Monitor/Screen.cpp:192-195,211-270 -/
def View.onRx (m : Medium) (v : View ρ β κ) (d : Datagram) : Option (View ρ β κ) :=
  match m with
  | .audio => some v
  | .video => v.onRxVideo pj fuel d

namespace St

variable (s : St ρ β κ)

/-- A step of the pool of a channel. -/
def onPool (c : Channel) (l : PoolThread.Act Datagram) : Option (St ρ β κ) :=
  ((s.pools c).step wakes l).map fun pool => { s with pools := Function.update s.pools c pool }

/-- mirrors Monitor/Monitor/ScreenMgr.cpp:545-585,651-687 -/
def datagram (d : Datagram) : St ρ β κ :=
  let sent := s.mgr.eventOnUdpRead decode (some d)
  { s with
    mgr := sent.s
    udp := match sent.call with
      | .mediaScene m k => .looked (m, k) d
      | .noTable => .strayed
      | _ => .idle }

/-- mirrors Monitor/Monitor/Screen.cpp:183-187,199-203 -/
def check (c : Channel) (d : Datagram) : St ρ β κ :=
  { s with udp := if (s.mgr.w.screens c.2).mediaActive ∧ 0 < d.len then .active c d else .idle }

/-- The thread runs what it is about to call. -/
def worker (c : Channel) : Option (St ρ β κ) :=
  (((s.pools c).internal 0).calling.foldlM (View.onRx pj fuel c.1) (s.views c.2)).bind fun v =>
    ({ s with views := Function.update s.views c.2 v } : St ρ β κ).onPool wakes c (.worker 0)

def step : Label → Option (St ρ β κ)
  | .wall op => (s.mgr.w.wallStep op).map fun w => { s with mgr := { s.mgr with w := w } }
  | .datagram d => match s.udp with
    | .idle => some (s.datagram decode d)
    | _ => none
  | .check => match s.udp with
    | .looked c d => some (s.check c d)
    | _ => none
  | .schedule => match s.udp with
    | .active c d => (s.onPool wakes c (.schedule d)).map fun s => { s with udp := .scheduling c }
    | _ => none
  | .notify => match s.udp with
    | .scheduling c => s.onPool wakes c .notify
    | _ => none
  | .makeHeap threads => match s.udp with
    | .scheduling c =>
      (s.onPool wakes c (.makeHeap threads)).map fun s => { s with udp := .idle }
    | _ => none
  | .worker c => s.worker pj fuel wakes c
  | .spurious c => s.onPool wakes c (.spurious 0)
  | .owner c => s.onPool wakes c .owner

/-- After `Prepare`, with new pools and nothing painted. -/
structure Launched : Prop where
  wall : s.mgr.w.Launched
  udp : s.udp = .idle
  pools : ∀ c, s.pools c = .new 1
  painted : ∀ k, (s.views k).painted = []

end St

def sys : LTS (St ρ β κ) Label := .ofFn St.Launched fun s => s.step decode pj fuel wakes

section Runs

variable {decode : DecodeRtp} {pj : Pjmedia ρ β κ} {fuel : Nat} {wakes : Bool} {s s' : St ρ β κ}

/-! ## What passes -/

/-- The datagram in the hand of the network thread, on its way to the channel. -/
def Udp.looking (c : Channel) : Udp → List Datagram
  | .looked c' d => if c' = c then [d] else []
  | _ => []

def Udp.passing (c : Channel) : Udp → List Datagram
  | .active c' d => if c' = c then [d] else []
  | _ => []

section Udp

variable (c c' : Channel) (d : Datagram)

@[simp] theorem Udp.passing_idle : Udp.idle.passing c = [] := rfl
@[simp] theorem Udp.passing_looked : (Udp.looked c' d).passing c = [] := rfl
@[simp] theorem Udp.passing_scheduling : (Udp.scheduling c').passing c = [] := rfl
@[simp] theorem Udp.passing_active : (Udp.active c' d).passing c = if c' = c then [d] else [] := rfl
@[simp] theorem Udp.looking_idle : Udp.idle.looking c = [] := rfl
@[simp] theorem Udp.looking_strayed : Udp.strayed.looking c = [] := rfl
@[simp] theorem Udp.looking_active : (Udp.active c' d).looking c = [] := rfl
@[simp] theorem Udp.looking_scheduling : (Udp.scheduling c').looking c = [] := rfl
@[simp] theorem Udp.looking_looked : (Udp.looked c' d).looking c = if c' = c then [d] else [] := rfl

end Udp

/-- What has passed, from the first datagram on. -/
def St.passed (s : St ρ β κ) (c : Channel) : List Datagram :=
  (s.pools c).packages ++ s.udp.passing c

/-- What has passed and is not run. -/
def St.backlog (s : St ρ β κ) (c : Channel) : List Datagram :=
  (s.pools c).backlog 0 ++ s.udp.passing c

/-- The datagram that passes by this move. -/
def passes (c : Channel) (m : Move (St ρ β κ) Label) : Option Datagram :=
  match m.lbl, m.src.udp with
  | .check, .looked c' d =>
    if c' = c ∧ (m.src.mgr.w.screens c.2).mediaActive ∧ 0 < d.len then some d else none
  | _, _ => none

/-- The datagram that comes in by this move, if it is looked up under the SSRC of
the user on the screen. -/
def ofUser (decode : DecodeRtp) (c : Channel) (m : Move (St ρ β κ) Label) : Option Datagram :=
  match m.lbl with
  | .datagram d => match d.packet decode with
    | some pkt =>
      if pkt.hdr.pt = c.1.payloadType ∧
          (m.src.mgr.w.screens c.2).user.any fun u =>
          (m.src.mgr.w.users u).ssrc c.1 = pkt.hdr.ssrc then
        some d
      else none
    | none => none
  | _ => none

/-! ## Steps -/

theorem onPool_eq_some {c : Channel} {l : PoolThread.Act Datagram}
    (h : s.onPool wakes c l = some s') :
    ∃ pool, (s.pools c).step wakes l = some pool ∧
      s' = { s with pools := Function.update s.pools c pool } := by
  obtain ⟨pool, hp, he⟩ := Option.map_eq_some_iff.mp h
  exact ⟨pool, hp, he.symm⟩

theorem onPool_packages {c : Channel} {l : PoolThread.Act Datagram}
    (h : s.onPool wakes c l = some s')
    (c' : Channel) :
    (s'.pools c').packages = (s.pools c').packages ++ if c = c' then
      PoolThread.added l else [] := by
  obtain ⟨pool, hp, rfl⟩ := onPool_eq_some h
  split
  · rename_i he
    subst he
    simpa using PoolThread.packages_step hp
  · rename_i hne
    simp [Function.update_of_ne (Ne.symm hne)]

theorem onPool_ran {c : Channel} {l : PoolThread.Act Datagram} (h : s.onPool wakes c l = some s')
    (c' : Channel) :
    (s'.pools c').ran 0 = (s.pools c').ran 0 ++ if c = c' then (s.pools c).called 0 l else [] := by
  obtain ⟨pool, hp, rfl⟩ := onPool_eq_some h
  split
  · rename_i he
    subst he
    simpa using PoolThread.ran_step hp 0
  · rename_i hne
    simp [Function.update_of_ne (Ne.symm hne)]

/-- What comes in by a datagram, and where it leaves the network thread. -/
theorem datagram_udp (decode : DecodeRtp) (s : St ρ β κ) (d : Datagram) :
    (∃ m k, (s.mgr.eventOnUdpRead decode (some d)).call = .mediaScene m k ∧
      (s.datagram decode d).udp = .looked (m, k) d) ∨
      (s.datagram decode d).udp = .idle ∨ (s.datagram decode d).udp = .strayed := by
  cases hc : (s.mgr.eventOnUdpRead decode (some d)).call with
  | mediaScene m k => exact .inl ⟨m, k, rfl, by simp [St.datagram, hc]⟩
  | dropped => exact .inr (.inl (by simp [St.datagram, hc]))
  | natScene => exact .inr (.inl (by simp [St.datagram, hc]))
  | noTable => exact .inr (.inr (by simp [St.datagram, hc]))

theorem datagram_passing (s : St ρ β κ) (d : Datagram) (c : Channel) :
    (s.datagram decode d).udp.passing c = [] := by
  rcases datagram_udp decode s d with ⟨m, k, -, h⟩ | h | h <;> rw [h] <;> rfl

theorem check_passing (s : St ρ β κ) (c' : Channel) (d : Datagram) (c : Channel) :
    (s.check c' d).udp.passing c =
      (if c' = c ∧ (s.mgr.w.screens c.2).mediaActive ∧ 0 < d.len then some d else none).toList := by
  unfold St.check
  by_cases hc : c' = c
  · subst hc
    by_cases ha : (s.mgr.w.screens c'.2).mediaActive ∧ 0 < d.len <;> simp [ha]
  · split <;> simp [hc]

/-- The step neither looks a datagram up nor lets one pass. -/
def Label.Silent : Label → Prop
  | .wall _ | .datagram _ | .check => False
  | _ => True

theorem passes_silent {l : Label} (hl : l.Silent) (c : Channel) : passes c ⟨s, l, s'⟩ = none := by
  cases l <;> first | rfl | exact hl.elim

/-- What a step is. -/
inductive Stepped (decode : DecodeRtp) (pj : Pjmedia ρ β κ) (fuel : Nat) (wakes : Bool)
    (s : St ρ β κ) : Label → St ρ β κ → Prop
  | wall {op : WallOp} {w : World} (h : s.mgr.w.wallStep op = some w) :
      Stepped decode pj fuel wakes s (.wall op) { s with mgr := { s.mgr with w := w } }
  | datagram {d : Datagram} (h : s.udp = .idle) :
      Stepped decode pj fuel wakes s (.datagram d) (s.datagram decode d)
  | check {c : Channel} {d : Datagram} (h : s.udp = .looked c d) :
      Stepped decode pj fuel wakes s .check (s.check c d)
  | schedule {c : Channel} {d : Datagram} {s₁ : St ρ β κ} (h : s.udp = .active c d)
      (hp : s.onPool wakes c (.schedule d) = some s₁) :
      Stepped decode pj fuel wakes s .schedule { s₁ with udp := .scheduling c }
  | worker {c : Channel} {s' : St ρ β κ} (h : s.worker pj fuel wakes c = some s') :
      Stepped decode pj fuel wakes s (.worker c) s'
  | quiet {l : Label} {c : Channel} {a : PoolThread.Act Datagram} {s₁ : St ρ β κ} {u : Udp}
      (hl : l.Silent) (hp : s.onPool wakes c a = some s₁) (ha : PoolThread.added a = [])
      (hr : (s.pools c).called 0 a = [])
      (hu : ∀ c, u.looking c = s.udp.looking c ∧ u.passing c = s.udp.passing c) :
      Stepped decode pj fuel wakes s l { s₁ with udp := u }

theorem stepped_onPool {l : Label} {c : Channel} {a : PoolThread.Act Datagram} (hl : l.Silent)
    (hp : s.onPool wakes c a = some s') (ha : PoolThread.added a = [])
    (hr : (s.pools c).called 0 a = []) :
    Stepped decode pj fuel wakes s l s' := by
  have hudp : s'.udp = s.udp := by
    obtain ⟨pool, -, rfl⟩ := onPool_eq_some hp
    rfl
  exact .quiet (u := s'.udp) hl hp ha hr fun c => by rw [hudp]; exact ⟨rfl, rfl⟩

theorem step_cases {l : Label} (h : s.step decode pj fuel wakes l = some s') :
    Stepped decode pj fuel wakes s l s' := by
  cases l with
  | wall op =>
    obtain ⟨w, hw, rfl⟩ := Option.map_eq_some_iff.mp h
    exact .wall hw
  | datagram d =>
    simp only [St.step] at h
    split at h
    · cases h; exact .datagram ‹_›
    · cases h
  | check =>
    simp only [St.step] at h
    split at h
    · cases h; exact .check ‹_›
    · cases h
  | schedule =>
    simp only [St.step] at h
    split at h
    · obtain ⟨s₁, hp, rfl⟩ := Option.map_eq_some_iff.mp h
      exact .schedule ‹_› hp
    · cases h
  | notify =>
    simp only [St.step] at h
    split at h
    · exact stepped_onPool trivial h rfl rfl
    · cases h
  | makeHeap threads =>
    simp only [St.step] at h
    split at h
    · rename_i hu
      obtain ⟨s₁, hp, rfl⟩ := Option.map_eq_some_iff.mp h
      exact .quiet trivial hp rfl rfl fun c => by rw [hu]; exact ⟨rfl, rfl⟩
    · cases h
  | worker c => exact .worker h
  | spurious c => exact stepped_onPool trivial h rfl rfl
  | owner c => exact stepped_onPool trivial h rfl rfl

/-- What has passed afterwards. -/
theorem passed_step {l : Label} (h : s.step decode pj fuel wakes l = some s') (c : Channel) :
    s'.passed c = s.passed c ++ (passes c ⟨s, l, s'⟩).toList := by
  cases step_cases h with
  | wall => simp [St.passed, passes]
  | datagram hu =>
    rw [St.passed, St.passed, datagram_passing, hu]
    simp [passes, St.datagram]
  | check hu =>
    rw [St.passed, St.passed, check_passing, hu]
    simp [passes, St.check, hu]
  | schedule hu hp => simp [St.passed, onPool_packages hp, passes, hu, PoolThread.added]
  | worker hw =>
    obtain ⟨v, -, hp⟩ := Option.bind_eq_some_iff.mp hw
    have hpk := onPool_packages hp c
    obtain ⟨pool, -, rfl⟩ := onPool_eq_some hp
    simp [St.passed, hpk, passes, PoolThread.added]
  | quiet hl hp ha _ hu => simp [St.passed, onPool_packages hp, passes_silent hl, ha, (hu c).2]

/-! ## What a screen has decoded -/

theorem udpParamScene_w (mgr : ScreenMgr) (hdr : RtpHdr) (storage : L1.Memory) (n : Nat) :
    (mgr.udpParamScene hdr storage n).s.w = mgr.w := by
  unfold ScreenMgr.udpParamScene
  split
  · unfold ScreenMgr.natScene
    split
    split <;> rfl
  · rfl

theorem eventOnUdpRead_w (decode : DecodeRtp) (mgr : ScreenMgr) (received : Option Datagram) :
    (mgr.eventOnUdpRead decode received).s.w = mgr.w := by
  unfold ScreenMgr.eventOnUdpRead
  split
  · rfl
  · split
    · split
      · rfl
      · split <;> exact udpParamScene_w mgr _ _ _
    · rfl

/-- The wall is as its operations leave it, the pools keep their books, and the
views are what has been run. -/
structure Inv (pj : Pjmedia ρ β κ) (fuel : Nat) (views₀ : ScreenRef → View ρ β κ)
    (s : St ρ β κ) : Prop where
  wall : Bij s.mgr.w
  books : ∀ c, PoolThread.Inv 1 (s.pools c)
  view : ∀ k, ((s.pools (.video, k)).ran 0).foldlM (View.onRxVideo pj fuel) (views₀ k) =
    some (s.views k)

variable {views₀ : ScreenRef → View ρ β κ}

theorem Inv.launched (h : s.Launched) : Inv pj fuel s.views s where
  wall := .launched h.wall
  books c := by
    rw [h.pools]
    exact PoolThread.inv_new 1
  view k := by
    rw [h.pools]
    rfl

theorem Inv.congr (h : Inv pj fuel views₀ s) (hw : s'.mgr.w = s.mgr.w) (hp : s'.pools = s.pools)
    (hv : s'.views = s.views) : Inv pj fuel views₀ s' :=
  ⟨hw ▸ h.wall, hp ▸ h.books, by rw [hp, hv]; exact h.view⟩

theorem books_onPool {c : Channel} {l : PoolThread.Act Datagram}
    (h : ∀ c, PoolThread.Inv 1 (s.pools c))
    (hs : s.onPool wakes c l = some s') (c' : Channel) : PoolThread.Inv 1 (s'.pools c') := by
  obtain ⟨pool, hp, rfl⟩ := onPool_eq_some hs
  by_cases hc : c' = c
  · subst hc
    simpa using PoolThread.inv_step (h c') hp
  · simpa [Function.update_of_ne hc] using h c'

/-- A step of a pool that runs nothing. -/
theorem Inv.onPool (h : Inv pj fuel views₀ s) {c : Channel} {l : PoolThread.Act Datagram}
    (hs : s.onPool wakes c l = some s') (hl : (s.pools c).called 0 l = []) :
    Inv pj fuel views₀ s' := by
  have hbooks := books_onPool h.books hs
  have hran := onPool_ran hs
  obtain ⟨pool, -, rfl⟩ := onPool_eq_some hs
  refine ⟨h.wall, hbooks, fun k => ?_⟩
  rw [hran, hl, ite_self, List.append_nil]
  exact h.view k

/-- `OnRxAudio` leaves the view alone. -/
theorem foldlM_audio (pj : Pjmedia ρ β κ) (fuel : Nat) (ds : List Datagram) (v : View ρ β κ) :
    ds.foldlM (View.onRx pj fuel .audio) v = some v := by
  induction ds with
  | nil => rfl
  | cons d ds ih => simpa [View.onRx] using ih

/-- The worker runs what it was about to call, and the view goes with it. -/
theorem Inv.worker
    (h : Inv pj fuel views₀ s) {c : Channel} (hs : s.worker pj fuel wakes c = some s') :
    Inv pj fuel views₀ s' := by
  obtain ⟨v, hv, hs⟩ := Option.bind_eq_some_iff.mp hs
  have hbooks := books_onPool (s := { s with views := Function.update s.views c.2 v }) h.books hs
  have hran := onPool_ran hs
  obtain ⟨pool, -, rfl⟩ := onPool_eq_some hs
  refine ⟨h.wall, hbooks, fun k => ?_⟩
  rw [hran]
  simp only [PoolThread.called, if_true]
  obtain ⟨m, j⟩ := c
  cases m with
  | audio =>
    obtain rfl : s.views j = v := Option.some.inj ((foldlM_audio pj fuel _ _).symm.trans hv)
    rw [if_neg (by simp), List.append_nil, Function.update_eq_self]
    exact h.view k
  | video =>
    by_cases hk : j = k
    · subst hk
      have hv : ((s.pools (.video, j)).internal 0).calling.foldlM
          (View.onRxVideo pj fuel) (s.views j) = some v := hv
      rw [if_pos rfl, List.foldlM_append, h.view j]
      simpa using hv
    · rw [if_neg (by simpa using hk), List.append_nil]
      simpa [Function.update_of_ne (Ne.symm hk)] using h.view k

theorem Inv.step (h : Inv pj fuel views₀ s) {l : Label}
    (hs : s.step decode pj fuel wakes l = some s') :
    Inv pj fuel views₀ s' := by
  cases step_cases hs with
  | wall hw => exact ⟨bij_inductive.step _ _ _ h.wall hw, h.books, h.view⟩
  | datagram => exact h.congr (eventOnUdpRead_w decode s.mgr _) rfl rfl
  | check => exact h.congr rfl rfl rfl
  | schedule _ hp => exact (h.onPool hp rfl).congr rfl rfl rfl
  | worker hw => exact h.worker hw
  | quiet _ hp _ hr _ => exact (h.onPool hp hr).congr rfl rfl rfl

/-! ## Whose datagrams pass -/

theorem udpParamScene_mediaScene {w : World} {hdr : RtpHdr} {n : Nat} {m : Medium} {k : ScreenRef}
    (h : w.udpParamScene hdr n = .mediaScene m k) :
    hdr.pt = m.payloadType ∧ w.mediaScreen m hdr.ssrc = some k := by
  unfold World.udpParamScene at h
  grind [Medium.payloadType]

/-- A datagram that is looked up is of the medium, and the table has the screen
for its SSRC. -/
theorem eventOnUdpRead_mediaScene {mgr : ScreenMgr} {d : Datagram} {m : Medium} {k : ScreenRef}
    (h : (mgr.eventOnUdpRead decode (some d)).call = .mediaScene m k) :
    ∃ pkt, d.packet decode = some pkt ∧ pkt.hdr.pt = m.payloadType ∧
      mgr.w.mediaScreen m pkt.hdr.ssrc = some k := by
  cases hp : d.packet decode with
  | none =>
    rw [Datagram.packet_none mgr hp] at h
    cases h
  | some pkt =>
    obtain ⟨hlen, hdec⟩ := Datagram.packet_some hp
    have hcall : ∃ n, mgr.w.udpParamScene pkt.hdr n = .mediaScene m k := by
      simp only [ScreenMgr.eventOnUdpRead, if_pos hlen, hdec] at h
      split at h
      · exact ⟨_, (ScreenMgr.udpParamScene_call ..).symm.trans h⟩
      · exact ⟨_, (ScreenMgr.udpParamScene_call ..).symm.trans h⟩
    obtain ⟨n, hcall⟩ := hcall
    exact ⟨pkt, rfl, udpParamScene_mediaScene hcall⟩

/-- What is looked up is of the user on the screen. -/
theorem looking_datagram (hr : Routed s.mgr.w) (d : Datagram) (c : Channel) :
    ((s.datagram decode d).udp.looking c).Sublist
    (ofUser decode c ⟨s, .datagram d, s'⟩).toList := by
  rcases datagram_udp decode s d with ⟨m, k, hc, h⟩ | h | h
  · rw [h, Udp.looking_looked]
    split
    · rename_i he
      subst he
      obtain ⟨pkt, hp, ht, hs⟩ := eventOnUdpRead_mediaScene hc
      obtain ⟨u, hu, hssrc⟩ := hr.mediaScreen hs
      simp [ofUser, hp, ht, hu, hssrc]
    · exact List.nil_sublist _
  · rw [h]
    exact List.nil_sublist _
  · rw [h]
    exact List.nil_sublist _

/-- What passes by a step has been looked up, and what is looked up is of the user. -/
theorem looking_step (hr : Routed s.mgr.w) {l : Label} (h : s.step decode pj fuel wakes l = some s')
    (c : Channel) :
    ((passes c ⟨s, l, s'⟩).toList ++ s'.udp.looking c).Sublist
      (s.udp.looking c ++ (ofUser decode c ⟨s, l, s'⟩).toList) := by
  cases step_cases h with
  | wall => simp [passes]
  | datagram hu => simpa [passes, hu] using looking_datagram hr _ c
  | @check c' d hu =>
    have hidle : (s.check c' d).udp.looking c = [] := by
      unfold St.check
      split <;> rfl
    rw [hidle, hu]
    by_cases hc : c' = c
    · simp only [passes, hu, ofUser, hc, true_and]
      split <;> simp
    · simp [passes, hu, hc]
  | schedule => simp [passes]
  | worker hw =>
    obtain ⟨v, -, hp⟩ := Option.bind_eq_some_iff.mp hw
    obtain ⟨pool, -, rfl⟩ := onPool_eq_some hp
    simp [passes]
  | quiet hl _ _ _ hu => simp [passes_silent hl, (hu c).1]

/-- No two live users share an SSRC, and no user on a screen gives one up. -/
structure Steady (s : St ρ β κ) (ms : List (Move (St ρ β κ) Label)) : Prop where
  distinct : ∀ x ∈ visited s ms, Distinct x.mgr.w
  keeps : ∀ m ∈ ms, ∀ op, m.lbl = .wall op → KeepsSsrcs m.src.mgr.w op

theorem onPool_mgr {c : Channel} {a : PoolThread.Act Datagram} (h : s.onPool wakes c a = some s') :
    s'.mgr = s.mgr := by
  obtain ⟨pool, -, rfl⟩ := onPool_eq_some h
  rfl

theorem routing_step (h : Routing s.mgr.w) {l : Label}
    (hs : s.step decode pj fuel wakes l = some s')
    (hd : Distinct s'.mgr.w) (hk : ∀ op, l = .wall op →
      KeepsSsrcs s.mgr.w op) : Routing s'.mgr.w := by
  cases step_cases hs with
  | wall hw => exact routing_guarded.step _ _ _ h (hk _ rfl) ⟨hw, hd⟩
  | datagram => exact (eventOnUdpRead_w decode s.mgr _).symm ▸ h
  | check => exact h
  | schedule _ hp => exact (onPool_mgr hp).symm ▸ h
  | worker hw =>
    obtain ⟨v, -, hp⟩ := Option.bind_eq_some_iff.mp hw
    exact (onPool_mgr hp).symm ▸ h
  | quiet _ hp _ _ _ => exact (onPool_mgr hp).symm ▸ h

/-! ## Runs -/

variable {t : St ρ β κ} {ms : List (Move (St ρ β κ) Label)}

theorem Inv.visited (h : Inv pj fuel views₀ s) (hr : (sys decode pj fuel wakes).Run s ms t) :
    ∀ x ∈ visited s ms, Inv pj fuel views₀ x := by
  induction hr with
  | nil => simpa [LTS.visited] using h
  | cons hs _ ih =>
    intro x hx
    rcases List.mem_cons.mp hx with rfl | hx
    · exact h
    · exact ih (h.step hs) x (by simpa [LTS.visited] using hx)

theorem Inv.run (h : Inv pj fuel views₀ s) (hr : (sys decode pj fuel wakes).Run s ms t) :
    Inv pj fuel views₀ t := h.visited hr t hr.last_mem

theorem filterMap_cons_toList {α : Type} (f : Move (St ρ β κ) Label → Option α)
    (m : Move (St ρ β κ) Label) : (m :: ms).filterMap f = (f m).toList ++ ms.filterMap f := by
  cases h : f m <;> simp [h]

theorem passed_run (hr : (sys decode pj fuel wakes).Run s ms t) (c : Channel) :
    t.passed c = s.passed c ++ ms.filterMap (passes c) := by
  induction hr with
  | nil => simp
  | cons hs _ ih => rw [ih, passed_step hs, filterMap_cons_toList, List.append_assoc]

theorem looking_run (hr : (sys decode pj fuel wakes).Run s ms t) (h : Routing s.mgr.w)
    (hst : Steady s ms) (c : Channel) :
    (ms.filterMap (passes c) ++ t.udp.looking c).Sublist
      (s.udp.looking c ++ ms.filterMap (ofUser decode c)) := by
  induction hr with
  | nil => simp
  | @cons s s₁ t l ms hs hr ih =>
    have hroute := routing_step h hs (hst.distinct s₁ (by simp [visited]))
      (hst.keeps _ List.mem_cons_self)
    have hrest := ih hroute
      ⟨fun x hx => hst.distinct x (List.mem_cons_of_mem _ hx),
        fun m hm => hst.keeps m (List.mem_cons_of_mem _ hm)⟩
    have hstep := looking_step h.routed hs c
    rw [filterMap_cons_toList, filterMap_cons_toList, List.append_assoc]
    refine ((List.Sublist.refl _).append hrest).trans ?_
    rw [← List.append_assoc, ← List.append_assoc]
    exact hstep.append (List.Sublist.refl _)

/-- What has passed has been run or is in the backlog. -/
theorem passed_eq (h : Inv pj fuel views₀ s) (c : Channel) :
    s.passed c = (s.pools c).ran 0 ++ s.backlog c := by
  rw [St.passed, St.backlog, ← List.append_assoc, PoolThread.ran_append_backlog (h.books c)]

theorem ran_run (hr : (sys decode pj fuel wakes).Run s ms t) (c : Channel) :
    (s.pools c).ran 0 <+: (t.pools c).ran 0 := by
  induction hr with
  | nil => exact List.prefix_rfl
  | @cons s s₁ t l ms hs _ ih =>
    refine List.IsPrefix.trans ?_ ih
    cases step_cases hs with
    | wall => exact List.prefix_rfl
    | datagram => exact List.prefix_rfl
    | check => exact List.prefix_rfl
    | schedule _ hp => exact onPool_ran hp c ▸ List.prefix_append ..
    | worker hw =>
      obtain ⟨v, -, hp⟩ := Option.bind_eq_some_iff.mp hw
      exact onPool_ran hp c ▸ List.prefix_append ..
    | quiet _ hp _ _ _ => exact onPool_ran hp c ▸ List.prefix_append ..

end Runs

section Results

variable {decode : DecodeRtp} {pj : Pjmedia ρ β κ} {fuel : Nat} {wakes : Bool} {s t : St ρ β κ}
  {ms : List (Move (St ρ β κ) Label)}

/-- **A screen decodes what is sent for its user.** No two live users share an
SSRC and none on a screen gives one up. Then, whatever the steps in between: the
datagrams that passed to a screen are, in the order in which they came, some of
those with the SSRC of the user who was on the screen when they came; and what
the screen has decoded and painted is what `OnRxVideo` makes of them, each once
and in this order, but for those in the backlog. -/
theorem decoded_in_order (h0 : s.Launched) (hr : (sys decode pj fuel wakes).Run s ms t)
    (hst : Steady s ms) (k : ScreenRef) :
    ∃ ran, ran.foldlM (View.onRxVideo pj fuel) (s.views k) = some (t.views k) ∧
      ms.filterMap (passes (.video, k)) = ran ++ t.backlog (.video, k) ∧
      (ran ++ t.backlog (.video, k)).Sublist (ms.filterMap (ofUser decode (.video, k))) := by
  have hinit : Inv pj fuel s.views s := .launched h0
  have hi := hinit.run hr
  have hpassed : t.passed (.video, k) = ms.filterMap (passes (.video, k)) := by
    have hnone : s.passed (.video, k) = [] := by
      rw [St.passed, h0.pools, h0.udp]
      rfl
    simpa [hnone] using passed_run hr (.video, k)
  have heq := hpassed.symm.trans (passed_eq hi (.video, k))
  have hdist : Distinct s.mgr.w := hst.distinct s List.mem_cons_self
  have hroute : Routing s.mgr.w :=
    ⟨.launched h0.wall, hdist, fun m ssrc => RoutedAt.launched h0.wall⟩
  have hlook := looking_run hr hroute hst (.video, k)
  rw [h0.udp] at hlook
  refine ⟨_, hi.view k, heq, ?_⟩
  rw [← heq]
  exact (List.sublist_append_left _ _).trans hlook

/-- One datagram, one picture at most. -/
theorem onRxVideo_painted {v v' : View ρ β κ} {d : Datagram} (h : v.onRxVideo pj fuel d = some v') :
    ∃ xs, v'.painted = v.painted ++ xs ∧ xs.length ≤ 1 := by
  obtain ⟨r, -, rfl⟩ := Option.map_eq_some_iff.mp h
  refine ⟨r.painted.toList, rfl, ?_⟩
  cases r.painted <;> simp

theorem foldlM_painted {ds : List Datagram} {v v' : View ρ β κ}
    (h : ds.foldlM (View.onRxVideo pj fuel) v = some v') :
    ∃ xs, v'.painted = v.painted ++ xs ∧ xs.length ≤ ds.length := by
  induction ds generalizing v with
  | nil =>
    cases h
    exact ⟨[], by simp, Nat.le_refl 0⟩
  | cons d ds ih =>
    obtain ⟨v₁, h₁, h⟩ := Option.bind_eq_some_iff.mp h
    obtain ⟨xs, hx, hxl⟩ := onRxVideo_painted h₁
    obtain ⟨ys, hy, hyl⟩ := ih h
    refine ⟨xs ++ ys, by rw [hy, hx, List.append_assoc], ?_⟩
    rw [List.length_append, List.length_cons]
    omega

/-- Nothing passes to a screen that nobody is on. -/
theorem passes_idle {views₀ : ScreenRef → View ρ β κ} (hi : Inv pj fuel views₀ s)
    (hr : (sys decode pj fuel wakes).Run s ms t) {c : Channel}
    (hidle : ∀ x ∈ visited s ms, (x.mgr.w.screens c.2).user = none) :
    ms.filterMap (passes c) = [] := by
  induction hr with
  | nil => rfl
  | @cons s s₁ t l ms hs _ ih =>
    have hrest := ih (hi.step hs) fun x hx => hidle x (List.mem_cons_of_mem _ hx)
    have hoff : (s.mgr.w.screens c.2).mediaActive = false := by
      rw [hi.wall.active, hidle s List.mem_cons_self]
      rfl
    rw [filterMap_cons_toList, hrest]
    simp only [passes, hoff]
    split <;> simp

/-- **A screen without a user.** From any state on, as long as nobody is on a
screen: nothing more passes to it, its thread works off the backlog, and it
paints at most one picture for each datagram that was in there. -/
theorem idle_screen (h : (sys decode pj fuel wakes).Reachable s)
    (hr : (sys decode pj fuel wakes).Run s ms t) {k : ScreenRef}
    (hidle : ∀ x ∈ visited s ms, (x.mgr.w.screens k).user = none) :
    ∃ ran, s.backlog (.video, k) = ran ++ t.backlog (.video, k) ∧
      ran.foldlM (View.onRxVideo pj fuel) (s.views k) = some (t.views k) ∧
      ∃ xs, (t.views k).painted = (s.views k).painted ++ xs ∧
        xs.length + (t.backlog (.video, k)).length ≤ (s.backlog (.video, k)).length := by
  obtain ⟨s₀, ns, h0, hn⟩ := h
  have hinit : Inv pj fuel s₀.views s₀ := .launched h0
  have hs := hinit.run hn
  have ht := hs.run hr
  obtain ⟨ran, hran⟩ := ran_run hr (.video, k)
  have hback : s.backlog (.video, k) = ran ++ t.backlog (.video, k) := by
    have hpassed := passed_run hr (.video, k)
    rw [passes_idle hs hr hidle, List.append_nil, passed_eq ht, passed_eq hs, ← hran,
      List.append_assoc] at hpassed
    exact (List.append_cancel_left hpassed).symm
  have hfold : ran.foldlM (View.onRxVideo pj fuel) (s.views k) = some (t.views k) := by
    have hall := ht.view k
    rw [← hran, List.foldlM_append, hs.view k] at hall
    simpa using hall
  obtain ⟨xs, hx, hxl⟩ := foldlM_painted hfold
  refine ⟨ran, hback, hfold, xs, hx, ?_⟩
  rw [hback, List.length_append]
  omega

end Results

/-! ## Three packets -/

/-- A buffer that is a list, and a codec that shows what it gets. -/
def echoPjmedia : Pjmedia Unit (List JbEntry) Unit :=
  { listPjmedia with
    vidCodecDecode := fun _ given _ frame =>
      ((), { frame with type := .video, buf := some (given.flatMap fun f => f.buf.getD []) },
        true) }

/-- A packet of video with this sequence number, time stamp and SSRC. -/
def videoPacket (seq ts ssrc payload : UInt8) : Datagram :=
  datagram [0x80, 29, 0, seq, 0, 0, 0, ts, 0, 0, 0, ssrc, payload]

abbrev EchoSt := St Unit (List JbEntry) Unit

/-- Nobody on a screen, and nothing in a buffer. -/
def St.launched : EchoSt :=
  ⟨.launched, .idle, fun _ => .new 1, fun _ => ⟨preparedStream [], []⟩⟩

theorem St.launched_launched : St.launched.Launched where
  wall := World.launched_launched
  udp := rfl
  pools _ := rfl
  painted _ := rfl

/-- A datagram comes in, passes and is scheduled. -/
def passOn (d : Datagram) : List Label := [.datagram d, .check, .schedule, .notify, .makeHeap [0]]

/-- User 0 goes on screen 3, and three packets come in for it. -/
def threePackets : List Label :=
  [.owner (.video, 3), .worker (.video, 3), .worker (.video, 3), .wall (.addUser 0 7 1),
    .wall (.modUser 0 0 0x05000000), .wall (.linkScreenUser 3 0)] ++
    passOn (videoPacket 1 1 5 41) ++ passOn (videoPacket 2 2 5 42) ++ passOn (videoPacket 3 3 5 43)

/-- The thread runs three packets. -/
def runThree : List Label :=
  [.worker (.video, 3), .worker (.video, 3), .worker (.video, 3), .worker (.video, 3),
    .worker (.video, 3), .worker (.video, 3), .worker (.video, 3), .worker (.video, 3),
    .worker (.video, 3)]

abbrev echoStep : EchoSt → Label → Option EchoSt :=
  fun s => s.step plainRtp echoPjmedia 10 false

/-- The user leaves and another comes before the packets are run. -/
def changeUser : List Label :=
  [.wall (.disconnectUser 3), .wall (.addUser 0 8 1), .wall (.linkScreenUser 3 1)]

instance (s : EchoSt) : (l : Label) → Decidable (∀ op, l = .wall op → KeepsSsrcs s.mgr.w op)
  | .wall op => decidable_of_iff (KeepsSsrcs s.mgr.w op)
    ⟨fun h _ e => Label.wall.inj e ▸ h, fun h => h op rfl⟩
  | .datagram _ | .check | .schedule | .notify | .makeHeap _ | .worker _ | .spurious _ | .owner _ =>
    .isTrue fun _ e => nomatch e

/-- One user is created. -/
theorem steady_single {ls : List Label} {t : EchoSt}
    (hr : (sys plainRtp echoPjmedia 10 false).Run .launched (moves echoStep .launched ls) t)
    (hn : ∀ x ∈ visited St.launched (moves echoStep .launched ls), x.mgr.w.nextUser ≤ 1)
    (hk : ∀ m ∈ moves echoStep .launched ls, ∀ op, m.lbl = .wall op → KeepsSsrcs m.src.mgr.w op) :
    Steady .launched (moves echoStep .launched ls) where
  distinct x hx :=
    distinct_of_single ((Inv.launched St.launched_launched).visited hr x hx).wall (hn x hx)
  keeps := hk

/-- The first picture is painted once the packets of the next two are there. -/
theorem decoded_in_order_threePackets :
    ∃ (t : EchoSt) (ms : List (Move EchoSt Label)), (t.views 3).painted = [some [41]] ∧
    ∃ ran : List Datagram,
      ran.foldlM (View.onRxVideo echoPjmedia 10) (St.launched.views 3) = some (t.views 3) ∧
      ms.filterMap (passes (.video, 3)) = ran ++ t.backlog (.video, 3) ∧
      (ran ++ t.backlog (.video, 3)).Sublist (ms.filterMap (ofUser plainRtp (.video, 3))) := by
  have hp : (exec echoStep .launched (threePackets ++ runThree)).map (fun t =>
    (t.views 3).painted) =
      some [some [41]] := by decide +kernel
  obtain ⟨t, ht, hp⟩ := Option.map_eq_some_iff.mp hp
  have hr : (sys plainRtp echoPjmedia 10 false).Run _ _ t := run_moves _ ht
  exact ⟨t, _, hp, decoded_in_order St.launched_launched hr
    (steady_single hr (by decide +kernel) (by decide +kernel)) 3⟩

/-- The packets are run after the user has left. -/
theorem idle_screen_threePackets : ∃ s t : EchoSt, (s.backlog (.video, 3)).length = 3 ∧
    (t.views 3).painted = [some [41]] ∧
    ∃ ran, s.backlog (.video, 3) = ran ++ t.backlog (.video, 3) ∧
      ran.foldlM (View.onRxVideo echoPjmedia 10) (s.views 3) = some (t.views 3) ∧
      ∃ xs, (t.views 3).painted = (s.views 3).painted ++ xs ∧
        xs.length + (t.backlog (.video, 3)).length ≤ (s.backlog (.video, 3)).length := by
  have hp : (exec echoStep .launched (threePackets ++ [.wall (.disconnectUser 3)])).map (fun s =>
      decide ((s.backlog (.video, 3)).length = 3 ∧
        (exec echoStep s runThree).map (fun t => (t.views 3).painted) = some [some [41]] ∧
        ∀ x ∈ visited s (moves echoStep s runThree), (x.mgr.w.screens 3).user = none)) =
      some true := by decide +kernel
  obtain ⟨s, hs, hp⟩ := Option.map_eq_some_iff.mp hp
  rw [decide_eq_true_eq] at hp
  obtain ⟨hlen, hrun, hidle⟩ := hp
  obtain ⟨t, ht, hpainted⟩ := Option.map_eq_some_iff.mp hrun
  have hreach : (sys plainRtp echoPjmedia 10 false).Reachable s :=
    reachable_of_exec _ St.launched_launched hs
  exact ⟨s, t, hlen, hpainted, idle_screen hreach (run_moves _ ht) hidle⟩

/-- Everything that passes does so while user 0 is on the screen, and what is
painted then is seen under user 1. -/
theorem late_picture : ∃ t ms, (sys plainRtp echoPjmedia 10 false).Run .launched ms t ∧
    (∀ m ∈ ms, (passes (.video, 3) m).isSome → (m.src.mgr.w.screens 3).user = some 0) ∧
    (t.mgr.w.screens 3).user = some 1 ∧ (t.views 3).painted = [some [41]] := by
  have hp : (exec echoStep .launched (threePackets ++ changeUser ++ runThree)).map
      (fun t => ((t.mgr.w.screens 3).user, (t.views 3).painted)) = some (some 1, [some [41]]) := by
    decide +kernel
  obtain ⟨t, ht, hp⟩ := Option.map_eq_some_iff.mp hp
  rw [Prod.mk.injEq] at hp
  exact ⟨t, _, run_moves _ ht, by decide +kernel, hp⟩

end MonitorAgent.L4.Media
