import MonitorAgent.L1Wire.Announcement
import MonitorAgent.L1Wire.Receiving
import MonitorAgent.L4Session.Peer
import MonitorAgent.L4Session.RoomsInfoScene

/-!
# The client's copy of a proxy's rooms

From the bytes of a connection to the users of its rooms: the event thread reads
and constructs parameters (Monitor/Monitor/ScreenMgr.cpp:587-649,484-543), the
thread of `sync_thread_pool_` runs their scenes one after the other. The two
threads take turns in any order, and the bytes come in any pieces.

The proxy is online and linked under the id its frames carry, and nothing else
happens to it meanwhile. The watch list, which `RoomsInfoScene` tells of each
room, is not part of this state.

* `mirrored`: at every moment the client has heard the first so many of the
  announcements sent, and what it holds of the proxy is what these say. A scene
  that does not return is the last.
* `mirrored_all`: when all is received and run, it is what all of them say.
-/
namespace MonitorAgent.L4.Mirror

open MonitorAgent.L3 LTS L1 TcpStorage

/-! ## The two threads -/

/-- `Maintain` of the scene of a parameter, for `p`.
mirrors Monitor/Monitor/ScreenMgr.cpp:492-535,542 -/
def maintainParameter (w : World) (p : ProxyRef) : Parameter → Option World
  | .resLogin _ => some (w.onRxLogin p).1
  | .roomsInfo _ roomCount rooms => roomsInfoMaintain 256 p roomCount rooms w
  | .modMedia _ roomId userId audioSsrc videoSsrc =>
    modMediaScene w p roomId.toInt userId.toInt audioSsrc.toNat videoSsrc.toNat
  | .addUser _ roomId userId micId => some (addUserScene w p roomId.toInt userId.toInt micId.toNat)
  | .delUser _ roomId userId => delUserScene w p roomId.toInt userId.toInt
  | .keepAlive _ => some w

def tcp : Parameter → TcpParameter
  | .resLogin tcp | .roomsInfo tcp _ _ | .modMedia tcp _ _ _ _ => tcp
  | .addUser tcp _ _ _ | .delUser tcp _ _ | .keepAlive tcp => tcp

/-- A connection, the queue of the scene worker, and the world. `received` logs
the bytes read. -/
structure St where
  conn : Conn
  scenes : List (ProxyRef × Parameter)
  w : World
  stuck : Bool
  received : List UInt8

inductive Act
  | recv (data : List UInt8)
  | worker
deriving DecidableEq

section Step

variable (beyond : Nat → Memory) (getProxy : UInt16 → Option ProxyRef) (s : St)

/-- The proxy whose id is in the frame. mirrors Monitor/Monitor/ScreenMgr.cpp:538-542 -/
def route (param : Parameter) : Option (ProxyRef × Parameter) :=
  (getProxy (tcp param).proxyId).map fun p => (p, param)

/-- Some bytes are read, as many as were asked for at most. -/
def recv (data : List UInt8) : Option St :=
  if 0 < data.length ∧ data.length ≤ MAX_STORAGE_SIZE - s.conn.offset then
    (receive beyond 256 s.conn data).map fun x =>
      { s with
        conn := x.1, scenes := s.scenes ++ x.2.filterMap (route getProxy), received :=
          s.received ++ data }
  else none

/-- A scene that does not return is the last. -/
def work : Option St :=
  match s.stuck, s.scenes with
  | false, (p, param) :: rest => some
    { s with
      w := (maintainParameter s.w p param).getD s.w, scenes := rest, stuck :=
        (maintainParameter s.w p param).isNone }
  | _, _ => none

def step : Act → Option St
  | .recv data => recv beyond getProxy s data
  | .worker => work s

end Step

/-- Nothing received, and nothing to do. -/
structure Idle (s : St) : Prop where
  good : Good s.w
  frames : s.conn.frames = []
  offset : s.conn.offset = 0
  received : s.received = []
  scenes : s.scenes = []
  stuck : s.stuck = false

def sys (beyond : Nat → Memory) (getProxy : UInt16 → Option ProxyRef) : LTS St Act :=
  .ofFn Idle (step beyond getProxy)

/-! ## What announcements say -/

/-- An announcement of one proxy to one client that fits its buffer. -/
def Sent (proxyId clientId : UInt16) : Type :=
  { m : Announcement // (m.encode proxyId clientId).length ≤ MAX_STORAGE_SIZE }

variable {proxyId clientId : UInt16}

namespace Sent

variable (m : Sent proxyId clientId)

def frame : Frame := m.1.frame proxyId clientId m.2

def parameter : Parameter := m.1.parameter proxyId clientId

/-- The announcement, for the rooms of a proxy. -/
def scene : Scene :=
  match m.1 with
  | .roomsInfo rooms => .roomsInfo (rooms.map toldRoom)
  | .modMedia roomId userId audioSsrc videoSsrc =>
    .modMedia roomId.toInt userId.toInt audioSsrc.toNat videoSsrc.toNat
  | .addUser roomId userId micId => .addUser roomId.toInt userId.toInt micId.toNat
  | .delUser roomId userId => .delUser roomId.toInt userId.toInt
  | .keepAlive => .keepAlive

end Sent

/-- What a proxy's announcement does to the copy. No handshake is involved. -/
def hear (a : Peer) (m : Sent proxyId clientId) : Option Peer :=
  a.maintain (fun _ => 0) false m.scene

theorem maintain_hear (a : Peer) (ids : RoomRef → Int) (ok : Bool) (m : Sent proxyId clientId) :
    a.maintain ids ok m.scene = hear a m := by
  obtain ⟨m, hm⟩ := m
  cases m <;> rfl

theorem scene_ne_nat (m : Sent proxyId clientId) : m.scene ≠ .nat := by
  obtain ⟨m, hm⟩ := m
  cases m <;> simp [Sent.scene]

/-- The scene of the parameter is the one the abstract copy knows. -/
theorem maintainParameter_scene (w : World) (p : ProxyRef) (m : Sent proxyId clientId) :
    maintainParameter w p m.parameter = maintain w p m.scene := by
  obtain ⟨m, hm⟩ := m
  cases m with
  | roomsInfo rooms =>
    have hfit :
        (encodeRoomsInfo (Announcement.tcp proxyId clientId (.roomsInfo rooms)) rooms).length ≤
          MAX_STORAGE_SIZE := hm
    have hrooms : rooms.length < 256 := Nat.lt_of_le_of_lt (rooms_le hfit) (by decide)
    refine roomsInfoMaintain_scene p hrooms hrooms (fun x hx => ?_) w
    have := users_le hfit hx
    omega
  | modMedia | addUser | delUser | keepAlive => rfl

/-! ## The stream -/

/-- The frames of some announcements. -/
def frames (ms : List (Sent proxyId clientId)) : List Frame := ms.map Sent.frame

/-- What a frame is decoded to. -/
def decoded (f : Frame) : Option Parameter :=
  ((tcpParamScene (frameMemory f.bytes) 256 f.bytes.length).map fun x => x.1).join

theorem spells_frameMemory (bs : List UInt8) : Spells (frameMemory bs) 0 bs := by
  unfold Spells Memory.bytes
  apply List.ext_getElem
  · simp
  · intro i hi hi'
    simp [frameMemory, List.getD_eq_getElem?_getD, List.getElem?_eq_getElem hi']

theorem decodes_frame (m : Sent proxyId clientId) :
    decoded m.frame = some m.parameter ∧ Decodes 256 m.frame (some m.parameter) := by
  have hd : Decodes 256 m.frame (some m.parameter) := by
    intro mem hmem
    obtain ⟨reads, hr⟩ := Announcement.tcpParamScene_encode m.2 hmem (Nat.le_refl 256)
    have hr' : tcpParamScene mem 256 m.frame.bytes.length = some (some m.parameter, reads) := hr
    rw [hr', Option.map_some]
  refine ⟨?_, hd⟩
  rw [decoded, hd _ (spells_frameMemory _)]
  rfl

theorem filterMap_frames (ms : List (Sent proxyId clientId)) :
    (frames ms).filterMap decoded = ms.map Sent.parameter := by
  induction ms with
  | nil => rfl
  | cons m ms ih =>
    rw [frames, List.map_cons, List.filterMap_cons_some (decodes_frame m).1,
      ← frames, ih, List.map_cons]

theorem filterMap_route {getProxy : UInt16 → Option ProxyRef} {p : ProxyRef}
    (hp : getProxy proxyId = some p) (ms : List (Sent proxyId clientId)) :
    (ms.map Sent.parameter).filterMap (route getProxy) = ms.map fun m => (p, m.parameter) := by
  induction ms with
  | nil => rfl
  | cons m ms ih =>
    have hid : (tcp m.parameter).proxyId = proxyId := by
      obtain ⟨m, hm⟩ := m
      cases m <;> rfl
    have hr : route getProxy m.parameter = some (p, m.parameter) := by rw [route, hid, hp]; rfl
    rw [List.map_cons, List.filterMap_cons_some hr, ih, List.map_cons]

/-- The bytes of the frames are the frames. -/
theorem frame_ext {fs gs : List Frame} (h : fs.map Frame.bytes = gs.map Frame.bytes) : fs = gs := by
  refine List.map_injective_iff.mpr (fun f g hfg => ?_) h
  cases f
  cases g
  cases hfg
  rfl

/-- What was read begins the stream, and no read ended with a length byte that
is lost. -/
def InOrder (t₀ : Storage) (ms : List (Sent proxyId clientId)) (s : St) : Prop :=
  s.received <+: wire (frames ms) ∧ ¬ LoneLengthByte t₀ (frames ms) s.received

/-! ## The two ends -/

/-- `heard` announcements were run, `queued` ones are constructed, and `todo`
are those not received in full. -/
structure Mirrored (p : ProxyRef) (s₀ : St) (heard queued todo : List (Sent proxyId clientId))
    (s : St) : Prop where
  received : s.received = wire (frames (heard ++ queued)) ++ s.conn.buffered
  short : ∀ m ∈ todo.head?, s.conn.buffered.length < m.frame.bytes.length
  scenes : s.scenes = queued.map fun m => (p, m.parameter)
  copy : heard.foldlM hear (peer s₀.w p) = if s.stuck then none else some (peer s.w p)
  others : ∀ q, q ≠ p → Untouched q s₀.w s.w

/-- What else is kept: the buffer, and the world. -/
structure Kept (t₀ : Storage) (s₀ : St) (heard queued todo : List (Sent proxyId clientId))
    (s : St) :
    Prop where
  good : Good s.w
  synced : ∀ rest, s.received ++ rest = wire (frames (heard ++ queued ++ todo)) →
    Synced t₀ (frames (heard ++ queued)) (frames todo) rest s.conn

/-- The client's side of the stream `ms`. -/
def Copies (t₀ : Storage) (p : ProxyRef) (s₀ : St) (ms : List (Sent proxyId clientId)) (s : St) :
    Prop :=
  ∃ heard queued todo, ms = heard ++ queued ++ todo ∧ Mirrored p s₀ heard queued todo s ∧
    Kept t₀ s₀ heard queued todo s

section Run

variable {beyond : Nat → Memory} {getProxy : UInt16 → Option ProxyRef} {p : ProxyRef} {s₀ s s' : St}
  {t₀ : Storage} {ms : List (Sent proxyId clientId)}

@[simp] theorem frames_append (xs ys : List (Sent proxyId clientId)) :
    frames (xs ++ ys) = frames xs ++ frames ys := List.map_append

theorem copies_idle (h : Idle s) (ms : List (Sent proxyId clientId)) :
    Copies s.conn.storage p s ms s := by
  have hbuf : s.conn.buffered = [] := by simp [Conn.buffered, h.offset]
  refine ⟨[], [], ms, rfl, ⟨?_, fun m _ => ?_, h.scenes, ?_, fun q _ => .refl q s.w⟩,
    h.good, fun rest hr => ?_⟩
  · rw [h.received, hbuf]; rfl
  · rw [hbuf]
    exact Nat.lt_of_lt_of_le (by decide) m.frame.min
  · rw [h.stuck]; rfl
  · refine ⟨h.frames, ?_, by rw [h.offset]; exact Nat.zero_le _, fun _ => rfl⟩
    rw [hbuf, List.nil_append]
    rwa [h.received, List.nil_append, List.nil_append, List.nil_append] at hr

/-- A read completes some frames more, and queues their scenes. -/
theorem copies_recv (hp : getProxy proxyId = some p) (h : Copies t₀ p s₀ ms s) {data : List UInt8}
    (hs : recv beyond getProxy s data = some s') (ho : InOrder t₀ ms s') :
    Copies t₀ p s₀ ms s' := by
  obtain ⟨heard, queued, todo, rfl, hm, hk⟩ := h
  unfold recv at hs
  split at hs
  · rename_i hfit
    obtain ⟨⟨conn, params⟩, hx, rfl⟩ := Option.map_eq_some_iff.mp hs
    obtain ⟨⟨rest, hrest⟩, hlone⟩ := ho
    dsimp only at hrest hlone
    have hsync := hk.synced (data ++ rest) (by rw [← List.append_assoc]; exact hrest)
    have hdecodes : ∀ g ∈ frames todo, Decodes 256 g (decoded g) := by
      intro g hg
      obtain ⟨m, -, rfl⟩ := List.mem_map.mp hg
      rw [(decodes_frame m).1]
      exact (decodes_frame m).2
    obtain ⟨conn', xs, todoF, hsplit, hframes, hrec, hev⟩ :=
      receive_spec beyond hsync hfit.1 hfit.2 hdecodes
    obtain ⟨rfl, rfl⟩ := Prod.mk.inj (Option.some.inj (hx.symm.trans hrec))
    obtain ⟨ys, zs, rfl, rfl, rfl⟩ := List.map_eq_append_iff.mp hsplit
    obtain ⟨conn'', hev', hout⟩ := event_spec hsync hfit.1 hfit.2
    obtain rfl := Option.some.inj (hev.symm.trans hev')
    rw [frames_append] at hrest hlone
    rcases hout.cases hrest with ⟨-, done, todoF, hfs, hrcvd, hsync', hpart⟩ | ⟨hl, -⟩
    · have hdone : done = frames (heard ++ queued) ++ frames ys := by
        refine frame_ext ?_
        rw [← hsync'.frames, hframes, hsync.frames, List.map_append]
        rfl
      subst hdone
      have htodo : todoF = frames zs := by
        rw [frames_append ys zs, ← List.append_assoc] at hfs
        exact (List.append_cancel_left hfs).symm
      subst htodo
      refine ⟨heard, queued ++ ys, zs, by simp, ⟨?_, fun m hmz => ?_, ?_, hm.copy, hm.others⟩,
        hk.good, fun rest' hr' => ?_⟩
      · rw [hrcvd, ← frames_append, List.append_assoc]
      · rw [buffered_length conn hsync'.offset]
        refine hpart m.frame ?_
        rw [frames, List.head?_map, hmz]
        rfl
      · change s.scenes ++ ((frames ys).filterMap decoded).filterMap (route getProxy) = _
        rw [hm.scenes, filterMap_frames, filterMap_route hp, List.map_append]
      · have hrest' : rest' = rest := by
          rw [← List.append_assoc heard, List.append_assoc (heard ++ queued),
            frames_append, ← hrest] at hr'
          exact List.append_cancel_left hr'
        rw [hrest', ← List.append_assoc, frames_append]
        exact hsync'
    · exact absurd hl hlone
  · cases hs

/-- The next scene is run, or does not return. -/
theorem copies_work (h : Copies t₀ p s₀ ms s) (hs : work s = some s') : Copies t₀ p s₀ ms s' := by
  obtain ⟨heard, queued, todo, rfl, hm, hk⟩ := h
  unfold work at hs
  split at hs
  · rename_i q param rest hstuck hscenes
    cases queued with
    | nil =>
      rw [hm.scenes] at hscenes
      cases hscenes
    | cons m queued =>
      rw [hm.scenes, List.map_cons] at hscenes
      obtain ⟨hhead, rfl⟩ := List.cons.inj hscenes
      obtain ⟨rfl, rfl⟩ := Prod.mk.inj hhead
      cases hs
      have hlog : heard ++ m :: queued = heard ++ [m] ++ queued := by simp
      have hcopy := hm.copy
      rw [hstuck] at hcopy
      have hserved := maintain_served hk.good p m.scene (fun hn => absurd hn (scene_ne_nat m))
      rw [maintain_hear, ← maintainParameter_scene] at hserved
      generalize maintainParameter s.w p m.parameter = x at hserved ⊢
      generalize hy : hear (peer s.w p) m = y at hserved
      refine ⟨heard ++ [m], queued, todo, by simp, ⟨?_, hm.short, rfl, ?_, fun q hq => ?_⟩,
        ?_, fun rest hr => ?_⟩
      · rw [← hlog]; exact hm.received
      · rw [List.foldlM_append, hcopy]
        cases hserved with
        | none => simp [hy]
        | some hw => simp [hy, hw.peer]
      · cases hserved with
        | none => exact hm.others q hq
        | some hw => exact (hm.others q hq).trans (hw.others q hq)
      · cases hserved with
        | none => exact hk.good
        | some hw => exact hw.good
      · rw [← hlog] at hr ⊢
        exact hk.synced rest hr
  · cases hs

theorem copies_run (hp : getProxy proxyId = some p) {moves : List (Move St Act)}
    (hr : ((sys beyond getProxy).within (InOrder t₀ ms)).Run s moves s')
    (h : Copies t₀ p s₀ ms s) : Copies t₀ p s₀ ms s' := by
  induction hr with
  | nil => exact h
  | @cons x x' _ l _ hst _ ih =>
    obtain ⟨hs, hx⟩ := hst
    refine ih ?_
    cases l with
    | recv data => exact copies_recv hp h hs hx
    | worker => exact copies_work h hs

end Run

/-! ## A run -/

/-- Proxy 0 is online, and the room 5 is linked. -/
def onlineWorld : World :=
  { World.launched with
    rooms := fun r => ⟨r, if r = 5 then some 0 else none, .empty, []⟩
    proxies := fun p =>
      ⟨1, none, 0, .online, if p = 0 then StdMap.empty.insert 5 5 else .empty, []⟩ }

theorem onlineWorld_good : Good onlineWorld where
  bij := .launched ⟨fun _ => ⟨rfl, rfl, rfl⟩, fun _ => rfl, fun _ => rfl, fun _ => rfl⟩
  links := by
    refine ⟨fun p k r hf => ?_, fun r p _ hp => ?_⟩
    · simp only [onlineWorld] at hf ⊢
      split at hf
      · rw [StdMap.find?_insert] at hf
        split at hf
        · rename_i hp hk
          cases hf
          exact ⟨trivial, hk.symm, by rw [hp]; rfl⟩
        · cases hf
      · cases hf
    · simp only [onlineWorld] at hp ⊢
      split at hp
      · rename_i hr
        cases hp
        rw [hr]
        rfl
      · cases hp
  vacant r _ k := rfl

/-- A room with a user, another who comes and starts to send, and the first leaves. -/
def announced : List (Sent 1 10) :=
  [⟨.roomsInfo [⟨5, [⟨9, 1, 0x11, 0x22⟩]⟩], by decide⟩, ⟨.addUser 5 10 2, by decide⟩,
    ⟨.modMedia 5 10 0x33 0x44, by decide⟩, ⟨.delUser 5 9, by decide⟩]

def announcedBytes : List UInt8 := wire (frames announced)

def idleSt : St := ⟨fresh, [], onlineWorld, false, []⟩

theorem idleSt_idle : Idle idleSt := ⟨onlineWorld_good, rfl, rfl, rfl, rfl, rfl⟩

/-- The bytes in three pieces, the worker in between. -/
def pieces : List Act :=
  [.recv (announcedBytes.take 41), .recv ((announcedBytes.drop 41).take 23), .worker,
    .recv (announcedBytes.drop 64), .worker, .worker, .worker]

def oneProxy (id : UInt16) : Option ProxyRef := if id = 1 then some 0 else none

theorem oneProxy_linked : oneProxy 1 = some 0 := by decide

/-- A read that does not end with a 3 loses no length byte. -/
theorem inOrder_of_last {t₀ : Storage} {ms : List (Sent proxyId clientId)} {s : St}
    (h : s.received <+: wire (frames ms)) (hl : s.received.getLast? ≠ some 3) :
    InOrder t₀ ms s := by
  refine ⟨h, ?_⟩
  intro ⟨done, todo, _, hr, _⟩
  rw [hr] at hl
  simp at hl

theorem pieces_inOrder : ∀ x ∈ visited idleSt (moves (step (fun _ _ => 0) oneProxy) idleSt pieces),
    InOrder idleSt.conn.storage announced x := by
  have ho : ∀ x ∈ visited idleSt (moves (step (fun _ _ => 0) oneProxy) idleSt pieces),
      x.received <+: wire (frames announced) ∧ x.received.getLast? ≠ some 3 := by decide +kernel
  intro x hx
  exact inOrder_of_last (ho x hx).1 (ho x hx).2

/-! ## The copy -/

section Copy

variable {beyond : Nat → Memory} {getProxy : UInt16 → Option ProxyRef} {p : ProxyRef}
  {ms : List (Sent proxyId clientId)} {s₀ s : St} {moves : List (Move St Act)}

/-- **The copy.** Whatever pieces the bytes come in and however the threads take
turns, the client has heard the first so many of the announcements, and what it
holds of the proxy is what these say; other proxies are not concerned. -/
theorem mirrored (hp : getProxy proxyId = some p) (h0 : Idle s₀)
    (hr : (sys beyond getProxy).Run s₀ moves s)
    (ho : ∀ x ∈ visited s₀ moves, InOrder s₀.conn.storage ms x) :
    ∃ heard queued todo, ms = heard ++ queued ++ todo ∧ Mirrored p s₀ heard queued todo s := by
  obtain ⟨heard, queued, todo, hms, hm, -⟩ := copies_run hp (hr.within ho) (copies_idle h0 ms)
  exact ⟨heard, queued, todo, hms, hm⟩

theorem mirrored_pieces : ∃ s heard queued todo, announced = heard ++ queued ++ todo ∧
    Mirrored 0 idleSt heard queued todo s ∧ s.received.length = 112 := by
  have hall : (exec (step (fun _ _ => 0) oneProxy) idleSt pieces).map (fun s =>
    s.received.length == 112) =
      some true := by decide +kernel
  obtain ⟨s, he, hlen⟩ := Option.map_eq_some_iff.mp hall
  have hrun : (sys (fun _ _ => 0) oneProxy).Run idleSt _ s := run_moves pieces he
  obtain ⟨heard, queued, todo, hms, hm⟩ := mirrored oneProxy_linked idleSt_idle hrun pieces_inOrder
  exact ⟨s, heard, queued, todo, hms, hm, by simpa using hlen⟩

/-- All is received and run: the copy is what all the announcements say, if the
proxy speaks only of users it has announced. -/
theorem mirrored_all (hp : getProxy proxyId = some p) (h0 : Idle s₀)
    (hr : (sys beyond getProxy).Run s₀ moves s)
    (ho : ∀ x ∈ visited s₀ moves, InOrder s₀.conn.storage ms x)
    (hall : s.received = wire (frames ms)) (hdone : s.scenes = []) {a : Peer}
    (ha : ms.foldlM hear (peer s₀.w p) = some a) : s.stuck = false ∧ peer s.w p = a := by
  obtain ⟨heard, queued, todo, rfl, hm, -⟩ := copies_run hp (hr.within ho) (copies_idle h0 ms)
  have hqueued : queued = [] := by
    have hq := hm.scenes
    rw [hdone] at hq
    exact List.map_eq_nil_iff.mp hq.symm
  subst hqueued
  have htodo : todo = [] := by
    cases todo with
    | nil => rfl
    | cons m todo =>
      have hlen := congrArg List.length (hm.received.symm.trans hall)
      have hs := hm.short m rfl
      simp only [frames_append, wire_append, List.length_append] at hlen
      simp only [frames, List.map_cons, wire_cons, List.length_append] at hlen
      omega
  subst htodo
  have hcopy := hm.copy
  rw [List.append_nil, List.append_nil] at ha
  rw [ha] at hcopy
  cases hstuck : s.stuck with
  | true => rw [hstuck] at hcopy; cases hcopy
  | false =>
    rw [hstuck] at hcopy
    exact ⟨rfl, (Option.some.inj hcopy).symm⟩

theorem mirrored_all_pieces : ∃ s : St, s.stuck = false ∧
    (peer s.w 0).users 5 10 = some ⟨10, 2, 0x33, 0x44⟩ ∧ (peer s.w 0).users 5 9 = none := by
  have hall : (exec (step (fun _ _ => 0) oneProxy) idleSt pieces).map
      (fun s => s.received == wire (frames announced) && s.scenes.isEmpty) =
      some true := by decide +kernel
  obtain ⟨s, he, hend⟩ := Option.map_eq_some_iff.mp hall
  simp only [Bool.and_eq_true, beq_iff_eq, List.isEmpty_iff] at hend
  have hheard : (announced.foldlM hear (peer onlineWorld 0)).map
      (fun a => decide (a.users 5 10 = some ⟨10, 2, 0x33, 0x44⟩ ∧ a.users 5 9 = none)) =
      some true := by
    decide +kernel
  obtain ⟨a, ha, hsay⟩ := Option.map_eq_some_iff.mp hheard
  have hrun : (sys (fun _ _ => 0) oneProxy).Run idleSt _ s := run_moves pieces he
  obtain ⟨hstuck, hcopy⟩ :=
    mirrored_all oneProxy_linked idleSt_idle hrun pieces_inOrder hend.1 hend.2 ha
  refine ⟨s, hstuck, ?_⟩
  rw [hcopy]
  exact of_decide_eq_true hsay

end Copy

end MonitorAgent.L4.Mirror
