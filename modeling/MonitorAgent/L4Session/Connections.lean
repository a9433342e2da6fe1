import MonitorAgent.Core.Unwinding
import MonitorAgent.L4Session.LinkedProxys
import MonitorAgent.L4Session.Peer

/-!
# Frames and the connections they come over

`TcpParamScene` is not told which connection a frame came over: it looks up the
proxy whose id is in the frame and queues the scene for that one
(Monitor/Monitor/ScreenMgr.cpp:484-543). So a server can have scenes run for
another proxy. Here each queued scene is kept with the connection its frame
came over, and two runs are compared that differ in the frames of one
connection and the scenes that come of them.

* `isolated`: a proxy that none of these scenes is for is left alone, and is
  the same after both runs, as long as no room is in the `rooms_` of two
  proxies.
* `crossed`: a frame that carries the id of another proxy takes that one on,
  and one that does not adds a user to a room the two have in common.

What the other threads call, what comes over the other connections and which
sends succeed is given by the labels, and so is the same in both runs.
-/
namespace MonitorAgent.L4.Connections

open MonitorAgent.L3 LTS

/-- Frames and datagrams received, scenes run, and the calls of other threads.
`conn` is a connection, by its proxy; the scenes of datagrams and of `DiscProxy`
come over none. -/
inductive Act
  | tcpFrame (conn : ProxyRef) (proxyId : Nat) (scene : Scene)
  | udpFrame (proxyId : Nat)
  | worker (conn : Option ProxyRef)
  | eventOnPipe (allocated added : Bool)
  | tcpClosed (conn : ProxyRef)
  | addProxy (id : Nat) (ip : String) (udpPort : Nat)
  | delProxy (proxy : ProxyRef)
  | delAllProxys
  | login (proxy : ProxyRef)
  | linkRoom (proxy : ProxyRef) (room : RoomRef)
  | unlinkRoom (proxy : ProxyRef) (room : RoomRef)
  | linkScreenUser (screenIdx : Nat) (user : UserRef)
  | unlinkScreenUser (screen : ScreenRef) (user : UserRef)
  | cleanScreens
deriving DecidableEq

/-- `sendOk` are the outcomes of the sends of the step. -/
structure Label where
  act : Act
  sendOk : Nat → Bool

/-- `conns` are the connections of the scenes queued. -/
structure St where
  mgr : ScreenMgr
  conns : List (Option ProxyRef)
  stuck : Bool

namespace St

variable (s : St)

def goto (w : World) : St := { s with mgr := { s.mgr with w := w } }

def withSends (ok : Nat → Bool) : St := s.goto { s.mgr.w with sends := 0, sendOk := ok }

/-- mirrors Monitor/Monitor/ScreenMgr.cpp:538-542,556-560 -/
def onFrame (conn : Option ProxyRef) (proxyId : Nat) (scene : Scene) : St :=
  match s.mgr.getProxy proxyId with
  | none => s
  | some p =>
    { s with mgr := { s.mgr with scenes := s.mgr.scenes ++
      [.maintain scene p] }, conns := s.conns ++ [conn] }

/-- mirrors Monitor/Monitor/ScreenMgr.cpp:689-703 -/
def eventOnPipe (allocated added : Bool) : Option St :=
  match s.mgr.pipe with
  | [] => none
  | .connProxy p :: rest =>
    some { s with mgr := { s.mgr with pipe := rest }.connProxy p allocated added }
  | .discProxy p :: rest =>
    some { s with mgr := { s.mgr with pipe := rest }.discProxy p, conns := s.conns ++ [none] }

/-- The next scene, if it came over `conn`. One that does not return is the
last. -/
def work (conn : Option ProxyRef) : Option St :=
  match s.stuck, s.mgr.scenes, s.conns with
  | false, t :: rest, c :: cs =>
    if c = conn then
      some ⟨{ s.mgr with w := (t.run s.mgr.w).getD s.mgr.w, scenes := rest }, cs,
        (t.run s.mgr.w).isNone⟩
    else none
  | _, _, _ => none

def act : Act → Option St
  | .tcpFrame conn proxyId scene =>
    if s.mgr.tcpEv conn = .allocated true ∧ scene ≠ .nat then
    some (s.onFrame (some conn) proxyId scene) else none
  | .udpFrame proxyId => some (s.onFrame none proxyId .nat)
  | .worker conn => s.work conn
  | .eventOnPipe allocated added => s.eventOnPipe allocated added
  | .tcpClosed conn =>
    if s.mgr.tcpEv conn = .allocated true then
    some { s with mgr := ((s.mgr.closeTcp conn).delProxy conn).1 } else none
  | .addProxy id ip udpPort => (s.mgr.addProxy id ip udpPort).map fun x => { s with mgr := x.1 }
  | .delProxy p => if p < s.mgr.nextProxy then some { s with mgr := (s.mgr.delProxy p).1 } else none
  | .delAllProxys => some { s with mgr := s.mgr.delAllProxys }
  | .login p => if p < s.mgr.nextProxy then some (s.goto (s.mgr.w.login p).1) else none
  | .linkRoom p r => if p < s.mgr.nextProxy then some (s.goto (s.mgr.w.linkRoom p r).1) else none
  | .unlinkRoom p r =>
    if (s.mgr.w.rooms r).proxy = some p then some (s.goto (s.mgr.w.unlinkRoom p r).1) else none
  | .linkScreenUser idx u =>
    if (s.mgr.w.users u).alive then (s.mgr.w.linkScreenUser idx (some u)).map s.goto else none
  | .unlinkScreenUser t u =>
    if (s.mgr.w.users u).alive then
    some (s.goto (s.mgr.w.unlinkScreenUser (some t) (some u))) else none
  | .cleanScreens => some (s.goto s.mgr.w.cleanScreens)

def step (l : Label) : Option St := (s.withSends l.sendOk).act l.act

/-- No proxy yet, and nobody told of. -/
structure Launched : Prop where
  world : s.mgr.w.Launched
  proxy : ∀ r, (s.mgr.w.rooms r).proxy = none
  rooms : ∀ p, (s.mgr.w.proxies p).rooms = .empty
  linkedProxys : s.mgr.linkedProxys = .empty
  tcpEv : ∀ p, s.mgr.tcpEv p = .null
  pipe : s.mgr.pipe = []
  scenes : s.mgr.scenes = [] ∧ s.conns = []

/-- The scenes queued, with their connections. -/
def queue : List (SceneTask × Option ProxyRef) := s.mgr.scenes.zip s.conns

/-- The step may link rooms: `LinkRoom`, or the scene of a NAT datagram. -/
def links : Act → Bool
  | .linkRoom _ _ => true
  | .worker _ => match s.mgr.scenes with
    | .maintain .nat _ :: _ => true
    | _ => false
  | _ => false

/-- No scene is queued for `q` of a frame that came over `p`. -/
def Clear (p q : ProxyRef) : Prop := ∀ x ∈ s.queue, x.2 = some p → x.1.proxy ≠ q

/-- A frame over `p` is not routed to `q`. -/
def Spares (p q : ProxyRef) (l : Label) : Prop :=
  match l.act with
  | .tcpFrame conn proxyId _ => conn = p → s.mgr.getProxy proxyId ≠ some q
  | _ => True

end St

def sys : LTS St Label := .ofFn St.Launched St.step

/-- The runs in which no room is ever in the `rooms_` of two proxies. -/
def apartSys : LTS St Label := sys.within fun s => Apart s.mgr.w

/-- A frame over `p`, or a scene that comes of one. -/
def comesOver (p : ProxyRef) (l : Label) : Bool :=
  match l.act with
  | .tcpFrame conn _ _ => conn == p
  | .worker (some conn) => conn == p
  | _ => false

/-! ## The invariant -/

/-- Only objects created are referred to. -/
structure Inv (s : St) : Prop where
  good : Good s.mgr.w
  fresh : ∀ p, s.mgr.nextProxy ≤ p → (s.mgr.w.proxies p).rooms = .empty
  linked : ∀ i p, s.mgr.linkedProxys.find? i = some p → p < s.mgr.nextProxy
  tcpEv : ∀ p, s.mgr.tcpEv p = .allocated true → p < s.mgr.nextProxy
  pipe : ∀ req ∈ s.mgr.pipe, req.proxy < s.mgr.nextProxy
  scenes : ∀ t ∈ s.mgr.scenes, t.proxy < s.mgr.nextProxy
  conns : s.mgr.scenes.length = s.conns.length

namespace Inv

variable {s : St} (h : Inv s)

theorem launched (h : s.Launched) : Inv s where
  good := by
    refine ⟨.launched h.world,
      ⟨fun p k r hf => ?_, fun r p _ hp => ?_⟩, fun r _ k => by rw [h.world.rooms]; rfl⟩
    · rw [h.rooms] at hf; cases hf
    · rw [h.proxy] at hp; cases hp
  fresh p _ := h.rooms p
  linked i p hf := by rw [h.linkedProxys] at hf; cases hf
  tcpEv p hp := by rw [h.tcpEv] at hp; cases hp
  pipe req hr := by rw [h.pipe] at hr; cases hr
  scenes t ht := by rw [h.scenes.1] at ht; cases ht
  conns := by rw [h.scenes.1, h.scenes.2]; rfl

include h

theorem withSends (ok : Nat → Bool) : Inv (s.withSends ok) := by
  have hw : SameWall s.mgr.w (s.withSends ok).mgr.w := ⟨rfl, rfl, rfl, rfl, fun _ => rfl⟩
  exact ⟨(h.good.progress 0 hw rfl (fun _ _ => rfl) rfl).good, h.fresh, h.linked, h.tcpEv, h.pipe,
    h.scenes, h.conns⟩

theorem served {p : ProxyRef} (hp : p < s.mgr.nextProxy) {w : World} {a : Peer}
    (hs : Served p s.mgr.w w a) :
    Inv (s.goto w) :=
  ⟨hs.good, fun q hq => by
    change (w.proxies q).rooms = .empty
    rw [(hs.others q (Nat.ne_of_gt (Nat.lt_of_lt_of_le hp hq))).proxy]
    exact h.fresh q hq, h.linked, h.tcpEv, h.pipe, h.scenes, h.conns⟩

theorem seated {w : World} (hs : Seated s.mgr.w w) (hb : Bij w) : Inv (s.goto w) :=
  ⟨hs.good h.good hb, fun q hq => by
    change (w.proxies q).rooms = .empty
    rw [hs.proxies]
    exact h.fresh q hq, h.linked, h.tcpEv, h.pipe, h.scenes, h.conns⟩

theorem onFrame (conn : Option ProxyRef) (proxyId : Nat) (scene : Scene) :
    Inv (s.onFrame conn proxyId scene) := by
  unfold St.onFrame
  split
  · exact h
  · rename_i p hp
    refine ⟨h.good, h.fresh, h.linked, h.tcpEv, h.pipe, fun t ht => ?_, ?_⟩
    · rcases List.mem_append.mp ht with ht | ht
      · exact h.scenes t ht
      · cases List.mem_singleton.mp ht
        exact h.linked proxyId p hp
    · simp only [List.length_append, h.conns, List.length_singleton]

theorem eventOnPipe {s' : St} {allocated added : Bool}
    (hs : s.eventOnPipe allocated added = some s') : Inv s' := by
  unfold St.eventOnPipe at hs
  split at hs
  · cases hs
  · rename_i p rest hp
    have hlt : p < s.mgr.nextProxy := h.pipe (.connProxy p) (by rw [hp]; exact List.mem_cons_self)
    cases hs
    refine ⟨h.good, h.fresh, h.linked, fun q hq => ?_, fun req hr => h.pipe req ?_, h.scenes,
      h.conns⟩
    · simp only [ScreenMgr.connProxy, Function.update_apply] at hq
      split at hq
      · rename_i he; rw [he]; exact hlt
      · exact h.tcpEv q hq
    · rw [hp]; exact List.mem_cons_of_mem _ hr
  · rename_i p rest hp
    have hlt : p < s.mgr.nextProxy := h.pipe (.discProxy p) (by rw [hp]; exact List.mem_cons_self)
    cases hs
    refine ⟨h.good, h.fresh, h.linked,
      fun q hq => h.tcpEv q ?_, fun req hr => h.pipe req ?_, fun t ht => ?_, ?_⟩
    · simp only [ScreenMgr.discProxy] at hq
      split at hq
      · exact hq
      · rw [Function.update_apply] at hq
        split at hq
        · cases hq
        · exact hq
    · rw [hp]; exact List.mem_cons_of_mem _ hr
    · rcases List.mem_append.mp ht with ht | ht
      · exact h.scenes t ht
      · cases List.mem_singleton.mp ht
        exact hlt
    · simp only [ScreenMgr.discProxy, List.length_append, h.conns, List.length_singleton]

/-- `DelProxy`, from a state like this one. -/
theorem delProxy {p : ProxyRef} (hp : p < s.mgr.nextProxy) :
    Inv { s with mgr := (s.mgr.delProxy p).1 } := by
  unfold ScreenMgr.delProxy
  split
  · exact h
  · refine ⟨h.good, h.fresh, fun i q hq => ?_, h.tcpEv, fun req hr => ?_, h.scenes, h.conns⟩
    · dsimp only at hq
      rw [StdMap.find?_erase] at hq
      split at hq
      · cases hq
      · exact h.linked i q hq
    · rcases List.mem_append.mp hr with hr | hr
      · exact h.pipe req hr
      · cases List.mem_singleton.mp hr
        exact hp

theorem delAllProxys : Inv { s with mgr := s.mgr.delAllProxys } := by
  refine ⟨h.good, h.fresh, (fun i q hq => nomatch hq), h.tcpEv, fun req hr => ?_, h.scenes, h.conns⟩
  rcases List.mem_append.mp hr with hr | hr
  · exact h.pipe req hr
  · obtain ⟨e, he, rfl⟩ := List.mem_map.mp hr
    exact h.linked e.1 e.2 ((s.mgr.linkedProxys.mem_entries_iff e.1 e.2).mp he)

theorem closeTcp (p : ProxyRef) : Inv { s with mgr := s.mgr.closeTcp p } := by
  refine ⟨h.good, h.fresh, h.linked, fun q hq => h.tcpEv q ?_, h.pipe, h.scenes, h.conns⟩
  simp only [ScreenMgr.closeTcp, Function.update_apply] at hq
  split at hq
  · cases hq
  · exact hq

theorem addProxy {id : Nat} {ip : String} {udpPort : Nat} {x : ScreenMgr × ProxyRef}
    (hx : s.mgr.addProxy id ip udpPort = some x) : Inv { s with mgr := x.1 } := by
  unfold ScreenMgr.addProxy at hx
  split at hx
  · cases hx
  · rename_i hn
    cases hx
    have hrooms : ∀ p,
        ((s.mgr.w.modifyProxy s.mgr.nextProxy fun _ =>
          ScreenMgr.newProxy id ip udpPort).proxies p).rooms =
        (s.mgr.w.proxies p).rooms := fun p => by
      rw [World.modifyProxy_proxies]
      split
      · rename_i he; rw [he, h.fresh _ (Nat.le_refl _)]; rfl
      · rfl
    have hw := SameWall.modifyProxy s.mgr.w s.mgr.nextProxy fun _ =>
      ScreenMgr.newProxy id ip udpPort
    refine ⟨⟨h.good.bij.steps hw.steps, h.good.links.congr hrooms (fun _ => rfl) fun _ =>
      rfl, h.good.vacant⟩,
      fun p hp => (hrooms p).trans (h.fresh p (Nat.le_of_succ_le hp)), fun i p hf => ?_, fun p hp =>
      ?_, fun req hr => ?_,
      fun t ht => Nat.lt_succ_of_lt (h.scenes t ht), h.conns⟩
    · dsimp only at hf
      rw [StdMap.find?_insert, hn] at hf
      split at hf
      · cases hf; exact Nat.lt_succ_self _
      · exact Nat.lt_succ_of_lt (h.linked i p hf)
    · dsimp only at hp
      rw [Function.update_apply] at hp
      split at hp
      · cases hp
      · exact Nat.lt_succ_of_lt (h.tcpEv p hp)
    · rcases List.mem_append.mp hr with hr | hr
      · exact Nat.lt_succ_of_lt (h.pipe req hr)
      · cases List.mem_singleton.mp hr
        exact Nat.lt_succ_self _

end Inv

/-! ## What the observer of a proxy sees -/

/-- What a scene of the queue does to the proxy it is for. -/
def runPeer (ids : RoomRef → Int) (ok : Bool) (a : Peer) : SceneTask → Option Peer
  | .maintain scene _ => a.maintain ids ok scene
  | .discProxy _ => some a.destory

/-- A scene that does not return leaves the world as it is. -/
theorem run_served {w : World} (h : Good w) (t : SceneTask)
    (ha : t = .maintain .nat t.proxy → Apart ((t.run w).getD w)) :
    Served t.proxy w ((t.run w).getD w)
      ((runPeer (fun r => (w.rooms r).id) (natsSent w) (peer w t.proxy) t).getD
        (peer w t.proxy)) := by
  have hrel : Option.Rel (Served t.proxy w) (t.run w)
      (runPeer (fun r => (w.rooms r).id) (natsSent w) (peer w t.proxy) t) := by
    cases t with
    | maintain scene p =>
      refine maintain_served h p scene ?_
      rintro rfl
      exact ha rfl
    | discProxy p => exact .some (destory_served h p)
  revert hrel
  generalize t.run w = o
  generalize runPeer _ _ _ t = x
  intro hrel
  cases hrel with
  | none => exact .refl h
  | some hs => exact hs

theorem work_cases {s s' : St} {conn : Option ProxyRef} (h : s.work conn = some s') :
    ∃ t rest cs, s.mgr.scenes = t :: rest ∧ s.conns = conn :: cs ∧
      s' = ⟨{ s.mgr with w := (t.run s.mgr.w).getD s.mgr.w, scenes := rest }, cs,
        (t.run s.mgr.w).isNone⟩ := by
  unfold St.work at h
  split at h
  · rename_i t rest c cs _ hs hc
    split at h
    · rename_i he
      cases h
      exact ⟨t, rest, cs, hs, by rw [hc, he], rfl⟩
    · cases h
  · cases h

theorem Inv.work {s s' : St} (h : Inv s) {conn : Option ProxyRef} (hs : s.work conn = some s')
    (ha : s.links (.worker conn) = true → Apart s'.mgr.w) : Inv s' := by
  obtain ⟨t, rest, cs, hsc, hco, rfl⟩ := work_cases hs
  have ht := h.scenes t (by rw [hsc]; exact List.mem_cons_self)
  have hi := h.served ht (run_served h.good t fun hnat => ha (by rw [St.links, hsc, hnat]))
  refine ⟨hi.good, hi.fresh, h.linked, h.tcpEv, h.pipe, fun t' ht' => h.scenes t' ?_, ?_⟩
  · rw [hsc]; exact List.mem_cons_of_mem _ ht'
  · have hlen := h.conns
    rw [hsc, hco] at hlen
    exact Nat.succ.inj hlen

/-- The calls of other threads keep the invariant. -/
theorem Inv.act {s s' : St} (h : Inv s) {a : Act} (hs : s.act a = some s')
    (ha : s.links a = true → Apart s'.mgr.w) : Inv s' := by
  cases a
  case tcpFrame conn proxyId scene =>
    simp only [St.act] at hs
    split at hs
    · cases hs; exact h.onFrame _ _ _
    · cases hs
  case udpFrame proxyId => cases hs; exact h.onFrame _ _ _
  case worker conn => exact h.work hs ha
  case eventOnPipe allocated added => exact h.eventOnPipe hs
  case tcpClosed conn =>
    simp only [St.act] at hs
    split at hs
    · rename_i hev
      cases hs
      exact (h.closeTcp conn).delProxy (h.tcpEv conn hev)
    · cases hs
  case addProxy id ip udpPort =>
    obtain ⟨x, hx, rfl⟩ := Option.map_eq_some_iff.mp hs
    exact h.addProxy hx
  case delProxy p =>
    simp only [St.act] at hs
    split at hs
    · rename_i hp; cases hs; exact h.delProxy hp
    · cases hs
  case delAllProxys => cases hs; exact h.delAllProxys
  case login p =>
    simp only [St.act] at hs
    split at hs
    · rename_i hp; cases hs; exact h.served hp (login_served h.good p)
    · cases hs
  case linkRoom p r =>
    simp only [St.act] at hs
    split at hs
    · rename_i hp; cases hs; exact h.served hp (linkRoom_served h.good p r (ha rfl))
    · cases hs
  case unlinkRoom p r =>
    simp only [St.act] at hs
    split at hs
    · rename_i hp
      cases hs
      refine h.served ?_ (unlinkRoom_served h.good p hp)
      -- an object not created yet has no rooms
      by_contra hlt
      have hb := h.good.links.back r p trivial hp
      rw [h.fresh p (Nat.le_of_not_lt hlt)] at hb
      cases hb
    · cases hs
  case linkScreenUser idx u =>
    simp only [St.act] at hs
    split at hs
    · rename_i hu
      obtain ⟨w, hw, rfl⟩ := Option.map_eq_some_iff.mp hs
      exact h.seated (Seated.seatFrame.linkScreenUser _ hw) (h.good.bij.steps
        (linkScreenUser_steps h.good.bij idx u hu hw))
    · cases hs
  case unlinkScreenUser t u =>
    simp only [St.act] at hs
    split at hs
    · cases hs
      exact h.seated (Seated.seatFrame.unlinkScreenUser _ _ _) (h.good.bij.steps
        (unlinkScreenUser_steps _ _ _))
    · cases hs
  case cleanScreens =>
    cases hs
    exact h.seated (Seated.seatFrame.cleanScreens _) (h.good.bij.steps (cleanScreens_steps _))

theorem Inv.step {s s' : St} (h : Inv s) {l : Label} (hs : s.step l = some s')
    (ha : s.links l.act = true → Apart s'.mgr.w) : Inv s' :=
  (h.withSends l.sendOk).act hs ha

theorem inv_reachable {s : St} (hr : apartSys.Reachable s) : Inv s :=
  LTS.Inductive.reachable (T := apartSys) ⟨fun _ h0 => .launched h0.1, fun _ _ _ h hs =>
    h.step hs.1 fun _ => hs.2⟩ s hr

/-- As long as no rooms are linked, none is in the `rooms_` of two proxies. -/
theorem Inv.run_apart {s t : St} {ms : List (Move St Label)} (h : Inv s) (hr : sys.Run s ms t)
    (hl : ∀ m ∈ ms, m.src.links m.lbl.act = false) : apartSys.Run s ms t := by
  induction hr with
  | nil => exact .nil _
  | @cons s s₁ t l ms hst _ ih =>
    have hfalse := hl _ List.mem_cons_self
    have h₁ := h.step hst fun ht => by rw [hfalse] at ht; cases ht
    exact .cons ⟨hst, h₁.good.apart⟩ (ih h₁ fun m hm => hl m (List.mem_cons_of_mem _ hm))

/-- Everything that has to do with `q`, or decides which proxy a frame is for.
Of the scenes queued those of frames over `p` are not seen. -/
@[ext] structure Seen where
  linkedProxys : StdMap Nat ProxyRef
  nextProxy : ProxyRef
  tcpEv : ProxyRef → TcpEv
  pipe : List PipeRequest
  proxyIds : ProxyRef → Nat
  roomIds : RoomRef → Int
  queue : List (SceneTask × Option ProxyRef)
  peer : Peer

def St.seen (p q : ProxyRef) (s : St) : Seen where
  linkedProxys := s.mgr.linkedProxys
  nextProxy := s.mgr.nextProxy
  tcpEv := s.mgr.tcpEv
  pipe := s.mgr.pipe
  proxyIds := s.mgr.id
  roomIds r := (s.mgr.w.rooms r).id
  queue := s.queue.filter fun x => x.2 ≠ some p
  peer := peer s.mgr.w q

namespace Seen

variable (q : ProxyRef) (v : Seen)

def onFrame (conn : Option ProxyRef) (proxyId : Nat) (scene : Scene) : Seen :=
  match v.linkedProxys.find? proxyId with
  | none => v
  | some r => { v with queue := v.queue ++ [(.maintain scene r, conn)] }

def delProxy (r : ProxyRef) : Seen :=
  match v.linkedProxys.find? (v.proxyIds r) with
  | none => v
  | some _ => { v with
      linkedProxys := v.linkedProxys.erase (v.proxyIds r)
      pipe := v.pipe ++ [.discProxy r] }

def eventOnPipe (allocated added : Bool) : Seen :=
  match v.pipe with
  | [] => v
  | .connProxy r :: rest => { v with
      pipe := rest
      tcpEv := Function.update v.tcpEv r (if allocated then .allocated added else .null) }
  | .discProxy r :: rest => { v with
      pipe := rest
      tcpEv := if v.tcpEv r = .null then v.tcpEv else Function.update v.tcpEv r .freed
      queue := v.queue ++ [(.discProxy r, none)] }

def addProxy (id : Nat) : Seen :=
  match v.linkedProxys.find? id with
  | some _ => v
  | none => { v with
      linkedProxys := v.linkedProxys.insert id v.nextProxy
      nextProxy := v.nextProxy + 1
      tcpEv := Function.update v.tcpEv v.nextProxy .null
      pipe := v.pipe ++ [.connProxy v.nextProxy]
      proxyIds := Function.update v.proxyIds v.nextProxy id }

def delAllProxys : Seen :=
  { v with
    linkedProxys := .empty
    pipe := v.pipe ++ v.linkedProxys.entries.map fun e => .discProxy e.2 }

/-- A call on `r`. -/
def call (r : ProxyRef) (f : Peer → Peer) : Seen :=
  { v with peer := if r = q then f v.peer else v.peer }

def work (nats : Bool) : Seen :=
  match v.queue with
  | [] => v
  | (t, _) :: rest =>
    ({ v with queue := rest }).call q t.proxy fun a => (runPeer v.roomIds nats a t).getD a

/-- What is seen goes on by itself. -/
def act (login nats : Bool) : Act → Seen
  | .tcpFrame conn proxyId scene => v.onFrame (some conn) proxyId scene
  | .udpFrame proxyId => v.onFrame none proxyId .nat
  | .worker _ => v.work q nats
  | .eventOnPipe allocated added => v.eventOnPipe allocated added
  | .tcpClosed conn => ({ v with tcpEv := Function.update v.tcpEv conn .null }).delProxy conn
  | .addProxy id _ _ => v.addProxy id
  | .delProxy r => v.delProxy r
  | .delAllProxys => v.delAllProxys
  | .login r => v.call q r (·.login login)
  | .linkRoom r room => v.call q r (·.linkRoom (v.roomIds room) room)
  | .unlinkRoom r room => v.call q r (·.unlinkRoom (v.roomIds room))
  | .linkScreenUser _ _ | .unlinkScreenUser _ _ | .cleanScreens => v

end Seen

section Seen

variable {p q : ProxyRef} {s : St}

theorem seen_served {r : ProxyRef} {w : World} {f : Peer → Peer}
    (hs : Served r s.mgr.w w (f (peer s.mgr.w r))) :
    (s.goto w).seen p q = (s.seen p q).call q r f := by
  refine Seen.ext rfl rfl rfl rfl (funext hs.names.proxyId) (funext hs.names.roomId) rfl ?_
  change peer w q = if r = q then f (peer s.mgr.w q) else peer s.mgr.w q
  split
  · rename_i he
    rw [← he, hs.peer]
  · rename_i he
    exact (hs.others q (Ne.symm he)).peer

theorem seen_seated {w : World} (hs : Seated s.mgr.w w) : (s.goto w).seen p q = s.seen p q := by
  refine Seen.ext rfl rfl rfl rfl (funext fun r => ?_) (funext fun r => ?_) rfl (hs.peer q)
  · change (w.proxies r).id = (s.mgr.w.proxies r).id
    rw [hs.proxies]
  · change (w.rooms r).id = (s.mgr.w.rooms r).id
    rw [hs.rooms]

theorem seen_withSends (ok : Nat → Bool) : (s.withSends ok).seen p q = s.seen p q := rfl

variable (h : Inv s)
include h

/-- A scene is queued. -/
theorem seen_queue (t : SceneTask) (conn : Option ProxyRef) (hc : conn ≠ some p) :
    ((s.mgr.scenes ++ [t]).zip (s.conns ++ [conn])).filter (fun x => decide (x.2 ≠ some p)) =
      (s.queue.filter fun x => x.2 ≠ some p) ++ [(t, conn)] := by
  rw [List.zip_append h.conns, List.filter_append]
  simp [St.queue, hc]

theorem seen_onFrame {conn : Option ProxyRef} (proxyId : Nat) (scene : Scene) (hc : conn ≠ some p) :
    (s.onFrame conn proxyId scene).seen p q = (s.seen p q).onFrame conn proxyId scene := by
  unfold St.onFrame Seen.onFrame ScreenMgr.getProxy
  change _ = match s.mgr.linkedProxys.find? proxyId with
    | none => s.seen p q
    | some r => { s.seen p q with queue := (s.seen p q).queue ++
        [(SceneTask.maintain scene r, conn)] }
  split
  · rfl
  · exact Seen.ext rfl rfl rfl rfl rfl rfl (seen_queue h _ conn hc) rfl

/-- A frame over `p` is not seen. -/
theorem seen_onFrame_over (proxyId : Nat) (scene : Scene) :
    (s.onFrame (some p) proxyId scene).seen p q = s.seen p q := by
  unfold St.onFrame
  split
  · rfl
  · refine Seen.ext rfl rfl rfl rfl rfl rfl ?_ rfl
    change List.filter _ ((s.mgr.scenes ++ _).zip (s.conns ++ _)) = _
    rw [List.zip_append h.conns, List.filter_append]
    simp [St.seen, St.queue]

theorem seen_eventOnPipe {s' : St} {allocated added : Bool}
    (hs : s.eventOnPipe allocated added = some s') :
    s'.seen p q = (s.seen p q).eventOnPipe allocated added := by
  unfold St.eventOnPipe at hs
  unfold Seen.eventOnPipe
  have hpipe : (s.seen p q).pipe = s.mgr.pipe := rfl
  split at hs
  · cases hs
  · rename_i r rest hp
    cases hs
    rw [hpipe, hp]
    rfl
  · rename_i r rest hp
    cases hs
    rw [hpipe, hp]
    exact Seen.ext rfl rfl rfl rfl rfl rfl (seen_queue h _ none (fun e => nomatch e)) rfl

omit h in
theorem seen_delProxy (r : ProxyRef) :
    ({ s with mgr := (s.mgr.delProxy r).1 } : St).seen p q = (s.seen p q).delProxy r := by
  unfold ScreenMgr.delProxy Seen.delProxy
  have hl : (s.seen p q).linkedProxys.find? ((s.seen p q).proxyIds r) =
    s.mgr.linkedProxys.find? (s.mgr.id r) := rfl
  rw [hl]
  cases s.mgr.linkedProxys.find? (s.mgr.id r) <;> rfl

omit h in
theorem seen_addProxy (hq : q < s.mgr.nextProxy) {id : Nat} {ip : String} {udpPort : Nat}
    {x : ScreenMgr × ProxyRef} (hx : s.mgr.addProxy id ip udpPort = some x) :
    ({ s with mgr := x.1 } : St).seen p q = (s.seen p q).addProxy id := by
  unfold ScreenMgr.addProxy at hx
  cases hn : s.mgr.linkedProxys.find? id with
  | some _ => rw [hn] at hx; cases hx
  | none =>
    have hl : (s.seen p q).linkedProxys.find? id = none := hn
    rw [hn] at hx
    cases hx
    rw [Seen.addProxy, hl]
    have hw := SameWall.modifyProxy s.mgr.w s.mgr.nextProxy fun _ =>
      ScreenMgr.newProxy id ip udpPort
    refine Seen.ext rfl rfl rfl rfl (funext fun r => ?_) rfl rfl ?_
    · simp only [St.seen, ScreenMgr.id, World.modifyProxy_proxies, Function.update_apply]
      split <;> rfl
    · refine (Untouched.of_sameWall ?_ hw).peer
      rw [World.modifyProxy_proxies, if_neg (Nat.ne_of_lt hq)]

/-- The next scene. -/
theorem seen_work {s' : St} {conn : Option ProxyRef} (hs : s.work conn = some s')
    (ha : Apart s'.mgr.w) (hc : conn ≠ some p) :
    s'.seen p q = (s.seen p q).work q (natsSent s.mgr.w) := by
  obtain ⟨t, rest, cs, hsc, hco, rfl⟩ := work_cases hs
  have hqueue : (s.seen p q).queue = (t, conn) :: (rest.zip cs).filter fun x => x.2 ≠ some p := by
    simp only [St.seen, St.queue, hsc, hco, List.zip_cons_cons]
    rw [List.filter_cons_of_pos (by simpa using hc)]
  have hserved :=
    seen_served (p := p) (q := q) (f := fun a =>
      (runPeer (s.seen p q).roomIds (natsSent s.mgr.w) a t).getD a)
    (run_served h.good t fun _ => ha)
  have hproxyIds := congrArg Seen.proxyIds hserved
  have hroomIds := congrArg Seen.roomIds hserved
  have hpeer := congrArg Seen.peer hserved
  unfold Seen.work
  rw [hqueue]
  exact Seen.ext rfl rfl rfl rfl hproxyIds hroomIds rfl hpeer

end Seen

/-- **What is seen goes on by itself**, whatever else there is. -/
theorem seen_act {p q : ProxyRef} {s s' : St} (h : Inv s) (hq : q < s.mgr.nextProxy) {l : Label}
    (hl : comesOver p l = false) (hs : s.act l.act = some s') (ha : Apart s'.mgr.w) :
    s'.seen p q = (s.seen p q).act q (loginSent s.mgr.w) (natsSent s.mgr.w) l.act := by
  obtain ⟨a, ok⟩ := l
  cases a
  case tcpFrame conn proxyId scene =>
    simp only [St.act] at hs
    have hne : conn ≠ p := by simpa [comesOver] using hl
    split at hs
    · cases hs; exact seen_onFrame h _ _ fun e => hne (Option.some.inj e)
    · cases hs
  case udpFrame proxyId => cases hs; exact seen_onFrame h _ _ fun e => nomatch e
  case worker conn =>
    refine seen_work h hs ha ?_
    rintro rfl
    simp [comesOver] at hl
  case eventOnPipe allocated added => exact seen_eventOnPipe h hs
  case tcpClosed conn =>
    simp only [St.act] at hs
    split at hs
    · cases hs
      exact seen_delProxy (s := { s with mgr := s.mgr.closeTcp conn }) conn
    · cases hs
  case addProxy id ip udpPort =>
    obtain ⟨x, hx, rfl⟩ := Option.map_eq_some_iff.mp hs
    exact seen_addProxy hq hx
  case delProxy r =>
    simp only [St.act] at hs
    split at hs
    · cases hs; exact seen_delProxy r
    · cases hs
  case delAllProxys => cases hs; rfl
  case login r =>
    simp only [St.act] at hs
    split at hs
    · cases hs; exact seen_served (f := (·.login (loginSent s.mgr.w))) (login_served h.good r)
    · cases hs
  case linkRoom r room =>
    simp only [St.act] at hs
    split at hs
    · cases hs; exact seen_served (f := (·.linkRoom (s.mgr.w.rooms room).id room))
        (linkRoom_served h.good r room ha)
    · cases hs
  case unlinkRoom r room =>
    simp only [St.act] at hs
    split at hs
    · rename_i hr; cases hs; exact seen_served (f := (·.unlinkRoom (s.mgr.w.rooms room).id))
        (unlinkRoom_served h.good r hr)
    · cases hs
  case linkScreenUser idx u =>
    simp only [St.act] at hs
    split at hs
    · obtain ⟨w, hw, rfl⟩ := Option.map_eq_some_iff.mp hs
      exact seen_seated (Seated.seatFrame.linkScreenUser _ hw)
    · cases hs
  case unlinkScreenUser t u =>
    simp only [St.act] at hs
    split at hs
    · cases hs; exact seen_seated (Seated.seatFrame.unlinkScreenUser _ _ _)
    · cases hs
  case cleanScreens => cases hs; exact seen_seated (Seated.seatFrame.cleanScreens _)

/-! ## Isolation -/

/-- No object is taken back, and a scene that is queued with a connection is
for the proxy whose id a frame carried that came over it. -/
structure Grows (a : Act) (s s' : St) : Prop where
  next : s.mgr.nextProxy ≤ s'.mgr.nextProxy
  queue : ∀ x ∈ s'.queue, x ∈ s.queue ∨ ∀ p, x.2 = some p →
    ∃ proxyId scene, a = .tcpFrame p proxyId scene ∧ s.mgr.getProxy proxyId = some x.1.proxy

namespace Grows

variable {a : Act} {s s' : St}

theorem of_queue (hn : s.mgr.nextProxy ≤ s'.mgr.nextProxy) (hs : s'.mgr.scenes = s.mgr.scenes)
    (hc : s'.conns = s.conns) : Grows a s s' :=
  ⟨hn, fun x hx => .inl (by rwa [St.queue, hs, hc] at hx)⟩

/-- One scene is queued. -/
theorem snoc (h : Inv s) (hn : s.mgr.nextProxy ≤ s'.mgr.nextProxy) {t : SceneTask}
    {conn : Option ProxyRef} (hs : s'.mgr.scenes = s.mgr.scenes ++ [t])
    (hc : s'.conns = s.conns ++ [conn])
    (ht : ∀ p, conn = some p → ∃ proxyId scene, a = .tcpFrame p proxyId scene ∧
      s.mgr.getProxy proxyId = some t.proxy) : Grows a s s' := by
  refine ⟨hn, fun x hx => ?_⟩
  rw [St.queue, hs, hc, List.zip_append h.conns] at hx
  rcases List.mem_append.mp hx with hx | hx
  · exact .inl hx
  · cases List.mem_singleton.mp hx
    exact .inr ht

theorem delProxy (p : ProxyRef) : Grows a s { s with mgr := (s.mgr.delProxy p).1 } := by
  unfold ScreenMgr.delProxy
  split <;> exact of_queue (Nat.le_refl _) rfl rfl

end Grows

theorem act_grows {s s' : St} (h : Inv s) {a : Act} (hs : s.act a = some s') : Grows a s s' := by
  have hgoto : ∀ w, Grows a s (s.goto w) := fun w => .of_queue (Nat.le_refl _) rfl rfl
  cases a
  case tcpFrame conn proxyId scene =>
    simp only [St.act] at hs
    split at hs
    · cases hs
      unfold St.onFrame
      split
      · exact .of_queue (Nat.le_refl _) rfl rfl
      · rename_i r hr
        refine .snoc h (Nat.le_refl _) rfl rfl fun p hp => ⟨proxyId, scene, ?_, hr⟩
        rw [Option.some.inj hp]
    · cases hs
  case udpFrame proxyId =>
    cases hs
    unfold St.onFrame
    split
    · exact .of_queue (Nat.le_refl _) rfl rfl
    · exact .snoc h (Nat.le_refl _) rfl rfl fun p hp => nomatch hp
  case worker conn =>
    obtain ⟨t, rest, cs, hsc, hco, rfl⟩ := work_cases hs
    refine ⟨Nat.le_refl _, fun x hx => .inl ?_⟩
    rw [St.queue, hsc, hco, List.zip_cons_cons]
    exact List.mem_cons_of_mem _ hx
  case eventOnPipe allocated added =>
    simp only [St.act, St.eventOnPipe] at hs
    split at hs
    · cases hs
    · cases hs; exact .of_queue (Nat.le_refl _) rfl rfl
    · cases hs; exact .snoc h (Nat.le_refl _) rfl rfl fun p hp => nomatch hp
  case tcpClosed conn =>
    simp only [St.act] at hs
    split at hs
    · cases hs
      have hd :=
      Grows.delProxy (a := .tcpClosed conn) (s := { s with mgr := s.mgr.closeTcp conn }) conn
      exact ⟨hd.next, hd.queue⟩
    · cases hs
  case addProxy id ip udpPort =>
    obtain ⟨x, hx, rfl⟩ := Option.map_eq_some_iff.mp hs
    unfold ScreenMgr.addProxy at hx
    split at hx
    · cases hx
    · cases hx; exact .of_queue (Nat.le_succ _) rfl rfl
  case delProxy p =>
    simp only [St.act] at hs
    split at hs
    · cases hs; exact .delProxy p
    · cases hs
  case delAllProxys => cases hs; exact .of_queue (Nat.le_refl _) rfl rfl
  case linkScreenUser idx u =>
    simp only [St.act] at hs
    split at hs
    · obtain ⟨w, -, rfl⟩ := Option.map_eq_some_iff.mp hs
      exact hgoto w
    · cases hs
  case cleanScreens => cases hs; exact hgoto _
  all_goals
    simp only [St.act] at hs
    split at hs
    · cases hs; exact hgoto _
    · cases hs

/-- What there is to know of a state about frames over `p` and the proxy `q`. -/
structure Isolated (p q : ProxyRef) (s : St) : Prop where
  inv : Inv s
  created : q < s.mgr.nextProxy
  clear : s.Clear p q

namespace Isolated

variable {p q : ProxyRef} {s s' : St} {l : Label}

theorem step (h : Isolated p q s) (hc : s.Spares p q l) (hs : apartSys.step s l s') :
    Isolated p q s' := by
  obtain ⟨hst, ha⟩ := hs
  have hg := act_grows (h.inv.withSends l.sendOk) hst
  refine ⟨h.inv.step hst fun _ => ha, Nat.lt_of_lt_of_le h.created hg.next, fun x hx hp => ?_⟩
  rcases hg.queue x hx with hx | hx
  · exact h.clear x hx hp
  · obtain ⟨proxyId, scene, hact, hr⟩ := hx p hp
    intro he
    rw [St.Spares, hact] at hc
    exact hc rfl (he ▸ hr)

/-- **Local respect.** -/
theorem untouched (h : Isolated p q s) (hl : comesOver p l = true) (hs : apartSys.step s l s') :
    Untouched q s.mgr.w s'.mgr.w ∧ s'.seen p q = s.seen p q := by
  obtain ⟨hst, ha⟩ := hs
  obtain ⟨a, ok⟩ := l
  have hi := h.inv.withSends ok
  have hsends : Untouched q s.mgr.w (s.withSends ok).mgr.w :=
    .of_sameWall rfl ⟨rfl, rfl, rfl, rfl, fun _ => rfl⟩
  cases a
  case tcpFrame conn proxyId scene =>
    have hconn : conn = p := by simpa [comesOver] using hl
    subst hconn
    have hact : (s.withSends ok).act (.tcpFrame conn proxyId scene) = some s' := hst
    simp only [St.act] at hact
    split at hact
    · cases hact
      refine ⟨hsends.trans ?_, seen_onFrame_over hi proxyId scene⟩
      unfold St.onFrame
      split <;> exact .refl q _
    · cases hact
  case worker conn =>
    cases conn with
    | none => cases hl
    | some c =>
      have hconn : c = p := by simpa [comesOver] using hl
      subst hconn
      obtain ⟨t, rest, cs, hsc, hco, rfl⟩ := work_cases hst
      have hqueue : s.queue = (t, some c) :: rest.zip cs := by
        have hz : (s.withSends ok).queue = (t, some c) :: rest.zip cs := by
          rw [St.queue, hsc, hco, List.zip_cons_cons]
        exact hz
      have hne : t.proxy ≠ q := h.clear (t, some c) (by rw [hqueue]; exact List.mem_cons_self) rfl
      have hserved := run_served hi.good t fun _ => ha
      have hu := hserved.others q hne.symm
      refine ⟨hsends.trans hu,
        Seen.ext rfl rfl rfl rfl (funext hserved.names.proxyId) (funext hserved.names.roomId)
        ?_ hu.peer⟩
      simp only [St.seen, hqueue]
      rw [List.filter_cons_of_neg (by simp)]
      rfl
  all_goals cases hl

end Isolated

/-- Frames over `p` that are not routed to `q` are hidden from whoever looks at
`q`. -/
theorem unwinding (p q : ProxyRef) :
    Unwinding apartSys (Isolated p q) (fun s l => s.Spares p q l) (comesOver p) (St.seen p q) where
  keeps _ _ _ h hc hs := h.step hc hs
  respects _ _ _ h _ hl hs := (h.untouched hl hs).2
  consistent s t l s' t' hs ht _ _ hl hst htt he := by
    rw [seen_act (s := s.withSends l.sendOk) (hs.inv.withSends _) hs.created hl hst.1 hst.2,
      seen_act (s := t.withSends l.sendOk) (ht.inv.withSends _) ht.created hl htt.1 htt.2,
      seen_withSends,
      seen_withSends, he]
    rfl

/-- **Isolation.** From any reachable state, with no scene pending for `q` of a
frame over `p`: frames over `p` that are not routed to `q` leave it alone, and
two runs that differ in such frames only end with the same state of `q`. -/
theorem isolated {p q : ProxyRef} {s t u : St} {ms ns : List (Move St Label)}
    (hr : apartSys.Reachable s)
    (hq : q < s.mgr.nextProxy) (hclear : s.Clear p q) (hm : apartSys.Run s ms t)
    (hn : apartSys.Run s ns u) (hsm : ∀ m ∈ ms, m.src.Spares p q m.lbl)
    (hsn : ∀ m ∈ ns, m.src.Spares p q m.lbl)
    (hsame : visible (comesOver p) ms = visible (comesOver p) ns) :
    (∀ m ∈ ms, comesOver p m.lbl = true → Untouched q m.src.mgr.w m.dst.mgr.w) ∧
      peer t.mgr.w q = peer u.mgr.w q := by
  have hi : Isolated p q s := ⟨inv_reachable hr, hq, hclear⟩
  refine ⟨fun m hmem hl =>
    ?_, congrArg Seen.peer ((unwinding p q).agree hi hi rfl hm hn hsm hsn hsame)⟩
  obtain ⟨hsrc, hstep⟩ := (unwinding p q).moves hm hi hsm m hmem
  exact (hsrc.untouched hl hstep).1

/-! ## Runs with two proxies -/

instance (s : St) (p q : ProxyRef) (l : Label) : Decidable (s.Spares p q l) := by
  unfold St.Spares
  split <;> infer_instance

instance (s : St) (p q : ProxyRef) : Decidable (s.Clear p q) :=
  inferInstanceAs (Decidable (∀ x ∈ s.queue, x.2 = some p → x.1.proxy ≠ q))

/-- Every send succeeds. -/
def sent (acts : List Act) : List Label := acts.map fun a => ⟨a, fun _ => true⟩

def St.launched : St :=
  ⟨⟨{ World.launched with rooms := fun r => ⟨r, none, .empty, []⟩ }, .empty, 0, fun _ =>
    .null, [], []⟩, [], false⟩

theorem St.launched_launched : St.launched.Launched :=
  ⟨⟨fun _ => ⟨rfl, rfl, rfl⟩, fun _ => rfl, fun _ => rfl, fun _ => rfl⟩, fun _ => rfl, fun _ =>
    rfl, rfl, fun _ => rfl,
    rfl, rfl, rfl⟩

/-- Proxies 0 and 1 are linked under the ids 1 and 2, and log in. -/
def linked : List Label :=
  sent [.addProxy 1 "192.168.6.40" 13000, .addProxy 2 "192.168.6.41" 13000, .eventOnPipe true true,
    .eventOnPipe true true, .login 0, .login 1]

def St.bothLinked : St := (exec St.step .launched linked).get (by decide +kernel)

/-- The login of one proxy is answered, or that of both. -/
def answered : List Label := sent [.tcpFrame 1 2 .resLogin, .worker (some 1)]

def bothAnswered : List Label :=
  sent [.tcpFrame 0 1 .resLogin, .tcpFrame 1 2 .resLogin, .worker (some 0), .worker (some 1)]

theorem isolated_answered : ∃ t u,
    exec St.step .bothLinked bothAnswered = some t ∧ exec St.step .bothLinked answered = some u ∧
      (peer t.mgr.w 0).status ≠ (peer u.mgr.w 0).status ∧ (peer u.mgr.w 1).status = .nating ∧
      peer t.mgr.w 1 = peer u.mgr.w 1 := by
  have hrun : apartSys.Run .launched (moves St.step .launched linked) .bothLinked :=
    (Inv.launched St.launched_launched).run_apart (run_of_exec linked (by decide +kernel))
    (by decide +kernel)
  have hr : apartSys.Reachable .bothLinked :=
    ⟨.launched, _, ⟨St.launched_launched, (Inv.launched St.launched_launched).good.apart⟩, hrun⟩
  have hm :=
    (inv_reachable hr).run_apart (run_of_exec bothAnswered (by decide +kernel)) (by decide +kernel)
  have hn :=
    (inv_reachable hr).run_apart (run_of_exec answered (by decide +kernel)) (by decide +kernel)
  exact ⟨_, _, (Option.some_get _).symm, (Option.some_get _).symm,
    by decide +kernel, by decide +kernel,
    (isolated (p := 0) (q := 1) hr (by decide +kernel) (by decide +kernel) hm hn
      (by decide +kernel) (by decide +kernel) rfl).2⟩

/-- Both are online, and have a room in common. -/
def shared : List Label :=
  linked ++ sent [.tcpFrame 0 1 .resLogin, .tcpFrame 1 2 .resLogin, .worker (some 0),
    .worker (some 1), .udpFrame 1,
    .udpFrame 2, .worker none, .worker none, .linkRoom 1 5, .linkRoom 0 5]

/-- From `s` to `t` only frames over `p` come in, and their scenes run. -/
structure FramesOver (p q : ProxyRef) (s t : St) (ms : List (Move St Label)) : Prop where
  reachable : sys.Reachable s
  linked : ∃ i j, i ≠ j ∧ s.mgr.getProxy i = some p ∧ s.mgr.getProxy j = some q
  run : sys.Run s ms t
  frames : ∀ m ∈ ms, comesOver p m.lbl = true

theorem framesOver_of_exec (ls frames : List Label) (test : St → St → List (Move St Label) → Bool)
    (h : ((exec St.step .launched ls).bind fun s => (exec St.step s frames).map fun t =>
      (s.mgr.getProxy 1 == some 0 && s.mgr.getProxy 2 == some 1) &&
        ((moves St.step s frames).all fun m => comesOver 0 m.lbl) && test s t
        (moves St.step s frames)) = some true) :
    ∃ s t ms, FramesOver 0 1 s t ms ∧ test s t ms = true := by
  obtain ⟨s, hs, h'⟩ := Option.bind_eq_some_iff.mp h
  obtain ⟨t, ht, htest⟩ := Option.map_eq_some_iff.mp h'
  simp only [Bool.and_eq_true, beq_iff_eq, List.all_eq_true] at htest
  obtain ⟨⟨⟨h1, h2⟩, hover⟩, htest⟩ := htest
  exact ⟨s, t, _,
    ⟨reachable_of_exec ls St.launched_launched hs, ⟨1, 2, by decide, h1, h2⟩, run_moves frames ht,
      hover⟩, htest⟩

/-- A frame with the id of another proxy takes that one on; one with the id of
its own adds a user to a room of the other. -/
theorem crossed :
    (∃ s t ms, FramesOver 0 1 s t ms ∧ (peer t.mgr.w 1).status ≠ (peer s.mgr.w 1).status) ∧
      ∃ s t ms, FramesOver 0 1 s t ms ∧ (∀ m ∈ ms, m.src.Spares 0 1 m.lbl) ∧
        (peer t.mgr.w 1).users 5 7 ≠ (peer s.mgr.w 1).users 5 7 := by
  constructor
  · obtain ⟨s, t, ms, hf, htest⟩ :=
      framesOver_of_exec linked (sent [.tcpFrame 0 2 .resLogin, .worker (some 0)])
      (fun s t _ => decide ((peer t.mgr.w 1).status ≠ (peer s.mgr.w 1).status)) (by decide +kernel)
    exact ⟨s, t, ms, hf, of_decide_eq_true htest⟩
  · obtain ⟨s, t, ms, hf, htest⟩ :=
      framesOver_of_exec shared (sent [.tcpFrame 0 1 (.addUser 5 7 1), .worker (some 0)])
      (fun s t ms => (ms.all fun m => decide (m.src.Spares 0 1 m.lbl)) &&
        decide ((peer t.mgr.w 1).users 5 7 ≠ (peer s.mgr.w 1).users 5 7)) (by decide +kernel)
    simp only [Bool.and_eq_true, List.all_eq_true, decide_eq_true_eq] at htest
    exact ⟨s, t, ms, hf, htest.1, htest.2⟩

end MonitorAgent.L4.Connections
