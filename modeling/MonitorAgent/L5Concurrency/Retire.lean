import MonitorAgent.Core.LTS
import MonitorAgent.L4Session.LinkedProxys
import Mathlib.Data.List.Count

/-!
# Retiring a proxy

A proxy object is taken out of `linked_proxys_` by `DelProxy` (the last room
unlinked, on the main-pipe thread, or the connection closed, on the event
thread) or by `DelAllProxys`; then the event thread runs `DiscProxy` for it and
the scene worker `DiscProxyScene` (Monitor/Monitor/ScreenMgr.cpp:183-224,
484-562,636-841). The calls are split where a thread takes or gives up
`linked_proxys_lock_`.

`DelProxy` looks the object up by its id. A connection that closes after its
object was taken out, and before the event thread has come to `DiscProxy`,
takes out whatever object has the id by then and disconnects its own object
again.

* `retired_iff`: every object is retired once and only itself exactly when no
  `DelProxy` comes for an object already on its way out whose id is linked
  anew.
* `retired_twice`: a run with two `DiscProxyScene`s of one object.
-/
namespace MonitorAgent.L5.Retire

open MonitorAgent.L3 MonitorAgent.L4 LTS

/-- The main-pipe thread: the next part of its call. -/
inductive MainPc
  | idle
  | connect (param : LinkRoomParam)
  | addProxy (param : LinkRoomParam)
  | login (proxy : ProxyRef) (room : RoomRef)
  | linkRoom (proxy : ProxyRef) (room : RoomRef)
  | unlinkRoom (proxy : ProxyRef) (room : RoomRef)
  | roomSize (proxy : ProxyRef)
  | delProxy (proxy : ProxyRef)
deriving DecidableEq

/-- The event thread: past the close of a connection, or past `GetProxy` of a
frame. -/
inductive EventPc
  | idle
  | delProxy (proxy : ProxyRef)
  | schedule (scene : Scene) (proxy : ProxyRef)
deriving DecidableEq

/-- `removed` are the calls `DelProxy(p)` that removed an entry, with its
value; `discProxys` and `ran` are the `DiscProxy` calls and the scenes run. -/
structure St where
  mgr : ScreenMgr
  main : MainPc
  event : EventPc
  stuck : Bool
  removed : List (ProxyRef × ProxyRef)
  discProxys : List ProxyRef
  ran : List SceneTask

inductive Act
  | onLinkRoom (param : LinkRoomParam)
  | connected (ok : Bool)
  | onUnlinkRoom (room : RoomRef)
  | delAllProxys
  | main
  | eventOnPipe (allocated added : Bool)
  | tcpClosed (conn : ProxyRef)
  | tcpFrame (conn : ProxyRef) (proxyId : Nat) (scene : Scene)
  | udpFrame (proxyId : Nat)
  | event
  | worker
deriving DecidableEq

namespace St

variable (s : St)

/-- Another world and other places in the calls. -/
def goto (w : World) (main : MainPc) (event : EventPc) : St :=
  { s with mgr := { s.mgr with w := w }, main := main, event := event }

def delProxy (p : ProxyRef) (main : MainPc) (event : EventPc) : St :=
  { s with
    mgr := (s.mgr.delProxy p).1, main := main, event := event
    removed := s.removed ++ (s.mgr.delProxy p).2.toList.map fun q => (p, q) }

/-- mirrors Monitor/Monitor/ScreenMgr.cpp:207-224,711-728 -/
def mainStep : Option St :=
  match s.main with
  | .idle => none
  | .connect _ => none
  | .addProxy param =>
    match s.mgr.addProxy param.proxyId param.proxyIp param.proxyUdpPort with
    | none => some { s with main := .idle }
    | some (mgr, p) => some { s with mgr := mgr, main := .login p param.titleRoom }
  | .login p r =>
    match s.mgr.w.login p with
    | (w, .success) => some (s.goto w (.linkRoom p r) s.event)
    | (w, _) => some (s.goto w .idle s.event)
  | .linkRoom p r => some (s.goto (s.mgr.w.linkRoom p r).1 .idle s.event)
  | .unlinkRoom p r =>
    match s.mgr.w.unlinkRoom p r with
    | (w, .success) => some (s.goto w (.roomSize p) s.event)
    | (w, _) => some (s.goto w .idle s.event)
  | .roomSize p =>
    some (s.goto s.mgr.w (if s.mgr.w.getRoomSize p = 0 then .delProxy p else .idle) s.event)
  | .delProxy p => some (s.delProxy p .idle s.event)

/-- mirrors Monitor/Monitor/ScreenMgr.cpp:689-703 -/
def eventOnPipe (allocated added : Bool) : Option St :=
  match s.event, s.mgr.pipe with
  | .idle, .connProxy p :: rest =>
    some { s with mgr := { s.mgr with pipe := rest }.connProxy p allocated added }
  | .idle, .discProxy p :: rest =>
    some { s with
      mgr := { s.mgr with pipe := rest }.discProxy p
      discProxys := s.discProxys ++ [p] }
  | _, _ => none

/-- mirrors Monitor/Monitor/ScreenMgr.cpp:538-540,556-557 -/
def onFrame (proxyId : Nat) (scene : Scene) : St :=
  match s.mgr.getProxy proxyId with
  | none => s
  | some p => s.goto s.mgr.w s.main (.schedule scene p)

/-- mirrors Monitor/Monitor/ScreenMgr.cpp:542,560,647 -/
def eventStep : Option St :=
  match s.event with
  | .idle => none
  | .delProxy p => some (s.delProxy p s.main .idle)
  | .schedule scene p =>
    some { s with mgr := { s.mgr with scenes := s.mgr.scenes ++
      [.maintain scene p] }, event := .idle }

/-- Scenes run one at a time, in the order they were queued; a scene that does
not return is the last. -/
def workerStep : Option St :=
  match s.stuck, s.mgr.scenes with
  | false, t :: rest =>
    match t.run s.mgr.w with
    | some w => some { s with mgr := { s.mgr with w := w, scenes := rest }, ran := s.ran ++ [t] }
    | none =>
        some { s with mgr := { s.mgr with scenes := rest }, ran := s.ran ++ [t], stuck := true }
  | _, _ => none

end St

def step (s : St) : Act → Option St
  | .onLinkRoom param =>
    if s.main = .idle then
      match s.mgr.getProxy param.proxyId with
      | none => some { s with main := .connect param }
      | some p => some { s with main := .linkRoom p param.titleRoom }
    else none
  | .connected ok =>
    match s.main with
    | .connect param => some { s with main := if ok then .addProxy param else .idle }
    | _ => none
  | .onUnlinkRoom r =>
    if s.main = .idle then
      match (s.mgr.w.rooms r).proxy with
      | none => some s
      | some p => some { s with main := .unlinkRoom p r }
    else none
  | .delAllProxys => if s.main = .idle then some { s with mgr := s.mgr.delAllProxys } else none
  | .main => s.mainStep
  | .eventOnPipe allocated added => s.eventOnPipe allocated added
  | .tcpClosed p =>
    if s.event = .idle ∧ s.mgr.tcpEv p = .allocated true then
      some { s with mgr := s.mgr.closeTcp p, event := .delProxy p }
    else none
  | .tcpFrame p proxyId scene =>
    if s.event = .idle ∧ s.mgr.tcpEv p = .allocated true ∧ scene ≠ .nat then
    some (s.onFrame proxyId scene)
    else none
  | .udpFrame proxyId => if s.event = .idle then some (s.onFrame proxyId .nat) else none
  | .event => s.eventStep
  | .worker => s.workerStep

/-- Nothing linked and nothing queued. A room's `proxy_` reads as null until
`OnCreate` sets it. -/
def Init (s : St) : Prop :=
  ∃ w, (∀ r, (w.rooms r).proxy = none) ∧
    s = ⟨⟨w, .empty, 0, fun _ => .null, [], []⟩, .idle, .idle, false, [], [], []⟩

def sys : LTS St Act := .ofFn Init step

/-! ## Retired once and only itself -/

/-- Nothing bound to an object runs after its `DiscProxyScene`. -/
def NotAfterDisc (t t' : SceneTask) : Prop := t = .discProxy t.proxy → t'.proxy ≠ t.proxy

structure Retired (s : St) : Prop where
  itself : ∀ e ∈ s.removed, e.1 = e.2
  discProxyOnce : s.discProxys.Nodup
  discSceneOnce : ∀ p, s.ran.count (.discProxy p) ≤ 1
  last : s.ran.Pairwise NotAfterDisc

/-- `DiscProxy(p)` is queued or has run. -/
def Leaving (s : St) (p : ProxyRef) : Prop := .discProxy p ∈ s.mgr.pipe ∨ p ∈ s.discProxys

/-- The object of the `DelProxy` the step makes. -/
def deletes (s : St) : Act → Option ProxyRef
  | .main => match s.main with
    | .delProxy p => some p
    | _ => none
  | .event => match s.event with
    | .delProxy p => some p
    | _ => none
  | _ => none

/-- `DelProxy` comes for an object on its way out only while its id is not
linked. -/
def NotRelinked (s : St) (l : Act) : Prop :=
  ∀ p ∈ deletes s l, Leaving s p → s.mgr.linkedProxys.find? (s.mgr.id p) = none

def MainPc.proxy : MainPc → Option ProxyRef
  | .idle => none
  | .connect _ => none
  | .addProxy _ => none
  | .login p _ => some p
  | .linkRoom p _ => some p
  | .unlinkRoom p _ => some p
  | .roomSize p => some p
  | .delProxy p => some p

def EventPc.proxy : EventPc → Option ProxyRef
  | .idle => none
  | .delProxy p => some p
  | .schedule _ p => some p

/-- Only objects numbered below `n` are referred to. -/
structure Bounded (n : ProxyRef) (s : St) : Prop where
  room : ∀ r p, (s.mgr.w.rooms r).proxy = some p → p < n
  main : ∀ p, s.main.proxy = some p → p < n
  event : ∀ p, s.event.proxy = some p → p < n
  tcpEv : ∀ p b, s.mgr.tcpEv p = .allocated b → p < n
  pipe : ∀ req ∈ s.mgr.pipe, req.proxy < n
  scene : ∀ t ∈ s.mgr.scenes, t.proxy < n

/-- How often `DiscProxy(p)` is queued or has run. -/
def discs (s : St) (p : ProxyRef) : Nat := s.mgr.pipe.count (.discProxy p) + s.discProxys.count p

theorem leaving_iff (s : St) (p : ProxyRef) : Leaving s p ↔ 0 < discs s p := by
  unfold Leaving discs
  rw [← List.count_pos_iff, ← List.count_pos_iff]
  omega

/-- A map of objects under their ids, `next` objects having been created and
`discs` counting the disconnections asked for: it holds exactly the objects
that are not leaving, and none leaves twice. -/
structure Linked (map : StdMap Nat ProxyRef) (id : ProxyRef → Nat) (next : ProxyRef)
    (discs : ProxyRef → Nat) :
    Prop where
  linked : ∀ i p, map.find? i = some p → id p = i ∧ p < next ∧ discs p = 0
  created : ∀ p < next, map.find? (id p) = some p ∨ 0 < discs p
  leaving : ∀ p, 0 < discs p → p < next
  once : ∀ p, discs p ≤ 1

namespace Linked

variable {map : StdMap Nat ProxyRef} {id : ProxyRef → Nat} {next : ProxyRef}
  {discs : ProxyRef → Nat}

theorem add (h : Linked map id next discs) {i : Nat} {id' : ProxyRef → Nat}
    (hfree : map.find? i = none)
    (hnew : id' next = i) (hold : ∀ p < next, id' p = id p) :
    Linked (map.insert i next) id' (next + 1) discs where
  linked i' p hf := by
    rw [StdMap.find?_insert, hfree] at hf
    split at hf
    · rename_i hi
      cases hf
      refine ⟨hnew.trans hi.symm, Nat.lt_succ_self _, Nat.eq_zero_of_not_pos fun hl => ?_⟩
      exact Nat.lt_irrefl _ (h.leaving _ hl)
    · obtain ⟨h1, h2, h3⟩ := h.linked i' p hf
      exact ⟨(hold p h2).trans h1, Nat.lt_succ_of_lt h2, h3⟩
  created p hp := by
    rw [StdMap.find?_insert, hfree]
    rcases Nat.lt_succ_iff_lt_or_eq.mp hp with hp | rfl
    · rw [hold p hp]
      refine (h.created p hp).imp_left fun hl => ?_
      rwa [if_neg fun e => by rw [e, hfree] at hl; cases hl]
    · exact .inl (by rw [if_pos hnew]; rfl)
  leaving p hl := Nat.lt_succ_of_lt (h.leaving p hl)
  once := h.once

theorem remove (h : Linked map id next discs) {p : ProxyRef} (hp : map.find? (id p) = some p) :
    Linked (map.erase (id p)) id next fun q => discs q + if q = p then 1 else 0 where
  linked i q hf := by
    rw [StdMap.find?_erase] at hf
    split at hf
    · cases hf
    · rename_i hi
      obtain ⟨h1, h2, h3⟩ := h.linked i q hf
      have hq : q ≠ p := fun e => hi (by rw [← h1, e])
      exact ⟨h1, h2, by rw [if_neg hq, h3]⟩
  created q hq := by
    by_cases he : q = p
    · exact .inr (by rw [if_pos he]; exact Nat.succ_pos _)
    · refine (h.created q hq).imp (fun hl => ?_) fun hl => by rw [if_neg he]; exact hl
      have hi : id q ≠ id p := fun e => by
        rw [e, hp] at hl
        exact he (Option.some.inj hl).symm
      rw [StdMap.find?_erase, if_neg hi, hl]
  leaving q hl := by
    by_cases he : q = p
    · rw [he]; exact (h.linked _ p hp).2.1
    · rw [if_neg he] at hl; exact h.leaving q hl
  once q := by
    by_cases he : q = p
    · rw [if_pos he, he, (h.linked _ p hp).2.2]
    · rw [if_neg he]; exact h.once q

/-- No object is linked twice. -/
theorem values_nodup (h : Linked map id next discs) : (map.entries.map Prod.snd).Nodup := by
  refine List.pairwise_map.mpr (map.sorted.imp_of_mem fun {a b} ha hb hlt he => ?_)
  have h1 := (h.linked _ _ ((map.mem_entries_iff a.1 a.2).mp ha)).1
  have h2 := (h.linked _ _ ((map.mem_entries_iff b.1 b.2).mp hb)).1
  rw [← h1, ← h2, he] at hlt
  exact Nat.lt_irrefl _ hlt

theorem mem_values (h : Linked map id next discs) (p : ProxyRef) :
    p ∈ map.entries.map Prod.snd ↔ map.find? (id p) = some p := by
  rw [List.mem_map]
  constructor
  · intro ⟨e, he, hv⟩
    subst hv
    have hf := (map.mem_entries_iff e.1 e.2).mp he
    rwa [(h.linked _ _ hf).1]
  · exact fun hf => ⟨(id p, p), (map.mem_entries_iff _ _).mpr hf, rfl⟩

theorem clear (h : Linked map id next discs) :
    Linked .empty id next fun p => discs p + (map.entries.map Prod.snd).count p where
  linked i p hf := by cases hf
  created p hp := by
    rcases h.created p hp with hl | hl
    · exact .inr (Nat.add_pos_right _ (List.count_pos_iff.mpr ((h.mem_values p).mpr hl)))
    · exact .inr (Nat.add_pos_left hl _)
  leaving p hl := by
    by_cases hm : p ∈ map.entries.map Prod.snd
    · exact (h.linked _ p ((h.mem_values p).mp hm)).2.1
    · rw [List.count_eq_zero.mpr hm] at hl
      exact h.leaving p hl
  once p := by
    by_cases hm : p ∈ map.entries.map Prod.snd
    · rw [(h.linked _ p ((h.mem_values p).mp hm)).2.2, Nat.zero_add]
      exact List.nodup_iff_count.mp h.values_nodup p
    · rw [List.count_eq_zero.mpr hm]
      exact h.once p

end Linked

/-- The scenes of an object come before its `DiscProxyScene`, which comes with
its `DiscProxy`. -/
structure Ordered (s : St) : Prop where
  event : ∀ scene p, s.event = .schedule scene p → p ∉ s.discProxys
  disc : ∀ p, .discProxy p ∈ s.ran ++ s.mgr.scenes → p ∈ s.discProxys
  last : (s.ran ++ s.mgr.scenes).Pairwise NotAfterDisc

/-- A scene may be queued for an object whose `DiscProxy` has not run. -/
theorem Ordered.snoc {s : St} (h : Ordered s) (t : SceneTask) (ht : t.proxy ∉ s.discProxys) :
    (s.ran ++ (s.mgr.scenes ++ [t])).Pairwise NotAfterDisc := by
  rw [← List.append_assoc]
  refine List.pairwise_append.mpr ⟨h.last, List.pairwise_singleton .., ?_⟩
  intro t₁ h1 t₂ h2 hdisc heq
  cases List.mem_singleton.mp h2
  rw [hdisc, ← heq] at h1
  exact ht (h.disc _ h1)

structure Inv (s : St) : Prop where
  bounded : Bounded s.mgr.nextProxy s
  linked : Linked s.mgr.linkedProxys s.mgr.id s.mgr.nextProxy (discs s)
  ordered : Ordered s
  removed : ∀ e ∈ s.removed, e.1 = e.2

theorem count_le_one_of_pairwise {l : List SceneTask} (h : l.Pairwise NotAfterDisc) (p : ProxyRef) :
    l.count (.discProxy p) ≤ 1 := by
  by_contra hn
  have hsub : List.Sublist [SceneTask.discProxy p, .discProxy p] l :=
    (List.replicate_sublist_iff (n := 2)).mpr (by omega)
  have hp := (List.pairwise_pair.mp (h.sublist hsub)) rfl
  exact hp rfl

theorem Inv.retired {s : St} (h : Inv s) : Retired s where
  itself := h.removed
  discProxyOnce := List.nodup_iff_count.mpr fun p => (Nat.le_add_left _ _).trans (h.linked.once p)
  discSceneOnce := count_le_one_of_pairwise (List.pairwise_append.mp h.ordered.last).1
  last := (List.pairwise_append.mp h.ordered.last).1

/-! ## What a step keeps -/

/-- The maps, queues and logs are the same. -/
structure SameQueues (s s' : St) : Prop where
  linkedProxys : s'.mgr.linkedProxys = s.mgr.linkedProxys
  nextProxy : s'.mgr.nextProxy = s.mgr.nextProxy
  pipe : s'.mgr.pipe = s.mgr.pipe
  discProxys : s'.discProxys = s.discProxys
  tasks : s'.ran ++ s'.mgr.scenes = s.ran ++ s.mgr.scenes
  removed : s'.removed = s.removed
  id : ∀ p, s'.mgr.id p = s.mgr.id p

/-- A step that only moves within the calls and changes the world. -/
theorem Inv.quiet {s s' : St} (h : Inv s) (e : SameQueues s s') (hb : Bounded s.mgr.nextProxy s')
    (hs : ∀ scene p, s'.event = .schedule scene p → p ∉ s.discProxys) : Inv s' where
  bounded := by rw [e.nextProxy]; exact hb
  linked := by
    have hd : discs s' = discs s := funext fun p => by rw [discs, discs, e.pipe, e.discProxys]
    rw [e.linkedProxys, e.nextProxy, hd, funext e.id]
    exact h.linked
  ordered := by
    constructor <;> simp only [e.discProxys, e.tasks]
    exacts [hs, h.ordered.disc, h.ordered.last]
  removed := by rw [e.removed]; exact h.removed

theorem Inv.setMain {s : St} (h : Inv s) (main : MainPc)
    (hm : ∀ p, main.proxy = some p → p < s.mgr.nextProxy) : Inv { s with main := main } :=
  h.quiet ⟨rfl, rfl, rfl, rfl, rfl, rfl, fun _ => rfl⟩ { h.bounded with main := hm } h.ordered.event

/-- A call on `p` that hands rooms to `p` alone. -/
theorem Inv.goto {s : St} {w : World} {p : ProxyRef} (h : Inv s) (hw : Handover p s.mgr.w w)
    (hp : p < s.mgr.nextProxy) (main : MainPc)
    (hm : ∀ q, main.proxy = some q → q < s.mgr.nextProxy) :
    Inv (s.goto w main s.event) :=
  h.quiet ⟨rfl, rfl, rfl, rfl, rfl, rfl, hw.id⟩
    { h.bounded with
      room := fun r q hq => (hw.proxy r q hq).elim (h.bounded.room r q) fun e => e ▸ hp
      main := hm }
    h.ordered.event

/-- `AddProxy` files a new object under an id that is free. -/
theorem Inv.addProxy {s : St} {param : LinkRoomParam} {mgr : ScreenMgr} {p : ProxyRef} (h : Inv s)
    (ha : s.mgr.addProxy param.proxyId param.proxyIp param.proxyUdpPort = some (mgr, p)) :
    Inv { s with mgr := mgr, main := .login p param.titleRoom } := by
  unfold ScreenMgr.addProxy at ha
  split at ha
  · cases ha
  · rename_i hfree
    cases ha
    refine ⟨⟨fun r q hq => Nat.lt_succ_of_lt (h.bounded.room r q hq), ?_,
      fun q hq => Nat.lt_succ_of_lt (h.bounded.event q hq), ?_, ?_,
      fun t ht => Nat.lt_succ_of_lt (h.bounded.scene t ht)⟩, ?_,
        ⟨h.ordered.event, h.ordered.disc, h.ordered.last⟩,
      h.removed⟩
    · intro q hq
      cases hq
      exact Nat.lt_succ_self _
    · intro q b hq
      dsimp only at hq
      rw [Function.update_apply] at hq
      split at hq
      · cases hq
      · exact Nat.lt_succ_of_lt (h.bounded.tcpEv q b hq)
    · intro req hr
      rcases List.mem_append.mp hr with hr | hr
      · exact Nat.lt_succ_of_lt (h.bounded.pipe req hr)
      · cases List.mem_singleton.mp hr
        exact Nat.lt_succ_self _
    · have hd : discs s = discs { s with
          mgr := { s.mgr with pipe := s.mgr.pipe ++ [.connProxy s.mgr.nextProxy] } } :=
          funext fun q => by
        simp [discs]
      exact hd ▸ h.linked.add hfree (by simp [ScreenMgr.id, World.modifyProxy, ScreenMgr.newProxy])
        fun q hq => by simp [ScreenMgr.id, World.modifyProxy, Nat.ne_of_lt hq]

/-- `DelProxy(p)` with `p` not leaving, or with its id free. -/
theorem Inv.delProxy {s : St} {p : ProxyRef} (h : Inv s) (hp : p < s.mgr.nextProxy)
    (hc : Leaving s p → s.mgr.linkedProxys.find? (s.mgr.id p) = none) (main : MainPc)
    (event : EventPc)
    (hm : ∀ q, main.proxy = some q → q < s.mgr.nextProxy)
    (he : ∀ q, event.proxy = some q → q < s.mgr.nextProxy)
    (hs : ∀ scene p, event = .schedule scene p → p ∉ s.discProxys) :
    Inv (s.delProxy p main event) := by
  unfold St.delProxy ScreenMgr.delProxy
  cases hf : s.mgr.linkedProxys.find? (s.mgr.id p) with
  | none =>
    exact h.quiet ⟨rfl, rfl, rfl, rfl, rfl, by simp, fun _ => rfl⟩
      { h.bounded with main := hm, event := he } hs
  | some q =>
    have hlinked : s.mgr.linkedProxys.find? (s.mgr.id p) = some p := by
      refine (h.linked.created p hp).resolve_right fun hl => ?_
      rw [hc ((leaving_iff s p).mpr hl)] at hf
      cases hf
    obtain rfl : p = q := by rw [hlinked] at hf; exact Option.some.inj hf
    refine ⟨{ h.bounded with main := hm, event := he, pipe := ?_ }, ?_,
      ⟨hs, h.ordered.disc, h.ordered.last⟩, ?_⟩
    · intro req hr
      rcases List.mem_append.mp hr with hr | hr
      · exact h.bounded.pipe req hr
      · cases List.mem_singleton.mp hr
        exact hp
    · have hd : (fun q => discs s q + if q = p then 1 else 0) = discs { s with
          mgr := { s.mgr with pipe := s.mgr.pipe ++ [.discProxy p] } } := funext fun q => by
        by_cases he : q = p
        · subst he; simp [discs, List.count_append, Nat.add_right_comm]
        · simp [discs, List.count_append, he, Ne.symm he]
      exact hd ▸ h.linked.remove hlinked
    · intro e hmem
      rcases List.mem_append.mp hmem with hmem | hmem
      · exact h.removed e hmem
      · cases List.mem_singleton.mp hmem
        rfl

theorem Inv.delAllProxys {s : St} (h : Inv s) : Inv { s with mgr := s.mgr.delAllProxys } := by
  refine ⟨{ h.bounded with pipe := ?_ }, ?_, ⟨h.ordered.event, h.ordered.disc, h.ordered.last⟩,
    h.removed⟩
  · intro req hr
    rcases List.mem_append.mp hr with hr | hr
    · exact h.bounded.pipe req hr
    · obtain ⟨e, he, rfl⟩ := List.mem_map.mp hr
      exact (h.linked.linked _ _ ((s.mgr.linkedProxys.mem_entries_iff e.1 e.2).mp he)).2.1
  · have hd : (fun p => discs s p + (s.mgr.linkedProxys.entries.map Prod.snd).count p) =
        discs { s with mgr := s.mgr.delAllProxys } := funext fun p => by
      have hinj : Function.Injective PipeRequest.discProxy :=
        fun a b e => PipeRequest.discProxy.inj e
      have hcount := List.count_map_of_injective (s.mgr.linkedProxys.entries.map Prod.snd) _ hinj p
      rw [List.map_map] at hcount
      simp only [discs, ScreenMgr.delAllProxys, List.count_append]
      rw [← hcount]
      exact Nat.add_right_comm ..
    exact hd ▸ h.linked.clear

theorem Inv.connProxy {s : St} {p : ProxyRef} {rest : List PipeRequest} (h : Inv s)
    (hp : s.mgr.pipe = .connProxy p :: rest) (allocated added : Bool) :
    Inv { s with mgr := { s.mgr with pipe := rest }.connProxy p allocated added } := by
  have hmem : ∀ req ∈ rest, req ∈ s.mgr.pipe :=
    fun req hr => by rw [hp]; exact List.mem_cons_of_mem _ hr
  refine ⟨{ h.bounded with tcpEv := ?_, pipe := fun req hr => h.bounded.pipe req (hmem req hr) },
    ?_,
    ⟨h.ordered.event, h.ordered.disc, h.ordered.last⟩, h.removed⟩
  · intro q b hq
    simp only [ScreenMgr.connProxy, Function.update_apply] at hq
    split at hq
    · rename_i he
      rw [he]
      exact h.bounded.pipe (.connProxy p) (by rw [hp]; exact List.mem_cons_self)
    · exact h.bounded.tcpEv q b hq
  · have hd : discs s = discs { s with mgr := { s.mgr with pipe := rest } } := funext fun q => by
      simp [discs, hp]
    exact hd ▸ h.linked

/-- `DiscProxy(p)` leaves the pipe, and the last scene of `p` is queued. -/
theorem Inv.discProxy {s : St} {p : ProxyRef} {rest : List PipeRequest} (h : Inv s)
    (he : s.event = .idle) (hp : s.mgr.pipe = .discProxy p :: rest) :
    Inv { s with
      mgr := { s.mgr with pipe := rest }.discProxy p
      discProxys := s.discProxys ++ [p] } := by
  have hmem : ∀ req ∈ rest, req ∈ s.mgr.pipe :=
    fun req hr => by rw [hp]; exact List.mem_cons_of_mem _ hr
  have hlt : p < s.mgr.nextProxy :=
    h.bounded.pipe (.discProxy p) (by rw [hp]; exact List.mem_cons_self)
  have hfresh : p ∉ s.discProxys := by
    have honce := h.linked.once p
    rw [discs, hp, List.count_cons_self] at honce
    exact List.count_eq_zero.mp (by omega)
  refine ⟨{ h.bounded with
      tcpEv := ?_
      pipe := fun req hr => h.bounded.pipe req (hmem req hr)
      scene := ?_ },
    ?_, ⟨?_, ?_, ?_⟩, h.removed⟩
  · intro q b hq
    simp only [ScreenMgr.discProxy] at hq
    split at hq
    · exact h.bounded.tcpEv q b hq
    · rw [Function.update_apply] at hq
      split at hq
      · cases hq
      · exact h.bounded.tcpEv q b hq
  · intro t ht
    rcases List.mem_append.mp ht with ht | ht
    · exact h.bounded.scene t ht
    · cases List.mem_singleton.mp ht
      exact hlt
  · have hd : discs s = discs { s with
        mgr := { s.mgr with pipe := rest }, discProxys :=
          s.discProxys ++ [p] } := funext fun q => by
      by_cases hq : q = p
      · subst hq; simp [discs, hp, Nat.add_assoc, Nat.add_comm 1]
      · simp [discs, hp, Ne.symm hq]
    exact hd ▸ h.linked
  · intro scene q hq
    rw [he] at hq
    cases hq
  · intro q hq
    dsimp only [ScreenMgr.discProxy] at hq
    rw [← List.append_assoc] at hq
    rcases List.mem_append.mp hq with hq | hq
    · exact List.mem_append_left _ (h.ordered.disc q hq)
    · cases List.mem_singleton.mp hq
      exact List.mem_append_right _ List.mem_cons_self
  · exact h.ordered.snoc (.discProxy p) hfresh

/-- A frame's scene comes before the `DiscProxyScene` of its proxy: between
`GetProxy` and `Schedule` the event thread runs no `DiscProxy`. -/
theorem Inv.schedule {s : St} {scene : Scene} {p : ProxyRef} (h : Inv s)
    (he : s.event = .schedule scene p) :
    Inv { s with mgr := { s.mgr with scenes := s.mgr.scenes ++
      [.maintain scene p] }, event := .idle } := by
  have hfresh := h.ordered.event scene p he
  refine ⟨{ h.bounded with event := (fun q hq => nomatch hq), scene := ?_ }, h.linked,
    ⟨(fun _ _ hq => nomatch hq), ?_, ?_⟩, h.removed⟩
  · intro t ht
    rcases List.mem_append.mp ht with ht | ht
    · exact h.bounded.scene t ht
    · cases List.mem_singleton.mp ht
      exact h.bounded.event p (by rw [he]; rfl)
  · intro q hq
    rw [← List.append_assoc] at hq
    rcases List.mem_append.mp hq with hq | hq
    · exact h.ordered.disc q hq
    · cases List.mem_singleton.mp hq
  · exact h.ordered.snoc (.maintain scene p) hfresh

/-- The worker takes the first scene queued. -/
theorem Inv.worker {s s' : St} (h : Inv s) (hs : s.workerStep = some s') : Inv s' := by
  unfold St.workerStep at hs
  split at hs
  · rename_i t rest hstuck hq
    have hmem : ∀ t' ∈ rest, t' ∈ s.mgr.scenes :=
      fun t' ht => by rw [hq]; exact List.mem_cons_of_mem _ ht
    have ht : t.proxy < s.mgr.nextProxy := h.bounded.scene t (by rw [hq]; exact List.mem_cons_self)
    have htasks : (s.ran ++ [t]) ++ rest = s.ran ++ s.mgr.scenes := by
      rw [hq, List.append_assoc]; rfl
    split at hs
    · rename_i w hrun
      have hw := SceneTask.run_handover hrun
      cases hs
      exact h.quiet ⟨rfl, rfl, rfl, rfl, htasks, rfl, hw.id⟩
        { h.bounded with
          room := fun r q hq => (hw.proxy r q hq).elim (h.bounded.room r q) fun e => e ▸ ht
          scene := fun t' ht => h.bounded.scene t' (hmem t' ht) }
        h.ordered.event
    · cases hs
      exact h.quiet ⟨rfl, rfl, rfl, rfl, htasks, rfl, fun _ => rfl⟩
        { h.bounded with scene := fun t' ht => h.bounded.scene t' (hmem t' ht) }
        h.ordered.event
  · cases hs

theorem Inv.onFrame {s : St} (h : Inv s) (proxyId : Nat) (scene : Scene) :
    Inv (s.onFrame proxyId scene) := by
  unfold St.onFrame ScreenMgr.getProxy
  split
  · exact h
  · rename_i p hf
    obtain ⟨-, hlt, hz⟩ := h.linked.linked _ _ hf
    refine h.quiet ⟨rfl, rfl, rfl, rfl, rfl, rfl, fun _ => rfl⟩
      { h.bounded with event := fun q hq => by cases hq; exact hlt } ?_
    intro _ _ hq
    cases hq
    exact List.count_eq_zero.mp (Nat.eq_zero_of_add_eq_zero hz).2

theorem Inv.mainStep {s s' : St} (h : Inv s) (hc : NotRelinked s .main)
    (hs : s.mainStep = some s') : Inv s' := by
  have hheld : ∀ p, s.main.proxy = some p → p < s.mgr.nextProxy := h.bounded.main
  unfold St.mainStep at hs
  split at hs
  · cases hs
  · cases hs
  · split at hs
    · cases hs
      exact h.setMain .idle (fun q hq => nomatch hq)
    · rename_i mgr p ha
      cases hs
      exact h.addProxy ha
  · rename_i p r hm
    have hp := hheld p (by rw [hm]; rfl)
    have hw := (Handover.callFrame (p := p)).login s.mgr.w
    split at hs <;> rename_i heq <;> rw [heq] at hw <;> cases hs
    · exact h.goto hw hp _ (fun q hq => by cases hq; exact hp)
    · exact h.goto hw hp _ (fun q hq => nomatch hq)
  · rename_i p r hm
    cases hs
    exact h.goto (Handover.callFrame.linkRoom s.mgr.w r) (hheld p (by rw [hm]; rfl)) _
      (fun q hq => nomatch hq)
  · rename_i p r hm
    have hp := hheld p (by rw [hm]; rfl)
    have hw := (Handover.callFrame (p := p)).unlinkRoom Handover.teardownFrame s.mgr.w r
    split at hs <;> rename_i heq <;> rw [heq] at hw <;> cases hs
    · exact h.goto hw hp _ (fun q hq => by cases hq; exact hp)
    · exact h.goto hw hp _ (fun q hq => nomatch hq)
  · rename_i p hm
    have hp := hheld p (by rw [hm]; rfl)
    cases hs
    refine h.goto (.refl _) hp _ fun q hq => ?_
    split at hq
    · cases hq; exact hp
    · cases hq
  · rename_i p hm
    cases hs
    exact h.delProxy (hheld p (by rw [hm]; rfl)) (hc p (by simp [deletes, hm])) _ _
      (fun q hq => nomatch hq) h.bounded.event h.ordered.event

theorem Inv.eventStep {s s' : St} (h : Inv s) (hc : NotRelinked s .event)
    (hs : s.eventStep = some s') :
    Inv s' := by
  unfold St.eventStep at hs
  split at hs
  · cases hs
  · rename_i p he
    cases hs
    exact h.delProxy (h.bounded.event p (by rw [he]; rfl)) (hc p (by simp [deletes, he])) _ _
      h.bounded.main (fun q hq => nomatch hq) (fun _ _ hq => nomatch hq)
  · rename_i scene p he
    cases hs
    exact h.schedule he

theorem Inv.eventOnPipe {s s' : St} {allocated added : Bool} (h : Inv s)
    (hs : s.eventOnPipe allocated added = some s') : Inv s' := by
  unfold St.eventOnPipe at hs
  split at hs
  · rename_i p rest he hp
    cases hs
    exact h.connProxy hp allocated added
  · rename_i p rest he hp
    cases hs
    exact h.discProxy he hp
  · cases hs

theorem Inv.onLinkRoom {s s' : St} {param : LinkRoomParam} (h : Inv s)
    (hs : step s (.onLinkRoom param) = some s') : Inv s' := by
  simp only [step] at hs
  split at hs
  · split at hs
    · cases hs
      exact h.setMain (.connect param) (fun q hq => nomatch hq)
    · rename_i p hf
      cases hs
      refine h.setMain (.linkRoom p param.titleRoom) fun q hq => ?_
      cases hq
      exact (h.linked.linked _ _ hf).2.1
  · cases hs

theorem Inv.onUnlinkRoom {s s' : St} {r : RoomRef} (h : Inv s)
    (hs : step s (.onUnlinkRoom r) = some s') :
    Inv s' := by
  simp only [step] at hs
  split at hs
  · split at hs
    · cases hs; exact h
    · rename_i p hroom
      cases hs
      refine h.setMain (.unlinkRoom p r) fun q hq => ?_
      cases hq
      exact h.bounded.room r p hroom
  · cases hs

theorem Inv.tcpClosed {s s' : St} {p : ProxyRef} (h : Inv s)
    (hs : step s (.tcpClosed p) = some s') :
    Inv s' := by
  simp only [step] at hs
  split at hs
  · rename_i hg
    cases hs
    refine h.quiet ⟨rfl, rfl, rfl, rfl, rfl, rfl, fun _ => rfl⟩
      { h.bounded with event := ?_, tcpEv := ?_ } (fun _ _ hq => nomatch hq)
    · intro _ hq
      cases hq
      exact h.bounded.tcpEv p true hg.2
    · intro q b hq
      simp only [ScreenMgr.closeTcp, Function.update_apply] at hq
      split at hq
      · cases hq
      · exact h.bounded.tcpEv q b hq
  · cases hs

theorem inv_step (s : St) (l : Act) (s' : St) (h : Inv s) (hc : NotRelinked s l)
    (hs : step s l = some s') :
    Inv s' := by
  cases l with
  | onLinkRoom param => exact h.onLinkRoom hs
  | connected ok =>
    simp only [step] at hs
    split at hs
    · cases hs
      refine h.setMain _ fun q hq => ?_
      split at hq <;> cases hq
    · cases hs
  | onUnlinkRoom r => exact h.onUnlinkRoom hs
  | delAllProxys =>
    simp only [step] at hs
    split at hs
    · cases hs; exact h.delAllProxys
    · cases hs
  | main => exact h.mainStep hc hs
  | eventOnPipe allocated added => exact h.eventOnPipe hs
  | tcpClosed p => exact h.tcpClosed hs
  | tcpFrame p proxyId scene =>
    simp only [step] at hs
    split at hs
    · cases hs; exact h.onFrame proxyId scene
    · cases hs
  | udpFrame proxyId =>
    simp only [step] at hs
    split at hs
    · cases hs; exact h.onFrame proxyId .nat
    · cases hs
  | event => exact h.eventStep hc hs
  | worker => exact h.worker hs

theorem inv_init (s : St) (h0 : Init s) : Inv s := by
  obtain ⟨w, hroom, rfl⟩ := h0
  have hz : ∀ p, discs ⟨⟨w, .empty, 0, fun _ => .null, [], []⟩, .idle, .idle, false, [], [],
      []⟩ p = 0 :=
    fun p => rfl
  refine ⟨⟨fun r p hp =>
    ?_, by simp [MainPc.proxy], by simp [EventPc.proxy], by simp, by simp, by simp⟩,
    ⟨by simp, fun p hp => absurd hp (Nat.not_lt_zero p), fun p hl => ?_, fun p => ?_⟩,
    ⟨by simp, by simp, by simp⟩, by simp⟩
  · rw [hroom] at hp; cases hp
  · rw [hz] at hl; exact absurd hl (Nat.lt_irrefl 0)
  · rw [hz]; exact Nat.zero_le 1

/-- `DelProxy` for an object on its way out whose id is linked anew. -/
theorem delProxy_relinked {s s' : St} {l : Act} (h : Inv s) (hc : ¬ NotRelinked s l)
    (hs : step s l = some s') : ∃ p q, p ≠ q ∧ (p, q) ∈ s'.removed := by
  simp only [NotRelinked, not_forall] at hc
  obtain ⟨p, hdel, hleave, hf⟩ := hc
  obtain ⟨q, hq⟩ := Option.ne_none_iff_exists'.mp hf
  have hne : p ≠ q := by
    rintro rfl
    have := (h.linked.linked _ _ hq).2.2
    rw [leaving_iff, this] at hleave
    exact Nat.lt_irrefl 0 hleave
  have hremoved : ∀ main event, (p, q) ∈ (s.delProxy p main event).removed := fun main event => by
    simp [St.delProxy, ScreenMgr.delProxy, hq]
  refine ⟨p, q, hne, ?_⟩
  cases l <;> simp only [deletes, Option.mem_def, reduceCtorEq] at hdel
  case main =>
    split at hdel
    · rename_i hm
      cases hdel
      simp only [step, St.mainStep, hm, Option.some.injEq] at hs
      exact hs ▸ hremoved _ _
    · cases hdel
  case event =>
    split at hdel
    · rename_i he
      cases hdel
      simp only [step, St.eventStep, he, Option.some.injEq] at hs
      exact hs ▸ hremoved _ _
    · cases hdel

theorem retired_guarded : sys.Guarded NotRelinked Inv Retired where
  init := inv_init
  step := inv_step
  safe _ h := h.retired
  sharp s l s' h hc hs hret := by
    obtain ⟨p, q, hne, hmem⟩ := delProxy_relinked h hc hs
    exact hne (hret.itself _ hmem)

/-- **Every object is retired once and only itself**, in every state of a
run, exactly when no `DelProxy` comes for an object on its way out whose id is
linked anew. -/
theorem retired_iff {s₀ s : St} {ms : List (Move St Act)} (h0 : Init s₀) (hr : sys.Run s₀ ms s) :
    (∀ x ∈ visited s₀ ms, Retired x) ↔ ∀ m ∈ ms, NotRelinked m.src m.lbl :=
  retired_guarded.safe_along_iff h0 hr

/-! ## Two runs -/

def start : St :=
  ⟨⟨{ World.launched with rooms := fun r => ⟨r, none, .empty, []⟩ }, .empty, 0,
    fun _ => .null, [], []⟩,
    .idle, .idle, false, [], [], []⟩

theorem init_start : Init start := ⟨_, fun _ => rfl, rfl⟩

instance (s : St) (p : ProxyRef) : Decidable (Leaving s p) := inferInstanceAs (Decidable (_ ∨ _))

instance (s : St) (l : Act) : Decidable (NotRelinked s l) :=
  inferInstanceAs (Decidable (∀ p ∈ deletes s l, Leaving s p →
    s.mgr.linkedProxys.find? (s.mgr.id p) = none))

/-- Room 0 is linked through proxy 7, which answers, and unlinked again. -/
def linkAndUnlink : List Act :=
  [.onLinkRoom ⟨7, "10.0.0.7", 13000, 0⟩, .connected true, .main, .main, .main,
    .eventOnPipe true true,
    .tcpFrame 0 7 .resLogin, .event, .worker, .udpFrame 7, .event, .worker,
    .onUnlinkRoom 0, .main, .main, .main]

/-- The connection closes before `DiscProxy`, and its id is free. -/
def closedEarly : List Act :=
  linkAndUnlink ++ [.tcpClosed 0, .event, .eventOnPipe true true, .worker]

theorem retired_iff_closedEarly :
    (∀ m ∈ moves step start closedEarly, NotRelinked m.src m.lbl) ∧
      ∀ x ∈ visited start (moves step start closedEarly), Retired x := by
  have hn : ∀ m ∈ moves step start closedEarly, NotRelinked m.src m.lbl := by decide +kernel
  exact ⟨hn, (retired_iff init_start (run_of_exec closedEarly (by decide +kernel))).mpr hn⟩

/-- Room 1 is linked through a new object of id 7 before the connection of the
old one closes. -/
def relinked : List Act :=
  linkAndUnlink ++ [.onLinkRoom ⟨7, "10.0.0.7", 13000, 1⟩, .connected true, .main, .tcpClosed 0,
    .event,
    .eventOnPipe true true, .eventOnPipe true true, .eventOnPipe true true, .worker, .worker]

/-- The closing connection removes the new object, and its own is destroyed
twice. -/
theorem retired_twice : ∃ s, sys.Reachable s ∧ (0, 1) ∈ s.removed ∧ s.discProxys = [0, 0] ∧
    s.ran.count (.discProxy 0) = 2 ∧ ¬ Retired s := by
  obtain ⟨s, hr, hp⟩ := exists_reachable_of_exec Init step relinked
    (fun s => decide ((0, 1) ∈ s.removed) && s.discProxys == [0, 0] &&
      s.ran.count (.discProxy 0) == 2)
    init_start (by decide +kernel)
  simp only [Bool.and_eq_true, beq_iff_eq, decide_eq_true_eq] at hp
  obtain ⟨⟨hrem, hdisc⟩, hran⟩ := hp
  exact ⟨s, hr, hrem, hdisc, hran, fun hret => absurd (hret.itself _ hrem) (by decide)⟩

end MonitorAgent.L5.Retire
