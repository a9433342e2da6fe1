import MonitorAgent.L3Wall.Bijection
import MonitorAgent.L3Wall.TeardownLoops
import MonitorAgent.L4Titles.Refresh
import MonitorAgent.L4Titles.RoomLinks

/-!
# A proxy is destroyed

`AvsProxy::Destory` clears the rooms of one proxy, with proxies, rooms, users
and screens all in play. Nothing keeps a room from coming under two proxies:
it waits at both, and `AddRoom` looks only at the ids of its own map. Then the
teardown of one takes the users off a room that the other still holds.

* `destory_local_iff`: in every reachable state `Destory` returns and is
  complete, and it is local exactly if no room that another proxy holds too
  has anything to lose.
-/
namespace MonitorAgent.L4

open L3 LTS Titles

/-- Operations on proxies, rooms and the tree, and operations on screens. -/
inductive ClientOp
  | link (op : LinkOp)
  | wall (op : WallOp)

def seats : WallOp → Bool
  | .linkScreenUser _ _ | .unlinkScreenUser _ _ | .connectUser _ _ | .disconnectUser _ => true
  | .cleanScreens | .modUser _ _ _ => true
  | _ => false

/-- `LinkRoom` is given a room of the tree. -/
def Linkage.clientStep (s : Linkage) : ClientOp → Option Linkage
  | .link (.linkRoom p r) => if RoomExists s.t r then s.step (.linkRoom p r) else none
  | .link op => s.step op
  | .wall op => if seats op then (s.t.w.wallStep op).map s.setWall else none

def clientSys : LTS Linkage ClientOp := .ofFn Linkage.Launched Linkage.clientStep

/-! ## Rooms are filed under their ids -/

/-- Entries are rooms that were built, under their ids. -/
def RoomsKeyed (n : NodeRef) (w : World) : Prop :=
  ∀ p k r, (w.proxies p).rooms.find? k = some r → (w.rooms r).id = k ∧ r < n

namespace RoomsKeyed

variable {n : NodeRef} {w : World} (h : RoomsKeyed n w)
include h

theorem congr {w' : World} (hp : ∀ p, (w'.proxies p).rooms = (w.proxies p).rooms)
    (hr : ∀ r, (w'.rooms r).id = (w.rooms r).id) : RoomsKeyed n w' := by
  intro p k r hf
  rw [hp] at hf
  rw [hr]
  exact h p k r hf

theorem linkRoom (p : ProxyRef) {r : RoomRef} (hr : r < n) : RoomsKeyed n (w.linkRoom p r).1 := by
  unfold World.linkRoom
  split
  · intro q k r' hf
    rw [(World.linkOnline_eq w p r).2, World.addRoom_find?] at hf
    rw [(World.linkOnline_eq w p r).1, World.addRoom_id]
    split at hf
    · rename_i hk
      cases hk' : (w.proxies p).rooms.find? (w.rooms r).id with
      | none =>
        rw [hk'] at hf
        cases hf
        exact ⟨hk.2.symm, hr⟩
      | some r₀ =>
        rw [hk'] at hf
        cases hf
        exact hk.2 ▸ h p _ r₀ hk'
    · exact h q k r' hf
  · refine h.congr (fun q => ?_) fun _ => rfl
    rw [World.pushWaits, World.modifyProxy_proxies]
    split
    · rename_i he; rw [he]
    · rfl

theorem linkRooms (p : ProxyRef) (rs : List RoomRef) (hrs : ∀ r ∈ rs, r < n) :
    RoomsKeyed n (rs.foldl (fun w r => (w.linkRoom p r).1) w) := by
  induction rs generalizing w with
  | nil => exact h
  | cons r rs ih =>
    exact ih (h.linkRoom p (hrs r List.mem_cons_self))
      fun r' hr' => hrs r' (List.mem_cons_of_mem _ hr')

theorem onRxNAT (p : ProxyRef) (hw : ∀ r ∈ (w.proxies p).waitsRooms, r < n) :
    RoomsKeyed n (w.onRxNAT p).1 := by
  by_cases hs : (w.proxies p).status = .nating
  · obtain ⟨hrooms, hproxies⟩ := onRxNAT_eq hs
    have hset := SameRefs.setStatus w p .online
    have hon : RoomsKeyed n (w.setStatus p .online) :=
      h.congr (fun q => (hset.proxies q).1) fun r => (hset.rooms r).1
    exact (hon.linkRooms p _ hw).congr (fun q => (hproxies q).1)
      fun r => congrArg _ (congrFun hrooms r)
  · rw [World.onRxNAT, if_pos hs]
    exact h

theorem unlinkRoom (p : ProxyRef) (r : RoomRef) : RoomsKeyed n (w.unlinkRoom p r).1 := by
  obtain ⟨hrooms, hproxies⟩ := World.unlinkRoom_eq w p r
  intro q k r' hf
  rw [hproxies, World.delRoom_find?] at hf
  rw [hrooms, World.delRoom_id]
  split at hf
  · cases hf
  · exact h q k r' hf

theorem destory (hw : Bij w) (p : ProxyRef) : RoomsKeyed n (w.destory p) := by
  have ht := destory_tornDown p hw fun k r hf => (h p k r hf).1
  intro q k r hf
  rw [ht.id]
  by_cases hq : q = p
  · rw [hq, ht.empty] at hf
    cases hf
  · rw [ht.others q hq] at hf
    exact h q k r hf

end RoomsKeyed

/-- The tree, the seats and the entries of the proxies are in order. -/
structure Keyed (s : Linkage) : Prop where
  tree : Tree s.t
  bij : Bij s.t.w
  rooms : RoomsKeyed s.t.nextNode s.t.w
  known : ∀ p k r, (s.t.w.proxies p).rooms.find? k = some r → p ∈ s.proxys
  waits : ∀ p ∈ s.proxys, ∀ r ∈ (s.t.w.proxies p).waitsRooms, r < s.t.nextNode

namespace Keyed

variable {s : Linkage}

theorem launched (h : s.Launched) : Keyed s where
  tree := (LinkInv.launched h).tree
  bij := .launched h.world
  rooms p k r hf := by rw [h.rooms] at hf; cases hf
  known p k r hf := by rw [h.rooms] at hf; cases hf
  waits p hp := by rw [h.proxys] at hp; cases hp

/-- A call that leaves the references alone. -/
theorem wall (h : Keyed s) {w : World} (hb : Bij w) (hr : SameRefs s.t.w w) :
    Keyed (s.setWall w) where
  tree := h.tree.wall w
  bij := hb
  rooms := h.rooms.congr (fun p => (hr.proxies p).1) fun r => (hr.rooms r).1
  known p k r hf := h.known p k r ((hr.proxies p).1 ▸ hf)
  waits p hp r hr' := h.waits p hp r ((hr.proxies p).2 ▸ hr')

theorem newProxy (h : Keyed s) (id : Nat) (ip : String) (udpPort : Nat) :
    Keyed (s.newProxy id ip udpPort) := by
  have hproxy : ∀ p, (s.newProxy id ip udpPort).t.w.proxies p =
      if p = s.nextProxy then ScreenMgr.newProxy id ip udpPort else s.t.w.proxies p := fun p =>
    World.modifyProxy_proxies s.t.w s.nextProxy (fun _ => ScreenMgr.newProxy id ip udpPort) p
  refine ⟨h.tree.wall _, h.bij.steps
    (SameWall.modifyProxy s.t.w s.nextProxy fun _ => ScreenMgr.newProxy id ip udpPort).steps,
    fun p k r hf => ?_, fun p k r hf => ?_, fun p hp r hr => ?_⟩
  · rw [hproxy] at hf
    split at hf
    · cases hf
    · exact h.rooms p k r hf
  · rw [hproxy] at hf
    split at hf
    · cases hf
    · exact List.mem_append_left _ (h.known p k r hf)
  · rw [hproxy] at hr
    split at hr
    · cases hr
    · rename_i hne
      refine h.waits p ((List.mem_append.mp hp).resolve_right fun he => hne ?_) r hr
      exact List.mem_singleton.mp he

theorem linkRoom (h : Keyed s) {p : ProxyRef} (hp : p ∈ s.proxys) {r : NodeRef}
    (hr : r < s.t.nextNode) :
    Keyed (s.setWall (s.t.w.linkRoom p r).1) := by
  refine ⟨h.tree.wall _, h.bij.steps ((SameWall.callFrame p).linkRoom s.t.w r).steps,
    h.rooms.linkRoom p hr, fun q k r' hf => ?_, fun q hq r' hr' => ?_⟩
  · by_cases hqp : q = p
    · exact hqp ▸ hp
    · refine h.known q k r' ?_
      rwa [← (otherProxies_callFrame p).linkRoom s.t.w r q hqp]
  · rcases waits_linkRoom hr' with hr' | ⟨-, rfl, -⟩
    · exact h.waits q hq r' hr'
    · exact hr

theorem onRxNAT (h : Keyed s) {p : ProxyRef} (hp : p ∈ s.proxys) :
    Keyed (s.setWall (s.t.w.onRxNAT p).1) := by
  refine ⟨h.tree.wall _, h.bij.steps ((SameWall.callFrame p).onRxNAT s.t.w).steps,
    h.rooms.onRxNAT p (h.waits p hp), fun q k r hf => ?_,
    fun q hq r hr => h.waits q hq r (waits_onRxNAT hr)⟩
  by_cases hqp : q = p
  · exact hqp ▸ hp
  · refine h.known q k r ?_
    rwa [← (otherProxies_callFrame p).onRxNAT s.t.w q hqp]

theorem unlinkRoom (h : Keyed s) (p : ProxyRef) (r : NodeRef) :
    Keyed (s.setWall (s.t.w.unlinkRoom p r).1) :=
  ⟨h.tree.wall _, h.bij.steps (unlinkRoom_steps h.bij p r), h.rooms.unlinkRoom p r,
    fun q k r' hf => h.known q k r' (find?_unlinkRoom hf),
    fun q hq r' hr' => h.waits q hq r' (waits_unlinkRoom ▸ hr')⟩

theorem destory (h : Keyed s) (p : ProxyRef) : Keyed (s.destory p) := by
  have ht := destory_tornDown p h.bij fun k r hf => (h.rooms p k r hf).1
  refine ⟨h.tree.wall _, h.bij.steps (destory_steps h.bij p), h.rooms.destory h.bij p,
    fun q k r hf => ?_, fun q hq r hr => ?_⟩
  · change ((s.t.w.destory p).proxies q).rooms.find? k = some r at hf
    by_cases hqp : q = p
    · rw [hqp, ht.empty] at hf
      cases hf
    · rw [ht.others q hqp] at hf
      exact Linkage.mem_destory.mpr ⟨h.known q k r hf, hqp⟩
  · obtain ⟨hq, hqp⟩ := Linkage.mem_destory.mp hq
    change r ∈ ((s.t.w.destory p).proxies q).waitsRooms at hr
    rw [ht.others q hqp] at hr
    exact h.waits q hq r hr

/-- A listing builds new rooms and changes no id. -/
theorem parseXML (h : Keyed s) {n : NodeRef}
    (hn : (s.t.nodes n).alive = true ∧ (s.t.nodes n).nodeType = .titleNode)
    (response : Option Document) :
    Keyed { s with t := s.t.parseXML n response } := by
  have hn' : (s.t.nodes n).alive = true ∧ (s.t.nodes n).nodeType ≠ .titleRoom :=
    ⟨hn.1, by rw [hn.2]; decide⟩
  have htree := h.tree.parseXML hn.1 hn'.2 response
  have hbij := parseXML_bij h.tree h.bij hn' response
  cases response with
  | none => exact h
  | some d =>
    have hg := grows_parse d.heading d.entries h.tree hn' fun _ he => List.mem_map_of_mem he
    obtain ⟨hk, -⟩ := kickout_removes hg.tree.toShape n d.ids
    have hproxies : (s.t.parseXML n (some d)).w.proxies = s.t.w.proxies :=
      hk.proxies.trans hg.proxies
    have hnext : s.t.nextNode ≤ (s.t.parseXML n (some d)).nextNode := by
      rw [Titles.parseXML, hk.nextNode]
      exact hg.next
    refine ⟨htree, hbij, fun p k r hf => ?_, fun p k r hf => ?_, fun p hp r hr => ?_⟩
    · change ((s.t.parseXML n (some d)).w.proxies p).rooms.find? k = some r at hf
      rw [hproxies] at hf
      obtain ⟨hid, hlt⟩ := h.rooms p k r hf
      refine ⟨(hk.roomId r).trans ?_, Nat.lt_of_lt_of_le hlt hnext⟩
      rw [(hg.old r hlt).2.2.2]
      exact hid
    · change ((s.t.parseXML n (some d)).w.proxies p).rooms.find? k = some r at hf
      rw [hproxies] at hf
      exact h.known p k r hf
    · change r ∈ ((s.t.parseXML n (some d)).w.proxies p).waitsRooms at hr
      rw [hproxies] at hr
      exact Nat.lt_of_lt_of_le (h.waits p hp r hr) hnext

theorem link (h : Keyed s) {s' : Linkage} {op : LinkOp}
    (hop : ∀ p r, op = .linkRoom p r → RoomExists s.t r) (hst : s.step op = some s') :
    Keyed s' := by
  cases op
  case newProxy id ip udpPort => cases hst; exact h.newProxy id ip udpPort
  all_goals
    simp only [Linkage.step] at hst
    split at hst
    case isFalse => cases hst
    cases hst
  case login p _ => exact h.wall (h.bij.steps ((SameWall.callFrame p).login _).steps) (.login _ p)
  case onRxLogin p _ =>
    exact h.wall (h.bij.steps ((SameWall.callFrame p).onRxLogin _).steps) (.onRxLogin _ p)
  case onRxNAT p hp => exact h.onRxNAT hp
  case linkRoom p r hp => exact h.linkRoom hp (h.tree.inUse r (hop p r rfl).1)
  case unlinkRoom p r _ => exact h.unlinkRoom p r
  case destory p _ => exact h.destory p
  case parseXML n response hn => exact h.parseXML hn response
  case addUser r userId micId _ =>
    exact h.wall (h.bij.steps (addUser_steps _ r userId micId)) (.addUser _ r userId micId)
  case delUser r userId _ =>
    exact h.wall (h.bij.steps (delUser_steps h.bij r userId)) (.delUser _ r userId)

theorem seat (h : Keyed s) {w : World} {op : WallOp} (hs : seats op = true)
    (hst : s.t.w.wallStep op = some w) : Keyed (s.setWall w) := by
  have hb : Bij w := bij_inductive.step s.t.w op w h.bij hst
  refine h.wall hb ?_
  cases op
  case linkScreenUser idx u =>
    simp only [World.wallStep] at hst
    split at hst
    · exact SameRefs.seatFrame.linkScreenUser _ hst
    · cases hst
  case unlinkScreenUser t u =>
    simp only [World.wallStep] at hst
    split at hst
    · cases hst; exact SameRefs.seatFrame.unlinkScreenUser _ _ _
    · cases hst
  case connectUser t u =>
    simp only [World.wallStep] at hst
    split at hst
    · cases hst; exact SameRefs.seatFrame.connect _ t u
    · cases hst
  case disconnectUser t => cases hst; exact SameRefs.seatFrame.disconnect _ t
  case cleanScreens => cases hst; exact SameRefs.seatFrame.cleanScreens _
  case modUser u a v =>
    obtain ⟨-, rfl⟩ := wallStep_modUser hst
    exact .of_same (World.modMedia_proxies ..) (World.modMedia_rooms ..)
  all_goals cases hs

end Keyed

theorem keyed_inductive : clientSys.Inductive Keyed where
  init _ h0 := .launched h0
  step s op s' h hst := by
    change s.clientStep op = some s' at hst
    cases op with
    | wall op =>
      simp only [Linkage.clientStep] at hst
      split at hst
      · rename_i hs
        obtain ⟨w, hw, rfl⟩ := Option.map_eq_some_iff.mp hst
        exact h.seat hs hw
      · cases hst
    | link op =>
      unfold Linkage.clientStep at hst
      split at hst
      · rename_i he
        cases he
        split at hst
        · exact h.link (fun p r e => by cases e; assumption) hst
        · cases hst
      · rename_i hne he
        cases he
        exact h.link (fun p r e => (hne p r e).elim) hst
      · rename_i he
        cases he

/-! ## Complete and local -/

/-- The proxy has no rooms left, the rooms it held no users and no proxy, and
the screens that showed those users are idle; other proxies, the rooms they
hold, their users and the screens these are on are as before. -/
structure TornDownLocally (p : ProxyRef) (w w' : World) : Prop where
  empty : ∀ k, (w'.proxies p).rooms.find? k = none
  held : ∀ k r, (w.proxies p).rooms.find? k = some r →
    (w'.rooms r).proxy = none ∧ ∀ k', (w'.rooms r).users.find? k' = none
  idle : ∀ k r k' u s, (w.proxies p).rooms.find? k = some r → (w.rooms r).users.find? k' = some u →
    (w.screens s).user = some u → (w'.screens s).user = none ∧ (w'.screens s).mediaActive = false
  others : ∀ q, q ≠ p → w'.proxies q = w.proxies q
  rooms : ∀ q k r, q ≠ p → (w.proxies q).rooms.find? k = some r → w'.rooms r = w.rooms r
  users : ∀ q k r k' u, q ≠ p → (w.proxies q).rooms.find? k = some r →
    (w.rooms r).users.find? k' = some u →
    w'.users u = w.users u ∧ ∀ s, (w.screens s).user = some u → w'.screens s = w.screens s

/-- A room that another proxy holds too has no users and no proxy. -/
def NothingShared (p : ProxyRef) (w : World) : Prop :=
  ∀ q k r, q ≠ p → (w.proxies q).rooms.find? k = some r → (w.proxies p).rooms.find? k = some r →
    (w.rooms r).proxy = none ∧ (w.rooms r).users.isEmpty = true

/-- A room without users and proxy has nothing to lose. -/
theorem delRoom_bare {w : World} (p : ProxyRef) (roomId : Int) (r₀ : RoomRef) {r : RoomRef}
    (hp : (w.rooms r).proxy = none) (hu : (w.rooms r).users.isEmpty = true) :
    (w.delRoom p roomId r₀).1.rooms r = w.rooms r := by
  by_cases hr : r = r₀
  · subst hr
    unfold World.delRoom
    split
    · rfl
    · have hb : (w.rooms r).users.begin = none := by
        cases hb : (w.rooms r).users.begin with
        | none => rfl
        | some k =>
          obtain ⟨u, hf⟩ := StdMap.find?_begin hb
          rw [(StdMap.isEmpty_iff _).mp hu] at hf
          cases hf
      generalize hw' : w.modifyProxy p (fun x => { x with rooms := x.rooms.erase roomId }) = w'
      have hrooms : w'.rooms = w.rooms := by rw [← hw']; rfl
      have hgo : ∀ n, World.onDestoryGo r n none w' = w' := fun n => by cases n <;> rfl
      dsimp only
      rw [World.onDestory, hrooms, hb, hgo, World.modifyRoom_rooms, if_pos rfl, hrooms, ← hp]
  · exact World.delRoom_rooms_ne w r₀ p roomId hr

/-- A room without users and proxy comes through untouched. -/
theorem destory_bare {w : World} (p : ProxyRef) {r : RoomRef} (hp : (w.rooms r).proxy = none)
    (hu : (w.rooms r).users.isEmpty = true) :
    (w.destory p).rooms r = w.rooms r := by
  have hkey : ∀ (n : Nat) (proom : Option Int) (w : World), (w.rooms r).proxy = none →
      (w.rooms r).users.isEmpty = true → (World.destoryGo p n proom w).rooms r = w.rooms r := by
    intro n
    induction n with
    | zero => exact fun _ _ _ _ => rfl
    | succ n ih =>
      intro proom w hp hu
      cases proom with
      | none => rfl
      | some k =>
        unfold World.destoryGo
        split
        · rfl
        · rename_i r₀ _
          have hr := delRoom_bare (w := w) p (w.rooms r₀).id r₀ hp hu
          rw [ih _ _ (by rw [hr]; exact hp) (by rw [hr]; exact hu), hr]
  exact hkey _ _ _ hp hu

section Destory

variable {w : World} (hw : Bij w) {p : ProxyRef}
  (hid : ∀ p k r, (w.proxies p).rooms.find? k = some r → (w.rooms r).id = k)
include hw hid

/-- A screen that showed a user of the proxy lets go of it, and takes no
other. -/
theorem destory_idle {k : Int} {r : RoomRef} {k' : Int} {u : UserRef} {s : ScreenRef}
    (hf : (w.proxies p).rooms.find? k = some r) (hu : (w.rooms r).users.find? k' = some u)
    (hs : (w.screens s).user = some u) :
    ((w.destory p).screens s).user = none ∧ ((w.destory p).screens s).mediaActive = false := by
  have ht := destory_tornDown p hw (hid p)
  refine ((Fades.callFrame p).destory Fades.teardownFrame w).idle hw (destory_steps hw p) hu
    (fun e => ?_) hs
  rw [(ht.held r (by rw [hid p k r hf]; exact hf)).2] at e
  cases e

theorem destory_local (hn : NothingShared p w) : TornDownLocally p w (w.destory p) := by
  have ht := destory_tornDown p hw (hid p)
  have he := destory_elsewhere p hw (hid p)
  refine ⟨ht.empty, fun k r hf => ht.held r (by rw [hid p k r hf]; exact hf),
    fun k r k' u s hf hu hs => destory_idle hw hid hf hu hs, ht.others, fun q k r hq hf => ?_,
    fun q k r k' u hq hf hu => ?_⟩
  · by_cases hp : (w.proxies p).rooms.find? (w.rooms r).id = some r
    · rw [hid q k r hf] at hp
      obtain ⟨hnone, hempty⟩ := hn q k r hq hf hp
      exact destory_bare p hnone hempty
    · exact ht.free r hp
  · obtain ⟨ha, hr, -⟩ := hw.filed r k' u hu
    have hout : ¬ (w.proxies p).rooms.find? (w.rooms (w.users u).titleRoom).id =
        some (w.users u).titleRoom := by
      rw [hr, hid q k r hf]
      intro hp
      rw [(StdMap.isEmpty_iff _).mp (hn q k r hq hf hp).2] at hu
      cases hu
    exact ⟨he.users u ha hout, fun s hs => he.screens s u hs ha hout⟩

end Destory

/-- What is cleared under one proxy and kept under another had nothing. -/
theorem TornDownLocally.nothingShared {p : ProxyRef} {w w' : World} (h : TornDownLocally p w w') :
    NothingShared p w := by
  intro q k r hq hf hp
  obtain ⟨hnone, hempty⟩ := h.held k r hp
  rw [h.rooms q k r hq hf] at hnone hempty
  exact ⟨hnone, (StdMap.isEmpty_iff _).mpr hempty⟩

/-- **Teardown of a proxy.** In every reachable state `Destory` returns, its
work done; nothing else has changed iff what the proxy shares with another is
bare. -/
theorem destory_local_iff {s : Linkage} (hr : clientSys.Reachable s) (p : ProxyRef) :
    (∃ w', (∃ N, ∀ n, N ≤ n → s.t.w.destoryWithin n p = some w') ∧ TornDownLocally p s.t.w w') ↔
      NothingShared p s.t.w := by
  have h := keyed_inductive.reachable s hr
  have hid : ∀ p k r, (s.t.w.proxies p).rooms.find? k = some r → (s.t.w.rooms r).id = k :=
    fun p k r hf => (h.rooms p k r hf).1
  constructor
  · rintro ⟨w', -, hlocal⟩
    exact hlocal.nothingShared
  · exact fun hn => ⟨s.t.w.destory p, World.destoryWithin_eq p h.bij (hid p),
      destory_local h.bij hid hn⟩

/-! ## Runs -/

def online (p : ProxyRef) : List ClientOp :=
  [.link (.login p), .link (.onRxLogin p), .link (.onRxNAT p)]

/-- A room with a user on screen 3. -/
def oneProxy : List ClientOp :=
  [.link (.newProxy 7 "10.0.0.7" 9000), .link (.parseXML 0 (roomListing [5])),
    .link (.linkRoom 0 1)] ++ online 0 ++
    [.link (.addUser 1 77 1), .wall (.linkScreenUser 3 0)]

/-- The room waits at two proxies, and both come online. -/
def twoProxys : List ClientOp :=
  [.link (.newProxy 7 "10.0.0.7" 9000), .link (.newProxy 8 "10.0.0.8" 9000),
    .link (.parseXML 0 (roomListing [5])),
    .link (.linkRoom 0 1), .link (.linkRoom 1 1)] ++ online 0 ++ online 1 ++
    [.link (.addUser 1 77 1), .wall (.linkScreenUser 3 0)]

theorem destory_local_oneProxy :
    ∃ s : Linkage, (s.t.w.screens 3).user = some 0 ∧
      ∃ w', (∃ N, ∀ n, N ≤ n → s.t.w.destoryWithin n 0 = some w') ∧ TornDownLocally 0 s.t.w w' := by
  obtain ⟨s, hr, hp⟩ := exists_reachable_of_exec Linkage.Launched Linkage.clientStep oneProxy
    (fun s => s.proxys == [0] && (s.t.w.screens 3).user == some 0) Linkage.launched_launched
      (by decide +kernel)
  simp only [Bool.and_eq_true, beq_iff_eq] at hp
  refine ⟨s, hp.2, (destory_local_iff hr 0).mpr fun q k r hq hf _ => ?_⟩
  have hm := (keyed_inductive.reachable s hr).known q k r hf
  rw [hp.1] at hm
  exact absurd (List.mem_singleton.mp hm) hq

/-- Proxy 0 goes, and the room of proxy 1 loses its user. -/
theorem destory_strips_other :
    ∃ s, clientSys.Reachable s ∧ s.proxys = [0, 1] ∧ (s.t.nodes 1).alive = true ∧
      (s.t.w.proxies 1).rooms.find? 5 = some 1 ∧ (s.t.w.screens 3).user = some 0 ∧
      ((s.t.w.destory 0).rooms 1).users.isEmpty = true ∧ ((s.t.w.destory 0).screens 3).user = none ∧
      ¬ (∃ w', (∃ N, ∀ n, N ≤ n → s.t.w.destoryWithin n 0 = some w') ∧
        TornDownLocally 0 s.t.w w') := by
  obtain ⟨s, hr, hp⟩ := exists_reachable_of_exec Linkage.Launched Linkage.clientStep twoProxys
    (fun s => s.proxys == [0, 1] && (s.t.nodes 1).alive &&
      (s.t.w.proxies 1).rooms.find? 5 == some 1 &&
      (s.t.w.screens 3).user == some 0 && ((s.t.w.destory 0).rooms 1).users.isEmpty &&
      (((s.t.w.destory 0).screens 3).user == none) && (s.t.w.proxies 0).rooms.find? 5 == some 1 &&
      !(s.t.w.rooms 1).users.isEmpty) Linkage.launched_launched (by decide +kernel)
  simp only [Bool.and_eq_true, beq_iff_eq, Bool.not_eq_true'] at hp
  obtain ⟨⟨⟨⟨⟨⟨⟨hproxys, ha⟩, h1⟩, hs⟩, hu⟩, hs'⟩, h0⟩, hne⟩ := hp
  refine ⟨s, hr, hproxys, ha, h1, hs, hu, hs', ?_⟩
  rintro ⟨w', -, hl⟩
  rw [(hl.nothingShared 1 5 1 (by decide) h1 h0).2] at hne
  cases hne

end MonitorAgent.L4
