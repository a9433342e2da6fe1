import MonitorAgent.Core.LTS
import MonitorAgent.L3Wall.Bijection
import MonitorAgent.L4Session.LinkedProxys
import MonitorAgent.L4Titles.Listing

/-!
# Rooms of the tree and the proxies that hold them

Proxies hold pointers to rooms of the tree, linked (`rooms_`) or waiting
(`waits_rooms_`), and rooms point back (`proxy_`). The tree is refreshed
without asking the proxies: `KickoutRedundantNodes` deletes rooms that are
still held, a new room's `proxy_` is whatever its memory holds, and `LinkRoom`
writes `proxy_` of a room another proxy holds.

* `linked_iff`: along a run both directions of the references agree, and what
  is held exists, exactly if no step does one of these things.
-/
namespace MonitorAgent.L4

open L3 LTS Titles

/-- The tree, and the proxies that exist. -/
structure Linkage where
  t : Titles
  proxys : List ProxyRef
  nextProxy : ProxyRef

/-- `linkRoom` and `destory` on a proxy, `parseXML` on a node, and what
happens in between. -/
inductive LinkOp
  | newProxy (id : Nat) (ip : String) (udpPort : Nat)
  | login (p : ProxyRef)
  | onRxLogin (p : ProxyRef)
  | onRxNAT (p : ProxyRef)
  | linkRoom (p : ProxyRef) (r : NodeRef)
  | unlinkRoom (p : ProxyRef) (r : NodeRef)
  | destory (p : ProxyRef)
  | parseXML (n : NodeRef) (response : Option Document)
  | addUser (r : NodeRef) (userId : Int) (micId : Nat)
  | delUser (r : NodeRef) (userId : Int)

namespace Linkage

def setWall (s : Linkage) (w : World) : Linkage := { s with t := { s.t with w := w } }

def newProxy (s : Linkage) (id : Nat) (ip : String) (udpPort : Nat) : Linkage where
  t := { s.t with w := s.t.w.modifyProxy s.nextProxy fun _ => ScreenMgr.newProxy id ip udpPort }
  proxys := s.proxys ++ [s.nextProxy]
  nextProxy := s.nextProxy + 1

/-- `Destory`, and the object is deleted. -/
def destory (s : Linkage) (p : ProxyRef) : Linkage where
  t := { s.t with w := s.t.w.destory p }
  proxys := s.proxys.filter (· ≠ p)
  nextProxy := s.nextProxy

theorem mem_destory {s : Linkage} {p q : ProxyRef} :
    q ∈ (s.destory p).proxys ↔ q ∈ s.proxys ∧ q ≠ p := by
  rw [destory, List.mem_filter, decide_eq_true_eq]

/-- Operations run on objects that exist; a room that is linked or unlinked
may be any pointer. -/
def step (s : Linkage) : LinkOp → Option Linkage
  | .newProxy id ip udpPort => some (s.newProxy id ip udpPort)
  | .login p => if p ∈ s.proxys then some (s.setWall (s.t.w.login p).1) else none
  | .onRxLogin p => if p ∈ s.proxys then some (s.setWall (s.t.w.onRxLogin p).1) else none
  | .onRxNAT p => if p ∈ s.proxys then some (s.setWall (s.t.w.onRxNAT p).1) else none
  | .linkRoom p r => if p ∈ s.proxys then some (s.setWall (s.t.w.linkRoom p r).1) else none
  | .unlinkRoom p r => if p ∈ s.proxys then some (s.setWall (s.t.w.unlinkRoom p r).1) else none
  | .destory p => if p ∈ s.proxys then some (s.destory p) else none
  | .parseXML n response =>
    if (s.t.nodes n).alive ∧ (s.t.nodes n).nodeType = .titleNode then
    some { s with t := s.t.parseXML n response }
    else none
  | .addUser r userId micId =>
    if RoomExists s.t r then some (s.setWall (s.t.w.addUser r userId micId).1) else none
  | .delUser r userId =>
    if RoomExists s.t r then some (s.setWall (s.t.w.delUser r userId).1) else none

/-- No proxies, no children, no users. -/
structure Launched (s : Linkage) : Prop where
  world : s.t.w.Launched
  proxys : s.proxys = []
  rooms : ∀ p k, (s.t.w.proxies p).rooms.find? k = none
  nodes : ∀ n id, (s.t.nodes n).nodes.find? id = none
  parentItem : ∀ n, (s.t.nodes n).parentItem = none
  alive : ∀ n, (s.t.nodes n).alive = true → n < s.t.nextNode ∧ (s.t.nodes n).nodeType ≠ .titleRoom

/-- The rooms a proxy has pointers to. -/
def held (s : Linkage) (p : ProxyRef) : List NodeRef :=
  (s.t.w.proxies p).waitsRooms ++ (s.t.w.proxies p).rooms.entries.map Prod.snd

theorem mem_held {s : Linkage} {p : ProxyRef} {r : NodeRef} :
    r ∈ s.held p ↔ r ∈ (s.t.w.proxies p).waitsRooms ∨ ∃ k,
    (s.t.w.proxies p).rooms.find? k = some r := by
  rw [held, List.mem_append, List.mem_map]
  refine or_congr_right ⟨fun ⟨e, he, hr⟩ => ⟨e.1, (StdMap.mem_entries_iff _ _ _).mp (hr ▸ he)⟩,
    fun ⟨k, hf⟩ =>
    ⟨(k, r), (StdMap.mem_entries_iff _ _ _).mpr hf, rfl⟩⟩

end Linkage

def linkSys : LTS Linkage LinkOp := .ofFn Linkage.Launched Linkage.step

/-- What proxies hold exists, entries and `proxy_` agree. -/
structure Linked (s : Linkage) : Prop where
  exist : ∀ p ∈ s.proxys, ∀ r ∈ s.held p, RoomExists s.t r
  entry : ∀ p ∈ s.proxys, ∀ k r, (s.t.w.proxies p).rooms.find? k = some r →
    (s.t.w.rooms r).id = k ∧ (s.t.w.rooms r).proxy = some p
  back : ∀ r p, RoomExists s.t r → (s.t.w.rooms r).proxy = some p →
    p ∈ s.proxys ∧ (s.t.w.proxies p).rooms.find? (s.t.w.rooms r).id = some r

/-! ## The condition -/

/-- Every new room of a listing is built where the memory of `proxy_` is null. -/
def BuiltOnNull (memory : NodeRef → Option ProxyRef) : NodeRef → List Int → List Entry → Prop
  | _, _, [] => True
  | next, known, e :: es =>
    if e.id ∈ known then BuiltOnNull memory next known es
    else memory next = none ∧ BuiltOnNull memory (next + 1) (e.id :: known) es

/-- Each waiting room is linked already, under its id or by an earlier one
with that id, or has no proxy. -/
def Drains (w : World) (p : ProxyRef) : List Int → List RoomRef → Prop
  | _, [] => True
  | linked, r :: rs =>
    ((w.rooms r).id ∈ linked ∨ ((w.proxies p).rooms.find? (w.rooms r).id).isSome ∨
      (w.rooms r).proxy = none) ∧
      Drains w p ((w.rooms r).id :: linked) rs

/-- A room is held only while it exists, and linked only while it has no
proxy; what is unlinked under an id is the room linked under it; a listing
builds rooms on null, and a room it kicks out is held by nobody. -/
def KeepsLinks (s : Linkage) : LinkOp → Prop
  | .linkRoom p r =>
    if (s.t.w.proxies p).status = .online then
      ((s.t.w.proxies p).rooms.find? (s.t.w.rooms r).id).isSome ∨ RoomExists s.t r ∧
      (s.t.w.rooms r).proxy = none
    else RoomExists s.t r
  | .onRxNAT p =>
    (s.t.w.proxies p).status = .nating → Drains s.t.w p [] (s.t.w.proxies p).waitsRooms
  | .unlinkRoom p r => ∀ r' ∈ (s.t.w.proxies p).rooms.find? (s.t.w.rooms r).id, r' = r
  | .parseXML n (some d) =>
    (d.heading = .dynamicNode → BuiltOnNull s.t.memory s.t.nextNode
      (s.t.nodes n).nodes.keys d.entries) ∧
      ∀ e ∈ (s.t.nodes n).nodes.entries, e.1 ∉ d.ids → ∀ p ∈ s.proxys, ∀ r ∈ s.held p,
        ¬ (r = e.2 ∨ s.t.belowWatchedNode r e.2 = true)
  | _ => True

/-! ## Calls that leave the references alone -/

structure SameRefs (w w' : World) : Prop where
  proxies : ∀ p, (w'.proxies p).rooms = (w.proxies p).rooms ∧
    (w'.proxies p).waitsRooms = (w.proxies p).waitsRooms
  rooms : ∀ r, (w'.rooms r).id = (w.rooms r).id ∧ (w'.rooms r).proxy = (w.rooms r).proxy

namespace SameRefs

variable {w w' w'' : World}

theorem refl (w : World) : SameRefs w w := ⟨fun _ => ⟨rfl, rfl⟩, fun _ => ⟨rfl, rfl⟩⟩

theorem trans (h : SameRefs w w') (h' : SameRefs w' w'') : SameRefs w w'' where
  proxies p := ⟨(h'.proxies p).1.trans (h.proxies p).1, (h'.proxies p).2.trans (h.proxies p).2⟩
  rooms r := ⟨(h'.rooms r).1.trans (h.rooms r).1, (h'.rooms r).2.trans (h.rooms r).2⟩

theorem of_same (hp : w'.proxies = w.proxies) (hr : w'.rooms = w.rooms) : SameRefs w w' :=
  ⟨fun _ => by rw [hp]; exact ⟨rfl, rfl⟩, fun _ => by rw [hr]; exact ⟨rfl, rfl⟩⟩

theorem send (w : World) (packet : Packet) : SameRefs w (w.sendPacket packet).1 := by
  unfold World.sendPacket
  split <;> exact ⟨fun _ => ⟨rfl, rfl⟩, fun _ => ⟨rfl, rfl⟩⟩

theorem setStatus (w : World) (p : ProxyRef) (status : ProxyStatus) :
    SameRefs w (w.setStatus p status) := by
  refine ⟨fun q => ?_, fun _ => ⟨rfl, rfl⟩⟩
  rw [World.setStatus, World.modifyProxy_proxies]
  split
  · rename_i he; rw [he]; exact ⟨rfl, rfl⟩
  · exact ⟨rfl, rfl⟩

theorem login (w : World) (p : ProxyRef) : SameRefs w (w.login p).1 := by
  have hs := send w (w.loginPacket p)
  unfold World.login World.sendLogin
  split
  · exact refl w
  · split
    · rename_i w' he
      rw [he] at hs
      exact hs.trans (setStatus w' p .logining)
    · rename_i he
      rwa [he] at hs

theorem sendNats (p : ProxyRef) (n : Nat) (w : World) : SameRefs w (w.sendNats p n).1 := by
  induction n generalizing w with
  | zero => exact refl w
  | succ n ih =>
    have hs := send w (w.natPacket p)
    unfold World.sendNats
    split
    · rename_i w' he
      rw [he] at hs
      exact hs.trans (ih w')
    · rename_i he
      rwa [he] at hs

theorem onRxLogin (w : World) (p : ProxyRef) : SameRefs w (w.onRxLogin p).1 := by
  have hs := sendNats p 3 w
  unfold World.onRxLogin
  split
  · exact refl w
  · split
    · rename_i w' he
      rw [he] at hs
      exact hs.trans (setStatus w' p .nating)
    · rename_i he
      rwa [he] at hs

theorem addUser (w : World) (r : RoomRef) (userId : Int) (micId : Nat) :
    SameRefs w (w.addUser r userId micId).1 := by
  have hroom : ∀ (w : World) (f : TitleRoom → TitleRoom),
    (∀ x, (f x).id = x.id ∧ (f x).proxy = x.proxy) →
      SameRefs w (w.modifyRoom r f) := fun w f hf => by
    refine ⟨fun _ => ⟨rfl, rfl⟩, fun r' => ?_⟩
    rw [World.modifyRoom_rooms]
    split
    · rename_i he; rw [he]; exact hf _
    · exact ⟨rfl, rfl⟩
  have hd : SameRefs w (if (w.rooms r).users.isEmpty then w.delAll r else w) := by
    split
    · exact hroom w (fun x => { x with items := [] }) fun _ => ⟨rfl, rfl⟩
    · exact refl w
  unfold World.addUser
  generalize (if (w.rooms r).users.isEmpty then w.delAll r else w) = w₁ at hd
  dsimp only
  split
  · exact hd.trans ⟨fun _ => ⟨rfl, rfl⟩, fun _ => ⟨rfl, rfl⟩⟩
  · refine hd.trans ⟨fun _ => ⟨rfl, rfl⟩, fun r' => ?_⟩
    simp only [World.newUser, World.modifyRoom_rooms, World.modifyUser_rooms]
    split
    · rename_i he; rw [he]; exact ⟨rfl, rfl⟩
    · exact ⟨rfl, rfl⟩

theorem delUser (w : World) (r : RoomRef) (userId : Int) : SameRefs w (w.delUser r userId).1 :=
  ⟨fun p => by rw [sameProxies_teardownFrame.delUser]; exact ⟨rfl, rfl⟩,
    fun r' => ⟨(World.delUser_rooms w r userId r').2.1, (World.delUser_rooms w r userId r').1⟩⟩

/-- Seats are not references. -/
theorem seatFrame : SeatFrame SameRefs where
  refl := refl
  trans := trans
  send := send
  connect w s u := of_same (World.connectUser_proxies w s u) (World.connectUser_rooms w s u)
  disconnect w s := of_same (World.disconnectUser_proxies w s) (World.disconnectUser_rooms w s)

end SameRefs

/-! ## Rooms gone astray -/

/-- A room is an entry of one proxy and points to another. -/
def Astray (p : ProxyRef) (w : World) : Prop :=
  ∃ q k r, q ≠ p ∧ (w.proxies q).rooms.find? k = some r ∧ (w.rooms r).proxy = some p

theorem Astray.linkRoom {p : ProxyRef} {w : World} (h : Astray p w) (r' : RoomRef) :
    Astray p (w.linkRoom p r').1 := by
  obtain ⟨q, k, r, hq, hf, hp⟩ := h
  refine ⟨q, k, r, hq, ?_⟩
  unfold World.linkRoom
  split
  · rw [(World.linkOnline_eq w p r').1, (World.linkOnline_eq w p r').2, World.addRoom_find?,
      World.addRoom_proxy,
      if_neg fun hc => hq hc.1, hp, ite_self]
    exact ⟨hf, rfl⟩
  · rw [World.pushWaits, World.modifyProxy_proxies, if_neg hq]
    exact ⟨hf, hp⟩

/-- Adding a room that another proxy holds. -/
theorem astray_linkOnline {live : RoomRef → Prop} {w : World} (h : Links live w) {p : ProxyRef}
    {r : RoomRef} (hl : live r) (hf : (w.proxies p).rooms.find? (w.rooms r).id = none)
    (hp : (w.rooms r).proxy ≠ none) :
    Astray p (w.linkOnline p r).1 := by
  obtain ⟨q, hq⟩ := Option.ne_none_iff_exists'.mp hp
  have hb := h.back r q hl hq
  have hqp : q ≠ p := by
    rintro rfl
    rw [hf] at hb
    cases hb
  refine ⟨q, (w.rooms r).id, r, hqp, ?_⟩
  rw [(World.linkOnline_eq w p r).1, (World.linkOnline_eq w p r).2, World.addRoom_find?,
    World.addRoom_proxy,
    if_neg fun hc => hqp hc.1, if_pos ⟨rfl, hf⟩]
  exact ⟨hb, rfl⟩

section Drain

variable {live : RoomRef → Prop} {p : ProxyRef} {w₀ : World}

/-- What the drain has done to the world it began in, with `linked` the ids
of the rooms it has passed. -/
structure Draining (p : ProxyRef) (live : RoomRef → Prop) (w₀ : World) (linked : List Int)
    (w : World) : Prop where
  links : Links live w
  online : (w.proxies p).status = .online
  id : ∀ r, (w.rooms r).id = (w₀.rooms r).id
  some : ∀ k, ((w.proxies p).rooms.find? k).isSome ↔ k ∈ linked ∨
    ((w₀.proxies p).rooms.find? k).isSome
  proxy : ∀ r, (w₀.rooms r).id ∉ linked → (w.rooms r).proxy = (w₀.rooms r).proxy

/-- The next waiting room, as the condition sees it. -/
theorem Draining.turn {linked : List Int} {w : World} (h : Draining p live w₀ linked w)
    (r : RoomRef) :
    (((w.proxies p).rooms.find? (w.rooms r).id).isSome ∨ (w.rooms r).proxy = none) ↔
      ((w₀.rooms r).id ∈ linked ∨ ((w₀.proxies p).rooms.find? (w₀.rooms r).id).isSome ∨
        (w₀.rooms r).proxy = none) := by
  rw [h.some, h.id]
  by_cases hid : (w₀.rooms r).id ∈ linked
  · exact iff_of_true (.inl (.inl hid)) (.inl hid)
  · rw [h.proxy r hid, or_assoc]

theorem Draining.linkRoom {linked : List Int} {w : World} (h : Draining p live w₀ linked w)
    {r : RoomRef} (hl : live r)
    (hr : ((w.proxies p).rooms.find? (w.rooms r).id).isSome ∨ (w.rooms r).proxy = none) :
    Draining p live w₀ ((w₀.rooms r).id :: linked) (w.linkRoom p r).1 := by
  have heq : (w.linkRoom p r).1 = (w.linkOnline p r).1 := by rw [World.linkRoom, if_pos h.online]
  obtain ⟨hrooms, hproxies⟩ := World.linkOnline_eq w p r
  rw [heq]
  refine ⟨h.links.linkOnline p (hr.imp_right fun hn => ⟨hl, hn⟩), ?_,
    fun r' => ?_, fun k => ?_, fun r' hid => ?_⟩
  · rw [hproxies, (World.addRoom_rest w p (w.rooms r).id r p).2]
    exact h.online
  · rw [hrooms, World.addRoom_id]
    exact h.id r'
  · rw [hproxies, World.addRoom_find?, h.id, List.mem_cons, or_assoc, ← h.some]
    by_cases hk : k = (w₀.rooms r).id
    · rw [if_pos ⟨rfl, hk⟩]
      exact iff_of_true rfl (.inl hk)
    · rw [if_neg fun hc => hk hc.2, or_iff_right hk]
  · obtain ⟨hne, hid⟩ := not_or.mp (mt List.mem_cons.mpr hid)
    rw [hrooms, World.addRoom_proxy, if_neg]
    · exact h.proxy r' hid
    · rintro ⟨rfl, -⟩
      exact hne rfl

theorem Draining.links_of :
    ∀ (rs : List RoomRef) {linked : List Int} {w : World}, Draining p live w₀ linked w →
    (∀ r ∈ rs, live r) → Drains w₀ p linked rs →
      Links live (rs.foldl (fun w r => (w.linkRoom p r).1) w)
  | [], _, _, h, _, _ => h.links
  | r :: rs, _, _, h, hl, hd =>
    links_of rs (h.linkRoom (hl r List.mem_cons_self) ((h.turn r).mpr hd.1))
      (fun r' hr' => hl r' (List.mem_cons_of_mem _ hr')) hd.2

theorem Draining.astray_of :
    ∀ (rs : List RoomRef) {linked : List Int} {w : World}, Draining p live w₀ linked w →
    (∀ r ∈ rs, live r) → ¬ Drains w₀ p linked rs →
      Astray p (rs.foldl (fun w r => (w.linkRoom p r).1) w)
  | [], _, _, _, _, hd => absurd trivial hd
  | r :: rs, linked, w, h, hl, hd => by
    have hl' := hl r List.mem_cons_self
    by_cases ht : ((w.proxies p).rooms.find? (w.rooms r).id).isSome ∨ (w.rooms r).proxy = none
    · exact astray_of rs (h.linkRoom hl' ht) (fun r' hr' => hl r' (List.mem_cons_of_mem _ hr'))
        fun hd' => hd ⟨(h.turn r).mp ht, hd'⟩
    · -- astray at once, and for the rest of the loop
      obtain ⟨hf, hp⟩ := not_or.mp ht
      have ha : Astray p (w.linkRoom p r).1 := by
        rw [World.linkRoom, if_pos h.online]
        exact astray_linkOnline h.links hl' (by simpa using hf) hp
      have hgo : ∀ (rs : List RoomRef) {w : World},
        Astray p w → Astray p (rs.foldl (fun w r => (w.linkRoom p r).1) w) :=
        fun rs => by
          induction rs with
          | nil => exact fun h => h
          | cons r rs ih => exact fun h => ih (h.linkRoom r)
      exact hgo rs ha

end Drain

/-- The drain begins with the proxy online. -/
theorem Draining.begin {live : RoomRef → Prop} {w : World} (h : Links live w) (p : ProxyRef) :
    Draining p live w [] (w.setStatus p .online) := by
  have hs := SameRefs.setStatus w p .online
  refine ⟨h.congr (fun q => (hs.proxies q).1) (fun r => (hs.rooms r).1) fun r => (hs.rooms r).2, ?_,
    fun r => (hs.rooms r).1, fun k => ?_, fun r _ => (hs.rooms r).2⟩
  · rw [World.setStatus, World.modifyProxy_proxies, if_pos rfl]
  · rw [(hs.proxies p).1, or_iff_right List.not_mem_nil]

theorem onRxNAT_eq {w : World} {p : ProxyRef} (hs : (w.proxies p).status = .nating) :
    (w.onRxNAT p).1.rooms =
        ((w.proxies p).waitsRooms.foldl (fun w r => (w.linkRoom p r).1)
          (w.setStatus p .online)).rooms ∧
      ∀ q, (((w.onRxNAT p).1.proxies q).rooms =
        (((w.proxies p).waitsRooms.foldl (fun w r => (w.linkRoom p r).1)
          (w.setStatus p .online)).proxies q).rooms) ∧
        (q = p → ((w.onRxNAT p).1.proxies q).waitsRooms = []) := by
  have hw : ((w.setStatus p .online).proxies p).waitsRooms = (w.proxies p).waitsRooms :=
    ((SameRefs.setStatus w p .online).proxies p).2
  unfold World.onRxNAT World.drainWaits
  rw [if_neg (not_not.mpr hs), hw]
  refine ⟨rfl, fun q => ?_⟩
  dsimp only
  rw [World.modifyProxy_proxies]
  split
  · rename_i he; rw [he]; exact ⟨rfl, fun _ => rfl⟩
  · rename_i he; exact ⟨rfl, fun e => absurd e he⟩

theorem links_onRxNAT {live : RoomRef → Prop} {w : World} (h : Links live w) {p : ProxyRef}
    (hw : ∀ r ∈ (w.proxies p).waitsRooms, live r)
    (hd : (w.proxies p).status = .nating → Drains w p [] (w.proxies p).waitsRooms) :
    Links live (w.onRxNAT p).1 := by
  by_cases hs : (w.proxies p).status = .nating
  · obtain ⟨hrooms, hproxies⟩ := onRxNAT_eq hs
    exact (Draining.links_of _ (.begin h p) hw (hd hs)).congr (fun q => (hproxies q).1)
      (fun r => congrArg _ (congrFun hrooms r)) fun r => congrArg _ (congrFun hrooms r)
  · rw [World.onRxNAT, if_pos hs]
    exact h

/-! ## Who waits, and who is linked -/

section Requests

variable {w : World} {p q : ProxyRef} {r r' : RoomRef}

/-- Only a proxy that is not online has a room wait. -/
theorem waits_linkRoom (h : r' ∈ ((w.linkRoom p r).1.proxies q).waitsRooms) :
    r' ∈ (w.proxies q).waitsRooms ∨ q = p ∧ r' = r ∧ (w.proxies p).status ≠ .online := by
  unfold World.linkRoom at h
  split at h
  · rw [(World.linkOnline_eq w p r).2, (World.addRoom_rest w p _ r q).1] at h
    exact .inl h
  · rename_i hon
    rw [World.pushWaits, World.modifyProxy_proxies] at h
    split at h
    · rename_i hq
      rcases List.mem_append.mp h with h | h
      · exact .inl (hq ▸ h)
      · exact .inr ⟨hq, List.mem_singleton.mp h, hon⟩
    · exact .inl h

theorem waits_onRxNAT (h : r ∈ ((w.onRxNAT p).1.proxies q).waitsRooms) :
    r ∈ (w.proxies q).waitsRooms := by
  by_cases hqp : q = p
  · by_cases hs : (w.proxies p).status = .nating
    · rw [((onRxNAT_eq hs).2 q).2 hqp] at h
      cases h
    · rw [World.onRxNAT, if_pos hs] at h
      exact h
  · rwa [(otherProxies_callFrame p).onRxNAT w q hqp] at h

theorem waits_unlinkRoom :
    ((w.unlinkRoom p r).1.proxies q).waitsRooms = (w.proxies q).waitsRooms := by
  rw [(World.unlinkRoom_eq w p r).2, World.delRoom_rest]

theorem find?_unlinkRoom {k : Int} (h : ((w.unlinkRoom p r).1.proxies q).rooms.find? k = some r') :
    (w.proxies q).rooms.find? k = some r' := by
  rw [(World.unlinkRoom_eq w p r).2, World.delRoom_find?] at h
  split at h
  · cases h
  · exact h

end Requests

/-! ## The invariant -/

structure LinkInv (s : Linkage) : Prop where
  tree : Tree s.t
  bij : Bij s.t.w
  links : Links (RoomExists s.t) s.t.w
  waits : ∀ p ∈ s.proxys, ∀ r ∈ (s.t.w.proxies p).waitsRooms, RoomExists s.t r
  known : ∀ p k r, (s.t.w.proxies p).rooms.find? k = some r → p ∈ s.proxys
  inUse : ∀ p ∈ s.proxys, p < s.nextProxy

namespace LinkInv

variable {s : Linkage}

theorem linked (h : LinkInv s) : Linked s where
  exist p hp r hr := by
    rcases Linkage.mem_held.mp hr with hr | ⟨k, hf⟩
    · exact h.waits p hp r hr
    · exact (h.links.entry p k r hf).1
  entry p _ k r hf := (h.links.entry p k r hf).2
  back r p hl hp := by
    have hf := h.links.back r p hl hp
    exact ⟨h.known p _ r hf, hf⟩

theorem launched (h : s.Launched) : LinkInv s := by
  have hn : ∀ n id r, (s.t.nodes n).nodes.find? id ≠ some r :=
    fun n id r hf => by rw [h.nodes] at hf; cases hf
  have hp : ∀ p k r, (s.t.w.proxies p).rooms.find? k ≠ some r :=
    fun p k r hf => by rw [h.rooms] at hf; cases hf
  refine ⟨⟨⟨fun n id r hf => absurd hf (hn n id r), fun n id r hf => absurd hf (hn n id r),
      fun n id r hf => absurd hf (hn n id r), fun n id r _ _ hf => absurd hf (hn n id r),
      fun r id _ => h.nodes r id,
      fun n id r hf => absurd hf (hn n id r)⟩, fun n id r _ hf => absurd hf (hn n id r),
      fun n id r _ hf => absurd hf (hn n id r), fun r d _ hd => ?_, fun r d hd =>
        ?_, fun n ha => (h.alive n ha).1⟩,
    .launched h.world,
      ⟨fun p k r hf => absurd hf (hp p k r), fun r _ hl _ => absurd hl.2 (h.alive r hl.1).2⟩,
    fun p hm => ?_, fun p k r hf => absurd hf (hp p k r), fun p hm => ?_⟩
  · rw [h.parentItem] at hd; cases hd
  · rw [h.parentItem] at hd; cases hd
  · rw [h.proxys] at hm; cases hm
  · rw [h.proxys] at hm; cases hm

/-- A call that leaves the references alone. -/
theorem wall (h : LinkInv s) {w : World} (hb : Bij w)
    (hp : ∀ p, (w.proxies p).rooms = (s.t.w.proxies p).rooms ∧
      (w.proxies p).waitsRooms = (s.t.w.proxies p).waitsRooms)
    (hr : ∀ r, (w.rooms r).id = (s.t.w.rooms r).id ∧ (w.rooms r).proxy = (s.t.w.rooms r).proxy) :
    LinkInv (s.setWall w) where
  tree := h.tree.wall w
  bij := hb
  links := h.links.congr (fun p => (hp p).1) (fun r => (hr r).1) fun r => (hr r).2
  waits p hm r hr' := h.waits p hm r ((hp p).2 ▸ hr')
  known p k r hf := h.known p k r ((hp p).1 ▸ hf)
  inUse := h.inUse

/-! ## Calls on proxies -/

/-- A proxy object in memory that held nothing. -/
theorem newProxy (h : LinkInv s) (id : Nat) (ip : String) (udpPort : Nat) :
    LinkInv (s.newProxy id ip udpPort) := by
  have hne : ∀ p, p ∈ s.proxys → p ≠ s.nextProxy := fun p hm => Nat.ne_of_lt (h.inUse p hm)
  have hproxy : ∀ p, (s.newProxy id ip udpPort).t.w.proxies p =
      if p = s.nextProxy then ScreenMgr.newProxy id ip udpPort else s.t.w.proxies p := fun p =>
    World.modifyProxy_proxies s.t.w s.nextProxy (fun _ => ScreenMgr.newProxy id ip udpPort) p
  have hfind : ∀ p k, ((s.newProxy id ip udpPort).t.w.proxies p).rooms.find? k =
      (s.t.w.proxies p).rooms.find? k := fun p k => by
    rw [hproxy]
    split
    · rename_i he
      cases hf : (s.t.w.proxies p).rooms.find? k with
      | none => rfl
      | some r => exact absurd he (hne p (h.known p k r hf))
    · rfl
  refine ⟨h.tree.wall _, h.bij.steps
    (SameWall.modifyProxy s.t.w s.nextProxy fun _ => ScreenMgr.newProxy id ip udpPort).steps,
    ⟨fun p k r hf => ?_, fun r p hl hp => ?_⟩,
    fun p hm r hr => ?_, fun p k r hf => ?_, fun p hm => ?_⟩
  · exact h.links.entry p k r ((hfind p k).symm.trans hf)
  · exact (hfind p _).trans (h.links.back r p hl hp)
  · rw [hproxy] at hr
    rcases List.mem_append.mp hm with hm | hm
    · rw [if_neg (hne p hm)] at hr
      exact h.waits p hm r hr
    · rw [if_pos (List.mem_singleton.mp hm)] at hr
      cases hr
  · exact List.mem_append_left _ (h.known p k r ((hfind p k).symm.trans hf))
  · rcases List.mem_append.mp hm with hm | hm
    · exact Nat.lt_succ_of_lt (h.inUse p hm)
    · exact List.mem_singleton.mp hm ▸ Nat.lt_succ_self _

theorem login (h : LinkInv s) (p : ProxyRef) : LinkInv (s.setWall (s.t.w.login p).1) := by
  have hr := SameRefs.login s.t.w p
  exact h.wall (h.bij.steps ((SameWall.callFrame p).login _).steps) hr.proxies hr.rooms

theorem onRxLogin (h : LinkInv s) (p : ProxyRef) : LinkInv (s.setWall (s.t.w.onRxLogin p).1) := by
  have hr := SameRefs.onRxLogin s.t.w p
  exact h.wall (h.bij.steps ((SameWall.callFrame p).onRxLogin _).steps) hr.proxies hr.rooms

/-! ## Users come and go -/

theorem addUser (h : LinkInv s) (r : NodeRef) (userId : Int) (micId : Nat) :
    LinkInv (s.setWall (s.t.w.addUser r userId micId).1) := by
  have hr := SameRefs.addUser s.t.w r userId micId
  exact h.wall (h.bij.steps (addUser_steps _ r userId micId)) hr.proxies hr.rooms

theorem delUser (h : LinkInv s) (r : NodeRef) (userId : Int) :
    LinkInv (s.setWall (s.t.w.delUser r userId).1) := by
  have hr := SameRefs.delUser s.t.w r userId
  exact h.wall (h.bij.steps (delUser_steps h.bij r userId)) hr.proxies hr.rooms

/-! ## Linking and unlinking -/

theorem linkRoom (h : LinkInv s) {p : ProxyRef} (hp : p ∈ s.proxys) {r : NodeRef}
    (hc : KeepsLinks s (.linkRoom p r)) :
    LinkInv (s.setWall (s.t.w.linkRoom p r).1) := by
  unfold KeepsLinks at hc
  dsimp only at hc
  have hlinks : Links (RoomExists s.t) (s.t.w.linkRoom p r).1 := by
    unfold World.linkRoom
    split at hc
    · rename_i hon
      rw [if_pos hon]
      exact h.links.linkOnline p hc
    · rename_i hon
      rw [if_neg hon]
      refine h.links.congr (fun q => ?_) (fun _ => rfl) fun _ => rfl
      dsimp only
      rw [World.pushWaits, World.modifyProxy_proxies]
      split
      · rename_i he; rw [he]
      · rfl
  refine ⟨h.tree.wall _, h.bij.steps ((SameWall.callFrame p).linkRoom s.t.w r).steps, hlinks,
    fun q hq r' hr' => ?_, fun q k r' hf => ?_, h.inUse⟩
  · rcases waits_linkRoom hr' with hr' | ⟨-, rfl, hon⟩
    · exact h.waits q hq r' hr'
    · rwa [if_neg hon] at hc
  · by_cases hqp : q = p
    · exact hqp ▸ hp
    · refine h.known q k r' ?_
      rwa [← (otherProxies_callFrame p).linkRoom s.t.w r q hqp]

theorem unlinkRoom (h : LinkInv s) {p : ProxyRef} {r : NodeRef}
    (hc : KeepsLinks s (.unlinkRoom p r)) :
    LinkInv (s.setWall (s.t.w.unlinkRoom p r).1) := by
  obtain ⟨hrooms, hproxies⟩ := World.unlinkRoom_eq s.t.w p r
  refine ⟨h.tree.wall _, h.bij.steps (unlinkRoom_steps h.bij p r), ?_,
    fun q hq r' hr' => h.waits q hq r' (waits_unlinkRoom ▸ hr'),
    fun q k r' hf => h.known q k r' (find?_unlinkRoom hf), h.inUse⟩
  exact (h.links.delRoom p r hc).congr (fun q => congrArg _ (congrFun hproxies q))
    (fun q => congrArg _ (congrFun hrooms q)) fun q => congrArg _ (congrFun hrooms q)

theorem onRxNAT (h : LinkInv s) {p : ProxyRef} (hp : p ∈ s.proxys)
    (hc : KeepsLinks s (.onRxNAT p)) :
    LinkInv (s.setWall (s.t.w.onRxNAT p).1) := by
  refine ⟨h.tree.wall _, h.bij.steps ((SameWall.callFrame p).onRxNAT s.t.w).steps,
    links_onRxNAT h.links (h.waits p hp) hc, fun q hq r hr => h.waits q hq r (waits_onRxNAT hr),
    fun q k r hf => ?_, h.inUse⟩
  by_cases hqp : q = p
  · exact hqp ▸ hp
  · refine h.known q k r ?_
    rwa [← (otherProxies_callFrame p).onRxNAT s.t.w q hqp]

theorem destory (h : LinkInv s) (p : ProxyRef) : LinkInv (s.destory p) := by
  have ht := destory_tornDown p h.bij fun k r hf => (h.links.entry p k r hf).2.1
  refine ⟨h.tree.wall _, h.bij.steps (destory_steps h.bij p), h.links.destory h.bij p,
    fun q hq r hr => ?_,
    fun q k r hf => ?_, fun q hq => h.inUse q (Linkage.mem_destory.mp hq).1⟩
  · obtain ⟨hq, hqp⟩ := Linkage.mem_destory.mp hq
    change r ∈ ((s.t.w.destory p).proxies q).waitsRooms at hr
    rw [ht.others q hqp] at hr
    exact h.waits q hq r hr
  · change ((s.t.w.destory p).proxies q).rooms.find? k = some r at hf
    by_cases hqp : q = p
    · rw [hqp, ht.empty] at hf
      cases hf
    · rw [ht.others q hqp] at hf
      exact Linkage.mem_destory.mpr ⟨h.known q k r hf, hqp⟩

end LinkInv

/-! ## Reading a listing -/

/-- The condition is about the references the loop takes for new nodes. -/
theorem builtOnNull_iff {n : NodeRef} (heading : Heading) :
    ∀ (es : List Entry) {t : Titles} {known : List Int}, Tree t →
    (t.nodes n).alive = true ∧ (t.nodes n).nodeType ≠ .titleRoom →
    (∀ id, id ∈ known ↔ ((t.nodes n).nodes.find? id).isSome) →
    (BuiltOnNull t.memory t.nextNode known es ↔
      ∀ m, t.nextNode ≤ m → m < (es.foldl (parseEntry n heading) t).nextNode → t.memory m = none)
  | [], t, _, _, _, _ => iff_of_true trivial fun m hle hlt => absurd hlt (Nat.not_lt.mpr hle)
  | e :: es, t, known, h, hn, hk => by
    have hg := grows_parseEntry h hn heading (List.mem_cons_self : e.id ∈ [e.id])
    have ih :=
      fun (ids : List Int) (hk : ∀ id, id ∈ ids ↔
      (((parseEntry n heading t e).nodes n).nodes.find? id).isSome) =>
      builtOnNull_iff heading es hg.tree hg.reader hk
    rw [List.foldl_cons, BuiltOnNull]
    cases hf : (t.nodes n).nodes.find? e.id with
    | some c =>
      have he : parseEntry n heading t e = t.update c e.name e.order e.usercount := by
        rw [parseEntry, show t.getNodeOrRoom n e.id = some c from hf]
      have hsame : ∀ id, ((parseEntry n heading t e).nodes n).nodes.find? id =
        (t.nodes n).nodes.find? id := fun id => by
        rw [he, Titles.update, modifyNode_nodes]
        split
        · rename_i hc; rw [hc]
        · rfl
      rw [if_pos ((hk e.id).mpr (by rw [hf]; rfl))]
      have := ih known fun id => by rw [hsame]; exact hk id
      rw [he] at this ⊢
      exact this
    | none =>
      have he : parseEntry n heading t e = t.addChild n heading e := by
        rw [parseEntry, show t.getNodeOrRoom n e.id = none from hf]
      have hnext : (parseEntry n heading t e).nextNode = t.nextNode + 1 :=
        he ▸ (addChild_rest t n heading e).1
      have hle := (grows_parse heading es hg.tree hg.reader
        fun e' he' => (List.mem_map_of_mem he' : e'.id ∈ es.map Entry.id)).next
      rw [if_neg (by rw [hk, hf]; exact Bool.false_ne_true), ← hnext, ← hg.memory,
        ih (e.id :: known) fun id => ?_]
      · rw [hnext, hg.memory] at *
        constructor
        · rintro ⟨h0, hrest⟩ m hm hlt
          rcases Nat.eq_or_lt_of_le hm with rfl | hm
          · exact h0
          · exact hrest m hm hlt
        · intro hall
          exact ⟨hall _ (Nat.le_refl _) hle, fun m hm hlt => hall m (Nat.le_of_succ_le hm) hlt⟩
      · rw [he, h.addChild_find? (h.inUse n hn.1) heading hf, List.mem_cons, hk]
        by_cases hid : id = e.id
        · rw [if_pos ⟨rfl, hid⟩]
          exact iff_of_true (.inl hid) rfl
        · rw [if_neg fun hc => hid hc.2, or_iff_right hid]

section ParseXML

variable {s : Linkage} (h : LinkInv s) {n : NodeRef}
  (hn : (s.t.nodes n).alive = true ∧ (s.t.nodes n).nodeType = .titleNode) (d : Document)
include h hn

/-- The loop before the kickout. -/
theorem LinkInv.grows :
    Grows n d.heading d.ids s.t (d.entries.foldl (parseEntry n d.heading) s.t) :=
  grows_parse d.heading d.entries h.tree ⟨hn.1,
    by rw [hn.2]; decide⟩ fun _ he => List.mem_map_of_mem he

omit hn in
/-- Rooms that are held are older than the listing. -/
theorem LinkInv.held_inUse {p : ProxyRef} (hp : p ∈ s.proxys) {r : NodeRef} (hr : r ∈ s.held p) :
    RoomExists s.t r ∧ r < s.t.nextNode := by
  have he := h.linked.exist p hp r hr
  exact ⟨he, h.tree.inUse r he.1⟩

/-- What the kickout deletes of the rooms older than the listing. -/
theorem LinkInv.parse_dead_iff {r : NodeRef} (hr : (s.t.nodes r).alive = true) :
    ((s.t.parseXML n (some d)).nodes r).alive = false ↔
      ∃ e ∈ (s.t.nodes n).nodes.entries, e.1 ∉ d.ids ∧
      (r = e.2 ∨ s.t.belowWatchedNode r e.2 = true) := by
  have hg := h.grows hn d
  have hlt := h.tree.inUse r hr
  have hparent := fun m hm => (hg.old m hm).2.2.1
  rw [parseXML, hg.tree.kickout_dead_iff hg.reader.1 d.ids (by rw [(hg.old r hlt).2.1]; exact hr)]
  constructor
  · intro ⟨id, c, hf, hid, hb⟩
    rcases hg.adds id c hf with hf' | hle
    · refine ⟨(id, c), (StdMap.mem_entries_iff _ id c).mpr hf', hid, hb.imp_right fun hb => ?_⟩
      rw [belowWatchedNode_iff h.tree.climbs]
      exact hb.congr hg.tree.climbs (fun m hm => (hparent m hm).symm) hlt
    · -- a new child is named by the listing
      obtain ⟨-, -, ⟨id', hid', hf'⟩, -⟩ := hg.new c hle (hg.tree.child n id c hf).2
      rw [← (hg.tree.id n id c hf), hg.tree.id n id' c hf'] at hid
      exact absurd hid' hid
  · intro ⟨e, he, hid, hb⟩
    refine ⟨e.1, e.2, hg.keeps n e.1 e.2 ((StdMap.mem_entries_iff _ e.1 e.2).mp he), hid,
      hb.imp_right fun hb => ?_⟩
    rw [belowWatchedNode_iff h.tree.climbs] at hb
    exact hb.congr h.tree.climbs hparent hlt

/-- The kickout leaves what exists afterwards alone. -/
theorem LinkInv.parse_room {r : NodeRef} (hr : RoomExists (s.t.parseXML n (some d)) r) :
    RoomExists (d.entries.foldl (parseEntry n d.heading) s.t) r ∧
    (s.t.parseXML n (some d)).w.rooms r =
      (d.entries.foldl (parseEntry n d.heading) s.t).w.rooms r := by
  have hg := h.grows hn d
  obtain ⟨hk, -, -, -, -⟩ := kickout_removes hg.tree.toShape n d.ids
  have ht := (hk.same r).1
  refine ⟨⟨hk.alive hr.1, ht ▸ hr.2⟩, hk.rooms r ?_ hr.1⟩
  rintro rfl
  exact hg.reader.2 (ht ▸ hr.2)

theorem LinkInv.parse_proxies : (s.t.parseXML n (some d)).w.proxies = s.t.w.proxies :=
  (kickout_removes (h.grows hn d).tree.toShape n d.ids).1.proxies.trans (h.grows hn d).proxies

/-- Rooms that exist before and after are the same. -/
theorem LinkInv.parse_old {r : NodeRef} (hlt : r < s.t.nextNode)
    (hr : RoomExists (s.t.parseXML n (some d)) r) :
    RoomExists s.t r ∧ (s.t.parseXML n (some d)).w.rooms r = s.t.w.rooms r := by
  obtain ⟨hr', hw⟩ := h.parse_room hn d hr
  obtain ⟨ht, ha, -, hrooms⟩ := (h.grows hn d).old r hlt
  exact ⟨⟨ha ▸ hr'.1, ht ▸ hr'.2⟩, hw.trans hrooms⟩

theorem LinkInv.parseXML (hc : KeepsLinks s (.parseXML n (some d))) :
    LinkInv { s with t := s.t.parseXML n (some d) } := by
  have hg := h.grows hn d
  obtain ⟨hk, -, -, -, -⟩ := kickout_removes hg.tree.toShape n d.ids
  have hproxies := h.parse_proxies hn d
  obtain ⟨hnull, hheld⟩ := hc
  -- what is held stays
  have hstay : ∀ p ∈ s.proxys, ∀ r ∈ s.held p, RoomExists (s.t.parseXML n (some d)) r := by
    intro p hp r hr
    obtain ⟨he, hlt⟩ := h.held_inUse hp hr
    refine ⟨?_, (hk.same r).1.trans ((hg.old r hlt).1.trans he.2)⟩
    cases ha : ((s.t.parseXML n (some d)).nodes r).alive with
    | true => rfl
    | false =>
      obtain ⟨e, hm, hid, hb⟩ := (h.parse_dead_iff hn d he.1).mp ha
      exact absurd hb (hheld e hm hid p hp r hr)
  have hentry : ∀ p k r, (s.t.w.proxies p).rooms.find? k = some r →
      RoomExists (s.t.parseXML n (some d)) r ∧
        (s.t.parseXML n (some d)).w.rooms r = s.t.w.rooms r := by
    intro p k r hf
    have hp := h.known p k r hf
    have hr := Linkage.mem_held.mpr (.inr ⟨k, hf⟩)
    have hs := hstay p hp r hr
    exact ⟨hs, (h.parse_old hn d (h.held_inUse hp hr).2 hs).2⟩
  refine ⟨hg.tree.kickout hg.reader.1 d.ids, (hg.bij h.bij).steps (hk.wall (hg.bij h.bij)),
    ⟨fun p k r hf => ?_, fun r p hr hp => ?_⟩, fun p hp r hr => ?_, fun p k r hf => ?_, h.inUse⟩
  · change ((s.t.parseXML n (some d)).w.proxies p).rooms.find? k = some r at hf
    rw [hproxies] at hf
    obtain ⟨he, hw⟩ := hentry p k r hf
    change _ ∧ ((s.t.parseXML n (some d)).w.rooms r).id = k ∧
      ((s.t.parseXML n (some d)).w.rooms r).proxy = some p
    rw [hw]
    exact ⟨he, (h.links.entry p k r hf).2⟩
  · change ((s.t.parseXML n (some d)).w.rooms r).proxy = some p at hp
    change ((s.t.parseXML n (some d)).w.proxies p).rooms.find?
      ((s.t.parseXML n (some d)).w.rooms r).id = some r
    rw [hproxies]
    rcases Nat.lt_or_ge r s.t.nextNode with hlt | hle
    · obtain ⟨he, hw⟩ := h.parse_old hn d hlt hr
      rw [hw] at hp ⊢
      exact h.links.back r p he hp
    · -- a new room is built on null
      obtain ⟨hr', hw⟩ := h.parse_room hn d hr
      obtain ⟨-, ht, -, hmem⟩ := hg.new r hle (hg.tree.inUse r hr'.1)
      have hdyn := ht.mp hr'.2
      have hnone := (builtOnNull_iff d.heading d.entries h.tree ⟨hn.1, by rw [hn.2]; decide⟩
        (StdMap.mem_keys_iff _)).mp (hnull hdyn) r hle (hg.tree.inUse r hr'.1)
      rw [hw, hmem hdyn, hnone] at hp
      cases hp
  · change r ∈ ((s.t.parseXML n (some d)).w.proxies p).waitsRooms at hr
    rw [hproxies] at hr
    exact hstay p hp r (Linkage.mem_held.mpr (.inl hr))
  · change ((s.t.parseXML n (some d)).w.proxies p).rooms.find? k = some r at hf
    rw [hproxies] at hf
    exact h.known p k r hf

/-! ## Steps that break a reference -/

/-- A room kicked out while it is held, or built on garbage. -/
theorem LinkInv.parseXML_sharp (hc : ¬ KeepsLinks s (.parseXML n (some d))) :
    ¬ Linked { s with t := s.t.parseXML n (some d) } := by
  intro hl
  have hg := h.grows hn d
  have hproxies := h.parse_proxies hn d
  have hheld : ∀ p, ({ s with t := s.t.parseXML n (some d) } : Linkage).held p = s.held p :=
    fun p => by
    unfold Linkage.held
    rw [hproxies]
  rcases not_and_or.mp hc with hnull | hkick
  · -- some new room has a proxy, and is an entry of none
    obtain ⟨hdyn, hnull⟩ := Classical.not_imp.mp hnull
    rw [builtOnNull_iff (n := n) d.heading d.entries h.tree ⟨hn.1, by rw [hn.2]; decide⟩
      (StdMap.mem_keys_iff _)] at hnull
    simp only [not_forall] at hnull
    obtain ⟨m, hle, hlt, hmem⟩ := hnull
    obtain ⟨q, hq⟩ := Option.ne_none_iff_exists'.mp hmem
    obtain ⟨ha, ht, ⟨id, hid, hf⟩, hp⟩ := hg.new m hle hlt
    have hstay : ((s.t.parseXML n (some d)).nodes m).alive = true := by
      cases hd : ((s.t.parseXML n (some d)).nodes m).alive with
      | true => rfl
      | false =>
        obtain ⟨id', c, hc, hid', hb⟩ := (hg.tree.kickout_dead_iff hg.reader.1 d.ids ha).mp hd
        have hcn := (hg.tree.child n id' c hc).1
        rcases hb with rfl | hb
        · rw [← hg.tree.id n id' m hc, hg.tree.id n id m hf] at hid'
          exact absurd hid hid'
        · -- the parent of a child of `n` is `n`
          have hpar := hg.tree.parent n id m hf
          split at hpar
          · exact absurd hb (not_below hpar)
          · rcases (below_iff hpar).mp hb with rfl | hb
            · exact absurd hcn (Nat.lt_irrefl _)
            · exact absurd (hg.tree.climbs.lt hb) (Nat.lt_asymm hcn)
    have hexist : RoomExists (s.t.parseXML n (some d)) m :=
      ⟨hstay, ((kickout_removes hg.tree.toShape n d.ids).1.same m).1.trans (ht.mpr hdyn)⟩
    have hproxy : ((s.t.parseXML n (some d)).w.rooms m).proxy = some q := by
      rw [(h.parse_room hn d hexist).2, hp hdyn, hq]
    obtain ⟨hqm, hback⟩ := hl.back m q hexist hproxy
    change ((s.t.parseXML n (some d)).w.proxies q).rooms.find? _ = some m at hback
    rw [hproxies] at hback
    exact absurd (h.held_inUse hqm (Linkage.mem_held.mpr (.inr ⟨_, hback⟩))).2 (Nat.not_lt.mpr hle)
  · simp only [not_forall, not_not] at hkick
    obtain ⟨e, he, hid, p, hp, r, hr, hb⟩ := hkick
    have hdead := (h.parse_dead_iff hn d (h.held_inUse hp hr).1.1).mpr ⟨e, he, hid, hb⟩
    have hexist := hl.exist p hp r (by rw [hheld]; exact hr)
    rw [hexist.1] at hdead
    cases hdead

end ParseXML

namespace LinkInv

variable {s : Linkage} (h : LinkInv s)
include h

theorem linkRoom_sharp {p : ProxyRef} (hp : p ∈ s.proxys) {r : NodeRef}
    (hc : ¬ KeepsLinks s (.linkRoom p r)) :
    ¬ Linked (s.setWall (s.t.w.linkRoom p r).1) := by
  intro hl
  unfold KeepsLinks at hc
  dsimp only at hc
  split at hc
  · rename_i hon
    have heq : (s.t.w.linkRoom p r).1 = (s.t.w.linkOnline p r).1 := by
      rw [World.linkRoom, if_pos hon]
    rw [heq] at hl
    obtain ⟨hrooms, hproxies⟩ := World.linkOnline_eq s.t.w p r
    obtain ⟨hf, hr⟩ := not_or.mp hc
    have hf : (s.t.w.proxies p).rooms.find? (s.t.w.rooms r).id = none := by simpa using hf
    by_cases he : RoomExists s.t r
    · obtain ⟨q, k, r', hqp, hfq, hpr⟩ := astray_linkOnline h.links he hf fun hn => hr ⟨he, hn⟩
      have hq : q ∈ s.proxys := by
        rw [hproxies, World.addRoom_find?, if_neg fun hc => hqp hc.1] at hfq
        exact h.known q k r' hfq
      exact hqp (Option.some.inj ((hl.entry q hq k r' hfq).2.symm.trans hpr))
    · refine he (hl.exist p hp r (Linkage.mem_held.mpr (.inr ⟨(s.t.w.rooms r).id, ?_⟩)))
      change ((s.t.w.linkOnline p r).1.proxies p).rooms.find? _ = some r
      rw [hproxies, World.addRoom_find?, if_pos ⟨rfl, rfl⟩, hf]
      rfl
  · rename_i hon
    refine hc (hl.exist p hp r (Linkage.mem_held.mpr (.inl ?_)))
    change r ∈ ((s.t.w.linkRoom p r).1.proxies p).waitsRooms
    rw [World.linkRoom, if_neg hon]
    change r ∈ ((s.t.w.modifyProxy p fun x =>
      { x with waitsRooms := x.waitsRooms ++ [r] }).proxies p).waitsRooms
    rw [World.modifyProxy_proxies, if_pos rfl]
    exact List.mem_append_right _ List.mem_cons_self

theorem unlinkRoom_sharp {p : ProxyRef} {r : NodeRef} (hc : ¬ KeepsLinks s (.unlinkRoom p r)) :
    ¬ Linked (s.setWall (s.t.w.unlinkRoom p r).1) := by
  intro hl
  obtain ⟨hrooms, hproxies⟩ := World.unlinkRoom_eq s.t.w p r
  unfold KeepsLinks at hc
  simp only [not_forall] at hc
  obtain ⟨r', hf, hne⟩ := hc
  obtain ⟨he, hid, hp⟩ := h.links.entry p _ r' hf
  have hroom : (s.t.w.unlinkRoom p r).1.rooms r' = s.t.w.rooms r' := by
    rw [hrooms, World.delRoom_rooms_ne s.t.w r p (s.t.w.rooms r).id hne]
  have hback := (hl.back r' p he ((congrArg _ hroom).trans hp)).2
  change ((s.t.w.unlinkRoom p r).1.proxies p).rooms.find? ((s.t.w.unlinkRoom p r).1.rooms r').id =
    some r' at hback
  rw [hroom, hproxies, World.delRoom_find?, if_pos ⟨rfl, hid⟩] at hback
  cases hback

theorem onRxNAT_sharp {p : ProxyRef} (hp : p ∈ s.proxys) (hc : ¬ KeepsLinks s (.onRxNAT p)) :
    ¬ Linked (s.setWall (s.t.w.onRxNAT p).1) := by
  intro hl
  obtain ⟨hs, hd⟩ := Classical.not_imp.mp hc
  obtain ⟨hrooms, hproxies⟩ := onRxNAT_eq hs
  obtain ⟨q, k, r, hqp, hf, hpr⟩ := Draining.astray_of _ (.begin h.links p) (h.waits p hp) hd
  rw [← (hproxies q).1] at hf
  rw [← hrooms] at hpr
  have hq : q ∈ s.proxys := by
    rw [(otherProxies_callFrame p).onRxNAT s.t.w q hqp] at hf
    exact h.known q k r hf
  exact hqp (Option.some.inj ((hl.entry q hq k r hf).2.symm.trans hpr))

end LinkInv

/-! ## Runs -/

theorem link_step_inv {s s' : Linkage} {op : LinkOp} (h : LinkInv s) (hc : KeepsLinks s op)
    (hst : s.step op = some s') : LinkInv s' := by
  cases op
  case newProxy id ip udpPort => cases hst; exact h.newProxy id ip udpPort
  all_goals
    simp only [Linkage.step] at hst
    split at hst
    case isFalse => cases hst
    cases hst
  case login p _ => exact h.login p
  case onRxLogin p _ => exact h.onRxLogin p
  case onRxNAT p hp => exact h.onRxNAT hp hc
  case linkRoom p r hp => exact h.linkRoom hp hc
  case unlinkRoom p r _ => exact h.unlinkRoom hc
  case destory p _ => exact h.destory p
  case parseXML n response hn =>
    cases response with
    | none => exact h
    | some d => exact h.parseXML hn d hc
  case addUser r userId micId _ => exact h.addUser r userId micId
  case delUser r userId _ => exact h.delUser r userId

theorem link_step_sharp {s s' : Linkage} {op : LinkOp} (h : LinkInv s) (hc : ¬ KeepsLinks s op)
    (hst : s.step op = some s') : ¬ Linked s' := by
  cases op
  case onRxNAT p =>
    simp only [Linkage.step] at hst
    split at hst
    · cases hst; exact h.onRxNAT_sharp ‹_› hc
    · cases hst
  case linkRoom p r =>
    simp only [Linkage.step] at hst
    split at hst
    · cases hst; exact h.linkRoom_sharp ‹_› hc
    · cases hst
  case unlinkRoom p r =>
    simp only [Linkage.step] at hst
    split at hst
    · cases hst; exact h.unlinkRoom_sharp hc
    · cases hst
  case parseXML n response =>
    simp only [Linkage.step] at hst
    split at hst
    · cases hst
      cases response with
      | none => exact absurd trivial hc
      | some d => exact h.parseXML_sharp ‹_› d hc
    · cases hst
  all_goals exact absurd trivial hc

/-- The live nodes form a tree in every state, whatever the proxies hold. -/
theorem link_tree : linkSys.Inductive fun s => Tree s.t where
  init s h0 := (LinkInv.launched h0).tree
  step s op s' h hst := by
    have hop : ∀ {c : Prop} [Decidable c] {x : Linkage},
      (if c then some x else none) = some s' → (c → Tree x.t) →
        Tree s'.t := fun {c _ x} he hx => by
      split at he
      · cases he
        exact hx ‹_›
      · cases he
    cases op
    case newProxy id ip udpPort =>
      cases hst
      exact h.wall _
    case parseXML n response =>
      exact hop hst fun hc => h.parseXML hc.1 (by rw [hc.2]; decide) response
    all_goals exact hop hst fun _ => h.wall _

theorem link_guarded : linkSys.Guarded KeepsLinks LinkInv Linked where
  init _ h0 := .launched h0
  step _ _ _ h hc hst := link_step_inv h hc hst
  safe _ h := h.linked
  sharp _ _ _ h hc hst := link_step_sharp h hc hst

/-- **Room links.** In a run, what proxies hold exists and points back in
every state iff every step keeps the links. -/
theorem linked_iff {s₀ s : Linkage} {ms : List (Move Linkage LinkOp)} (h0 : s₀.Launched)
    (hr : linkSys.Run s₀ ms s) :
    (∀ x ∈ visited s₀ ms, Linked x) ↔ ∀ m ∈ ms, KeepsLinks m.src m.lbl :=
  link_guarded.safe_along_iff h0 hr

/-! ## Runs under one node -/

instance decidableBuiltOnNull (memory : NodeRef → Option ProxyRef) :
    ∀ (next : NodeRef) (known : List Int) (es : List Entry),
    Decidable (BuiltOnNull memory next known es)
  | _, _, [] => .isTrue trivial
  | next, known, e :: es =>
    have := decidableBuiltOnNull memory next known es
    have := decidableBuiltOnNull memory (next + 1) (e.id :: known) es
    inferInstanceAs (Decidable (if e.id ∈ known then BuiltOnNull memory next known es
      else memory next = none ∧ BuiltOnNull memory (next + 1) (e.id :: known) es))

instance decidableDrains (w : World) (p : ProxyRef) : ∀ (linked : List Int) (rs : List RoomRef),
    Decidable (Drains w p linked rs)
  | _, [] => .isTrue trivial
  | linked, r :: rs =>
    have := decidableDrains w p ((w.rooms r).id :: linked) rs
    inferInstanceAs (Decidable (_ ∧ Drains w p ((w.rooms r).id :: linked) rs))

instance (s : Linkage) (op : LinkOp) : Decidable (KeepsLinks s op) := by
  unfold KeepsLinks
  split <;> infer_instance

/-- One node without children, and no proxy. -/
def Linkage.launched : Linkage where
  t := {
    nodes := fun n => ⟨.titleNode, n, "", 0, 0, .empty, [], none, n == 0⟩
    nextNode := 1
    memory := fun _ => none
    w := .launched }
  proxys := []
  nextProxy := 0

theorem Linkage.launched_launched : Linkage.launched.Launched where
  world := World.launched_launched
  proxys := rfl
  rooms _ _ := rfl
  nodes _ _ := rfl
  parentItem _ := rfl
  alive n ha := by
    rw [beq_iff_eq.mp ha]
    exact ⟨Nat.zero_lt_one, by decide⟩

def roomListing (ids : List Int) : Option Document :=
  some ⟨.dynamicNode, [], ids.map fun id => ⟨id, "", id.toNat, 0⟩⟩

/-- A room waits and is linked when the proxy comes online, another one is
linked at once; a third is kicked out, the second unlinked. -/
def linkedOnce : List LinkOp :=
  [.newProxy 7 "10.0.0.7" 9000, .parseXML 0 (roomListing [5, 6, 8]), .linkRoom 0 1, .login 0,
    .onRxLogin 0, .onRxNAT 0,
    .linkRoom 0 2, .addUser 1 77 1, .parseXML 0 (roomListing [5, 6, 9]),
      .unlinkRoom 0 2, .destory 0]

theorem linked_iff_linkedOnce :
    (∀ m ∈ moves Linkage.step Linkage.launched linkedOnce, KeepsLinks m.src m.lbl) ∧
      ∀ x ∈ visited Linkage.launched (moves Linkage.step Linkage.launched linkedOnce),
      Linked x := by
  have hp : ∀ m ∈ moves Linkage.step Linkage.launched linkedOnce, KeepsLinks m.src m.lbl := by
    decide +kernel
  exact ⟨hp,
    (linked_iff Linkage.launched_launched (run_of_exec linkedOnce (by decide +kernel))).mpr hp⟩

/-- A room waits for its proxy, and the next listing does not have it. -/
def kickedOutWaiting : List LinkOp :=
  [.newProxy 7 "10.0.0.7" 9000, .parseXML 0 (roomListing [5, 6]), .linkRoom 0 1,
    .parseXML 0 (roomListing [6])]

/-- The proxy waits with a room that is deleted. -/
theorem held_deleted :
    ∃ s, linkSys.Reachable s ∧ 0 ∈ s.proxys ∧ (s.t.w.proxies 0).waitsRooms = [1] ∧
    (s.t.nodes 1).alive = false ∧
      ¬ Linked s := by
  obtain ⟨s, hr, hp⟩ := exists_reachable_of_exec Linkage.Launched Linkage.step kickedOutWaiting
    (fun s => s.proxys == [0] && (s.t.w.proxies 0).waitsRooms == [1] && !(s.t.nodes 1).alive)
    Linkage.launched_launched (by decide +kernel)
  simp only [Bool.and_eq_true, beq_iff_eq, Bool.not_eq_true'] at hp
  obtain ⟨⟨hm, hw⟩, hd⟩ := hp
  have h0 : 0 ∈ s.proxys := by rw [hm]; exact List.mem_cons_self
  refine ⟨s, hr, h0, hw, hd, fun hl => ?_⟩
  have he := hl.exist 0 h0 1 (Linkage.mem_held.mpr (.inl (by rw [hw]; exact List.mem_cons_self)))
  rw [he.1] at hd
  cases hd

end MonitorAgent.L4
