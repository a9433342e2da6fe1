import MonitorAgent.L4Session.ProxySession
import MonitorAgent.L4Session.Retry
import MonitorAgent.L4Session.RoomRequests
import MonitorAgent.L4Titles.RoomLinks

/-!
# The last expand or shrink of a room

Expanding a room asks for it to be linked, shrinking it for it to be unlinked
(WM_EXPANDEDROOM, WM_SHRINKEDROOM). A room asked for before its proxy is online
waits in `waits_rooms_`, which only linking looks at; `OnUnlinkRoom` goes by
the room's `proxy_`, which is null until the room is linked. So a shrink that
comes while the room waits is lost, and the room is linked after all.

The messages are for the rooms of one proxy id. The proxy is the object last
created for it: after its last room it is taken out of `linked_proxys_`, and
the next expand creates another.

* `last_wins_iff`: once the proxy is online, its rooms are those whose last
  message was an expand iff no last message is a shrink that was lost.
-/
namespace MonitorAgent.L4

open L3 LTS

/-- A message for a room, with the address the web server answers; or the
response to a proxy's login or NAT request. -/
inductive RoomMsg
  | expanded (room : RoomRef) (ip : String) (udpPort : Nat)
  | shrinked (room : RoomRef)
  | resLogin (proxy : ProxyRef)
  | nat (proxy : ProxyRef)
deriving DecidableEq

namespace RoomMsg

def room : RoomMsg → Option RoomRef
  | .expanded r _ _ => some r
  | .shrinked r => some r
  | _ => none

def expands : RoomMsg → Bool
  | .expanded _ _ _ => true
  | _ => false

end RoomMsg

/-- Connects succeed; a response may come at any time, for any object. -/
def msgStep (id : Nat) (s : ScreenMgr) : RoomMsg → Option ScreenMgr
  | .expanded r ip udpPort =>
    some (s.onLinkRoom r (none : Option Unit) (some (id, ip, udpPort)) .success).1
  | .shrinked r => some (s.onUnlinkRoom r).1
  | .resLogin p => if p < s.nextProxy then some (s.setWorld (s.w.onRxLogin p).1) else none
  | .nat p => if p < s.nextProxy then some (s.setWorld (s.w.onRxNAT p).1) else none

/-- No proxy yet, no room linked, and every send succeeds. -/
structure NoProxy (s : ScreenMgr) : Prop where
  linkedProxys : s.linkedProxys = .empty
  nextProxy : s.nextProxy = 0
  rooms : ∀ p k, (s.w.proxies p).rooms.find? k = none
  proxy : ∀ r, (s.w.rooms r).proxy = none
  sends : SendsSucceed s.w

def msgSys (id : Nat) : LTS ScreenMgr RoomMsg := .ofFn NoProxy (msgStep id)

/-! ## The last message -/

/-- The room waits at the proxy that is linked. -/
def Waiting (id : Nat) (s : ScreenMgr) (r : RoomRef) : Prop :=
  ∃ p, s.getProxy id = some p ∧ r ∈ (s.w.proxies p).waitsRooms

/-- The move that handled the last message for the room. -/
def lastFor (ms : List (Move ScreenMgr RoomMsg)) (r : RoomRef) : Option (Move ScreenMgr RoomMsg) :=
  ms.reverse.find? fun m => m.lbl.room == some r

def LastExpanded (ms : List (Move ScreenMgr RoomMsg)) (r : RoomRef) : Prop :=
  ∃ m, lastFor ms r = some m ∧ m.lbl.expands = true

/-- The last message was a shrink, handled while the room waited. -/
def LostShrink (id : Nat) (ms : List (Move ScreenMgr RoomMsg)) (r : RoomRef) : Prop :=
  ∃ m, lastFor ms r = some m ∧ m.lbl.expands = false ∧ Waiting id m.src r

/-- What the client goes on to do about the room. -/
def Wanted (id : Nat) (ms : List (Move ScreenMgr RoomMsg)) (r : RoomRef) : Prop :=
  LastExpanded ms r ∨ LostShrink id ms r

theorem lastFor_snoc (ms : List (Move ScreenMgr RoomMsg)) (m : Move ScreenMgr RoomMsg)
    (r : RoomRef) :
    lastFor (ms ++ [m]) r = if m.lbl.room = some r then some m else lastFor ms r := by
  rw [lastFor, List.reverse_append, List.reverse_singleton, List.singleton_append, List.find?_cons]
  by_cases h : m.lbl.room = some r
  · rw [if_pos h, h, beq_self_eq_true]
  · rw [if_neg h, beq_eq_false_iff_ne.mpr h]
    rfl

/-- A message for another room, or for none. -/
theorem wanted_other {id : Nat} {ms : List (Move ScreenMgr RoomMsg)} {m : Move ScreenMgr RoomMsg}
    {r : RoomRef} (h : m.lbl.room ≠ some r) : Wanted id (ms ++ [m]) r ↔ Wanted id ms r := by
  rw [Wanted, LastExpanded, LostShrink, lastFor_snoc, if_neg h]
  rfl

theorem wanted_expanded {id : Nat} {ms : List (Move ScreenMgr RoomMsg)} {m : Move ScreenMgr RoomMsg}
    {r : RoomRef} (h : m.lbl.room = some r) (he : m.lbl.expands = true) :
    Wanted id (ms ++ [m]) r := by
  rw [Wanted, LastExpanded, lastFor_snoc, if_pos h]
  exact .inl ⟨m, rfl, he⟩

theorem wanted_shrinked {id : Nat} {ms : List (Move ScreenMgr RoomMsg)} {m : Move ScreenMgr RoomMsg}
    {r : RoomRef} (h : m.lbl.room = some r) (he : m.lbl.expands = false) :
    Wanted id (ms ++ [m]) r ↔ Waiting id m.src r := by
  rw [Wanted, LastExpanded, LostShrink, lastFor_snoc, if_pos h]
  constructor
  · rintro (⟨m', e, he'⟩ | ⟨m', e, -, hw⟩)
    · cases e
      rw [he] at he'
      cases he'
    · cases e
      exact hw
  · exact fun hw => .inr ⟨m, rfl, he, hw⟩

/-! ## Entries under distinct ids -/

/-- The rooms messages are for have different ids. -/
def DistinctIds (live : RoomRef → Prop) (w : World) : Prop :=
  ∀ r r', live r → live r' → (w.rooms r).id = (w.rooms r').id → r = r'

/-- The room is an entry of the proxy. -/
def Holds (w : World) (p : ProxyRef) (r : RoomRef) : Prop :=
  ∃ k, (w.proxies p).rooms.find? k = some r

theorem holds_iff {live : RoomRef → Prop} {w : World} (h : Links live w) (hd : DistinctIds live w)
    {p : ProxyRef} {r : RoomRef} :
    Holds w p r ↔ live r ∧ (view p w).linked (w.rooms r).id = true := by
  constructor
  · rintro ⟨k, hf⟩
    obtain ⟨hl, rfl, -⟩ := h.entry p k r hf
    refine ⟨hl, ?_⟩
    change ((w.proxies p).rooms.find? _).isSome = true
    rw [hf]
    rfl
  · rintro ⟨hl, hs⟩
    obtain ⟨r', hf⟩ := Option.isSome_iff_exists.mp hs
    obtain ⟨hl', hid, -⟩ := h.entry p _ r' hf
    exact ⟨_, (hd r' r hl' hl hid) ▸ hf⟩

/-! ## The invariant -/

/-- At most the last proxy is linked, and only it has rooms. What is wanted
waits there until it is online, and is linked from then on. -/
structure Latest (id : Nat) (live wanted : RoomRef → Prop) (s : ScreenMgr) : Prop where
  sends : SendsSucceed s.w
  distinct : DistinctIds live s.w
  links : Links live s.w
  linked : ∀ k p, s.linkedProxys.find? k = some p → k = id ∧ p + 1 = s.nextProxy
  proxyId : ∀ p, p + 1 = s.nextProxy → (s.w.proxies p).id = id
  waits : ∀ p, p + 1 = s.nextProxy → ∀ r ∈ (s.w.proxies p).waitsRooms, live r
  others : ∀ p, p + 1 ≠ s.nextProxy → (∀ k, (s.w.proxies p).rooms.find? k = none) ∧
    (p < s.nextProxy → (s.w.proxies p).status = .online)
  early : ∀ p, p + 1 = s.nextProxy → (s.w.proxies p).status ≠ .online → s.getProxy id = some p ∧
    (∀ k, (s.w.proxies p).rooms.find? k = none) ∧ ∀ r, wanted r ↔ r ∈ (s.w.proxies p).waitsRooms
  late : ∀ p, p + 1 = s.nextProxy → (s.w.proxies p).status = .online →
    (s.w.proxies p).waitsRooms = [] ∧
    (s.getProxy id = none → ∀ k, (s.w.proxies p).rooms.find? k = none) ∧
    ∀ r, wanted r ↔ Holds s.w p r
  start : s.nextProxy = 0 → ∀ r, ¬ wanted r

theorem setWorld_rooms {s : ScreenMgr} {w : World} (hr : SameRefs s.w w) {p : ProxyRef} :
    ((s.setWorld w).w.proxies p).rooms = (s.w.proxies p).rooms :=
  (hr.proxies p).1

namespace Latest

variable {id : Nat} {live wanted : RoomRef → Prop} {s : ScreenMgr}

theorem noProxy (h0 : NoProxy s) (hd : DistinctIds live s.w) :
    Latest id live (fun _ => False) s where
  sends := h0.sends
  distinct := hd
  links := by
    refine ⟨fun p k r hf => ?_, fun r p _ hp => ?_⟩
    · rw [h0.rooms] at hf; cases hf
    · rw [h0.proxy] at hp; cases hp
  linked k p hf := by rw [h0.linkedProxys] at hf; cases hf
  proxyId p hp := by rw [h0.nextProxy] at hp; cases hp
  waits p hp := by rw [h0.nextProxy] at hp; cases hp
  others p _ := ⟨h0.rooms p, fun hlt => by rw [h0.nextProxy] at hlt; cases hlt⟩
  early p hp := by rw [h0.nextProxy] at hp; cases hp
  late p hp := by rw [h0.nextProxy] at hp; cases hp
  start _ _ := not_false

theorem congr (h : Latest id live wanted s) {wanted' : RoomRef → Prop}
    (hw : ∀ r, wanted' r ↔ wanted r) :
    Latest id live wanted' s where
  __ := h
  early p hp hs := by
    obtain ⟨h1, h2, h3⟩ := h.early p hp hs
    exact ⟨h1, h2, fun r => (hw r).trans (h3 r)⟩
  late p hp hs := by
    obtain ⟨h1, h2, h3⟩ := h.late p hp hs
    exact ⟨h1, h2, fun r => (hw r).trans (h3 r)⟩
  start hn r := fun hr => h.start hn r ((hw r).mp hr)

section Facts

variable (h : Latest id live wanted s)
include h

theorem current {p : ProxyRef} (hp : s.getProxy id = some p) : p + 1 = s.nextProxy :=
  (h.linked id p hp).2

/-- Who has an entry is the last proxy, and is online. -/
theorem owner {p : ProxyRef} {k : Int} {r : RoomRef} (hf : (s.w.proxies p).rooms.find? k = some r) :
    p + 1 = s.nextProxy ∧ (s.w.proxies p).status = .online ∧ s.getProxy id = some p := by
  have hp : p + 1 = s.nextProxy := by
    by_contra hne
    rw [(h.others p hne).1] at hf
    cases hf
  have hon : (s.w.proxies p).status = .online := by
    by_contra hne
    rw [(h.early p hp hne).2.1] at hf
    cases hf
  refine ⟨hp, hon, ?_⟩
  cases hg : s.getProxy id with
  | none =>
    rw [(h.late p hp hon).2.1 hg] at hf
    cases hf
  | some q => rw [Nat.succ.inj ((h.current hg).trans hp.symm)]

/-- A room points to nobody, or to the last proxy, which is online. -/
theorem proxy_none {p : ProxyRef} (hp : p + 1 = s.nextProxy) {r : RoomRef} (hl : live r)
    (hf : (s.w.proxies p).rooms.find? (s.w.rooms r).id = none) : (s.w.rooms r).proxy = none := by
  cases hq : (s.w.rooms r).proxy with
  | none => rfl
  | some q =>
    have hb := h.links.back r q hl hq
    rw [Nat.succ.inj ((h.owner hb).1.trans hp.symm), hf] at hb
    cases hb

/-- Calls that concern no reference. -/
theorem sameRefs {w : World} (hs : SendsSucceed w) (hr : SameRefs s.w w)
    (hid : ∀ p, (w.proxies p).id = (s.w.proxies p).id)
    (hst : ∀ p, (w.proxies p).status = .online ↔ (s.w.proxies p).status = .online) :
    Latest id live wanted (s.setWorld w) where
  sends := hs
  distinct r r' hl hl' he := h.distinct r r' hl hl' (by rwa [← (hr.rooms r).1, ← (hr.rooms r').1])
  links := h.links.congr (fun p => (hr.proxies p).1) (fun r => (hr.rooms r).1)
    fun r => (hr.rooms r).2
  linked := h.linked
  proxyId p hp := (hid p).trans (h.proxyId p hp)
  waits p hp r hr' := h.waits p hp r ((hr.proxies p).2 ▸ hr')
  others p hp := by
    obtain ⟨h1, h2⟩ := h.others p hp
    exact ⟨fun k => by rw [setWorld_rooms hr]; exact h1 k, fun hlt => (hst p).mpr (h2 hlt)⟩
  early p hp hs' := by
    obtain ⟨h1, h2, h3⟩ := h.early p hp fun e => hs' ((hst p).mpr e)
    refine ⟨h1, fun k => ?_, fun r => ?_⟩
    · rw [setWorld_rooms hr]; exact h2 k
    · rw [ScreenMgr.setWorld_w, (hr.proxies p).2]; exact h3 r
  late p hp hs' := by
    obtain ⟨h1, h2, h3⟩ := h.late p hp ((hst p).mp hs')
    refine ⟨(hr.proxies p).2.trans h1, fun hn k => ?_, fun r => (h3 r).trans ?_⟩
    · rw [setWorld_rooms hr]; exact h2 hn k
    · rw [Holds, Holds, setWorld_rooms hr]
  start := h.start

end Facts

/-- What the invariant says of the proxy it is about. -/
structure AtLast (id : Nat) (live wanted : RoomRef → Prop) (s : ScreenMgr) (p : ProxyRef) :
    Prop where
  proxyId : (s.w.proxies p).id = id
  waits : ∀ r ∈ (s.w.proxies p).waitsRooms, live r
  early : (s.w.proxies p).status ≠ .online → s.getProxy id = some p ∧
    (∀ k, (s.w.proxies p).rooms.find? k = none) ∧ ∀ r, wanted r ↔ r ∈ (s.w.proxies p).waitsRooms
  late : (s.w.proxies p).status = .online → (s.w.proxies p).waitsRooms = [] ∧
    (s.getProxy id = none → ∀ k, (s.w.proxies p).rooms.find? k = none) ∧
    ∀ r, wanted r ↔ Holds s.w p r

theorem of_last {p : ProxyRef} (hcur : p + 1 = s.nextProxy) (hs : SendsSucceed s.w)
    (hd : DistinctIds live s.w) (hl : Links live s.w)
    (hlinked : ∀ k q, s.linkedProxys.find? k = some q → k = id ∧ q + 1 = s.nextProxy)
    (hothers : ∀ q, q ≠ p → (∀ k, (s.w.proxies q).rooms.find? k = none) ∧
      (q < s.nextProxy → (s.w.proxies q).status = .online))
    (hp : AtLast id live wanted s p) : Latest id live wanted s := by
  have hlast : ∀ q, q + 1 = s.nextProxy → q = p := fun q hq => Nat.succ.inj (hq.trans hcur.symm)
  refine ⟨hs, hd, hl, hlinked, fun q hq => ?_, fun q hq => ?_, fun q hq => ?_, fun q hq => ?_,
    fun q hq => ?_, fun hn => ?_⟩
  · exact hlast q hq ▸ hp.proxyId
  · exact hlast q hq ▸ hp.waits
  · exact hothers q fun e => hq (e ▸ hcur)
  · exact hlast q hq ▸ hp.early
  · exact hlast q hq ▸ hp.late
  · rw [← hcur] at hn
    cases hn

/-- The other proxies, in a call that leaves them alone. -/
theorem others_same (h : Latest id live wanted s) {p : ProxyRef} (hcur : p + 1 = s.nextProxy)
    {w : World} (hw : ∀ q, q ≠ p → w.proxies q = s.w.proxies q) (q : ProxyRef) (hq : q ≠ p) :
    (∀ k, (w.proxies q).rooms.find? k = none) ∧
      (q < s.nextProxy → (w.proxies q).status = .online) := by
  rw [hw q hq]
  exact h.others q fun e => hq (Nat.succ.inj (e.trans hcur.symm))

/-! ## Responses -/

theorem onRxLogin (h : Latest id live wanted s) (p : ProxyRef) :
    Latest id live wanted (s.setWorld (s.w.onRxLogin p).1) := by
  obtain ⟨he, hv⟩ := onRxLogin_refines (p := p) h.sends
  refine h.sameRefs (he.succeed h.sends) (.onRxLogin s.w p)
    ((Handover.callFrame (p := p)).onRxLogin s.w).id fun q => ?_
  by_cases hq : q = p
  · subst hq
    have hst := congrArg Session.status hv
    rw [Session.step_onRxLogin] at hst
    change ((s.w.onRxLogin q).1.proxies q).status = _ at hst
    rw [hst]
    change (if (s.w.proxies q).status = .logining then ProxyStatus.nating
      else (s.w.proxies q).status) = .online ↔ _
    split
    · rename_i hl; rw [hl]; exact ⟨(fun e => nomatch e), fun e => nomatch e⟩
    · exact Iff.rfl
  · rw [(otherProxies_callFrame p).onRxLogin s.w q hq]

/-- What waited is linked. -/
theorem onRxNAT (h : Latest id live wanted s) {p : ProxyRef} (hp : p < s.nextProxy) :
    Latest id live wanted (s.setWorld (s.w.onRxNAT p).1) := by
  by_cases hs : (s.w.proxies p).status = .nating
  · have hnon : (s.w.proxies p).status ≠ .online := by rw [hs]; exact fun e => nomatch e
    have hcur : p + 1 = s.nextProxy := by
      by_contra hne
      exact hnon ((h.others p hne).2 hp)
    obtain ⟨hlinked, hnone, hwanted⟩ := h.early p hcur hnon
    obtain ⟨he, hv⟩ := onRxNAT_refines (p := p) h.sends
    have hlinks : Links live (s.w.onRxNAT p).1 := by
      refine links_onRxNAT h.links (h.waits p hcur) fun _ => ?_
      -- nobody has an entry yet, so no room has a proxy
      have hdrains : ∀ (rs : List RoomRef) (linked : List Int), (∀ r ∈ rs, live r) →
          Drains s.w p linked rs := by
        intro rs
        induction rs with
        | nil => exact fun _ _ => trivial
        | cons r rs ih =>
          exact fun linked hl =>
            ⟨.inr (.inr (h.proxy_none hcur (hl r List.mem_cons_self) (hnone _))),
            ih _ fun r' hr' => hl r' (List.mem_cons_of_mem _ hr')⟩
      exact hdrains _ _ (h.waits p hcur)
    have hdistinct : DistinctIds live (s.w.onRxNAT p).1 := fun r r' hl hl' hid =>
      h.distinct r r' hl hl' (by rwa [← he.roomId, ← he.roomId])
    have hstatus : ((s.w.onRxNAT p).1.proxies p).status = .online := by
      have hst := congrArg Session.status hv
      rw [Session.step_onRxNAT_status] at hst
      exact hst.trans (if_pos hs)
    have hwaits : ((s.w.onRxNAT p).1.proxies p).waitsRooms = [] := ((onRxNAT_eq hs).2 p).2 rfl
    refine of_last hcur (he.succeed h.sends) hdistinct hlinks h.linked
      (h.others_same hcur ((otherProxies_callFrame p).onRxNAT s.w))
      ⟨?_, fun r hr => ?_, fun hs' => ?_, fun _ => ?_⟩
    · exact (((Handover.callFrame (p := p)).onRxNAT s.w).id p).trans (h.proxyId p hcur)
    · rw [ScreenMgr.setWorld_w, hwaits] at hr
      cases hr
    · exact absurd hstatus hs'
    · refine ⟨hwaits, fun hn => (by cases hlinked.symm.trans hn), fun r => ?_⟩
      rw [ScreenMgr.setWorld_w, holds_iff hlinks hdistinct, he.roomId, hv, hwanted]
      rw [Session.step, if_pos (show (view p s.w).status = .nating from hs), Session.drain]
      dsimp only
      rw [Session.foldl_link_linked]
      change _ ↔ live r ∧ (((s.w.proxies p).rooms.find? (s.w.rooms r).id).isSome = true ∨
        (s.w.rooms r).id ∈ (s.w.proxies p).waitsRooms.map fun r => (s.w.rooms r).id)
      rw [hnone, List.mem_map]
      constructor
      · exact fun hr => ⟨h.waits p hcur r hr, .inr ⟨r, hr, rfl⟩⟩
      · rintro ⟨hl, e | ⟨r', hr', hid⟩⟩
        · cases e
        · exact h.distinct r' r (h.waits p hcur r' hr') hl hid ▸ hr'
  · have hsame : s.w.onRxNAT p = (s.w, .success) := by rw [World.onRxNAT, if_pos hs]
    rw [hsame]
    exact h

/-! ## A room is expanded -/

/-- The proxy is online: the room is linked, unless it is. -/
theorem linkOnline (h : Latest id live wanted s) {p : ProxyRef} (hp : s.getProxy id = some p)
    (hon : (s.w.proxies p).status = .online) {r : RoomRef} (hl : live r) :
    Latest id live (fun r' => r' = r ∨ wanted r') (s.setWorld (s.w.linkRoom p r).1) := by
  have hcur := h.current hp
  obtain ⟨hwaits, -, hwanted⟩ := h.late p hcur hon
  obtain ⟨he, hv⟩ := linkRoom_refines (p := p) h.sends r
  rw [Session.step, if_pos (show (view p s.w).status = .online from hon)] at hv
  have hlinks : Links live (s.w.linkRoom p r).1 := by
    rw [World.linkRoom, if_pos hon]
    refine h.links.linkOnline p ?_
    cases hf : (s.w.proxies p).rooms.find? (s.w.rooms r).id with
    | some r₀ => exact .inl rfl
    | none => exact .inr ⟨hl, h.proxy_none hcur hl hf⟩
  have hdistinct : DistinctIds live (s.w.linkRoom p r).1 := fun r r' hl hl' hid =>
    h.distinct r r' hl hl' (by rwa [← he.roomId, ← he.roomId])
  have hstatus : ((s.w.linkRoom p r).1.proxies p).status = .online :=
    (congrArg Session.status hv).trans ((Session.link_status _ _).trans hon)
  have hwaits' : ((s.w.linkRoom p r).1.proxies p).waitsRooms = [] := by
    have hw := (congrArg Session.waits hv).trans (Session.link_waits _ _)
    change ((s.w.linkRoom p r).1.proxies p).waitsRooms.map _ =
      (s.w.proxies p).waitsRooms.map _ at hw
    rw [hwaits] at hw
    exact List.map_eq_nil_iff.mp hw
  refine of_last hcur (he.succeed h.sends) hdistinct hlinks h.linked
    (h.others_same hcur ((otherProxies_callFrame p).linkRoom s.w r))
    ⟨?_, fun r' hr' => ?_, fun hs' => ?_, fun _ => ?_⟩
  · exact (((Handover.callFrame (p := p)).linkRoom s.w r).id p).trans (h.proxyId p hcur)
  · rw [ScreenMgr.setWorld_w, hwaits'] at hr'
    cases hr'
  · exact absurd hstatus hs'
  · refine ⟨hwaits', fun hn => (by cases hp.symm.trans hn), fun r' => ?_⟩
    rw [ScreenMgr.setWorld_w, holds_iff hlinks hdistinct, he.roomId, hv, Session.link_linked,
      hwanted, holds_iff h.links h.distinct]
    constructor
    · rintro (rfl | ⟨hl', hr'⟩)
      · exact ⟨hl, .inr rfl⟩
      · exact ⟨hl', .inl hr'⟩
    · rintro ⟨hl', hr' | hid⟩
      · exact .inr ⟨hl', hr'⟩
      · exact .inl (h.distinct r' r hl' hl hid)

/-- The proxy is not online yet: the room waits. -/
theorem pushWaits (h : Latest id live wanted s) {p : ProxyRef} (hp : s.getProxy id = some p)
    (hon : (s.w.proxies p).status ≠ .online) {r : RoomRef} (hl : live r) :
    Latest id live (fun r' => r' = r ∨ wanted r') (s.setWorld (s.w.linkRoom p r).1) := by
  have hcur := h.current hp
  obtain ⟨-, hnone, hwanted⟩ := h.early p hcur hon
  rw [World.linkRoom, if_neg hon]
  dsimp only
  have hproxy : (s.w.pushWaits p r).proxies p =
      { s.w.proxies p with waitsRooms := (s.w.proxies p).waitsRooms ++ [r] } := by
    rw [World.pushWaits, World.modifyProxy_proxies, if_pos rfl]
  have hother : ∀ q, q ≠ p → (s.w.pushWaits p r).proxies q = s.w.proxies q := fun q hq => by
    rw [World.pushWaits, World.modifyProxy_proxies, if_neg hq]
  have hrooms : ∀ q, ((s.w.pushWaits p r).proxies q).rooms = (s.w.proxies q).rooms := fun q => by
    by_cases hq : q = p
    · rw [hq, hproxy]
    · rw [hother q hq]
  refine of_last hcur h.sends h.distinct (h.links.congr hrooms (fun _ => rfl) fun _ => rfl) h.linked
    (h.others_same hcur hother) ?_
  refine ⟨?_, fun r' hr' => ?_, fun _ => ?_, fun hs' => ?_⟩
  · rw [ScreenMgr.setWorld_w, hproxy]
    exact h.proxyId p hcur
  · rw [ScreenMgr.setWorld_w, hproxy] at hr'
    rcases List.mem_append.mp hr' with hr' | hr'
    · exact h.waits p hcur r' hr'
    · exact List.mem_singleton.mp hr' ▸ hl
  · rw [ScreenMgr.setWorld_w, hproxy]
    refine ⟨hp, hnone, fun r' => ?_⟩
    rw [hwanted, List.mem_append, List.mem_singleton, or_comm]
  · rw [ScreenMgr.setWorld_w, hproxy] at hs'
    exact absurd hs' hon

/-- No proxy is linked: the last one is online and has no room, and nothing is
wanted. -/
theorem unlinked (h : Latest id live wanted s) (hf : s.getProxy id = none) :
    (∀ p, p < s.nextProxy → (s.w.proxies p).status = .online) ∧
      (∀ p k, (s.w.proxies p).rooms.find? k = none) ∧ ∀ r, ¬ wanted r := by
  have hlast : ∀ p, p + 1 = s.nextProxy → (s.w.proxies p).status = .online := by
    intro p hp
    by_contra hne
    cases hf.symm.trans (h.early p hp hne).1
  have hempty : ∀ p k, (s.w.proxies p).rooms.find? k = none := by
    intro p k
    by_cases hp : p + 1 = s.nextProxy
    · exact (h.late p hp (hlast p hp)).2.1 hf k
    · exact (h.others p hp).1 k
  refine ⟨fun p hlt => ?_, hempty, fun r hr => ?_⟩
  · by_cases hp : p + 1 = s.nextProxy
    · exact hlast p hp
    · exact (h.others p hp).2 hlt
  · rcases Nat.eq_zero_or_pos s.nextProxy with hz | hpos
    · exact h.start hz r hr
    · have hp : s.nextProxy - 1 + 1 = s.nextProxy := Nat.sub_add_cancel hpos
      obtain ⟨k, hk⟩ := ((h.late _ hp (hlast _ hp)).2.2 r).mp hr
      rw [hempty] at hk
      cases hk

/-- There is a new proxy then, and the room waits at it. -/
theorem linkNew (h : Latest id live wanted s) (hf : s.getProxy id = none) {param : LinkRoomParam}
    (hid : param.proxyId = id) {s' : ScreenMgr} (hnew : ScreenMgr.NewlyLinked s param s')
    (hl : live param.titleRoom) :
    Latest id live (fun r' => r' = param.titleRoom ∨ wanted r') s' := by
  obtain ⟨honline, hempty, hnone⟩ := h.unlinked hf
  have hfind : ∀ p k, (s'.w.proxies p).rooms.find? k = none := by
    intro p k
    by_cases hp : p = s.nextProxy
    · rw [hp, hnew.proxy]; rfl
    · rw [hnew.others p hp]; exact hempty p k
  refine of_last hnew.nextProxy.symm (fun n => ?_) (fun r r' => ?_)
    ⟨fun p k r hr => ?_, fun r p hlr hp => ?_⟩
    (fun k p hk => ?_) (fun p hp => ⟨hfind p, fun hlt => ?_⟩)
    ⟨?_, fun r hr => ?_, fun _ => ?_, fun hs' => ?_⟩
  · rw [hnew.sendOk]; exact h.sends n
  · rw [hnew.rooms]; exact h.distinct r r'
  · rw [hfind] at hr
    cases hr
  · rw [hnew.rooms] at hp
    have hb := h.links.back r p hlr hp
    rw [hempty] at hb
    cases hb
  · rw [hnew.linkedProxys, StdMap.find?_insert, hid] at hk
    split at hk
    · rename_i hki
      rw [show s.linkedProxys.find? id = none from hf] at hk
      cases hk
      exact ⟨hki, hnew.nextProxy.symm⟩
    · rename_i hki
      exact absurd (h.linked k p hk).1 hki
  · rw [hnew.nextProxy] at hlt
    rw [hnew.others p hp]
    exact honline p (Nat.lt_of_le_of_ne (Nat.lt_succ_iff.mp hlt) hp)
  · rw [hnew.proxy]
    exact hid
  · rw [hnew.proxy] at hr
    exact List.mem_singleton.mp hr ▸ hl
  · refine ⟨?_, hfind s.nextProxy, fun r => ?_⟩
    · rw [ScreenMgr.getProxy, hnew.linkedProxys, hid, StdMap.find?_insert, if_pos rfl,
        show s.linkedProxys.find? id = none from hf]
      rfl
    · rw [hnew.proxy, List.mem_singleton, or_iff_left (hnone r)]
  · rw [hnew.proxy] at hs'
    cases hs'

theorem onLinkRoom (h : Latest id live wanted s) {r : RoomRef} (hl : live r) (ip : String)
    (udpPort : Nat) :
    Latest id live (fun r' => r' = r ∨ wanted r')
      (s.onLinkRoom r (none : Option Unit) (some (id, ip, udpPort)) .success).1 := by
  have hfst : (s.onLinkRoom r (none : Option Unit) (some (id, ip, udpPort)) .success).1 =
      (s.linkRoom ⟨id, ip, udpPort, r⟩ .success).1 := by
    unfold ScreenMgr.onLinkRoom
    dsimp only
    split
    · rename_i he; rw [he]
    · rename_i he; rw [he]
  rw [hfst]
  cases hp : s.getProxy id with
  | some p =>
    have hparam : s.getProxy (⟨id, ip, udpPort, r⟩ : LinkRoomParam).proxyId = some p := hp
    rw [ScreenMgr.linkRoom_found hparam, ScreenMgr.linkThrough_fst]
    by_cases hon : (s.w.proxies p).status = .online
    · exact h.linkOnline hp hon hl
    · exact h.pushWaits hp hon hl
  | none =>
    have hparam : s.getProxy (⟨id, ip, udpPort, r⟩ : LinkRoomParam).proxyId = none := hp
    rw [ScreenMgr.linkRoom_new hparam]
    exact h.linkNew hp rfl (ScreenMgr.linkNew_login_sent hparam (h.sends _)).2 hl

/-! ## A room is shrunk -/

/-- The room has no proxy: nothing happens, and a room that waits goes on
waiting. -/
theorem shrink_lost (h : Latest id live wanted s) {r : RoomRef} (hr : (s.w.rooms r).proxy = none)
    (r' : RoomRef) :
    (if r' = r then Waiting id s r else wanted r') ↔ wanted r' := by
  split
  · rename_i he
    rw [he]
    constructor
    · rintro ⟨p, hp, hw⟩
      have hcur := h.current hp
      by_cases hon : (s.w.proxies p).status = .online
      · rw [(h.late p hcur hon).1] at hw
        cases hw
      · exact ((h.early p hcur hon).2.2 r).mpr hw
    · intro hw
      rcases Nat.eq_zero_or_pos s.nextProxy with hz | hpos
      · exact absurd hw (h.start hz r)
      · have hcur : s.nextProxy - 1 + 1 = s.nextProxy := Nat.sub_add_cancel hpos
        by_cases hon : (s.w.proxies (s.nextProxy - 1)).status = .online
        · -- a linked room points back
          obtain ⟨k, hk⟩ := ((h.late _ hcur hon).2.2 r).mp hw
          have hback := (h.links.entry _ k r hk).2.2
          rw [hr] at hback
          cases hback
        · obtain ⟨hp, -, hwanted⟩ := h.early _ hcur hon
          exact ⟨_, hp, (hwanted r).mp hw⟩
  · exact Iff.rfl

/-- The proxy gives up an entry, and is told. -/
theorem unlinkRoom_proxies {w : World} {p : ProxyRef} {r r₀ : RoomRef}
    (hf : (w.proxies p).rooms.find? (w.rooms r).id = some r₀) :
    (w.unlinkRoom p r).1.proxies p =
        { w.proxies p with rooms := (w.proxies p).rooms.erase (w.rooms r).id } ∧
      ∀ q, q ≠ p → (w.unlinkRoom p r).1.proxies q = w.proxies q := by
  have hupdate : (w.unlinkRoom p r).1.proxies =
      Function.update w.proxies p
        { w.proxies p with rooms := (w.proxies p).rooms.erase (w.rooms r).id } := by
    rw [(World.unlinkRoom_eq w p r).2, World.delRoom_proxies w r p hf]
  refine ⟨?_, fun q hq => ?_⟩
  · rw [hupdate, Function.update_self]
  · rw [hupdate, Function.update_of_ne hq]

/-- The room is taken out; the proxy stays in `linked_proxys_`, or goes with
its last room. -/
theorem unlinkRoom (h : Latest id live wanted s) {r : RoomRef} (hl : live r) {p : ProxyRef}
    (hf : (s.w.proxies p).rooms.find? (s.w.rooms r).id = some r)
    {linkedProxys : StdMap Nat ProxyRef} (pipe : List PipeRequest)
    (hsub : ∀ k q, linkedProxys.find? k = some q → s.linkedProxys.find? k = some q)
    (hout : linkedProxys.find? id = none →
      ∀ k, ((s.w.unlinkRoom p r).1.proxies p).rooms.find? k = none) :
    Latest id live (fun r' => if r' = r then Waiting id s r else wanted r')
      { s with w := (s.w.unlinkRoom p r).1, linkedProxys := linkedProxys, pipe := pipe } := by
  obtain ⟨hcur, hon, hp⟩ := h.owner hf
  obtain ⟨hwaits, -, hwanted⟩ := h.late p hcur hon
  obtain ⟨he, hv⟩ := unlinkRoom_refines (p := p) h.sends r
  obtain ⟨hself, hother⟩ := unlinkRoom_proxies hf
  obtain ⟨hrooms, hproxies⟩ := World.unlinkRoom_eq s.w p r
  have hlinks : Links live (s.w.unlinkRoom p r).1 :=
    (h.links.delRoom p r fun r' hf' => Option.some.inj (hf'.symm.trans hf)).congr
      (fun q => congrArg _ (congrFun hproxies q)) (fun q => congrArg _ (congrFun hrooms q))
      fun q => congrArg _ (congrFun hrooms q)
  have hdistinct : DistinctIds live (s.w.unlinkRoom p r).1 := fun r₁ r₂ hl₁ hl₂ hid =>
    h.distinct r₁ r₂ hl₁ hl₂ (by rwa [← he.roomId, ← he.roomId])
  refine of_last hcur (he.succeed h.sends) hdistinct hlinks
    (fun k q hk => h.linked k q (hsub k q hk))
    (h.others_same hcur hother)
    ⟨?_, fun r' hr' => ?_, fun hs' => ?_, fun _ => ⟨?_, hout, fun r' => ?_⟩⟩
  · dsimp only
    rw [hself]
    exact h.proxyId p hcur
  · dsimp only at hr'
    rw [hself] at hr'
    exact h.waits p hcur r' hr'
  · dsimp only at hs'
    rw [hself] at hs'
    exact absurd hon hs'
  · dsimp only
    rw [hself]
    exact hwaits
  · rw [holds_iff hlinks hdistinct, he.roomId, hv, Session.unlink_linked]
    split
    · rename_i hrr
      rw [hrr]
      refine iff_of_false ?_ fun hc => hc.2.2 rfl
      rintro ⟨q, hq, hw⟩
      rw [Option.some.inj (hq.symm.trans hp), hwaits] at hw
      cases hw
    · rename_i hrr
      rw [hwanted, holds_iff h.links h.distinct]
      refine and_congr_right fun hl' => (and_iff_left fun hid => hrr ?_).symm
      exact h.distinct r' r hl' hl hid

/-- The room is linked, and is unlinked; after the last one the proxy goes. -/
theorem onUnlinked (h : Latest id live wanted s) {r : RoomRef} (hl : live r) {p : ProxyRef}
    (hr : (s.w.rooms r).proxy = some p) :
    Latest id live (fun r' => if r' = r then Waiting id s r else wanted r')
      (s.onUnlinkRoom r).1 := by
  have hf := h.links.back r p hl hr
  obtain ⟨hcur, -, hp⟩ := h.owner hf
  have hid : ((s.w.unlinkRoom p r).1.proxies p).id = id := by
    rw [(unlinkRoom_proxies hf).1]
    exact h.proxyId p hcur
  have hsend : s.w.unlinkRoom p r = ((s.w.unlinkRoom p r).1, .success) := by
    have hs := unlinkRoom_linked hf
    rw [if_pos (h.sends _)] at hs
    rw [← hs]
  unfold ScreenMgr.onUnlinkRoom
  rw [hr]
  dsimp only
  rw [hsend]
  dsimp only
  split
  · rename_i hsize
    have hempty : ∀ k, ((s.w.unlinkRoom p r).1.proxies p).rooms.find? k = none := by
      intro k
      have he : ((s.w.unlinkRoom p r).1.proxies p).rooms.entries = [] :=
        List.length_eq_zero_iff.mp hsize
      rw [StdMap.find?, he, StdMap.findGo]
    unfold ScreenMgr.delProxy ScreenMgr.id
    rw [ScreenMgr.setWorld_w, hid, ScreenMgr.setWorld_linkedProxys,
      show s.linkedProxys.find? id = some p from hp]
    refine h.unlinkRoom hl hf _ (fun k q hk => ?_) fun _ => hempty
    rw [StdMap.find?_erase] at hk
    split at hk
    · cases hk
    · exact hk
  · refine h.unlinkRoom hl hf s.pipe (fun _ _ hk => hk) fun hn => ?_
    cases hp.symm.trans hn

theorem onUnlinkRoom (h : Latest id live wanted s) {r : RoomRef} (hl : live r) :
    Latest id live (fun r' => if r' = r then Waiting id s r else wanted r')
      (s.onUnlinkRoom r).1 := by
  cases hr : (s.w.rooms r).proxy with
  | none =>
    have hfst : (s.onUnlinkRoom r).1 = s := by
      unfold ScreenMgr.onUnlinkRoom
      rw [hr]
    rw [hfst]
    exact h.congr fun r' => h.shrink_lost hr r'
  | some p => exact h.onUnlinked hl hr

end Latest

/-! ## Runs -/

/-- A message handled, as the invariant sees it. -/
theorem latest_step {id : Nat} {live : RoomRef → Prop} {s s' : ScreenMgr} {msg : RoomMsg}
    {ms : List (Move ScreenMgr RoomMsg)} (h : Latest id live (Wanted id ms) s)
    (hl : ∀ r, msg.room = some r → live r) (hst : msgStep id s msg = some s') :
    Latest id live (Wanted id (ms ++ [⟨s, msg, s'⟩])) s' := by
  cases msg with
  | expanded r ip udpPort =>
    cases hst
    refine (h.onLinkRoom (hl r rfl) ip udpPort).congr fun r' => ?_
    by_cases he : r' = r
    · rw [he]
      exact iff_of_true (wanted_expanded rfl rfl) (.inl rfl)
    · rw [wanted_other (m := ⟨s, .expanded r ip udpPort, _⟩) fun e => he (Option.some.inj e).symm,
        or_iff_right he]
  | shrinked r =>
    cases hst
    refine (h.onUnlinkRoom (hl r rfl)).congr fun r' => ?_
    split
    · rename_i he
      rw [he]
      exact wanted_shrinked rfl rfl
    · rename_i he
      exact wanted_other fun e => he (Option.some.inj e).symm
  | resLogin p =>
    simp only [msgStep] at hst
    split at hst
    · cases hst
      exact (h.onRxLogin p).congr fun r' => wanted_other fun e => nomatch e
    · cases hst
  | nat p =>
    simp only [msgStep] at hst
    split at hst
    · rename_i hp
      cases hst
      exact (h.onRxNAT hp).congr fun r' => wanted_other fun e => nomatch e
    · cases hst

theorem latest_run {id : Nat} {live : RoomRef → Prop} {s s' : ScreenMgr}
    {ms : List (Move ScreenMgr RoomMsg)} (hr : (msgSys id).Run s ms s') :
    ∀ past, Latest id live (Wanted id past) s → (∀ m ∈ ms, ∀ r, m.lbl.room = some r → live r) →
      Latest id live (Wanted id (past ++ ms)) s' := by
  induction hr with
  | nil => exact fun past h _ => by rwa [List.append_nil]
  | cons hst _ ih =>
    intro past h hl
    rw [List.append_cons]
    exact ih _ (latest_step h (hl _ List.mem_cons_self) hst)
      fun m hm => hl m (List.mem_cons_of_mem _ hm)

/-- **The last expand or shrink.** Messages for rooms with different ids have
been handled and the last proxy is online: its rooms are the ones whose last
message was an expand iff no last message is a shrink that was lost. -/
theorem last_wins_iff {id : Nat} {s₀ s : ScreenMgr} {ms : List (Move ScreenMgr RoomMsg)}
    (h0 : NoProxy s₀) (hr : (msgSys id).Run s₀ ms s)
    (hd : DistinctIds (fun r => ∃ m ∈ ms, m.lbl.room = some r) s₀.w) {p : ProxyRef}
    (hp : p + 1 = s.nextProxy) (hon : (s.w.proxies p).status = .online) :
    (∀ r, Holds s.w p r ↔ LastExpanded ms r) ↔ ∀ r, ¬ LostShrink id ms r := by
  have hnil : ∀ r, Wanted id [] r ↔ False :=
    fun r => by simp [Wanted, LastExpanded, LostShrink, lastFor]
  have h := latest_run hr [] ((Latest.noProxy h0 hd).congr hnil) fun m hm r e => ⟨m, hm, e⟩
  have hwanted := (h.late p hp hon).2.2
  rw [List.nil_append] at hwanted
  constructor
  · intro hall r hlost
    -- a lost shrink has the room linked
    obtain ⟨m, hm, he⟩ := (hall r).mp ((hwanted r).mp (.inr hlost))
    obtain ⟨m', hm', he', -⟩ := hlost
    rw [Option.some.inj (hm.symm.trans hm'), he'] at he
    cases he
  · exact fun hlost r => (hwanted r).symm.trans (or_iff_left (hlost r))

/-- No shrink of the run was handled while its room waited. -/
theorem not_lost {id : Nat} {ms : List (Move ScreenMgr RoomMsg)}
    (h : ∀ m ∈ ms, m.lbl.expands = false → ∀ r ∈ m.lbl.room, ∀ p ∈ m.src.getProxy id,
      r ∉ (m.src.w.proxies p).waitsRooms) (r : RoomRef) : ¬ LostShrink id ms r := by
  rintro ⟨m, hm, he, p, hp, hw⟩
  refine h m (List.mem_reverse.mp (List.mem_of_find?_eq_some hm)) he r ?_ p hp hw
  have := List.find?_some hm
  exact beq_iff_eq.mp this

/-- Nothing linked, rooms under their numbers. -/
def ScreenMgr.noProxy : ScreenMgr :=
  ⟨{ World.launched with rooms := fun r => ⟨r, none, .empty, []⟩ }, .empty, 0, fun _ => .null, [],
    []⟩

theorem ScreenMgr.noProxy_noProxy : NoProxy noProxy :=
  ⟨rfl, rfl, fun _ _ => rfl, fun _ => rfl, fun _ => rfl⟩

/-- Room 5 is shrunk before it was asked for, room 6 when it is linked; then
the last room goes, and with it the proxy, and another one comes. -/
def lastWins : List RoomMsg :=
  [.shrinked 5, .expanded 5 "10.0.0.7" 9000, .resLogin 0, .expanded 6 "10.0.0.7" 9000, .nat 0,
    .shrinked 6,
    .expanded 5 "10.0.0.7" 9000, .shrinked 5, .expanded 6 "10.0.0.8" 9000, .resLogin 1, .nat 1]

theorem last_wins_lastWins :
    ∃ s ms, (msgSys 7).Run .noProxy ms s ∧ ms.map Move.lbl = lastWins ∧
      s.linkedProxys.find? 7 = some 1 ∧
      ∀ r, Holds s.w 1 r ↔ LastExpanded ms r := by
  have hrun : (msgSys 7).Run .noProxy _ _ := run_of_exec lastWins (by decide +kernel)
  refine ⟨_, _, hrun, by decide +kernel, by decide +kernel, ?_⟩
  refine (last_wins_iff ScreenMgr.noProxy_noProxy hrun (fun r r' _ _ e => ?_) (by decide +kernel)
    (by decide +kernel)).mpr
    (not_lost (by decide +kernel))
  exact Int.ofNat.inj e

/-- Room 5 is expanded and shrunk before the proxy is online. -/
def shrunkWaiting : List RoomMsg :=
  [.expanded 5 "10.0.0.7" 9000, .shrinked 5, .resLogin 0, .nat 0]

/-- The room is linked, though the last message for it was a shrink. -/
theorem shrink_ignored :
    ∃ s ms, (msgSys 7).Run .noProxy ms s ∧ ms.map Move.lbl = shrunkWaiting ∧
      (s.w.proxies 0).status = .online ∧
      s.linkedProxys.find? 7 = some 0 ∧ Holds s.w 0 5 ∧ ¬ LastExpanded ms 5 := by
  have hrun : (msgSys 7).Run .noProxy _ _ := run_of_exec shrunkWaiting (by decide +kernel)
  refine ⟨_, _, hrun, by decide +kernel, by decide +kernel, by decide +kernel,
    ⟨5, by decide +kernel⟩, ?_⟩
  rintro ⟨m, hm, he⟩
  have hlast : (lastFor (moves (msgStep 7) .noProxy shrunkWaiting) 5).map (fun m => m.lbl.expands) =
      some false := by
    decide +kernel
  rw [hm, Option.map_some, he] at hlast
  cases hlast

end MonitorAgent.L4
