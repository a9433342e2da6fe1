import MonitorAgent.L3Wall.Links
import MonitorAgent.L4Titles.Tree

/-!
# Reading a listing

The loop of `ParseXML` adds a child for every id that is not filed yet, in
fresh memory, and touches nothing else (`Grows`). `proxy_` of a new room is
what its memory holds.
-/
namespace MonitorAgent.L4

open L3 Titles

/-- Children with the ids of the listing are added under `n`. -/
structure Grows (n : NodeRef) (heading : Heading) (ids : List Int) (t t' : Titles) : Prop where
  tree : Tree t'
  reader : (t'.nodes n).alive = true ∧ (t'.nodes n).nodeType ≠ .titleRoom
  next : t.nextNode ≤ t'.nextNode
  memory : t'.memory = t.memory
  old : ∀ m, m < t.nextNode → (t'.nodes m).nodeType = (t.nodes m).nodeType ∧
    (t'.nodes m).alive = (t.nodes m).alive ∧
    (t'.nodes m).parentItem = (t.nodes m).parentItem ∧ t'.w.rooms m = t.w.rooms m
  proxies : t'.w.proxies = t.w.proxies
  keeps : ∀ m id r, (t.nodes m).nodes.find? id = some r → (t'.nodes m).nodes.find? id = some r
  adds : ∀ id r, (t'.nodes n).nodes.find? id = some r →
    (t.nodes n).nodes.find? id = some r ∨ t.nextNode ≤ r
  new : ∀ m, t.nextNode ≤ m → m < t'.nextNode → (t'.nodes m).alive = true ∧
    ((t'.nodes m).nodeType = .titleRoom ↔ heading = .dynamicNode) ∧
    (∃ id ∈ ids, (t'.nodes n).nodes.find? id = some m) ∧
    (heading = .dynamicNode → (t'.w.rooms m).proxy = t.memory m)
  bij : Bij t.w → Bij t'.w

namespace Grows

variable {n : NodeRef} {heading : Heading} {ids : List Int} {t t' t'' : Titles}

theorem refl (h : Tree t) (hn : (t.nodes n).alive = true ∧ (t.nodes n).nodeType ≠ .titleRoom) :
    Grows n heading ids t t where
  tree := h
  reader := hn
  next := Nat.le_refl _
  memory := rfl
  old _ _ := ⟨rfl, rfl, rfl, rfl⟩
  proxies := rfl
  keeps _ _ _ hf := hf
  adds _ _ hf := .inl hf
  new _ hle hlt := absurd hlt (Nat.not_lt.mpr hle)
  bij hw := hw

theorem trans (h : Grows n heading ids t t') (h' : Grows n heading ids t' t'') :
    Grows n heading ids t t'' where
  tree := h'.tree
  reader := h'.reader
  next := Nat.le_trans h.next h'.next
  memory := h'.memory.trans h.memory
  old m hm := by
    obtain ⟨h1, h2, h3, h4⟩ := h'.old m (Nat.lt_of_lt_of_le hm h.next)
    rw [h1, h2, h3, h4]
    exact h.old m hm
  proxies := h'.proxies.trans h.proxies
  keeps m id r hf := h'.keeps m id r (h.keeps m id r hf)
  adds id r hf := (h'.adds id r hf).elim (h.adds id r) fun hle => .inr (Nat.le_trans h.next hle)
  new m hle hlt := by
    rcases Nat.lt_or_ge m t'.nextNode with hm | hm
    · obtain ⟨ha, ht, ⟨id, hid, hf⟩, hp⟩ := h.new m hle hm
      obtain ⟨h1, h2, -, h4⟩ := h'.old m hm
      rw [h1, h2, h4]
      exact ⟨ha, ht, ⟨id, hid, h'.keeps n id m hf⟩, hp⟩
    · rw [← h.memory]
      exact h'.new m hm hlt
  bij hw := h'.bij (h.bij hw)

end Grows

/-- What adding a child does to the wall: a new room comes with a placeholder. -/
theorem addChild_w {t : Titles} {n : NodeRef} (hn : n < t.nextNode) (heading : Heading)
    (e : Entry) :
    (t.addChild n heading e).w = if heading = .dynamicNode then
      (t.w.modifyRoom t.nextNode fun _ => ⟨e.id, t.memory t.nextNode, .empty, []⟩).addNull
      t.nextNode else t.w := by
  have htype : ∀ ty, ((t.newNode ty e.id e.name e.order e.usercount).nodes t.nextNode).nodeType =
    ty := fun ty => by
    change (Function.update t.nodes t.nextNode _ t.nextNode).nodeType = ty
    rw [Function.update_self]
  have hadd := fun t' => addNodeOrRoom_w t' n e.id (Nat.ne_of_gt hn)
  have hnode : ¬ ((t.newTitleNode e.id e.name e.order e.usercount).nodes t.nextNode).nodeType =
    .titleRoom := by
    rw [show ((t.newTitleNode e.id e.name e.order e.usercount).nodes t.nextNode).nodeType =
      .titleNode from htype _]
    decide
  cases heading
  case dynamicNode =>
    exact (hadd (t.newTitleRoom e.id e.name e.order e.usercount)).trans (if_pos (htype _))
  all_goals exact (hadd (t.newTitleNode e.id e.name e.order e.usercount)).trans (if_neg hnode)

section Parse

variable {t : Titles} (h : Tree t) {n : NodeRef}
  (hn : (t.nodes n).alive = true ∧ (t.nodes n).nodeType ≠ .titleRoom) (heading : Heading)
include h hn

theorem grows_update (c : NodeRef) (name : String) (order usercount : Nat) (ids : List Int) :
    Grows n heading ids t (t.update c name order usercount) := by
  have hnode := t.update_samePlace c name order usercount
  refine ⟨h.update c name order usercount, ?_, Nat.le_refl _, rfl, fun m _ => ?_, rfl,
    fun m id r hf => ?_,
    fun id r hf => ?_, fun m hle hlt => absurd hlt (Nat.not_lt.mpr hle), fun hw => hw⟩
  · rw [(hnode n).nodeType, (hnode n).alive]; exact hn
  · exact ⟨(hnode m).nodeType, (hnode m).alive, (hnode m).parentItem, rfl⟩
  · rw [(hnode m).nodes]; exact hf
  · rw [(hnode n).nodes] at hf; exact .inl hf

theorem grows_addChild {e : Entry} {ids : List Int} (hid : e.id ∈ ids)
    (hnew : (t.nodes n).nodes.find? e.id = none) :
    Grows n heading ids t (t.addChild n heading e) := by
  have hlt := h.inUse n hn.1
  have hchild := h.addChild_child hlt heading hnew
  have hself := Shape.addChild_self (t := t) hlt heading (e := e)
  have hold := fun m hm => Shape.addChild_type (t := t) hlt heading (e := e) m hm
  have hw := addChild_w (t := t) hlt heading e
  have hrooms : ∀ m, (t.addChild n heading e).w.rooms m =
      if m = t.nextNode ∧ heading = .dynamicNode then ⟨e.id, t.memory t.nextNode, .empty,
        [none]⟩ else t.w.rooms m := by
    intro m
    rw [hw]
    by_cases hd : heading = .dynamicNode
    · rw [if_pos hd, World.addNull, World.modifyRoom_rooms, World.modifyRoom_rooms, if_pos rfl]
      by_cases hm : m = t.nextNode
      · rw [if_pos hm, if_pos ⟨hm, hd⟩]; rfl
      · rw [if_neg hm, if_neg fun hc => hm hc.1, World.modifyRoom_rooms, if_neg hm]
    · rw [if_neg hd, if_neg fun hc => hd hc.2]
  have hwall : (t.addChild n heading e).w.screens = t.w.screens ∧
    (t.addChild n heading e).w.users = t.w.users ∧
      (t.addChild n heading e).w.nextUser = t.w.nextUser ∧
      (t.addChild n heading e).w.proxies = t.w.proxies := by
    rw [hw]
    split <;> exact ⟨rfl, rfl, rfl, rfl⟩
  refine ⟨h.addChild hn.1 heading hn.2 hnew, ?_, ?_, (addChild_rest t n heading e).2,
    fun m hm => ?_, hwall.2.2.2,
    fun m id r hf => ?_, fun id r hf => ?_, fun m hle hlt' => ?_, fun hb => ?_⟩
  · rw [(hold n (Nat.ne_of_lt hlt)).1, (hold n (Nat.ne_of_lt hlt)).2.2.2.2]; exact hn
  · rw [(addChild_rest t n heading e).1]; exact Nat.le_succ _
  · have hne := Nat.ne_of_lt hm
    rw [hrooms, if_neg fun hc => hne hc.1]
    exact ⟨(hold m hne).1, (hold m hne).2.2.2.2, (hold m hne).2.2.1, rfl⟩
  · exact (hchild m id r).mpr (.inr hf)
  · rcases (hchild n id r).mp hf with ⟨-, -, rfl⟩ | hf
    · exact .inr (Nat.le_refl _)
    · exact .inl hf
  · rw [(addChild_rest t n heading e).1] at hlt'
    obtain rfl := Nat.le_antisymm (Nat.le_of_lt_succ hlt') hle
    rw [hself, hrooms]
    refine ⟨rfl, ?_, ⟨e.id, hid, (hchild n e.id _).mpr (.inl ⟨rfl, rfl, rfl⟩)⟩,
      fun hd => by rw [if_pos ⟨rfl, hd⟩]⟩
    cases heading <;> simp [Heading.child]
  · refine hb.ofRooms hwall.1 hwall.2.1 hwall.2.2.1 fun r k u hf => ?_
    rw [hrooms] at hf
    split at hf
    · rw [StdMap.find?_empty] at hf
      cases hf
    · exact hf

theorem grows_parseEntry {e : Entry} {ids : List Int} (hid : e.id ∈ ids) :
    Grows n heading ids t (parseEntry n heading t e) := by
  unfold parseEntry
  split
  · exact grows_update h hn heading _ e.name e.order e.usercount ids
  · exact grows_addChild h hn heading hid ‹_›

omit h hn in
/-- The loop. -/
theorem grows_parse {ids : List Int} : ∀ (es : List Entry) {t : Titles}, Tree t →
    (t.nodes n).alive = true ∧ (t.nodes n).nodeType ≠ .titleRoom → (∀ e ∈ es, e.id ∈ ids) →
    Grows n heading ids t (es.foldl (parseEntry n heading) t)
  | [], _, h, hn, _ => .refl h hn
  | e :: es, _, h, hn, hes => by
    have h1 := grows_parseEntry h hn heading (hes e List.mem_cons_self)
    exact h1.trans (grows_parse es h1.tree h1.reader fun e' he' =>
      hes e' (List.mem_cons_of_mem _ he'))

end Parse
end MonitorAgent.L4
