import MonitorAgent.L4Titles.ChildIndex
import MonitorAgent.L4Titles.Tree

/-!
# Expanding a node

What `OnItemExpanded` does to `nodes_order_` depends on the ids and orders in
it alone (`places`), so whether a listing leaves the two indexes of a node in
agreement can be said before it is read (`Settles`). Where it does, expanding
a node touches its own record, the orders of its children, and new memory
(`Expands`).
-/
namespace MonitorAgent.L4

open L3 Titles

/-! ## Places -/

/-- The ids and orders of the children, as `nodes_order_` has them. -/
def Titles.places (t : Titles) (n : NodeRef) : List (Int × Nat) :=
  (t.nodes n).nodesOrder.map fun r => ((t.nodes r).id, t.orderOf r)

/-- What reading an entry does to the places. -/
def place (ps : List (Int × Nat)) (e : Entry) : List (Int × Nat) :=
  if e.id ∈ ps.map Prod.fst then ps.map fun p => if p.1 = e.id then (p.1, e.order) else p
  else OrderSet.insert Prod.snd (e.id, e.order) ps

/-- A child that is there stays between its neighbours, the order of a new one
is not taken. -/
def FitsIn (ps : List (Int × Nat)) (e : Entry) : Prop :=
  if e.id ∈ ps.map Prod.fst then
    ps.Pairwise fun p q => (q.1 = e.id → p.2 ≤ e.order) ∧ (p.1 = e.id → e.order ≤ q.2)
  else ∀ p ∈ ps, p.2 ≠ e.order

def AllFit : List (Int × Nat) → List Entry → Prop
  | _, [] => True
  | ps, e :: es => FitsIn ps e ∧ AllFit (place ps e) es

/-- Every entry of the response fits when it is read, and every child is in it. -/
def Settles (response : Option Document) (ps : List (Int × Nat)) : Prop :=
  ∀ d ∈ response, AllFit ps d.entries ∧ ∀ p ∈ ps, p.1 ∈ d.ids

instance (ps : List (Int × Nat)) (e : Entry) : Decidable (FitsIn ps e) := by
  unfold FitsIn
  infer_instance

instance decidableAllFit : ∀ (ps : List (Int × Nat)) (es : List Entry), Decidable (AllFit ps es)
  | _, [] => .isTrue trivial
  | ps, e :: es =>
    have := decidableAllFit (place ps e) es
    inferInstanceAs (Decidable (FitsIn ps e ∧ AllFit (place ps e) es))

instance (response : Option Document) (ps : List (Int × Nat)) : Decidable (Settles response ps) :=
  inferInstanceAs (Decidable (∀ d ∈ response, AllFit ps d.entries ∧ ∀ p ∈ ps, p.1 ∈ d.ids))

/-- The places once the response is read. -/
def placed (response : Option Document) (ps : List (Int × Nat)) : List (Int × Nat) :=
  match response with
  | none => ps
  | some d => d.entries.foldl place ps

/-- Reading an entry adds no other id. -/
theorem mem_place {ps : List (Int × Nat)} {e : Entry} {id : Int}
    (h : id ∈ (place ps e).map Prod.fst) :
    id = e.id ∨ id ∈ ps.map Prod.fst := by
  obtain ⟨p, hp, rfl⟩ := List.mem_map.mp h
  rw [place] at hp
  split at hp
  · obtain ⟨q, hq, rfl⟩ := List.mem_map.mp hp
    refine .inr (List.mem_map.mpr ⟨q, hq, ?_⟩)
    split <;> rfl
  · rcases OrderSet.mem_insert hp with rfl | hp
    · exact .inl rfl
    · exact .inr (List.mem_map_of_mem hp)

theorem mem_foldl_place {id : Int} : ∀ (es : List Entry) {ps : List (Int × Nat)},
    id ∈ (es.foldl place ps).map Prod.fst → id ∈ es.map Entry.id ∨ id ∈ ps.map Prod.fst
  | [], _, h => .inr h
  | e :: es, ps, h => by
    rw [List.map_cons, List.mem_cons, or_assoc, or_left_comm]
    exact (mem_foldl_place es h).imp_right mem_place

section Places

variable {t : Titles} (hs : Shape t) {n : NodeRef} (h : Indexed t n)
include hs h

/-- Members of the set are told apart by their ids. -/
theorem id_eq_iff {id : Int} {c r : NodeRef} (hf : (t.nodes n).nodes.find? id = some c)
    (hr : r ∈ (t.nodes n).nodesOrder) : (t.nodes r).id = id ↔ r = c := by
  obtain ⟨id', hf', -⟩ := h.member hs hr
  constructor
  · intro he
    rw [(hs.id n id' r hf').symm.trans he, hf] at hf'
    exact (Option.some.inj hf').symm
  · rintro rfl
    exact hs.id n id r hf

theorem mem_places_iff {id : Int} :
    id ∈ (t.places n).map Prod.fst ↔ ∃ c, (t.nodes n).nodes.find? id = some c := by
  rw [places, List.map_map, List.mem_map]
  constructor
  · intro ⟨r, hr, he⟩
    obtain ⟨id', hf, -⟩ := h.member hs hr
    obtain rfl := (hs.id n id' r hf).symm.trans he
    exact ⟨r, hf⟩
  · intro ⟨c, hf⟩
    exact ⟨c, (h.mem c).mpr (mem_children.mpr ⟨id, hf⟩), hs.id n id c hf⟩

/-- The entry of a child fits iff its order does. -/
theorem fits_of_fitsIn {e : Entry} {c : NodeRef} (hf : (t.nodes n).nodes.find? e.id = some c)
    (hfit : FitsIn (t.places n) e) : OrderSet.Fits t.orderOf c e.order (t.nodes n).nodesOrder := by
  rw [FitsIn, if_pos ((mem_places_iff hs h).mpr ⟨c, hf⟩), places, List.pairwise_map] at hfit
  refine hfit.imp_of_mem fun {a b} ha hb hab => ?_
  rw [id_eq_iff hs h hf ha, id_eq_iff hs h hf hb] at hab
  exact hab

theorem new_of_fitsIn {e : Entry} (hf : (t.nodes n).nodes.find? e.id = none)
    (hfit : FitsIn (t.places n) e) :
    ∀ r ∈ t.children n, t.orderOf r ≠ e.order := by
  rw [FitsIn, if_neg] at hfit
  · intro r hr
    exact hfit _ (List.mem_map_of_mem ((h.mem r).mpr hr))
  · intro hm
    obtain ⟨c, hc⟩ := (mem_places_iff hs h).mp hm
    rw [hf] at hc
    cases hc

theorem places_update {e : Entry} {c : NodeRef} (hf : (t.nodes n).nodes.find? e.id = some c) :
    (t.update c e.name e.order e.usercount).places n = place (t.places n) e := by
  have hnode := t.update_samePlace c e.name e.order e.usercount
  rw [place, if_pos ((mem_places_iff hs h).mpr ⟨c, hf⟩), places, places, (hnode n).nodesOrder,
    List.map_map]
  refine List.map_congr_left fun r hr => ?_
  rw [(hnode r).id, update_orderOf]
  exact (apply_ite (fun o => ((t.nodes r).id, o)) _ _ _).trans
    (if_congr (id_eq_iff hs h hf hr).symm rfl rfl)

theorem places_addChild (hn : n < t.nextNode) (heading : Heading) {e : Entry}
    (hf : (t.nodes n).nodes.find? e.id = none) :
    (t.addChild n heading e).places n = place (t.places n) e := by
  have hself := Shape.addChild_self (t := t) hn heading (e := e)
  have hid : ∀ r ∈ (t.nodes n).nodesOrder, ((t.addChild n heading e).nodes r).id = (t.nodes r).id :=
    fun r hr => by
    obtain ⟨_, _, hlt⟩ := h.member hs hr
    exact (Shape.addChild_type hn heading r (Nat.ne_of_lt hlt)).2.1
  rw [place, if_neg fun hm => ?_, places, Indexed.addChild_set hn, Shape.addChild_orderOf hn]
  · refine (OrderSet.insert_map _ _ (show Prod.snd _ = _ from rfl) fun _ _ => rfl).trans ?_
    rw [hself, Function.update_self, places]
    refine congrArg _ (List.map_congr_left fun r hr => ?_)
    rw [hid r hr, h.key_eq hs e.order hr]
  · obtain ⟨c, hc⟩ := (mem_places_iff hs h).mp hm
    rw [hf] at hc
    cases hc

end Places

/-! ## What an expansion touches -/

/-- From `t` to `t'`, children are added under `n` or given a new order. -/
structure Expands (n : NodeRef) (heading : Heading) (t t' : Titles) : Prop where
  tree : Tree t'
  next : t.nextNode ≤ t'.nextNode
  same : ∀ m, m < t.nextNode → (t'.nodes m).nodeType = (t.nodes m).nodeType ∧
    (t'.nodes m).id = (t.nodes m).id ∧
    (t'.nodes m).parentItem = (t.nodes m).parentItem ∧ (t'.nodes m).alive = (t.nodes m).alive
  indexes : ∀ m, m < t.nextNode → m ≠ n →
    (t'.nodes m).nodes = (t.nodes m).nodes ∧ (t'.nodes m).nodesOrder = (t.nodes m).nodesOrder
  order : ∀ m, m < t.nextNode → (∀ id, (t.nodes n).nodes.find? id ≠ some m) →
    t'.orderOf m = t.orderOf m
  keeps : ∀ id r, (t.nodes n).nodes.find? id = some r → (t'.nodes n).nodes.find? id = some r
  new : ∀ id r, (t'.nodes n).nodes.find? id = some r → (t.nodes n).nodes.find? id = some r ∨
    t.nextNode ≤ r ∧
    (t'.nodes r).nodeType = (if heading = .dynamicNode then .titleRoom else .titleNode) ∧
      (t'.nodes r).alive = true ∧ (t'.nodes r).nodes = .empty ∧ (t'.nodes r).nodesOrder = []

namespace Expands

variable {n : NodeRef} {heading : Heading} {t t' t'' : Titles}

theorem refl (h : Tree t) : Expands n heading t t where
  tree := h
  next := Nat.le_refl _
  same _ _ := ⟨rfl, rfl, rfl, rfl⟩
  indexes _ _ _ := ⟨rfl, rfl⟩
  order _ _ _ := rfl
  keeps _ _ hf := hf
  new _ _ hf := .inl hf

theorem trans (h : Expands n heading t t') (h' : Expands n heading t' t'') :
    Expands n heading t t'' where
  tree := h'.tree
  next := Nat.le_trans h.next h'.next
  same m hm := by
    obtain ⟨h1, h2, h3, h4⟩ := h'.same m (Nat.lt_of_lt_of_le hm h.next)
    rw [h1, h2, h3, h4]
    exact h.same m hm
  indexes m hm hn := by
    obtain ⟨h1, h2⟩ := h'.indexes m (Nat.lt_of_lt_of_le hm h.next) hn
    rw [h1, h2]
    exact h.indexes m hm hn
  order m hm hc := by
    refine (h'.order m (Nat.lt_of_lt_of_le hm h.next) fun id hf => ?_).trans (h.order m hm hc)
    rcases h.new id m hf with hf | hle
    · exact hc id hf
    · exact absurd hm (Nat.not_lt.mpr hle.1)
  keeps id r hf := h'.keeps id r (h.keeps id r hf)
  new id r hf := by
    rcases h'.new id r hf with hf | ⟨hle, hrest⟩
    · refine (h.new id r hf).imp_right fun ⟨hle, hty, ha, hnodes, hord⟩ => ?_
      obtain ⟨hlt, hlt'⟩ := h.tree.child n id r hf
      obtain ⟨h1, -, -, h4⟩ := h'.same r hlt'
      obtain ⟨h5, h6⟩ := h'.indexes r hlt' (Nat.ne_of_gt hlt)
      exact ⟨hle, h1.trans hty, h4.trans ha, h5.trans hnodes, h6.trans hord⟩
    · exact .inr ⟨Nat.le_trans h.next hle, hrest⟩

end Expands

section ParseEntry

variable {t : Titles} (h : Tree t) {n : NodeRef} (ha : (t.nodes n).alive = true)
  (ht : (t.nodes n).nodeType = .titleNode) (heading : Heading)
include h ha ht

omit ha ht in
theorem expands_update {e : Entry} {c : NodeRef} (hf : (t.nodes n).nodes.find? e.id = some c) :
    Expands n heading t (t.update c e.name e.order e.usercount) := by
  have hnode := t.update_samePlace c e.name e.order e.usercount
  refine ⟨h.update c _ _ _, Nat.le_refl _,
    fun m _ => ⟨(hnode m).nodeType, (hnode m).id, (hnode m).parentItem, (hnode m).alive⟩,
    fun m _ _ => ⟨(hnode m).nodes,
      (hnode m).nodesOrder⟩, fun m _ hc => ?_, fun id r hr => ?_, fun id r hr => .inl ?_⟩
  · rw [update_orderOf, if_neg]
    rintro rfl
    exact hc _ hf
  · rw [(hnode n).nodes]; exact hr
  · rw [← (hnode n).nodes]; exact hr

theorem expands_addChild {e : Entry} (hf : (t.nodes n).nodes.find? e.id = none) :
    Expands n heading t (t.addChild n heading e) := by
  have hlt := h.inUse n ha
  have hfind := h.addChild_find? hlt heading hf
  have hsame := fun m (hm : m < t.nextNode) =>
    Shape.addChild_type (t := t) hlt heading (e := e) m (Nat.ne_of_lt hm)
  have hself := Shape.addChild_self (t := t) hlt heading (e := e)
  have hroom : (t.nodes n).nodeType ≠ .titleRoom := by rw [ht]; decide
  refine ⟨h.addChild ha heading hroom hf, ?_,
    fun m hm => ?_, fun m hm hn => ?_, fun m hm _ => (hsame m hm).2.2.2.1,
    fun id r hr => ?_, fun id r hr => ?_⟩
  · rw [(addChild_rest t n heading e).1]
    exact Nat.le_succ _
  · obtain ⟨h1, h2, h3, -, h5⟩ := hsame m hm
    exact ⟨h1, h2, h3, h5⟩
  · rw [addChild_nodes t n heading e (Nat.ne_of_lt hlt), if_neg hn, if_neg (Nat.ne_of_lt hm)]
    exact ⟨rfl, rfl⟩
  · rw [hfind, if_neg]
    · exact hr
    · rintro ⟨-, rfl⟩
      rw [hf] at hr
      cases hr
  · rw [hfind] at hr
    split at hr
    · cases hr
      rw [hself]
      exact .inr ⟨Nat.le_refl _, rfl, rfl, rfl, rfl⟩
    · exact .inl hr

/-- **Reading one entry.** -/
theorem parseEntry_expands (hi : Indexed t n) {e : Entry} (hfit : FitsIn (t.places n) e) :
    Expands n heading t (parseEntry n heading t e) ∧ Indexed (parseEntry n heading t e) n ∧
      (parseEntry n heading t e).places n = place (t.places n) e := by
  unfold parseEntry
  cases hf : t.getNodeOrRoom n e.id with
  | some c =>
    exact ⟨expands_update h heading hf,
      hi.update e.name e.order e.usercount (fits_of_fitsIn h.toShape hi hf hfit),
      places_update h.toShape hi hf⟩
  | none =>
    exact ⟨expands_addChild h ha ht heading hf,
      hi.addChild h.toShape (h.inUse n ha) heading hf (new_of_fitsIn h.toShape hi hf hfit),
      places_addChild h.toShape hi (h.inUse n ha) heading hf⟩

omit h ha ht in
/-- The loop. -/
theorem parse_expands : ∀ (es : List Entry) {t : Titles}, Tree t → (t.nodes n).alive = true →
    (t.nodes n).nodeType = .titleNode → Indexed t n → AllFit (t.places n) es →
    Expands n heading t (es.foldl (parseEntry n heading) t) ∧
      Indexed (es.foldl (parseEntry n heading) t) n ∧
      (es.foldl (parseEntry n heading) t).places n = es.foldl place (t.places n)
  | [], _, h, _, _, hi, _ => ⟨.refl h, hi, rfl⟩
  | e :: es, t, h, ha, ht, hi, hfit => by
    obtain ⟨h1, hi1, hp1⟩ := parseEntry_expands h ha ht heading hi hfit.1
    obtain ⟨hty, -, -, hal⟩ := h1.same n (h.inUse n ha)
    obtain ⟨h2, hi2, hp2⟩ :=
      parse_expands es h1.tree (hal.trans ha) (hty.trans ht) hi1 (hp1 ▸ hfit.2)
    exact ⟨h1.trans h2, hi2, by rw [List.foldl_cons, List.foldl_cons, hp2, hp1]⟩

end ParseEntry

/-! ## `OnItemExpanded` -/

/-- A node without children is cleared. -/
theorem delAll_of_isEmpty {t : Titles} {n : NodeRef} (hi : Indexed t n)
    (he : (t.nodes n).nodes.isEmpty = true) :
    t.delAll n = t := by
  have hentries : (t.nodes n).nodes.entries = [] := List.isEmpty_iff.mp he
  have hc : t.children n = [] := by rw [children, hentries]; rfl
  have ho : (t.nodes n).nodesOrder = [] := List.eq_nil_iff_forall_not_mem.mpr fun r hr => by
    rw [hi.mem, hc] at hr
    cases hr
  have hn : ({ t.nodes n with nodes := .empty, nodesOrder := [] } : Node) = t.nodes n := by
    have hempty : (t.nodes n).nodes = .empty := by
      cases hm : (t.nodes n).nodes with
      | mk entries sorted =>
        rw [hm] at hentries
        subst hentries
        rfl
    rw [← hempty, ← ho]
  rw [delAll, hc]
  change ({ t with nodes := Function.update t.nodes n { t.nodes n with
    nodes := .empty, nodesOrder := [] } } : Titles) = t
  rw [hn, Function.update_eq_self]

def headingOf (response : Option Document) : Heading := (response.map Document.heading).getD .other

/-- **Expanding.** Where the response settles, the children have the places it
gives them, and the indexes agree. -/
theorem onItemExpanded_expands {t : Titles} (h : Tree t) {n : NodeRef}
    (ha : (t.nodes n).alive = true)
    (ht : (t.nodes n).nodeType = .titleNode) (hi : Indexed t n) {listing : Int → Option Document}
    (hs : Settles (listing (t.nodes n).id) (t.places n)) :
    Expands n (headingOf (listing (t.nodes n).id)) t (t.onItemExpanded listing n) ∧
      Indexed (t.onItemExpanded listing n) n ∧
      (t.onItemExpanded listing n).places n = placed (listing (t.nodes n).id) (t.places n) := by
  have hd : (if (t.nodes n).nodes.isEmpty then t.delAll n else t) = t := by
    split
    · exact delAll_of_isEmpty hi ‹_›
    · rfl
  rw [onItemExpanded, hd]
  cases hl : listing (t.nodes n).id with
  | none => exact ⟨.refl h, hi, rfl⟩
  | some d =>
    obtain ⟨hfit, hids⟩ := hs d hl
    obtain ⟨h1, hi1, hp1⟩ := parse_expands d.heading d.entries h ha ht hi hfit
    have hk : (d.entries.foldl (parseEntry n d.heading) t).kickoutRedundantNodes n d.ids =
        d.entries.foldl (parseEntry n d.heading) t := kickout_all fun id c hf => by
      have hm := (mem_places_iff h1.tree.toShape hi1).mpr ⟨c, hf⟩
      rw [hp1] at hm
      rcases mem_foldl_place d.entries hm with hm | hm
      · exact hm
      · obtain ⟨p, hp, rfl⟩ := List.mem_map.mp hm
        exact hids p hp
    rw [parseXML, hk]
    exact ⟨h1, hi1, hp1⟩

end MonitorAgent.L4
