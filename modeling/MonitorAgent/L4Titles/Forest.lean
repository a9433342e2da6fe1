import MonitorAgent.L4Titles.Expansion

/-!
# The trees a walk has in front of it

A `TitleTree` is what a node and its listings amount to once everything is
expanded. `Ready` says that of a node in memory, or of one that is still to be
built: the listings settle all the way down. The nodes on the stack of a walk
are a `Forest`, and expanding the first of them gives a forest again.
-/
namespace MonitorAgent.L4

open L3 Titles

/-- A finite tree of nodes and rooms, each with its place among its siblings. -/
inductive TitleTree
  | room (place : Int × Nat)
  | node (place : Int × Nat) (children : List TitleTree)

namespace TitleTree

def place : TitleTree → Int × Nat
  | .room p => p
  | .node p _ => p

def isRoom : TitleTree → Bool
  | .room _ => true
  | .node _ _ => false

mutual

def size : TitleTree → Nat
  | .room _ => 1
  | .node _ children => sizes children + 1

def sizes : List TitleTree → Nat
  | [] => 0
  | T :: Ts => T.size + sizes Ts

end

theorem sizes_append (Ts Us : List TitleTree) : sizes (Ts ++ Us) = sizes Ts + sizes Us := by
  induction Ts with
  | nil => exact (Nat.zero_add _).symm
  | cons T Ts ih => rw [List.cons_append, sizes, sizes, ih, Nat.add_assoc]

theorem size_pos : ∀ T : TitleTree, 0 < T.size
  | .room _ => Nat.one_pos
  | .node _ _ => Nat.succ_pos _

end TitleTree

/-! ## Nodes that are ready -/

/-- The places of a node; one that is not built yet has none. -/
def Titles.placesOf (t : Titles) : Option NodeRef → List (Int × Nat)
  | none => []
  | some n => t.places n

def Titles.childOf (t : Titles) (s : Option NodeRef) (id : Int) : Option NodeRef :=
  s.bind fun n => (t.nodes n).nodes.find? id

/-- The indexes of a node agree, its listing settles and gives the children
of the tree, and so on below; a child that is not built yet gets the type that
the heading says. -/
inductive Ready (listing : Int → Option Document) (t : Titles) : TitleTree → Option NodeRef → Prop
  | room {p : Int × Nat} {s : Option NodeRef} : (∀ n ∈ s, (t.nodes n).nodeType = .titleRoom) →
      Ready listing t (.room p) s
  | node {p : Int × Nat} {children : List TitleTree} {s : Option NodeRef} :
      (∀ n ∈ s, (t.nodes n).nodeType = .titleNode ∧ (t.nodes n).id = p.1 ∧
        (t.nodes n).alive = true ∧ Indexed t n) →
      Settles (listing p.1) (t.placesOf s) →
      children.map TitleTree.place = placed (listing p.1) (t.placesOf s) →
      (∀ T ∈ children, t.childOf s T.place.1 = none →
        (T.isRoom = true ↔ headingOf (listing p.1) = .dynamicNode)) →
      (∀ T ∈ children, Ready listing t T (t.childOf s T.place.1)) →
      Ready listing t (.node p children) s

theorem Tree.parentItem_of_child {t : Titles} (h : Tree t) {n r : NodeRef} {id : Int}
    (ht : (t.nodes n).nodeType = .titleNode)
    (hf : (t.nodes n).nodes.find? id = some r) : (t.nodes r).parentItem = some n := by
  rw [h.parent n id r hf, if_neg]
  rw [ht]
  decide

/-- What the set of a title node lists hangs below the node under its id. -/
theorem Tree.listed_child {t : Titles} (h : Tree t) {n r : NodeRef}
    (hty : (t.nodes n).nodeType = .titleNode) (hi : Indexed t n) (hr : r ∈ (t.nodes n).nodesOrder) :
    (t.nodes r).parentItem = some n ∧ n < r ∧ r < t.nextNode ∧
      (t.nodes n).nodes.find? (t.nodes r).id = some r := by
  obtain ⟨id, hf, hlt⟩ := hi.member h.toShape hr
  have hid := h.id n id r hf
  exact ⟨h.parentItem_of_child hty hf, (h.child n id r hf).1, hlt, by rw [hid]; exact hf⟩

namespace Tree

variable {t : Titles} (h : Tree t)
include h

/-- What is above a live node is alive. -/
theorem alive_of_below {c r : NodeRef} (hr : (t.nodes r).alive = true) (hb : r = c ∨ Below t c r) :
    (t.nodes c).alive = true := by
  rcases hb with rfl | hb
  · exact hr
  · induction hb with
    | child hp =>
      obtain ⟨id, hf⟩ := h.filed _ _ hr hp
      exact h.up _ id _ hr hf
    | step hp _ ih =>
      obtain ⟨id, hf⟩ := h.filed _ _ hr hp
      exact ih (h.up _ id _ hr hf)

/-- A child is not below its siblings. -/
theorem not_below_sibling {n a b : NodeRef} (hpb : (t.nodes b).parentItem = some n) (hna : n < a) :
    ¬ Below t a b := by
  intro hb
  rcases (below_iff hpb).mp hb with he | he
  · exact Nat.ne_of_lt hna he
  · exact Nat.lt_asymm hna (h.climbs.lt he)

/-- Nothing is at or below two siblings. -/
theorem siblings_apart {n a b r : NodeRef} (hpa : (t.nodes a).parentItem = some n)
    (hpb : (t.nodes b).parentItem = some n) (hna : n < a) (hnb : n < b) (hab : a ≠ b)
    (hra : r = a ∨ Below t a r) (hrb : r = b ∨ Below t b r) : False := by
  rcases hra with rfl | hra
  · exact hrb.elim hab (h.not_below_sibling hpa hnb)
  · rcases hrb with rfl | hrb
    · exact h.not_below_sibling hpb hna hra
    · rcases hra.linear hrb with he | he | he
      · exact hab he
      · exact h.not_below_sibling hpb hna he
      · exact h.not_below_sibling hpa hnb he

end Tree

namespace Ready

variable {listing : Int → Option Document} {t t' : Titles} {T : TitleTree}

/-- What is not built yet does not depend on the memory. -/
theorem unbuilt (h : Ready listing t T none) : Ready listing t' T none := by
  generalize hs : (none : Option NodeRef) = s at h
  induction h with
  | room _ => subst hs; exact .room (fun _ h => nomatch h)
  | node _ hset hpl hkind _ ih =>
    subst hs
    exact .node (fun _ h => nomatch h) hset hpl hkind fun T hT => ih T hT rfl

/-- A node that was just built. -/
theorem built (h : Ready listing t T none) {n : NodeRef}
    (hty : (t'.nodes n).nodeType = if T.isRoom then .titleRoom else .titleNode)
    (hid : (t'.nodes n).id = T.place.1)
    (ha : (t'.nodes n).alive = true) (hn : (t'.nodes n).nodes = .empty)
    (ho : (t'.nodes n).nodesOrder = []) :
    Ready listing t' T (some n) := by
  have hc : t'.children n = [] := by rw [children, hn]; rfl
  have hp : t'.placesOf (some n) = [] := by rw [placesOf, places, ho]; rfl
  have hchild : ∀ id, t'.childOf (some n) id = none := fun id => by
    change (t'.nodes n).nodes.find? id = none
    rw [hn]
    rfl
  cases h with
  | room _ =>
    refine .room fun m hm => ?_
    cases hm
    exact hty
  | @node p children _ _ hset hpl hkind hch =>
    refine .node (fun m hm => ?_) ?_ ?_ (fun T hT _ => hkind T hT rfl) fun T hT => ?_
    · cases hm
      refine ⟨hty, hid, ha, fun r => ?_, ?_, ?_⟩
      · rw [ho, hc]
      · rw [ho]; exact .nil
      · rw [ho]; exact .nil
    · rw [hp]; exact hset
    · rw [hp]; exact hpl
    · rw [hchild]
      exact (hch T hT).unbuilt

/-- What is below a node decides whether it is ready. -/
theorem congr (ht : Tree t) {n : NodeRef} (hn : n < t.nextNode) (h : Ready listing t T (some n))
    (hsame : ∀ m, m < t.nextNode → m = n ∨ Below t n m → SamePlace (t'.nodes m) (t.nodes m))
    (hord : ∀ m, m < t.nextNode → Below t n m → t'.orderOf m = t.orderOf m) :
    Ready listing t' T (some n) := by
  generalize hs : some n = s at h
  induction h generalizing n with
  | room hty =>
    subst hs
    refine .room fun m hm => ?_
    cases hm
    rw [(hsame n hn (.inl rfl)).nodeType]
    exact hty n rfl
  | @node p children s hnode hset hpl hkind hch ih =>
    subst hs
    obtain ⟨hty, hid, ha, hi⟩ := hnode n rfl
    have hme := hsame n hn (.inl rfl)
    have hbelow : ∀ r ∈ (t.nodes n).nodesOrder, r < t.nextNode ∧ Below t n r := fun r hr => by
      obtain ⟨hp, -, hlt, -⟩ := ht.listed_child hty hi hr
      exact ⟨hlt, .child hp⟩
    have hplaces : t'.placesOf (some n) = t.placesOf (some n) := by
      rw [placesOf, placesOf, places, places, hme.nodesOrder]
      refine List.map_congr_left fun r hr => ?_
      obtain ⟨hlt, hb⟩ := hbelow r hr
      rw [(hsame r hlt (.inr hb)).id, hord r hlt hb]
    have hchild : ∀ id, t'.childOf (some n) id = t.childOf (some n) id := fun id => by
      change (t'.nodes n).nodes.find? id = (t.nodes n).nodes.find? id
      rw [hme.nodes]
    refine .node (fun m hm => ?_) (by rw [hplaces]; exact hset) (by rw [hplaces]; exact hpl)
      (fun T hT => by rw [hchild]; exact hkind T hT) fun T hT => ?_
    · cases hm
      refine ⟨hme.nodeType.trans hty, hme.id.trans hid, hme.alive.trans ha,
        hi.congr hme.nodes hme.nodesOrder fun r hr => ?_⟩
      obtain ⟨hlt, hb⟩ := hbelow r hr
      exact hord r hlt hb
    · rw [hchild]
      cases hc : t.childOf (some n) T.place.1 with
      | none => exact (hc ▸ hch T hT).unbuilt
      | some r =>
        have hb : Below t n r := .child (ht.parentItem_of_child hty hc)
        rw [← hc]
        refine ih T hT (ht.child n _ r hc).2 (fun m hm hm' => hsame m hm (.inr ?_)) (fun m hm hm' =>
          hord m hm ?_) hc.symm
        · exact hm'.elim (fun he => he ▸ hb) hb.trans
        · exact hb.trans hm'

end Ready

/-! ## Nodes beside each other -/

/-- Neither node is the other one or below it. -/
def Unrelated (t : Titles) (a b : NodeRef) : Prop := a ≠ b ∧ ¬ Below t a b ∧ ¬ Below t b a

namespace Expands

variable {n : NodeRef} {heading : Heading} {t t' : Titles} (h : Expands n heading t t')
include h

/-- Nodes in use stay where they are. -/
theorem below_iff (ht : Tree t) {a b : NodeRef} (hb : b < t.nextNode) :
    Below t' a b ↔ Below t a b := by
  have hp : ∀ m, m < t.nextNode → (t'.nodes m).parentItem = (t.nodes m).parentItem :=
    fun m hm => (h.same m hm).2.2.1
  constructor
  · intro hab
    exact hab.congr h.tree.climbs (fun m hm => (hp m hm).symm) hb
  · intro hab
    exact hab.congr ht.climbs hp hb

/-- What is not above the node expanded stays ready. -/
theorem ready (ht : Tree t) (hn : (t.nodes n).nodeType = .titleNode)
    {listing : Int → Option Document} {T : TitleTree}
    {m : NodeRef} (hm : m < t.nextNode) (hne : m ≠ n) (hb : ¬ Below t m n)
    (hr : Ready listing t T (some m)) :
    Ready listing t' T (some m) := by
  refine hr.congr ht hm (fun r hlt hmr => ?_) fun r hlt hmr => h.order r hlt fun id hf => ?_
  · have hrn : r ≠ n := by
      rintro rfl
      exact hmr.elim (fun he => hne he.symm) hb
    obtain ⟨h1, h2, h3, h4⟩ := h.same r hlt
    obtain ⟨h5, h6⟩ := h.indexes r hlt hrn
    exact ⟨h1, h2, h5, h6, h3, h4⟩
  · -- a child of `n` is below `m` only if `n` is
    rcases (L4.below_iff (ht.parentItem_of_child hn hf)).mp hmr with he | he
    · exact hne he.symm
    · exact hb he

end Expands

theorem forall₂_of_map_eq {α β γ : Type} {f : α → γ} {g : β → γ} {R : α → β → Prop} :
    ∀ {as : List α} {bs : List β}, as.map f = bs.map g → (∀ a ∈ as, ∀ b ∈ bs, f a = g b → R a b) →
    List.Forall₂ R as bs
  | [], [], _, _ => .nil
  | a :: as, b :: bs, h, hR => by
    obtain ⟨hab, h⟩ := List.cons.inj h
    exact .cons (hR a List.mem_cons_self b List.mem_cons_self hab)
      (forall₂_of_map_eq h fun a' ha b' hb =>
        hR a' (List.mem_cons_of_mem _ ha) b' (List.mem_cons_of_mem _ hb))

/-- The children of an expanded node take its place among unrelated nodes. -/
theorem Expands.unrelated {n : NodeRef} {heading : Heading} {t t' : Titles} {ns : List NodeRef}
    (hE : Expands n heading t t') (ht : Tree t) (hn : n < t.nextNode)
    (hty : (t'.nodes n).nodeType = .titleNode) (hi : Indexed t' n) (hns : ∀ m ∈ ns, m < t.nextNode)
    (hap : (n :: ns).Pairwise (Unrelated t)) :
    ((t'.nodes n).nodesOrder ++ ns).Pairwise (Unrelated t') := by
  obtain ⟨happ, happ'⟩ := List.pairwise_cons.mp hap
  refine List.pairwise_append.mpr ⟨?_, ?_, fun a ha b hb => ?_⟩
  · -- children of one node
    refine hi.nodup.imp_of_mem fun {a b} ha hb hab => ?_
    obtain ⟨hpa, hna, -⟩ := hE.tree.listed_child hty hi ha
    obtain ⟨hpb, hnb, -⟩ := hE.tree.listed_child hty hi hb
    exact ⟨hab, hE.tree.not_below_sibling hpb hna, hE.tree.not_below_sibling hpa hnb⟩
  · refine happ'.imp_of_mem fun {a b} ha hb ⟨hne, hab, hba⟩ => ⟨hne, ?_, ?_⟩
    · rwa [hE.below_iff ht (hns b hb)]
    · rwa [hE.below_iff ht (hns a ha)]
  · obtain ⟨hpa, -⟩ := hE.tree.listed_child hty hi ha
    obtain ⟨hne, hnb, hbn⟩ := happ b hb
    have hnb' : ¬ Below t' n b := by rwa [hE.below_iff ht (hns b hb)]
    refine ⟨fun he => hnb' (he ▸ .child hpa), fun hab => hnb' (Below.trans (.child hpa) hab),
      fun hba => ?_⟩
    rcases (L4.below_iff hpa).mp hba with he | he
    · exact hne he
    · exact hbn ((hE.below_iff ht hn).mp he)

/-- Nodes in use, beside each other, each of them ready. -/
structure Forest (listing : Int → Option Document) (t : Titles) (Ts : List TitleTree)
    (ns : List NodeRef) : Prop where
  tree : Tree t
  ready : List.Forall₂ (fun n T => Ready listing t T (some n)) ns Ts
  inUse : ∀ n ∈ ns, n < t.nextNode
  apart : ns.Pairwise (Unrelated t)

namespace Forest

variable {listing : Int → Option Document} {t : Titles} {Ts : List TitleTree} {ns : List NodeRef}

theorem tail {T : TitleTree} {n : NodeRef} (h : Forest listing t (T :: Ts) (n :: ns)) :
    Forest listing t Ts ns where
  tree := h.tree
  ready := (List.forall₂_cons.mp h.ready).2
  inUse m hm := h.inUse m (List.mem_cons_of_mem _ hm)
  apart := h.apart.tail

/-- What the first node expands to. -/
theorem expands {p : Int × Nat} {children : List TitleTree} {n : NodeRef}
    (h : Forest listing t (.node p children :: Ts) (n :: ns)) : ∃ heading,
    (t.nodes n).nodeType = .titleNode ∧ Expands n heading t (t.onItemExpanded listing n) ∧
      Indexed (t.onItemExpanded listing n) n ∧
      Forest listing (t.onItemExpanded listing n) (children ++ Ts)
        (((t.onItemExpanded listing n).nodes n).nodesOrder ++ ns) := by
  obtain ⟨hready, hrest⟩ := List.forall₂_cons.mp h.ready
  obtain ⟨happ, happ'⟩ := List.pairwise_cons.mp h.apart
  cases hready with
  | node hnode hset hpl hkind hch =>
  obtain ⟨hty, hid, ha, hi⟩ := hnode n rfl
  obtain ⟨hE, hi', hplaces⟩ := onItemExpanded_expands h.tree ha hty hi (by rw [hid]; exact hset)
  rw [hid] at hE hplaces
  have hn := h.inUse n List.mem_cons_self
  have hty' : ((t.onItemExpanded listing n).nodes n).nodeType = .titleNode :=
    (hE.same n hn).1.trans hty
  have hchild := fun r => hE.tree.listed_child (r := r) hty' hi'
  refine ⟨_, hty, hE, hi', hE.tree, ?_, fun m hm => ?_, ?_⟩
  · refine List.rel_append (forall₂_of_map_eq (g := TitleTree.place) (hplaces.trans hpl.symm)
      fun r hr T hT hTr => ?_) ?_
    · obtain ⟨-, hnr, -, hf⟩ := hchild r hr
      have hrid : T.place.1 = ((t.onItemExpanded listing n).nodes r).id :=
        congrArg Prod.fst hTr.symm
      have hT' := hch T hT
      rw [← hrid] at hf
      rcases hE.new _ r hf with hold | ⟨hle, hnew, ha', hn', ho'⟩
      · -- a child that was there
        rw [show t.childOf (some n) T.place.1 = some r from hold] at hT'
        refine hE.ready h.tree hty (h.tree.child n _ r hold).2 (Nat.ne_of_gt hnr) (fun hb => ?_) hT'
        exact Nat.lt_asymm hnr (h.tree.climbs.lt hb)
      · have hnone : t.childOf (some n) T.place.1 = none := by
          cases hc : t.childOf (some n) T.place.1 with
          | none => rfl
          | some r' =>
            have hsame : r' = r := Option.some.inj ((hE.keeps _ r' hc).symm.trans hf)
            exact absurd (hsame ▸ (h.tree.child n _ r' hc).2) (Nat.not_lt.mpr hle)
        rw [hnone] at hT'
        refine hT'.built ?_ hrid.symm ha' hn' ho'
        rw [hnew]
        exact if_congr (hkind T hT hnone).symm rfl rfl
    · refine ((List.forall₂_and_left _ _).mpr ⟨fun m hm => hm, hrest⟩).imp fun m T ⟨hm, hT⟩ => ?_
      obtain ⟨hne, -, hb⟩ := happ m hm
      exact hE.ready h.tree hty (h.inUse m (List.mem_cons_of_mem _ hm)) hne.symm hb hT
  · rcases List.mem_append.mp hm with hm | hm
    · exact (hchild m hm).2.2.1
    · exact Nat.lt_of_lt_of_le (h.inUse m (List.mem_cons_of_mem _ hm)) hE.next
  · exact hE.unrelated h.tree hn hty' hi' (fun m hm =>
      h.inUse m (List.mem_cons_of_mem _ hm)) h.apart

end Forest
end MonitorAgent.L4
