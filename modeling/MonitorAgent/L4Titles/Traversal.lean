import Mathlib.Data.List.Pairwise
import MonitorAgent.Core.LTS
import MonitorAgent.L4Titles.Forest
import MonitorAgent.L4Titles.RoomLinks
import MonitorAgent.L4Titles.WatchsList

/-!
# The walk of a watch

`Begin` and the calls of `OnTraverse` that follow work off an explicit stack,
one room at a call; between two calls other threads may change the wall and
the list's page and rooms. Where the listings settle all the way down
(`Ready`) the walk is depth first.

* `walk_depthFirst`: every call returns, the walk ends, and the rooms watched
  are then those below the node, each once, in depth-first order, followed by
  one call of `NextPage`.
* `depthFirst_broken`: a child whose new order is past its neighbour's is
  watched where it stood before.
-/
namespace MonitorAgent.L4

open L3 LTS Titles

/-! ## Depth-first order -/

/-- The rooms at or below a node, siblings by ascending order. -/
inductive DepthFirst (t : Titles) : NodeRef → List NodeRef → Prop
  | room {r : NodeRef} : (t.nodes r).nodeType = .titleRoom → DepthFirst t r [r]
  | node {n : NodeRef} {cs : List NodeRef} (rooms : NodeRef → List NodeRef) :
      (t.nodes n).nodeType = .titleNode →
      cs.Perm (t.children n) → OrderSet.Ordered t.orderOf cs →
      (∀ c ∈ cs, DepthFirst t c (rooms c)) →
      DepthFirst t n (cs.flatMap rooms)

namespace DepthFirst

variable {t : Titles} (h : Tree t) {n : NodeRef} {rs : List NodeRef}
include h

/-- The live rooms at or below the node. -/
theorem mem_iff (ha : (t.nodes n).alive = true) (hd : DepthFirst t n rs) (r : NodeRef) :
    r ∈ rs ↔ RoomExists t r ∧ (r = n ∨ Below t n r) := by
  induction hd generalizing r with
  | @room n hty =>
    rw [List.mem_singleton]
    refine ⟨fun he => ⟨he ▸ ⟨ha, hty⟩, .inl he⟩, fun ⟨hr, he⟩ => he.resolve_right fun hb => ?_⟩
    -- rooms have no children
    obtain ⟨c, hc, hrc⟩ := hb.top
    have hca := h.alive_of_below hr.1 hrc
    obtain ⟨id, hf⟩ := h.filed c n hca hc
    rw [h.leaf n id hty] at hf
    cases hf
  | @node n cs rooms hty hperm _ hch ih =>
    have hchild : ∀ c ∈ cs, (t.nodes c).alive = true ∧ (t.nodes c).parentItem = some n :=
      fun c hc => by
      obtain ⟨id, hf⟩ := mem_children.mp (hperm.mem_iff.mp hc)
      exact ⟨h.down n id c ha hf, h.parentItem_of_child hty hf⟩
    rw [List.mem_flatMap]
    constructor
    · intro ⟨c, hc, hr⟩
      obtain ⟨hca, hp⟩ := hchild c hc
      obtain ⟨he, hb⟩ := (ih c hc hca r).mp hr
      exact ⟨he, .inr (hb.elim (fun heq => heq ▸ .child hp) (Below.trans (.child hp)))⟩
    · intro ⟨hr, hb⟩
      rcases hb with rfl | hb
      · exact absurd (hr.2.symm.trans hty) (by decide)
      · obtain ⟨c, hp, hrc⟩ := hb.top
        have hca := h.alive_of_below hr.1 hrc
        obtain ⟨id, hf⟩ := h.filed c n hca hp
        have hc := hperm.mem_iff.mpr (mem_children.mpr ⟨id, hf⟩)
        exact ⟨c, hc, (ih c hc hca r).mpr ⟨hr, hrc⟩⟩

theorem nodup (ha : (t.nodes n).alive = true) (hd : DepthFirst t n rs) : rs.Nodup := by
  induction hd with
  | room _ => exact List.nodup_singleton _
  | @node n cs rooms hty hperm _ hch ih =>
    have hchild : ∀ c ∈ cs, (t.nodes c).alive = true ∧ (t.nodes c).parentItem = some n ∧ n < c :=
      fun c hc => by
      obtain ⟨id, hf⟩ := mem_children.mp (hperm.mem_iff.mp hc)
      exact ⟨h.down n id c ha hf, h.parentItem_of_child hty hf, (h.child n id c hf).1⟩
    refine List.nodup_flatMap.mpr ⟨fun c hc => ih c hc (hchild c hc).1, ?_⟩
    refine (hperm.nodup_iff.mpr (h.nodup_children n)).imp_of_mem
      fun {a b} hma hmb hab r hra hrb => ?_
    obtain ⟨haa, hpa, hna⟩ := hchild a hma
    obtain ⟨hba, hpb, hnb⟩ := hchild b hmb
    -- a room of both would put one of two siblings below the other
    exact h.siblings_apart hpa hpb hna hnb hab (((hch a hma).mem_iff h haa r).mp hra).2
      (((hch b hmb).mem_iff h hba r).mp hrb).2

end DepthFirst

/-! ## Working off the stack -/

/-- Only the wall may differ. -/
structure SameNodes (t t' : Titles) : Prop where
  nodes : t'.nodes = t.nodes
  nextNode : t'.nextNode = t.nextNode

namespace SameNodes

variable {t t' t'' : Titles} (h : SameNodes t t')
include h

theorem trans (h' : SameNodes t' t'') : SameNodes t t'' :=
  ⟨h'.nodes.trans h.nodes, h'.nextNode.trans h.nextNode⟩

theorem tree (ht : Tree t) : Tree t' := by
  obtain ⟨nodes, nextNode, memory, w⟩ := t'
  obtain rfl : nodes = t.nodes := h.nodes
  obtain rfl : nextNode = t.nextNode := h.nextNode
  exact ⟨⟨ht.child, ht.type, ht.id, ht.one, ht.leaf, ht.parent⟩, ht.down, ht.up, ht.filed,
    ht.climbs, ht.inUse⟩

theorem orderOf (m : NodeRef) : t'.orderOf m = t.orderOf m := by
    rw [Titles.orderOf, Titles.orderOf, h.nodes]

theorem below_iff {a b : NodeRef} : Below t' a b ↔ Below t a b := by
  constructor
  · intro hb
    induction hb with
    | child hp => exact .child (h.nodes ▸ hp)
    | step hp _ ih => exact .step (h.nodes ▸ hp) ih
  · intro hb
    induction hb with
    | child hp => exact .child (h.nodes.symm ▸ hp)
    | step hp _ ih => exact .step (h.nodes.symm ▸ hp) ih

theorem depthFirst {n : NodeRef} {rs : List NodeRef} (hd : DepthFirst t n rs) :
    DepthFirst t' n rs := by
  induction hd with
  | room hty => exact .room (by rw [h.nodes]; exact hty)
  | node rooms hty hperm hord _ ih =>
    refine .node rooms (by rw [h.nodes]; exact hty) (by rw [children, h.nodes]; exact hperm) ?_ ih
    exact (OrderSet.ordered_congr fun c _ => h.orderOf c).mpr hord

theorem forest {listing : Int → Option Document} {Ts : List TitleTree} {ns : List NodeRef}
    (hF : Forest listing t Ts ns) : Forest listing t' Ts ns where
  tree := h.tree hF.tree
  ready := by
    refine ((List.forall₂_and_left _ _).mpr ⟨fun m hm => hF.inUse m hm, hF.ready⟩).imp fun n T ⟨hn,
      hT⟩ => ?_
    exact hT.congr hF.tree hn (fun m _ _ => by rw [h.nodes]; exact ⟨rfl, rfl, rfl, rfl, rfl, rfl⟩)
      fun m _ _ => h.orderOf m
  inUse n hn := h.nextNode ▸ hF.inUse n hn
  apart := hF.apart.imp fun {a b} ⟨hne, hab, hba⟩ => ⟨hne,
    by rwa [h.below_iff], by rwa [h.below_iff]⟩

end SameNodes

/-- The stack is worked off: a node is expanded and its children come on top,
a room is watched, and the wall may change before the next one. -/
inductive Visits (listing : Int → Option Document) :
    Titles → List NodeRef → List NodeRef → Titles → Prop
  | done {t : Titles} : Visits listing t [] [] t
  | room {t t₁ t' : Titles} {r : NodeRef} {ns rs : List NodeRef} :
      (t.nodes r).nodeType = .titleRoom →
      SameNodes t t₁ → Visits listing t₁ ns rs t' → Visits listing t (r :: ns) (r :: rs) t'
  | node {t t' : Titles} {n : NodeRef} {ns rs : List NodeRef} : (t.nodes n).nodeType = .titleNode →
      Visits listing (t.onItemExpanded listing n)
      (((t.onItemExpanded listing n).nodes n).nodesOrder ++ ns) rs t' →
      Visits listing t (n :: ns) rs t'

/-- From `t` to `t'`, nothing changes but at and below the nodes. -/
structure Beside (ns : List NodeRef) (t t' : Titles) : Prop where
  tree : Tree t'
  next : t.nextNode ≤ t'.nextNode
  same : ∀ m, m < t.nextNode → (t'.nodes m).nodeType = (t.nodes m).nodeType ∧
    (t'.nodes m).alive = (t.nodes m).alive
  nodes : ∀ m, m < t.nextNode → (∀ n ∈ ns, m ≠ n ∧ ¬ Below t n m) →
    (t'.nodes m).nodes = (t.nodes m).nodes
  order : ∀ m, m < t.nextNode → (∀ n ∈ ns, ¬ Below t n m) → t'.orderOf m = t.orderOf m

namespace Beside

variable {t t₁ t' : Titles} {n : NodeRef} {ns : List NodeRef}

theorem room (h : SameNodes t t₁) (hb : Beside ns t₁ t') : Beside (n :: ns) t t' where
  tree := hb.tree
  next := h.nextNode ▸ hb.next
  same m hm := by
    rw [← h.nodes]
    exact hb.same m (h.nextNode.symm ▸ hm)
  nodes m hm ho := by
    rw [← h.nodes]
    exact hb.nodes m (h.nextNode.symm ▸ hm) fun n' hn' => by
      rw [h.below_iff]
      exact ho n' (List.mem_cons_of_mem _ hn')
  order m hm ho := by
    rw [← h.orderOf]
    exact hb.order m (h.nextNode.symm ▸ hm) fun n' hn' => by
      rw [h.below_iff]
      exact ho n' (List.mem_cons_of_mem _ hn')

/-- What was outside a node is outside the children it expands to. -/
theorem node {heading : Heading} {cs : List NodeRef} (ht : Tree t)
    (hty : (t.nodes n).nodeType = .titleNode)
    (hE : Expands n heading t t₁) (hcs : ∀ c ∈ cs, (t₁.nodes c).parentItem = some n)
    (hb : Beside (cs ++ ns) t₁ t') :
    Beside (n :: ns) t t' := by
  have hbelow : ∀ m, m < t.nextNode → (∀ n' ∈ n :: ns, ¬ Below t n' m) →
      ∀ n' ∈ cs ++ ns, ¬ Below t₁ n' m ∧ (n' ∈ cs → m ≠ n') := by
    intro m hm ho n' hn'
    have hn : ¬ Below t₁ n m := by
      rw [hE.below_iff ht hm]
      exact ho n List.mem_cons_self
    refine ⟨fun hb => ?_, fun hc he => hn (he ▸ .child (hcs n' hc))⟩
    rcases List.mem_append.mp hn' with hn' | hn'
    · exact hn (Below.trans (.child (hcs n' hn')) hb)
    · exact ho n' (List.mem_cons_of_mem _ hn') ((hE.below_iff ht hm).mp hb)
  refine ⟨hb.tree, Nat.le_trans hE.next hb.next,
    fun m hm => ?_, fun m hm ho => ?_, fun m hm ho => ?_⟩
  · obtain ⟨h1, h2⟩ := hb.same m (Nat.lt_of_lt_of_le hm hE.next)
    obtain ⟨h3, -, -, h4⟩ := hE.same m hm
    exact ⟨h1.trans h3, h2.trans h4⟩
  · refine (hb.nodes m (Nat.lt_of_lt_of_le hm hE.next) fun n' hn' => ?_).trans
      (hE.indexes m hm (ho n List.mem_cons_self).1).1
    obtain ⟨hnb, hne⟩ := hbelow m hm (fun n' hn' => (ho n' hn').2) n' hn'
    rcases List.mem_append.mp hn' with hc | hc
    · exact ⟨hne hc, hnb⟩
    · exact ⟨(ho n' (List.mem_cons_of_mem _ hc)).1, hnb⟩
  · refine (hb.order m (Nat.lt_of_lt_of_le hm hE.next) fun n' hn' =>
      (hbelow m hm ho n' hn').1).trans
      (hE.order m hm fun id hf => ho n List.mem_cons_self (.child (ht.parentItem_of_child hty hf)))

end Beside

instance (t : Titles) : Std.Symm (Unrelated t) where
  symm _ _ h := ⟨h.1.symm, h.2.2, h.2.1⟩

theorem Forest.not_below {listing : Int → Option Document} {t : Titles} {Ts : List TitleTree}
    {ns : List NodeRef} (h : Forest listing t Ts ns) {a b : NodeRef} (ha : a ∈ ns) (hb : b ∈ ns) :
    ¬ Below t a b := by
  by_cases hab : a = b
  · subst hab
    exact fun hc => Nat.lt_irrefl _ (h.tree.climbs.lt hc)
  · exact (h.apart.forall ha hb hab).2.1

/-- A walk that visits a node before the others lists its rooms first. -/
theorem flatMap_update {n : NodeRef} {ns : List NodeRef} (hn : n ∉ ns)
    (rooms : NodeRef → List NodeRef) (own : List NodeRef) :
    (n :: ns).flatMap (Function.update rooms n own) = own ++ ns.flatMap rooms := by
  have hrooms : ∀ m ∈ ns, Function.update rooms n own m = rooms m := fun m hm =>
    Function.update_of_ne (fun (he : m = n) => hn (he ▸ hm)) _ _
  rw [List.flatMap_cons, Function.update_self, List.flatMap_congr hrooms]

theorem depthFirst_update {t : Titles} {n : NodeRef} {ns : List NodeRef} (hn : n ∉ ns)
    {rooms : NodeRef → List NodeRef} {own : List NodeRef} (hown : DepthFirst t n own)
    (hd : ∀ m ∈ ns, DepthFirst t m (rooms m)) :
    ∀ m ∈ n :: ns, DepthFirst t m (Function.update rooms n own m) := by
  refine List.forall_mem_cons.mpr ⟨?_, fun m hm => ?_⟩
  · rwa [Function.update_self]
  · rw [Function.update_of_ne fun (he : m = n) => hn (he ▸ hm)]
    exact hd m hm

/-- **Working off a forest** visits the rooms of each tree in depth-first
order, one tree after the other. -/
theorem Visits.depthFirst {listing : Int → Option Document} {t t' : Titles} {ns rs : List NodeRef}
    (hv : Visits listing t ns rs t') {Ts : List TitleTree} (hF : Forest listing t Ts ns) :
    ∃ rooms, rs = ns.flatMap rooms ∧ (∀ n ∈ ns, DepthFirst t' n (rooms n)) ∧ Beside ns t t' := by
  induction hv generalizing Ts with
  | done => exact ⟨fun _ => [], rfl, (fun _ h => nomatch h), hF.tree, Nat.le_refl _,
    fun _ _ => ⟨rfl, rfl⟩,
      fun _ _ _ => rfl, fun _ _ _ => rfl⟩
  | @room t t₁ t' r ns rs hty hs _ ih =>
    cases Ts with
    | nil => cases hF.ready
    | cons T Ts =>
    obtain ⟨rooms, hrs, hd, hb⟩ := ih (hs.forest hF.tail)
    have hr : r ∉ ns := fun hm => (List.rel_of_pairwise_cons hF.apart hm).1 rfl
    have hb' := hb.room (n := r) hs
    have hroom := (hb'.same r (hF.inUse r List.mem_cons_self)).1.trans hty
    refine ⟨Function.update rooms r [r], ?_, depthFirst_update hr (.room hroom) hd, hb'⟩
    rw [flatMap_update hr, hrs]
    rfl
  | @node t t' n ns rs hty _ ih =>
    cases Ts with
    | nil => cases hF.ready
    | cons T Ts =>
    cases T with
    | room p =>
      cases (List.forall₂_cons.mp hF.ready).1 with
      | room hty' => exact absurd ((hty' n rfl).symm.trans hty) (by decide)
    | node p children =>
    obtain ⟨heading, -, hE, hi, hF'⟩ := hF.expands
    obtain ⟨rooms, hrs, hd, hb⟩ := ih hF'
    have hn := hF.inUse n List.mem_cons_self
    have hty₁ := (hE.same n hn).1.trans hty
    have hcs := fun c => hE.tree.listed_child (r := c) hty₁ hi
    have hb' := hb.node hF.tree hty hE fun c hc => (hcs c hc).1
    have hnotin : n ∉ ns := fun hm => (List.rel_of_pairwise_cons hF.apart hm).1 rfl
    have hlt := Nat.lt_of_lt_of_le hn hE.next
    -- the rest of the walk leaves the node and the orders of its children alone
    have hnodes := hb.nodes n hlt fun n' hn' => by
      rcases List.mem_append.mp hn' with hc | hc
      · exact ⟨Nat.ne_of_lt (hcs n' hc).2.1,
          fun hbel => Nat.lt_asymm (hcs n' hc).2.1 (hE.tree.climbs.lt hbel)⟩
      · obtain ⟨hne, -, hba⟩ := List.rel_of_pairwise_cons hF.apart hc
        exact ⟨hne, fun hbel => hba ((hE.below_iff hF.tree hn).mp hbel)⟩
    have hown : DepthFirst t' n
      (((t.onItemExpanded listing n).nodes n).nodesOrder.flatMap rooms) := by
      refine .node rooms ((hb.same n hlt).1.trans hty₁) ?_ ?_ fun c hc =>
        hd c (List.mem_append_left _ hc)
      · rw [Titles.children, hnodes]
        exact (List.perm_ext_iff_of_nodup hi.nodup (hE.tree.nodup_children n)).mpr hi.mem
      · refine (OrderSet.ordered_congr fun c hc => ?_).mpr hi.ordered
        exact hb.order c (hcs c hc).2.2.1 fun n' hn' =>
        hF'.not_below hn' (List.mem_append_left _ hc)
    refine ⟨Function.update rooms n
      (((t.onItemExpanded listing n).nodes n).nodesOrder.flatMap rooms),
      ?_, depthFirst_update hnotin hown fun m hm => hd m (List.mem_append_right _ hm), hb'⟩
    rw [flatMap_update hnotin, hrs, List.flatMap_append]

/-! ## One call -/

namespace Watch

variable {listing : Int → Option Document}

/-- What a call that returns has done: it has come to a room, or worked off
the stack and called `NextPage`. -/
inductive Came (listing : Int → Option Document) (Ts : List TitleTree) (s s' : Watch) : Prop
  | room {r : NodeRef} {Us : List TitleTree} : s'.calls = s.calls ++ [.watched r] →
      Forest listing s'.t Us s'.list.traverseStack → TitleTree.sizes Us < TitleTree.sizes Ts →
      (∀ {t₁ t' : Titles} {rs : List NodeRef},
        SameNodes s'.t t₁ → Visits listing t₁ s'.list.traverseStack rs t' →
        Visits listing s.t s.list.traverseStack (r :: rs) t') → Came listing Ts s s'
  | page : s'.calls = s.calls ++ [.nextPage] → s'.list.traverseStack = [] →
      Visits listing s.t s.list.traverseStack [] s'.t → Came listing Ts s s'

/-- **One call of `OnTraverse`.** -/
theorem onTraverse_came {fuel : Nat} {s s' : Watch} {Ts : List TitleTree}
    (h : s.onTraverse listing fuel = some s')
    (hF : Forest listing s.t Ts s.list.traverseStack) : Came listing Ts s s' := by
  induction fuel generalizing s Ts with
  | zero => cases h
  | succ fuel ih =>
    rw [onTraverse] at h
    split at h
    · rename_i n ns hstack
      rw [hstack] at hF
      cases Ts with
      | nil => cases hF.ready
      | cons T Ts =>
      have hpop : s.pop.list.traverseStack = ns := by rw [pop, hstack]; rfl
      have hready := (List.forall₂_cons.mp hF.ready).1
      cases T with
      | room p =>
        cases hready with
        | room hty =>
        have hty := hty n rfl
        rw [onWatched, show (s.pop.t.nodes n).nodeType = .titleRoom from hty] at h
        cases h
        obtain ⟨ht, hc, hs⟩ := roomOnWatched_rest s.pop s.list.title n
        refine .room hc (by rw [ht, hs, hpop]; exact hF.tail) ?_ fun {t₁ t' rs} hsame hv => ?_
        · rw [TitleTree.sizes]
          exact Nat.lt_add_of_pos_left (TitleTree.size_pos _)
        · rw [hstack]
          rw [hs, hpop] at hv
          exact .room hty (ht ▸ hsame) hv
      | node p children =>
        obtain ⟨heading, hty, -, -, hF'⟩ := hF.expands
        rw [onWatched, show (s.pop.t.nodes n).nodeType = .titleNode from hty] at h
        obtain ⟨ht, hc, hs⟩ := expand_eq s.pop listing n
        rw [hpop] at hs
        have hlt : TitleTree.sizes (children ++ Ts) < TitleTree.sizes (.node p children :: Ts) := by
          rw [TitleTree.sizes_append, TitleTree.sizes, TitleTree.size]
          exact Nat.add_lt_add_right (Nat.lt_succ_self _) _
        cases ih h (by rw [ht, hs]; exact hF') with
        | room hcalls hF'' hlt' hv =>
          refine .room (hcalls.trans (by rw [hc]; rfl)) hF'' (Nat.lt_trans hlt' hlt)
            fun hsame hvis => ?_
          rw [hstack]
          refine .node hty ?_
          have := hv hsame hvis
          rwa [ht, hs] at this
        | page hcalls hempty hv =>
          refine .page (hcalls.trans (by rw [hc]; rfl)) hempty ?_
          rw [hstack]
          refine .node hty ?_
          rwa [ht, hs] at hv
    · rename_i hstack
      cases h
      obtain ⟨ht, hc, hs⟩ := nextPage_rest s
      refine .page hc (hs.trans hstack) ?_
      rw [hstack, ht]
      exact .done

/-- The call returns: each node it expands leaves less of the forest. -/
theorem onTraverse_returns {s : Watch} {Ts : List TitleTree}
    (hF : Forest listing s.t Ts s.list.traverseStack) :
    ∃ fuel s', s.onTraverse listing fuel = some s' := by
  induction hk : TitleTree.sizes Ts using Nat.strong_induction_on generalizing s Ts with
  | _ k ih =>
    cases hstack : s.list.traverseStack with
    | nil => exact ⟨1, s.nextPage, by rw [onTraverse, hstack]⟩
    | cons n ns =>
      rw [hstack] at hF
      cases Ts with
      | nil => cases hF.ready
      | cons T Ts =>
      have hpop : s.pop.list.traverseStack = ns := by rw [pop, hstack]; rfl
      cases T with
      | room p =>
        cases (List.forall₂_cons.mp hF.ready).1 with
        | room hty =>
        refine ⟨1, s.pop.roomOnWatched s.list.title n, ?_⟩
        rw [onTraverse, hstack]
        dsimp only
        rw [onWatched, show (s.pop.t.nodes n).nodeType = .titleRoom from hty n rfl]
      | node p children =>
        obtain ⟨heading, hty, -, -, hF'⟩ := hF.expands
        obtain ⟨ht, -, hs⟩ := expand_eq s.pop listing n
        rw [hpop] at hs
        have hlt : TitleTree.sizes (children ++ Ts) < k := by
          rw [← hk, TitleTree.sizes_append, TitleTree.sizes, TitleTree.size]
          exact Nat.add_lt_add_right (Nat.lt_succ_self _) _
        obtain ⟨fuel, s', h⟩ := ih _ hlt (s := s.pop.expand listing n)
          (by rw [ht, hs]; exact hF') rfl
        refine ⟨fuel + 1, s', ?_⟩
        rw [onTraverse, hstack]
        dsimp only
        rw [onWatched, show (s.pop.t.nodes n).nodeType = .titleNode from hty]
        exact h

end Watch

/-! ## Whole walks -/

/-- A watch, and the calls of `OnTraverse` since `Begin`. -/
structure Walk where
  watch : Watch
  traverses : Nat

def Call.room? : Call → Option NodeRef
  | .watched r => some r
  | .nextPage => none

/-- Between two calls other threads may change all that a walk does not read. -/
inductive WalkOp
  | onTraverse (fuel : Nat)
  | idle (memory : NodeRef → Option ProxyRef) (w : World) (rooms : List NodeRef) (page : Nat)
      (pipe : List Message)

namespace Walk

/-- A room's `OnWatched` has not been followed by `OnTraverse` yet. -/
def Owes (x : Walk) : Prop := x.traverses < (x.watch.calls.filterMap Call.room?).length

instance (x : Walk) : Decidable x.Owes := inferInstanceAs (Decidable (_ < _))

def idle (x : Walk) (memory : NodeRef → Option ProxyRef) (w : World) (rooms : List NodeRef)
    (page : Nat) (pipe : List Message) : Walk where
  watch := {
    t := { x.watch.t with memory := memory, w := w }
    list := { x.watch.list with page := page, rooms := rooms }
    pipe := pipe
    calls := x.watch.calls }
  traverses := x.traverses

/-- `OnTraverse` is called once for each room watched, and only then. -/
def step (listing : Int → Option Document) (x : Walk) : WalkOp → Option Walk
  | .onTraverse fuel =>
    if x.Owes then (x.watch.onTraverse listing fuel).map fun s => ⟨s, x.traverses + 1⟩ else none
  | .idle memory w rooms page pipe => some (x.idle memory w rooms page pipe)

def Begun (listing : Int → Option Document) (x : Walk) : Prop :=
  x.traverses = 0 ∧ ∃ (s : Watch) (fuel : Nat) (node title : NodeRef), s.calls = [] ∧
    s.start listing fuel node title = some x.watch

end Walk

def walkSys (listing : Int → Option Document) : LTS Walk WalkOp :=
  .ofFn (Walk.Begun listing) (Walk.step listing)

/-- A walk of the tree `T` from `t₀` is under way, or has come to its end. -/
inductive Walk.Inv (listing : Int → Option Document) (t₀ : Titles) (node : NodeRef)
    (T : TitleTree) (x : Walk) : Prop
  | walking {rs : List NodeRef} {Ts : List TitleTree} : x.watch.calls = rs.map .watched →
      x.traverses + 1 = rs.length →
      Forest listing x.watch.t Ts x.watch.list.traverseStack → x.traverses +
      TitleTree.sizes Ts < T.size →
      (∀ {t₁ t' : Titles} {rs' : List NodeRef}, SameNodes x.watch.t t₁ →
        Visits listing t₁ x.watch.list.traverseStack rs' t' →
        Visits listing t₀ [node] (rs ++ rs') t') →
      x.Inv listing t₀ node T
  | ended {rs : List NodeRef} {t' : Titles} : x.watch.calls = rs.map .watched ++ [.nextPage] →
      x.traverses = rs.length →
      x.watch.list.traverseStack = [] → x.traverses ≤ T.size → Visits listing t₀ [node] rs t' →
      SameNodes t' x.watch.t → x.Inv listing t₀ node T

namespace Walk

variable {listing : Int → Option Document} {t₀ : Titles} {node : NodeRef}
  {T : TitleTree} {x y : Walk}

theorem filterMap_watched (rs : List NodeRef) :
    (rs.map Call.watched).filterMap Call.room? = rs := by
  rw [List.filterMap_map]
  exact List.filterMap_some

theorem inv_begin {s s' : Watch} {fuel : Nat} {title : NodeRef} (hF : Forest listing s.t [T] [node])
    (hc : s.calls = []) (h : s.start listing fuel node title = some s') :
    Inv listing s.t node T ⟨s', 0⟩ := by
  rw [Watch.start_eq] at h
  cases Watch.onTraverse_came h hF with
  | @room r Us hcalls hF' hlt hv =>
    rw [show ((s.opened node title).push node).calls = [] from hc] at hcalls
    refine .walking (show s'.calls = [r].map .watched from hcalls) rfl hF' ?_ hv
    rw [Nat.zero_add]
    exact hlt
  | page hcalls hempty hv =>
    rw [show ((s.opened node title).push node).calls = [] from hc] at hcalls
    exact .ended (show s'.calls = [].map .watched ++ [.nextPage] from hcalls) rfl hempty
      (Nat.zero_le _) hv ⟨rfl, rfl⟩

theorem inv_onTraverse {fuel : Nat} (h : x.Inv listing t₀ node T)
    (hst : x.step listing (.onTraverse fuel) = some y) :
    y.Inv listing t₀ node T := by
  rw [step] at hst
  split at hst
  · rename_i howes
    obtain ⟨s', hs', rfl⟩ := Option.map_eq_some_iff.mp hst
    cases h with
    | @walking rs Ts hcalls hlen hF hsize hvis =>
      cases Watch.onTraverse_came hs' hF with
      | @room r Us hcalls' hF' hlt hv =>
        have hall : s'.calls = (rs ++ [r]).map .watched := by
          rw [hcalls', hcalls, List.map_append]; rfl
        refine .walking hall ?_ hF' ?_ fun hsame hvis' => ?_
        · rw [List.length_append, ← hlen]; rfl
        · exact Nat.lt_of_le_of_lt (by dsimp only; omega) hsize
        · rw [List.append_assoc]
          exact hvis ⟨rfl, rfl⟩ (hv hsame hvis')
      | page hcalls' hempty hv =>
        have hall : s'.calls = rs.map .watched ++ [.nextPage] := by rw [hcalls', hcalls]
        refine .ended hall hlen hempty ?_ ?_ ⟨rfl, rfl⟩
        · exact Nat.succ_le_of_lt (Nat.lt_of_le_of_lt (Nat.le_add_right _ _) hsize)
        · have := hvis ⟨rfl, rfl⟩ hv
          rwa [List.append_nil] at this
    | ended hcalls hlen _ _ _ _ =>
      -- every room has had its call
      rw [Owes, hcalls, List.filterMap_append, filterMap_watched, hlen] at howes
      exact absurd howes (by simp [Call.room?])
  · cases hst

theorem inv_idle (h : x.Inv listing t₀ node T) (memory : NodeRef → Option ProxyRef) (w : World)
    (rooms : List NodeRef)
    (page : Nat) (pipe : List Message) :
    (x.idle memory w rooms page pipe).Inv listing t₀ node T := by
  have hsame : SameNodes x.watch.t (x.idle memory w rooms page pipe).watch.t := ⟨rfl, rfl⟩
  cases h with
  | walking hcalls hlen hF hsize hvis =>
    exact .walking hcalls hlen (hsame.forest hF) hsize fun h hv => hvis (hsame.trans h) hv
  | ended hcalls hlen hempty hle hv h => exact .ended hcalls hlen hempty hle hv (h.trans hsame)

theorem inv_run {ms : List (Move Walk WalkOp)} (hr : (walkSys listing).Run x ms y)
    (h : x.Inv listing t₀ node T) :
    y.Inv listing t₀ node T := by
  induction hr with
  | nil => exact h
  | @cons x x' y op ms hst _ ih =>
    refine ih ?_
    cases op
    case onTraverse fuel => exact inv_onTraverse h hst
    case idle memory w rooms page pipe =>
      cases hst
      exact inv_idle h memory w rooms page pipe

/-- A call that is owed returns. -/
theorem Inv.returns (h : x.Inv listing t₀ node T) (howes : x.Owes) :
    ∃ fuel y, x.step listing (.onTraverse fuel) = some y := by
  cases h with
  | walking _ _ hF _ _ =>
    obtain ⟨fuel, s', hs'⟩ := Watch.onTraverse_returns hF
    exact ⟨fuel, ⟨s', x.traverses + 1⟩, by rw [step, if_pos howes, hs']; rfl⟩
  | ended hcalls hlen _ _ _ _ =>
    rw [Owes, hcalls, List.filterMap_append, filterMap_watched, hlen] at howes
    exact absurd howes (by simp [Call.room?])

theorem Inv.bound (h : x.Inv listing t₀ node T) : x.traverses ≤ T.size := by
  cases h with
  | walking _ _ _ hsize _ => exact Nat.le_of_lt (Nat.lt_of_le_of_lt (Nat.le_add_right _ _) hsize)
  | ended _ _ _ hle _ _ => exact hle

/-- A walk that owes no call has visited everything. -/
theorem Inv.visited (h : x.Inv listing t₀ node T) (howes : ¬ x.Owes) : ∃ rs t',
    x.watch.calls = rs.map .watched ++ [.nextPage] ∧ x.watch.list.traverseStack = [] ∧
    Visits listing t₀ [node] rs t' ∧
      SameNodes t' x.watch.t := by
  cases h with
  | walking hcalls hlen _ _ _ =>
    rw [Owes, hcalls, filterMap_watched, ← hlen] at howes
    exact absurd (Nat.lt_succ_self _) howes
  | ended hcalls _ hempty _ hv hsame => exact ⟨_, _, hcalls, hempty, hv, hsame⟩

end Walk

/-- **The walk is depth first.** Where the listings settle below a node,
`Begin` and every `OnTraverse` that is owed return, there are no more of them
than the tree has nodes, and when none is owed the rooms below the node have
been watched, each once, in depth-first order; then the stack is empty and
`NextPage` has been called once, after the last room. -/
theorem walk_depthFirst {listing : Int → Option Document} {s : Watch} {node title : NodeRef}
    {T : TitleTree} (ht : Tree s.t) (hn : (s.t.nodes node).nodeType = .titleNode)
    (hr : Ready listing s.t T (some node)) (hc : s.calls = []) :
    (∃ fuel s', s.start listing fuel node title = some s') ∧
      ∀ {fuel : Nat} {s' : Watch} {ms : List (Move Walk WalkOp)} {x : Walk},
      s.start listing fuel node title = some s' →
        (walkSys listing).Run ⟨s', 0⟩ ms x →
        (x.Owes → ∃ fuel y, x.step listing (.onTraverse fuel) = some y) ∧ x.traverses ≤ T.size ∧
          (¬ x.Owes → ∃ rs, x.watch.calls = rs.map .watched ++ [.nextPage] ∧
            x.watch.list.traverseStack = [] ∧
            DepthFirst x.watch.t node rs ∧ rs.Nodup ∧ ∀ r, r ∈ rs ↔ RoomExists x.watch.t r ∧
            Below x.watch.t node r) := by
  have ha : (s.t.nodes node).alive = true := by
    cases hr with
    | room hty => exact absurd (hn.symm.trans (hty node rfl)) (by decide)
    | node hnode _ _ _ _ => exact (hnode node rfl).2.2.1
  have hF : Forest listing s.t [T] [node] :=
    ⟨ht, .cons hr .nil,
      fun m hm => List.mem_singleton.mp hm ▸ ht.inUse node ha, List.pairwise_singleton _ _⟩
  refine ⟨?_, fun {fuel s' ms x} hs hrun => ?_⟩
  · -- `Begin` calls `OnWatched` of a node, so one unit of fuel is spent at least
    obtain ⟨fuel, s', h⟩ := Watch.onTraverse_returns (s := (s.opened node title).push node) hF
    cases fuel with
    | zero => cases h
    | succ fuel => exact ⟨fuel, s', h⟩
  have hI := Walk.inv_run hrun (Walk.inv_begin hF hc hs)
  refine ⟨hI.returns, hI.bound, fun howes => ?_⟩
  obtain ⟨rs, t', hcalls, hempty, hv, hsame⟩ := hI.visited howes
  obtain ⟨rooms, hrs, hd, hb⟩ := hv.depthFirst hF
  rw [List.flatMap_singleton] at hrs
  have hd : DepthFirst x.watch.t node rs := by
    rw [hrs]
    exact hsame.depthFirst (hd node List.mem_cons_self)
  have htx := hsame.tree hb.tree
  obtain ⟨hty', ha'⟩ := hb.same node (ht.inUse node ha)
  rw [← hsame.nodes] at hty' ha'
  refine ⟨rs, hcalls, hempty, hd, hd.nodup htx (ha'.trans ha), fun r => ?_⟩
  rw [hd.mem_iff htx (ha'.trans ha)]
  refine and_congr_right fun he => or_iff_right fun hrn => ?_
  rw [hrn] at he
  exact absurd (he.2.symm.trans (hty'.trans hn)) (by decide)

/-! ## Two walks -/

/-- A tree that was read earlier. -/
def Watch.of (ops : List LinkOp) (h : (exec Linkage.step Linkage.launched ops).isSome = true) :
    Watch where
  t := ((exec Linkage.step Linkage.launched ops).get h).t
  list := ⟨none, none, false, 0, [], []⟩
  pipe := []
  calls := []

theorem Watch.tree_of (ops : List LinkOp)
    (h : (exec Linkage.step Linkage.launched ops).isSome = true) :
    Tree (Watch.of ops h).t :=
  link_tree.reachable _ ⟨_, _, Linkage.launched_launched, run_of_exec ops h⟩

/-- Two nodes, the first one expanded to a room. -/
def grown : Watch := .of [.parseXML 0 (some ⟨.staticNode, [⟨7, "a", 10, 0⟩, ⟨8, "b", 20, 0⟩], []⟩),
  .parseXML 1 (some ⟨.dynamicNode, [], [⟨71, "r", 5, 0⟩]⟩)] (by decide +kernel)

/-- A third node, a second room, and new orders in time. -/
def grownListing : Int → Option Document
  | 0 => some ⟨.staticNode, [⟨9, "c", 30, 0⟩, ⟨8, "b", 25, 0⟩, ⟨7, "a", 10, 0⟩], []⟩
  | 7 => some ⟨.dynamicNode, [], [⟨71, "r", 5, 1⟩, ⟨72, "s", 4, 0⟩]⟩
  | 9 => some ⟨.dynamicNode, [], [⟨91, "t", 1, 0⟩]⟩
  | _ => none

def grownTree : TitleTree :=
  .node (0, 0) [.node (7, 10) [.room (72, 4), .room (71, 5)], .node (8, 25) [],
    .node (9, 30) [.room (91, 1)]]

theorem grown_ready : Ready grownListing grown.t grownTree (some 0) := by
  have hi : ∀ n ≤ 2, Indexed grown.t n := fun n hn => .of_perm (by revert n; decide +kernel)
    (by revert n; decide +kernel) (by revert n; decide +kernel)
  have hnode : ∀ e ∈ [(0, 0), (1, 7), (2, 8)], e.1 ≤ 2 ∧ (grown.t.nodes e.1).nodeType = .titleNode ∧
      (grown.t.nodes e.1).id = e.2 ∧ (grown.t.nodes e.1).alive = true := by decide +kernel
  have hready : ∀ e ∈ [(0, 0), (1, 7),
      (2, 8)], ∀ n ∈ some e.1, (grown.t.nodes n).nodeType = .titleNode ∧
      (grown.t.nodes n).id = e.2 ∧ (grown.t.nodes n).alive = true ∧ Indexed grown.t n :=
        fun e he n hn => by
    cases hn
    obtain ⟨hle, hty, hid, ha⟩ := hnode e he
    exact ⟨hty, hid, ha, hi e.1 hle⟩
  have hnew : ∀ {p : Int × Nat}, Ready grownListing grown.t (.room p) none :=
    .room (fun _ h => nomatch h)
  have ha : Ready grownListing grown.t (.node (7, 10) [.room (72, 4), .room (71, 5)]) (some 1) := by
    refine .node (hready (1, 7) (by decide)) (by decide +kernel) (by decide +kernel)
      (by decide +kernel) ?_
    refine List.forall_mem_cons.mpr ⟨hnew,
      List.forall_mem_cons.mpr ⟨.room (by decide +kernel), (fun _ h => nomatch h)⟩⟩
  have hb : Ready grownListing grown.t (.node (8, 25) []) (some 2) :=
    .node (hready (2, 8) (by decide)) (by decide +kernel) (by decide +kernel) (by decide +kernel)
    (fun _ h => nomatch h)
  have hc : Ready grownListing grown.t (.node (9, 30) [.room (91, 1)]) none :=
    .node (fun _ h => nomatch h) (by decide +kernel) (by decide +kernel) (by decide +kernel)
      (List.forall_mem_cons.mpr ⟨hnew, (fun _ h => nomatch h)⟩)
  refine .node (hready (0, 0) (by decide)) (by decide +kernel) (by decide +kernel)
    (by decide +kernel) ?_
  exact List.forall_mem_cons.mpr ⟨ha,
    List.forall_mem_cons.mpr ⟨hb, List.forall_mem_cons.mpr ⟨hc, (fun _ h => nomatch h)⟩⟩⟩

/-- The walk of `grown`: the rooms of the first node, then the one of the third. -/
def grownWalk : List WalkOp :=
  [.onTraverse 9, .idle (fun _ => none) .launched [4] 1 [], .onTraverse 9, .onTraverse 9]

def grownBegun : Walk := ⟨(grown.start grownListing 9 0 8).get (by decide +kernel), 0⟩

def grownEnd : Walk := (exec (Walk.step grownListing) grownBegun grownWalk).get (by decide +kernel)

theorem walk_depthFirst_grown :
    (walkSys grownListing).Run grownBegun (moves (Walk.step grownListing) grownBegun grownWalk)
    grownEnd ∧
    ¬ grownEnd.Owes ∧ grownEnd.watch.calls = [.watched 5, .watched 3, .watched 6, .nextPage] ∧
    DepthFirst grownEnd.watch.t 0 [5, 3, 6] := by
  have hs : grown.start grownListing 9 0 8 = some grownBegun.watch :=
    (Option.some_get (x := grown.start grownListing 9 0 8) (by decide +kernel)).symm
  have hrun : (walkSys grownListing).Run grownBegun _ grownEnd :=
    run_of_exec grownWalk (by decide +kernel)
  have howes : ¬ grownEnd.Owes := by decide +kernel
  have hcalls : grownEnd.watch.calls = [.watched 5, .watched 3, .watched 6, .nextPage] := by
    decide +kernel
  obtain ⟨rs, hrs, -, hd, -⟩ :=
    ((walk_depthFirst (Watch.tree_of _ _) (by decide +kernel) grown_ready rfl).2 hs hrun).2.2 howes
  have he : rs = [5, 3, 6] := by
    have hrooms := congrArg (List.filterMap Call.room?) (hrs.symm.trans hcalls)
    rw [List.filterMap_append, Walk.filterMap_watched] at hrooms
    exact (List.append_nil rs).symm.trans hrooms
  exact ⟨hrun, howes, hcalls, he ▸ hd⟩

/-- A node with rooms only lists its children. -/
theorem DepthFirst.of_rooms {t : Titles} {n : NodeRef} {rs : List NodeRef}
    (hn : (t.nodes n).nodeType = .titleNode)
    (hc : ∀ c ∈ t.children n, (t.nodes c).nodeType = .titleRoom) (hd : DepthFirst t n rs) :
    OrderSet.Ordered t.orderOf rs := by
  cases hd with
  | room hty => exact absurd (hty.symm.trans hn) (by decide)
  | @node _ cs rooms _ hperm hord hch =>
    have hrooms : ∀ c ∈ cs, rooms c = [c] := fun c hm => by
      have hty := hc c (hperm.mem_iff.mp hm)
      generalize hr : rooms c = l
      cases hr ▸ hch c hm with
      | room _ => rfl
      | node _ hty' _ _ _ => exact absurd (hty'.symm.trans hty) (by decide)
    rw [List.flatMap_congr hrooms, List.flatMap_singleton']
    exact hord

/-- Two rooms in order. -/
def reordering : Watch :=
  .of [.parseXML 0 (some ⟨.dynamicNode, [], [⟨7, "a", 10, 0⟩, ⟨8, "b", 20, 0⟩]⟩)]
  (by decide +kernel)

/-- The first one's order is past the second's now. -/
def reorderedListing : Int → Option Document
  | 0 => some ⟨.dynamicNode, [], [⟨7, "a", 30, 0⟩, ⟨8, "b", 20, 0⟩]⟩
  | _ => none

def reorderingBegun : Walk := ⟨(reordering.start reorderedListing 9 0 8).get (by decide +kernel), 0⟩

def reorderingEnd : Walk :=
  (exec (Walk.step reorderedListing) reorderingBegun [.onTraverse 9, .onTraverse 9]).get
  (by decide +kernel)

/-- The rooms are watched where they stood before, not by ascending order. -/
theorem depthFirst_broken : Tree reordering.t ∧
    reordering.start reorderedListing 9 0 8 = some reorderingBegun.watch ∧
    (∃ ms, (walkSys reorderedListing).Run reorderingBegun ms reorderingEnd) ∧ ¬ reorderingEnd.Owes ∧
    reorderingEnd.watch.calls = [.watched 1, .watched 2, .nextPage] ∧
    reorderingEnd.watch.t.orderOf 2 < reorderingEnd.watch.t.orderOf 1 ∧
    ¬ DepthFirst reorderingEnd.watch.t 0 [1, 2] := by
  have hord : reorderingEnd.watch.t.orderOf 2 < reorderingEnd.watch.t.orderOf 1 := by decide +kernel
  refine ⟨Watch.tree_of _ _,
    (Option.some_get (x := reordering.start reorderedListing 9 0 8) (by decide +kernel)).symm,
    ⟨_, run_of_exec (f := Walk.step reorderedListing) [.onTraverse 9, .onTraverse 9]
      (by decide +kernel)⟩,
    by decide +kernel, by decide +kernel, hord, fun hd => ?_⟩
  have hle := List.rel_of_pairwise_cons (hd.of_rooms (by decide +kernel) (by decide +kernel))
    (List.mem_singleton_self 2)
  exact absurd hord (Nat.not_lt.mpr hle)

end MonitorAgent.L4
