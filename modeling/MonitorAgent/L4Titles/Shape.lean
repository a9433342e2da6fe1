import MonitorAgent.L4Titles.TitleNode

/-!
# The shape of the title tree

A node files its children under their ids, and is filed by one node only.
Objects are created in the order of their references, so a child comes after
its parent. Reading a listing keeps this: `AddNodeOrRoom` files a new object,
`Update` leaves the tree alone.
-/
namespace MonitorAgent.L4

open L3 Titles

/-- Children come after their parent, each is a child of one node only, and
rooms have none. -/
structure Shape (t : Titles) : Prop where
  child : ∀ n id r, (t.nodes n).nodes.find? id = some r → n < r ∧ r < t.nextNode
  type : ∀ n id r, (t.nodes n).nodes.find? id = some r →
    (t.nodes r).nodeType = .titleNode ∨ (t.nodes r).nodeType = .titleRoom
  id : ∀ n id r, (t.nodes n).nodes.find? id = some r → (t.nodes r).id = id
  one : ∀ n id r n' id', (t.nodes n).nodes.find? id = some r →
    (t.nodes n').nodes.find? id' = some r → n = n'
  leaf : ∀ r id, (t.nodes r).nodeType = .titleRoom → (t.nodes r).nodes.find? id = none
  parent : ∀ n id r, (t.nodes n).nodes.find? id = some r →
    (t.nodes r).parentItem = if (t.nodes n).nodeType = .title then none else some n

namespace Shape

variable {t : Titles} (h : Shape t)
include h

/-- Nodes that keep their place, and lose children at most. -/
theorem sub {t' : Titles} (hnext : t'.nextNode = t.nextNode)
    (hsame : ∀ m, (t'.nodes m).nodeType = (t.nodes m).nodeType ∧ (t'.nodes m).id = (t.nodes m).id ∧
      (t'.nodes m).parentItem = (t.nodes m).parentItem)
    (hsub : ∀ m id r, (t'.nodes m).nodes.find? id = some r → (t.nodes m).nodes.find? id = some r) :
    Shape t' where
  child n id r hf := hnext ▸ h.child n id r (hsub n id r hf)
  type n id r hf := (hsame r).1 ▸ h.type n id r (hsub n id r hf)
  id n id r hf := (hsame r).2.1.trans (h.id n id r (hsub n id r hf))
  one n id r n' id' hf hf' := h.one n id r n' id' (hsub n id r hf) (hsub n' id' r hf')
  leaf r id ht := by
    cases hf : (t'.nodes r).nodes.find? id with
    | none => rfl
    | some c =>
      have hn := h.leaf r id ((hsame r).1 ▸ ht)
      rw [hsub r id c hf] at hn
      cases hn
  parent n id r hf := by
    rw [(hsame r).2.2, (hsame n).1]
    exact h.parent n id r (hsub n id r hf)

/-- A new object is nobody's child. -/
theorem fresh (n : NodeRef) (id : Int) : (t.nodes n).nodes.find? id ≠ some t.nextNode := fun hf =>
  absurd (h.child n id _ hf).2 (Nat.lt_irrefl _)

/-- Memory not in use has no children. -/
theorem unused (id : Int) : (t.nodes t.nextNode).nodes.find? id = none := by
  cases hf : (t.nodes t.nextNode).nodes.find? id with
  | none => rfl
  | some r =>
      exact absurd (Nat.lt_trans (h.child _ id r hf).1 (h.child _ id r hf).2) (Nat.lt_irrefl _)

theorem nodup_children (n : NodeRef) : (t.children n).Nodup := by
  refine List.pairwise_map.mpr ((t.nodes n).nodes.sorted.imp_of_mem fun {a b} ha hb hab he => ?_)
  have ha' := h.id n a.1 a.2 ((StdMap.mem_entries_iff _ _ _).mp ha)
  have hb' := h.id n b.1 b.2 ((StdMap.mem_entries_iff _ _ _).mp hb)
  rw [he, hb'] at ha'
  exact absurd ha'.symm (ne_of_lt hab)

theorem modify (n : NodeRef) (f : Node → Node)
    (hf : ∀ x, (f x).nodeType = x.nodeType ∧ (f x).id = x.id ∧ (f x).parentItem = x.parentItem ∧
      ∀ id r, (f x).nodes.find? id = some r →
      x.nodes.find? id = some r) : Shape (t.modifyNode n f) := by
  have key : ∀ m, ((t.modifyNode n f).nodes m) = t.nodes m ∨
    ((t.modifyNode n f).nodes m) = f (t.nodes m) := fun m => by
    rw [modifyNode_nodes]
    split
    · rename_i he; rw [he]; exact .inr rfl
    · exact .inl rfl
  refine h.sub rfl (fun m => ?_) fun m id r hfind => ?_
  · rcases key m with he | he
    · rw [he]; exact ⟨rfl, rfl, rfl⟩
    · rw [he]; exact ⟨(hf _).1, (hf _).2.1, (hf _).2.2.1⟩
  · rcases key m with he | he
    · rwa [he] at hfind
    · rw [he] at hfind; exact (hf _).2.2.2 id r hfind

theorem update (n : NodeRef) (name : String) (order usercount : Nat) :
    Shape (t.update n name order usercount) :=
  h.modify n _ fun _ => ⟨rfl, rfl, rfl, fun _ _ hf => hf⟩

theorem deleteAll (ns : List NodeRef) : Shape (t.deleteAll ns) := by
  refine h.sub (deleteAll_rest ns t).1 (fun m => ?_) fun m id r hf => ?_
  · rw [deleteAll_nodes]; split <;> exact ⟨rfl, rfl, rfl⟩
  · rw [deleteAll_nodes] at hf; split at hf <;> exact hf

theorem delAll (n : NodeRef) : Shape (t.delAll n) :=
  (h.deleteAll _).modify n (fun x => { x with nodes := .empty, nodesOrder := [] }) fun _ =>
    ⟨rfl, rfl, rfl, fun id r hf => by rw [StdMap.find?_empty] at hf; cases hf⟩

section AddChild

variable {n : NodeRef} (hn : n < t.nextNode) (heading : Heading) {e : Entry}
  (hnew : (t.nodes n).nodes.find? e.id = none)
include hn hnew

/-- Who has which children, once a child is added. -/
theorem addChild_find? (m : NodeRef) (id : Int) :
    ((t.addChild n heading e).nodes m).nodes.find? id =
      if m = n ∧ id = e.id then some t.nextNode else (t.nodes m).nodes.find? id := by
  rw [addChild_nodes t n heading e (Nat.ne_of_lt hn)]
  by_cases hm : m = n
  · rw [if_pos hm, hm]
    dsimp only
    rw [StdMap.find?_insert, hnew]
    simp
  · have hm' : ¬ (m = n ∧ id = e.id) := fun hc => hm hc.1
    rw [if_neg hm, if_neg hm']
    split
    · rename_i he
      rw [he, h.unused]
      rfl
    · rfl

/-- A child is the new one, or one there was. -/
theorem addChild_child (m : NodeRef) (id : Int) (r : NodeRef) :
    ((t.addChild n heading e).nodes m).nodes.find? id = some r ↔
      (m = n ∧ id = e.id ∧ r = t.nextNode) ∨ (t.nodes m).nodes.find? id = some r := by
  rw [h.addChild_find? hn heading hnew]
  split
  · rename_i hc
    obtain ⟨rfl, rfl⟩ := hc
    rw [hnew, or_iff_left (fun e => by cases e), Option.some.injEq, eq_comm]
    exact ⟨fun hr => ⟨rfl, rfl, hr⟩, fun hr => hr.2.2⟩
  · rename_i hc
    exact (or_iff_right fun hr => hc ⟨hr.1, hr.2.1⟩).symm

omit hnew h in
theorem addChild_type (m : NodeRef) (hm : m ≠ t.nextNode) :
    ((t.addChild n heading e).nodes m).nodeType = (t.nodes m).nodeType ∧
      ((t.addChild n heading e).nodes m).id = (t.nodes m).id ∧
      ((t.addChild n heading e).nodes m).parentItem = (t.nodes m).parentItem ∧
      ((t.addChild n heading e).nodes m).order = (t.nodes m).order ∧
      ((t.addChild n heading e).nodes m).alive = (t.nodes m).alive := by
  rw [addChild_nodes t n heading e (Nat.ne_of_lt hn), if_neg hm]
  split
  · rename_i he; rw [he]; exact ⟨rfl, rfl, rfl, rfl, rfl⟩
  · exact ⟨rfl, rfl, rfl, rfl, rfl⟩

omit hnew h in
theorem addChild_self : (t.addChild n heading e).nodes t.nextNode =
    heading.child e (if (t.nodes n).nodeType = .title then none else some n) := by
  rw [addChild_nodes t n heading e (Nat.ne_of_lt hn), if_neg (Nat.ne_of_gt hn), if_pos rfl]

omit hnew h in
theorem addChild_orderOf :
    (t.addChild n heading e).orderOf = Function.update t.orderOf t.nextNode e.order := by
  funext r
  rw [Function.update_apply]
  split
  · rename_i hr
    rw [hr, Titles.orderOf, addChild_self hn]
    rfl
  · rename_i hr
    exact (addChild_type hn heading r hr).2.2.2.1

theorem addChild (ht : (t.nodes n).nodeType ≠ .titleRoom) : Shape (t.addChild n heading e) := by
  have hchild := h.addChild_child hn heading hnew
  have htype := fun m hm => addChild_type hn heading (e := e) m hm
  have hself := addChild_self hn heading (e := e)
  have hlt : ∀ m id r, (t.nodes m).nodes.find? id = some r → r ≠ t.nextNode := fun m id r hf he =>
    h.fresh m id (he ▸ hf)
  refine ⟨fun m id r hf => ?_, fun m id r hf => ?_, fun m id r hf =>
    ?_, fun m id r m' id' hf hf' => ?_,
    fun r id hr => ?_, fun m id r hf => ?_⟩
  · rw [(addChild_rest t n heading e).1]
    rcases (hchild m id r).mp hf with ⟨rfl, -, rfl⟩ | hf
    · exact ⟨hn, Nat.lt_succ_self _⟩
    · exact ⟨(h.child m id r hf).1, Nat.lt_succ_of_lt (h.child m id r hf).2⟩
  · rcases (hchild m id r).mp hf with ⟨-, -, rfl⟩ | hf
    · rw [hself]
      cases heading <;> simp [Heading.child]
    · rw [(htype r (hlt m id r hf)).1]
      exact h.type m id r hf
  · rcases (hchild m id r).mp hf with ⟨-, rfl, rfl⟩ | hf
    · rw [hself]
      rfl
    · rw [(htype r (hlt m id r hf)).2.1]
      exact h.id m id r hf
  · rcases (hchild m id r).mp hf with ⟨hm, -, hr⟩ | hf
    · rcases (hchild m' id' r).mp hf' with ⟨hm', -, -⟩ | hf'
      · exact hm.trans hm'.symm
      · exact absurd hr (hlt m' id' r hf')
    · rcases (hchild m' id' r).mp hf' with ⟨-, -, hr⟩ | hf'
      · exact absurd hr (hlt m id r hf)
      · exact h.one m id r m' id' hf hf'
  · refine Option.eq_none_iff_forall_ne_some.mpr fun c hc => ?_
    rcases (hchild r id c).mp hc with ⟨rfl, -, -⟩ | hf
    · rw [(htype r (Nat.ne_of_lt hn)).1] at hr
      exact ht hr
    · have hne := Nat.ne_of_lt (Nat.lt_trans (h.child r id c hf).1 (h.child r id c hf).2)
      rw [(htype r hne).1] at hr
      rw [h.leaf r id hr] at hf
      cases hf
  · rcases (hchild m id r).mp hf with ⟨rfl, -, rfl⟩ | hf
    · rw [hself, (htype m (Nat.ne_of_lt hn)).1]
      rfl
    · have hne := Nat.ne_of_lt (Nat.lt_trans (h.child m id r hf).1 (h.child m id r hf).2)
      rw [(htype r (hlt m id r hf)).2.2.1, (htype m hne).1]
      exact h.parent m id r hf

end AddChild
end Shape
end MonitorAgent.L4
