import MonitorAgent.Core.LTS
import MonitorAgent.L4Titles.Removal

/-!
# The two indexes of the children

`nodes_` and `nodes_order_` should hold the same children. `AddNodeOrRoom`
inserts into both, but the order set drops a child whose `order_` is taken;
`Update` changes `order_` while the child is in the set; `DelNodeOrRoom` and
`KickoutRedundantNodes` erase from `nodes_` only.

* `indexed_iff`: along a run, the indexes of every node agree and are in order
  exactly if no step does one of these things.
-/
namespace MonitorAgent.L4

open L3 LTS Titles

/-- `nodes_order_` holds the children, each once, in order. -/
structure Indexed (t : Titles) (n : NodeRef) : Prop where
  mem : ∀ r, r ∈ (t.nodes n).nodesOrder ↔ r ∈ t.children n
  nodup : (t.nodes n).nodesOrder.Nodup
  ordered : OrderSet.Ordered t.orderOf (t.nodes n).nodesOrder

/-- The operations on the children of a node. -/
inductive ChildOp
  | addNodeOrRoom (n : NodeRef) (heading : Heading) (e : Entry)
  | update (n : NodeRef) (e : Entry)
  | kickoutRedundantNodes (n : NodeRef) (ids : List Int)
  | delNodeOrRoom (n : NodeRef) (id : Int)
  | delAll (n : NodeRef)

/-- A child is added under a new id, and updated under an id it has. -/
def Titles.childStep (t : Titles) : ChildOp → Option Titles
  | .addNodeOrRoom n heading e =>
    if (t.nodes n).alive ∧ (t.nodes n).nodeType ≠ .titleRoom ∧ t.getNodeOrRoom n e.id = none then
      some (t.addChild n heading e)
    else none
  | .update n e =>
    if (t.nodes n).alive then (t.getNodeOrRoom n e.id).map fun c =>
    t.update c e.name e.order e.usercount else none
  | .kickoutRedundantNodes n ids =>
    if (t.nodes n).alive then some (t.kickoutRedundantNodes n ids) else none
  | .delNodeOrRoom n id => if (t.nodes n).alive then some (t.delNodeOrRoom n id) else none
  | .delAll n => if (t.nodes n).alive then some (t.delAll n) else none

/-- Nodes without children. -/
structure Titles.Launched (t : Titles) : Prop where
  nodes : ∀ n id, (t.nodes n).nodes.find? id = none
  nodesOrder : ∀ n, (t.nodes n).nodesOrder = []
  alive : ∀ n, (t.nodes n).alive = true → n < t.nextNode

def childSys : LTS Titles ChildOp := .ofFn Titles.Launched Titles.childStep

/-- No child has the order of a new one, an update leaves a child between its
neighbours, and nothing is taken out of `nodes_` alone. -/
def Orderly (t : Titles) : ChildOp → Prop
  | .addNodeOrRoom n _ e => ∀ r ∈ t.children n, t.orderOf r ≠ e.order
  | .update n e =>
    ∀ c ∈ t.getNodeOrRoom n e.id, OrderSet.Fits t.orderOf c e.order (t.nodes n).nodesOrder
  | .kickoutRedundantNodes n ids => ∀ x ∈ (t.nodes n).nodes.entries, x.1 ∈ ids
  | .delNodeOrRoom n id => t.getNodeOrRoom n id = none
  | .delAll _ => True

structure ChildInv (t : Titles) : Prop extends Shape t where
  alive : ∀ n id r, (t.nodes n).alive = true → (t.nodes n).nodes.find? id = some r →
    (t.nodes r).alive = true
  inUse : ∀ n, (t.nodes n).alive = true → n < t.nextNode
  index : ∀ n, (t.nodes n).alive = true → Indexed t n

theorem Titles.Launched.inv {t : Titles} (h : t.Launched) : ChildInv t := by
  have hn : ∀ n id r, (t.nodes n).nodes.find? id ≠ some r :=
    fun n id r hf => by rw [h.nodes] at hf; cases hf
  refine ⟨⟨fun n id r hf => absurd hf (hn n id r), fun n id r hf => absurd hf (hn n id r),
    fun n id r hf => absurd hf (hn n id r), fun n id r _ _ hf => absurd hf (hn n id r),
    fun r id _ => h.nodes r id,
    fun n id r hf => absurd hf (hn n id r)⟩, fun n id r _ hf => absurd hf (hn n id r),
      h.alive, fun n _ => ?_⟩
  refine ⟨fun r => iff_of_false (by rw [h.nodesOrder]; exact List.not_mem_nil) fun hm => ?_, ?_, ?_⟩
  · obtain ⟨id, hf⟩ := mem_children.mp hm
    exact hn n id r hf
  · rw [h.nodesOrder]; exact .nil
  · rw [h.nodesOrder]; exact .nil

/-! ## The indexes of one node -/

namespace Indexed

variable {t : Titles} {n : NodeRef} (h : Indexed t n)
include h

/-- The indexes of a node are kept by whatever keeps its children, the set
and the orders in it. -/
theorem congr {t' : Titles} (hn : (t'.nodes n).nodes = (t.nodes n).nodes)
    (ho : (t'.nodes n).nodesOrder = (t.nodes n).nodesOrder)
    (hk : ∀ r ∈ (t.nodes n).nodesOrder, t'.orderOf r = t.orderOf r) : Indexed t' n where
  mem r := by rw [ho, h.mem, children, children, hn]
  nodup := ho ▸ h.nodup
  ordered := by rw [ho]; exact (OrderSet.ordered_congr hk).mpr h.ordered

omit h in
/-- The set lists the children of the map. -/
theorem of_perm (hp : (t.nodes n).nodesOrder.Perm (t.children n))
    (hn : (t.nodes n).nodesOrder.Nodup)
    (ho : OrderSet.Ordered t.orderOf (t.nodes n).nodesOrder) : Indexed t n :=
      ⟨fun _ => hp.mem_iff, hn, ho⟩

/-- What is in the set is a child, and in use. -/
theorem member (hs : Shape t) {r : NodeRef} (hr : r ∈ (t.nodes n).nodesOrder) :
    ∃ id, (t.nodes n).nodes.find? id = some r ∧ r < t.nextNode := by
  obtain ⟨id, hf⟩ := mem_children.mp ((h.mem r).mp hr)
  exact ⟨id, hf, (hs.child n id r hf).2⟩

/-- The new object is in no set yet. -/
theorem key_eq (hs : Shape t) {r : NodeRef} (k : Nat) (hr : r ∈ (t.nodes n).nodesOrder) :
    Function.update t.orderOf t.nextNode k r = t.orderOf r := by
  obtain ⟨_, _, hlt⟩ := h.member hs hr
  exact Function.update_of_ne (Nat.ne_of_lt hlt) _ _

section Add

variable (hs : Shape t) (hn : n < t.nextNode) (heading : Heading) {e : Entry}
include hs hn

omit h in
theorem addChild_children (hnew : (t.nodes n).nodes.find? e.id = none) (r : NodeRef) :
    r ∈ (t.addChild n heading e).children n ↔ r = t.nextNode ∨ r ∈ t.children n := by
  have hfind := hs.addChild_find? hn heading hnew n
  rw [mem_children, mem_children]
  constructor
  · intro ⟨id, hf⟩
    rw [hfind] at hf
    split at hf
    · exact .inl (Option.some.inj hf).symm
    · exact .inr ⟨id, hf⟩
  · rintro (rfl | ⟨id, hf⟩)
    · exact ⟨e.id, by rw [hfind, if_pos ⟨rfl, rfl⟩]⟩
    · refine ⟨id, ?_⟩
      rw [hfind, if_neg]
      · exact hf
      · rintro ⟨-, rfl⟩
        rw [hnew] at hf
        cases hf

omit hs h in
theorem addChild_set : ((t.addChild n heading e).nodes n).nodesOrder =
    OrderSet.insert (Function.update t.orderOf t.nextNode e.order) t.nextNode
    (t.nodes n).nodesOrder := by
  rw [addChild_nodes t n heading e (Nat.ne_of_lt hn), if_pos rfl]

/-- A child with a new order gets into both indexes. -/
theorem addChild (hnew : (t.nodes n).nodes.find? e.id = none)
    (hc : ∀ r ∈ t.children n, t.orderOf r ≠ e.order) :
    Indexed (t.addChild n heading e) n := by
  have hperm : ((t.addChild n heading e).nodes n).nodesOrder.Perm
    (t.nextNode :: (t.nodes n).nodesOrder) := by
    rw [addChild_set hn]
    refine OrderSet.insert_perm fun r hr => ?_
    rw [h.key_eq hs e.order hr, Function.update_self]
    exact hc r ((h.mem r).mp hr)
  refine ⟨fun r => ?_, ?_, ?_⟩
  · rw [hperm.mem_iff, List.mem_cons, h.mem, addChild_children hs hn heading hnew]
  · rw [hperm.nodup_iff, List.nodup_cons]
    refine ⟨fun hr => ?_, h.nodup⟩
    obtain ⟨_, _, hlt⟩ := h.member hs hr
    exact absurd hlt (Nat.lt_irrefl _)
  · rw [addChild_set hn, Shape.addChild_orderOf hn]
    exact OrderSet.ordered_insert ((OrderSet.ordered_congr fun r hr =>
      h.key_eq hs e.order hr).mpr h.ordered)

/-- A child whose order is taken gets into `nodes_` only. -/
theorem addChild_taken (hnew : (t.nodes n).nodes.find? e.id = none)
    (hc : ¬ ∀ r ∈ t.children n, t.orderOf r ≠ e.order) : ¬ Indexed (t.addChild n heading e) n := by
  intro hi
  simp only [not_forall, not_not] at hc
  obtain ⟨r, hr, hre⟩ := hc
  have hr' := (h.mem r).mpr hr
  have hset : ((t.addChild n heading e).nodes n).nodesOrder = (t.nodes n).nodesOrder := by
    rw [addChild_set hn]
    have hord := (OrderSet.ordered_congr fun r hr => h.key_eq hs e.order hr).mpr h.ordered
    refine OrderSet.insert_of_taken hord ⟨r, hr', ?_⟩
    rw [h.key_eq hs e.order hr', Function.update_self, hre]
  have hmem := (hi.mem t.nextNode).mpr ((addChild_children hs hn heading hnew _).mpr (.inl rfl))
  rw [hset] at hmem
  obtain ⟨_, _, hlt⟩ := h.member hs hmem
  exact Nat.lt_irrefl _ hlt

end Add

section Update

variable {c : NodeRef} (name : String) (order usercount : Nat)

/-- The set stays ordered iff the child fits where it stands. -/
theorem update_ordered :
    OrderSet.Ordered (t.update c name order usercount).orderOf (t.nodes n).nodesOrder ↔
    OrderSet.Fits t.orderOf c order (t.nodes n).nodesOrder := by
  have hc : (t.update c name order usercount).orderOf c = order := by
    rw [update_orderOf, if_pos rfl]
  rw [OrderSet.ordered_rekey_iff h.nodup h.ordered (x := c)
    fun r hr => by rw [update_orderOf, if_neg hr], hc]

theorem update (hc : OrderSet.Fits t.orderOf c order (t.nodes n).nodesOrder) :
    Indexed (t.update c name order usercount) n := by
  have hnode := t.update_samePlace c name order usercount n
  refine ⟨fun r => ?_, ?_, ?_⟩
  · rw [hnode.nodesOrder, h.mem, children, children, hnode.nodes]
  · rw [hnode.nodesOrder]; exact h.nodup
  · rw [hnode.nodesOrder]; exact (h.update_ordered name order usercount).mpr hc

end Update
end Indexed

namespace ChildInv

variable {t : Titles} (h : ChildInv t)
include h

theorem addChild {n : NodeRef} (ha : (t.nodes n).alive = true) (heading : Heading) {e : Entry}
    (ht : (t.nodes n).nodeType ≠ .titleRoom) (hnew : (t.nodes n).nodes.find? e.id = none)
    (hc : ∀ r ∈ t.children n, t.orderOf r ≠ e.order) : ChildInv (t.addChild n heading e) := by
  have hn := h.inUse n ha
  have hfind := h.addChild_find? hn heading hnew
  have hself := Shape.addChild_self (t := t) hn heading (e := e)
  have htype := fun m hm => (Shape.addChild_type (t := t) hn heading (e := e) m hm).2.2.2.2
  refine ⟨h.toShape.addChild hn heading hnew ht,
    fun m id r hm hf => ?_, fun m hm => ?_, fun m hm => ?_⟩
  · rw [hfind] at hf
    split at hf
    · cases hf
      rw [hself]
      rfl
    · have hlt := h.child m id r hf
      rw [htype m (Nat.ne_of_lt (Nat.lt_trans hlt.1 hlt.2))] at hm
      rw [htype r (Nat.ne_of_lt hlt.2)]
      exact h.alive m id r hm hf
  · rw [(addChild_rest t n heading e).1]
    by_cases he : m = t.nextNode
    · exact he ▸ Nat.lt_succ_self _
    · rw [htype m he] at hm
      exact Nat.lt_succ_of_lt (h.inUse m hm)
  · by_cases he : m = t.nextNode
    · have hempty : ((t.addChild n heading e).nodes m).nodesOrder = [] := by rw [he, hself]; rfl
      have hnone : ∀ r, r ∉ (t.addChild n heading e).children m := fun r hr => by
        rw [he, children, hself] at hr
        cases hr
      exact ⟨fun r => iff_of_false (by rw [hempty]; exact List.not_mem_nil)
        (hnone r), by rw [hempty]; exact .nil,
        by rw [hempty]; exact .nil⟩
    · by_cases hmn : m = n
      · subst hmn
        exact (h.index m ha).addChild h.toShape hn heading hnew hc
      · have hsame : (t.addChild n heading e).nodes m = t.nodes m := by
          rw [addChild_nodes t n heading e (Nat.ne_of_lt hn), if_neg hmn, if_neg he]
        have hm' : (t.nodes m).alive = true := hsame ▸ hm
        refine (h.index m hm').congr (by rw [hsame]) (by rw [hsame]) fun r hr => ?_
        rw [Shape.addChild_orderOf hn, (h.index m hm').key_eq h.toShape e.order hr]

theorem update {c n : NodeRef} {id : Int} (hf : (t.nodes n).nodes.find? id = some c) (name : String)
    {order : Nat} (usercount : Nat) (hc : OrderSet.Fits t.orderOf c order (t.nodes n).nodesOrder) :
    ChildInv (t.update c name order usercount) := by
  have hnode := t.update_samePlace c name order usercount
  refine ⟨h.toShape.update c name order usercount,
    fun m id' r hm hf' => ?_, fun m hm => ?_, fun m hm => ?_⟩
  · rw [(hnode m).nodes] at hf'
    rw [(hnode m).alive] at hm
    rw [(hnode r).alive]
    exact h.alive m id' r hm hf'
  · rw [(hnode m).alive] at hm
    exact h.inUse m hm
  · rw [(hnode m).alive] at hm
    have hi := h.index m hm
    by_cases hm' : c ∈ (t.nodes m).nodesOrder
    · -- the node is a child of `m`, so `m` is `n`
      obtain ⟨id', hf', _⟩ := hi.member h.toShape hm'
      obtain rfl := h.one n id c m id' hf hf'
      exact hi.update name order usercount hc
    · refine hi.congr (hnode m).nodes (hnode m).nodesOrder fun r hr => ?_
      rw [update_orderOf, if_neg]
      rintro rfl
      exact hm' hr

/-! ## Taking out -/

/-- A node whose set holds one that is filed no more. -/
theorem not_indexed {t' : Titles} {n : NodeRef} (ha : (t.nodes n).alive = true) {id : Int}
    {c : NodeRef} (hf : (t.nodes n).nodes.find? id = some c)
    (ho : (t'.nodes n).nodesOrder = (t.nodes n).nodesOrder)
    (hsub : ∀ id' r, (t'.nodes n).nodes.find? id' = some r → (t.nodes n).nodes.find? id' = some r)
    (hout : (t'.nodes n).nodes.find? id = none) : ¬ Indexed t' n := by
  intro hi
  have hm : c ∈ (t'.nodes n).nodesOrder := by
    rw [ho, (h.index n ha).mem]
    exact mem_children.mpr ⟨id, hf⟩
  obtain ⟨id', hf'⟩ := mem_children.mp ((hi.mem c).mp hm)
  have hid : id' = id := (h.id n id' c (hsub id' c hf')).symm.trans (h.id n id c hf)
  rw [hid, hout] at hf'
  cases hf'

theorem kickout_not_indexed {n : NodeRef} (ha : (t.nodes n).alive = true) {ids : List Int}
    (hc : ¬ ∀ x ∈ (t.nodes n).nodes.entries, x.1 ∈ ids) :
    ((t.kickoutRedundantNodes n ids).nodes n).alive = true ∧
      ¬ Indexed (t.kickoutRedundantNodes n ids) n := by
  obtain ⟨hr, -, -, ho, hfind⟩ := kickout_removes h.toShape n ids
  simp only [not_forall] at hc
  obtain ⟨x, hx, hid⟩ := hc
  have hf := (StdMap.mem_entries_iff _ x.1 x.2).mp hx
  exact ⟨hr.owner.trans ha, h.not_indexed ha hf ho (hr.sub n) (by rw [hfind, if_neg hid])⟩

theorem delNodeOrRoom_not_indexed {n : NodeRef} (ha : (t.nodes n).alive = true) {id : Int}
    (hc : t.getNodeOrRoom n id ≠ none) :
    ((t.delNodeOrRoom n id).nodes n).alive = true ∧ ¬ Indexed (t.delNodeOrRoom n id) n := by
  obtain ⟨c, hf⟩ := Option.ne_none_iff_exists'.mp hc
  have hne : n ≠ c := Nat.ne_of_lt (h.child n id c hf).1
  have hn : (t.delNodeOrRoom n id).nodes n =
    { t.nodes n with nodes := (t.nodes n).nodes.erase id } := by
    rw [Titles.delNodeOrRoom, hf]
    dsimp only
    rw [delete_of_ne _ _ hne, modifyNode_nodes, if_pos rfl]
  refine ⟨by rw [hn]; exact ha, h.not_indexed ha hf (by rw [hn]) (fun id' r hf' => ?_) ?_⟩
  · rw [hn, StdMap.find?_erase] at hf'
    split at hf'
    · cases hf'
    · exact hf'
  · rw [hn, StdMap.find?_erase, if_pos rfl]

/-- Both indexes are cleared together. -/
theorem delAll (n : NodeRef) : ChildInv (t.delAll n) := by
  have hnodes : ∀ m, (t.delAll n).nodes m =
      if m = n then { (t.deleteAll (t.children n)).nodes n with nodes := .empty, nodesOrder := [] }
      else (t.deleteAll (t.children n)).nodes m :=
        fun m => by rw [Titles.delAll, clear, modifyNode_nodes]
  have hne : ∀ m, m ≠ n → (t.delAll n).nodes m =
      if m ∈ t.children n then { t.nodes m with alive := false } else t.nodes m := fun m hm => by
    rw [hnodes, if_neg hm, deleteAll_nodes]
  have halive : ∀ m, ((t.delAll n).nodes m).alive = true → (t.nodes m).alive = true ∧
    m ∉ t.children n := fun m hm => by
    have hdel : ((t.deleteAll (t.children n)).nodes m).alive = true := by
      rw [hnodes] at hm
      split at hm
      · rename_i he; rw [he]; exact hm
      · exact hm
    rw [deleteAll_nodes] at hdel
    split at hdel
    · cases hdel
    · rename_i hnot
      exact ⟨hdel, hnot⟩
  have horder : ∀ r, (t.delAll n).orderOf r = t.orderOf r := fun r => by
    rw [Titles.orderOf, hnodes]
    split
    · rename_i he
      rw [he, deleteAll_nodes]
      split <;> rfl
    · rw [deleteAll_nodes]
      split <;> rfl
  refine ⟨h.toShape.delAll n, fun m id r hm hf => ?_, fun m hm => ?_, fun m hm => ?_⟩
  · obtain ⟨ha, hnot⟩ := halive m hm
    by_cases he : m = n
    · rw [hnodes, if_pos he, StdMap.find?_empty] at hf
      cases hf
    · rw [hne m he, if_neg hnot] at hf
      by_cases hr : r = n
      · -- `n` itself is never among the nodes deleted
        rw [hr, hnodes, if_pos rfl]
        dsimp only
        rw [deleteAll_nodes, if_neg]
        · exact hr ▸ h.alive m id r ha hf
        · intro hmem
          obtain ⟨id', hf'⟩ := mem_children.mp hmem
          exact Nat.lt_irrefl _ (h.child n id' n hf').1
      · rw [hne r hr, if_neg]
        · exact h.alive m id r ha hf
        · intro hmem
          obtain ⟨id', hf'⟩ := mem_children.mp hmem
          exact he (h.one m id r n id' hf hf')
  · rw [show (t.delAll n).nextNode = t.nextNode from (deleteAll_rest (t.children n) t).1]
    exact h.inUse m (halive m hm).1
  · obtain ⟨ha, hnot⟩ := halive m hm
    by_cases he : m = n
    · have hset : ((t.delAll n).nodes m).nodesOrder = [] := by rw [hnodes, if_pos he]
      have hnone : ∀ r, r ∉ (t.delAll n).children m := fun r hr => by
        rw [children, hnodes, if_pos he] at hr
        cases hr
      exact ⟨fun r => iff_of_false (by rw [hset]; exact List.not_mem_nil)
        (hnone r), by rw [hset]; exact .nil,
        by rw [hset]; exact .nil⟩
    · have hm' : (t.delAll n).nodes m = t.nodes m := by rw [hne m he, if_neg hnot]
      exact (h.index m ha).congr (by rw [hm']) (by rw [hm']) fun r _ => horder r

end ChildInv

/-! ## Runs -/

theorem child_step_inv {t t' : Titles} {op : ChildOp} (h : ChildInv t) (hc : Orderly t op)
    (hst : t.childStep op = some t') : ChildInv t' := by
  cases op
  case addNodeOrRoom n heading e =>
    simp only [Titles.childStep] at hst
    split at hst
    · rename_i hg
      cases hst
      exact h.addChild hg.1 heading hg.2.1 hg.2.2 hc
    · cases hst
  case update n e =>
    simp only [Titles.childStep] at hst
    split at hst
    · obtain ⟨c, hf, rfl⟩ := Option.map_eq_some_iff.mp hst
      exact h.update hf e.name e.usercount (hc c hf)
    · cases hst
  case kickoutRedundantNodes n ids =>
    simp only [Titles.childStep] at hst
    split at hst
    · cases hst
      rw [kickout_all fun id c hf => hc (id, c) ((StdMap.mem_entries_iff _ id c).mpr hf)]
      exact h
    · cases hst
  case delNodeOrRoom n id =>
    simp only [Titles.childStep] at hst
    split at hst
    · cases hst
      rw [Titles.delNodeOrRoom, show t.getNodeOrRoom n id = none from hc]
      exact h
    · cases hst
  case delAll n =>
    simp only [Titles.childStep] at hst
    split at hst
    · cases hst
      exact h.delAll n
    · cases hst

theorem child_step_sharp {t t' : Titles} {op : ChildOp} (h : ChildInv t) (hc : ¬ Orderly t op)
    (hst : t.childStep op = some t') : ∃ n, (t'.nodes n).alive = true ∧ ¬ Indexed t' n := by
  cases op
  case addNodeOrRoom n heading e =>
    simp only [Titles.childStep] at hst
    split at hst
    · rename_i hg
      cases hst
      refine ⟨n, ?_, (h.index n hg.1).addChild_taken h.toShape (h.inUse n hg.1) heading hg.2.2 hc⟩
      rw [addChild_nodes t n heading e (Nat.ne_of_lt (h.inUse n hg.1)), if_pos rfl]
      exact hg.1
    · cases hst
  case update n e =>
    simp only [Titles.childStep] at hst
    split at hst
    · rename_i ha
      obtain ⟨c, hf, rfl⟩ := Option.map_eq_some_iff.mp hst
      have hnode := t.update_samePlace c e.name e.order e.usercount n
      refine ⟨n, hnode.alive.trans ha, fun hi => hc fun c' hf' => ?_⟩
      cases hf.symm.trans hf'
      rw [← (h.index n ha).update_ordered e.name e.order e.usercount, ← hnode.nodesOrder]
      exact hi.ordered
    · cases hst
  case kickoutRedundantNodes n ids =>
    simp only [Titles.childStep] at hst
    split at hst
    · cases hst
      exact ⟨n, h.kickout_not_indexed ‹_› hc⟩
    · cases hst
  case delNodeOrRoom n id =>
    simp only [Titles.childStep] at hst
    split at hst
    · cases hst
      exact ⟨n, h.delNodeOrRoom_not_indexed ‹_› hc⟩
    · cases hst
  case delAll n => exact absurd trivial hc

theorem child_guarded :
    childSys.Guarded Orderly ChildInv fun t => ∀ n, (t.nodes n).alive = true → Indexed t n where
  init _ h0 := h0.inv
  step _ _ _ h hc hst := child_step_inv h hc hst
  safe _ h := h.index
  sharp t op t' h hc hst hp := by
    obtain ⟨n, ha, hn⟩ := child_step_sharp h hc hst
    exact hn (hp n ha)

/-- **The child indexes.** Along a run, `nodes_order_` of every node holds the
values of `nodes_`, each once and in order, iff every step is orderly. -/
theorem indexed_iff {t₀ t : Titles} {ms : List (Move Titles ChildOp)} (h0 : t₀.Launched)
    (hr : childSys.Run t₀ ms t) :
    (∀ x ∈ visited t₀ ms, ∀ n, (x.nodes n).alive = true → Indexed x n) ↔ ∀ m ∈ ms,
      Orderly m.src m.lbl :=
  child_guarded.safe_along_iff h0 hr

/-! ## Runs under one node -/

instance (t : Titles) (op : ChildOp) : Decidable (Orderly t op) := by
  unfold Orderly
  split <;> infer_instance

/-- One node without children, as `Title::AddNode` makes it. -/
def Titles.launched : Titles where
  nodes n := ⟨.titleNode, n, "", 0, 0, .empty, [], none, n == 0⟩
  nextNode := 1
  memory _ := none
  w := .launched

theorem Titles.launched_launched : Titles.launched.Launched where
  nodes _ _ := rfl
  nodesOrder _ := rfl
  alive n ha := by
    rw [beq_iff_eq.mp ha]
    exact Nat.zero_lt_one

/-- Three children, one below another; the middle one comes to share the
order of the last. -/
def sharedOrder : List ChildOp :=
  [.addNodeOrRoom 0 .staticNode ⟨7, "a", 10, 0⟩, .addNodeOrRoom 0 .staticNode ⟨5, "b", 30, 0⟩,
    .addNodeOrRoom 1 .dynamicNode ⟨7, "c", 10, 2⟩, .addNodeOrRoom 0 .staticNode ⟨6, "d", 20, 0⟩,
    .update 0 ⟨6, "d", 30, 4⟩, .kickoutRedundantNodes 0 [5, 6, 7, 8], .delNodeOrRoom 0 9, .delAll 1]

theorem indexed_iff_sharedOrder :
    (∀ m ∈ moves Titles.childStep Titles.launched sharedOrder, Orderly m.src m.lbl) ∧
      ∀ x ∈ visited Titles.launched (moves Titles.childStep Titles.launched sharedOrder),
        ∀ n, (x.nodes n).alive = true → Indexed x n := by
  have hp : ∀ m ∈ moves Titles.childStep Titles.launched sharedOrder, Orderly m.src m.lbl := by
    decide +kernel
  exact ⟨hp,
    (indexed_iff Titles.launched_launched (run_of_exec sharedOrder (by decide +kernel))).mpr hp⟩

/-- A listing that has one of two children. -/
def kickedOut : List ChildOp :=
  [.addNodeOrRoom 0 .staticNode ⟨7, "a", 10, 0⟩, .addNodeOrRoom 0 .staticNode ⟨8, "b", 20, 0⟩,
    .kickoutRedundantNodes 0 [7]]

/-- The child kicked out is deleted and still in the order set. -/
theorem deleted_in_order :
    ∃ t, childSys.Reachable t ∧ (t.nodes 0).alive = true ∧ 2 ∈ (t.nodes 0).nodesOrder ∧
    (t.nodes 2).alive = false ∧
      ¬ Indexed t 0 := by
  obtain ⟨t, hr, hp⟩ := exists_reachable_of_exec Titles.Launched Titles.childStep kickedOut
    (fun t => (t.nodes 0).alive && (t.nodes 0).nodesOrder == [1, 2] && !(t.nodes 2).alive &&
      t.children 0 == [1])
    Titles.launched_launched (by decide +kernel)
  simp only [Bool.and_eq_true, beq_iff_eq, Bool.not_eq_true'] at hp
  obtain ⟨⟨⟨ha, ho⟩, hd⟩, hc⟩ := hp
  have hm : 2 ∈ (t.nodes 0).nodesOrder := by
    rw [ho]; exact List.mem_cons_of_mem _ List.mem_cons_self
  refine ⟨t, hr, ha, hm, hd, fun hi => ?_⟩
  have hmem := (hi.mem 2).mp hm
  rw [hc] at hmem
  exact absurd hmem (by decide)

end MonitorAgent.L4
