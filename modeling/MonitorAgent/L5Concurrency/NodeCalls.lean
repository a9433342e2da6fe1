import MonitorAgent.L4Titles.TreeItems

/-!
# `OnItemExpanded` of a node, call by call

`TitleNode::OnItemExpanded` (Monitor/Monitor/TitleNode.cpp:54-69) runs on the
UI thread when the item of a node is opened, and on the thread that goes on
with a watch (`OnWatched`). There each call of the tree control is a message
to the UI thread, which is free in between, and while the server is asked.

* `addChild_eq`: the calls of `AddNodeOrRoom`, one after the other.
* `Expansion.Branch`: which items a node has, by where the thread is.
-/
namespace MonitorAgent.L5.RoomCalls

open MonitorAgent.L3 MonitorAgent.L4 Titles

/-- Where the thread is that expands a node: in the loop of `DelAll`, waiting
for the server, before the next element of its answer, before the item of a
new child, before the empty item below that. The child is `filed` then, and
`placed` once it has its own item. -/
inductive Expansion
  | idle
  | filed
  | placed
  | clearing
  | requesting
  | listing (d : Document) (es : List Entry)
  | inserting (d : Document) (child : NodeRef) (es : List Entry)
  | inserted (d : Document) (child : NodeRef) (es : List Entry)
deriving DecidableEq

/-! ## `AddNodeOrRoom` -/

/-- The new object, in `nodes_`.
mirrors Monitor/Monitor/TitleNode.cpp:107 and 135, Monitor/Monitor/Node.cpp:98 -/
def fileChild (t : Titles) (n : NodeRef) (heading : Heading) (e : Entry) : Titles :=
  let t' := match heading with
    | .dynamicNode => t.newTitleRoom e.id e.name e.order e.usercount
    | _ => t.newTitleNode e.id e.name e.order e.usercount
  let t' := t'.modifyNode n fun x => { x with nodes := x.nodes.insert e.id t.nextNode }
  t'.modifyNode t.nextNode fun x =>
    { x with parentItem := if (t'.nodes n).nodeType = .title then none else some n }

/-- The empty item below the new one, and the child in `nodes_order_`.
mirrors Monitor/Monitor/Node.cpp:109-116 -/
def orderChild (t : Titles) (n child : NodeRef) : Titles :=
  (t.addPlaceholder child).modifyNode n fun x =>
    { x with nodesOrder := OrderSet.insert t.orderOf child x.nodesOrder }

def fileItem (s : TreeItems) (n : NodeRef) (heading : Heading) (e : Entry) : TreeItems where
  t := fileChild s.t n heading e
  items := Function.update s.items s.t.nextNode []

/-- mirrors Monitor/Monitor/Node.cpp:100-107 -/
def placeItem (s : TreeItems) (n child : NodeRef) : TreeItems :=
  { s with items := Function.update s.items n (s.items n ++ [some child]) }

def orderItem (s : TreeItems) (n child : NodeRef) : TreeItems :=
  { s.addNull child with t := orderChild s.t n child }

theorem addChild_eq_orderChild (t : Titles) (n : NodeRef) (heading : Heading) (e : Entry) :
    t.addChild n heading e = orderChild (fileChild t n heading e) n t.nextNode := by
  cases heading <;> rfl

/-- The three calls make the child. -/
theorem addChild_eq (s : TreeItems) {n : NodeRef} (hn : n ≠ s.t.nextNode) (heading : Heading)
    (e : Entry) : s.addChild n heading e =
      orderItem (placeItem (fileItem s n heading e) n s.t.nextNode) n s.t.nextNode := by
  have hitems : (s.addChild n heading e).items =
      (orderItem (placeItem (fileItem s n heading e) n s.t.nextNode) n s.t.nextNode).items := by
    funext m
    simp only [TreeItems.addChild, orderItem, TreeItems.addNull, placeItem, fileItem,
      Function.update_apply]
    by_cases hm : m = s.t.nextNode
    · simp [hm, hn.symm]
    · simp [hm, hn]
  have ht := addChild_eq_orderChild s.t n heading e
  unfold TreeItems.addChild at hitems ⊢
  rw [ht] at hitems ⊢
  exact congrArg (TreeItems.mk _) hitems

section OrderChild

variable (t : Titles) (n child : NodeRef)

theorem orderChild_nodes (m : NodeRef) : (orderChild t n child).nodes m =
    if m = n then { t.nodes n with
      nodesOrder := OrderSet.insert t.orderOf child (t.nodes n).nodesOrder }
    else t.nodes m :=
  modifyNode_nodes (t.addPlaceholder child) n _ m

theorem orderChild_w : (orderChild t n child).w =
    if (t.nodes child).nodeType = .titleRoom then t.w.addNull child else t.w := rfl

/-- Only the order set changes. -/
theorem orderChild_same (m : NodeRef) :
    ((orderChild t n child).nodes m).nodeType = (t.nodes m).nodeType ∧
      ((orderChild t n child).nodes m).id = (t.nodes m).id ∧
      ((orderChild t n child).nodes m).parentItem = (t.nodes m).parentItem ∧
      ((orderChild t n child).nodes m).nodes = (t.nodes m).nodes ∧
      ((orderChild t n child).nodes m).alive = (t.nodes m).alive := by
  rw [orderChild_nodes]
  split
  · rename_i hm
    rw [hm]
    exact ⟨rfl, rfl, rfl, rfl, rfl⟩
  · exact ⟨rfl, rfl, rfl, rfl, rfl⟩

end OrderChild

section FileChild

variable (t : Titles) (n : NodeRef) (heading : Heading) (e : Entry)

theorem fileChild_rest : (fileChild t n heading e).nextNode = t.nextNode + 1 ∧
    (fileChild t n heading e).memory = t.memory := by
  cases heading <;> exact ⟨rfl, rfl⟩

theorem fileChild_w : (fileChild t n heading e).w =
    if heading = .dynamicNode then
      t.w.modifyRoom t.nextNode fun _ => ⟨e.id, t.memory t.nextNode, .empty, []⟩
    else t.w := by
  cases heading <;> rfl

variable (hn : n < t.nextNode)
include hn

theorem fileChild_nodes (m : NodeRef) : ((fileChild t n heading e).nodes m).nodes =
    if m = n then (t.nodes n).nodes.insert e.id t.nextNode
    else if m = t.nextNode then .empty
    else (t.nodes m).nodes := by
  have hadd := congrArg Node.nodes (addChild_nodes t n heading e (Nat.ne_of_lt hn) m)
  rw [addChild_eq_orderChild, (orderChild_same _ n t.nextNode m).2.2.2.1] at hadd
  rw [hadd]
  split
  · rfl
  · split <;> rfl

theorem fileChild_type {m : NodeRef} (hm : m ≠ t.nextNode) :
    ((fileChild t n heading e).nodes m).nodeType = (t.nodes m).nodeType ∧
      ((fileChild t n heading e).nodes m).alive = (t.nodes m).alive := by
  have hadd := Shape.addChild_type (t := t) hn heading (e := e) m hm
  have hsame := orderChild_same (fileChild t n heading e) n t.nextNode m
  rw [addChild_eq_orderChild] at hadd
  exact ⟨hsame.1.symm.trans hadd.1, hsame.2.2.2.2.symm.trans hadd.2.2.2.2⟩

theorem fileChild_self :
    ((fileChild t n heading e).nodes t.nextNode).nodeType =
        (if heading = .dynamicNode then .titleRoom else .titleNode) ∧
      ((fileChild t n heading e).nodes t.nextNode).alive = true := by
  have hadd := Shape.addChild_self (t := t) hn heading (e := e)
  have hsame := orderChild_same (fileChild t n heading e) n t.nextNode t.nextNode
  rw [addChild_eq_orderChild] at hadd
  exact ⟨hsame.1.symm.trans (congrArg Node.nodeType hadd),
    hsame.2.2.2.2.symm.trans (congrArg Node.alive hadd)⟩

end FileChild

section Tree

variable {t : Titles} (h : Tree t) {n : NodeRef}
include h

theorem tree_orderChild (child : NodeRef) : Tree (orderChild t n child) := by
  have hsame := orderChild_same t n child
  exact h.congr rfl (fun m => ⟨(hsame m).1, (hsame m).2.1, (hsame m).2.2.1⟩)
    (fun m => (hsame m).2.2.2.1) fun m => (hsame m).2.2.2.2

theorem tree_fileChild (hn : (t.nodes n).alive = true) (heading : Heading) {e : Entry}
    (hty : (t.nodes n).nodeType ≠ .titleRoom) (hnew : (t.nodes n).nodes.find? e.id = none) :
    Tree (fileChild t n heading e) := by
  have hadd := h.addChild hn heading hty hnew
  rw [addChild_eq_orderChild] at hadd
  have hsame := orderChild_same (fileChild t n heading e) n t.nextNode
  refine hadd.congr rfl (fun m => ?_) (fun m => (hsame m).2.2.2.1.symm) fun m => ?_
  · exact ⟨(hsame m).1.symm, (hsame m).2.1.symm, (hsame m).2.2.1.symm⟩
  · exact (hsame m).2.2.2.2.symm

end Tree

/-! ## The items of one node -/

namespace Expansion

/-- The child whose items are being inserted. -/
def child? : Expansion → Option NodeRef
  | inserting _ child _ | inserted _ child _ => some child
  | _ => none

/-- The item of the node has none below it. -/
def Bare (nodes : StdMap Int NodeRef) (items : List (Option NodeRef)) : Expansion → Prop
  | idle | inserted _ _ _ => False
  | filed | placed => True
  | clearing => items = []
  | requesting | listing _ _ => nodes.isEmpty = true
  | inserting _ child _ => ∀ id r, nodes.find? id = some r → r = child

/-- What a thread at the node leaves behind it. -/
def Branch (nodes : StdMap Int NodeRef) (items : List (Option NodeRef)) (e : Expansion) : Prop :=
  (items = [] ↔ e.Bare nodes items) ∧
    match e with
    | filed | placed | clearing => nodes.isEmpty = true
    | inserting _ child _ | inserted _ child _ => ∃ id, nodes.find? id = some child
    | idle | requesting | listing _ _ => True

variable {nodes : StdMap Int NodeRef} {items : List (Option NodeRef)}

theorem Branch.start (h : Branch nodes items idle) :
    Branch nodes items (if nodes.isEmpty then clearing else requesting) := by
  cases he : nodes.isEmpty with
  | true => exact ⟨Iff.rfl, he⟩
  | false =>
    refine ⟨h.1.trans (iff_of_false id ?_), trivial⟩
    change nodes.isEmpty = true → False
    rw [he]
    exact Bool.false_ne_true

theorem Branch.tail {i : Option NodeRef} (h : Branch nodes (i :: items) clearing) :
    Branch nodes items clearing :=
  ⟨Iff.rfl, h.2⟩

theorem Branch.cleared (h : Branch nodes items clearing) : Branch nodes [] requesting :=
  ⟨iff_of_true rfl h.2, trivial⟩

/-- The listing is read, and children may have gone. -/
theorem Branch.finish {d : Document} {es : List Entry} (h : Branch nodes items (listing d es))
    {nodes' : StdMap Int NodeRef} (hsub : nodes.isEmpty = true → nodes'.isEmpty = true) :
    Branch nodes' (if nodes'.isEmpty then items ++ [none] else items) idle := by
  refine ⟨iff_of_false ?_ id, trivial⟩
  split
  · simp
  · rename_i hne
    intro hnil
    exact hne (hsub (h.1.mp hnil))

theorem Branch.made : Branch .empty [] filed := ⟨iff_of_true rfl trivial, rfl⟩

theorem Branch.file {d : Document} {es : List Entry} (h : Branch nodes items (listing d es))
    {id : Int} {child : NodeRef} (hid : nodes.find? id = none)
    (hnew : ∀ id', nodes.find? id' ≠ some child) :
    Branch (nodes.insert id child) items (inserting d child es) := by
  have hfind : ∀ id', (nodes.insert id child).find? id' =
      if id' = id then some child else nodes.find? id' := by
    intro id'
    rw [StdMap.find?_insert]
    split
    · rename_i he
      rw [hid]
      rfl
    · rfl
  refine ⟨h.1.trans ?_, id, by rw [hfind, if_pos rfl]⟩
  constructor
  · intro he id' r hf
    rw [hfind] at hf
    split at hf
    · exact (Option.some.inj hf).symm
    · rw [(StdMap.isEmpty_iff _).mp he] at hf
      cases hf
  · intro hall
    refine (StdMap.isEmpty_iff _).mpr fun id' => ?_
    cases hf : nodes.find? id' with
    | none => rfl
    | some r =>
      -- an old child is not the new one
      have hne : id' ≠ id := by
        rintro rfl
        rw [hid] at hf
        cases hf
      have hr := hall id' r (by rw [hfind, if_neg hne, hf])
      rw [hr] at hf
      exact absurd hf (hnew id')

theorem Branch.place {d : Document} {child : NodeRef} {es : List Entry}
    (h : Branch nodes items (inserting d child es)) :
    Branch nodes (items ++ [some child]) (inserted d child es) :=
  ⟨iff_of_false (by simp) id, h.2⟩

theorem Branch.order {d : Document} {child : NodeRef} {es : List Entry}
    (h : Branch nodes items (inserted d child es)) : Branch nodes items (listing d es) := by
  refine ⟨h.1.trans (iff_of_false id ?_), trivial⟩
  obtain ⟨id, hf⟩ := h.2
  intro he
  rw [(StdMap.isEmpty_iff _).mp he] at hf
  cases hf

end Expansion

end MonitorAgent.L5.RoomCalls
