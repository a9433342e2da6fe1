import MonitorAgent.Core.OrderSet
import MonitorAgent.L3Wall.TitleRoom

/-!
# Nodes of the title tree

`Node` (Monitor/Monitor/Node.cpp) with its two indexes of the same children:
`nodes_` by id and `nodes_order_` by `order_`. A node and, for a room, its
`TitleRoom` part in the wall share one reference; `Node.alive` says that the
object has not been deleted, and no function reads it.

Of the tree control only what is read back is kept: the parent item of a
node's item, and the child items of a room.
-/
namespace MonitorAgent.L4

open L3

abbrev NodeRef := RoomRef

/-- mirrors Monitor/Monitor/Node.h:10-16 -/
inductive NodeType
  | title
  | titleNode
  | titleRoom
  | titleUser
deriving DecidableEq

/-- mirrors Monitor/Monitor/Node.h:45-52; `parentItem` is the node whose item
`GetParentItem` gives for `tree_item_`. -/
structure Node where
  nodeType : NodeType
  id : Int
  name : String
  order : Nat
  usercount : Nat
  nodes : StdMap Int NodeRef
  nodesOrder : List NodeRef
  parentItem : Option NodeRef
  alive : Bool

/-- The nodes, and the wall their rooms are part of. `memory` is what the
memory of `proxy_` holds when a room is built at a reference. -/
structure Titles where
  nodes : NodeRef → Node
  nextNode : NodeRef
  memory : NodeRef → Option ProxyRef
  w : World

namespace Titles

def modifyNode (t : Titles) (n : NodeRef) (f : Node → Node) : Titles :=
  { t with nodes := Function.update t.nodes n (f (t.nodes n)) }

/-- `order_cmp` compares by this.
mirrors Monitor/Monitor/Com.h:183-190 -/
def orderOf (t : Titles) (n : NodeRef) : Nat := (t.nodes n).order

/-! ## Creating and deleting -/

/-- mirrors Monitor/Monitor/Node.cpp:4-14 -/
def newNode (t : Titles) (nodeType : NodeType) (id : Int) (name : String) (order usercount : Nat) :
    Titles :=
  let node : Node := {
    nodeType := nodeType, id := id, name := name, order := order, usercount := usercount,
    nodes := .empty, nodesOrder := [], parentItem := none, alive := true }
  { t with nodes := Function.update t.nodes t.nextNode node, nextNode := t.nextNode + 1 }

/-- mirrors Monitor/Monitor/TitleNode.cpp:10-13 -/
def newTitleNode (t : Titles) (id : Int) (name : String) (order usercount : Nat) : Titles :=
  t.newNode .titleNode id name order usercount

/-- The initializer list has no `proxy_`.
mirrors Monitor/Monitor/TitleRoom.cpp:54-58 -/
def newTitleRoom (t : Titles) (id : Int) (name : String) (order usercount : Nat) : Titles :=
  let room : TitleRoom := ⟨id, t.memory t.nextNode, .empty, []⟩
  { t.newNode .titleRoom id name order usercount with w := t.w.modifyRoom t.nextNode fun _ => room }

def delete (t : Titles) (n : NodeRef) : Titles := t.modifyNode n fun x => { x with alive := false }

/-! ## The functions of `Node` -/

/-- mirrors Monitor/Monitor/Node.cpp:25-36 -/
def update (t : Titles) (n : NodeRef) (name : String) (order usercount : Nat) : Titles :=
  t.modifyNode n fun x => { x with name := name, order := order, usercount := usercount }

/-- mirrors Monitor/Monitor/Node.cpp:60-70 -/
def deleteAll (t : Titles) (ns : List NodeRef) : Titles := ns.foldl delete t

def children (t : Titles) (n : NodeRef) : List NodeRef := (t.nodes n).nodes.entries.map Prod.snd

def clear (t : Titles) (n : NodeRef) : Titles :=
  t.modifyNode n fun x => { x with nodes := .empty, nodesOrder := [] }

/-- mirrors Monitor/Monitor/Node.cpp:49-74 -/
def delAll (t : Titles) (n : NodeRef) : Titles := (t.deleteAll (t.children n)).clear n

/-- mirrors Monitor/Monitor/Node.cpp:76-89 -/
def getNodeOrRoom (t : Titles) (n : NodeRef) (id : Int) : Option NodeRef :=
  (t.nodes n).nodes.find? id

/-- The empty item below a new node's; only a room's is kept.
mirrors Monitor/Monitor/Node.cpp:109-114 -/
def addPlaceholder (t : Titles) (node : NodeRef) : Titles :=
  { t with w := if (t.nodes node).nodeType = .titleRoom then t.w.addNull node else t.w }

/-- The item goes under the parent's, which for a title is the root; its text
is converted first, see `addChild?`.
mirrors Monitor/Monitor/Node.cpp:91-117 -/
def addNodeOrRoom (t : Titles) (n : NodeRef) (id : Int) (node : NodeRef) : Titles :=
  let t := t.modifyNode n fun x => { x with nodes := x.nodes.insert id node }
  let t := t.modifyNode node fun x =>
    { x with parentItem := if (t.nodes n).nodeType = .title then none else some n }
  (t.addPlaceholder node).modifyNode n fun x =>
    { x with nodesOrder := OrderSet.insert t.orderOf node x.nodesOrder }

/-- mirrors Monitor/Monitor/Node.cpp:119-132 -/
def delNodeOrRoom (t : Titles) (n : NodeRef) (id : Int) : Titles :=
  match t.getNodeOrRoom n id with
  | none => t
  | some node => (t.modifyNode n fun x => { x with nodes := x.nodes.erase id }).delete node

/-! ## Changing one node -/

section Modify

variable (t : Titles) (n : NodeRef) (f : Node → Node)

theorem modifyNode_nodes (m : NodeRef) :
    (t.modifyNode n f).nodes m = if m = n then f (t.nodes n) else t.nodes m :=
  Function.update_apply ..

@[simp] theorem modifyNode_nextNode : (t.modifyNode n f).nextNode = t.nextNode := rfl
@[simp] theorem modifyNode_memory : (t.modifyNode n f).memory = t.memory := rfl
@[simp] theorem modifyNode_w : (t.modifyNode n f).w = t.w := rfl

end Modify

section Delete

variable (t : Titles) (n : NodeRef) {m : NodeRef}

theorem delete_self : ((t.delete n).nodes n).alive = false := by
  rw [delete, modifyNode_nodes, if_pos rfl]

theorem delete_of_ne (h : m ≠ n) : (t.delete n).nodes m = t.nodes m := by
  rw [delete, modifyNode_nodes, if_neg h]

theorem delete_dead (h : (t.nodes m).alive = false) : ((t.delete n).nodes m).alive = false := by
  by_cases he : m = n
  · rw [he, delete_self]
  · rw [delete_of_ne t n he, h]

/-- A node that is alive afterwards is another one. -/
theorem delete_alive (h : ((t.delete n).nodes m).alive = true) :
    m ≠ n ∧ (t.nodes m).alive = true := by
  have hne : m ≠ n := by
    rintro rfl
    rw [delete_self] at h
    cases h
  exact ⟨hne, delete_of_ne t n hne ▸ h⟩

/-- Only `alive` changes. -/
theorem delete_fields (m : NodeRef) : ((t.delete n).nodes m).nodeType = (t.nodes m).nodeType ∧
    ((t.delete n).nodes m).id = (t.nodes m).id ∧
    ((t.delete n).nodes m).parentItem = (t.nodes m).parentItem ∧
    ((t.delete n).nodes m).nodes = (t.nodes m).nodes ∧
    ((t.delete n).nodes m).nodesOrder = (t.nodes m).nodesOrder := by
  rw [delete, modifyNode_nodes]
  split
  · rename_i he
    rw [he]
    exact ⟨rfl, rfl, rfl, rfl, rfl⟩
  · exact ⟨rfl, rfl, rfl, rfl, rfl⟩

end Delete

/-- `Update` leaves a node where it is. -/
structure SamePlace (x y : Node) : Prop where
  nodeType : x.nodeType = y.nodeType
  id : x.id = y.id
  nodes : x.nodes = y.nodes
  nodesOrder : x.nodesOrder = y.nodesOrder
  parentItem : x.parentItem = y.parentItem
  alive : x.alive = y.alive

section Update

variable (t : Titles) (c : NodeRef) (name : String) (order usercount : Nat)

theorem update_samePlace (m : NodeRef) :
    SamePlace ((t.update c name order usercount).nodes m) (t.nodes m) := by
  rw [Titles.update, modifyNode_nodes]
  split
  · rename_i he; rw [he]; exact ⟨rfl, rfl, rfl, rfl, rfl, rfl⟩
  · exact ⟨rfl, rfl, rfl, rfl, rfl, rfl⟩

theorem update_orderOf (r : NodeRef) :
    (t.update c name order usercount).orderOf r = if r = c then order else t.orderOf r := by
  rw [orderOf, Titles.update, modifyNode_nodes]
  split <;> rfl

end Update

theorem mem_children {t : Titles} {n r : NodeRef} :
    r ∈ t.children n ↔ ∃ id, (t.nodes n).nodes.find? id = some r := by
  rw [children, List.mem_map]
  constructor
  · intro ⟨e, he, hr⟩
    exact ⟨e.1, (StdMap.mem_entries_iff _ _ _).mp (hr ▸ he)⟩
  · intro ⟨id, hf⟩
    exact ⟨(id, r), (StdMap.mem_entries_iff _ _ _).mpr hf, rfl⟩

/-- Only `alive` of the nodes deleted changes. -/
theorem deleteAll_nodes (ns : List NodeRef) (t : Titles) (m : NodeRef) :
    (t.deleteAll ns).nodes m = if m ∈ ns then { t.nodes m with alive := false } else t.nodes m := by
  induction ns generalizing t with
  | nil => rfl
  | cons n ns ih =>
    rw [deleteAll, List.foldl_cons]
    refine (ih (t.delete n)).trans ?_
    rw [delete, modifyNode_nodes]
    by_cases hn : m = n
    · subst hn
      rw [if_pos rfl, if_pos List.mem_cons_self]
      exact ite_self _
    · rw [if_neg hn]
      simp [hn]

theorem deleteAll_rest (ns : List NodeRef) (t : Titles) : (t.deleteAll ns).nextNode = t.nextNode ∧
    (t.deleteAll ns).memory = t.memory ∧ (t.deleteAll ns).w = t.w := by
  induction ns generalizing t with
  | nil => exact ⟨rfl, rfl, rfl⟩
  | cons n ns ih => exact ih (t.delete n)

section AddNodeOrRoom

variable (t : Titles) (n : NodeRef) (id : Int) {node : NodeRef}

/-- What adding a node does to the nodes. -/
theorem addNodeOrRoom_nodes (hne : node ≠ n) (m : NodeRef) :
    (t.addNodeOrRoom n id node).nodes m =
      if m = n then { t.nodes n with
        nodes := (t.nodes n).nodes.insert id node
        nodesOrder := OrderSet.insert t.orderOf node (t.nodes n).nodesOrder }
      else if m = node then { t.nodes node with
        parentItem := if (t.nodes n).nodeType = .title then none else some n }
      else t.nodes m := by
  unfold addNodeOrRoom addPlaceholder
  dsimp only
  rw [modifyNode_nodes]
  dsimp only
  by_cases hm : m = n
  · subst hm
    rw [if_pos rfl, if_pos rfl, modifyNode_nodes, if_neg hne.symm, modifyNode_nodes, if_pos rfl]
    -- the set is ordered by the same keys
    refine congrArg (fun key : NodeRef → Nat => ({ t.nodes m with
      nodes := (t.nodes m).nodes.insert id node
      nodesOrder := OrderSet.insert key node (t.nodes m).nodesOrder } : Node)) (funext fun r => ?_)
    rw [orderOf, orderOf, modifyNode_nodes]
    split
    · rename_i hr
      rw [hr, modifyNode_nodes, if_neg hne]
    · rw [modifyNode_nodes]
      split
      · rename_i hr
        rw [hr]
      · rfl
  · rw [if_neg hm, if_neg hm, modifyNode_nodes]
    by_cases hn : m = node
    · rw [if_pos hn, if_pos hn, modifyNode_nodes, if_neg hne, modifyNode_nodes, if_pos rfl]
    · rw [if_neg hn, if_neg hn, modifyNode_nodes, if_neg hm]

theorem addNodeOrRoom_w (hne : node ≠ n) : (t.addNodeOrRoom n id node).w =
    if (t.nodes node).nodeType = .titleRoom then t.w.addNull node else t.w := by
  unfold addNodeOrRoom addPlaceholder
  dsimp only
  rw [modifyNode_w]
  dsimp only
  rw [modifyNode_nodes, if_pos rfl]
  dsimp only
  rw [modifyNode_nodes, if_neg hne]
  rfl

end AddNodeOrRoom

end Titles
end MonitorAgent.L4
