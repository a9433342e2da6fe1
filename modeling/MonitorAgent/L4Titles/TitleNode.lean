import MonitorAgent.L4Titles.Node

/-!
# Title nodes

`TitleNode` (Monitor/Monitor/TitleNode.cpp:19-168): the listing a node gets
from the server when it is expanded, read into children, and the children the
listing does not have any more.
-/
namespace MonitorAgent.L4

open L3

/-- The attributes of a `node` or `room_node` element, as `atoi` and the
narrowing to the member types leave them. -/
structure Entry where
  id : Int
  name : String
  order : Nat
  usercount : Nat
deriving DecidableEq

/-- Which of the two names `strncmp` finds in front of the first child's. -/
inductive Heading
  | staticNode
  | dynamicNode
  | other
deriving DecidableEq

/-- A response that parses: the heading of the first child, its `node` and
its `room_node` elements. -/
structure Document where
  heading : Heading
  nodes : List Entry
  roomNodes : List Entry
deriving DecidableEq

/-- The elements that are read. -/
def Document.entries (d : Document) : List Entry :=
  match d.heading with
  | .staticNode => d.nodes
  | .dynamicNode => d.roomNodes
  | .other => []

/-- mirrors the set `nodes_id` of Monitor/Monitor/TitleNode.cpp:79 -/
def Document.ids (d : Document) : List Int := d.entries.map Entry.id

/-- A child as it is filed. -/
def Heading.child (heading : Heading) (e : Entry) (parentItem : Option NodeRef) : Node where
  nodeType := if heading = .dynamicNode then .titleRoom else .titleNode
  id := e.id
  name := e.name
  order := e.order
  usercount := e.usercount
  nodes := .empty
  nodesOrder := []
  parentItem := parentItem
  alive := true

namespace Titles

/-! ## Removing -/

/-- The fuel bounds the depth of the tree; children have larger references
than their parent. mirrors Monitor/Monitor/TitleNode.cpp:19-35 and
Monitor/Monitor/TitleRoom.cpp:69-84 -/
def onDestoryGo : Nat → Titles → NodeRef → Titles
  | 0, t, _ => t
  | fuel + 1, t, n =>
    match (t.nodes n).nodeType with
    | .titleNode =>
      ((t.children n).foldl (fun t node => (onDestoryGo fuel t node).delete node) t).clear n
    | .titleRoom => { t with w := t.w.onDestory n }
    | _ => t

def onDestory (t : Titles) (n : NodeRef) : Titles := t.onDestoryGo t.nextNode n

/-- One pass of the loop, with the entry the iterator is at. -/
def kickout (n : NodeRef) (ids : List Int) (t : Titles) (e : Int × NodeRef) : Titles :=
  if e.1 ∈ ids then t
  else ((t.modifyNode n fun x => { x with nodes := x.nodes.erase e.1 }).onDestory e.2).delete e.2

/-- mirrors Monitor/Monitor/TitleNode.cpp:146-168 -/
def kickoutRedundantNodes (t : Titles) (n : NodeRef) (ids : List Int) : Titles :=
  (t.nodes n).nodes.entries.foldl (kickout n ids) t

/-! ## Reading a listing -/

/-- With a name that fits the buffer it is converted into (`addChild?`).
mirrors Monitor/Monitor/TitleNode.cpp:107-109 and 135-137 -/
def addChild (t : Titles) (n : NodeRef) (heading : Heading) (e : Entry) : Titles :=
  let t' := match heading with
    | .dynamicNode => t.newTitleRoom e.id e.name e.order e.usercount
    | _ => t.newTitleNode e.id e.name e.order e.usercount
  t'.addNodeOrRoom n e.id t.nextNode

/-- mirrors Monitor/Monitor/TitleNode.cpp:91-110 and 119-138 -/
def parseEntry (n : NodeRef) (heading : Heading) (t : Titles) (e : Entry) : Titles :=
  match t.getNodeOrRoom n e.id with
  | some node => t.update node e.name e.order e.usercount
  | none => t.addChild n heading e

/-- `none` is a response that does not parse.
mirrors Monitor/Monitor/TitleNode.cpp:71-143 -/
def parseXML (t : Titles) (n : NodeRef) : Option Document → Titles
  | none => t
  | some d => (d.entries.foldl (parseEntry n d.heading) t).kickoutRedundantNodes n d.ids

/-- `listing` is what the server answers for an id. The placeholder item
added to a node without children is not kept.
mirrors Monitor/Monitor/TitleNode.cpp:54-69 -/
def onItemExpanded (t : Titles) (listing : Int → Option Document) (n : NodeRef) : Titles :=
  let t := if (t.nodes n).nodes.isEmpty then t.delAll n else t
  t.parseXML n (listing (t.nodes n).id)

/-! ## What adding a child does -/

section AddChild

variable (t : Titles) (n : NodeRef) (heading : Heading) (e : Entry)

theorem addChild_rest : (t.addChild n heading e).nextNode = t.nextNode + 1 ∧
    (t.addChild n heading e).memory = t.memory := by
  cases heading <;> exact ⟨rfl, rfl⟩

theorem addChild_nodes (hn : n ≠ t.nextNode) (m : NodeRef) :
    (t.addChild n heading e).nodes m =
      if m = n then { t.nodes n with
        nodes := (t.nodes n).nodes.insert e.id t.nextNode
        nodesOrder :=
          OrderSet.insert (Function.update t.orderOf t.nextNode e.order) t.nextNode
          (t.nodes n).nodesOrder }
      else if m = t.nextNode then
        heading.child e (if (t.nodes n).nodeType = .title then none else some n)
      else t.nodes m := by
  have hnew : ∀ t' : Titles,
    (∀ m, t'.nodes m = if m = t.nextNode then heading.child e none else t.nodes m) →
      (t'.addNodeOrRoom n e.id t.nextNode).nodes m =
        if m = n then { t.nodes n with
          nodes := (t.nodes n).nodes.insert e.id t.nextNode
          nodesOrder :=
            OrderSet.insert (Function.update t.orderOf t.nextNode e.order) t.nextNode
            (t.nodes n).nodesOrder }
        else if m = t.nextNode then
          heading.child e (if (t.nodes n).nodeType = .title then none else some n)
        else t.nodes m := by
    intro t' ht
    have hkey : t'.orderOf = Function.update t.orderOf t.nextNode e.order := funext fun r => by
      rw [orderOf, ht, Function.update_apply]
      split <;> rfl
    rw [addNodeOrRoom_nodes t' n e.id hn.symm, hkey, ht, ht, if_neg hn, if_pos rfl, ht]
    by_cases hm : m = n
    · rw [if_pos hm, if_pos hm]
    · rw [if_neg hm, if_neg hm]
      by_cases hm' : m = t.nextNode
      · rw [if_pos hm', if_pos hm']
        rfl
      · rw [if_neg hm', if_neg hm', if_neg hm']
  have hupdate : ∀ (x : Node) m, Function.update t.nodes t.nextNode x m = if m = t.nextNode then
    x else t.nodes m :=
    fun x m => Function.update_apply ..
  cases heading
  case dynamicNode => exact hnew _ (hupdate _)
  all_goals exact hnew _ (hupdate _)

end AddChild

end Titles
end MonitorAgent.L4
