import MonitorAgent.L4Titles.ChildIndex
import MonitorAgent.L4Titles.Refresh

/-!
# A node's items are its children

The tree control has an item for each child of an expanded node, and an empty
one below a node that has none. `AddNodeOrRoom` inserts the item of a child,
`DelAll` clears the items before the first one comes, `AddNull` puts the empty
one back; `KickoutRedundantNodes` deletes children and leaves their items.

* `items_mirror_iff`: along a run the items are the children exactly if no
  listing leaves out a child that is there.
* `stale_item`: the item of a child that was left out carries a deleted node.
-/
namespace MonitorAgent.L4

open L3 LTS Titles

/-- The tree, and for each node the child items of its item, by the node they
carry; for a room see `TitleRoom.items`. -/
structure TreeItems where
  t : Titles
  items : NodeRef → List (Option NodeRef)

namespace TreeItems

/-- mirrors Monitor/Monitor/Node.cpp:38-47 -/
def addNull (s : TreeItems) (n : NodeRef) : TreeItems :=
  { s with items := Function.update s.items n (s.items n ++ [none]) }

/-- mirrors Monitor/Monitor/Node.cpp:49-74 -/
def delAll (s : TreeItems) (n : NodeRef) : TreeItems where
  t := s.t.delAll n
  items := Function.update s.items n []

/-- The item of the new child, and an empty one below it.
mirrors Monitor/Monitor/Node.cpp:100-114 -/
def addChild (s : TreeItems) (n : NodeRef) (heading : Heading) (e : Entry) : TreeItems where
  t := s.t.addChild n heading e
  items := Function.update
    (Function.update s.items n (s.items n ++ [some s.t.nextNode])) s.t.nextNode [none]

/-- mirrors Monitor/Monitor/TitleNode.cpp:91-110 and 119-138 -/
def parseEntry (n : NodeRef) (heading : Heading) (s : TreeItems) (e : Entry) : TreeItems :=
  match s.t.getNodeOrRoom n e.id with
  | some node => { s with t := s.t.update node e.name e.order e.usercount }
  | none => s.addChild n heading e

/-- mirrors Monitor/Monitor/TitleNode.cpp:146-168 -/
def kickoutRedundantNodes (s : TreeItems) (n : NodeRef) (ids : List Int) : TreeItems :=
  { s with t := s.t.kickoutRedundantNodes n ids }

/-- mirrors Monitor/Monitor/TitleNode.cpp:71-143 -/
def parseXML (s : TreeItems) (n : NodeRef) : Option Document → TreeItems
  | none => s
  | some d => (d.entries.foldl (parseEntry n d.heading) s).kickoutRedundantNodes n d.ids

/-- mirrors Monitor/Monitor/TitleNode.cpp:54-69 -/
def onItemExpanded (s : TreeItems) (n : NodeRef) (response : Option Document) : TreeItems :=
  let s := if (s.t.nodes n).nodes.isEmpty then s.delAll n else s
  let s := s.parseXML n response
  if (s.t.nodes n).nodes.isEmpty then s.addNull n else s

theorem addNull_items (s : TreeItems) (n m : NodeRef) :
    (s.addNull n).items m = if m = n then s.items n ++ [none] else s.items m :=
  Function.update_apply ..

/-! ## The tree behind the items -/

theorem parseEntry_t (n : NodeRef) (heading : Heading) (s : TreeItems) (e : Entry) :
    (parseEntry n heading s e).t = Titles.parseEntry n heading s.t e := by
  unfold parseEntry Titles.parseEntry
  cases s.t.getNodeOrRoom n e.id <;> rfl

theorem parse_t (n : NodeRef) (heading : Heading) (es : List Entry) (s : TreeItems) :
    (es.foldl (parseEntry n heading) s).t = es.foldl (Titles.parseEntry n heading) s.t := by
  induction es generalizing s with
  | nil => rfl
  | cons e es ih => rw [List.foldl_cons, List.foldl_cons, ih, parseEntry_t]

theorem parseXML_t (s : TreeItems) (n : NodeRef) (response : Option Document) :
    (s.parseXML n response).t = s.t.parseXML n response := by
  cases response with
  | none => rfl
  | some d => exact congrArg (·.kickoutRedundantNodes n d.ids) (parse_t n d.heading d.entries s)

/-- The items are not read. -/
theorem onItemExpanded_t (s : TreeItems) (n : NodeRef) (listing : Int → Option Document) :
    (s.onItemExpanded n (listing (s.t.nodes n).id)).t = s.t.onItemExpanded listing n := by
  have hnull : ∀ s : TreeItems, (if (s.t.nodes n).nodes.isEmpty then s.addNull n else s).t = s.t :=
    fun s => by
    split <;> rfl
  have hid : ((if (s.t.nodes n).nodes.isEmpty then s.t.delAll n else s.t).nodes n).id =
      (s.t.nodes n).id := by
    split
    · rw [Titles.delAll, clear, modifyNode_nodes, if_pos rfl]
      dsimp only
      rw [deleteAll_nodes]
      split <;> rfl
    · rfl
  rw [onItemExpanded, Titles.onItemExpanded, hnull, parseXML_t, hid]
  split <;> rfl

end TreeItems

/-! ## Items and children -/

/-- The items that carry a node are the children, one for each, and there is
one empty item exactly if there are no children. -/
structure Shows (t : Titles) (n : NodeRef) (items : List (Option NodeRef)) : Prop where
  placeholder : items.count none = if (t.nodes n).nodes.isEmpty then 1 else 0
  once : ∀ c, items.count (some c) ≤ 1
  child : ∀ c, some c ∈ items ↔ ∃ id, (t.nodes n).nodes.find? id = some c

/-- The same while a listing is read: there is no empty item yet. -/
structure Reads (t : Titles) (n : NodeRef) (items : List (Option NodeRef)) : Prop where
  placeholder : none ∉ items
  once : ∀ c, items.count (some c) ≤ 1
  child : ∀ c, some c ∈ items ↔ ∃ id, (t.nodes n).nodes.find? id = some c

theorem Shows.congr {t t' : Titles} {n : NodeRef} {items : List (Option NodeRef)}
    (h : Shows t n items) (he : (t'.nodes n).nodes = (t.nodes n).nodes) : Shows t' n items := by
  refine ⟨?_, h.once, fun c => ?_⟩
  · rw [he]; exact h.placeholder
  · rw [he]; exact h.child c

/-- No items below a node without children. -/
theorem Reads.empty {t : Titles} {n : NodeRef} (he : ∀ id, (t.nodes n).nodes.find? id = none) :
    Reads t n [] where
  placeholder := List.not_mem_nil
  once _ := Nat.zero_le 1
  child c := by
    refine iff_of_false List.not_mem_nil fun ⟨id, hf⟩ => ?_
    rw [he] at hf
    cases hf

/-- With children there is no empty item. -/
theorem Shows.reads {t : Titles} {n : NodeRef} {items : List (Option NodeRef)} (h : Shows t n items)
    (he : (t.nodes n).nodes.isEmpty = false) : Reads t n items := by
  refine ⟨fun hm => ?_, h.once, h.child⟩
  have hc := h.placeholder
  rw [he, if_neg Bool.false_ne_true] at hc
  exact absurd hm (List.count_eq_zero.mp hc)

/-- The empty item comes back if there are no children. -/
theorem Reads.shows {t : Titles} {n : NodeRef} {items : List (Option NodeRef)}
    (h : Reads t n items) :
    Shows t n (if (t.nodes n).nodes.isEmpty then items ++ [none] else items) := by
  have hzero : items.count none = 0 := List.count_eq_zero.mpr h.placeholder
  cases he : (t.nodes n).nodes.isEmpty with
  | false =>
    rw [if_neg Bool.false_ne_true]
    refine ⟨?_, h.once, h.child⟩
    rw [hzero, he, if_neg Bool.false_ne_true]
  | true =>
    rw [if_pos rfl]
    refine ⟨?_, fun c => ?_, fun c => ?_⟩
    · rw [he, if_pos rfl, List.count_append, hzero]
      rfl
    · rw [List.count_append, List.count_singleton, if_neg (by simp)]
      exact h.once c
    · rw [List.mem_append, List.mem_singleton, or_iff_left (by simp), h.child]

/-- The item of a new child. -/
theorem Reads.insert {t t' : Titles} {n c : NodeRef} {items : List (Option NodeRef)}
    (h : Reads t n items) (hnew : ∀ id, (t.nodes n).nodes.find? id ≠ some c)
    (hc : ∀ x, (∃ id, (t'.nodes n).nodes.find? id = some x) ↔
      x = c ∨ ∃ id, (t.nodes n).nodes.find? id = some x) :
    Reads t' n (items ++ [some c]) := by
  have hzero : items.count (some c) = 0 := List.count_eq_zero.mpr fun hm => by
    obtain ⟨id, hf⟩ := (h.child c).mp hm
    exact hnew id hf
  refine ⟨fun hm => ?_, fun x => ?_, fun x => ?_⟩
  · rcases List.mem_append.mp hm with hm | hm
    · exact h.placeholder hm
    · cases List.mem_singleton.mp hm
  · rw [List.count_append]
    by_cases hx : x = c
    · rw [hx, hzero]
      simp
    · have hne : List.count (some x) [some c] = 0 := List.count_eq_zero.mpr (by simpa using hx)
      rw [hne]
      exact h.once x
  · rw [List.mem_append, List.mem_singleton, h.child, hc, or_comm, Option.some.injEq]

/-- Every expandable node shows its children. -/
def ItemsShow (s : TreeItems) : Prop :=
  ∀ n, (s.t.nodes n).alive = true → (s.t.nodes n).nodeType = .titleNode → Shows s.t n (s.items n)

/-! ## Reading a listing -/

/-- A listing is being read into `n`; the other nodes show their children. -/
structure Reading (n : NodeRef) (s : TreeItems) : Prop where
  tree : Tree s.t
  alive : (s.t.nodes n).alive = true
  type : (s.t.nodes n).nodeType = .titleNode
  reads : Reads s.t n (s.items n)
  others : ∀ m, m ≠ n → (s.t.nodes m).alive = true → (s.t.nodes m).nodeType = .titleNode →
    Shows s.t m (s.items m)

namespace Reading

variable {n : NodeRef} {s : TreeItems} (h : Reading n s)
include h

theorem update (c : NodeRef) (e : Entry) :
    Reading n { s with t := s.t.update c e.name e.order e.usercount } := by
  have hnode := s.t.update_samePlace c e.name e.order e.usercount
  refine ⟨h.tree.update c e.name e.order e.usercount, (hnode n).alive.trans h.alive,
    (hnode n).nodeType.trans h.type,
    ⟨h.reads.placeholder, h.reads.once, fun x => ?_⟩, fun m hm ha hty => ?_⟩
  · rw [(hnode n).nodes]
    exact h.reads.child x
  · exact (h.others m hm ((hnode m).alive.symm.trans ha) ((hnode m).nodeType.symm.trans hty)).congr
      (hnode m).nodes

theorem addChild (heading : Heading) {e : Entry} (hnew : (s.t.nodes n).nodes.find? e.id = none) :
    Reading n (s.addChild n heading e) := by
  have hroom : (s.t.nodes n).nodeType ≠ .titleRoom := by rw [h.type]; decide
  have hlt := h.tree.inUse n h.alive
  have hfind := h.tree.addChild_find? hlt heading hnew
  have hself := Shape.addChild_self (t := s.t) hlt heading (e := e)
  have hold := fun m hm => Shape.addChild_type (t := s.t) hlt heading (e := e) m hm
  have hn := hold n (Nat.ne_of_lt hlt)
  have hitems : ∀ m, (s.addChild n heading e).items m = if m = s.t.nextNode then [none]
      else if m = n then s.items n ++ [some s.t.nextNode] else s.items m := fun m => by
    refine (Function.update_apply _ _ _ _).trans ?_
    rw [Function.update_apply]
  refine ⟨h.tree.addChild h.alive heading hroom hnew, hn.2.2.2.2.trans h.alive, hn.1.trans h.type,
    ?_,
    fun m hm ha hty => ?_⟩
  · rw [hitems, if_neg (Nat.ne_of_lt hlt), if_pos rfl]
    refine h.reads.insert (h.tree.fresh n) fun x => ?_
    constructor
    · rintro ⟨id, hf⟩
      rw [show ((s.addChild n heading e).t.nodes n).nodes.find? id = _ from hfind n id] at hf
      split at hf
      · exact .inl (Option.some.inj hf).symm
      · exact .inr ⟨id, hf⟩
    · rintro (rfl | ⟨id, hf⟩)
      · exact ⟨e.id, (hfind n e.id).trans (if_pos ⟨rfl, rfl⟩)⟩
      · refine ⟨id, (hfind n id).trans ?_⟩
        rw [if_neg]
        · exact hf
        · rintro ⟨-, rfl⟩
          rw [hnew] at hf
          cases hf
  · rw [hitems]
    by_cases hm' : m = s.t.nextNode
    · have hempty : ((s.addChild n heading e).t.nodes m).nodes = .empty := by
        rw [hm']
        exact congrArg Node.nodes hself
      rw [if_pos hm']
      refine ⟨?_, fun c => by simp, fun c => ?_⟩
      · rw [hempty]
        rfl
      · rw [hempty]
        simp
    · have hnodes : (s.addChild n heading e).t.nodes m = s.t.nodes m := by
        have := addChild_nodes s.t n heading e (Nat.ne_of_lt hlt) m
        rwa [if_neg hm, if_neg hm'] at this
      rw [hnodes] at ha hty
      rw [if_neg hm', if_neg hm]
      exact (h.others m hm ha hty).congr (congrArg Node.nodes hnodes)

theorem parseEntry (heading : Heading) (e : Entry) :
    Reading n (TreeItems.parseEntry n heading s e) := by
  unfold TreeItems.parseEntry
  split
  · exact h.update _ e
  · exact h.addChild heading ‹_›

omit h in
theorem parse (heading : Heading) : ∀ (es : List Entry) {s : TreeItems}, Reading n s →
    Reading n (es.foldl (TreeItems.parseEntry n heading) s)
  | [], _, h => h
  | e :: es, _, h => parse heading es (h.parseEntry heading e)

/-- The empty item, and the listing is read. -/
theorem shows : ItemsShow (if (s.t.nodes n).nodes.isEmpty then s.addNull n else s) := by
  intro m ha hty
  have ht : (if (s.t.nodes n).nodes.isEmpty then s.addNull n else s).t = s.t := by
    split <;> rfl
  have hitems : (if (s.t.nodes n).nodes.isEmpty then s.addNull n else s).items m =
      if m = n then (if (s.t.nodes n).nodes.isEmpty then s.items n ++ [none] else s.items n)
        else s.items m := by
    cases (s.t.nodes n).nodes.isEmpty with
    | true => exact TreeItems.addNull_items s n m
    | false =>
      by_cases hm : m = n
      · rw [if_pos hm, hm]; rfl
      · rw [if_neg hm]; rfl
  rw [ht] at ha hty ⊢
  rw [hitems]
  by_cases hm : m = n
  · rw [if_pos hm, hm]
    exact h.reads.shows
  · rw [if_neg hm]
    exact h.others m hm ha hty

end Reading

/-! ## Runs -/

inductive ItemOp
  | onItemExpanded (n : NodeRef) (response : Option Document)

/-- Nodes that exist are expanded. -/
def TreeItems.step (s : TreeItems) : ItemOp → Option TreeItems
  | .onItemExpanded n response =>
    if (s.t.nodes n).alive ∧ (s.t.nodes n).nodeType = .titleNode then
      some (s.onItemExpanded n response)
    else none

/-- Nodes as they are added: without children, an empty item below each. -/
structure TreeItems.Launched (s : TreeItems) : Prop where
  tree : Tree s.t
  nodes : ∀ n, (s.t.nodes n).nodes = .empty
  items : ∀ n, s.items n = [none]

def itemSys : LTS TreeItems ItemOp := .ofFn TreeItems.Launched TreeItems.step

/-- The listing leaves no child out. -/
def KeepsChildren (s : TreeItems) : ItemOp → Prop
  | .onItemExpanded n (some d) => ∀ id c, (s.t.nodes n).nodes.find? id = some c → id ∈ d.ids
  | .onItemExpanded _ none => True

structure ItemsInv (s : TreeItems) : Prop where
  tree : Tree s.t
  shows : ItemsShow s

namespace ItemsInv

theorem launched {s : TreeItems} (h : s.Launched) : ItemsInv s where
  tree := h.tree
  shows n _ _ := by
    rw [h.items]
    refine ⟨?_, fun c => by simp, fun c => ?_⟩
    · rw [h.nodes]
      rfl
    · rw [h.nodes]
      simp

variable {s : TreeItems} (h : ItemsInv s) {n : NodeRef} (ha : (s.t.nodes n).alive = true)
  (hty : (s.t.nodes n).nodeType = .titleNode)
include h ha hty

/-- `DelAll` takes the empty item away. -/
theorem reading : Reading n (if (s.t.nodes n).nodes.isEmpty then s.delAll n else s) := by
  cases he : (s.t.nodes n).nodes.isEmpty with
  | false =>
    rw [if_neg Bool.false_ne_true]
    exact ⟨h.tree, ha, hty, (h.shows n ha hty).reads he, fun m _ => h.shows m⟩
  | true =>
    rw [if_pos rfl]
    have hnode : ∀ m, (s.delAll n).t.nodes m = if m = n then { s.t.nodes n with nodesOrder := [] }
        else s.t.nodes m :=
      Tree.delAll_nodes he
    have hself := (hnode n).trans (if_pos rfl)
    have hitems : ∀ m, (s.delAll n).items m = if m = n then [] else s.items m :=
      fun m => Function.update_apply ..
    refine ⟨h.tree.delAll he, ?_, ?_, ?_, fun m hm hma hmt => ?_⟩
    · rw [hself]; exact ha
    · rw [hself]; exact hty
    · rw [hitems, if_pos rfl]
      refine .empty fun id => ?_
      rw [hself]
      exact (StdMap.isEmpty_iff _).mp he id
    · have hsame := (hnode m).trans (if_neg hm)
      rw [hsame] at hma hmt
      rw [hitems, if_neg hm]
      exact (h.shows m hma hmt).congr (congrArg Node.nodes hsame)

omit h ha hty in
/-- What is filed once the entries are read is listed, or was there before. -/
theorem unlisted_iff {s : TreeItems} (h : Reading n s) (d : Document) {id : Int} {c : NodeRef}
    (hid : id ∉ d.ids) :
    ((d.entries.foldl (TreeItems.parseEntry n d.heading) s).t.nodes n).nodes.find? id = some c ↔
      (s.t.nodes n).nodes.find? id = some c := by
  have hroom : (s.t.nodes n).nodeType ≠ .titleRoom := by rw [h.type]; decide
  rw [TreeItems.parse_t]
  exact Grows.unlisted (d := d) (grows_parse d.heading d.entries h.tree ⟨h.alive, hroom⟩
    fun e he => List.mem_map_of_mem he) hid

omit h ha hty in
/-- The children `DelAll` leaves are those there were. -/
theorem delAll_find? (id : Int) :
    ((if (s.t.nodes n).nodes.isEmpty then s.delAll n else s).t.nodes n).nodes.find? id =
      (s.t.nodes n).nodes.find? id := by
  split
  · rename_i he
    rw [show (s.delAll n).t.nodes n = _ from Tree.delAll_nodes he n, if_pos rfl]
  · rfl

theorem keeps (response : Option Document) (hc : KeepsChildren s (.onItemExpanded n response)) :
    ItemsInv (s.onItemExpanded n response) := by
  have hr := h.reading ha hty
  have hfind := delAll_find? (s := s) (n := n)
  have hend : ∀ s : TreeItems, Reading n s →
      ItemsInv (if (s.t.nodes n).nodes.isEmpty then s.addNull n else s) :=
    fun s hr => by
    refine ⟨?_, hr.shows⟩
    split <;> exact hr.tree
  rw [TreeItems.onItemExpanded]
  generalize (if (s.t.nodes n).nodes.isEmpty then s.delAll n else s) = s₀ at hr hfind
  refine hend _ ?_
  cases response with
  | none => exact hr
  | some d =>
    have hr' := Reading.parse d.heading d.entries hr
    have hk :
        (d.entries.foldl (TreeItems.parseEntry n d.heading) s₀).kickoutRedundantNodes n d.ids =
        d.entries.foldl (TreeItems.parseEntry n d.heading) s₀ := by
      rw [TreeItems.kickoutRedundantNodes, kickout_all]
      intro id c hf
      by_contra hid
      rw [unlisted_iff hr d hid, hfind] at hf
      exact hid (hc id c hf)
    rw [TreeItems.parseXML, hk]
    exact hr'

/-- The item of a child that is left out stays. -/
theorem stale (response : Option Document) (hc : ¬ KeepsChildren s (.onItemExpanded n response)) :
    ¬ ItemsShow (s.onItemExpanded n response) := by
  cases response with
  | none => exact absurd trivial hc
  | some d =>
    simp only [KeepsChildren, not_forall] at hc
    obtain ⟨id, c, hf, hid⟩ := hc
    have hr := h.reading ha hty
    have hfind := delAll_find? (s := s) (n := n)
    intro hshow
    rw [TreeItems.onItemExpanded] at hshow
    generalize (if (s.t.nodes n).nodes.isEmpty then s.delAll n else s) = s₀ at hr hfind hshow
    have hr' := Reading.parse d.heading d.entries hr
    have hf' := (unlisted_iff hr d hid).mpr ((hfind id).trans hf)
    have hitem := (hr'.reads.child c).mpr ⟨id, hf'⟩
    rw [TreeItems.parseXML] at hshow
    generalize d.entries.foldl (TreeItems.parseEntry n d.heading) s₀ = s₁ at hr' hf' hitem hshow
    obtain ⟨hk, -, -, -, hkept⟩ := kickout_removes hr'.tree.toShape n d.ids
    -- the empty item may come, the stale one does not go
    have hstay : some c ∈ (if ((s₁.kickoutRedundantNodes n d.ids).t.nodes n).nodes.isEmpty
        then (s₁.kickoutRedundantNodes n d.ids).addNull n
          else s₁.kickoutRedundantNodes n d.ids).items n := by
      split
      · rw [TreeItems.addNull_items, if_pos rfl]
        exact List.mem_append_left _ hitem
      · exact hitem
    have htree : (if ((s₁.kickoutRedundantNodes n d.ids).t.nodes n).nodes.isEmpty
        then (s₁.kickoutRedundantNodes n d.ids).addNull n else s₁.kickoutRedundantNodes n d.ids).t =
          s₁.t.kickoutRedundantNodes n d.ids := by
      split <;> rfl
    have hshown :=
      hshow n (by rw [htree, hk.owner]; exact hr'.alive)
        (by rw [htree, (hk.same n).1]; exact hr'.type)
    obtain ⟨id', hf''⟩ := (hshown.child c).mp hstay
    rw [htree, hkept] at hf''
    split at hf''
    · rename_i hid'
      obtain rfl := (hr'.tree.id n id c hf').symm.trans (hr'.tree.id n id' c hf'')
      exact hid hid'
    · cases hf''

end ItemsInv

theorem itemStep_cases {s s' : TreeItems} {op : ItemOp} (h : s.step op = some s') :
    ∃ n response, op = .onItemExpanded n response ∧ (s.t.nodes n).alive = true ∧
      (s.t.nodes n).nodeType = .titleNode ∧ s' = s.onItemExpanded n response := by
  cases op with
  | onItemExpanded n response =>
    simp only [TreeItems.step] at h
    split at h
    · rename_i hn
      exact ⟨n, response, rfl, hn.1, hn.2, (Option.some.inj h).symm⟩
    · cases h

theorem item_guarded : itemSys.Guarded KeepsChildren ItemsInv ItemsShow where
  init _ := ItemsInv.launched
  step s op s' h hc hs := by
    obtain ⟨n, response, rfl, ha, hty, rfl⟩ := itemStep_cases hs
    exact h.keeps ha hty response hc
  safe _ h := h.shows
  sharp s op s' h hc hs := by
    obtain ⟨n, response, rfl, ha, hty, rfl⟩ := itemStep_cases hs
    exact h.stale ha hty response hc

/-- **The items are the children** in every state of a run, exactly if no
listing leaves out a child there is. -/
theorem items_mirror_iff {s₀ s : TreeItems} {ms : List (Move TreeItems ItemOp)} (h0 : s₀.Launched)
    (hr : itemSys.Run s₀ ms s) :
    (∀ x ∈ visited s₀ ms, ItemsShow x) ↔ ∀ m ∈ ms, KeepsChildren m.src m.lbl :=
  item_guarded.safe_along_iff h0 hr

/-! ## Two runs -/

/-- The condition as a test. -/
def keepsChildren (s : TreeItems) : ItemOp → Bool
  | .onItemExpanded n (some d) => (s.t.nodes n).nodes.keys.all fun id => id ∈ d.ids
  | .onItemExpanded _ none => true

theorem KeepsChildren.of_test {s : TreeItems} {op : ItemOp} (h : keepsChildren s op = true) :
    KeepsChildren s op := by
  cases op with
  | onItemExpanded n response =>
    cases response with
    | none => trivial
    | some d =>
      intro id c hf
      have hm : id ∈ (s.t.nodes n).nodes.keys := by rw [StdMap.mem_keys_iff, hf]; rfl
      simpa using List.all_eq_true.mp h id hm

def TreeItems.launched : TreeItems := ⟨Titles.launched, fun _ => [none]⟩

theorem TreeItems.launched_launched : TreeItems.launched.Launched :=
  ⟨Tree.launched, fun _ => rfl, fun _ => rfl⟩

/-- A listing of two nodes, no answer, and a listing with one more. -/
def growing : List ItemOp :=
  [.onItemExpanded 0 (some ⟨.staticNode, [⟨5, "a", 1, 0⟩, ⟨6, "b", 2, 0⟩], []⟩),
    .onItemExpanded 0 none,
    .onItemExpanded 0 (some ⟨.staticNode, [⟨6, "b", 2, 0⟩, ⟨7, "c", 3, 0⟩, ⟨5, "a", 1, 0⟩], []⟩)]

theorem items_mirror_iff_growing :
    (exec TreeItems.step TreeItems.launched growing).isSome = true ∧
      ∀ x ∈ visited TreeItems.launched (moves TreeItems.step TreeItems.launched growing),
        ItemsShow x := by
  have hex : (exec TreeItems.step TreeItems.launched growing).isSome = true := by decide +kernel
  have hp : (moves TreeItems.step TreeItems.launched growing).all
      (fun m => keepsChildren m.src m.lbl) = true := by
    decide +kernel
  exact ⟨hex, (items_mirror_iff TreeItems.launched_launched (run_of_exec growing hex)).mpr
    fun m hm => .of_test (List.all_eq_true.mp hp m hm)⟩

/-- The second listing has another node instead. -/
def replacing : List ItemOp :=
  [.onItemExpanded 0 (some ⟨.staticNode, [⟨5, "a", 1, 0⟩], []⟩),
    .onItemExpanded 0 (some ⟨.staticNode, [⟨6, "b", 2, 0⟩], []⟩)]

/-- The item of the node that went carries a deleted node. -/
theorem stale_item : ∃ s c, itemSys.Reachable s ∧ (s.t.nodes 0).alive = true ∧ some c ∈ s.items 0 ∧
    (s.t.nodes c).alive = false ∧ ¬ ItemsShow s := by
  obtain ⟨s, hr, hp⟩ := exists_reachable_of_exec TreeItems.Launched TreeItems.step replacing
    (fun s => (s.t.nodes 0).alive && (s.t.nodes 0).nodeType == .titleNode &&
      s.items 0 == [some 1, some 2] && !(s.t.nodes 1).alive && s.t.children 0 == [2])
      TreeItems.launched_launched (by decide +kernel)
  simp only [Bool.and_eq_true, beq_iff_eq, Bool.not_eq_true'] at hp
  obtain ⟨⟨⟨⟨ha, hty⟩, hitems⟩, hd⟩, hch⟩ := hp
  have hm : some 1 ∈ s.items 0 := by
    rw [hitems]
    exact List.mem_cons_self
  refine ⟨s, 1, hr, ha, hm, hd, fun hshow => ?_⟩
  obtain ⟨id, hf⟩ := ((hshow 0 ha hty).child 1).mp hm
  have hmem := mem_children.mpr ⟨id, hf⟩
  rw [hch] at hmem
  exact absurd hmem (by decide)

end MonitorAgent.L4
