import MonitorAgent.L4Titles.Refresh

/-!
# Replies that are no listings

`ParseXML` returns early if the body does not parse. A body that parses is
read by the name of its first child, `strncmp` looking at the front of the
name only; with any other name no entry is read, and `KickoutRedundantNodes`
runs all the same.

* `unaltered_iff`: the node and all below it stay as they are exactly if the
  body does not parse, or names just the children there are with the values
  they have.
* `errorPage_empties`: an error page deletes the rooms of a node, and takes
  their users off the screens.
-/
namespace MonitorAgent.L4

open L3 Titles

/-- mirrors Monitor/Monitor/TitleNode.cpp:73-74 -/
def XML_STATIC_NODE : String := "static_node"

/-- mirrors Monitor/Monitor/TitleNode.cpp:75 -/
def XML_DYNAMIC_NODE : String := "dynamic_node"

/-- The first child of a document: its name, and the attributes of its `node`
and its `room_node` elements. A document without children gives the empty
name. -/
structure FirstChild where
  name : String
  nodes : List Entry
  roomNodes : List Entry

/-- `strncmp(name, heading, strlen(heading)) == 0`, for the two headings.
mirrors Monitor/Monitor/TitleNode.cpp:85 and 113 -/
def nameHeading (name : String) : Heading :=
  if XML_STATIC_NODE.toList.isPrefixOf name.toList then .staticNode
  else if XML_DYNAMIC_NODE.toList.isPrefixOf name.toList then .dynamicNode
  else .other

/-- The document as `ParseXML` reads it. -/
def FirstChild.document (x : FirstChild) : Document := ⟨nameHeading x.name, x.nodes, x.roomNodes⟩

/-- A `static_node` or a `dynamic_node` element. -/
def FirstChild.IsListing (x : FirstChild) : Prop :=
  x.name = XML_STATIC_NODE ∨ x.name = XML_DYNAMIC_NODE

instance (x : FirstChild) : Decidable x.IsListing := inferInstanceAs (Decidable (_ ∨ _))

/-- `ParseXML` on a body; `none` does not parse.
mirrors Monitor/Monitor/TitleNode.cpp:81-85 -/
def Titles.parseBody (t : Titles) (n : NodeRef) (body : Option FirstChild) : Titles :=
  t.parseXML n (body.map FirstChild.document)

/-- The node's indexes and everything below it are as before. -/
structure Unaltered (t : Titles) (n : NodeRef) (t' : Titles) : Prop where
  nodes : (t'.nodes n).nodes = (t.nodes n).nodes
  nodesOrder : (t'.nodes n).nodesOrder = (t.nodes n).nodesOrder
  below : ∀ r, (t.nodes r).alive = true → Below t n r → t'.nodes r = t.nodes r ∧
    t'.w.rooms r = t.w.rooms r
  users : t'.w.users = t.w.users
  screens : t'.w.screens = t.w.screens

/-- The document says what the node has: every child is listed, and every id
listed is a child with the values it is listed with last. -/
structure Confirms (t : Titles) (n : NodeRef) (d : Document) : Prop where
  listed : ∀ id c, (t.nodes n).nodes.find? id = some c → id ∈ d.ids
  filed : ∀ id ∈ d.ids, ∃ c e, (t.nodes n).nodes.find? id = some c ∧
    lastListed d.entries id = some e ∧ e.Describes (t.nodes c)

/-! ## Entries of children there are -/

/-- A node with the values its id is listed with last, if it is the child filed
under it. -/
def overlay (t : Titles) (n : NodeRef) (es : List Entry) (m : NodeRef) : Node :=
  match lastListed es (t.nodes m).id with
  | none => t.nodes m
  | some e =>
    if (t.nodes n).nodes.find? (t.nodes m).id = some m then
      { t.nodes m with name := e.name, order := e.order, usercount := e.usercount }
    else t.nodes m

theorem overlay_samePlace (t : Titles) (n : NodeRef) (es : List Entry) (m : NodeRef) :
    SamePlace (overlay t n es m) (t.nodes m) := by
  unfold overlay
  split
  · exact ⟨rfl, rfl, rfl, rfl, rfl, rfl⟩
  · split <;> exact ⟨rfl, rfl, rfl, rfl, rfl, rfl⟩

theorem Titles.SamePlace.with_values {x y : Node} (h : SamePlace x y) (name : String)
    (order usercount : Nat) :
    { x with name := name, order := order, usercount := usercount } =
      { y with name := name, order := order, usercount := usercount } := by
  rw [h.nodeType, h.id, h.nodes, h.nodesOrder, h.parentItem, h.alive]

/-- Only children there are get updated. -/
theorem parse_overlay {t : Titles} (h : Tree t) (n : NodeRef) (heading : Heading) (es : List Entry)
    (hes : ∀ e ∈ es, ∃ c, (t.nodes n).nodes.find? e.id = some c) :
    es.foldl (parseEntry n heading) t = { t with nodes := overlay t n es } := by
  induction es using List.reverseRecOn with
  | nil => rfl
  | append_singleton es e ih =>
    rw [List.foldl_append, List.foldl_cons, List.foldl_nil,
      ih fun e' he' => hes e' (List.mem_append_left _ he')]
    obtain ⟨c, hf⟩ := hes e (List.mem_append_right _ List.mem_cons_self)
    have hid := h.id n e.id c hf
    have hget : getNodeOrRoom { t with nodes := overlay t n es } n e.id = some c := by
      rw [getNodeOrRoom, show (({ t with nodes := overlay t n es } : Titles).nodes n).nodes = _ from
        (overlay_samePlace t n es n).nodes, hf]
    have hover : ∀ m, overlay t n (es ++ [e]) m = if m = c then
        { overlay t n es c with name := e.name, order := e.order, usercount := e.usercount }
          else overlay t n es m := by
      intro m
      by_cases hm : m = c
      · subst hm
        have hl : lastListed (es ++ [e]) (t.nodes m).id = some e := by
          rw [lastListed_append, if_pos hid.symm]
        have hf' : (t.nodes n).nodes.find? (t.nodes m).id = some m := by rw [hid]; exact hf
        rw [if_pos rfl, overlay, hl]
        dsimp only
        rw [if_pos hf', (overlay_samePlace t n es m).with_values]
      · rw [if_neg hm, overlay, overlay, lastListed_append]
        by_cases he : e.id = (t.nodes m).id
        · have hne : (t.nodes n).nodes.find? (t.nodes m).id ≠ some m := by
            rw [← he, hf]
            exact fun e' => hm (Option.some.inj e').symm
          rw [if_pos he]
          simp only [if_neg hne]
          split <;> rfl
        · rw [if_neg he]
    unfold parseEntry
    rw [hget]
    have hnodes :
        (({ t with nodes := overlay t n es } : Titles).update c e.name e.order e.usercount).nodes =
          overlay t n (es ++ [e]) := by
      funext m
      rw [hover, Titles.update, modifyNode_nodes]
    exact congrArg (fun nodes => ({ t with nodes := nodes } : Titles)) hnodes

/-- A listing that says what there is changes nothing. -/
theorem Confirms.parseXML {t : Titles} (h : Tree t) {n : NodeRef} {d : Document}
    (hd : Confirms t n d) :
    t.parseXML n (some d) = t := by
  have hover : overlay t n d.entries = t.nodes := by
    funext m
    unfold overlay
    split
    · rfl
    · rename_i e he
      split
      · rename_i hf
        have hid : (t.nodes m).id ∈ d.ids := hd.listed _ m hf
        obtain ⟨c, e', hf', he', hdesc⟩ := hd.filed _ hid
        cases hf.symm.trans hf'
        cases he.symm.trans he'
        obtain ⟨hname, horder, hcount⟩ := hdesc
        rw [← hname, ← horder, ← hcount]
      · rfl
  have hparse := parse_overlay h n d.heading d.entries fun e he =>
    (hd.filed e.id (List.mem_map_of_mem he)).imp fun c hc => hc.choose_spec.1
  rw [hover] at hparse
  rw [Titles.parseXML, hparse]
  exact kickout_all hd.listed

/-- With another heading nothing is read, so the node must have no children. -/
theorem confirms_other_iff {t : Titles} {n : NodeRef} {d : Document} (hd : d.heading = .other) :
    Confirms t n d ↔ (t.nodes n).nodes.isEmpty = true := by
  have hids : d.ids = [] := by rw [Document.ids, Document.entries, hd]; rfl
  rw [StdMap.isEmpty_iff]
  constructor
  · intro hc id
    cases hf : (t.nodes n).nodes.find? id with
    | none => rfl
    | some c =>
      have hid := hc.listed id c hf
      rw [hids] at hid
      cases hid
  · intro he
    refine ⟨fun id c hf => ?_, fun id hid => ?_⟩
    · rw [he] at hf
      cases hf
    · rw [hids] at hid
      cases hid

/-- **When a reply leaves a node alone**: it does not parse, or says what there
is; under a foreign name, that there is nothing. -/
theorem unaltered_iff {t : Titles} {n : NodeRef} (h : Tree t) (hw : Bij t.w)
    (ha : (t.nodes n).alive = true) (hty : (t.nodes n).nodeType = .titleNode)
    (body : Option FirstChild) :
    (Unaltered t n (t.parseBody n body) ↔ ∀ x ∈ body, Confirms t n x.document) ∧
      ∀ x ∈ body, nameHeading x.name = .other →
        (Confirms t n x.document ↔ (t.nodes n).nodes.isEmpty = true) := by
  refine ⟨?_, fun x _ hx => confirms_other_iff hx⟩
  cases body with
  | none => exact iff_of_true ⟨rfl, rfl, fun _ _ _ => ⟨rfl, rfl⟩, rfl, rfl⟩ nofun
  | some x =>
    have hx : (∀ y ∈ some x, Confirms t n y.document) ↔ Confirms t n x.document :=
      ⟨fun hc => hc x rfl, fun hc y hy => by cases hy; exact hc⟩
    rw [hx, Titles.parseBody, Option.map_some]
    constructor
    · intro hu
      obtain ⟨hfst, hr⟩ := parseXML_refreshed h hw ha hty x.document
      refine ⟨fun id c hf => ?_, fun id hid => ?_⟩
      · rw [← hr.keys, StdMap.mem_keys_iff, hfst, hu.nodes, hf]
        rfl
      · rw [← hr.keys, StdMap.mem_keys_iff] at hid
        obtain ⟨c, hf⟩ := Option.isSome_iff_exists.mp hid
        obtain ⟨-, e, he, hdesc⟩ := hr.values id c hf
        rw [hfst] at hf hdesc
        rw [hu.nodes] at hf
        have hp := h.parent n id c hf
        rw [hty, if_neg (by decide)] at hp
        rw [(hu.below c (h.down n id c ha hf) (.child hp)).1] at hdesc
        exact ⟨c, e, hf, he, hdesc⟩
    · intro hc
      rw [hc.parseXML h]
      exact ⟨rfl, rfl, fun _ _ _ => ⟨rfl, rfl⟩, rfl, rfl⟩

/-- A name that only starts like a listing's is read as one, and says here what
there is. -/
theorem unaltered_watchedRoom : Unaltered watchedRoom 0
    (watchedRoom.parseBody 0 (some ⟨"dynamic_nodes", [], [⟨8, "b", 2, 0⟩, ⟨9, "a", 1, 0⟩]⟩)) := by
  have hrooms : (watchedRoom.nodes 0).nodes.entries = [(8, 2), (9, 1)] := by decide +kernel
  refine (unaltered_iff watchedRoom_tree watchedRoom_bij (by decide +kernel)
    (by decide +kernel) _).1.mpr
    fun x hx => ?_
  cases hx
  refine ⟨fun id c hf => ?_, fun id hid => ?_⟩
  · have hm := (StdMap.mem_entries_iff _ id c).mpr hf
    rw [hrooms] at hm
    simp only [List.mem_cons, Prod.mk.injEq, List.not_mem_nil, or_false] at hm
    rcases hm with ⟨rfl, -⟩ | ⟨rfl, -⟩ <;> decide +kernel
  · have hm : id ∈ [(8 : Int), 9] := hid
    simp only [List.mem_cons, List.not_mem_nil, or_false] at hm
    rcases hm with rfl | rfl
    · exact ⟨2, ⟨8, "b", 2, 0⟩,
        by decide +kernel, by decide +kernel, by decide +kernel, by decide +kernel,
          by decide +kernel⟩
    · exact ⟨1, ⟨9, "a", 1, 0⟩,
        by decide +kernel, by decide +kernel, by decide +kernel, by decide +kernel,
          by decide +kernel⟩

/-- An error page: the rooms of the node are deleted, and the screen that showed
a user of one goes idle. -/
theorem errorPage_empties :
    ∃ (t : Titles) (n : NodeRef) (x : FirstChild), Tree t ∧ Bij t.w ∧ (t.nodes n).alive = true ∧
    (t.nodes n).nodeType = .titleNode ∧ ¬ x.IsListing ∧ ¬ Unaltered t n (t.parseBody n (some x)) ∧
    (t.w.screens 3).user = some 0 ∧ ((t.parseBody n (some x)).w.screens 3).user = none := by
  refine ⟨watchedRoom, 0, ⟨"html", [], []⟩, watchedRoom_tree, watchedRoom_bij,
    by decide +kernel, by decide +kernel,
    by decide +kernel, fun hu => ?_, by decide +kernel, by decide +kernel⟩
  have hs := congrFun hu.screens 3
  have hne : (watchedRoom.parseBody 0
      (some ⟨"html", [], []⟩)).w.screens 3 ≠ watchedRoom.w.screens 3 := by decide +kernel
  exact hne hs

end MonitorAgent.L4
