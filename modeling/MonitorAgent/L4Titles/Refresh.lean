import Mathlib.Data.List.Induction
import MonitorAgent.L3Wall.Bijection
import MonitorAgent.L4Titles.ChildIndex
import MonitorAgent.L4Titles.Deletions
import MonitorAgent.L4Titles.Listing

/-!
# Refreshing a listing

`ParseXML` updates the children a listing names, adds the new ones and kicks
out the others, in one pass over the document and one over `nodes_`.

* `parseXML_refreshed`: the children are then those listed, with the values of
  their last entries; the objects of old children stay, and what is not listed
  is deleted once with all below it.
-/
namespace MonitorAgent.L4

open L3 Titles

/-- The entry an id has last in a listing. -/
def lastListed (es : List Entry) (id : Int) : Option Entry := es.reverse.find? fun e => e.id == id

@[simp] theorem lastListed_nil (id : Int) : lastListed [] id = none := rfl

theorem lastListed_append (es : List Entry) (e : Entry) (id : Int) :
    lastListed (es ++ [e]) id = if e.id = id then some e else lastListed es id := by
  rw [lastListed, List.reverse_append, List.reverse_singleton, List.singleton_append,
    List.find?_cons]
  by_cases he : e.id = id
  · rw [if_pos he, beq_iff_eq.mpr he]
  · rw [if_neg he, beq_eq_false_iff_ne.mpr he, lastListed]

theorem lastListed_isSome {es : List Entry} {id : Int} :
    (lastListed es id).isSome = true ↔ id ∈ es.map Entry.id := by
  rw [lastListed, List.find?_isSome, List.mem_map]
  simp only [List.mem_reverse, beq_iff_eq]

/-- What the entry says of the node. -/
def Entry.Describes (e : Entry) (x : Node) : Prop :=
  x.name = e.name ∧ x.order = e.order ∧ x.usercount = e.usercount

/-! ## The loop over the entries -/

/-- The children of `n` once the entries are read, on an unchanged wall. -/
structure Listed (n : NodeRef) (t : Titles) (es : List Entry) (t' : Titles) : Prop where
  keys : ∀ id, ((t'.nodes n).nodes.find? id).isSome = true ↔
    ((t.nodes n).nodes.find? id).isSome = true ∨ id ∈ es.map Entry.id
  values : ∀ id c e, (t'.nodes n).nodes.find? id = some c → lastListed es id = some e →
    e.Describes (t'.nodes c)
  seats : t'.w.screens = t.w.screens ∧ t'.w.users = t.w.users ∧ t'.w.nextUser = t.w.nextUser

section Parse

variable {t t' : Titles} {n : NodeRef} {es : List Entry} {e : Entry} (h : Listed n t es t')
  (ht : Tree t')
include h ht

/-- An id that is filed. -/
theorem Listed.update {c : NodeRef} (hf : (t'.nodes n).nodes.find? e.id = some c) :
    Listed n t (es ++ [e]) (t'.update c e.name e.order e.usercount) := by
  have hnode := t'.update_samePlace c e.name e.order e.usercount
  refine ⟨fun id => ?_, fun id c' e' hf' he => ?_, h.seats⟩
  · rw [(hnode n).nodes, h.keys, List.map_append, List.map_singleton, List.mem_append,
      List.mem_singleton]
    refine or_congr_right' fun hnone => (or_iff_left_of_imp ?_).symm
    rintro rfl
    have hs : ((t'.nodes n).nodes.find? e.id).isSome = true := by rw [hf]; rfl
    exact ((h.keys e.id).mp hs).resolve_left hnone
  · rw [(hnode n).nodes] at hf'
    rw [lastListed_append] at he
    rw [Titles.update, modifyNode_nodes]
    by_cases hid : e.id = id
    · subst hid
      rw [if_pos rfl] at he
      cases he
      cases hf.symm.trans hf'
      rw [if_pos rfl]
      exact ⟨rfl, rfl, rfl⟩
    · rw [if_neg hid] at he
      rw [if_neg]
      · exact h.values id c' e' hf' he
      · rintro rfl
        exact hid ((ht.id n e.id c' hf).symm.trans (ht.id n id c' hf'))

/-- A new id. -/
theorem Listed.addChild (hn : (t'.nodes n).alive = true) (heading : Heading)
    (hf : (t'.nodes n).nodes.find? e.id = none) :
    Listed n t (es ++ [e]) (t'.addChild n heading e) := by
  have hlt := ht.inUse n hn
  have hfind := ht.addChild_find? hlt heading hf
  have hself := Shape.addChild_self (t := t') hlt heading (e := e)
  have hw : (t'.addChild n heading e).w.screens = t'.w.screens ∧
      (t'.addChild n heading e).w.users = t'.w.users ∧
      (t'.addChild n heading e).w.nextUser = t'.w.nextUser := by
    rw [addChild_w hlt]
    split <;> exact ⟨rfl, rfl, rfl⟩
  refine ⟨fun id => ?_, fun id c' e' hf' he => ?_, hw.1.trans h.seats.1, hw.2.1.trans h.seats.2.1,
    hw.2.2.trans h.seats.2.2⟩
  · rw [hfind, List.map_append, List.map_singleton, List.mem_append, List.mem_singleton, ← or_assoc,
      ← h.keys]
    by_cases hid : id = e.id
    · rw [if_pos ⟨rfl, hid⟩]
      exact iff_of_true rfl (.inr hid)
    · rw [if_neg fun hc => hid hc.2, or_iff_left hid]
  · rw [hfind] at hf'
    rw [lastListed_append] at he
    by_cases hid : e.id = id
    · subst hid
      rw [if_pos rfl] at he
      rw [if_pos ⟨rfl, rfl⟩] at hf'
      cases he
      cases hf'
      rw [hself]
      exact ⟨rfl, rfl, rfl⟩
    · rw [if_neg hid] at he
      rw [if_neg fun hc => hid hc.2.symm] at hf'
      have hc := ht.child n id c' hf'
      rw [addChild_nodes t' n heading e (Nat.ne_of_lt hlt), if_neg (Nat.ne_of_gt hc.1),
        if_neg (Nat.ne_of_lt hc.2)]
      exact h.values id c' e' hf' he

end Parse

theorem listed_parse {t : Titles} (h : Tree t) {n : NodeRef} (hn : (t.nodes n).alive = true ∧
    (t.nodes n).nodeType ≠ .titleRoom) (heading : Heading) (es : List Entry) :
    Listed n t es (es.foldl (parseEntry n heading) t) := by
  induction es using List.reverseRecOn with
  | nil => exact ⟨fun id => by simp, fun id c e _ he => (nomatch he), rfl, rfl, rfl⟩
  | append_singleton es e ih =>
    have hg : Grows n heading (es.map Entry.id) t (es.foldl (parseEntry n heading) t) :=
      grows_parse heading es h hn fun e' he' => List.mem_map_of_mem he'
    rw [List.foldl_append, List.foldl_cons, List.foldl_nil]
    generalize es.foldl (parseEntry n heading) t = t' at ih hg
    unfold parseEntry
    split
    · exact ih.update hg.tree ‹_›
    · exact ih.addChild hg.tree hg.reader.1 heading ‹_›

/-! ## What is left after the kicking out -/

/-- A relation across the teardown of each room holds across the kicking out. -/
theorem kickout_along {R : World → World → Prop} (hrefl : ∀ w, R w w)
    (htrans : ∀ {w w' w'' : World}, R w w' → R w' w'' → R w w'')
    (hdestory : ∀ w r, R w (w.onDestory r)) (t : Titles) (n : NodeRef) (ids : List Int) :
    R t.w (t.kickoutRedundantNodes n ids).w := by
  have hgo : ∀ (fuel : Nat) (t : Titles) (c : NodeRef), R t.w (t.onDestoryGo fuel c).w :=
    fun fuel => by
    induction fuel with
    | zero => exact fun t _ => hrefl t.w
    | succ fuel ih =>
      have hfold : ∀ (cs : List NodeRef) (t : Titles),
          R t.w (cs.foldl (fun t c => (t.onDestoryGo fuel c).delete c) t).w := fun cs => by
        induction cs with
        | nil => exact fun t => hrefl t.w
        | cons c cs ih' => exact fun t => htrans (ih t c) (ih' ((t.onDestoryGo fuel c).delete c))
      intro t c
      unfold Titles.onDestoryGo
      cases (t.nodes c).nodeType with
      | titleNode => exact hfold (t.children c) t
      | titleRoom => exact hdestory t.w c
      | title => exact hrefl t.w
      | titleUser => exact hrefl t.w
  have hfold : ∀ (es : List (Int × NodeRef)) (t : Titles),
      R t.w (es.foldl (Titles.kickout n ids) t).w := fun es => by
    induction es with
    | nil => exact fun t => hrefl t.w
    | cons e es ih =>
      intro t
      refine htrans ?_ (ih (Titles.kickout n ids t e))
      unfold Titles.kickout
      split
      · exact hrefl t.w
      · exact hgo _ (t.modifyNode n fun x => { x with nodes := x.nodes.erase e.1 }) e.2
  exact hfold _ t

/-- A relation across every change the teardown of a room is made of holds
across the kicking out. -/
theorem kickout_frame {R : World → World → Prop} (h : L3.TeardownFrame R) (t : Titles) (n : NodeRef)
    (ids : List Int) : R t.w (t.kickoutRedundantNodes n ids).w :=
  kickout_along h.refl h.trans h.onDestory t n ids

/-- `parseXML`, with notes. -/
def Noting.parseXML (t : Titles) (n : NodeRef) : Option Document → Noting
  | none => (t, [])
  | some d => Noting.kickoutRedundantNodes (d.entries.foldl (parseEntry n d.heading) t) n d.ids

theorem Noting.parseXML_fst (t : Titles) (n : NodeRef) (response : Option Document) :
    (Noting.parseXML t n response).1 = t.parseXML n response := by
  cases response with
  | none => rfl
  | some d => exact Noting.kickoutRedundantNodes_fst _ n d.ids

/-- The children of `n` and what was deleted, after a listing. -/
structure Refreshed (t : Titles) (n : NodeRef) (d : Document) (s : Noting) : Prop where
  keys : ∀ id, id ∈ (s.1.nodes n).nodes.keys ↔ id ∈ d.ids
  values : ∀ id c, (s.1.nodes n).nodes.find? id = some c →
    (s.1.nodes c).alive = true ∧ ∃ e, lastListed d.entries id = some e ∧ e.Describes (s.1.nodes c)
  present : ∀ id c, (t.nodes n).nodes.find? id = some c → id ∈ d.ids →
    (s.1.nodes n).nodes.find? id = some c
  new : ∀ id ∈ d.ids, (t.nodes n).nodes.find? id = none →
    ∃ c, t.nextNode ≤ c ∧ (s.1.nodes n).nodes.find? id = some c
  made : ∀ c, t.nextNode ≤ c → c < s.1.nextNode →
    ∃ id ∈ d.ids, (t.nodes n).nodes.find? id = none ∧ (s.1.nodes n).nodes.find? id = some c
  once : s.2.Nodup
  dead : ∀ r ∈ s.2, (s.1.nodes r).alive = false
  destroyed : ∀ r, r ∈ s.2 ↔ (t.nodes r).alive = true ∧
    ∃ id c, (t.nodes n).nodes.find? id = some c ∧ id ∉ d.ids ∧ (r = c ∨ Below t c r)
  rooms : ∀ r ∈ s.2, (t.nodes r).nodeType = .titleRoom →
    (∀ k, (s.1.w.rooms r).users.find? k = none) ∧
      ∀ k u x, (t.w.rooms r).users.find? k = some u → (t.w.users u).screen = some x →
        (s.1.w.screens x).user = none ∧ (s.1.w.screens x).mediaActive = false

section Refresh

variable {t t₁ : Titles} {n : NodeRef} {d : Document} (h : Tree t)
  (hg : Grows n d.heading d.ids t t₁) (hn : n < t.nextNode)
include hg

/-- The children that go are old ones. -/
theorem Grows.unlisted {id : Int} {c : NodeRef} (hid : id ∉ d.ids) :
    (t₁.nodes n).nodes.find? id = some c ↔ (t.nodes n).nodes.find? id = some c := by
  refine ⟨fun hf => (hg.adds id c hf).resolve_right fun hle => ?_, hg.keeps n id c⟩
  obtain ⟨id', hid', hf'⟩ := (hg.new c hle (hg.tree.child n id c hf).2).2.2.1
  obtain rfl := (hg.tree.id n id c hf).symm.trans (hg.tree.id n id' c hf')
  exact hid hid'

include h in
/-- What is below a node in use stays below it, and nothing else comes there. -/
theorem Grows.below_iff {c r : NodeRef} (hr : r < t.nextNode) : Below t₁ c r ↔ Below t c r := by
  have hp := fun m hm => (hg.old m hm).2.2.1
  exact ⟨fun hb => hb.congr hg.tree.climbs (fun m hm => (hp m hm).symm) hr,
    fun hb => hb.congr h.climbs hp hr⟩

include h hn in
/-- The subtrees that go are old ones. -/
theorem Grows.doomed_iff (hty : (t.nodes n).nodeType = .titleNode) (r : NodeRef) :
    ((t₁.nodes r).alive = true ∧ ∃ id c, (t₁.nodes n).nodes.find? id = some c ∧ id ∉ d.ids ∧
        (r = c ∨ Below t₁ c r)) ↔
      (t.nodes r).alive = true ∧ ∃ id c, (t.nodes n).nodes.find? id = some c ∧ id ∉ d.ids ∧
        (r = c ∨ Below t c r) := by
  constructor
  · rintro ⟨hr, id, c, hf, hid, hrc⟩
    rw [hg.unlisted hid] at hf
    have hlt : r < t.nextNode := by
      by_contra hge
      -- a new node hangs under `n`, which is below no child of its own
      rcases hrc with rfl | hb
      · exact hge (h.child n id r hf).2
      · obtain ⟨id', -, hf'⟩ := (hg.new r (Nat.not_lt.mp hge) (hg.tree.inUse r hr)).2.2.1
        have hp := hg.tree.parent n id' r hf'
        rw [(hg.old n hn).1, hty, if_neg (by decide)] at hp
        have hnc := (h.child n id c hf).1
        rcases (L4.below_iff hp).mp hb with rfl | hb
        · exact absurd hnc (Nat.lt_irrefl _)
        · exact Nat.lt_asymm hnc (hg.tree.climbs.lt hb)
    rw [(hg.old r hlt).2.1] at hr
    rw [hg.below_iff h hlt] at hrc
    exact ⟨hr, id, c, hf, hid, hrc⟩
  · rintro ⟨hr, id, c, hf, hid, hrc⟩
    have hlt := h.inUse r hr
    rw [← hg.below_iff h hlt] at hrc
    rw [← (hg.old r hlt).2.1] at hr
    exact ⟨hr, id, c, hg.keeps n id c hf, hid, hrc⟩

end Refresh

/-- A user whose room has lost it is on no screen any more. -/
theorem kickout_idle {t : Titles} (h : Tree t) (hw : Bij t.w) (n : NodeRef) (ids : List Int)
    {r : NodeRef} (he : ∀ k, ((t.kickoutRedundantNodes n ids).w.rooms r).users.find? k = none)
    {k : Int} {u : UserRef}
    (hf : (t.w.rooms r).users.find? k = some u) {x : ScreenRef}
    (hx : (t.w.users u).screen = some x) :
    ((t.kickoutRedundantNodes n ids).w.screens x).user = none ∧
      ((t.kickoutRedundantNodes n ids).w.screens x).mediaActive = false := by
  have hsteps := (kickout_removes h.toShape n ids).1.wall hw
  have hs := (hw.paired x u (hw.filed r k u hf).1).mpr hx
  refine (kickout_frame Fades.teardownFrame t n ids).idle hw hsteps hf (fun e => ?_) hs
  rw [he] at e
  cases e

/-! ## The children after a listing -/

section Kicked

variable {t t₁ : Titles} {n : NodeRef} {d : Document} (h : Tree t)
  (hg : Grows n d.heading d.ids t t₁)
  (hl : Listed n t d.entries t₁)

/-- What is listed is filed once the entries are read. -/
theorem Listed.filed (hl : Listed n t d.entries t₁) {id : Int} (hid : id ∈ d.ids) :
    ∃ c, (t₁.nodes n).nodes.find? id = some c :=
  Option.isSome_iff_exists.mp ((hl.keys id).mpr (.inr hid))

include hg

/-- The kicking out leaves what is listed. -/
theorem kicked_find? (id : Int) : ((t₁.kickoutRedundantNodes n d.ids).nodes n).nodes.find? id =
    if id ∈ d.ids then (t₁.nodes n).nodes.find? id else none :=
  (kickout_removes hg.tree.toShape n d.ids).2.2.2.2 id

include hl in
theorem kicked_keys (id : Int) :
    id ∈ ((t₁.kickoutRedundantNodes n d.ids).nodes n).nodes.keys ↔ id ∈ d.ids := by
  rw [StdMap.mem_keys_iff, kicked_find? hg]
  split
  · rename_i hid
    obtain ⟨c, hc⟩ := hl.filed hid
    exact iff_of_true (Option.isSome_iff_exists.mpr ⟨c, hc⟩) hid
  · rename_i hid
    exact iff_of_false nofun hid

include hl in
/-- A child has the values of its last entry. -/
theorem kicked_values {id : Int} {c : NodeRef}
    (hf : ((t₁.kickoutRedundantNodes n d.ids).nodes n).nodes.find? id = some c) :
    ((t₁.kickoutRedundantNodes n d.ids).nodes c).alive = true ∧
      ∃ e, lastListed d.entries id = some e ∧
        e.Describes ((t₁.kickoutRedundantNodes n d.ids).nodes c) := by
  have hk := (kickout_removes hg.tree.toShape n d.ids).1
  have htree := hg.tree.kickout hg.reader.1 d.ids
  have hca := htree.down n id c (hk.owner.trans hg.reader.1) hf
  have hcn := Nat.ne_of_gt (htree.child n id c hf).1
  rw [kicked_find? hg] at hf
  split at hf
  · rename_i hid
    obtain ⟨e, he⟩ := Option.isSome_iff_exists.mp (lastListed_isSome.mpr hid)
    rw [hk.kept c hcn hca]
    exact ⟨hk.alive hca, e, he, hl.values id c e hf he⟩
  · cases hf

include hl in
/-- A new id has a new child. -/
theorem kicked_new {id : Int} (hid : id ∈ d.ids) (hnew : (t.nodes n).nodes.find? id = none) :
    ∃ c, t.nextNode ≤ c ∧ ((t₁.kickoutRedundantNodes n d.ids).nodes n).nodes.find? id = some c := by
  obtain ⟨c, hc⟩ := hl.filed hid
  refine ⟨c, (hg.adds id c hc).resolve_left fun hf => ?_, ?_⟩
  · rw [hnew] at hf
    cases hf
  · rw [kicked_find? hg, if_pos hid]
    exact hc

include h in
/-- A node that was created is the child of a new id. -/
theorem kicked_made {c : NodeRef} (hle : t.nextNode ≤ c)
    (hlt : c < (t₁.kickoutRedundantNodes n d.ids).nextNode) :
    ∃ id ∈ d.ids, (t.nodes n).nodes.find? id = none ∧
      ((t₁.kickoutRedundantNodes n d.ids).nodes n).nodes.find? id = some c := by
  rw [(kickout_removes hg.tree.toShape n d.ids).1.nextNode] at hlt
  obtain ⟨id, hid, hf⟩ := (hg.new c hle hlt).2.2.1
  refine ⟨id, hid, ?_, ?_⟩
  · cases ho : (t.nodes n).nodes.find? id with
    | none => rfl
    | some c' =>
      cases (hg.keeps n id c' ho).symm.trans hf
      exact absurd (h.child n id c ho).2 (Nat.not_lt.mpr hle)
  · rw [kicked_find? hg, if_pos hid]
    exact hf

end Kicked

/-- **A listing synchronises the children**, and what it deletes is deleted
once. -/
theorem parseXML_refreshed {t : Titles} {n : NodeRef} (h : Tree t) (hw : Bij t.w)
    (ha : (t.nodes n).alive = true) (hty : (t.nodes n).nodeType = .titleNode) (d : Document) :
    (Noting.parseXML t n (some d)).1 = t.parseXML n (some d) ∧
      Refreshed t n d (Noting.parseXML t n (some d)) := by
  refine ⟨Noting.parseXML_fst t n (some d), ?_⟩
  have hroom : (t.nodes n).nodeType ≠ .titleRoom := by rw [hty]; decide
  have hl := listed_parse h ⟨ha, hroom⟩ d.heading d.entries
  have hg : Grows n d.heading d.ids t (d.entries.foldl (parseEntry n d.heading) t) :=
    grows_parse d.heading d.entries h ⟨ha, hroom⟩ fun e he => List.mem_map_of_mem he
  rw [Noting.parseXML]
  generalize d.entries.foldl (parseEntry n d.heading) t = t₁ at hl hg
  have hnoted := kickoutRedundantNodes_noted hg.tree (hg.bij hw) hg.reader.1 d.ids
  have hfst := Noting.kickoutRedundantNodes_fst t₁ n d.ids
  have hk := (kickout_removes hg.tree.toShape n d.ids).1
  have hdoomed : ∀ r, r ∈ (Noting.kickoutRedundantNodes t₁ n d.ids).2 ↔ (t.nodes r).alive = true ∧
      ∃ id c, (t.nodes n).nodes.find? id = some c ∧ id ∉ d.ids ∧ (r = c ∨ Below t c r) :=
        fun r => by
    rw [← hg.doomed_iff h (h.inUse n ha) hty r, hnoted.mem, hfst]
    exact and_congr_right fun hr => hg.tree.kickout_dead_iff hg.reader.1 d.ids hr
  refine ⟨fun id => ?_, fun id c hf => ?_, fun id c hf hid => ?_, fun id hid hnew => ?_,
    fun c hle hlt => ?_,
    hnoted.nodup, fun r hr => ((hnoted.mem r).mp hr).2, hdoomed, fun r hr hrt => ?_⟩
  · rw [hfst]
    exact kicked_keys hg hl id
  · rw [hfst] at hf ⊢
    exact kicked_values hg hl hf
  · rw [hfst, kicked_find? hg, if_pos hid]
    exact hg.keeps n id c hf
  · rw [hfst]
    exact kicked_new hg hl hid hnew
  · rw [hfst] at hlt ⊢
    exact kicked_made h hg hle hlt
  · have hlt := h.inUse r ((hdoomed r).mp hr).1
    have hrt' : ((Noting.kickoutRedundantNodes t₁ n d.ids).1.nodes r).nodeType = .titleRoom := by
      rw [hfst, (hk.same r).1, (hg.old r hlt).1]
      exact hrt
    have he := hnoted.empty r hr hrt'
    refine ⟨he, fun k u x hf hx => ?_⟩
    rw [hfst] at he ⊢
    rw [← (hg.old r hlt).2.2.2] at hf
    rw [← hl.seats.2.1] at hx
    exact kickout_idle hg.tree (hg.bij hw) n d.ids he hf hx

/-! ## A node with two rooms -/

theorem Tree.launched : Tree Titles.launched where
  child _ _ _ := nofun
  type _ _ _ := nofun
  id _ _ _ := nofun
  one _ _ _ _ _ := nofun
  leaf _ _ _ := rfl
  parent _ _ _ := nofun
  down _ _ _ _ := nofun
  up _ _ _ _ := nofun
  filed _ _ _ := nofun
  climbs _ _ := nofun
  inUse := Titles.launched_launched.alive

theorem parseXML_bij {t : Titles} {n : NodeRef} (h : Tree t) (hw : Bij t.w)
    (hn : (t.nodes n).alive = true ∧ (t.nodes n).nodeType ≠ .titleRoom)
    (response : Option Document) :
    Bij (t.parseXML n response).w := by
  cases response with
  | none => exact hw
  | some d =>
    have hg : Grows n d.heading d.ids t (d.entries.foldl (parseEntry n d.heading) t) :=
      grows_parse d.heading d.entries h hn fun e he => List.mem_map_of_mem he
    exact (hg.bij hw).steps ((kickout_removes hg.tree.toShape n d.ids).1.wall (hg.bij hw))

/-- The rooms 9 and 8 under node 0. -/
def twoRooms : Titles :=
  Titles.launched.parseXML 0 (some ⟨.dynamicNode, [], [⟨9, "a", 1, 0⟩, ⟨8, "b", 2, 0⟩]⟩)

/-- A user of room 9 is on screen 3. -/
def watchedRoom : Titles :=
  { twoRooms with w := ((twoRooms.w.addUser 1 7 1).1.connectUser 3 (some 0)).1 }

theorem watchedRoom_tree : Tree watchedRoom :=
  (Tree.launched.parseXML (n := 0) rfl (by decide) _).wall _

theorem watchedRoom_bij : Bij watchedRoom.w := by
  have hw : Bij twoRooms.w :=
    parseXML_bij Tree.launched (.launched World.launched_launched) ⟨rfl, by decide⟩ _
  have hu := hw.steps (addUser_steps twoRooms.w 1 7 1)
  exact hu.step (.connect _ 3 0 (by decide +kernel) (by decide +kernel) (by decide +kernel))

end MonitorAgent.L4
