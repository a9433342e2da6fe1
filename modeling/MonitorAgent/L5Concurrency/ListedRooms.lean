import MonitorAgent.L4Titles.Refresh
import MonitorAgent.L5Concurrency.ShownUsers

/-!
# Rooms and nodes with items below theirs

`Tidy` says which items the rooms have, and `Inv` with it what the threads that
expand nodes leave: a room or node that no thread is at has an item below its
own.

* `Inv.frame`: a step at a node keeps this, if it does at that node and its
  new child.
-/
namespace MonitorAgent.L5.RoomCalls

open MonitorAgent.L3 MonitorAgent.L4 LTS

/-! ## The items of the rooms -/

/-- The tree, and the items of its rooms. -/
structure Tidy (pc : RoomRef → Pc) (t : Titles) : Prop where
  tree : Tree t
  bij : Bij t.w
  locked : ∀ r, pc r ≠ .unlocked → RoomExists t r
  rooms : ∀ r < t.nextNode, (t.nodes r).nodeType = .titleRoom →
    Items (t.w.rooms r).users (t.w.rooms r).items (pc r)
  leaving : Leaving pc t.w

namespace Tidy

variable {pc : RoomRef → Pc} {t : Titles} (h : Tidy pc t)
include h

/-- Nodes stay what and where they are, the wall stays. -/
theorem congr {t' : Titles} (ht : Tree t') (hw : t'.w = t.w) (hnext : t'.nextNode = t.nextNode)
    (hsame : ∀ m, (t'.nodes m).nodeType = (t.nodes m).nodeType ∧
      (t'.nodes m).alive = (t.nodes m).alive) : Tidy pc t' where
  tree := ht
  bij := hw ▸ h.bij
  locked r hr := by
    obtain ⟨ha, hty⟩ := h.locked r hr
    exact ⟨(hsame r).2.trans ha, (hsame r).1.trans hty⟩
  rooms r hr hty := by
    rw [hw]
    exact h.rooms r (hnext ▸ hr) ((hsame r).1.symm.trans hty)
  leaving := hw ▸ h.leaving

theorem delAll {n : NodeRef} (he : (t.nodes n).nodes.isEmpty = true) : Tidy pc (t.delAll n) := by
  have hrest := Titles.deleteAll_rest (t.children n) t
  refine h.congr (h.tree.delAll he) hrest.2.2 hrest.1 fun m => ?_
  rw [Tree.delAll_nodes he]
  split
  · rename_i hm
    rw [hm]
    exact ⟨rfl, rfl⟩
  · exact ⟨rfl, rfl⟩

theorem file {n : NodeRef} (hn : (t.nodes n).alive = true)
    (hty : (t.nodes n).nodeType = .titleNode) (heading : Heading) {e : Entry}
    (hnew : (t.nodes n).nodes.find? e.id = none) :
    Tidy (Function.update pc t.nextNode (if heading = .dynamicNode then .new else .unlocked))
      (fileChild t n heading e) := by
  have hlt := h.tree.inUse n hn
  have hroom : (t.nodes n).nodeType ≠ .titleRoom := by rw [hty]; decide
  have hsame := fun m (hm : m ≠ t.nextNode) => fileChild_type t n heading e hlt hm
  have hw := fileChild_w t n heading e
  have hrooms : ∀ r, r ≠ t.nextNode → (fileChild t n heading e).w.rooms r = t.w.rooms r := by
    intro r hr
    rw [hw]
    split
    · rw [World.modifyRoom_rooms, if_neg hr]
    · rfl
  have hwall : (fileChild t n heading e).w.screens = t.w.screens ∧
      (fileChild t n heading e).w.users = t.w.users ∧
      (fileChild t n heading e).w.nextUser = t.w.nextUser := by
    rw [hw]
    split <;> exact ⟨rfl, rfl, rfl⟩
  have hself : heading = .dynamicNode →
      (fileChild t n heading e).w.rooms t.nextNode = ⟨e.id, t.memory t.nextNode, .empty, []⟩ := by
    intro hd
    rw [hw, if_pos hd, World.modifyRoom_rooms, if_pos rfl]
  have hlost : ∀ r k u, ((fileChild t n heading e).w.rooms r).users.find? k = some u →
      (t.w.rooms r).users.find? k = some u := by
    intro r k u hf
    by_cases hr : r = t.nextNode
    · by_cases hd : heading = .dynamicNode
      · rw [hr, hself hd, StdMap.find?_empty] at hf
        cases hf
      · rw [hw, if_neg hd] at hf
        exact hf
    · rw [hrooms r hr] at hf
      exact hf
  have hpc : ∀ r, r ≠ t.nextNode →
      Function.update pc t.nextNode (if heading = .dynamicNode then .new else .unlocked) r = pc r :=
    fun r hr => Function.update_of_ne hr _ _
  refine ⟨tree_fileChild h.tree hn heading hroom hnew,
    h.bij.ofRooms hwall.1 hwall.2.1 hwall.2.2 hlost, fun r hr => ?_, fun r hr hrt => ?_,
    fun r u hu => ?_⟩
  · by_cases he : r = t.nextNode
    · rw [he, Function.update_self] at hr
      have hd : heading = .dynamicNode := by
        by_contra hd
        exact hr (if_neg hd)
      have hnode := fileChild_self t n heading e hlt
      rw [he]
      exact ⟨hnode.2, hnode.1.trans (if_pos hd)⟩
    · rw [hpc r he] at hr
      obtain ⟨ha, hrt⟩ := h.locked r hr
      exact ⟨(hsame r he).2.trans ha, (hsame r he).1.trans hrt⟩
  · by_cases he : r = t.nextNode
    · have hd : heading = .dynamicNode := by
        rw [he, (fileChild_self t n heading e hlt).1] at hrt
        by_contra hd
        rw [if_neg hd] at hrt
        cases hrt
      rw [he, hself hd, Function.update_self, if_pos hd]
      exact .made
    · rw [(fileChild_rest t n heading e).1] at hr
      rw [hrooms r he, hpc r he]
      exact h.rooms r (Nat.lt_of_le_of_ne (Nat.lt_succ_iff.mp hr) he)
        ((hsame r he).1.symm.trans hrt)
  · have hne : r ≠ t.nextNode := by
      rintro rfl
      rw [Function.update_self] at hu
      split at hu <;> rcases hu with hu | hu <;> cases hu
    rw [hpc r hne] at hu
    obtain ⟨ha, hr, hf⟩ := h.leaving r u hu
    rw [hwall.2.1]
    refine ⟨ha, hr, ?_⟩
    intro r' hlisted
    obtain ⟨k, hk⟩ := hlisted
    exact hf r' ⟨k, hlost r' k u hk⟩

/-- A new room gets its empty item. -/
theorem order {n child : NodeRef}
    (hchild : (t.nodes child).nodeType = .titleRoom → child < t.nextNode ∧ pc child = .new) :
    Tidy (Function.update pc child .unlocked) (orderChild t n child) := by
  have hsame := orderChild_same t n child
  have hw := orderChild_w t n child
  have hrooms : ∀ r, (orderChild t n child).w.rooms r =
      if r = child ∧ (t.nodes child).nodeType = .titleRoom then
        { t.w.rooms child with items := (t.w.rooms child).items ++ [none] }
      else t.w.rooms r := by
    intro r
    rw [hw]
    by_cases hty : (t.nodes child).nodeType = .titleRoom
    · rw [if_pos hty, World.addNull, World.modifyRoom_rooms]
      simp only [hty, and_true]
    · rw [if_neg hty, if_neg fun hc => hty hc.2]
  have husers : ∀ r, ((orderChild t n child).w.rooms r).users = (t.w.rooms r).users := by
    intro r
    rw [hrooms]
    split
    · rename_i hc
      rw [hc.1]
    · rfl
  have hwall : (orderChild t n child).w.screens = t.w.screens ∧
      (orderChild t n child).w.users = t.w.users ∧
      (orderChild t n child).w.nextUser = t.w.nextUser := by
    rw [hw]
    split <;> exact ⟨rfl, rfl, rfl⟩
  refine ⟨tree_orderChild h.tree child,
    h.bij.ofRooms hwall.1 hwall.2.1 hwall.2.2 fun r k u hf => by rwa [husers] at hf,
    fun r hr => ?_, fun r hr hrt => ?_, fun r u hu => ?_⟩
  · rw [Function.update_apply] at hr
    split at hr
    · exact absurd rfl hr
    · obtain ⟨ha, hrt⟩ := h.locked r hr
      exact ⟨(hsame r).2.2.2.2.trans ha, (hsame r).1.trans hrt⟩
  · rw [(hsame r).1] at hrt
    rw [hrooms, Function.update_apply]
    by_cases he : r = child
    · subst he
      obtain ⟨hlt, hpc⟩ := hchild hrt
      have hi := h.rooms r hlt hrt
      rw [hpc] at hi
      rw [if_pos ⟨rfl, hrt⟩, if_pos rfl]
      exact hi.order
    · rw [if_neg fun hc => he hc.1, if_neg he]
      exact h.rooms r hr hrt
  · rw [Function.update_apply] at hu
    split at hu
    · rcases hu with hu | hu <;> cases hu
    · obtain ⟨ha, hr, hf⟩ := h.leaving r u hu
      rw [hwall.2.1]
      refine ⟨ha, hr, fun r' => ?_⟩
      rw [husers]
      exact hf r'

/-- Rooms a thread is in stay, so that their items do. -/
theorem kickout {n : NodeRef} (hn : (t.nodes n).alive = true)
    (hty : (t.nodes n).nodeType = .titleNode) (ids : List Int)
    (hspared : ∀ r < t.nextNode, pc r ≠ .unlocked →
      ((t.kickoutRedundantNodes n ids).nodes r).alive = true) :
    Tidy pc (t.kickoutRedundantNodes n ids) := by
  obtain ⟨hk, -⟩ := kickout_removes h.tree.toShape n ids
  have hquiet : Quiet
      (fun r => (r < t.nextNode ∧ (t.nodes r).nodeType = .titleRoom) ∧ pc r = .unlocked) pc
      (t.kickoutRedundantNodes n ids).w := by
    refine kickout_along (R := fun w w' => Quiet _ pc w → Quiet _ pc w') (fun _ => id)
      (fun h h' => h' ∘ h) (fun w r hq => hq.onDestory r) t n ids ⟨h.bij, fun r hr => ?_, h.leaving⟩
    have hi := h.rooms r hr.1.1 hr.1.2
    rw [hr.2] at hi
    exact hi
  refine ⟨h.tree.kickout hn ids, hquiet.bij, fun r hr => ?_, fun r hr hrt => ?_, hquiet.leaving⟩
  · obtain ⟨ha, hrt⟩ := h.locked r hr
    exact ⟨hspared r (h.tree.inUse r ha) hr, (hk.same r).1.trans hrt⟩
  · rw [hk.nextNode] at hr
    rw [(hk.same r).1] at hrt
    by_cases hpc : pc r = .unlocked
    · rw [hpc]
      exact hquiet.still r ⟨⟨hr, hrt⟩, hpc⟩
    · have hne : r ≠ n := by
        rintro rfl
        rw [hty] at hrt
        cases hrt
      rw [hk.rooms r hne (hspared r hr hpc)]
      exact h.rooms r hr hrt

end Tidy

/-! ## Threads that expand nodes -/

def Expandable (t : Titles) (n : NodeRef) : Prop :=
  (t.nodes n).alive = true ∧ (t.nodes n).nodeType = .titleNode

/-- What a thread knows of the node it expands, or of the child it makes. -/
def AtNode (x : St) (n : NodeRef) : Expansion → Prop
  | .idle => True
  | .filed | .placed =>
    (x.s.t.nodes n).alive = true ∧ ((x.s.t.nodes n).nodeType = .titleRoom → x.pc n = .new)
  | .clearing | .requesting | .listing _ _ => Expandable x.s.t n
  | .inserting _ child _ => Expandable x.s.t n ∧ x.expanding child = .filed
  | .inserted _ child _ => Expandable x.s.t n ∧ x.expanding child = .placed

/-- The threads in the rooms and at the nodes, and the items they leave. -/
structure Inv (x : St) : Prop where
  tidy : Tidy x.pc x.s.t
  thread : ∀ n, AtNode x n (x.expanding n)
  branch : ∀ n < x.s.t.nextNode, (x.s.t.nodes n).nodeType ≠ .titleRoom →
    (x.expanding n).Branch (x.s.t.nodes n).nodes (x.s.items n)

theorem AtNode.alive {x : St} {n : NodeRef} {e : Expansion} (h : AtNode x n e) (he : e ≠ .idle) :
    (x.s.t.nodes n).alive = true := by
  cases e with
  | idle => exact absurd rfl he
  | filed | placed | clearing | requesting | listing => exact h.1
  | inserting | inserted => exact h.1.1

/-- What another thread does to its node leaves this one where it is. -/
theorem AtNode.congr {x x' : St} {n : NodeRef} {e : Expansion} (h : AtNode x n e)
    (htype : (x'.s.t.nodes n).nodeType = (x.s.t.nodes n).nodeType)
    (halive : e ≠ .idle → (x'.s.t.nodes n).alive = true) (hpc : x.pc n = .new → x'.pc n = .new)
    (hchild : ∀ child, e.child? = some child → x'.expanding child = x.expanding child) :
    AtNode x' n e := by
  cases e with
  | idle => trivial
  | filed | placed =>
    refine ⟨halive nofun, ?_⟩
    intro hty
    exact hpc (h.2 (htype.symm.trans hty))
  | clearing | requesting | listing => exact ⟨halive nofun, htype.trans h.2⟩
  | inserting | inserted =>
    exact ⟨⟨halive nofun, htype.trans h.1.2⟩, (hchild _ rfl).trans h.2⟩

namespace Inv

variable {x : St} (h : Inv x)
include h

theorem threadAt {n : NodeRef} {e : Expansion} (he : x.expanding n = e) : AtNode x n e :=
  he ▸ h.thread n

theorem inUse {n : NodeRef} (he : x.expanding n ≠ .idle) : n < x.s.t.nextNode :=
  h.tidy.tree.inUse n ((h.thread n).alive he)

theorem expandable {n child : NodeRef} (hc : (x.expanding n).child? = some child) :
    Expandable x.s.t n := by
  cases he : x.expanding n with
  | inserting | inserted => exact (h.threadAt he).1
  | idle | filed | placed | clearing | requesting | listing =>
    rw [he] at hc
    cases hc

theorem branchAt {n : NodeRef} {e : Expansion} (he : x.expanding n = e)
    (hn : Expandable x.s.t n) : e.Branch (x.s.t.nodes n).nodes (x.s.items n) :=
  he ▸ h.branch n (h.tidy.tree.inUse n hn.1) (by rw [hn.2]; decide)

/-- A child whose items are being inserted is filed, and no thread is at it. -/
theorem child {n child : NodeRef} (hc : (x.expanding n).child? = some child) :
    (x.expanding child = .filed ∨ x.expanding child = .placed) ∧
      ∃ id, (x.s.t.nodes n).nodes.find? id = some child := by
  have hn := h.expandable hc
  cases he : x.expanding n with
  | inserting =>
    rw [he] at hc
    cases hc
    exact ⟨.inl (h.threadAt he).2, (h.branchAt he hn).2⟩
  | inserted =>
    rw [he] at hc
    cases hc
    exact ⟨.inr (h.threadAt he).2, (h.branchAt he hn).2⟩
  | idle | filed | placed | clearing | requesting | listing =>
    rw [he] at hc
    cases hc

/-- One thread makes one child. -/
theorem child_inj {n m child : NodeRef} (hn : (x.expanding n).child? = some child)
    (hm : (x.expanding m).child? = some child) : m = n := by
  obtain ⟨-, id, hf⟩ := h.child hn
  obtain ⟨-, id', hf'⟩ := h.child hm
  exact h.tidy.tree.one m id' child n id hf' hf

/-- A step at `n`, which may make `c`, keeps the others where they are. -/
theorem frame {x' : St} (n c : NodeRef) (htidy : Tidy x'.pc x'.s.t)
    (hnext : ∀ m < x'.s.t.nextNode, m ≠ c → m < x.s.t.nextNode)
    (hsame : ∀ m, m ≠ n → m ≠ c → x'.expanding m = x.expanding m ∧ x'.s.items m = x.s.items m ∧
      (x.pc m = .new → x'.pc m = .new))
    (htype : ∀ m, m ≠ n → m ≠ c → (x'.s.t.nodes m).nodeType = (x.s.t.nodes m).nodeType)
    (hbusy : ∀ m, m ≠ n → m ≠ c → x.expanding m ≠ .idle → (x'.s.t.nodes m).alive = true ∧
      (x'.s.t.nodes m).nodes = (x.s.t.nodes m).nodes)
    (hapart : ∀ m child, m ≠ n → (x.expanding m).child? = some child → child ≠ n ∧ child ≠ c)
    (hthread : ∀ m, m = n ∨ m = c → AtNode x' m (x'.expanding m))
    (hbranch : ∀ m, m = n ∨ m = c → (x'.s.t.nodes m).nodeType ≠ .titleRoom →
      (x'.expanding m).Branch (x'.s.t.nodes m).nodes (x'.s.items m)) : Inv x' where
  tidy := htidy
  thread m := by
    by_cases hm : m = n ∨ m = c
    · exact hthread m hm
    · rw [not_or] at hm
      obtain ⟨he, -, hpc⟩ := hsame m hm.1 hm.2
      rw [he]
      refine (h.thread m).congr (htype m hm.1 hm.2) (fun hi => (hbusy m hm.1 hm.2 hi).1) hpc ?_
      intro child hc
      have hne := hapart m child hm.1 hc
      exact (hsame child hne.1 hne.2).1
  branch m hlt hty := by
    by_cases hm : m = n ∨ m = c
    · exact hbranch m hm hty
    · rw [not_or] at hm
      obtain ⟨he, hi, -⟩ := hsame m hm.1 hm.2
      rw [htype m hm.1 hm.2] at hty
      have hb := h.branch m (hnext m hlt hm.2) hty
      rw [he, hi]
      by_cases hidle : x.expanding m = .idle
      · rw [hidle] at hb ⊢
        exact hb
      · rw [(hbusy m hm.1 hm.2 hidle).2]
        exact hb

/-- A step at `n` alone. -/
theorem alone {x' : St} {n : NodeRef} {e : Expansion}
    (hmade : ¬ (x.expanding n = .filed ∨ x.expanding n = .placed)) (htidy : Tidy x'.pc x'.s.t)
    (hpc : x'.pc = x.pc) (hx : x'.expanding = Function.update x.expanding n e)
    (hnext : x'.s.t.nextNode = x.s.t.nextNode) (hitems : ∀ m, m ≠ n → x'.s.items m = x.s.items m)
    (htype : ∀ m, (x'.s.t.nodes m).nodeType = (x.s.t.nodes m).nodeType)
    (hbusy : ∀ m, m ≠ n → x.expanding m ≠ .idle → (x'.s.t.nodes m).alive = true ∧
      (x'.s.t.nodes m).nodes = (x.s.t.nodes m).nodes)
    (hthread : AtNode x' n e)
    (hbranch : (x'.s.t.nodes n).nodeType ≠ .titleRoom →
      e.Branch (x'.s.t.nodes n).nodes (x'.s.items n)) : Inv x' := by
  have hself : x'.expanding n = e := by rw [hx, Function.update_self]
  refine h.frame n n htidy (fun m hm _ => hnext ▸ hm) (fun m hm _ => ⟨?_, hitems m hm, ?_⟩)
    (fun m _ _ => htype m) (fun m hm _ => hbusy m hm) (fun m child _ hc => ?_) (fun m hm => ?_)
    fun m hm => ?_
  · rw [hx, Function.update_of_ne hm]
  · rw [hpc]
    exact id
  · have hne : child ≠ n := by
      rintro rfl
      exact hmade (h.child hc).1
    exact ⟨hne, hne⟩
  · obtain rfl : m = n := hm.elim id id
    rw [hself]
    exact hthread
  · obtain rfl : m = n := hm.elim id id
    rw [hself]
    exact hbranch

end Inv

end MonitorAgent.L5.RoomCalls
