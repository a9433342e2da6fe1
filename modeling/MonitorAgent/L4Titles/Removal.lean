import MonitorAgent.L3Wall.Teardown
import MonitorAgent.L4Titles.Shape

/-!
# Removing subtrees

`OnDestory` on a node deletes everything below it. What it does to the rest of
the tree is said by `Removes o`: the children of `o` may lose their subtrees,
every other live node is untouched, and a node is deleted only together with
its parent or as a child of `o`.

* `onDestory_removes`: `OnDestory` of a node removes below it, all of it.
* `kickout_removes`: so does `KickoutRedundantNodes`.
-/
namespace MonitorAgent.L4

open L3 Titles

/-- From `t` to `t'`, nodes below `o` are deleted: whole subtrees of some of
its children, which `o` itself may keep filed. -/
structure Removes (o : NodeRef) (t t' : Titles) : Prop where
  nextNode : t'.nextNode = t.nextNode
  memory : t'.memory = t.memory
  same : ∀ m, (t'.nodes m).nodeType = (t.nodes m).nodeType ∧ (t'.nodes m).id = (t.nodes m).id ∧
    (t'.nodes m).parentItem = (t.nodes m).parentItem
  low : ∀ m, m < o → t'.nodes m = t.nodes m
  owner : (t'.nodes o).alive = (t.nodes o).alive
  sub : ∀ m id r, (t'.nodes m).nodes.find? id = some r → (t.nodes m).nodes.find? id = some r
  set : ∀ m, (t'.nodes m).nodesOrder.Sublist (t.nodes m).nodesOrder
  kept : ∀ m, m ≠ o → (t'.nodes m).alive = true → t'.nodes m = t.nodes m
  orphan : ∀ r, (t.nodes r).alive = true → (t'.nodes r).alive = false →
    ∃ d id, (t.nodes d).nodes.find? id = some r ∧ (d = o ∨ (t'.nodes d).alive = false)
  family : ∀ d id r, d ≠ o → (t.nodes d).alive = true → (t'.nodes d).alive = false →
    (t.nodes d).nodes.find? id = some r → (t'.nodes r).alive = false
  rooms : ∀ m, m ≠ o → (t'.nodes m).alive = true → t'.w.rooms m = t.w.rooms m
  roomId : ∀ m, (t'.w.rooms m).id = (t.w.rooms m).id
  proxies : t'.w.proxies = t.w.proxies
  wall : Bij t.w → WallSteps t.w t'.w

theorem Shape.removes {o : NodeRef} {t t' : Titles} (h : Shape t) (hr : Removes o t t') :
    Shape t' :=
  h.sub hr.nextNode hr.same hr.sub

namespace Removes

variable {o : NodeRef} {t t' t'' : Titles}

theorem refl (o : NodeRef) (t : Titles) : Removes o t t where
  nextNode := rfl
  memory := rfl
  same _ := ⟨rfl, rfl, rfl⟩
  low _ _ := rfl
  owner := rfl
  sub _ _ _ := id
  set _ := .refl _
  kept _ _ _ := rfl
  orphan r ha hn := by rw [ha] at hn; cases hn
  family d _ _ _ ha hn := by rw [ha] at hn; cases hn
  rooms _ _ _ := rfl
  roomId _ := rfl
  proxies := rfl
  wall _ := .refl

theorem alive (h : Removes o t t') {m : NodeRef} (ha : (t'.nodes m).alive = true) :
    (t.nodes m).alive = true := by
  by_cases hm : m = o
  · rw [hm, ← h.owner, ← hm]
    exact ha
  · rw [← h.kept m hm ha]
    exact ha

theorem dead (h : Removes o t t') {m : NodeRef} (hd : (t.nodes m).alive = false) :
    (t'.nodes m).alive = false := by
  cases ha : (t'.nodes m).alive with
  | false => rfl
  | true => rw [h.alive ha] at hd; cases hd

theorem trans (h : Removes o t t') (h' : Removes o t' t'') : Removes o t t'' where
  nextNode := h'.nextNode.trans h.nextNode
  memory := h'.memory.trans h.memory
  same m := ⟨(h'.same m).1.trans (h.same m).1, (h'.same m).2.1.trans (h.same m).2.1,
    (h'.same m).2.2.trans (h.same m).2.2⟩
  low m hm := (h'.low m hm).trans (h.low m hm)
  owner := h'.owner.trans h.owner
  sub m id r hf := h.sub m id r (h'.sub m id r hf)
  set m := (h'.set m).trans (h.set m)
  kept m hm ha := (h'.kept m hm ha).trans (h.kept m hm (h'.alive ha))
  orphan r ha hd := by
    cases ha' : (t'.nodes r).alive with
    | true =>
      obtain ⟨d, id, hf, hd'⟩ := h'.orphan r ha' hd
      exact ⟨d, id, h.sub d id r hf, hd'⟩
    | false =>
      obtain ⟨d, id, hf, hd'⟩ := h.orphan r ha ha'
      exact ⟨d, id, hf, hd'.imp_right h'.dead⟩
  family d id r hd ha hdead hf := by
    cases ha' : (t'.nodes d).alive with
    | true =>
      rw [← h.kept d hd ha'] at hf
      exact h'.family d id r hd ha' hdead hf
    | false => exact h'.dead (h.family d id r hd ha ha' hf)
  rooms m hm ha := (h'.rooms m hm ha).trans (h.rooms m hm (h'.alive ha))
  roomId m := (h'.roomId m).trans (h.roomId m)
  proxies := h'.proxies.trans h.proxies
  wall hw := (h.wall hw).trans (h'.wall (hw.steps (h.wall hw)))

/-- The owner takes entries out of its indexes. -/
theorem edit (t : Titles) (o : NodeRef) (f : Node → Node)
    (hf : ∀ x, (f x).nodeType = x.nodeType ∧ (f x).id = x.id ∧ (f x).parentItem = x.parentItem ∧
      (f x).alive = x.alive)
    (hsub : ∀ id r, (f (t.nodes o)).nodes.find? id = some r → (t.nodes o).nodes.find? id = some r)
    (hset : (f (t.nodes o)).nodesOrder.Sublist (t.nodes o).nodesOrder) :
    Removes o t (t.modifyNode o f) := by
  have hne : ∀ m, m ≠ o → (t.modifyNode o f).nodes m = t.nodes m :=
    fun m hm => by rw [modifyNode_nodes, if_neg hm]
  have ho : (t.modifyNode o f).nodes o = f (t.nodes o) := by rw [modifyNode_nodes, if_pos rfl]
  have halive : ∀ m, ((t.modifyNode o f).nodes m).alive = (t.nodes m).alive := fun m => by
    by_cases hm : m = o
    · rw [hm, ho]; exact (hf _).2.2.2
    · rw [hne m hm]
  refine ⟨rfl, rfl, fun m => ?_, fun m hm => hne m (Nat.ne_of_lt hm), halive o, fun m id r h => ?_,
    fun m => ?_, fun m hm _ => hne m hm, fun r ha hd => ?_, fun d id r _ ha hd => ?_, fun _ _ _ =>
    rfl, fun _ => rfl, rfl,
    fun _ => .refl⟩
  · by_cases hm : m = o
    · rw [hm, ho]; exact ⟨(hf _).1, (hf _).2.1, (hf _).2.2.1⟩
    · rw [hne m hm]; exact ⟨rfl, rfl, rfl⟩
  · by_cases hm : m = o
    · rw [hm, ho] at h; rw [hm]; exact hsub id r h
    · rwa [hne m hm] at h
  · by_cases hm : m = o
    · rw [hm, ho]; exact hset
    · rw [hne m hm]
  · rw [halive, ha] at hd; cases hd
  · rw [halive, ha] at hd; cases hd

/-- A child whose subtree is gone is deleted. -/
theorem child (h : Removes o t t') {c : NodeRef} {id : Int}
    (hf : (t.nodes o).nodes.find? id = some c) (hoc : o < c)
    (h' : Removes c t' t'')
    (hall : ∀ id r, (t'.nodes c).nodes.find? id = some r → (t''.nodes r).alive = false) :
    Removes o t (t''.delete c) := by
  have hfields := t''.delete_fields c
  have ho : o ≠ c := Nat.ne_of_lt hoc
  refine ⟨h'.nextNode.trans h.nextNode, h'.memory.trans h.memory, fun m => ?_, fun m hm => ?_, ?_,
    fun m id r hf' => ?_,
    fun m => ?_, fun m hm ha => ?_, fun r ha hd => ?_, fun d id' r hd ha hdead' hf' =>
      ?_, fun m hm ha => ?_,
    fun m => (h'.roomId m).trans (h.roomId m), h'.proxies.trans h.proxies,
    fun hw => (h.wall hw).trans (h'.wall (hw.steps (h.wall hw)))⟩
  · rw [(hfields m).1, (hfields m).2.1, (hfields m).2.2.1]
    exact ⟨(h'.same m).1.trans (h.same m).1, (h'.same m).2.1.trans (h.same m).2.1,
      (h'.same m).2.2.trans (h.same m).2.2⟩
  · have hmc := Nat.lt_trans hm hoc
    rw [delete_of_ne _ _ (Nat.ne_of_lt hmc), h'.low m hmc, h.low m hm]
  · rw [delete_of_ne _ _ ho, h'.low o hoc, h.owner]
  · rw [(hfields m).2.2.2.1] at hf'
    exact h.sub m id r (h'.sub m id r hf')
  · rw [(hfields m).2.2.2.2]
    exact (h'.set m).trans (h.set m)
  · obtain ⟨he, ha'⟩ := delete_alive _ _ ha
    rw [delete_of_ne _ _ he, h'.kept m he ha', h.kept m hm (h'.alive ha')]
  · by_cases he : r = c
    · exact ⟨o, id, he ▸ hf, .inl rfl⟩
    · rw [delete_of_ne _ _ he] at hd
      cases ha' : (t'.nodes r).alive with
      | true =>
        obtain ⟨d, id', hf', hd'⟩ := h'.orphan r ha' hd
        refine ⟨d, id', h.sub d id' r hf', .inr ?_⟩
        rcases hd' with rfl | hd'
        · exact delete_self _ _
        · exact delete_dead _ _ hd'
      | false =>
        obtain ⟨d, id', hf', hd'⟩ := h.orphan r ha ha'
        exact ⟨d, id', hf', hd'.imp_right fun hd' => delete_dead _ _ (h'.dead hd')⟩
  · cases ha' : (t'.nodes d).alive with
    | true =>
      rw [← h.kept d hd ha'] at hf'
      by_cases he : d = c
      · exact delete_dead _ _ (hall id' r (he ▸ hf'))
      · rw [delete_of_ne _ _ he] at hdead'
        exact delete_dead _ _ (h'.family d id' r he ha' hdead' hf')
    | false => exact delete_dead _ _ (h'.dead (h.family d id' r hd ha ha' hf'))
  · obtain ⟨he, ha'⟩ := delete_alive _ _ ha
    exact (h'.rooms m he ha').trans (h.rooms m hm (h'.alive ha'))

end Removes

/-! ## `OnDestory` -/

theorem Removes.destoryRoom (t : Titles) (r : NodeRef) :
    Removes r t { t with w := t.w.onDestory r } where
  nextNode := rfl
  memory := rfl
  same _ := ⟨rfl, rfl, rfl⟩
  low _ _ := rfl
  owner := rfl
  sub _ _ _ := id
  set _ := .refl _
  kept _ _ _ := rfl
  orphan r ha hn := by rw [ha] at hn; cases hn
  family d _ _ _ ha hn := by rw [ha] at hn; cases hn
  rooms _ hm _ := World.onDestory_rooms_ne _ r hm
  roomId m := World.onDestory_id _ r m
  proxies := sameProxies_teardownFrame.onDestory _ r
  wall hw := onDestory_steps hw r

/-- The children deleted one after the other. -/
theorem destoryChildren_removes {fuel next : Nat} {n : NodeRef}
    (ih : ∀ t : Titles, t.nextNode = next → Shape t → ∀ c id, (t.nodes n).nodes.find? id = some c →
      Removes c t (t.onDestoryGo fuel c) ∧
        ∀ id r, (t.nodes c).nodes.find? id = some r →
        ((t.onDestoryGo fuel c).nodes r).alive = false) :
    ∀ (cs : List NodeRef) {t : Titles}, t.nextNode = next → Shape t →
      (∀ c ∈ cs, ∃ id, (t.nodes n).nodes.find? id = some c) →
      Removes n t (cs.foldl (fun t c => (onDestoryGo fuel t c).delete c) t) ∧
        ∀ c ∈ cs, ((cs.foldl (fun t c => (onDestoryGo fuel t c).delete c) t).nodes c).alive = false
  | [], t, _, _, _ => ⟨.refl n t, fun _ hc => nomatch hc⟩
  | c :: cs, t, hnext, hs, hcs => by
    obtain ⟨id, hf⟩ := hcs c List.mem_cons_self
    have hnc := (hs.child n id c hf).1
    obtain ⟨hr, hall⟩ := ih t hnext hs c id hf
    have h1 : Removes n t ((t.onDestoryGo fuel c).delete c) :=
      (Removes.refl n t).child hf hnc hr hall
    have hn : ((t.onDestoryGo fuel c).delete c).nodes n = t.nodes n := by
      rw [delete_of_ne _ _ (Nat.ne_of_lt hnc), hr.low n hnc]
    have hc : (((t.onDestoryGo fuel c).delete c).nodes c).alive = false := delete_self _ _
    obtain ⟨h2, hdead⟩ := destoryChildren_removes ih cs (h1.nextNode.trans hnext) (hs.removes h1)
      fun c' hc' => hn.symm ▸ hcs c' (List.mem_cons_of_mem _ hc')
    refine ⟨h1.trans h2, fun c' hc' => ?_⟩
    rcases List.mem_cons.mp hc' with rfl | hc'
    · exact h2.dead hc
    · exact hdead c' hc'

/-- With fuel for the references above the node. -/
theorem onDestoryGo_removes (fuel : Nat) {t : Titles} (hs : Shape t) (n : NodeRef)
    (hfuel : t.nextNode ≤ n + fuel)
    (ht : (t.nodes n).nodeType = .titleNode ∨ (t.nodes n).nodeType = .titleRoom) :
    Removes n t (t.onDestoryGo fuel n) ∧
      ∀ id r, (t.nodes n).nodes.find? id = some r →
      ((t.onDestoryGo fuel n).nodes r).alive = false := by
  induction fuel generalizing t n with
  | zero =>
    refine ⟨.refl n t, fun id r hf => ?_⟩
    obtain ⟨hn, hr⟩ := hs.child n id r hf
    exact absurd (Nat.lt_trans hn hr) (Nat.not_lt.mpr hfuel)
  | succ fuel ih =>
    unfold onDestoryGo
    rcases ht with ht | ht
    · rw [ht]
      dsimp only
      have hgo : ∀ t₁ : Titles, t₁.nextNode = t.nextNode → Shape t₁ → ∀ c id,
        (t₁.nodes n).nodes.find? id = some c →
          Removes c t₁ (t₁.onDestoryGo fuel c) ∧
            ∀ id r, (t₁.nodes c).nodes.find? id = some r →
            ((t₁.onDestoryGo fuel c).nodes r).alive = false := by
        intro t₁ hnext hs₁ c id hf
        refine ih hs₁ c ?_ (hs₁.type n id c hf)
        calc t₁.nextNode ≤ n + 1 + fuel := by rw [hnext, Nat.add_assoc, Nat.add_comm 1]; exact hfuel
          _ ≤ c + fuel := Nat.add_le_add_right (hs₁.child n id c hf).1 fuel
      obtain ⟨hr, hdead⟩ :=
        destoryChildren_removes hgo (t.children n) rfl hs fun c hc => mem_children.mp hc
      have hclear := hr.trans (.edit _ n (fun x => { x with nodes := .empty, nodesOrder := [] })
        (fun _ => ⟨rfl, rfl, rfl, rfl⟩) (fun id r hf => by rw [StdMap.find?_empty] at hf; cases hf)
        (List.nil_sublist _))
      refine ⟨hclear, fun id r hf => ?_⟩
      rw [clear, modifyNode_nodes, if_neg (Nat.ne_of_gt (hs.child n id r hf).1)]
      exact hdead r (mem_children.mpr ⟨id, hf⟩)
    · rw [ht]
      refine ⟨.destoryRoom t n, fun id r hf => ?_⟩
      rw [hs.leaf n id ht] at hf
      cases hf

theorem onDestory_removes {t : Titles} (hs : Shape t) {n : NodeRef}
    (ht : (t.nodes n).nodeType = .titleNode ∨ (t.nodes n).nodeType = .titleRoom) :
    Removes n t (t.onDestory n) ∧
      ∀ id r, (t.nodes n).nodes.find? id = some r → ((t.onDestory n).nodes r).alive = false :=
  onDestoryGo_removes _ hs n (Nat.le_add_left ..) ht

/-! ## `KickoutRedundantNodes` -/

section Kickout

variable {n : NodeRef} {ids : List Int} {t : Titles} {e : Int × NodeRef}

/-- One entry that is not listed: its subtree goes, and the entry. -/
theorem kickout_entry (hs : Shape t) (hf : (t.nodes n).nodes.find? e.1 = some e.2)
    (he : e.1 ∉ ids) :
    Removes n t (kickout n ids t e) ∧ ((kickout n ids t e).nodes e.2).alive = false ∧
      (kickout n ids t e).nodes n = { t.nodes n with nodes := (t.nodes n).nodes.erase e.1 } ∧
      ∀ r, (t.nodes r).alive = true → ((kickout n ids t e).nodes r).alive = false → r = e.2 ∨
        ∃ d id, (t.nodes d).nodes.find? id = some r ∧
        ((kickout n ids t e).nodes d).alive = false := by
  have hlt := (hs.child n e.1 e.2 hf).1
  have hedit :=
    Removes.edit t n (fun x => { x with nodes := x.nodes.erase e.1 }) (fun _ =>
      ⟨rfl, rfl, rfl, rfl⟩)
    (fun id r h => by
      rw [StdMap.find?_erase] at h
      split at h
      · cases h
      · exact h) (.refl _)
  obtain ⟨hr, hall⟩ := onDestory_removes (hs.removes hedit)
    (by rw [(hedit.same e.2).1]; exact hs.type n e.1 e.2 hf)
  rw [kickout, if_neg he]
  refine ⟨hedit.child hf hlt hr hall, ?_, ?_, fun r ha hd => or_iff_not_imp_left.mpr fun hne => ?_⟩
  · exact delete_self _ _
  · rw [delete_of_ne _ _ (Nat.ne_of_lt hlt), hr.low n hlt, modifyNode_nodes, if_pos rfl]
  · rw [delete_of_ne _ _ hne] at hd
    have ha' :
        ((t.modifyNode n fun x => { x with nodes := x.nodes.erase e.1 }).nodes r).alive = true := by
      rw [modifyNode_nodes]
      split
      · rename_i he'; rw [← he']; exact ha
      · exact ha
    obtain ⟨d, id, hfind, hdead⟩ := hr.orphan r ha' hd
    refine ⟨d, id, hedit.sub d id r hfind, ?_⟩
    by_cases hd' : d = e.2
    · rw [hd']
      exact delete_self _ _
    · exact delete_dead _ _ (hdead.resolve_left hd')

end Kickout

theorem kickoutGo_removes {n : NodeRef} (ids : List Int) :
    ∀ (es : List (Int × NodeRef)) {t : Titles}, Shape t →
    es.Pairwise (fun a b => a.1 < b.1) → (∀ e ∈ es, (t.nodes n).nodes.find? e.1 = some e.2) →
    Removes n t (es.foldl (kickout n ids) t) ∧
      (∀ e ∈ es, e.1 ∉ ids → ((es.foldl (kickout n ids) t).nodes e.2).alive = false) ∧
      (∀ r, (t.nodes r).alive = true → ((es.foldl (kickout n ids) t).nodes r).alive = false →
        (∃ e ∈ es, e.1 ∉ ids ∧ r = e.2) ∨
          ∃ d id, (t.nodes d).nodes.find? id = some r ∧
          ((es.foldl (kickout n ids) t).nodes d).alive = false) ∧
      ((es.foldl (kickout n ids) t).nodes n).nodesOrder = (t.nodes n).nodesOrder ∧
      ∀ id, ((es.foldl (kickout n ids) t).nodes n).nodes.find? id =
        if (∃ e ∈ es, e.1 = id) ∧ id ∉ ids then none else (t.nodes n).nodes.find? id
  | [], t, _, _, _ => ⟨.refl n t, (fun _ he => nomatch he), fun r ha hd => (by
      rw [List.foldl_nil, ha] at hd
      cases hd), rfl, fun id => by simp⟩
  | e :: es, t, hs, hord, hes => by
    obtain ⟨hlt, hord'⟩ := List.pairwise_cons.mp hord
    have hf := hes e List.mem_cons_self
    rw [List.foldl_cons]
    by_cases he : e.1 ∈ ids
    · have hk : kickout n ids t e = t := if_pos he
      rw [hk]
      obtain ⟨hr, hdead, horphan, hno, hfind⟩ :=
        kickoutGo_removes ids es hs hord' fun e' he' => hes e' (List.mem_cons_of_mem _ he')
      refine ⟨hr, fun e' he' hn => ?_, fun r ha hd => (horphan r ha hd).imp_left ?_, hno,
        fun id => (hfind id).trans ?_⟩
      · rcases List.mem_cons.mp he' with rfl | he'
        · exact absurd he hn
        · exact hdead e' he' hn
      · intro ⟨e', he', hx⟩
        exact ⟨e', List.mem_cons_of_mem _ he', hx⟩
      · refine if_congr (and_congr_left fun hid => ?_) rfl rfl
        rw [List.exists_mem_cons_iff, or_iff_right]
        rintro rfl
        exact hid he
    · obtain ⟨h1, hgone, hn, hleft⟩ := kickout_entry hs hf he
      obtain ⟨h2, hdead, horphan, hno, hfind⟩ :=
        kickoutGo_removes ids es (hs.removes h1) hord' fun e' he' => by
        rw [hn, StdMap.find?_erase, if_neg (ne_of_gt (hlt e' he'))]
        exact hes e' (List.mem_cons_of_mem _ he')
      refine ⟨h1.trans h2, fun e' he' hne => ?_, fun r ha hd => ?_, hno.trans (by rw [hn]),
        fun id => (hfind id).trans ?_⟩
      · rcases List.mem_cons.mp he' with rfl | he'
        · exact h2.dead hgone
        · exact hdead e' he' hne
      · cases ha' : ((kickout n ids t e).nodes r).alive with
        | true =>
          rcases horphan r ha' hd with ⟨e', he', hx⟩ | ⟨d, id, hfr, hdd⟩
          · exact .inl ⟨e', List.mem_cons_of_mem _ he', hx⟩
          · exact .inr ⟨d, id, h1.sub d id r hfr, hdd⟩
        | false =>
          rcases hleft r ha ha' with rfl | ⟨d, id, hfr, hdd⟩
          · exact .inl ⟨e, List.mem_cons_self, he, rfl⟩
          · exact .inr ⟨d, id, hfr, h2.dead hdd⟩
      · rw [hn, StdMap.find?_erase]
        simp only [List.exists_mem_cons_iff]
        by_cases hid : id = e.1
        · subst hid
          simp [he]
        · rw [if_neg hid]
          exact if_congr (and_congr_left fun _ => (or_iff_right (Ne.symm hid)).symm) rfl rfl

/-- **Kicking out.** Exactly the listed children stay filed, in the order set
everything stays, and what is not listed is deleted. -/
theorem kickout_removes {t : Titles} (hs : Shape t) (n : NodeRef) (ids : List Int) :
    Removes n t (t.kickoutRedundantNodes n ids) ∧
      (∀ id c, (t.nodes n).nodes.find? id = some c → id ∉ ids →
        ((t.kickoutRedundantNodes n ids).nodes c).alive = false) ∧
      (∀ r, (t.nodes r).alive = true → ((t.kickoutRedundantNodes n ids).nodes r).alive = false →
        (∃ id, (t.nodes n).nodes.find? id = some r ∧ id ∉ ids) ∨
          ∃ d id, (t.nodes d).nodes.find? id = some r ∧
          ((t.kickoutRedundantNodes n ids).nodes d).alive = false) ∧
      ((t.kickoutRedundantNodes n ids).nodes n).nodesOrder = (t.nodes n).nodesOrder ∧
      ∀ id, ((t.kickoutRedundantNodes n ids).nodes n).nodes.find? id =
        if id ∈ ids then (t.nodes n).nodes.find? id else none := by
  obtain ⟨hr, hdead, horphan, hno, hfind⟩ :=
    kickoutGo_removes ids (t.nodes n).nodes.entries hs (t.nodes n).nodes.sorted
    fun e he => (StdMap.mem_entries_iff _ e.1 e.2).mp he
  refine ⟨hr, fun id c hf => hdead (id, c) ((StdMap.mem_entries_iff _ id c).mpr hf),
    fun r ha hd => (horphan r ha hd).imp_left ?_, hno, fun id => (hfind id).trans ?_⟩
  · intro ⟨e, he, hid, hr'⟩
    exact ⟨e.1, hr' ▸ (StdMap.mem_entries_iff _ e.1 e.2).mp he, hid⟩
  by_cases hid : id ∈ ids
  · rw [if_neg fun h => h.2 hid, if_pos hid]
  · rw [if_neg hid]
    split
    · rfl
    · rename_i hn
      cases hf : (t.nodes n).nodes.find? id with
      | none => rfl
      | some c => exact absurd ⟨⟨(id, c), (StdMap.mem_entries_iff _ id c).mpr hf, rfl⟩, hid⟩ hn

/-- A listing that names every child kicks nobody out. -/
theorem kickout_all {t : Titles} {n : NodeRef} {ids : List Int}
    (h : ∀ id c, (t.nodes n).nodes.find? id = some c → id ∈ ids) :
    t.kickoutRedundantNodes n ids = t := by
  have key : ∀ es : List (Int × NodeRef), (∀ e ∈ es, e.1 ∈ ids) → es.foldl (kickout n ids) t = t :=
    fun es => by
    induction es with
    | nil => exact fun _ => rfl
    | cons e es ih =>
      intro hes
      rw [List.foldl_cons, show kickout n ids t e = t from if_pos (hes e List.mem_cons_self)]
      exact ih fun e' he' => hes e' (List.mem_cons_of_mem _ he')
  exact key _ fun e he => h e.1 e.2 ((StdMap.mem_entries_iff _ e.1 e.2).mp he)

end MonitorAgent.L4
