import MonitorAgent.L4Titles.Tree

/-!
# What a listing deletes

The functions that delete nodes, with a note of every `delete` in the order
in which they run. An object deleted twice would be noted twice.

* `Noting.kickoutRedundantNodes_fst`: without the notes they are the functions
  of `TitleNode`.
* `kickoutRedundantNodes_noted`: what is noted is what was alive and is not any
  more, each once, and a room that is noted has no users left (`Noted`).
-/
namespace MonitorAgent.L4

open L3 Titles

/-- The tree, and the nodes deleted so far. -/
abbrev Noting := Titles × List NodeRef

namespace Noting

def delete (s : Noting) (n : NodeRef) : Noting := (s.1.delete n, s.2 ++ [n])

/-- `Titles.onDestoryGo`, with notes. -/
def onDestoryGo : Nat → Noting → NodeRef → Noting
  | 0, s, _ => s
  | fuel + 1, s, n =>
    match (s.1.nodes n).nodeType with
    | .titleNode =>
      let s' := (s.1.children n).foldl (fun s node => delete (onDestoryGo fuel s node) node) s
      (s'.1.clear n, s'.2)
    | .titleRoom => ({ s.1 with w := s.1.w.onDestory n }, s.2)
    | _ => s

/-- `Titles.kickout`, with notes. -/
def kickout (n : NodeRef) (ids : List Int) (s : Noting) (e : Int × NodeRef) : Noting :=
  if e.1 ∈ ids then s
  else
    let t := s.1.modifyNode n fun x => { x with nodes := x.nodes.erase e.1 }
    delete (onDestoryGo t.nextNode (t, s.2) e.2) e.2

/-- `Titles.kickoutRedundantNodes`, with notes. -/
def kickoutRedundantNodes (t : Titles) (n : NodeRef) (ids : List Int) : Noting :=
  (t.nodes n).nodes.entries.foldl (kickout n ids) (t, [])

theorem onDestoryGo_fst (fuel : Nat) (s : Noting) (n : NodeRef) :
    (onDestoryGo fuel s n).1 = s.1.onDestoryGo fuel n := by
  induction fuel generalizing s n with
  | zero => rfl
  | succ fuel ih =>
    have hfold : ∀ (cs : List NodeRef) (s : Noting),
        (cs.foldl (fun s c => delete (onDestoryGo fuel s c) c) s).1 =
          cs.foldl (fun t c => (t.onDestoryGo fuel c).delete c) s.1 := fun cs => by
      induction cs with
      | nil => exact fun _ => rfl
      | cons c cs ih' =>
        intro s
        rw [List.foldl_cons, List.foldl_cons, ih', delete, ih]
    unfold onDestoryGo Titles.onDestoryGo
    cases (s.1.nodes n).nodeType with
    | titleNode => exact congrArg (Titles.clear · n) (hfold (s.1.children n) s)
    | titleRoom => rfl
    | title => rfl
    | titleUser => rfl

theorem kickout_fst (n : NodeRef) (ids : List Int) (s : Noting) (e : Int × NodeRef) :
    (kickout n ids s e).1 = Titles.kickout n ids s.1 e := by
  unfold kickout Titles.kickout
  split
  · rfl
  · rw [delete, onDestoryGo_fst]
    rfl

theorem kickoutRedundantNodes_fst (t : Titles) (n : NodeRef) (ids : List Int) :
    (kickoutRedundantNodes t n ids).1 = t.kickoutRedundantNodes n ids := by
  have hfold : ∀ (es : List (Int × NodeRef)) (s : Noting),
      (es.foldl (kickout n ids) s).1 = es.foldl (Titles.kickout n ids) s.1 := fun es => by
    induction es with
    | nil => exact fun _ => rfl
    | cons e es ih =>
      intro s
      rw [List.foldl_cons, List.foldl_cons, ih, kickout_fst]
  exact hfold _ (t, [])

end Noting

/-! ## The notes are right -/

/-- What is noted was alive in `t₀` and is not any more, each node once; rooms
that are noted have no users. -/
structure Noted (t₀ : Titles) (s : Noting) : Prop where
  nodup : s.2.Nodup
  mem : ∀ r, r ∈ s.2 ↔ (t₀.nodes r).alive = true ∧ (s.1.nodes r).alive = false
  alive : ∀ r, (s.1.nodes r).alive = true → (t₀.nodes r).alive = true
  empty : ∀ r ∈ s.2, (s.1.nodes r).nodeType = .titleRoom → ∀ k, (s.1.w.rooms r).users.find? k = none

/-- Children of live nodes, from `n` on, are alive. -/
def Down (n : NodeRef) (t : Titles) : Prop :=
  ∀ m id r, n ≤ m → (t.nodes m).alive = true → (t.nodes m).nodes.find? id = some r →
    (t.nodes r).alive = true

namespace Noted

variable {t₀ : Titles} {s : Noting}

theorem refl (t : Titles) : Noted t (t, []) where
  nodup := .nil
  mem r := by
    refine iff_of_false List.not_mem_nil fun ⟨ha, hd⟩ => ?_
    rw [ha] at hd
    cases hd
  alive _ := id
  empty _ hr := absurd hr List.not_mem_nil

/-- Nothing is deleted, and no room that was noted gets users. -/
theorem same (h : Noted t₀ s) {t : Titles} (ha : ∀ m, (t.nodes m).alive = (s.1.nodes m).alive)
    (hty : ∀ m, (t.nodes m).nodeType = (s.1.nodes m).nodeType)
    (hw : ∀ r, (∀ k, (s.1.w.rooms r).users.find? k = none) →
      ∀ k, (t.w.rooms r).users.find? k = none) :
    Noted t₀ (t, s.2) where
  nodup := h.nodup
  mem r := by rw [h.mem, ha]
  alive r hr := h.alive r ((ha r).symm.trans hr)
  empty r hr ht := hw r (h.empty r hr ((hty r).symm.trans ht))

/-- A live node is deleted. -/
theorem delete (h : Noted t₀ s) {n : NodeRef} (ha : (s.1.nodes n).alive = true)
    (he : (s.1.nodes n).nodeType = .titleRoom → ∀ k, (s.1.w.rooms n).users.find? k = none) :
    Noted t₀ (Noting.delete s n) := by
  have hnode : ∀ m, ((s.1.delete n).nodes m).nodeType = (s.1.nodes m).nodeType ∧
      ((s.1.delete n).nodes m).alive = if m = n then false else (s.1.nodes m).alive := fun m => by
    rw [Titles.delete, modifyNode_nodes]
    split
    · rename_i hm; rw [hm]; exact ⟨rfl, rfl⟩
    · exact ⟨rfl, rfl⟩
  have hnew : n ∉ s.2 := fun hn => by
    rw [((h.mem n).mp hn).2] at ha
    cases ha
  refine ⟨?_, fun r => ?_, fun r hr => ?_, fun r hr hty => ?_⟩
  · refine List.nodup_append.mpr ⟨h.nodup, List.nodup_singleton n, fun x hx y hy e => ?_⟩
    rw [List.mem_singleton.mp hy] at e
    exact hnew (e ▸ hx)
  · rw [Noting.delete, List.mem_append, List.mem_singleton, h.mem, (hnode r).2]
    by_cases hr : r = n
    · rw [hr, if_pos rfl]
      exact iff_of_true (.inr rfl) ⟨h.alive n ha, rfl⟩
    · rw [if_neg hr, or_iff_left hr]
  · rw [Noting.delete, (hnode r).2] at hr
    split at hr
    · cases hr
    · exact h.alive r hr
  · rw [Noting.delete, (hnode r).1] at hty
    rcases List.mem_append.mp hr with hr | hr
    · exact h.empty r hr hty
    · obtain rfl := List.mem_singleton.mp hr
      exact he hty

end Noted

theorem Down.mono {n m : NodeRef} {t : Titles} (h : Down n t) (hle : n ≤ m) : Down m t :=
  fun k id r hk => h k id r (Nat.le_trans hle hk)

/-- What is removed below an earlier node does not matter. -/
theorem Down.removes {o n : NodeRef} {t t' : Titles} (hs : Shape t) (h : Down n t)
    (hr : Removes o t t') (hon : o < n) : Down n t' := by
  intro m id r hm ha hf
  have hmo : m ≠ o := Nat.ne_of_gt (Nat.lt_of_lt_of_le hon hm)
  have hf₀ := hr.sub m id r hf
  cases hd : (t'.nodes r).alive with
  | true => rfl
  | false =>
    obtain ⟨d, id', hf', hd'⟩ := hr.orphan r (h m id r hm (hr.alive ha) hf₀) hd
    obtain rfl := hs.one m id r d id' hf₀ hf'
    rw [ha] at hd'
    exact absurd hd' (by simp [hmo])

/-! ## `OnDestory` -/

/-- The child is deleted with everything below it, and nothing else is. -/
theorem childDeleted {t : Titles} (hs : Shape t) {n c : NodeRef} {fuel : Nat} {id : Int}
    (hf : (t.nodes n).nodes.find? id = some c) (hfuel : t.nextNode ≤ c + fuel) :
    Removes c t (t.onDestoryGo fuel c) ∧ Removes n t ((t.onDestoryGo fuel c).delete c) ∧
      ((t.onDestoryGo fuel c).delete c).nodes n = t.nodes n ∧
      ∀ id' c', (t.nodes n).nodes.find? id' = some c' → c' ≠ c → (t.nodes n).alive = true →
        (t.nodes c').alive = true → (((t.onDestoryGo fuel c).delete c).nodes c').alive = true := by
  have hnc := (hs.child n id c hf).1
  obtain ⟨hr, hall⟩ := onDestoryGo_removes fuel hs c hfuel (hs.type n id c hf)
  refine ⟨hr, (Removes.refl n t).child hf hnc hr hall, ?_, fun id' c' hf' hne hn ha => ?_⟩
  · rw [delete_of_ne _ _ (Nat.ne_of_lt hnc), hr.low n hnc]
  · rw [delete_of_ne _ _ hne]
    cases hd : ((t.onDestoryGo fuel c).nodes c').alive with
    | true => rfl
    | false =>
      -- only children of `c`, or of a deleted node, go
      obtain ⟨d, id'', hf'', hd'⟩ := hr.orphan c' ha hd
      obtain rfl := hs.one n id' c' d id'' hf' hf''
      rw [hr.low n hnc, hn] at hd'
      exact absurd hd' (by simp [Nat.ne_of_lt hnc])

section OnDestory

variable {t₀ : Titles}

/-- The children deleted one after the other. -/
theorem destoryChildren_noted {fuel next : Nat} {n : NodeRef} (hfuel : next ≤ n + 1 + fuel)
    (ih : ∀ s, Noted t₀ s → Shape s.1 → Bij s.1.w → s.1.nextNode = next → ∀ c id,
      (s.1.nodes n).nodes.find? id = some c → (s.1.nodes c).alive = true → Down c s.1 →
        Noted t₀ (Noting.onDestoryGo fuel s c) ∧ ((s.1.nodes c).nodeType = .titleRoom →
          ∀ k, ((s.1.onDestoryGo fuel c).w.rooms c).users.find? k = none)) :
    ∀ (cs : List NodeRef) {s : Noting}, Noted t₀ s → Shape s.1 → Bij s.1.w → s.1.nextNode = next →
      Down (n + 1) s.1 → (s.1.nodes n).alive = true → cs.Nodup →
      (∀ c ∈ cs, (∃ id, (s.1.nodes n).nodes.find? id = some c) ∧ (s.1.nodes c).alive = true) →
      Noted t₀ (cs.foldl (fun s c => (Noting.onDestoryGo fuel s c).delete c) s)
  | [], _, h, _, _, _, _, _, _, _ => h
  | c :: cs, s, h, hs, hw, hnext, hd, hn, hnd, hcs => by
    obtain ⟨hc, hnd⟩ := List.nodup_cons.mp hnd
    obtain ⟨⟨id, hf⟩, ha⟩ := hcs c List.mem_cons_self
    have hnc := (hs.child n id c hf).1
    have hle : s.1.nextNode ≤ c + fuel := by
      rw [hnext]
      exact Nat.le_trans hfuel (Nat.add_le_add_right hnc fuel)
    obtain ⟨hr, h1, hsame, hstay⟩ := childDeleted hs hf hle
    obtain ⟨hgo, hempty⟩ := ih s h hs hw hnext c id hf ha (hd.mono hnc)
    have hfst := Noting.onDestoryGo_fst fuel s c
    have hdel : Noted t₀ ((Noting.onDestoryGo fuel s c).delete c) := by
      refine hgo.delete ?_ fun hty => ?_
      · rw [hfst, hr.owner]
        exact ha
      · rw [hfst] at hty ⊢
        exact hempty ((hr.same c).1.symm.trans hty)
    have h1' : ((Noting.onDestoryGo fuel s c).delete c).1 = (s.1.onDestoryGo fuel c).delete c := by
      rw [Noting.delete, hfst]
    rw [List.foldl_cons]
    refine destoryChildren_noted hfuel ih cs hdel ?_ ?_ ?_ ?_ ?_ hnd fun c' hc' => ?_
    · rw [h1']; exact hs.removes h1
    · rw [h1']; exact hw.steps (h1.wall hw)
    · rw [h1']; exact h1.nextNode.trans hnext
    · rw [h1']; exact hd.removes hs h1 (Nat.lt_succ_self n)
    · rw [h1', hsame]; exact hn
    · obtain ⟨⟨id', hf'⟩, ha'⟩ := hcs c' (List.mem_cons_of_mem _ hc')
      rw [h1', hsame]
      exact ⟨⟨id', hf'⟩, hstay id' c' hf' (fun e => hc (e ▸ hc')) hn ha'⟩

/-- Everything below a node is deleted once; a room loses its users. -/
theorem onDestoryGo_noted (fuel : Nat) {s : Noting} (h : Noted t₀ s) (hs : Shape s.1)
    (hw : Bij s.1.w) {n : NodeRef} (hn : n < s.1.nextNode) (hfuel : s.1.nextNode ≤ n + fuel)
    (ha : (s.1.nodes n).alive = true) (hd : Down n s.1)
    (ht : (s.1.nodes n).nodeType = .titleNode ∨ (s.1.nodes n).nodeType = .titleRoom) :
    Noted t₀ (Noting.onDestoryGo fuel s n) ∧ ((s.1.nodes n).nodeType = .titleRoom →
      ∀ k, ((s.1.onDestoryGo fuel n).w.rooms n).users.find? k = none) := by
  induction fuel generalizing s n with
  | zero => exact absurd hn (Nat.not_lt.mpr hfuel)
  | succ fuel ih =>
    unfold Noting.onDestoryGo Titles.onDestoryGo
    rcases ht with ht | ht
    · rw [ht]
      have hle : s.1.nextNode ≤ n + 1 + fuel := by
        rw [Nat.add_assoc, Nat.add_comm 1]
        exact hfuel
      have hgo : Noted t₀ ((s.1.children n).foldl
          (fun s c => (Noting.onDestoryGo fuel s c).delete c) s) :=
        destoryChildren_noted hle (fun s' h' hs' hw' hnext c id hf hac hdc => by
          have hc := hs'.child n id c hf
          refine ih h' hs' hw' hc.2 ?_ hac hdc (hs'.type n id c hf)
          rw [hnext]
          exact Nat.le_trans hle (Nat.add_le_add_right hc.1 fuel))
        (s.1.children n) h hs hw rfl (hd.mono (Nat.le_succ n)) ha (hs.nodup_children n)
          fun c hc => by
          obtain ⟨id, hf⟩ := mem_children.mp hc
          exact ⟨⟨id, hf⟩, hd n id c (Nat.le_refl n) ha hf⟩
      refine ⟨hgo.same (fun m => ?_) (fun m => ?_) fun r he => he, fun e => ?_⟩
      · rw [clear, modifyNode_nodes]
        split
        · rename_i hm; rw [hm]
        · rfl
      · rw [clear, modifyNode_nodes]
        split
        · rename_i hm; rw [hm]
        · rfl
      · cases e
    · rw [ht]
      have hempty := World.onDestory_users s.1.w n (hw.toFiling.userId n)
      refine ⟨h.same (fun _ => rfl) (fun _ => rfl) fun r he => ?_, fun _ => hempty⟩
      by_cases hr : r = n
      · rw [hr]
        exact hempty
      · rw [show ({ s.1 with w := s.1.w.onDestory n } : Titles).w.rooms r = s.1.w.rooms r from
          World.onDestory_rooms_ne _ n hr]
        exact he

/-! ## `KickoutRedundantNodes` -/

section Kickout

variable {n : NodeRef} {ids : List Int} {s : Noting} (h : Noted t₀ s) (hs : Shape s.1)
  (hw : Bij s.1.w)
  (ha : (s.1.nodes n).alive = true) (hd : Down n s.1) {e : Int × NodeRef}
  (hf : (s.1.nodes n).nodes.find? e.1 = some e.2)
include hs hd hf

omit hw ha in
/-- The entry goes with the child, so no live node has a deleted child. -/
theorem Down.kickout : Down n (Titles.kickout n ids s.1 e) := by
  by_cases he : e.1 ∈ ids
  · rw [Titles.kickout, if_pos he]
    exact hd
  · obtain ⟨hr, -, hn, hleft⟩ := kickout_entry hs hf he
    intro m id r hm hma hf'
    have hf₀ := hr.sub m id r hf'
    have hra := hd m id r hm (hr.alive hma) hf₀
    cases hrd : ((Titles.kickout n ids s.1 e).nodes r).alive with
    | true => rfl
    | false =>
      rcases hleft r hra hrd with rfl | ⟨d, id', hfd, hdd⟩
      · obtain rfl := hs.one m id e.2 n e.1 hf₀ hf
        obtain rfl := (hs.id m id e.2 hf₀).symm.trans (hs.id m e.1 e.2 hf)
        rw [hn, StdMap.find?_erase, if_pos rfl] at hf'
        cases hf'
      · obtain rfl := hs.one m id r d id' hf₀ hfd
        rw [hma] at hdd
        cases hdd

include h hw ha in
theorem kickout_noted : Noted t₀ (Noting.kickout n ids s e) := by
  unfold Noting.kickout
  split
  · exact h
  · have hc := hs.child n e.1 e.2 hf
    have hedit := Removes.edit s.1 n (fun x => { x with nodes := x.nodes.erase e.1 })
      (fun _ => ⟨rfl, rfl, rfl, rfl⟩) (fun id r h => by
        rw [StdMap.find?_erase] at h
        split at h
        · cases h
        · exact h) (.refl _)
    have hne : ∀ m, m ≠ n → (s.1.modifyNode n
        fun x => { x with nodes := x.nodes.erase e.1 }).nodes m = s.1.nodes m :=
      fun m hm => by rw [modifyNode_nodes, if_neg hm]
    have hwall : (s.1.modifyNode n fun x => { x with nodes := x.nodes.erase e.1 }).w = s.1.w := rfl
    dsimp only
    generalize s.1.modifyNode n (fun x => { x with nodes := x.nodes.erase e.1 }) =
      t at hedit hne hwall ⊢
    have hec := hne e.2 (Nat.ne_of_gt hc.1)
    have halive : ∀ m, (t.nodes m).alive = (s.1.nodes m).alive := fun m => by
      by_cases hm : m = n
      · rw [hm, hedit.owner]
      · rw [hne m hm]
    have hsame : Noted t₀ (t, s.2) := by
      refine h.same halive (fun m => (hedit.same m).1) fun r he => ?_
      rw [hwall]
      exact he
    have hdc : Down e.2 t := fun m id r hm hma hf' => by
      rw [halive] at hma ⊢
      exact hd m id r (Nat.le_trans (Nat.le_of_lt hc.1) hm) hma (hedit.sub m id r hf')
    have hec' : (t.nodes e.2).alive = true := by
      rw [hec]
      exact hd n e.1 e.2 (Nat.le_refl n) ha hf
    have hty : (t.nodes e.2).nodeType = .titleNode ∨ (t.nodes e.2).nodeType = .titleRoom := by
      rw [hec]
      exact hs.type n e.1 e.2 hf
    have hlt : e.2 < t.nextNode := by
      rw [hedit.nextNode]
      exact hc.2
    obtain ⟨hr, -⟩ := onDestory_removes (hs.removes hedit) hty
    obtain ⟨hgo, hempty⟩ := onDestoryGo_noted t.nextNode hsame (hs.removes hedit)
      (hw.steps (hedit.wall hw)) hlt (Nat.le_add_left ..) hec' hdc hty
    have hfst := Noting.onDestoryGo_fst t.nextNode (t, s.2) e.2
    refine hgo.delete ?_ fun htr => ?_
    · rw [hfst]
      exact hr.owner.trans hec'
    · rw [hfst] at htr ⊢
      exact hempty ((hr.same e.2).1.symm.trans htr)

end Kickout

theorem kickoutGo_noted {n : NodeRef} (ids : List Int) :
    ∀ (es : List (Int × NodeRef)) {s : Noting}, Noted t₀ s → Shape s.1 → Bij s.1.w →
      (s.1.nodes n).alive = true → Down n s.1 → es.Pairwise (fun a b => a.1 < b.1) →
      (∀ e ∈ es, (s.1.nodes n).nodes.find? e.1 = some e.2) →
      Noted t₀ (es.foldl (Noting.kickout n ids) s)
  | [], _, h, _, _, _, _, _, _ => h
  | e :: es, s, h, hs, hw, ha, hd, hord, hes => by
    obtain ⟨hlt, hord⟩ := List.pairwise_cons.mp hord
    have hf := hes e List.mem_cons_self
    have hfst := Noting.kickout_fst n ids s e
    have hr : Removes n s.1 (Titles.kickout n ids s.1 e) ∧
        ∀ e' ∈ es, ((Titles.kickout n ids s.1 e).nodes n).nodes.find? e'.1 = some e'.2 := by
      by_cases he : e.1 ∈ ids
      · rw [Titles.kickout, if_pos he]
        exact ⟨.refl n s.1, fun e' he' => hes e' (List.mem_cons_of_mem _ he')⟩
      · obtain ⟨hr, -, hn, -⟩ := kickout_entry hs hf he
        refine ⟨hr, fun e' he' => ?_⟩
        rw [hn, StdMap.find?_erase, if_neg (ne_of_gt (hlt e' he'))]
        exact hes e' (List.mem_cons_of_mem _ he')
    obtain ⟨hr, hes'⟩ := hr
    refine kickoutGo_noted ids es (kickout_noted h hs hw ha hd hf) ?_ ?_ ?_ ?_ hord ?_
    · rw [hfst]; exact hs.removes hr
    · rw [hfst]; exact hw.steps (hr.wall hw)
    · rw [hfst, hr.owner]; exact ha
    · rw [hfst]; exact Down.kickout hs hd hf
    · rw [hfst]; exact hes'

end OnDestory

/-- **What a refresh deletes** is noted once, and the rooms in it have no users
left. -/
theorem kickoutRedundantNodes_noted {t : Titles} (h : Tree t) (hw : Bij t.w) {n : NodeRef}
    (ha : (t.nodes n).alive = true) (ids : List Int) :
    Noted t (Noting.kickoutRedundantNodes t n ids) :=
  kickoutGo_noted ids _ (.refl t) h.toShape hw ha (fun m id r _ hm hf => h.down m id r hm hf)
    (t.nodes n).nodes.sorted fun e he => (StdMap.mem_entries_iff _ e.1 e.2).mp he

end MonitorAgent.L4
