import MonitorAgent.L5Concurrency.ListedRooms

/-!
# A thread at a node goes on

Every step of `OnItemExpanded` keeps `Inv`: the rooms' items are in order, and
a node is without items below its own only where its thread has left it so.
-/
namespace MonitorAgent.L5.RoomCalls

open MonitorAgent.L3 MonitorAgent.L4 LTS

/-- Where the threads are when one goes on at `n`, and its child `c` with it. -/
theorem St.reach_reach_expanding (x : St) (c n : NodeRef) (e e' : Expansion) (m : NodeRef) :
    ((x.reach c e).reach n e').expanding m =
      if m = n then e' else if m = c then e else x.expanding m := by
  refine (Function.update_apply ..).trans ?_
  split
  · rfl
  · exact Function.update_apply ..

namespace Inv

variable {x : St} (h : Inv x) {n : NodeRef}
include h

theorem expand (hn : Expandable x.s.t n) (hidle : x.expanding n = .idle) :
    Inv (x.onItemExpanded n) := by
  have hb := h.branchAt hidle hn
  refine h.alone (by rw [hidle]; simp) h.tidy rfl rfl rfl (fun _ _ => rfl) (fun _ => rfl)
    (fun _ _ hi => ⟨(h.thread _).alive hi, rfl⟩) ?_ fun _ => hb.start
  split <;> exact hn

/-- `AddNull`, after what may have taken children away. -/
theorem finish {s : TreeItems} {d : Document} {es : List Entry}
    (hmade : ¬ (x.expanding n = .filed ∨ x.expanding n = .placed))
    (hb : Expansion.Branch (x.s.t.nodes n).nodes (x.s.items n) (.listing d es))
    (htidy : Tidy x.pc s.t) (hnext : s.t.nextNode = x.s.t.nextNode) (hitems : s.items = x.s.items)
    (htype : ∀ m, (s.t.nodes m).nodeType = (x.s.t.nodes m).nodeType)
    (hbusy : ∀ m, m ≠ n → x.expanding m ≠ .idle → (s.t.nodes m).alive = true ∧
      (s.t.nodes m).nodes = (x.s.t.nodes m).nodes)
    (hsub : (x.s.t.nodes n).nodes.isEmpty = true → (s.t.nodes n).nodes.isEmpty = true) :
    Inv (x.finish s n) := by
  have ht : (x.finish s n).s.t = s.t := by
    change (if (s.t.nodes n).nodes.isEmpty then s.addNull n else s).t = s.t
    split <;> rfl
  have hend : ∀ m, (x.finish s n).s.items m =
      if m = n then (if (s.t.nodes n).nodes.isEmpty then x.s.items n ++ [none] else x.s.items n)
        else x.s.items m := by
    intro m
    change (if (s.t.nodes n).nodes.isEmpty then s.addNull n else s).items m = _
    cases (s.t.nodes n).nodes.isEmpty with
    | true =>
      rw [if_pos rfl, if_pos rfl, TreeItems.addNull_items, hitems]
    | false =>
      by_cases hm : m = n
      · rw [if_pos hm, hm, ← hitems]
        rfl
      · rw [if_neg hm, ← hitems]
        rfl
  refine h.alone hmade (by rw [ht]; exact htidy) rfl rfl (by rw [ht]; exact hnext) (fun m hm => ?_)
    (fun m => by rw [ht]; exact htype m) (fun m hm hi => by rw [ht]; exact hbusy m hm hi) trivial
    fun _ => ?_
  · rw [hend, if_neg hm]
  · rw [hend, if_pos rfl, ht]
    exact hb.finish hsub

theorem answer {response : Option Document} {x' : St} (hs : x.answer n response = some x') :
    Inv x' := by
  unfold St.answer at hs
  cases he : x.expanding n with
  | requesting =>
    have hn := h.threadAt he
    have hb := h.branchAt he hn
    have hmade : ¬ (x.expanding n = .filed ∨ x.expanding n = .placed) := by rw [he]; simp
    rw [he] at hs
    cases response with
    | some d =>
      cases hs
      exact h.alone hmade h.tidy rfl rfl rfl (fun _ _ => rfl) (fun _ => rfl)
        (fun _ _ hi => ⟨(h.thread _).alive hi, rfl⟩) hn fun _ => hb
    | none =>
      cases hs
      have hnone : Expansion.Branch (x.s.t.nodes n).nodes (x.s.items n)
        (.listing ⟨.other, [], []⟩ []) := hb
      exact h.finish hmade hnone h.tidy rfl rfl (fun _ => rfl)
        (fun _ _ hi => ⟨(h.thread _).alive hi, rfl⟩) id
  | idle | filed | placed | clearing | listing | inserting | inserted =>
    rw [he] at hs
    cases hs

/-- `DelAll`, of an item or of the children that are left. -/
theorem clear (he : x.expanding n = .clearing) {x' : St} (hs : x.proceed n = some x') : Inv x' := by
  have hn := h.threadAt he
  have hb := h.branchAt he hn
  have hmade : ¬ (x.expanding n = .filed ∨ x.expanding n = .placed) := by rw [he]; simp
  unfold St.proceed at hs
  rw [he] at hs
  dsimp only at hs
  split at hs
  · rename_i i items hi
    cases hs
    rw [hi] at hb
    refine h.alone (e := .clearing) hmade h.tidy rfl ?_ rfl (fun m hm => ?_) (fun _ => rfl)
      (fun _ _ hi => ⟨(h.thread _).alive hi, rfl⟩) hn fun _ => ?_
    · exact (Function.update_eq_self_iff.mpr he.symm).symm
    · exact Function.update_of_ne hm _ _
    · change Expansion.Branch _ (Function.update x.s.items n items n) .clearing
      rw [Function.update_self]
      exact hb.tail
  · cases hs
    have hnode : ∀ m, (x.s.delAll n).t.nodes m =
        if m = n then { x.s.t.nodes n with nodesOrder := [] } else x.s.t.nodes m :=
      Tree.delAll_nodes hb.2
    have hsame : ∀ m, ((x.s.delAll n).t.nodes m).nodeType = (x.s.t.nodes m).nodeType ∧
        ((x.s.delAll n).t.nodes m).alive = (x.s.t.nodes m).alive ∧
        ((x.s.delAll n).t.nodes m).nodes = (x.s.t.nodes m).nodes := by
      intro m
      rw [hnode]
      split
      · rename_i hm
        rw [hm]
        exact ⟨rfl, rfl, rfl⟩
      · exact ⟨rfl, rfl, rfl⟩
    refine h.alone hmade (h.tidy.delAll hb.2) rfl rfl (Titles.deleteAll_rest _ x.s.t).1
      (fun m hm => Function.update_of_ne hm _ _) (fun m => (hsame m).1) (fun m _ hi => ?_) ?_
      fun _ => ?_
    · exact ⟨(hsame m).2.1.trans ((h.thread m).alive hi), (hsame m).2.2⟩
    · exact ⟨(hsame n).2.1.trans hn.1, (hsame n).1.trans hn.2⟩
    · change Expansion.Branch ((x.s.delAll n).t.nodes n).nodes (Function.update x.s.items n [] n)
        .requesting
      rw [Function.update_self, (hsame n).2.2]
      exact hb.cleared

/-- A child that is listed again. -/
theorem update {d : Document} {e : Entry} {es : List Entry}
    (he : x.expanding n = .listing d (e :: es))
    (child : NodeRef) :
    Inv ({ x with s := { x.s with t := x.s.t.update child e.name e.order e.usercount } }.reach n
      (.listing d es)) := by
  have hn := h.threadAt he
  have hb := h.branchAt he hn
  have hnode := x.s.t.update_samePlace child e.name e.order e.usercount
  refine h.alone (by rw [he]; simp) ?_ rfl rfl rfl (fun _ _ => rfl) (fun m => (hnode m).nodeType)
    (fun m _ hi => ⟨(hnode m).alive.trans ((h.thread m).alive hi), (hnode m).nodes⟩) ?_ fun _ => ?_
  · exact h.tidy.congr (h.tidy.tree.update child e.name e.order e.usercount) rfl rfl fun m =>
      ⟨(hnode m).nodeType, (hnode m).alive⟩
  · exact ⟨(hnode n).alive.trans hn.1, (hnode n).nodeType.trans hn.2⟩
  · change Expansion.Branch ((x.s.t.update child e.name e.order e.usercount).nodes n).nodes
      (x.s.items n) (.listing d es)
    rw [(hnode n).nodes]
    exact hb

/-- The listing is through. -/
theorem kickout {d : Document} (he : x.expanding n = .listing d [])
    (hspares : x.Spares (x.finish (x.s.kickoutRedundantNodes n d.ids) n)) :
    Inv (x.finish (x.s.kickoutRedundantNodes n d.ids) n) := by
  have hn := h.threadAt he
  have hb := h.branchAt he hn
  have ht : (x.finish (x.s.kickoutRedundantNodes n d.ids) n).s.t =
      x.s.t.kickoutRedundantNodes n d.ids := by
    unfold St.finish St.reach
    dsimp only
    split <;> rfl
  obtain ⟨hk, -⟩ := kickout_removes h.tidy.tree.toShape n d.ids
  have hspared : ∀ m, x.Busy m → ((x.s.t.kickoutRedundantNodes n d.ids).nodes m).alive = true := by
    intro m hm
    have hlt : m < x.s.t.nextNode := by
      rcases hm with hm | hm
      · exact h.tidy.tree.inUse m (h.tidy.locked m hm).1
      · exact h.inUse hm
    have hs := hspares m hlt hm
    rw [ht] at hs
    exact hs
  refine h.finish (by rw [he]; simp) hb (h.tidy.kickout hn.1 hn.2 d.ids fun r _ hr =>
    hspared r (.inl hr))
    hk.nextNode rfl (fun m => (hk.same m).1) (fun m hm hi => ?_) fun hempty => ?_
  · have ha := hspared m (.inr hi)
    exact ⟨ha, congrArg Node.nodes (hk.kept m hm ha)⟩
  · refine (StdMap.isEmpty_iff _).mpr fun id => ?_
    cases hf : ((x.s.t.kickoutRedundantNodes n d.ids).nodes n).nodes.find? id with
    | none => exact hf
    | some c =>
      have hold := hk.sub n id c hf
      rw [(StdMap.isEmpty_iff _).mp hempty] at hold
      cases hold

/-- A child that is new: no thread knows it yet. -/
theorem file {d : Document} {e : Entry} {es : List Entry}
    (he : x.expanding n = .listing d (e :: es))
    (hnew : x.s.t.getNodeOrRoom n e.id = none) : Inv (x.file n d e es) := by
  have hn := h.threadAt he
  have hb := h.branchAt he hn
  have hlt := h.tidy.tree.inUse n hn.1
  have hne : n ≠ x.s.t.nextNode := Nat.ne_of_lt hlt
  have hunused : x.expanding x.s.t.nextNode = .idle := by
    by_contra hi
    exact Nat.lt_irrefl _ (h.inUse hi)
  have hexp : ∀ m, (x.file n d e es).expanding m =
      if m = n then .inserting d x.s.t.nextNode es
      else if m = x.s.t.nextNode then .filed else x.expanding m :=
    St.reach_reach_expanding _ _ _ _ _
  have hpc : (x.file n d e es).pc = Function.update x.pc x.s.t.nextNode
      (if d.heading = Heading.dynamicNode then .new else .unlocked) := rfl
  have hs : (x.file n d e es).s = fileItem x.s n d.heading e := rfl
  have hitems : ∀ m, (fileItem x.s n d.heading e).items m =
      if m = x.s.t.nextNode then [] else x.s.items m := fun m => Function.update_apply ..
  have hnodes := fileChild_nodes x.s.t n d.heading e hlt
  have hself := fileChild_self x.s.t n d.heading e hlt
  have hsame := fun m (hm : m ≠ x.s.t.nextNode) => fileChild_type x.s.t n d.heading e hlt hm
  refine h.frame n x.s.t.nextNode ?_ (fun m hm hmc => ?_) (fun m hm hmc => ?_)
    (fun m _ hmc => ?_) (fun m hm hmc hi => ?_) (fun m child hm hc => ?_) (fun m hm => ?_)
    fun m hm hty => ?_
  · rw [hpc, hs]
    exact h.tidy.file hn.1 hn.2 d.heading hnew
  · have hnext : (fileItem x.s n d.heading e).t.nextNode = x.s.t.nextNode + 1 :=
      (fileChild_rest x.s.t n d.heading e).1
    rw [hs, hnext] at hm
    exact Nat.lt_of_le_of_ne (Nat.lt_succ_iff.mp hm) hmc
  · rw [hexp, if_neg hm, if_neg hmc, hs, hitems, if_neg hmc, hpc, Function.update_of_ne hmc]
    exact ⟨rfl, rfl, id⟩
  · rw [hs]
    exact (hsame m hmc).1
  · rw [hs]
    refine ⟨(hsame m hmc).2.trans ((h.thread m).alive hi), (hnodes m).trans ?_⟩
    rw [if_neg hm, if_neg hmc]
  · -- an older child is made by another thread
    obtain ⟨hmade, -⟩ := h.child hc
    constructor
    · rintro rfl
      rw [he] at hmade
      simp at hmade
    · rintro rfl
      rw [hunused] at hmade
      simp at hmade
  · rw [hexp]
    by_cases hmn : m = n
    · rw [if_pos hmn, hmn]
      refine ⟨⟨?_, ?_⟩, ?_⟩
      · rw [hs]
        exact (hsame n hne).2.trans hn.1
      · rw [hs]
        exact (hsame n hne).1.trans hn.2
      · rw [hexp, if_neg hne.symm, if_pos rfl]
    · obtain rfl := hm.resolve_left hmn
      rw [if_neg hmn, if_pos rfl]
      refine ⟨by rw [hs]; exact hself.2, ?_⟩
      intro hty
      rw [hs] at hty
      rw [hpc, Function.update_self, if_pos]
      by_contra hd
      have hty' := hself.1.symm.trans hty
      rw [if_neg hd] at hty'
      cases hty'
  · rw [hs] at hty ⊢
    rw [hexp, hitems]
    have hchildren : ((fileItem x.s n d.heading e).t.nodes m).nodes = _ := hnodes m
    rw [hchildren]
    by_cases hmn : m = n
    · rw [if_pos hmn, if_pos hmn, hmn, if_neg hne]
      exact hb.file hnew (h.tidy.tree.fresh n)
    · obtain rfl := hm.resolve_left hmn
      rw [if_neg hmn, if_neg hmn, if_pos rfl, if_pos rfl, if_pos rfl]
      exact .made

/-- The thread at `n` and its child are apart from those at other nodes. -/
theorem apart {child : NodeRef} (hc : (x.expanding n).child? = some child) :
    n ≠ child ∧ ∀ m child', m ≠ n → (x.expanding m).child? = some child' →
      child' ≠ n ∧ child' ≠ child := by
  have hmade : ¬ (x.expanding n = .filed ∨ x.expanding n = .placed) := by
    intro hm
    rcases hm with hm | hm <;> rw [hm] at hc <;> cases hc
  refine ⟨?_, fun m child' hm hc' => ⟨?_, ?_⟩⟩
  · rintro rfl
    exact hmade (h.child hc).1
  · rintro rfl
    exact hmade (h.child hc').1
  · rintro rfl
    exact hm (h.child_inj hc hc')

/-- The item of the new child. -/
theorem place {d : Document} {child : NodeRef} {es : List Entry}
    (he : x.expanding n = .inserting d child es) : Inv (x.place n d child es) := by
  have hn := h.threadAt he
  have hb := h.branchAt he hn.1
  have hc : (x.expanding n).child? = some child := by rw [he]; rfl
  have hmade := h.threadAt hn.2
  obtain ⟨hne, hapart⟩ := h.apart hc
  have hchild := fun hty => h.branch child (h.tidy.tree.inUse child hmade.1) hty
  have hexp : ∀ m, (x.place n d child es).expanding m =
      if m = n then .inserted d child es else if m = child then .placed else x.expanding m :=
    St.reach_reach_expanding _ _ _ _ _
  have hitems : ∀ m, m ≠ n → (placeItem x.s n child).items m = x.s.items m := fun m hm =>
    Function.update_of_ne hm _ _
  refine h.frame n child h.tidy (fun _ hm _ => hm) (fun m hm hmc => ?_) (fun _ _ _ => rfl)
    (fun _ _ _ hi => ⟨(h.thread _).alive hi, rfl⟩) hapart (fun m hm => ?_) fun m hm hty => ?_
  · rw [hexp, if_neg hm, if_neg hmc]
    exact ⟨rfl, hitems m hm, id⟩
  · rw [hexp]
    by_cases hmn : m = n
    · rw [if_pos hmn, hmn]
      refine ⟨hn.1, ?_⟩
      rw [hexp, if_neg hne.symm, if_pos rfl]
    · obtain rfl := hm.resolve_left hmn
      rw [if_neg hmn, if_pos rfl]
      exact hmade
  · rw [hexp]
    by_cases hmn : m = n
    · rw [if_pos hmn, hmn]
      change Expansion.Branch _ (Function.update x.s.items n (x.s.items n ++ [some child]) n) _
      rw [Function.update_self]
      exact hb.place
    · obtain rfl := hm.resolve_left hmn
      have hbc := hchild hty
      rw [hn.2] at hbc
      rw [if_neg hmn, if_pos rfl]
      change Expansion.Branch _ ((placeItem x.s n m).items m) .placed
      rw [hitems m hmn]
      exact hbc

/-- The empty item below the new one. -/
theorem order {d : Document} {child : NodeRef} {es : List Entry}
    (he : x.expanding n = .inserted d child es) : Inv (x.order n d child es) := by
  have hn := h.threadAt he
  have hb := h.branchAt he hn.1
  have hc : (x.expanding n).child? = some child := by rw [he]; rfl
  have hmade := h.threadAt hn.2
  obtain ⟨hne, hapart⟩ := h.apart hc
  have hexp : ∀ m, (x.order n d child es).expanding m =
      if m = n then .listing d es else if m = child then .idle else x.expanding m :=
    St.reach_reach_expanding _ _ _ _ _
  have hitems : ∀ m, (orderItem x.s n child).items m =
      if m = child then x.s.items child ++ [none] else x.s.items m :=
    TreeItems.addNull_items x.s child
  have hsame := orderChild_same x.s.t n child
  refine h.frame n child ?_ (fun _ hm _ => hm) (fun m hm hmc => ?_) (fun m _ _ => (hsame m).1)
    (fun m _ _ hi => ?_) hapart (fun m hm => ?_) fun m hm hty => ?_
  · exact h.tidy.order fun hty => ⟨h.tidy.tree.inUse child hmade.1, hmade.2 hty⟩
  · rw [hexp, if_neg hm, if_neg hmc]
    refine ⟨rfl, (hitems m).trans (if_neg hmc), ?_⟩
    intro hpc
    exact (Function.update_of_ne hmc _ _).trans hpc
  · exact ⟨(hsame m).2.2.2.2.trans ((h.thread m).alive hi), (hsame m).2.2.2.1⟩
  · rw [hexp]
    by_cases hmn : m = n
    · rw [if_pos hmn, hmn]
      exact ⟨(hsame n).2.2.2.2.trans hn.1.1, (hsame n).1.trans hn.1.2⟩
    · obtain rfl := hm.resolve_left hmn
      rw [if_neg hmn, if_pos rfl]
      trivial
  · rw [hexp]
    have hnodes : ((orderItem x.s n child).t.nodes m).nodes = (x.s.t.nodes m).nodes :=
      (hsame m).2.2.2.1
    change Expansion.Branch ((orderItem x.s n child).t.nodes m).nodes
      ((orderItem x.s n child).items m) _
    rw [hnodes, hitems]
    by_cases hmn : m = n
    · rw [if_pos hmn, hmn, if_neg hne]
      exact hb.order
    · obtain rfl := hm.resolve_left hmn
      rw [if_neg hmn, if_pos rfl, if_pos rfl]
      exact ⟨iff_of_false (by simp) id, trivial⟩

theorem proceed {x' : St} (hs : x.proceed n = some x') (hspares : x.Spares x') : Inv x' := by
  cases he : x.expanding n with
  | clearing => exact h.clear he hs
  | listing d es =>
    unfold St.proceed at hs
    rw [he] at hs
    cases es with
    | nil =>
      cases hs
      exact h.kickout he hspares
    | cons e es =>
      cases hs
      cases hchild : x.s.t.getNodeOrRoom n e.id with
      | some child =>
        have hupdate := h.update he child
        unfold St.parse
        rw [hchild]
        exact hupdate
      | none =>
        have hfile := h.file he hchild
        unfold St.parse
        rw [hchild]
        exact hfile
  | inserting d child es =>
    unfold St.proceed at hs
    rw [he] at hs
    cases hs
    exact h.place he
  | inserted d child es =>
    unfold St.proceed at hs
    rw [he] at hs
    cases hs
    exact h.order he
  | idle | filed | placed | requesting =>
    unfold St.proceed at hs
    rw [he] at hs
    cases hs

end Inv

end MonitorAgent.L5.RoomCalls
