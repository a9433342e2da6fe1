import MonitorAgent.L4Titles.Forest
import MonitorAgent.L4Titles.WatchsList

/-!
# Items stay where they hang

Whatever a listing says, reading it moves no item: what is in `nodes_order_`
hangs under that node (`Hung`), deleted or not, and the parent item of a node
in use never changes (`Rehangs`). So the nodes on the stack of a walk, and
those it pushes, stay apart.

* `onTraverse_stack`: a call leaves on the stack what it did not pop, and
  nodes that hang below some it found there.
* `onTraverse_stack_ne`: so it never leaves a stack as it was, unless it is empty.
-/
namespace MonitorAgent.L4

open L3 Titles

/-- `nodes_order_` holds items that hang under the node, each once. -/
structure Hung (t : Titles) : Prop extends Shape t where
  climbs : Climbs t
  member : ∀ n r, r ∈ (t.nodes n).nodesOrder → r < t.nextNode ∧
    ((t.nodes n).nodeType = .titleNode → (t.nodes r).parentItem = some n)
  nodup : ∀ n, (t.nodes n).nodesOrder.Nodup

/-- From `t` to `t'`, no item in use moves. -/
structure Rehangs (t t' : Titles) : Prop where
  hung : Hung t'
  next : t.nextNode ≤ t'.nextNode
  same : ∀ m, m < t.nextNode → (t'.nodes m).nodeType = (t.nodes m).nodeType ∧
    (t'.nodes m).parentItem = (t.nodes m).parentItem

namespace Rehangs

variable {t t' t'' : Titles}

theorem refl (h : Hung t) : Rehangs t t := ⟨h, Nat.le_refl _, fun _ _ => ⟨rfl, rfl⟩⟩

theorem trans (h : Rehangs t t') (h' : Rehangs t' t'') : Rehangs t t'' where
  hung := h'.hung
  next := Nat.le_trans h.next h'.next
  same m hm := by
    obtain ⟨h1, h2⟩ := h'.same m (Nat.lt_of_lt_of_le hm h.next)
    rw [h1, h2]
    exact h.same m hm

theorem below_iff (h : Rehangs t t') (ht : Hung t) {a b : NodeRef} (hb : b < t.nextNode) :
    Below t' a b ↔ Below t a b := by
  constructor
  · intro hab
    exact hab.congr h.hung.climbs (fun m hm => (h.same m hm).2.symm) hb
  · intro hab
    exact hab.congr ht.climbs (fun m hm => (h.same m hm).2) hb

end Rehangs

namespace Hung

variable {t : Titles} (h : Hung t)
include h

theorem setWall (w : World) : Hung { t with w := w } :=
  ⟨⟨h.child, h.type, h.id, h.one, h.leaf, h.parent⟩, h.climbs, h.member, h.nodup⟩

/-- Nodes that keep their items, and lose entries at most. -/
theorem sub {t' : Titles} (hs : Shape t') (hnext : t'.nextNode = t.nextNode)
    (hsame : ∀ m, (t'.nodes m).nodeType = (t.nodes m).nodeType ∧
      (t'.nodes m).parentItem = (t.nodes m).parentItem)
    (hset : ∀ m, (t'.nodes m).nodesOrder.Sublist (t.nodes m).nodesOrder) : Rehangs t t' where
  hung := by
    refine ⟨hs, fun r d hp => h.climbs r d ((hsame r).2 ▸ hp), fun n r hr => ?_, fun n =>
      (h.nodup n).sublist (hset n)⟩
    rw [hnext, (hsame n).1, (hsame r).2]
    exact h.member n r ((hset n).subset hr)
  next := Nat.le_of_eq hnext.symm
  same m _ := hsame m

theorem update (c : NodeRef) (name : String) (order usercount : Nat) :
    Rehangs t (t.update c name order usercount) := by
  have hnode := t.update_samePlace c name order usercount
  refine h.sub (h.toShape.update c name order usercount) rfl (fun m =>
    ⟨(hnode m).nodeType, (hnode m).parentItem⟩) fun m => ?_
  rw [(hnode m).nodesOrder]

theorem delAll (n : NodeRef) : Rehangs t (t.delAll n) := by
  have hnode : ∀ m, ((t.deleteAll (t.children n)).nodes m).nodeType = (t.nodes m).nodeType ∧
      ((t.deleteAll (t.children n)).nodes m).parentItem = (t.nodes m).parentItem ∧
      ((t.deleteAll (t.children n)).nodes m).nodesOrder = (t.nodes m).nodesOrder := fun m => by
    rw [deleteAll_nodes]
    split <;> exact ⟨rfl, rfl, rfl⟩
  have hclear : ∀ m, (t.delAll n).nodes m = if m = n then
      { (t.deleteAll (t.children n)).nodes n with nodes := .empty, nodesOrder := [] }
      else (t.deleteAll (t.children n)).nodes m :=
        fun m => by rw [Titles.delAll, clear, modifyNode_nodes]
  refine h.sub (h.toShape.delAll n) (deleteAll_rest _ t).1 (fun m => ?_) fun m => ?_
  · rw [hclear]
    split
    · rename_i he; rw [he]; exact ⟨(hnode n).1, (hnode n).2.1⟩
    · exact ⟨(hnode m).1, (hnode m).2.1⟩
  · rw [hclear]
    split
    · exact List.nil_sublist _
    · rw [(hnode m).2.2]

theorem addChild {n : NodeRef} (hn : n < t.nextNode) (heading : Heading) {e : Entry}
    (ht : (t.nodes n).nodeType = .titleNode) (hnew : (t.nodes n).nodes.find? e.id = none) :
    Rehangs t (t.addChild n heading e) := by
  have hself := Shape.addChild_self (t := t) hn heading (e := e)
  have hsame := fun m hm => Shape.addChild_type (t := t) hn heading (e := e) m hm
  have hnodes := addChild_nodes t n heading e (Nat.ne_of_lt hn)
  have hroom : (t.nodes n).nodeType ≠ .titleRoom := by rw [ht]; decide
  -- the new item hangs under `n`
  have hitem : ((t.addChild n heading e).nodes t.nextNode).parentItem = some n := by
    rw [hself, ht]
    rfl
  have hold : ∀ m r, r ∈ (t.nodes m).nodesOrder → r ≠ t.nextNode :=
    fun m r hr => Nat.ne_of_lt (h.member m r hr).1
  have hset : ∀ m, m ≠ t.nextNode → m ≠ n → ((t.addChild n heading e).nodes m).nodesOrder =
    (t.nodes m).nodesOrder :=
    fun m hm hmn => by rw [hnodes, if_neg hmn, if_neg hm]
  refine ⟨⟨h.toShape.addChild hn heading hnew hroom, fun r d hp => ?_, fun m r hr => ?_, fun m =>
    ?_⟩, ?_, fun m hm => ?_⟩
  · by_cases he : r = t.nextNode
    · rw [he, hitem] at hp
      rw [he, ← Option.some.inj hp]
      exact hn
    · rw [(hsame r he).2.2.1] at hp
      exact h.climbs r d hp
  · rw [(addChild_rest t n heading e).1]
    by_cases hm : m = t.nextNode
    · rw [hm, hself] at hr
      cases hr
    · rw [(hsame m hm).1]
      have hmem : ∀ r, r ∈ (t.nodes m).nodesOrder → r < t.nextNode + 1 ∧
        ((t.nodes m).nodeType = .titleNode →
          ((t.addChild n heading e).nodes r).parentItem = some m) := fun r hr => by
        obtain ⟨hlt, hp⟩ := h.member m r hr
        exact ⟨Nat.lt_succ_of_lt hlt, fun hty => (hsame r (hold m r hr)).2.2.1.trans (hp hty)⟩
      by_cases hmn : m = n
      · subst hmn
        rw [Indexed.addChild_set hn] at hr
        rcases OrderSet.mem_insert hr with rfl | hr
        · exact ⟨Nat.lt_succ_self _, fun _ => hitem⟩
        · exact hmem r hr
      · rw [hset m hm hmn] at hr
        exact hmem r hr
  · by_cases hm : m = t.nextNode
    · rw [hm, hself]
      exact .nil
    · by_cases hmn : m = n
      · subst hmn
        rw [Indexed.addChild_set hn]
        exact OrderSet.nodup_insert (fun hr => hold m _ hr rfl) (h.nodup m)
      · rw [hset m hm hmn]
        exact h.nodup m
  · rw [(addChild_rest t n heading e).1]
    exact Nat.le_succ _
  · exact ⟨(hsame m (Nat.ne_of_lt hm)).1, (hsame m (Nat.ne_of_lt hm)).2.2.1⟩

/-! ## Reading a listing -/

section Parse

variable {n : NodeRef} (hn : n < t.nextNode) (ht : (t.nodes n).nodeType = .titleNode)
include hn ht

theorem parseEntry (heading : Heading) (e : Entry) :
    Rehangs t (Titles.parseEntry n heading t e) := by
  unfold Titles.parseEntry
  split
  · exact h.update _ _ _ _
  · exact h.addChild hn heading ht ‹_›

omit h hn ht in
theorem parse (heading : Heading) : ∀ (es : List Entry) {t : Titles}, Hung t → n < t.nextNode →
    (t.nodes n).nodeType = .titleNode → Rehangs t (es.foldl (Titles.parseEntry n heading) t)
  | [], _, h, _, _ => .refl h
  | e :: es, _, h, hn, ht => by
    have h1 := h.parseEntry hn ht heading e
    exact h1.trans (parse heading es h1.hung (Nat.lt_of_lt_of_le hn h1.next)
      ((h1.same n hn).1.trans ht))

theorem onItemExpanded (listing : Int → Option Document) :
    Rehangs t (t.onItemExpanded listing n) := by
  have h0 : Rehangs t (if (t.nodes n).nodes.isEmpty then t.delAll n else t) := by
    split
    · exact h.delAll n
    · exact .refl h
  rw [Titles.onItemExpanded]
  refine h0.trans ?_
  generalize (if (t.nodes n).nodes.isEmpty then t.delAll n else t) = t₀ at h0
  cases listing (t₀.nodes n).id with
  | none => exact .refl h0.hung
  | some d =>
    have h1 :=
    parse d.heading d.entries h0.hung (Nat.lt_of_lt_of_le hn h0.next) ((h0.same n hn).1.trans ht)
    obtain ⟨hk, -⟩ := kickout_removes h1.hung.toShape n d.ids
    exact h1.trans (h1.hung.sub (h1.hung.toShape.removes hk) hk.nextNode
      (fun m => ⟨(hk.same m).1, (hk.same m).2.2⟩) hk.set)

end Parse
end Hung

/-! ## The stack of a walk -/

/-- Nodes in use, none of them below another. -/
def OnStack (t : Titles) (ns : List NodeRef) : Prop :=
  (∀ n ∈ ns, n < t.nextNode) ∧ ns.Pairwise (Unrelated t)

theorem Rehangs.onStack {t t' : Titles} (h : Rehangs t t') (ht : Hung t) {ns : List NodeRef}
    (hs : OnStack t ns) :
    OnStack t' ns := by
  refine ⟨fun n hn => Nat.lt_of_lt_of_le (hs.1 n hn) h.next,
    hs.2.imp_of_mem fun {a b} ha hb ⟨hne, hab, hba⟩ => ⟨hne, ?_, ?_⟩⟩
  · rwa [h.below_iff ht (hs.1 b hb)]
  · rwa [h.below_iff ht (hs.1 a ha)]

/-- The children of the first node come in its place. -/
theorem OnStack.expand {t : Titles} (ht : Hung t) {n : NodeRef} {ns : List NodeRef}
    (hs : OnStack t (n :: ns)) (hty : (t.nodes n).nodeType = .titleNode)
    (hlt : ∀ r ∈ (t.nodes n).nodesOrder, n < r) :
    OnStack t ((t.nodes n).nodesOrder ++ ns) := by
  obtain ⟨hap, hap'⟩ := List.pairwise_cons.mp hs.2
  have hchild : ∀ r ∈ (t.nodes n).nodesOrder, r < t.nextNode ∧ (t.nodes r).parentItem = some n :=
    fun r hr =>
    ⟨(ht.member n r hr).1, (ht.member n r hr).2 hty⟩
  have hnot : ∀ a b, a ∈ (t.nodes n).nodesOrder → b ∈ (t.nodes n).nodesOrder → ¬ Below t a b :=
    fun a b ha hb hab => by
    rcases (below_iff (hchild b hb).2).mp hab with he | he
    · exact Nat.ne_of_lt (hlt a ha) he
    · exact Nat.lt_asymm (hlt a ha) (ht.climbs.lt he)
  refine ⟨fun m hm => ?_, List.pairwise_append.mpr ⟨?_, hap', fun a ha b hb => ?_⟩⟩
  · rcases List.mem_append.mp hm with hm | hm
    · exact (hchild m hm).1
    · exact hs.1 m (List.mem_cons_of_mem _ hm)
  · exact (ht.nodup n).imp_of_mem fun {a b} ha hb hab => ⟨hab, hnot a b ha hb, hnot b a hb ha⟩
  · obtain ⟨hne, hnb, hbn⟩ := hap b hb
    have hp := (hchild a ha).2
    refine ⟨fun he => hnb (he ▸ .child hp), fun hab =>
      hnb (Below.trans (.child hp) hab), fun hba => ?_⟩
    rcases (below_iff hp).mp hba with he | he
    · exact hne he
    · exact hbn he

namespace Watch

variable {listing : Int → Option Document}

/-- **What a call leaves on the stack**: what it did not pop, and nodes that
hang below some it found there. -/
theorem onTraverse_stack {fuel : Nat} {s s' : Watch} (h : s.onTraverse listing fuel = some s')
    (ht : Hung s.t) (hs : OnStack s.t s.list.traverseStack) :
    Rehangs s.t s'.t ∧ OnStack s'.t s'.list.traverseStack ∧
      ∀ m ∈ s'.list.traverseStack, m ∈ s.list.traverseStack.tail ∨ ∃ n ∈ s.list.traverseStack,
      Below s'.t n m := by
  induction fuel generalizing s with
  | zero => cases h
  | succ fuel ih =>
    rw [onTraverse] at h
    split at h
    · rename_i n ns hstack
      have hpop : s.pop.list.traverseStack = ns := by rw [pop, hstack]; rfl
      rw [hstack] at hs ⊢
      have hpopped : ∀ {x : Watch}, x.t = s.t → x.list.traverseStack = ns → Rehangs s.t x.t ∧
          OnStack x.t x.list.traverseStack ∧ ∀ m ∈ x.list.traverseStack,
          m ∈ ns ∨ ∃ k ∈ n :: ns, Below x.t k m :=
        fun {x} hx hxs => by
          rw [hx, hxs]
          exact ⟨.refl ht,
            ⟨fun m hm => hs.1 m (List.mem_cons_of_mem _ hm), hs.2.tail⟩, fun m hm => .inl hm⟩
      rw [onWatched] at h
      split at h
      · rename_i hty
        obtain ⟨htt, -, hts⟩ := expand_eq s.pop listing n
        rw [hpop] at hts
        have hn := hs.1 n List.mem_cons_self
        have hR : Rehangs s.t (s.t.onItemExpanded listing n) := ht.onItemExpanded hn hty listing
        have hty₁ := (hR.same n hn).1.trans hty
        have hchild : ∀ r ∈ ((s.t.onItemExpanded listing n).nodes n).nodesOrder,
          r < (s.t.onItemExpanded listing n).nextNode ∧
            ((s.t.onItemExpanded listing n).nodes r).parentItem = some n := fun r hr =>
          ⟨(hR.hung.member n r hr).1, (hR.hung.member n r hr).2 hty₁⟩
        have hst := (hR.onStack ht hs).expand hR.hung hty₁ fun r hr =>
          hR.hung.climbs r n (hchild r hr).2
        obtain ⟨hR', hst', hleft⟩ := ih h (by rw [htt]; exact hR.hung) (by rw [htt, hts]; exact hst)
        rw [htt] at hR'
        rw [hts] at hleft
        -- what was pushed for `n` hangs below it
        have hbelow : ∀ c ∈ ((s.t.onItemExpanded listing n).nodes n).nodesOrder, Below s'.t n c :=
          fun c hc =>
          .child ((hR'.same c (hchild c hc).1).2.trans (hchild c hc).2)
        refine ⟨hR.trans hR', hst', fun m hm => ?_⟩
        rcases hleft m hm with hm | ⟨c, hc, hb⟩
        · rcases List.mem_append.mp (List.mem_of_mem_tail hm) with hm | hm
          · exact .inr ⟨n, List.mem_cons_self, hbelow m hm⟩
          · exact .inl hm
        · rcases List.mem_append.mp hc with hc | hc
          · exact .inr ⟨n, List.mem_cons_self, (hbelow c hc).trans hb⟩
          · exact .inr ⟨c, List.mem_cons_of_mem _ hc, hb⟩
      · cases h
        obtain ⟨h1, -, h2⟩ := roomOnWatched_rest s.pop s.list.title n
        exact hpopped h1 (h2.trans hpop)
      · cases h
        exact hpopped rfl hpop
    · rename_i hstack
      cases h
      obtain ⟨h1, -, h2⟩ := nextPage_rest s
      rw [h1, h2]
      exact ⟨.refl ht, hs, fun m hm => by rw [hstack] at hm; cases hm⟩

/-- A call that finds nodes on the stack does not leave the same ones there. -/
theorem onTraverse_stack_ne {fuel : Nat} {s s' : Watch} (h : s.onTraverse listing fuel = some s')
    (ht : Hung s.t) (hs : OnStack s.t s.list.traverseStack) (hne : s.list.traverseStack ≠ []) :
    s'.list.traverseStack ≠ s.list.traverseStack := by
  obtain ⟨hR, -, hleft⟩ := onTraverse_stack h ht hs
  intro he
  cases hstack : s.list.traverseStack with
  | nil => exact hne hstack
  | cons n ns =>
    rw [he, hstack] at hleft
    rw [hstack] at hs
    have hn := hs.1 n List.mem_cons_self
    have hap := (List.pairwise_cons.mp hs.2).1
    rcases hleft n List.mem_cons_self with hm | ⟨m, hm, hb⟩
    · exact (hap n hm).1 rfl
    · rw [hR.below_iff ht hn] at hb
      rcases List.mem_cons.mp hm with rfl | hm
      · exact Nat.lt_irrefl _ (ht.climbs.lt hb)
      · exact (hap m hm).2.2 hb

end Watch
end MonitorAgent.L4
