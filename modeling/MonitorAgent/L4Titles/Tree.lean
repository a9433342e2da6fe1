import MonitorAgent.L4Titles.Removal
import MonitorAgent.L4Titles.Title

/-!
# The live tree

The live nodes form a forest under the titles: a node is alive together with
the node that files it, and its item hangs under that node's. A listing that
is read keeps this (`Tree.parseEntry`, `Tree.kickout`), and deletes exactly
the children it does not name, with everything below them
(`kickout_dead_iff`).
-/
namespace MonitorAgent.L4

open L3 Titles

structure Tree (t : Titles) : Prop extends Shape t where
  down : ∀ n id r, (t.nodes n).alive = true → (t.nodes n).nodes.find? id = some r →
    (t.nodes r).alive = true
  up : ∀ n id r, (t.nodes r).alive = true → (t.nodes n).nodes.find? id = some r →
    (t.nodes n).alive = true
  filed : ∀ r d, (t.nodes r).alive = true → (t.nodes r).parentItem = some d →
    ∃ id, (t.nodes d).nodes.find? id = some r
  climbs : Climbs t
  inUse : ∀ n, (t.nodes n).alive = true → n < t.nextNode

/-- The room object at `r` has not been deleted. -/
def RoomExists (t : Titles) (r : NodeRef) : Prop :=
  (t.nodes r).alive = true ∧ (t.nodes r).nodeType = .titleRoom

instance (t : Titles) (r : NodeRef) : Decidable (RoomExists t r) :=
  inferInstanceAs (Decidable (_ ∧ _))

namespace Tree

variable {t : Titles} (h : Tree t)
include h

theorem wall (w : World) : Tree { t with w := w } :=
  ⟨⟨h.child, h.type, h.id, h.one, h.leaf, h.parent⟩, h.down, h.up, h.filed, h.climbs, h.inUse⟩

/-- The tree is what the nodes have apart from what a listing says of them. -/
theorem congr {t' : Titles} (hnext : t'.nextNode = t.nextNode)
    (hsame : ∀ m, (t'.nodes m).nodeType = (t.nodes m).nodeType ∧ (t'.nodes m).id = (t.nodes m).id ∧
      (t'.nodes m).parentItem = (t.nodes m).parentItem)
    (hnodes : ∀ m, (t'.nodes m).nodes = (t.nodes m).nodes)
    (halive : ∀ m, (t'.nodes m).alive = (t.nodes m).alive) : Tree t' := by
  refine ⟨h.toShape.sub hnext hsame fun m id r hf => hnodes m ▸ hf,
    fun n id r ha hf => ?_, fun n id r ha hf => ?_, fun r d ha hp => ?_, fun r d hp =>
    ?_, fun n ha => ?_⟩
  · rw [hnodes] at hf
    rw [halive] at ha ⊢
    exact h.down n id r ha hf
  · rw [hnodes] at hf
    rw [halive] at ha ⊢
    exact h.up n id r ha hf
  · rw [halive] at ha
    rw [(hsame r).2.2] at hp
    rw [hnodes]
    exact h.filed r d ha hp
  · rw [(hsame r).2.2] at hp
    exact h.climbs r d hp
  · rw [halive] at ha
    rw [hnext]
    exact h.inUse n ha

theorem update (c : NodeRef) (name : String) (order usercount : Nat) :
    Tree (t.update c name order usercount) := by
  have hnode := t.update_samePlace c name order usercount
  exact h.congr rfl (fun m => ⟨(hnode m).nodeType, (hnode m).id, (hnode m).parentItem⟩)
    (fun m => (hnode m).nodes)
    fun m => (hnode m).alive

omit h in
/-- A node without children loses nothing. -/
theorem delAll_nodes {n : NodeRef} (he : (t.nodes n).nodes.isEmpty = true) (m : NodeRef) :
    (t.delAll n).nodes m = if m = n then { t.nodes n with nodesOrder := [] } else t.nodes m := by
  have hentries : (t.nodes n).nodes.entries = [] := List.isEmpty_iff.mp he
  have hempty : (t.nodes n).nodes = .empty := by
    cases hm : (t.nodes n).nodes with
    | mk entries sorted =>
      rw [hm] at hentries
      subst hentries
      rfl
  rw [Titles.delAll, children, hentries, clear, modifyNode_nodes, ← hempty]
  rfl

theorem delAll {n : NodeRef} (he : (t.nodes n).nodes.isEmpty = true) : Tree (t.delAll n) := by
  have hnode := delAll_nodes he
  refine h.congr (deleteAll_rest _ t).1 (fun m => ?_) (fun m => ?_) fun m => ?_
  · rw [hnode]
    split
    · rename_i hm; rw [hm]; exact ⟨rfl, rfl, rfl⟩
    · exact ⟨rfl, rfl, rfl⟩
  · rw [hnode]
    split
    · rename_i hm; rw [hm]
    · rfl
  · rw [hnode]
    split
    · rename_i hm; rw [hm]
    · rfl

theorem addChild {n : NodeRef} (ha : (t.nodes n).alive = true) (heading : Heading) {e : Entry}
    (ht : (t.nodes n).nodeType ≠ .titleRoom) (hnew : (t.nodes n).nodes.find? e.id = none) :
    Tree (t.addChild n heading e) := by
  have hn := h.inUse n ha
  have hchild := h.addChild_child hn heading hnew
  have hself := Shape.addChild_self (t := t) hn heading (e := e)
  have hsame := fun m hm => (Shape.addChild_type (t := t) hn heading (e := e) m hm).2.2
  have halive : ∀ m, ((t.addChild n heading e).nodes m).alive = true ↔ m = t.nextNode ∨
    (t.nodes m).alive = true :=
    fun m => by
      by_cases he : m = t.nextNode
      · rw [he, hself]
        exact iff_of_true rfl (.inl rfl)
      · rw [(hsame m he).2.2, or_iff_right he]
  have hlt : ∀ {m id r}, (t.nodes m).nodes.find? id = some r → m ≠ t.nextNode ∧ r ≠ t.nextNode :=
    fun {m id r} hf =>
    ⟨Nat.ne_of_lt (Nat.lt_trans (h.child m id r hf).1 (h.child m id r hf).2),
      Nat.ne_of_lt (h.child m id r hf).2⟩
  have hparent : ∀ r d, ((t.addChild n heading e).nodes r).parentItem = some d →
      (r = t.nextNode ∧ d = n) ∨ (r ≠ t.nextNode ∧ (t.nodes r).parentItem = some d) :=
        fun r d hp => by
    by_cases he : r = t.nextNode
    · rw [he, hself] at hp
      simp only [Heading.child] at hp
      split at hp
      · cases hp
      · exact .inl ⟨he, (Option.some.inj hp).symm⟩
    · rw [(hsame r he).1] at hp
      exact .inr ⟨he, hp⟩
  refine ⟨h.toShape.addChild hn heading hnew ht,
    fun m id r hm hf => ?_, fun m id r hr hf => ?_, fun r d hr hp => ?_,
    fun r d hp => ?_, fun m hm => ?_⟩
  · rw [halive] at hm ⊢
    rcases (hchild m id r).mp hf with ⟨-, -, hr⟩ | hf
    · exact .inl hr
    · exact .inr (h.down m id r (hm.resolve_left (hlt hf).1) hf)
  · rw [halive] at hr ⊢
    rcases (hchild m id r).mp hf with ⟨rfl, -, -⟩ | hf
    · exact .inr ha
    · exact .inr (h.up m id r (hr.resolve_left (hlt hf).2) hf)
  · rw [halive] at hr
    rcases hparent r d hp with ⟨rfl, rfl⟩ | ⟨hne, hp⟩
    · exact ⟨e.id, (hchild d e.id _).mpr (.inl ⟨rfl, rfl, rfl⟩)⟩
    · obtain ⟨id, hf⟩ := h.filed r d (hr.resolve_left hne) hp
      exact ⟨id, (hchild d id r).mpr (.inr hf)⟩
  · rcases hparent r d hp with ⟨rfl, rfl⟩ | ⟨-, hp⟩
    · exact hn
    · exact h.climbs r d hp
  · rw [halive] at hm
    rw [(addChild_rest t n heading e).1]
    rcases hm with rfl | hm
    · exact Nat.lt_succ_self _
    · exact Nat.lt_succ_of_lt (h.inUse m hm)

/-! ## Kicking out -/

section Kickout

variable {n : NodeRef} (ha : (t.nodes n).alive = true) (ids : List Int)
include ha

/-- What goes is what is not listed, and what is below it. -/
theorem kickout_dead_iff {r : NodeRef} (hr : (t.nodes r).alive = true) :
    ((t.kickoutRedundantNodes n ids).nodes r).alive = false ↔
      ∃ id c, (t.nodes n).nodes.find? id = some c ∧ id ∉ ids ∧ (r = c ∨ Below t c r) := by
  obtain ⟨hk, hgone, horphan, -, -⟩ := kickout_removes h.toShape n ids
  have hn : ((t.kickoutRedundantNodes n ids).nodes n).alive = true := hk.owner.trans ha
  constructor
  · intro hd
    -- up from a deleted node to the child of `n` that went
    induction r using Nat.strong_induction_on with
    | _ r ih =>
      rcases horphan r hr hd with ⟨id, hf, hid⟩ | ⟨d, id, hf, hdd⟩
      · exact ⟨id, r, hf, hid, .inl rfl⟩
      · have hda := h.up d id r hr hf
        obtain ⟨id', c, hc, hid', hb⟩ := ih d (h.child d id r hf).1 hda hdd
        refine ⟨id', c, hc, hid', .inr ?_⟩
        have hchild : ∃ m k, (t.nodes m).nodes.find? k = some d := by
          rcases hb with rfl | hb
          · exact ⟨n, id', hc⟩
          · cases hb with
            | child hp => exact ⟨_, h.filed d _ hda hp⟩
            | step hp _ => exact ⟨_, h.filed d _ hda hp⟩
        have hdn : (t.nodes d).nodeType ≠ .title := by
          obtain ⟨m, k, hm⟩ := hchild
          rcases h.type m k d hm with ht | ht <;> rw [ht] <;> exact (fun e => nomatch e)
        have hp : (t.nodes r).parentItem = some d := by rw [h.parent d id r hf, if_neg hdn]
        rcases hb with rfl | hb
        · exact .child hp
        · exact .step hp hb
  · rintro ⟨id, c, hf, hid, rfl | hb⟩
    · exact hgone id r hf hid
    · -- down from the child that went
      induction hb with
      | child hp =>
        obtain ⟨id', hf'⟩ := h.filed _ _ hr hp
        have hdead := hgone id c hf hid
        refine hk.family c id' _ ?_ (h.down n id c ha hf) hdead hf'
        rintro rfl
        rw [hn] at hdead
        cases hdead
      | @step r d hp _ ih =>
        obtain ⟨id', hf'⟩ := h.filed _ _ hr hp
        have hda := h.up d id' r hr hf'
        have hdead := ih hda
        refine hk.family d id' r ?_ hda hdead hf'
        rintro rfl
        rw [hn] at hdead
        cases hdead

/-- Live nodes that stay keep their places. -/
theorem kickout : Tree (t.kickoutRedundantNodes n ids) := by
  obtain ⟨hk, hgone, -, -, hfind⟩ := kickout_removes h.toShape n ids
  have hn : ((t.kickoutRedundantNodes n ids).nodes n).alive = true := hk.owner.trans ha
  -- the parent of a node that stays
  have hstay : ∀ m id r, ((t.kickoutRedundantNodes n ids).nodes r).alive = true →
      (t.nodes m).nodes.find? id = some r →
      ((t.kickoutRedundantNodes n ids).nodes m).alive = true := by
    intro m id r hr hf
    cases hm : ((t.kickoutRedundantNodes n ids).nodes m).alive with
    | true => rfl
    | false =>
      have hmn : m ≠ n := by
        rintro rfl
        rw [hn] at hm
        cases hm
      rw [hk.family m id r hmn (h.up m id r (hk.alive hr) hf) hm hf] at hr
      cases hr
  refine ⟨h.toShape.removes hk,
    fun m id r hm hf => ?_, fun m id r hr hf => hstay m id r hr (hk.sub m id r hf),
    fun r d hr hp => ?_, fun r d hp => ?_, fun m hm => ?_⟩
  · have hf' := hk.sub m id r hf
    have hrt := h.down m id r (hk.alive hm) hf'
    cases hr : ((t.kickoutRedundantNodes n ids).nodes r).alive with
    | true => rfl
    | false =>
      obtain ⟨id', c, hc, hid, hb⟩ := (h.kickout_dead_iff ha ids hrt).mp hr
      rcases hb with rfl | hb
      · obtain rfl := h.one m id r n id' hf' hc
        obtain rfl := (h.id m id r hf').symm.trans (h.id m id' r hc)
        rw [hfind, if_neg hid] at hf
        cases hf
      · -- then the parent went too
        have hp := h.parent m id r hf'
        have hmc : m = c ∨ Below t c m := by
          split at hp
          · exact absurd hb (not_below hp)
          · exact (below_iff hp).mp hb
        rw [(h.kickout_dead_iff ha ids (hk.alive hm)).mpr ⟨id', c, hc, hid, hmc⟩] at hm
        cases hm
  · rw [(hk.same r).2.2] at hp
    obtain ⟨id, hf⟩ := h.filed r d (hk.alive hr) hp
    refine ⟨id, ?_⟩
    by_cases hd : d = n
    · subst hd
      rw [hfind, if_pos]
      · exact hf
      · by_contra hid
        rw [hgone id r hf hid] at hr
        cases hr
    · rw [hk.kept d hd (hstay d id r hr hf)]
      exact hf
  · rw [(hk.same r).2.2] at hp
    exact h.climbs r d hp
  · rw [hk.nextNode]
    exact h.inUse m (hk.alive hm)

end Kickout

/-! ## Reading a listing -/

/-- A node that reads a listing is still there, and no room, afterwards. -/
theorem parseEntry {n : NodeRef} (ha : (t.nodes n).alive = true)
    (ht : (t.nodes n).nodeType ≠ .titleRoom) (heading : Heading) (e : Entry) :
    Tree (parseEntry n heading t e) ∧
      ((Titles.parseEntry n heading t e).nodes n).alive = true ∧
      ((Titles.parseEntry n heading t e).nodes n).nodeType ≠ .titleRoom := by
  unfold Titles.parseEntry
  split
  · rename_i c _
    have hn := t.update_samePlace c e.name e.order e.usercount n
    exact ⟨h.update _ _ _ _, hn.alive.trans ha, hn.nodeType ▸ ht⟩
  · rename_i hnew
    refine ⟨h.addChild ha heading ht hnew, ?_⟩
    rw [addChild_nodes t n heading e (Nat.ne_of_lt (h.inUse n ha)), if_pos rfl]
    exact ⟨ha, ht⟩

omit h in
/-- The loop. -/
theorem parse {n : NodeRef} (heading : Heading) : ∀ (es : List Entry) {t : Titles}, Tree t →
    (t.nodes n).alive = true → (t.nodes n).nodeType ≠ .titleRoom →
    Tree (es.foldl (Titles.parseEntry n heading) t) ∧
      ((es.foldl (Titles.parseEntry n heading) t).nodes n).alive = true
  | [], _, h, ha, _ => ⟨h, ha⟩
  | e :: es, _, h, ha, ht => by
    obtain ⟨h', ha', ht'⟩ := h.parseEntry ha ht heading e
    exact parse heading es h' ha' ht'

theorem parseXML {n : NodeRef} (ha : (t.nodes n).alive = true)
    (ht : (t.nodes n).nodeType ≠ .titleRoom) :
    ∀ response, Tree (t.parseXML n response)
  | none => h
  | some d => by
    obtain ⟨h', ha'⟩ := Tree.parse d.heading d.entries h ha ht
    exact h'.kickout ha' d.ids

end Tree
end MonitorAgent.L4
