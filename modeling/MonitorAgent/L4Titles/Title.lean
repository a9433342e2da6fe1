import MonitorAgent.L4Titles.TitleNode

/-!
# Titles

`Title` (Monitor/Monitor/Title.cpp): the roots of the tree. `BelowWatchedNode`
climbs the parent items of a room's item; items under a root have none.
-/
namespace MonitorAgent.L4

open L3

namespace Titles

/-- mirrors Monitor/Monitor/Title.cpp:42-49 -/
def addNode (t : Titles) (title : NodeRef) (e : Entry) : Titles :=
  let t := t.delNodeOrRoom title e.id
  (t.newTitleNode e.id e.name e.order e.usercount).addNodeOrRoom title e.id t.nextNode

/-- The loop from an item on. The fuel bounds the depth of the tree. -/
def belowGo (t : Titles) (node : NodeRef) : Nat → Option NodeRef → Bool
  | _, none => false
  | 0, some _ => false
  | fuel + 1, some hNode =>
    if hNode = node then true else t.belowGo node fuel (t.nodes hNode).parentItem

/-- mirrors Monitor/Monitor/Title.cpp:241-260 -/
def belowWatchedNode (t : Titles) (room node : NodeRef) : Bool :=
  t.belowGo node room (t.nodes room).parentItem

end Titles

/-- `r` is below `c` in the tree of items. -/
inductive Below (t : Titles) (c : NodeRef) : NodeRef → Prop
  | child {r : NodeRef} : (t.nodes r).parentItem = some c → Below t c r
  | step {r d : NodeRef} : (t.nodes r).parentItem = some d → Below t c d → Below t c r

/-- Parent items come before their children's. -/
def Climbs (t : Titles) : Prop := ∀ r d, (t.nodes r).parentItem = some d → d < r

theorem Climbs.lt {t : Titles} (h : Climbs t) {c r : NodeRef} (hb : Below t c r) : c < r := by
  induction hb with
  | child hp => exact h _ _ hp
  | step hp _ ih => exact Nat.lt_trans ih (h _ _ hp)

theorem not_below {t : Titles} {c r : NodeRef} (hp : (t.nodes r).parentItem = none) :
    ¬ Below t c r := by
  intro hb
  cases hb with
  | child hc => rw [hp] at hc; cases hc
  | step hc _ => rw [hp] at hc; cases hc

theorem below_iff {t : Titles} {c r d : NodeRef} (hp : (t.nodes r).parentItem = some d) :
    Below t c r ↔ d = c ∨ Below t c d := by
  constructor
  · intro hb
    cases hb with
    | child hc => exact .inl (Option.some.inj (hp.symm.trans hc))
    | step hc hb =>
      obtain rfl := Option.some.inj (hp.symm.trans hc)
      exact .inr hb
  · rintro (rfl | hb)
    · exact .child hp
    · exact .step hp hb

theorem Below.trans {t : Titles} {a b c : NodeRef} (h : Below t a b) (h' : Below t b c) :
    Below t a c := by
  induction h' with
  | child hp => exact .step hp h
  | step hp _ ih => exact .step hp ih

/-- What is below a node is a child of it, or below one. -/
theorem Below.top {t : Titles} {n r : NodeRef} (h : Below t n r) :
    ∃ c, (t.nodes c).parentItem = some n ∧ (r = c ∨ Below t c r) := by
  induction h with
  | @child r hp => exact ⟨r, hp, .inl rfl⟩
  | step hp _ ih =>
    obtain ⟨c, hc, he⟩ := ih
    refine ⟨c, hc, .inr ?_⟩
    rcases he with rfl | hb
    · exact .child hp
    · exact .step hp hb

/-- Two nodes above the same one are above each other. -/
theorem Below.linear {t : Titles} {a b r : NodeRef} (h : Below t a r) (h' : Below t b r) :
    a = b ∨ Below t a b ∨ Below t b a := by
  induction h with
  | child hp =>
    rcases (below_iff hp).mp h' with he | hb
    · exact .inl he
    · exact .inr (.inr hb)
  | step hp hb ih =>
    rcases (below_iff hp).mp h' with rfl | hb'
    · exact .inr (.inl hb)
    · exact ih hb'

theorem belowGo_iff {t : Titles} (h : Climbs t) (c : NodeRef) (fuel : Nat) {d : NodeRef}
    (hd : d < fuel) :
    t.belowGo c fuel (some d) = true ↔ d = c ∨ Below t c d := by
  induction fuel generalizing d with
  | zero => exact absurd hd (Nat.not_lt_zero d)
  | succ fuel ih =>
    unfold Titles.belowGo
    split
    · rename_i he
      exact iff_of_true rfl (.inl he)
    · rename_i hne
      rw [or_iff_right hne]
      cases hp : (t.nodes d).parentItem with
      | none => exact iff_of_false (by cases fuel <;> simp [Titles.belowGo]) (not_below hp)
      | some d' => rw [ih (Nat.lt_of_lt_of_le (h d d' hp) (Nat.le_of_lt_succ hd)), below_iff hp]

theorem belowWatchedNode_iff {t : Titles} (h : Climbs t) (r c : NodeRef) :
    t.belowWatchedNode r c = true ↔ Below t c r := by
  unfold Titles.belowWatchedNode
  cases hp : (t.nodes r).parentItem with
  | none => exact iff_of_false (by unfold Titles.belowGo; simp) (not_below hp)
  | some d => rw [belowGo_iff h c r (h r d hp), below_iff hp]

/-- Climbing reads parent items below the start only. -/
theorem Below.congr {t t' : Titles} (h : Climbs t) {b : NodeRef}
    (he : ∀ m, m < b → (t'.nodes m).parentItem = (t.nodes m).parentItem) {c r : NodeRef}
    (hb : Below t c r) (hr : r < b) : Below t' c r := by
  induction hb with
  | child hp => exact .child ((he _ hr).trans hp)
  | step hp _ ih => exact .step ((he _ hr).trans hp) (ih (Nat.lt_trans (h _ _ hp) hr))

end MonitorAgent.L4
