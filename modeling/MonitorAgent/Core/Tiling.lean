import Mathlib.Data.List.Basic
import Mathlib.Order.Lattice
import Mathlib.Order.Monotone.Basic

/-!
# Boxes that tile a box

Boxes are half open: `left` and `top` belong to them, `right` and `bottom` do
not. `Tiles b bs` says that the boxes `bs` lie in `b`, have no point in common
and leave none of `b` out. Tilings are put together from smaller ones.

* `Tiles.beside`, `Tiles.above`: two tiled boxes with a common edge.
* `Tiles.row`, `Tiles.rows`: any number of them.
* `Tiles.grid`: the cells of a grid.
-/
namespace MonitorAgent.Tiling

universe u

structure Box (α : Type u) where
  left : α
  top : α
  right : α
  bottom : α

variable {α : Type u} [LinearOrder α]

namespace Box

def Contains (b : Box α) (x y : α) : Prop := b.left ≤ x ∧ x < b.right ∧ b.top ≤ y ∧ y < b.bottom

/-- The edges of `b` are within those of `c`. -/
def Within (b c : Box α) : Prop :=
  c.left ≤ b.left ∧ b.right ≤ c.right ∧ c.top ≤ b.top ∧ b.bottom ≤ c.bottom

def Apart (b c : Box α) : Prop := ∀ x y, ¬ (b.Contains x y ∧ c.Contains x y)

theorem Within.contains {b c : Box α} (h : b.Within c) {x y : α} (hb : b.Contains x y) :
    c.Contains x y := by
  obtain ⟨hl, hr, ht, hbot⟩ := h
  obtain ⟨h1, h2, h3, h4⟩ := hb
  exact ⟨hl.trans h1, h2.trans_le hr, ht.trans h3, h4.trans_le hbot⟩

theorem Within.apart {b b' c c' : Box α} (h : b.Within c) (h' : b'.Within c') (hc : c.Apart c') :
    b.Apart b' :=
  fun x y hx => hc x y ⟨h.contains hx.1, h'.contains hx.2⟩

theorem apart_of_right_le {b c : Box α} (h : b.right ≤ c.left) : b.Apart c := by
  intro x y ⟨hb, hc⟩
  exact lt_irrefl x ((hb.2.1.trans_le h).trans_le hc.1)

theorem apart_of_bottom_le {b c : Box α} (h : b.bottom ≤ c.top) : b.Apart c := by
  intro x y ⟨hb, hc⟩
  exact lt_irrefl y ((hb.2.2.2.trans_le h).trans_le hc.2.2.1)

end Box

structure Tiles (b : Box α) (bs : List (Box α)) : Prop where
  within : ∀ c ∈ bs, c.Within b
  apart : bs.Pairwise Box.Apart
  covers : ∀ x y, b.Contains x y → ∃ c ∈ bs, c.Contains x y

namespace Tiles

theorem single (b : Box α) : Tiles b [b] where
  within c hc := by
    rw [List.mem_singleton] at hc
    subst hc
    exact ⟨le_rfl, le_rfl, le_rfl, le_rfl⟩
  apart := List.pairwise_singleton _ _
  covers x y h := ⟨b, List.mem_singleton_self b, h⟩

/-- Two boxes that are apart and together are `b`. -/
theorem append {b b₁ b₂ : Box α} {bs₁ bs₂ : List (Box α)} (h₁ : Tiles b₁ bs₁) (h₂ : Tiles b₂ bs₂)
    (hw₁ : b₁.Within b) (hw₂ : b₂.Within b) (hap : b₁.Apart b₂)
    (hcov : ∀ x y, b.Contains x y → b₁.Contains x y ∨ b₂.Contains x y) :
    Tiles b (bs₁ ++ bs₂) where
  within c hc := by
    have trans {b' : Box α} (h : c.Within b') (h' : b'.Within b) : c.Within b :=
      ⟨h'.1.trans h.1, h.2.1.trans h'.2.1, h'.2.2.1.trans h.2.2.1, h.2.2.2.trans h'.2.2.2⟩
    rcases List.mem_append.mp hc with hc | hc
    · exact trans (h₁.within c hc) hw₁
    · exact trans (h₂.within c hc) hw₂
  apart := List.pairwise_append.mpr
    ⟨h₁.apart, h₂.apart, fun c hc c' hc' => (h₁.within c hc).apart (h₂.within c' hc') hap⟩
  covers x y h := by
    rcases hcov x y h with h | h
    · obtain ⟨c, hc, hx⟩ := h₁.covers x y h
      exact ⟨c, List.mem_append_left _ hc, hx⟩
    · obtain ⟨c, hc, hx⟩ := h₂.covers x y h
      exact ⟨c, List.mem_append_right _ hc, hx⟩

theorem beside {l m r t bot : α} {bs₁ bs₂ : List (Box α)} (hl : l ≤ m) (hr : m ≤ r)
    (h₁ : Tiles ⟨l, t, m, bot⟩ bs₁) (h₂ : Tiles ⟨m, t, r, bot⟩ bs₂) :
    Tiles ⟨l, t, r, bot⟩ (bs₁ ++ bs₂) := by
  refine h₁.append h₂ ⟨le_rfl, hr, le_rfl, le_rfl⟩ ⟨hl, le_rfl, le_rfl, le_rfl⟩
    (Box.apart_of_right_le le_rfl) fun x y ⟨h1, h2, h3⟩ => ?_
  rcases lt_or_ge x m with hx | hx
  · exact .inl ⟨h1, hx, h3⟩
  · exact .inr ⟨hx, h2, h3⟩

theorem above {l r t m bot : α} {bs₁ bs₂ : List (Box α)} (ht : t ≤ m) (hb : m ≤ bot)
    (h₁ : Tiles ⟨l, t, r, m⟩ bs₁) (h₂ : Tiles ⟨l, m, r, bot⟩ bs₂) :
    Tiles ⟨l, t, r, bot⟩ (bs₁ ++ bs₂) := by
  refine h₁.append h₂ ⟨le_rfl, le_rfl, le_rfl, hb⟩ ⟨le_rfl, le_rfl, ht, le_rfl⟩
    (Box.apart_of_bottom_le le_rfl) fun x y ⟨h1, h2, h3, h4⟩ => ?_
  rcases lt_or_ge y m with hy | hy
  · exact .inl ⟨h1, h2, h3, hy⟩
  · exact .inr ⟨h1, h2, hy, h4⟩

/-- A box without width has no points. -/
theorem empty (l t bot : α) : Tiles ⟨l, t, l, bot⟩ [] where
  within _ h := nomatch h
  apart := .nil
  covers _ _ h := absurd (h.1.trans_lt h.2.1) (lt_irrefl l)

theorem empty_height (l r t : α) : Tiles ⟨l, t, r, t⟩ [] where
  within _ h := nomatch h
  apart := .nil
  covers _ _ h := absurd (h.2.2.1.trans_lt h.2.2.2) (lt_irrefl t)

/-- Side by side, the edges at `xs 0`, …, `xs n`. -/
theorem row {xs : Nat → α} (hxs : Monotone xs) (t bot : α) (n : Nat) :
    Tiles ⟨xs 0, t, xs n, bot⟩ ((List.range n).map fun i => ⟨xs i, t, xs (i + 1), bot⟩) := by
  induction n with
  | zero => exact empty _ _ _
  | succ n ih =>
    rw [List.range_succ, List.map_append]
    exact ih.beside (hxs (Nat.zero_le n)) (hxs (Nat.le_succ n)) (single _)

/-- One below the other, each tiled. -/
theorem rows {ys : Nat → α} (hys : Monotone ys) {l r : α} {bs : Nat → List (Box α)} (n : Nat)
    (h : ∀ i < n, Tiles ⟨l, ys i, r, ys (i + 1)⟩ (bs i)) :
    Tiles ⟨l, ys 0, r, ys n⟩ ((List.range n).flatMap bs) := by
  induction n with
  | zero => exact empty_height _ _ _
  | succ n ih =>
    rw [List.range_succ, List.flatMap_append, List.flatMap_singleton]
    exact (ih fun i hi => h i (Nat.lt_succ_of_lt hi)).above (hys (Nat.zero_le n))
      (hys (Nat.le_succ n)) (h n (Nat.lt_succ_self n))

theorem grid {xs ys : Nat → α} (hxs : Monotone xs) (hys : Monotone ys) (rows cols : Nat) :
    Tiles ⟨xs 0, ys 0, xs cols, ys rows⟩ ((List.range rows).flatMap fun row =>
      (List.range cols).map fun col => ⟨xs col, ys row, xs (col + 1), ys (row + 1)⟩) :=
  Tiles.rows hys rows fun i _ => row hxs (ys i) (ys (i + 1)) cols

end Tiles
end MonitorAgent.Tiling
