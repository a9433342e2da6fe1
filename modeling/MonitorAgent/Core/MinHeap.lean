import Mathlib.Data.List.Basic
import Mathlib.Order.Lattice

/-!
# Binary heaps in a list

The order `std::make_heap` leaves behind with a comparison that says `>`: the
place `i` has the places `2 * i + 1` and `2 * i + 2` below it, and no key is
greater than a key below it.

* `IsMinHeap.root_le`: the first key is the least.
-/
namespace MonitorAgent

universe u v

variable {α : Type u} {κ : Type v} [LinearOrder κ]

/-- The place above another. -/
def parent {n : Nat} (i : Fin n) : Fin n := ⟨(i.val - 1) / 2, by have := i.isLt; omega⟩

/-- Every key is at least the one above it. -/
def IsMinHeap (key : α → κ) (xs : List α) : Prop :=
  ∀ i : Fin xs.length, key (xs.get (parent i)) ≤ key (xs.get i)

instance (key : α → κ) (xs : List α) : Decidable (IsMinHeap key xs) :=
  inferInstanceAs (Decidable (∀ _ : Fin _, _))

namespace IsMinHeap

variable {key : α → κ} {xs : List α}

theorem get_zero_le (h : IsMinHeap key xs) (h0 : 0 < xs.length) (i : Nat) (hi : i < xs.length) :
    key (xs.get ⟨0, h0⟩) ≤ key (xs.get ⟨i, hi⟩) := by
  -- The place above `i` is nearer to the root.
  induction i using Nat.strongRecOn with
  | ind i ih =>
    by_cases h1 : i = 0
    · subst h1; exact le_refl _
    · exact le_trans (ih ((i - 1) / 2) (by omega) (by omega)) (h ⟨i, hi⟩)

/-- The first key of a heap is the least. -/
theorem root_le {x : α} (h : IsMinHeap key (x :: xs)) {y : α} (hy : y ∈ x :: xs) :
    key x ≤ key y := by
  obtain ⟨i, hi, rfl⟩ := List.mem_iff_getElem.mp hy
  exact h.get_zero_le (by simp) i hi

end IsMinHeap
end MonitorAgent
