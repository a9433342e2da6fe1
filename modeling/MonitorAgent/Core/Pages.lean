import Mathlib.Algebra.Order.Group.Nat
import Mathlib.Data.List.Basic

/-!
# A list shown page by page

The pages of a list are its runs of `width` elements, the last one possibly
shorter, and `pageCount` is how many it takes. Pages are numbered from 0.

`flatMap_page`: all pages in a row are the list, so every element is on
exactly one page, once.
-/
namespace MonitorAgent.Pages

universe u

variable {α : Type u} {width : Nat} {l : List α}

/-- The `p`-th page of `l`. -/
def page (width p : Nat) (l : List α) : List α := (l.drop (width * p)).take width

/-- The pages that `n` elements take. -/
def pageCount (width n : Nat) : Nat := if n % width = 0 then n / width else n / width + 1

theorem length_page_le (p : Nat) : (page width p l).length ≤ width := by
  unfold page
  rw [List.length_take]
  exact Nat.min_le_left _ _

theorem page_sublist (p : Nat) : (page width p l).Sublist l :=
  (List.take_sublist ..).trans (List.drop_sublist ..)

/-- The first `count` pages in a row. -/
theorem flatMap_page_take (count : Nat) :
    (List.range count).flatMap (fun p => page width p l) = l.take (width * count) := by
  induction count with
  | zero => rfl
  | succ count ih =>
    rw [List.range_succ, List.flatMap_append, ih, Nat.mul_succ, List.take_add,
      List.flatMap_singleton]
    rfl

theorem le_pageCount (hw : 0 < width) (n : Nat) : n ≤ width * pageCount width n := by
  have hn := Nat.div_add_mod n width
  have hlt := Nat.mod_lt n hw
  unfold pageCount
  split
  · omega
  · rw [Nat.mul_succ]
    omega

/-- **All pages.** In a row they are the list. -/
theorem flatMap_page (hw : 0 < width) :
    (List.range (pageCount width l.length)).flatMap (fun p => page width p l) = l := by
  rw [flatMap_page_take]
  exact List.take_of_length_le (le_pageCount hw l.length)

/-- A page before the last ones starts inside the list. -/
theorem mul_lt_of_lt_pageCount (hw : 0 < width) {n p : Nat} (h : p < pageCount width n) :
    width * p < n := by
  have hn := Nat.div_add_mod n width
  unfold pageCount at h
  split at h
  · rename_i h0
    calc width * p < width * (n / width) := Nat.mul_lt_mul_of_pos_left h hw
      _ = n := by omega
  · rename_i h0
    have hle : width * p ≤ width * (n / width) := Nat.mul_le_mul_left width (Nat.le_of_lt_succ h)
    omega

end MonitorAgent.Pages
