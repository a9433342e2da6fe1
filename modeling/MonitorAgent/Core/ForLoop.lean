import Mathlib.Data.List.Basic

/-!
# Loops with a narrow counter

`for (i = 0; i < count; ++i)` with a counter that is kept modulo `m`. Each
pass may fail to return (`none`), and `none` also says that the fuel ran out.

* `forLoop_steps`, `forLoop_list`: up to `m - 1` passes the loop ends, each
  index once and in order.
* `forLoop_none`: with `m` or more it never ends.
-/
namespace MonitorAgent.ForLoop

universe u v

variable {σ : Type u} {m count : Nat} {body : Nat → σ → Option σ}

def forLoop (m count : Nat) (body : Nat → σ → Option σ) : Nat → Nat → σ → Option σ
  | 0, _, _ => none
  | fuel + 1, i, s =>
    if i < count then (body i s).bind (forLoop m count body fuel ((i + 1) % m)) else some s

/-- The counter is back at 0 before it reaches `count`. -/
theorem forLoop_none (h : m ≤ count) (fuel : Nat) {i : Nat} (hi : i < m) (s : σ) :
    forLoop m count body fuel i s = none := by
  induction fuel generalizing i s with
  | zero => rfl
  | succ fuel ih =>
    rw [forLoop, if_pos (by omega)]
    cases body i s with
    | none => rfl
    | some s' => exact ih (Nat.mod_lt _ (by omega)) s'

/-- The passes go through the states `st`. -/
theorem forLoop_steps (st : Nat → σ) (hm : count < m)
    (hst : ∀ i < count, body i (st i) = some (st (i + 1))) {fuel i : Nat} (hi : i ≤ count)
    (hf : count - i < fuel) :
    forLoop m count body fuel i (st i) = some (st count) := by
  induction fuel generalizing i with
  | zero => omega
  | succ fuel ih =>
    rw [forLoop]
    by_cases hc : i < count
    · have hmod : (i + 1) % m = i + 1 := Nat.mod_eq_of_lt (by omega)
      rw [if_pos hc, hst i hc, Option.bind_some, hmod]
      exact ih (by omega) (by omega)
    · rw [if_neg hc, show i = count by omega]

/-- With more fuel the loop returns what it returned. -/
theorem forLoop_mono {fuel fuel' : Nat} (hf : fuel ≤ fuel') {i : Nat} {s s' : σ}
    (h : forLoop m count body fuel i s = some s') : forLoop m count body fuel' i s = some s' := by
  induction fuel generalizing fuel' i s with
  | zero => cases h
  | succ fuel ih =>
    obtain ⟨k, rfl⟩ : ∃ k, fuel' = k + 1 := ⟨fuel' - 1, by omega⟩
    rw [forLoop] at h ⊢
    by_cases hc : i < count
    · rw [if_pos hc] at h ⊢
      obtain ⟨t, ht, hrest⟩ := Option.bind_eq_some_iff.mp h
      rw [ht, Option.bind_some]
      exact ih (by omega) hrest
    · rwa [if_neg hc] at h ⊢

/-- The passes from the middle of a list on. -/
theorem forLoop_rest {α : Type v} {f : σ → α → Option σ} {pre xs : List α}
    (hm : (pre ++ xs).length < m)
    (hbody : ∀ i s x, (pre ++ xs)[i]? = some x → body i s = f s x) {fuel : Nat}
    (hf : xs.length < fuel) (s : σ) :
    forLoop m (pre ++ xs).length body fuel pre.length s = xs.foldlM f s := by
  induction xs generalizing pre s fuel with
  | nil =>
    obtain ⟨fuel, rfl⟩ : ∃ n, fuel = n + 1 := ⟨fuel - 1, by simp at hf; omega⟩
    rw [forLoop, if_neg (by simp)]
    rfl
  | cons x xs ih =>
    obtain ⟨fuel, rfl⟩ : ∃ n, fuel = n + 1 := ⟨fuel - 1, by omega⟩
    have hlt : pre.length < (pre ++ x :: xs).length := by simp
    have hmod : (pre.length + 1) % m = (pre ++ [x]).length := by
      rw [Nat.mod_eq_of_lt (by omega), List.length_append, List.length_singleton]
    rw [forLoop, if_pos hlt, hbody pre.length s x (by simp), List.foldlM_cons, hmod]
    cases f s x with
    | none => rfl
    | some s' =>
      have happ : pre ++ x :: xs = (pre ++ [x]) ++ xs := by simp
      simp only [happ] at hm hbody ⊢
      exact ih hm hbody (by simp at hf; omega) s'

/-- The passes work on the elements of a list. -/
theorem forLoop_list {α : Type v} {f : σ → α → Option σ} {xs : List α} (hm : xs.length < m)
    (hbody : ∀ i s x, xs[i]? = some x → body i s = f s x) {fuel : Nat} (hf : xs.length < fuel)
    (s : σ) :
    forLoop m xs.length body fuel 0 s = xs.foldlM f s := by
  have hrest := forLoop_rest (f := f) (show ([] ++ xs).length < m from hm) hbody hf s
  exact hrest

end MonitorAgent.ForLoop
