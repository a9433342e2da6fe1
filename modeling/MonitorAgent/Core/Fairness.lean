import MonitorAgent.Core.LTS

/-!
# What happens in the end

Infinite runs of a transition system, and the rule for what they lead to: a
measure that no step increases, and that some step to come decreases, cannot
last for ever.

* `Trace.leadsTo`: the rule.
-/
namespace MonitorAgent.LTS

universe u v

variable {S : Type u} {L : Type v}

/-- A run without an end. -/
structure Trace (T : LTS S L) where
  state : Nat → S
  lbl : Nat → L
  step : ∀ n, T.step (state n) (lbl n) (state (n + 1))

namespace Trace

variable {T : LTS S L} (tr : Trace T)

/-- What the first state satisfies and every step keeps holds for ever. -/
theorem always {I : S → Prop} (h : T.Inductive I) (h0 : I (tr.state 0)) : ∀ n, I (tr.state n)
  | 0 => h0
  | n + 1 => h.step _ _ _ (always h h0 n) (tr.step n)

/-- A relation that each step is in. -/
theorem monotone {R : S → S → Prop} (hrefl : ∀ s, R s s) (htrans : ∀ {a b c}, R a b → R b c → R a c)
    (hstep : ∀ n, R (tr.state n) (tr.state (n + 1))) {n m : Nat} (h : n ≤ m) :
    R (tr.state n) (tr.state m) := by
  induction h with
  | refl => exact hrefl _
  | @step m _ ih => exact htrans ih (hstep m)

variable {P Q : S → Prop} {μ : S → Nat}

/-- `P` lasts, and the measure does not go up, until `Q`. -/
theorem lasts (hstep : ∀ n, P (tr.state n) → Q (tr.state (n + 1)) ∨
      (P (tr.state (n + 1)) ∧ μ (tr.state (n + 1)) ≤ μ (tr.state n)))
    {n : Nat} (h : P (tr.state n)) {m : Nat} (hm : n ≤ m) :
    (∃ i, n ≤ i ∧ Q (tr.state i)) ∨ (P (tr.state m) ∧ μ (tr.state m) ≤ μ (tr.state n)) := by
  induction hm with
  | refl => exact .inr ⟨h, Nat.le_refl _⟩
  | @step m hm ih =>
    rcases ih with hq | ⟨hp, hle⟩
    · exact .inl hq
    · rcases hstep m hp with hq | ⟨hp', hle'⟩
      · exact .inl ⟨m + 1, Nat.le_succ_of_le hm, hq⟩
      · exact .inr ⟨hp', Nat.le_trans hle' hle⟩

/-- **Leads to.** While `P` holds no step increases the measure, and one to
come decreases it, unless `Q` is reached. Then `Q` is reached from every `P`. -/
theorem leadsTo (hstep : ∀ n, P (tr.state n) → Q (tr.state (n + 1)) ∨
      (P (tr.state (n + 1)) ∧ μ (tr.state (n + 1)) ≤ μ (tr.state n)))
    (hfair : ∀ n, P (tr.state n) → ∃ m, n ≤ m ∧
      (P (tr.state m) → Q (tr.state (m + 1)) ∨ μ (tr.state (m + 1)) < μ (tr.state m)))
    (n : Nat) (h : P (tr.state n)) : ∃ m, n ≤ m ∧ Q (tr.state m) := by
  -- The measure goes down at each round.
  generalize hx : μ (tr.state n) = x
  induction x using Nat.strongRecOn generalizing n with
  | ind x ih =>
    obtain ⟨m, hnm, hdown⟩ := hfair n h
    rcases tr.lasts hstep h hnm with hq | ⟨hp, hle⟩
    · exact hq
    · rcases hdown hp with hq | hlt
      · exact ⟨m + 1, by omega, hq⟩
      · rcases hstep m hp with hq | ⟨hp', -⟩
        · exact ⟨m + 1, by omega, hq⟩
        · obtain ⟨i, hi, hq⟩ := ih _ (by omega) (m + 1) hp' rfl
          exact ⟨i, by omega, hq⟩

end Trace
end MonitorAgent.LTS
