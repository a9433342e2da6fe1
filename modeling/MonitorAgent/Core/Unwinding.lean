import MonitorAgent.Core.LTS

/-!
# Runs that differ in hidden steps

Some labels are hidden from an observer, who sees a value `see s` of each
state. If a hidden step changes nothing seen, and what a visible step changes
depends on what was seen before it, then two runs with the same visible labels
end in states that look the same, whatever their hidden labels are and
wherever they fall (`Unwinding.agree`).

The conditions are for steps that meet `C` and states that satisfy `I`.
-/
namespace MonitorAgent.LTS

universe u v w

variable {S : Type u} {L : Type v} {V : Type w}

structure Unwinding (T : LTS S L) (I : S → Prop) (C : S → L → Prop) (hidden : L → Bool)
    (see : S → V) : Prop where
  keeps : ∀ s l s', I s → C s l → T.step s l s' → I s'
  respects : ∀ s l s', I s → C s l → hidden l = true → T.step s l s' → see s' = see s
  consistent : ∀ s t l s' t', I s → I t → C s l → C t l → hidden l = false →
    T.step s l s' → T.step t l t' →
    see s = see t → see s' = see t'

/-- The labels of a run that are not hidden. -/
def visible (hidden : L → Bool) (ms : List (Move S L)) : List L :=
  (ms.map Move.lbl).filter fun l => !hidden l

theorem visible_cons_hidden {hidden : L → Bool} {m : Move S L} (hm : hidden m.lbl = true)
    (ms : List (Move S L)) :
    visible hidden (m :: ms) = visible hidden ms := by
  rw [visible, List.map_cons, List.filter_cons_of_neg (by simp [hm]), visible]

theorem visible_cons {hidden : L → Bool} {m : Move S L} (hm : hidden m.lbl = false)
    (ms : List (Move S L)) :
    visible hidden (m :: ms) = m.lbl :: visible hidden ms := by
  rw [visible, List.map_cons, List.filter_cons_of_pos (by simp [hm]), visible]

namespace Unwinding

variable {T : LTS S L} {I : S → Prop} {C : S → L → Prop} {hidden : L → Bool} {see : S → V}
  (h : Unwinding T I C hidden see)
include h

/-- Every move is a step from a state that satisfies `I`. -/
theorem moves {s s' : S} {ms : List (Move S L)} (hr : T.Run s ms s') (hi : I s)
    (hc : ∀ m ∈ ms, C m.src m.lbl) :
    ∀ m ∈ ms, I m.src ∧ T.step m.src m.lbl m.dst := by
  induction hr with
  | nil => exact fun m hm => nomatch hm
  | @cons s s₁ s' l ms hst _ ih =>
    intro m hm
    rcases List.mem_cons.mp hm with rfl | hm
    · exact ⟨hi, hst⟩
    · exact ih (h.keeps s l s₁ hi (hc _ List.mem_cons_self) hst) (fun m hm =>
        hc m (List.mem_cons_of_mem _ hm)) m hm

/-- Nothing visible happens. -/
theorem stutter {t u : S} {ns : List (Move S L)} (hr : T.Run t ns u) (hi : I t)
    (hc : ∀ m ∈ ns, C m.src m.lbl) (hv : visible hidden ns = []) : see u = see t := by
  induction hr with
  | nil => rfl
  | @cons t t₁ u l ns hst _ ih =>
    have hl : hidden l = true := by
      by_contra hn
      rw [visible_cons (Bool.eq_false_iff.mpr hn)] at hv
      cases hv
    have hcl := hc _ List.mem_cons_self
    rw [visible_cons_hidden hl] at hv
    exact (ih (h.keeps t l t₁ hi hcl hst) (fun m hm => hc m (List.mem_cons_of_mem _ hm)) hv).trans
      (h.respects t l t₁ hi hcl hl hst)

/-- Up to the first visible step. -/
theorem split {t u : S} {ns : List (Move S L)} {l : L} {ls : List L} (hr : T.Run t ns u) (hi : I t)
    (hc : ∀ m ∈ ns, C m.src m.lbl) (hv : visible hidden ns = l :: ls) :
    ∃ t₁ t₂ ns', I t₁ ∧ see t₁ = see t ∧ C t₁ l ∧ T.step t₁ l t₂ ∧ T.Run t₂ ns' u ∧
      visible hidden ns' = ls ∧ ∀ m ∈ ns', C m.src m.lbl := by
  induction hr with
  | nil => cases hv
  | @cons t t₁ u k ns hst hr ih =>
    have hck := hc _ List.mem_cons_self
    have hrest := fun m hm => hc m (List.mem_cons_of_mem _ hm)
    cases hk : hidden k with
    | true =>
      rw [visible_cons_hidden hk] at hv
      obtain ⟨x, y, ns', hx, he, hcx, hxy, hy⟩ := ih (h.keeps t k t₁ hi hck hst) hrest hv
      exact ⟨x, y, ns', hx, he.trans (h.respects t k t₁ hi hck hk hst), hcx, hxy, hy⟩
    | false =>
      rw [visible_cons hk] at hv
      obtain ⟨rfl, hls⟩ := List.cons.inj hv
      exact ⟨t, t₁, ns, hi, rfl, hck, hst, hr, hls, hrest⟩

/-- **Agreement.** Two runs with the same visible labels, from states that
look the same, end in states that look the same. -/
theorem agree {s s' t t' : S} {ms ns : List (Move S L)} (hs : I s) (ht : I t) (hst : see s = see t)
    (hm : T.Run s ms s') (hn : T.Run t ns t') (hcm : ∀ m ∈ ms, C m.src m.lbl)
    (hcn : ∀ m ∈ ns, C m.src m.lbl) (hv : visible hidden ms = visible hidden ns) :
    see s' = see t' := by
  induction hm generalizing t ns with
  | nil => exact hst.trans (h.stutter hn ht hcn hv.symm).symm
  | @cons s s₁ s' l ms hstep _ ih =>
    have hcl := hcm _ List.mem_cons_self
    have hrest := fun m hm => hcm m (List.mem_cons_of_mem _ hm)
    have hs₁ := h.keeps s l s₁ hs hcl hstep
    cases hl : hidden l with
    | true =>
      rw [visible_cons_hidden hl] at hv
      exact ih hs₁ ht ((h.respects s l s₁ hs hcl hl hstep).trans hst) hn hrest hcn hv
    | false =>
      rw [visible_cons hl] at hv
      obtain ⟨t₁, t₂, ns', ht₁, he, hct, hstep', hr', hv', hcn'⟩ := h.split hn ht hcn hv.symm
      exact ih hs₁ (h.keeps t₁ l t₂ ht₁ hct hstep')
        (h.consistent s t₁ l s₁ t₂ hs ht₁ hcl hct hl hstep hstep' (hst.trans he.symm)) hr'
        hrest hcn' hv'.symm

end Unwinding
end MonitorAgent.LTS
