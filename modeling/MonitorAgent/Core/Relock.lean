import MonitorAgent.Core.WaitFor

/-!
# Code that takes a mutex twice

`Relocks` finds a mutex that is taken while the same code holds it. Code whose
locks nest in the order of a rank (`Nested`) does not do that; such code is put
together from pieces without looking into them again.
-/
namespace MonitorAgent.Instr

universe u v

variable {L : Type v} [DecidableEq L]

/-- Holding `held`, the code takes a mutex it holds. -/
def Relocks : List L → List (Instr L) → Prop
  | _, [] => False
  | held, .call :: c => Relocks held c
  | held, .lock l :: c => l ∈ held ∨ Relocks (l :: held) c
  | held, .unlock l :: c => Relocks (held.erase l) c

instance Relocks.decidable : (held : List L) → (c : List (Instr L)) → Decidable (Relocks held c)
  | _, [] => inferInstanceAs (Decidable False)
  | held, .call :: c => Relocks.decidable held c
  | held, .lock l :: c =>
    have := Relocks.decidable (l :: held) c
    inferInstanceAs (Decidable (l ∈ held ∨ Relocks (l :: held) c))
  | held, .unlock l :: c => Relocks.decidable (held.erase l) c

/-- Under mutexes of a rank below `k` the code takes none of those twice, and
releases what it takes. -/
def Nested (rank : L → Nat) (k : Nat) (b : List (Instr L)) : Prop :=
  ∀ held c, (∀ h ∈ held, rank h < k) → (Relocks held (b ++ c) ↔ Relocks held c)

namespace Nested

variable {rank : L → Nat} {k : Nat} {b b' : List (Instr L)}

theorem nil : Nested rank k [] := fun _ _ _ => Iff.rfl

theorem append (h : Nested rank k b) (h' : Nested rank k b') : Nested rank k (b ++ b') := by
  intro held c hk
  rw [List.append_assoc, h held _ hk, h' held c hk]

theorem flatMap {A : Type u} {f : A → List (Instr L)} (h : ∀ a, Nested rank k (f a)) (as : List A) :
    Nested rank k (as.flatMap f) := by
  induction as with
  | nil => exact nil
  | cons a as ih => exact (h a).append ih

theorem elim {A : Type u} {f : A → List (Instr L)} (h : ∀ a, Nested rank k (f a)) (o : Option A) :
    Nested rank k (o.elim [] f) := by
  cases o with
  | none => exact nil
  | some a => exact h a

theorem ite (h : Nested rank k b) (h' : Nested rank k b') (p : Prop) [Decidable p] :
    Nested rank k (if p then b else b') := by
  split
  · exact h
  · exact h'

/-- A mutex may be taken under those of lower rank, and may guard code that
takes those of higher rank. -/
theorem locked {l : L} (hl : k ≤ rank l) (h : Nested rank (rank l + 1) b) :
    Nested rank k (locked l b) := by
  intro held c hk
  have hlt : ∀ x ∈ held, rank x < rank l := fun x hx => Nat.lt_of_lt_of_le (hk x hx) hl
  have hfree : l ∉ held := fun hmem => Nat.lt_irrefl _ (hlt l hmem)
  have hin : ∀ x ∈ l :: held, rank x < rank l + 1 := by
    intro x hx
    rcases List.mem_cons.mp hx with rfl | hx
    · exact Nat.lt_succ_self _
    · exact Nat.lt_succ_of_lt (hlt x hx)
  have hcode : Instr.locked l b ++ c = .lock l :: (b ++ (.unlock l :: c)) := by
    simp [Instr.locked]
  rw [hcode, Relocks, h (l :: held) _ hin, Relocks, List.erase_cons_head]
  exact or_iff_right hfree

theorem not_relocks (h : Nested rank 0 b) : ¬ Relocks [] b := by
  have hb := h [] [] (fun _ hx => nomatch hx)
  rw [List.append_nil] at hb
  exact hb.mp

end Nested

/-- Code that takes a mutex it is guarded by. -/
theorem relocks_locked_locked (l : L) (b c c' : List (Instr L)) :
    Relocks [] (locked l (locked l b ++ c) ++ c') := by
  have hcode : locked l (locked l b ++ c) ++ c' =
    .lock l :: .lock l :: (b ++ .unlock l :: c ++ .unlock l :: c') := by
    simp [locked]
  rw [hcode, Relocks, Relocks]
  exact .inr (.inl List.mem_cons_self)

end MonitorAgent.Instr
