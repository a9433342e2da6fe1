import Mathlib.Data.List.Basic

/-!
# Labelled transition systems

The runs of a thread, a queue or a session as lists of moves, and the two
rules every later layer uses:

* `Inductive.reachable`: an invariant that holds initially and is kept by
  every step holds in every reachable state.
* `Guarded.safe_along_iff`: a property that is kept by the steps meeting a
  condition `C`, and broken at once by a step that does not meet it, holds
  along a run exactly when every step of the run meets `C`;
  `GuardedMoves.along_iff` is the same for a property of the moves.

`exec` replays a list of labels of a functional step, and `moves` is the run
it makes.
-/
namespace MonitorAgent

universe u v

/-- A transition system over states `S` with labels `L`. -/
structure LTS (S : Type u) (L : Type v) where
  init : S → Prop
  step : S → L → S → Prop

/-- One step of a run: where it starts, its label, where it ends. -/
structure Move (S : Type u) (L : Type v) where
  src : S
  lbl : L
  dst : S

namespace LTS

variable {S : Type u} {L : Type v}

/-- The system whose steps are the defined values of `f`. -/
def ofFn (init : S → Prop) (f : S → L → Option S) : LTS S L where
  init := init
  step s l s' := f s l = some s'

/-- The runs of `T` all of whose states satisfy `H`. -/
def within (T : LTS S L) (H : S → Prop) : LTS S L where
  init s := T.init s ∧ H s
  step s l s' := T.step s l s' ∧ H s'

/-- The runs of `T` all of whose moves satisfy `P`. -/
def moving (T : LTS S L) (P : Move S L → Prop) : LTS S L where
  init := T.init
  step s l s' := T.step s l s' ∧ P ⟨s, l, s'⟩

/-- A run from one state to another, with its moves in order. -/
inductive Run (T : LTS S L) : S → List (Move S L) → S → Prop
  | nil (s : S) : Run T s [] s
  | cons {s s' t : S} {l : L} {ms : List (Move S L)} :
      T.step s l s' → Run T s' ms t → Run T s (⟨s, l, s'⟩ :: ms) t

/-- The states a run passes through, its first one included. -/
def visited (s : S) (ms : List (Move S L)) : List S := s :: ms.map Move.dst

def Reachable (T : LTS S L) (s : S) : Prop := ∃ s₀ ms, T.init s₀ ∧ T.Run s₀ ms s

variable {T : LTS S L}

theorem Run.append {a b c : S} {ms ns : List (Move S L)} (h : T.Run a ms b) (h' : T.Run b ns c) :
    T.Run a (ms ++ ns) c := by
  induction h with
  | nil => exact h'
  | cons hs _ ih => exact .cons hs (ih h')

theorem Run.last_mem {s s' : S} {ms : List (Move S L)} (h : T.Run s ms s') : s' ∈ visited s ms := by
  induction h with
  | nil => exact List.mem_cons_self
  | cons _ _ ih => exact List.mem_cons_of_mem _ ih

theorem Reachable.init {s : S} (h : T.init s) : T.Reachable s := ⟨s, [], h, .nil s⟩

theorem Reachable.step {s s' : S} {l : L} (h : T.Reachable s) (hs : T.step s l s') :
    T.Reachable s' := by
  obtain ⟨s₀, ms, h0, hr⟩ := h
  exact ⟨s₀, ms ++ [⟨s, l, s'⟩], h0, hr.append (.cons hs (.nil s'))⟩

theorem Reachable.run {s s' : S} {ms : List (Move S L)} (h : T.Reachable s) (hr : T.Run s ms s') :
    T.Reachable s' := by
  obtain ⟨s₀, ns, h0, hn⟩ := h
  exact ⟨s₀, ns ++ ms, h0, hn.append hr⟩

/-- A run that stays in `H` is a run of the restricted system. -/
theorem Run.within {H : S → Prop} {s s' : S} {ms : List (Move S L)} (h : T.Run s ms s')
    (hH : ∀ x ∈ visited s ms, H x) : (T.within H).Run s ms s' := by
  induction h with
  | nil => exact .nil _
  | cons hs _ ih =>
    exact .cons ⟨hs, hH _ (by simp [visited])⟩ (ih fun x hx => hH x (List.mem_cons_of_mem _ hx))

theorem Run.moving {P : Move S L → Prop} {s s' : S} {ms : List (Move S L)} (h : T.Run s ms s')
    (hP : ∀ m ∈ ms, P m) : (T.moving P).Run s ms s' := by
  induction h with
  | nil => exact .nil _
  | cons hs _ ih =>
    exact .cons ⟨hs, hP _ List.mem_cons_self⟩ (ih fun m hm => hP m (List.mem_cons_of_mem _ hm))

/-! ## Invariants -/

/-- `I` holds initially and every step keeps it. -/
structure Inductive (T : LTS S L) (I : S → Prop) : Prop where
  init : ∀ s, T.init s → I s
  step : ∀ s l s', I s → T.step s l s' → I s'

theorem Inductive.run {I : S → Prop} (h : T.Inductive I) {s s' : S} {ms : List (Move S L)}
    (hr : T.Run s ms s') (hs : I s) : I s' := by
  induction hr with
  | nil => exact hs
  | cons hst _ ih => exact ih (h.step _ _ _ hs hst)

theorem Inductive.reachable {I : S → Prop} (h : T.Inductive I) (s : S) (hr : T.Reachable s) :
    I s := by
  obtain ⟨s₀, ms, h0, hrun⟩ := hr
  exact h.run hrun (h.init s₀ h0)

/-- Every state of a run satisfies the invariant its first state satisfies. -/
theorem Inductive.visited {I : S → Prop} (h : T.Inductive I) {s s' : S} {ms : List (Move S L)}
    (hr : T.Run s ms s') (hs : I s) : ∀ x ∈ visited s ms, I x := by
  induction hr with
  | nil => simpa [LTS.visited] using hs
  | cons hst _ ih =>
    intro x hx
    rcases List.mem_cons.mp hx with rfl | hx
    · exact hs
    · exact ih (h.step _ _ _ hs hst) x (by simpa [LTS.visited] using hx)

/-- Every move of a run is a step from a state that satisfies the invariant. -/
theorem Inductive.moves {I : S → Prop} (h : T.Inductive I) {s s' : S} {ms : List (Move S L)}
    (hr : T.Run s ms s') (hs : I s) : ∀ m ∈ ms, I m.src ∧ T.step m.src m.lbl m.dst := by
  induction hr with
  | nil => simp
  | cons hst _ ih =>
    intro m hm
    rcases List.mem_cons.mp hm with rfl | hm
    · exact ⟨hs, hst⟩
    · exact ih (h.step _ _ _ hs hst) m hm

/-! ## Conditions on the steps of a run -/

/-- Steps that meet `C` keep `I`, `I` gives `P`, and a step from `I` that
does not meet `C` ends outside `P`. -/
structure Guarded (T : LTS S L) (C : S → L → Prop) (I P : S → Prop) : Prop where
  init : ∀ s, T.init s → I s
  step : ∀ s l s', I s → C s l → T.step s l s' → I s'
  safe : ∀ s, I s → P s
  sharp : ∀ s l s', I s → ¬ C s l → T.step s l s' → ¬ P s'

theorem Guarded.safe_of {C : S → L → Prop} {I P : S → Prop} (h : T.Guarded C I P) {s s' : S}
    {ms : List (Move S L)} (hr : T.Run s ms s') (hs : I s) (hc : ∀ m ∈ ms, C m.src m.lbl) :
    ∀ x ∈ visited s ms, P x := by
  induction hr with
  | nil => simpa [LTS.visited] using h.safe _ hs
  | cons hst _ ih =>
    intro x hx
    rcases List.mem_cons.mp hx with rfl | hx
    · exact h.safe _ hs
    · exact ih (h.step _ _ _ hs (hc _ List.mem_cons_self) hst)
        (fun m hm => hc m (List.mem_cons_of_mem _ hm)) x (by simpa [LTS.visited] using hx)

theorem Guarded.guard_of {C : S → L → Prop} {I P : S → Prop} (h : T.Guarded C I P) {s s' : S}
    {ms : List (Move S L)} (hr : T.Run s ms s') (hs : I s) (hp : ∀ x ∈ visited s ms, P x) :
    ∀ m ∈ ms, C m.src m.lbl := by
  induction hr with
  | nil => simp
  | @cons s s₁ t l ms hst _ ih =>
    have hc : C s l := by
      by_contra hn
      exact h.sharp _ _ _ hs hn hst (hp s₁ (by simp [LTS.visited]))
    intro m hm
    rcases List.mem_cons.mp hm with rfl | hm
    · exact hc
    · exact ih (h.step _ _ _ hs hc hst) (fun x hx => hp x (List.mem_cons_of_mem _ hx)) m hm

/-- **Exact conditions.** `P` holds along a run exactly when every step of
the run meets `C`. -/
theorem Guarded.safe_along_iff {C : S → L → Prop} {I P : S → Prop} (h : T.Guarded C I P) {s₀ s : S}
    {ms : List (Move S L)} (h0 : T.init s₀) (hr : T.Run s₀ ms s) :
    (∀ x ∈ visited s₀ ms, P x) ↔ ∀ m ∈ ms, C m.src m.lbl :=
  ⟨h.guard_of hr (h.init _ h0), h.safe_of hr (h.init _ h0)⟩

/-- Steps that meet `C` keep `I` and are as `P` says, and a step from `I` that
does not meet `C` is not. -/
structure GuardedMoves (T : LTS S L) (C : S → L → Prop) (I : S → Prop) (P : Move S L → Prop) :
    Prop where
  init : ∀ s, T.init s → I s
  step : ∀ s l s', I s → C s l → T.step s l s' → I s' ∧ P ⟨s, l, s'⟩
  sharp : ∀ s l s', I s → ¬ C s l → T.step s l s' → ¬ P ⟨s, l, s'⟩

/-- **Exact conditions on moves.** All moves of a run are as `P` says exactly
when every step of the run meets `C`. -/
theorem GuardedMoves.along_iff {C : S → L → Prop} {I : S → Prop} {P : Move S L → Prop}
    (h : T.GuardedMoves C I P) {s₀ s : S} {ms : List (Move S L)} (h0 : T.init s₀)
    (hr : T.Run s₀ ms s) :
    (∀ m ∈ ms, P m) ↔ ∀ m ∈ ms, C m.src m.lbl := by
  have hi := h.init s₀ h0
  clear h0
  induction hr with
  | nil => simp
  | @cons s s₁ t l ms hst _ ih =>
    rw [List.forall_mem_cons, List.forall_mem_cons]
    by_cases hc : C s l
    · obtain ⟨hi', hp⟩ := h.step s l s₁ hi hc hst
      exact and_congr (iff_of_true hp hc) (ih hi')
    · exact iff_of_false (fun hp => h.sharp s l s₁ hi hc hst hp.1) fun hall => hc hall.1

/-! ## Replaying labels -/

/-- Follow the labels `ls` from `s`; `none` if a label is not enabled. -/
def exec (f : S → L → Option S) : S → List L → Option S
  | s, [] => some s
  | s, l :: ls => (f s l).bind fun s' => exec f s' ls

/-- The moves `exec` makes, up to the first label that is not enabled. -/
def moves (f : S → L → Option S) : S → List L → List (Move S L)
  | _, [] => []
  | s, l :: ls =>
    match f s l with
    | some s' => ⟨s, l, s'⟩ :: moves f s' ls
    | none => []

theorem run_moves {init : S → Prop} {f : S → L → Option S} :
    ∀ {s s' : S} (ls : List L), exec f s ls = some s' → (ofFn init f).Run s (moves f s ls) s'
  | s, s', [], h => by
    simp only [exec, Option.some.injEq] at h; subst h
    exact .nil s
  | s, s', l :: ls, h => by
    simp only [exec, Option.bind_eq_some_iff] at h
    obtain ⟨s₁, h1, h2⟩ := h
    simp only [moves, h1]
    exact .cons h1 (run_moves ls h2)

/-- A replay that goes through is a run. -/
theorem run_of_exec {init : S → Prop} {f : S → L → Option S} {s : S} (ls : List L)
    (h : (exec f s ls).isSome = true) : (ofFn init f).Run s (moves f s ls) ((exec f s ls).get h) :=
  run_moves ls (Option.some_get h).symm

/-- A replay from an initial state ends in a reachable state. -/
theorem reachable_of_exec {init : S → Prop} {f : S → L → Option S} {s s' : S} (ls : List L)
    (h0 : init s) (h : exec f s ls = some s') : (ofFn init f).Reachable s' :=
  ⟨s, moves f s ls, h0, run_moves ls h⟩

/-- A replay that ends in a state where the test `p` holds reaches one. -/
theorem exists_reachable_of_exec (init : S → Prop) (f : S → L → Option S) {s : S} (ls : List L)
    (p : S → Bool) (h0 : init s) (h : (exec f s ls).map p = some true) :
    ∃ s', (ofFn init f).Reachable s' ∧ p s' = true := by
  cases he : exec f s ls with
  | none => simp [he] at h
  | some s' =>
    simp only [he, Option.map_some, Option.some.injEq] at h
    exact ⟨s', reachable_of_exec ls h0 he, h⟩

end LTS
end MonitorAgent
