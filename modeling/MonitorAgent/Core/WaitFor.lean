import Mathlib.Data.Fintype.Basic
import Mathlib.Logic.Function.Basic
import Mathlib.Logic.Relation

/-!
# Threads that wait for locks and for a message loop

Of the code of a thread only its mutexes and its calls into windows are kept.
One thread, `loop`, owns the windows: it serves the calls of the others, but
only between two of its own handlers. So a thread waits for the holders of the
mutex it is about to take, or, at a call, for `loop` while that has code left.

Code is `Disciplined` if it takes its mutexes in the order of a rank, and one
taken under another is taken for a call.

* `cycle_iff`: then somebody waits for himself only if `loop` waits, through
  mutexes, for a thread that is at a call.
* `acyclic`: nobody does unless `loop` is `Stalled`, waiting for a mutex whose
  holder calls before it releases it.
* `stalled_run_iff`: the steps by which it comes to that; `Stalled.run`: it
  never gets out of it.
-/
namespace MonitorAgent

open Relation (TransGen ReflTransGen)

universe u v

inductive Instr (L : Type v)
  | lock (l : L)
  | unlock (l : L)
  | call
deriving DecidableEq

namespace Instr

variable {L : Type v}

/-- The mutex that is taken next. -/
def wants : List (Instr L) → Option L
  | .lock l :: _ => some l
  | _ => none

theorem wants_eq_some {l : L} {c : List (Instr L)} :
    wants c = some l ↔ ∃ c', c = .lock l :: c' := by
  unfold wants
  split
  · rename_i l' c'
    exact ⟨fun h => ⟨c', by rw [Option.some.inj h]⟩, fun ⟨_, h⟩ => by cases h; rfl⟩
  · rename_i h
    exact iff_of_false (fun h => nomatch h) fun ⟨c', he⟩ => h l c' he

/-- There is a call before `l` is released. -/
def Calls (l : L) : List (Instr L) → Prop
  | [] => False
  | .call :: _ => True
  | .lock _ :: c => Calls l c
  | .unlock l' :: c => l' ≠ l ∧ Calls l c

instance Calls.decidable [DecidableEq L] (l : L) : (c : List (Instr L)) → Decidable (Calls l c)
  | [] => inferInstanceAs (Decidable False)
  | .call :: _ => inferInstanceAs (Decidable True)
  | .lock _ :: c => Calls.decidable l c
  | .unlock l' :: c =>
    have := Calls.decidable l c
    inferInstanceAs (Decidable (l' ≠ l ∧ Calls l c))

theorem calls_of_head {l : L} {c : List (Instr L)} (h : c.head? = some .call) : Calls l c := by
  obtain ⟨c', rfl⟩ := List.head?_eq_some_iff.mp h
  trivial

variable [DecidableEq L] {rank : L → Nat}

/-- Code for a thread that holds `held`: mutexes are taken in the order of
`rank`, one under another for a call, and all are released. -/
def Disciplined (rank : L → Nat) : List L → List (Instr L) → Prop
  | held, [] => held = []
  | held, .call :: c => Disciplined rank held c
  | held, .lock l :: c =>
    (∀ h ∈ held, rank h < rank l) ∧ (held ≠ [] → c.head? = some .call) ∧
    Disciplined rank (l :: held) c
  | held, .unlock l :: c => l ∈ held ∧ Disciplined rank (held.filter (· ≠ l)) c

/-! ## Pieces of code -/

/-- `lock_guard` around a piece of code. -/
def locked (l : L) (b : List (Instr L)) : List (Instr L) := .lock l :: b ++ [.unlock l]

/-- May run without mutexes. -/
def Outer (rank : L → Nat) (b : List (Instr L)) : Prop :=
  ∀ c, Disciplined rank [] c → Disciplined rank [] (b ++ c)

/-- May run under mutexes of a rank below `k`. -/
def Inner (rank : L → Nat) (k : Nat) (b : List (Instr L)) : Prop :=
  ∀ held c, (∀ h ∈ held, rank h < k) → Disciplined rank held c → Disciplined rank held (b ++ c)

namespace Inner

variable {k : Nat} {b b' : List (Instr L)}

theorem outer (h : Inner rank k b) : Outer rank b := fun c hc => h [] c (fun _ hh => nomatch hh) hc

theorem nil : Inner rank k [] := fun _ _ _ hc => hc

theorem call : Inner rank k [.call] := fun _ _ _ hc => hc

theorem append (h : Inner rank k b) (h' : Inner rank k b') : Inner rank k (b ++ b') :=
  fun held c hk hc => by
  rw [List.append_assoc]
  exact h held _ hk (h' held c hk hc)

theorem replicate (n : Nat) : Inner rank k (List.replicate n .call) := by
  induction n with
  | zero => exact nil
  | succ n ih => exact call.append ih

theorem flatMap {A : Type u} {f : A → List (Instr L)} (h : ∀ a, Inner rank k (f a)) (as : List A) :
    Inner rank k (as.flatMap f) := by
  induction as with
  | nil => exact nil
  | cons a as ih => exact (h a).append ih

/-- What a mutex of rank `k` guards may take those above `k`. -/
theorem guarded {l : L} (h : Inner rank (rank l + 1) b) {held : List L} {c : List (Instr L)}
    (hk : ∀ x ∈ held, rank x < rank l) (hc : Disciplined rank held c) :
    Disciplined rank (l :: held) (b ++ [.unlock l] ++ c) := by
  rw [List.append_assoc]
  refine h _ _ (fun x hx => ?_) ⟨List.mem_cons_self, ?_⟩
  · rcases List.mem_cons.mp hx with rfl | hx
    · exact Nat.lt_succ_self _
    · exact Nat.lt_succ_of_lt (hk x hx)
  · have hne : ∀ x ∈ held, decide (x ≠ l) = true :=
      fun x hx => decide_eq_true fun he => Nat.ne_of_lt (hk x hx) (he ▸ rfl)
    rw [List.filter_cons_of_neg (by simp), List.filter_eq_self.mpr hne]
    exact hc

/-- Under other mutexes one is taken for a call. -/
theorem locked {l : L} (hl : k ≤ rank l) (hcall : b.head? = some .call)
    (h : Inner rank (rank l + 1) b) :
    Inner rank k (locked l b) := fun held c hk hc => by
  have hlt : ∀ x ∈ held, rank x < rank l := fun x hx => Nat.lt_of_lt_of_le (hk x hx) hl
  obtain ⟨b', rfl⟩ := List.head?_eq_some_iff.mp hcall
  exact ⟨hlt, fun _ => rfl, guarded h hlt hc⟩

end Inner

namespace Outer

variable {b b' : List (Instr L)}

theorem nil : Outer rank [] := fun _ hc => hc

theorem append (h : Outer rank b) (h' : Outer rank b') : Outer rank (b ++ b') := fun c hc => by
  rw [List.append_assoc]
  exact h _ (h' c hc)

theorem flatMap {A : Type u} {f : A → List (Instr L)} (h : ∀ a, Outer rank (f a)) (as : List A) :
    Outer rank (as.flatMap f) := by
  induction as with
  | nil => exact nil
  | cons a as ih => exact (h a).append ih

theorem locked {l : L} (h : Inner rank (rank l + 1) b) : Outer rank (locked l b) := fun _ hc =>
  ⟨(fun _ hh => nomatch hh), fun hh => absurd rfl hh, Inner.guarded h (fun _ hh => nomatch hh) hc⟩

theorem disciplined (h : Outer rank b) : Disciplined rank [] b := by
  have := h [] rfl
  rwa [List.append_nil] at this

end Outer
end Instr

open Instr

/-! ## Threads -/

/-- What each thread still has to do, and the mutexes it holds. -/
structure Threads (T : Type u) (L : Type v) where
  code : T → List (Instr L)
  held : T → List L

namespace Threads

variable {T : Type u} {L : Type v} (loop : T) (s : Threads T L)

/-- At a call that the loop has to serve. -/
def AtCall (t : T) : Prop := t ≠ loop ∧ (s.code t).head? = some .call

/-- A mutex `t` is about to take is held by `t'`. -/
def LockWaits (t t' : T) : Prop := ∃ l ∈ wants (s.code t), l ∈ s.held t'

/-- The wait-for relation. -/
def Waits (t t' : T) : Prop := s.LockWaits t t' ∨ (s.AtCall loop t ∧ t' = loop ∧ s.code loop ≠ [])

/-- Somebody waits for himself. -/
def Cycle : Prop := ∃ t, TransGen (s.Waits loop) t t

/-- The loop waits for a mutex whose holder calls before it releases it. -/
def Stalled : Prop := ∃ l ∈ wants (s.code loop), ∃ t, t ≠ loop ∧ l ∈ s.held t ∧ Calls l (s.code t)

/-- If the loop came to this code, it would not be stalled. -/
def Open (c : List (Instr L)) : Prop :=
  ∀ l ∈ wants c, ∀ t, t ≠ loop → l ∈ s.held t → ¬ Calls l (s.code t)

/-! ## Cycles -/

section Cycles

variable {s : Threads T L}

theorem lockWaits_le_waits : s.LockWaits ≤ s.Waits loop := fun _ _ => .inl

/-- Up to the first call, threads wait for mutexes. -/
theorem waits_cases {a b : T} (h : TransGen (s.Waits loop) a b) : TransGen s.LockWaits a b ∨
    ∃ u, ReflTransGen s.LockWaits a u ∧ s.AtCall loop u ∧ ReflTransGen (s.Waits loop) loop b := by
  induction h using TransGen.head_induction_on with
  | single h =>
    rcases h with h | ⟨hu, rfl, -⟩
    · exact .inl (.single h)
    · exact .inr ⟨_, .refl, hu, .refl⟩
  | head h hrest ih =>
    rcases h with h | ⟨hu, rfl, -⟩
    · rcases ih with ih | ⟨u, hau, hu, hub⟩
      · exact .inl (.head h ih)
      · exact .inr ⟨u, .head h hau, hu, hub⟩
    · exact .inr ⟨_, .refl, hu, hrest.to_reflTransGen⟩

/-- The first thread at a call that the loop waits for, it waits for through
mutexes. -/
theorem first_call {u : T} (hu : ReflTransGen (s.Waits loop) loop u) (hcall : s.AtCall loop u) :
    ∃ t, TransGen s.LockWaits loop t ∧ s.AtCall loop t := by
  rcases Relation.reflTransGen_iff_eq_or_transGen.mp hu with rfl | hu
  · exact absurd rfl hcall.1
  · rcases waits_cases loop hu with hu | ⟨t, ht, hcall', -⟩
    · exact ⟨u, hu, hcall⟩
    · rcases Relation.reflTransGen_iff_eq_or_transGen.mp ht with rfl | ht
      · exact absurd rfl hcall'.1
      · exact ⟨t, ht, hcall'⟩

variable [DecidableEq L] {rank : L → Nat} (hd : ∀ t, Disciplined rank (s.held t) (s.code t))
include hd

/-- A holder wants a mutex of a higher rank only. -/
theorem rank_lt {t : T} {l l' : L} (hl : l ∈ s.held t) (hw : l' ∈ wants (s.code t)) :
    rank l < rank l' := by
  obtain ⟨c, hc⟩ := wants_eq_some.mp hw
  have h := hd t
  rw [hc] at h
  exact h.1 l hl

/-- Along waits for mutexes the ranks go up. -/
theorem rank_lt_of_waits {t t' : T} (h : TransGen s.LockWaits t t') {l l' : L}
    (hl : l ∈ wants (s.code t)) (hl' : l' ∈ wants (s.code t')) : rank l < rank l' := by
  induction h using TransGen.head_induction_on generalizing l with
  | single h =>
    obtain ⟨k, hk, hh⟩ := h
    cases hl.symm.trans hk
    exact rank_lt hd hh hl'
  | head h hrest ih =>
    obtain ⟨k, hk, hh⟩ := h
    cases hl.symm.trans hk
    obtain ⟨_, ⟨k', hk', _⟩, _⟩ := TransGen.head'_iff.mp hrest
    exact (rank_lt hd hh hk').trans (ih hk')

/-- **Cycles.** The wait-for relation has a cycle iff the loop waits, through
mutexes, for a thread that is at a call. -/
theorem cycle_iff : s.Cycle loop ↔ ∃ t, TransGen s.LockWaits loop t ∧ s.AtCall loop t := by
  constructor
  · intro ⟨t, ht⟩
    rcases waits_cases loop ht with h | ⟨u, htu, hu, hlt⟩
    · obtain ⟨_, ⟨l, hl, _⟩, _⟩ := TransGen.head'_iff.mp h
      exact absurd (rank_lt_of_waits hd h hl hl) (Nat.lt_irrefl _)
    · exact first_call loop (hlt.trans (ReflTransGen.mono (lockWaits_le_waits loop) _ _ htu)) hu
  · intro ⟨t, ht, hcall⟩
    obtain ⟨_, ⟨l, hl, _⟩, _⟩ := TransGen.head'_iff.mp ht
    obtain ⟨c, hc⟩ := wants_eq_some.mp hl
    have hbusy : s.code loop ≠ [] := by rw [hc]; exact List.cons_ne_nil _ _
    exact ⟨loop, (TransGen.mono (lockWaits_le_waits loop) _ _ ht).tail (.inr ⟨hcall, rfl, hbusy⟩)⟩

/-- Nobody waits for himself while the loop is not stalled: a thread it waits
for, being about to take another mutex, would do so for a call. -/
theorem acyclic (hs : ¬ s.Stalled loop) : ¬ s.Cycle loop := by
  rw [cycle_iff loop hd]
  intro ⟨t, ht, hcall⟩
  obtain ⟨t₁, ⟨l, hl, hheld⟩, hrest⟩ := TransGen.head'_iff.mp ht
  have hne : t₁ ≠ loop := fun he => Nat.lt_irrefl _ (rank_lt hd (he ▸ hheld) hl)
  refine hs ⟨l, hl, t₁, hne, hheld, ?_⟩
  rcases Relation.ReflTransGen.cases_head hrest with rfl | ⟨_, ⟨l', hl', _⟩, _⟩
  · exact calls_of_head hcall.2
  · obtain ⟨c, hc⟩ := wants_eq_some.mp hl'
    have h := hd t₁
    rw [hc] at h ⊢
    exact calls_of_head (c := c) (h.2.1 (List.ne_nil_of_mem hheld))

end Cycles

/-! ## Steps -/

section Steps

variable [DecidableEq T] [DecidableEq L]

def set (t : T) (code : List (Instr L)) (held : List L) : Threads T L :=
  ⟨Function.update s.code t code, Function.update s.held t held⟩

/-- The next instruction of a thread, if it need not wait. -/
def run [Fintype T] (t : T) : Option (Threads T L) :=
  match s.code t with
  | [] => none
  | .lock l :: c => if ∀ t', l ∉ s.held t' then some (s.set t c (l :: s.held t)) else none
  | .unlock l :: c => some (s.set t c ((s.held t).filter (· ≠ l)))
  | .call :: c => if t = loop ∨ s.code loop = [] then some (s.set t c (s.held t)) else none

/-- The loop goes on to code that is open; another thread takes a mutex that
the loop waits for only if it will release it without a call. -/
def Yields (t : T) : Prop :=
  if t = loop then s.Open loop (s.code loop).tail
  else ∀ l ∈ wants (s.code t), l ∈ wants (s.code loop) → ¬ Calls l (s.code t).tail

variable {s : Threads T L} {loop}

section Set

omit [DecidableEq L]

theorem set_code (t : T) (c : List (Instr L)) (held : List L) (t' : T) :
    (s.set t c held).code t' = if t' = t then c else s.code t' := Function.update_apply ..

theorem set_held (t : T) (c : List (Instr L)) (held : List L) (t' : T) :
    (s.set t c held).held t' = if t' = t then held else s.held t' := Function.update_apply ..

/-- The loop goes on to other code. -/
theorem stalled_set_loop (c : List (Instr L)) (held : List L) :
    (s.set loop c held).Stalled loop ↔ ¬ s.Open loop c := by
  simp only [Stalled, Open, set_code, set_held, if_true, not_forall, not_not, exists_prop]
  refine exists_congr fun l => and_congr_right fun _ => exists_congr fun t => ?_
  constructor
  · intro ⟨hne, hh, hc⟩
    rw [if_neg hne] at hh hc
    exact ⟨hne, hh, hc⟩
  · intro ⟨hne, hh, hc⟩
    rw [if_neg hne, if_neg hne]
    exact ⟨hne, hh, hc⟩

/-- Another thread goes on to other code. -/
theorem stalled_set_other {t : T} (ht : t ≠ loop) (c : List (Instr L)) (held : List L) :
    (s.set t c held).Stalled loop ↔ ∃ l ∈ wants (s.code loop), (l ∈ held ∧ Calls l c) ∨
      ∃ t', t' ≠ loop ∧ t' ≠ t ∧ l ∈ s.held t' ∧ Calls l (s.code t') := by
  simp only [Stalled, set_code, set_held, if_neg ht.symm]
  refine exists_congr fun l => and_congr_right fun _ => ?_
  constructor
  · intro ⟨t', hne, hh, hc⟩
    by_cases he : t' = t
    · rw [if_pos he] at hh hc
      exact .inl ⟨hh, hc⟩
    · rw [if_neg he] at hh hc
      exact .inr ⟨t', hne, he, hh, hc⟩
  · rintro (⟨hh, hc⟩ | ⟨t', hne, he, hh, hc⟩)
    · exact ⟨t, ht, by rw [if_pos rfl]; exact hh, by rw [if_pos rfl]; exact hc⟩
    · exact ⟨t', hne, by rw [if_neg he]; exact hh, by rw [if_neg he]; exact hc⟩

end Set

variable [Fintype T] {s' : Threads T L} {t : T}

theorem run_cases (h : s.run loop t = some s') :
    (∃ l c, s.code t = .lock l :: c ∧ (∀ t', l ∉ s.held t') ∧ s' = s.set t c (l :: s.held t)) ∨
    (∃ l c, s.code t = .unlock l :: c ∧ s' = s.set t c ((s.held t).filter (· ≠ l))) ∨
    (∃ c, s.code t = .call :: c ∧ (t = loop ∨ s.code loop = []) ∧ s' = s.set t c (s.held t)) := by
  unfold run at h
  split at h
  · cases h
  · rename_i l c hc
    split at h
    · rename_i hfree; cases h; exact .inl ⟨l, c, hc, hfree, rfl⟩
    · cases h
  · rename_i l c hc
    cases h
    exact .inr (.inl ⟨l, c, hc, rfl⟩)
  · rename_i c hc
    split at h
    · rename_i hserved; cases h; exact .inr (.inr ⟨c, hc, hserved, rfl⟩)
    · cases h

theorem disciplined_run {rank : L → Nat} (hd : ∀ t, Disciplined rank (s.held t) (s.code t))
    (h : s.run loop t = some s') : ∀ t, Disciplined rank (s'.held t) (s'.code t) := by
  intro t'
  have ht := hd t
  by_cases he : t' = t
  · subst he
    rcases run_cases h with ⟨l, c, hc, -, rfl⟩ | ⟨l, c, hc, rfl⟩ | ⟨c, hc, -, rfl⟩
    all_goals
      rw [hc] at ht
      rw [set_code, set_held, if_pos rfl, if_pos rfl]
    · exact ht.2.2
    · exact ht.2
    · exact ht
  · rcases run_cases h with ⟨l, c, hc, -, rfl⟩ | ⟨l, c, hc, rfl⟩ | ⟨c, hc, -, rfl⟩
    all_goals
      rw [set_code, set_held, if_neg he, if_neg he]
      exact hd t'

/-- The steps by which the loop comes to be stalled. -/
theorem stalled_run_iff (hs : ¬ s.Stalled loop) (h : s.run loop t = some s') :
    s'.Stalled loop ↔ ¬ s.Yields loop t := by
  unfold Yields
  split
  · rename_i he
    subst he
    rcases run_cases h with ⟨l, c, hc, -, rfl⟩ | ⟨l, c, hc, rfl⟩ | ⟨c, hc, -, rfl⟩
    all_goals rw [stalled_set_loop, hc, List.tail_cons]
  · rename_i hne
    -- whatever another thread guards, it guarded before
    have hsame : ∀ l ∈ wants (s.code loop), l ∈ s.held t → ¬ Calls l (s.code t) :=
      fun l hl hh hc => hs ⟨l, hl, t, hne, hh, hc⟩
    have hother : ∀ l ∈ wants (s.code loop), ¬ ∃ t', t' ≠ loop ∧ t' ≠ t ∧ l ∈ s.held t' ∧
      Calls l (s.code t') :=
      fun l hl ⟨t', h, _, hh, hc⟩ => hs ⟨l, hl, t', h, hh, hc⟩
    rcases run_cases h with ⟨k, c, hc, -, rfl⟩ | ⟨k, c, hc, rfl⟩ | ⟨c, hc, -, rfl⟩
    all_goals rw [stalled_set_other hne]
    · simp only [hc, wants, Option.mem_some_iff, List.tail_cons, forall_eq', Classical.not_imp,
        not_not]
      constructor
      · intro ⟨l, hl, hor⟩
        rcases hor with ⟨hh, hcalls⟩ | hor
        · rcases List.mem_cons.mp hh with rfl | hh
          · exact ⟨hl, hcalls⟩
          · exact absurd (by rw [hc]; exact hcalls) (hsame l hl hh)
        · exact absurd hor (hother l hl)
      · intro ⟨hk, hcalls⟩
        exact ⟨k, hk, .inl ⟨List.mem_cons_self, hcalls⟩⟩
    · refine iff_of_false ?_ (fun hn => hn fun l hl => by rw [hc] at hl; cases hl)
      intro ⟨l, hl, hor⟩
      rcases hor with ⟨hh, hcalls⟩ | hor
      · obtain ⟨hh, hne'⟩ := List.mem_filter.mp hh
        refine hsame l hl hh ?_
        rw [hc]
        exact ⟨Ne.symm (of_decide_eq_true hne'), hcalls⟩
      · exact hother l hl hor
    · refine iff_of_false ?_ (fun hn => hn fun l hl => by rw [hc] at hl; cases hl)
      intro ⟨l, hl, hor⟩
      rcases hor with ⟨hh, -⟩ | hor
      · exact hsame l hl hh (by rw [hc]; trivial)
      · exact hother l hl hor

/-- A stalled loop stays where it is, and stalled: the holder cannot release
the mutex before its call, and the call is not served. -/
theorem Stalled.run (hs : s.Stalled loop) (h : s.run loop t = some s') :
    s'.Stalled loop ∧ s'.code loop = s.code loop := by
  obtain ⟨l, hl, u, hu, hh, hcalls⟩ := hs
  obtain ⟨c₀, hc₀⟩ := wants_eq_some.mp hl
  have hne : t ≠ loop := by
    rintro rfl
    rcases run_cases h with ⟨k, c, hc, hfree, -⟩ | ⟨k, c, hc, -⟩ | ⟨c, hc, -, -⟩
    · rw [hc₀] at hc
      cases hc
      exact hfree u hh
    · rw [hc₀] at hc; cases hc
    · rw [hc₀] at hc; cases hc
  have hcode : ∀ c held, (s.set t c held).code loop = s.code loop :=
    fun c held => by rw [set_code, if_neg hne.symm]
  have hstays : ∀ c held, (l ∈ s.held t → Calls l (s.code t) → l ∈ held ∧ Calls l c) →
    (s.set t c held).Stalled loop := by
    intro c held hk
    rw [stalled_set_other hne]
    by_cases he : u = t
    · subst he
      exact ⟨l, hl, .inl (hk hh hcalls)⟩
    · exact ⟨l, hl, .inr ⟨u, hu, he, hh, hcalls⟩⟩
  rcases run_cases h with ⟨k, c, hc, -, rfl⟩ | ⟨k, c, hc, rfl⟩ | ⟨c, hc, hserved, rfl⟩
  · refine ⟨hstays _ _ fun hh hcalls => ⟨List.mem_cons_of_mem _ hh, ?_⟩, hcode _ _⟩
    rwa [hc] at hcalls
  · refine ⟨hstays _ _ fun hh hcalls => ?_, hcode _ _⟩
    rw [hc] at hcalls
    exact ⟨List.mem_filter.mpr ⟨hh, decide_eq_true hcalls.1.symm⟩, hcalls.2⟩
  · rcases hserved with he | hidle
    · exact absurd he hne
    · rw [hc₀] at hidle; cases hidle

end Steps
end Threads
end MonitorAgent
