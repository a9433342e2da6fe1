import Mathlib.Data.List.Basic

/-!
# Readers of a stream

A reader takes symbols one at a time until it stops or fails, and gives something
out as it goes. The stream comes in pieces; a reader that has stopped leaves the
rest of its piece, and the pieces after it, unread.

* `run_append`: reading on is reading what comes before, then the rest.
* `run_prefix`: a stream that is read to its end does not stop or fail before.
* `run_inv`: what every symbol keeps, the stream keeps.
* `queue_run_over`: readers in a queue each read their own part of one stream.
-/
namespace MonitorAgent

universe u v w x

theorem ok_of_map {α β ε : Type*} {x : Except ε α} {f : α → β} {b : β} (h : x.map f = .ok b) :
    ∃ a, x = .ok a ∧ f a = b := by
  cases x with
  | error e => cases h
  | ok a =>
    cases h
    exact ⟨a, rfl, rfl⟩

theorem ok_of_bind {α β ε : Type*} {x : Except ε α} {f : α → Except ε β} {b : β}
    (h : x.bind f = .ok b) :
    ∃ a, x = .ok a ∧ f a = .ok b := by
  cases x with
  | error e => cases h
  | ok a => exact ⟨a, rfl, h⟩

/-- What a reader makes of the next symbol; `stop` does not read it. -/
inductive Next (σ : Type u) (β : Type v) (ε : Type w)
  | go (s : σ) (out : List β)
  | stop (s : σ)
  | fail (e : ε)

/-- A reader that stops has stopped. -/
structure Reader (σ : Type u) (α : Type x) (β : Type v) (ε : Type w) where
  next : σ → α → Next σ β ε
  stopped : ∀ s a s', next s a = .stop s' → ∀ b, next s' b = .stop s'

/-- Where a reader got to, what it gave out, and what it left. -/
structure Read (σ : Type u) (α : Type x) (β : Type v) where
  state : σ
  out : List β
  rest : List α
deriving DecidableEq

/-- The same with something given out before. -/
def Read.after {σ : Type u} {α : Type x} {β : Type v} (r : Read σ α β) (out : List β) :
    Read σ α β :=
  { r with out := out ++ r.out }

namespace Reader

variable {σ : Type u} {α : Type x} {β : Type v} {ε : Type w} (M : Reader σ α β ε)

def run : σ → List α → Except ε (Read σ α β)
  | s, [] => .ok ⟨s, [], []⟩
  | s, a :: as =>
    match M.next s a with
    | .go s' out => (run s' as).map (·.after out)
    | .stop s' => .ok ⟨s', [], a :: as⟩
    | .fail e => .error e

variable {M} {s s' : σ} {a : α} {as xs ys : List α} {out : List β} {rest : List α} {e : ε}

@[simp] theorem run_nil (s : σ) : M.run s [] = .ok ⟨s, [], []⟩ := rfl

theorem run_go (h : M.next s a = .go s' out) :
    M.run s (a :: as) = (M.run s' as).map (·.after out) := by
  rw [run, h]

theorem run_stop (h : M.next s a = .stop s') : M.run s (a :: as) = .ok ⟨s', [], a :: as⟩ := by
  rw [run, h]

theorem run_fail (h : M.next s a = .fail e) : M.run s (a :: as) = .error e := by rw [run, h]

theorem map_after_nil (x : Except ε (Read σ α β)) : x.map (·.after []) = x := by
  cases x <;> rfl

theorem map_after_after (x : Except ε (Read σ α β)) (out out' : List β) :
    (x.map (·.after out')).map (·.after out) = x.map (·.after (out ++ out')) := by
  cases x with
  | error e => rfl
  | ok r => simp [Except.map, Read.after]

/-- The first symbol, and the rest of the stream. -/
theorem run_go_ok (hn : M.next s a = .go s' out) {r : Read σ α β} (h : M.run s (a :: as) = .ok r) :
    ∃ out', M.run s' as = .ok ⟨r.state, out', r.rest⟩ ∧ r.out = out ++ out' := by
  rw [run_go hn] at h
  obtain ⟨r', ht, rfl⟩ := ok_of_map h
  exact ⟨r'.out, ht, rfl⟩

/-- Something is left only by a reader that has stopped. -/
theorem run_stopped (h : M.run s xs = .ok ⟨s', out, rest⟩) (hr : rest ≠ []) (b : α) :
    M.next s' b = .stop s' := by
  induction xs generalizing s out with
  | nil =>
    cases h
    exact absurd rfl hr
  | cons a as ih =>
    cases hn : M.next s a with
    | go t out' =>
      obtain ⟨out₂, ht, -⟩ := run_go_ok hn h
      exact ih ht
    | stop t =>
      rw [run_stop hn] at h
      cases h
      exact M.stopped s a _ hn b
    | fail e => rw [run_fail hn] at h; cases h

/-- A reader that has stopped reads nothing. -/
theorem run_of_stopped (h : ∀ b, M.next s b = .stop s) (ys : List α) :
    M.run s ys = .ok ⟨s, [], ys⟩ := by
  cases ys with
  | nil => rfl
  | cons b bs => exact run_stop (h b)

/-- Reading on, after all that comes before was read. -/
theorem run_append (h : M.run s xs = .ok ⟨s', out, []⟩) (ys : List α) :
    M.run s (xs ++ ys) = (M.run s' ys).map (·.after out) := by
  induction xs generalizing s out with
  | nil =>
    cases h
    exact (map_after_nil _).symm
  | cons a as ih =>
    rw [List.cons_append]
    cases hn : M.next s a with
    | go t out' =>
      obtain ⟨out₂, ht, he⟩ := run_go_ok hn h
      simp only at he
      rw [run_go hn, ih ht, map_after_after, he]
    | stop t => rw [run_stop hn] at h; cases h
    | fail e => rw [run_fail hn] at h; cases h

theorem run_append_stopped (h : M.run s xs = .ok ⟨s', out, rest⟩) (hr : rest ≠ []) (ys : List α) :
    M.run s (xs ++ ys) = .ok ⟨s', out, rest ++ ys⟩ := by
  induction xs generalizing s out with
  | nil =>
    cases h
    exact absurd rfl hr
  | cons a as ih =>
    rw [List.cons_append]
    cases hn : M.next s a with
    | go t out' =>
      obtain ⟨out₂, ht, he⟩ := run_go_ok hn h
      simp only at he
      rw [run_go hn, ih ht, he]
      rfl
    | stop t =>
      rw [run_stop hn] at h ⊢
      cases h
      rfl
    | fail e => rw [run_fail hn] at h; cases h

theorem run_append_fail (h : M.run s xs = .error e) (ys : List α) :
    M.run s (xs ++ ys) = .error e := by
  induction xs generalizing s with
  | nil => cases h
  | cons a as ih =>
    rw [List.cons_append]
    cases hn : M.next s a with
    | go t out' =>
      rw [run_go hn] at h ⊢
      cases ht : M.run t as with
      | error e' =>
        rw [ht] at h
        cases h
        rw [ih ht]
        rfl
      | ok r => rw [ht] at h; cases h
    | stop t => rw [run_stop hn] at h; cases h
    | fail e' =>
      rw [run_fail hn] at h ⊢
      exact h

/-- A stream that is read to its end does not stop or fail before. -/
theorem run_prefix (h : M.run s (xs ++ ys) = .ok ⟨s', out, []⟩) :
    ∃ t out₁ out₂, M.run s xs = .ok ⟨t, out₁, []⟩ ∧ M.run t ys = .ok ⟨s', out₂, []⟩ ∧
    out = out₁ ++ out₂ := by
  cases hx : M.run s xs with
  | error e =>
    rw [run_append_fail hx] at h
    cases h
  | ok r =>
    obtain ⟨t, out₁, rest⟩ := r
    by_cases hr : rest = []
    · subst hr
      rw [run_append hx] at h
      cases hy : M.run t ys with
      | error e => rw [hy] at h; cases h
      | ok r =>
        obtain ⟨t', out₂, rest'⟩ := r
        simp only [hy, Except.map, Read.after, Except.ok.injEq, Read.mk.injEq] at h
        obtain ⟨rfl, rfl, rfl⟩ := h
        exact ⟨t, out₁, out₂, rfl, hy, rfl⟩
    · rw [run_append_stopped hx hr] at h
      simp only [Except.ok.injEq, Read.mk.injEq, List.append_eq_nil_iff] at h
      exact absurd h.2.2.1 hr

/-- What every symbol keeps, with what was given out so far, the stream keeps. -/
theorem run_inv {I : σ → List β → Prop}
    (hgo : ∀ s a s' o out, I s o → M.next s a = .go s' out → I s' (o ++ out))
    (hstop : ∀ s a s' o, I s o → M.next s a = .stop s' → I s' o) {o : List β} (hs : I s o)
    {r : Read σ α β} (h : M.run s xs = .ok r) : I r.state (o ++ r.out) := by
  induction xs generalizing s o r with
  | nil =>
    cases h
    simpa using hs
  | cons a as ih =>
    cases hn : M.next s a with
    | go t out' =>
      obtain ⟨out₂, ht, he⟩ := run_go_ok hn h
      rw [he, ← List.append_assoc]
      exact ih (hgo s a t o out' hs hn) ht
    | stop t =>
      rw [run_stop hn] at h
      cases h
      simpa using hstop s a t o hs hn
    | fail e => rw [run_fail hn] at h; cases h

/-! ## A queue of readers -/

section Queue

variable (M) (ended : σ → Bool)

/-- The first reader takes the symbol; one that stops is taken out, and one that
is over. -/
def queueNext : List σ → α → Next (List σ) β ε
  | [], _ => .stop []
  | s :: ss, a =>
    match M.next s a with
    | .go s' out => .go (if ended s' then ss else s' :: ss) out
    | .stop _ => queueNext ss a
    | .fail e => .fail e

theorem queueNext_stop {ended : σ → Bool} {ss ss' : List σ}
    (h : M.queueNext ended ss a = .stop ss') : ss' = [] := by
  induction ss with
  | nil =>
    cases h
    rfl
  | cons s ss ih =>
    rw [queueNext] at h
    cases hn : M.next s a with
    | go s' out => rw [hn] at h; cases h
    | stop s' =>
      rw [hn] at h
      exact ih h
    | fail e => rw [hn] at h; cases h

def queue : Reader (List σ) α β ε where
  next := M.queueNext ended
  stopped ss a ss' h b := by
    rw [M.queueNext_stop h]
    rfl

variable {M ended} {ss : List σ}

theorem queue_next_go (h : M.next s a = .go s' out) (ss : List σ) :
    (M.queue ended).next (s :: ss) a = .go (if ended s' then ss else s' :: ss) out := by
  show M.queueNext ended (s :: ss) a = _
  rw [queueNext, h]

theorem queue_next_fail (h : M.next s a = .fail e) (ss : List σ) :
    (M.queue ended).next (s :: ss) a = .fail e := by
  show M.queueNext ended (s :: ss) a = _
  rw [queueNext, h]

/-- A first reader that reads no more is passed over by the next symbol. -/
theorem queue_run_stop (h : M.next s a = .stop s') (ss : List σ) (as : List α) :
    (M.queue ended).run (s :: ss) (a :: as) = (M.queue ended).run ss (a :: as) := by
  have hq : (M.queue ended).next (s :: ss) a = (M.queue ended).next ss a := by
    show M.queueNext ended (s :: ss) a = M.queueNext ended ss a
    rw [queueNext, h]
  rw [run, run, hq]

/-- The first reader gets over; the others read what it left. -/
theorem queue_run_over (hended : ∀ s, ended s = true → ∀ b, M.next s b = .stop s)
    (h : M.run s xs = .ok ⟨s', out, rest⟩) (hs : ended s = false)
    (hs' : ended s' = true) (ss : List σ) :
    (M.queue ended).run (s :: ss) xs = ((M.queue ended).run ss rest).map (·.after out) := by
  induction xs generalizing s out with
  | nil =>
    cases h
    rw [hs] at hs'
    cases hs'
  | cons a as ih =>
    cases hn : M.next s a with
    | go t out' =>
      obtain ⟨out₂, ht, he⟩ := run_go_ok hn h
      simp only at he
      rw [run_go (queue_next_go hn ss), he]
      cases hot : ended t with
      | false => rw [if_neg Bool.false_ne_true, ih ht hot, map_after_after]
      | true =>
        rw [run_of_stopped (hended t hot)] at ht
        cases ht
        rw [if_pos rfl, List.append_nil]
    | stop t =>
      rw [run_stop hn] at h
      cases h
      rw [queue_run_stop hn, map_after_nil]
    | fail e => rw [run_fail hn] at h; cases h

/-- The first reader is not over yet. -/
theorem queue_run_on (hended : ∀ s, ended s = true → ∀ b, M.next s b = .stop s)
    (h : M.run s xs = .ok ⟨s', out, []⟩) (hs' : ended s' = false) (ss : List σ) :
    (M.queue ended).run (s :: ss) xs = .ok ⟨s' :: ss, out, []⟩ := by
  induction xs generalizing s out with
  | nil =>
    cases h
    rfl
  | cons a as ih =>
    cases hn : M.next s a with
    | go t out' =>
      obtain ⟨out₂, ht, he⟩ := run_go_ok hn h
      simp only at he
      rw [run_go (queue_next_go hn ss), he]
      cases hot : ended t with
      | false =>
        rw [if_neg Bool.false_ne_true, ih ht]
        rfl
      | true =>
        rw [run_of_stopped (hended t hot)] at ht
        cases ht
        rw [hot] at hs'
        cases hs'
    | stop t => rw [run_stop hn] at h; cases h
    | fail e => rw [run_fail hn] at h; cases h

theorem queue_run_fail (hended : ∀ s, ended s = true → ∀ b, M.next s b = .stop s)
    (h : M.run s xs = .error e) (ss : List σ) : (M.queue ended).run (s :: ss) xs = .error e := by
  induction xs generalizing s with
  | nil => cases h
  | cons a as ih =>
    cases hn : M.next s a with
    | go t out' =>
      rw [run_go hn] at h
      rw [run_go (queue_next_go hn ss)]
      cases ht : M.run t as with
      | ok r => rw [ht] at h; cases h
      | error e' =>
        rw [ht] at h
        cases h
        cases hot : ended t with
        | false =>
          rw [if_neg Bool.false_ne_true, ih ht]
          rfl
        | true =>
          rw [run_of_stopped (hended t hot)] at ht
          cases ht
    | stop t => rw [run_stop hn] at h; cases h
    | fail e' =>
      rw [run_fail hn] at h
      cases h
      exact run_fail (queue_next_fail hn ss)

/-- No reader of the queue is over. -/
theorem queue_run_open {r : Read (List σ) α β} (hopen : ∀ s ∈ ss, ended s = false)
    (h : (M.queue ended).run ss xs = .ok r) : ∀ s ∈ r.state, ended s = false := by
  refine run_inv (M := M.queue ended) (I := fun ss _ => ∀ s ∈ ss, ended s = false)
    (o := []) ?_ ?_ hopen h
  · intro ss a ss' o out hI hn
    induction ss with
    | nil => cases hn
    | cons s ss ih =>
      have htail := List.forall_mem_of_forall_mem_cons hI
      cases hs : M.next s a with
      | go t out' =>
        rw [queue_next_go hs] at hn
        cases hn
        cases ht : ended t with
        | true => simpa using htail
        | false =>
          rw [if_neg Bool.false_ne_true]
          intro u hu
          rcases List.mem_cons.mp hu with rfl | hu
          · exact ht
          · exact htail u hu
      | stop t =>
        refine ih htail ?_
        rw [← hn]
        show M.queueNext ended ss a = M.queueNext ended (s :: ss) a
        rw [queueNext, hs]
      | fail e =>
        rw [queue_next_fail hs] at hn
        cases hn
  · intro ss a ss' o _ hn
    rw [M.queueNext_stop hn]
    exact fun s hs => nomatch hs

end Queue

end Reader
end MonitorAgent
