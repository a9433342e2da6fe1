import MonitorAgent.Core.Fairness
import MonitorAgent.L2Queue.PoolThread

/-!
# Packages are run in the end

A notify that comes while the worker is not blocked is lost, so a package may
stay in the wait list with the worker blocked. It stays there only until the
next notify that finds the worker blocked: the splice takes all there is.

**Fairness (`Fair`, a hypothesis about the scheduler and the producers).**
* Worker: a worker that can go on does so in the end.
* Notifies: there is always another `notify_one` to come, so producers go on
  pushing.

* `eventually_run`: what has been pushed is run in the end, unless a `Stop` has
  ended the loop or a `Pop` found nothing.
-/
namespace MonitorAgent.L2.InternalThread

open LTS

universe u

variable {α : Type u} {spurious : Bool}

/-- Fair runs of the worker and its producers (see above). -/
structure Fair (tr : Trace (sys (α := α) spurious)) : Prop where
  worker : ∀ n, (tr.state n).workerStep.isSome = true → ∃ m, n ≤ m ∧ tr.lbl m = .worker
  notify : ∀ n, ∃ m, n ≤ m ∧ tr.lbl m = .notify

/-- The loop has ended. -/
def Ended (s : InternalThread α) : Prop := s.pc = .exited ∨ s.pc = .crashed

/-! ## What a step leaves -/

section Step

variable {s s' : InternalThread α} {l : Act α}

/-- A step that is not the worker's leaves it where it is, or wakes it. -/
theorem step_other (h : step spurious s l = some s') (hl : l ≠ .worker) :
    (s'.pc = s.pc ∨ (s.pc = .blocked ∧ s'.pc = .splice)) ∧ s'.taken = s.taken ∧ s'.ran = s.ran ∧
      s'.msgQueue.msgProcList = s.msgQueue.msgProcList := by
  have hwake : (s.wake.pc = s.pc ∨ (s.pc = .blocked ∧ s.wake.pc = .splice)) ∧
      s.wake.taken = s.taken ∧ s.wake.ran = s.ran ∧
      s.wake.msgQueue.msgProcList = s.msgQueue.msgProcList := by
    rcases wake_cases s with ⟨hp, he⟩ | ⟨-, he⟩ <;> rw [he]
    · exact ⟨.inr ⟨hp, rfl⟩, rfl, rfl, rfl⟩
    · exact ⟨.inl rfl, rfl, rfl, rfl⟩
  cases l with
  | append package =>
    simp only [step, Option.some.injEq] at h
    subst h
    exact ⟨.inl rfl, rfl, rfl, rfl⟩
  | notify =>
    simp only [step] at h
    split at h
    · cases h; exact hwake
    · cases h
  | spurious =>
    simp only [step] at h
    split at h
    · cases h; exact hwake
    · cases h
  | worker => exact absurd rfl hl

/-- A notify wakes a blocked worker. -/
theorem notify_blocked (h : step spurious s .notify = some s') (hp : s.pc = .blocked) :
    s'.pc = .splice := by
  simp only [step] at h
  split at h
  · cases h
    rcases wake_cases s with ⟨-, he⟩ | ⟨hn, -⟩
    · rw [he]
    · exact absurd hp hn
  · cases h

/-- Nothing that was pushed is taken back. -/
theorem pushed_mono (h : step spurious s l = some s') : s.pushed <+: s'.pushed :=
  PoolThread.step_pushed h ▸ List.prefix_append ..

end Step

/-! ## How far it is to the wait -/

/-- The worker is on its way to `cv.wait`. -/
def Going : Pc α → Prop
  | .loop | .wait | .pop | .run _ | .test => True
  | .blocked | .splice | .exited | .crashed => False

/-- The worker is in the inner loop. -/
def Popping : Pc α → Prop
  | .pop | .run _ | .test => True
  | .loop | .wait | .blocked | .splice | .exited | .crashed => False

/-- At least as many steps as the worker has to go. -/
def rank (s : InternalThread α) : Nat :=
  match s.pc with
  | .wait => 1
  | .loop => 2
  | .pop => 3 * s.msgQueue.msgProcList.length + 2
  | .test => 3 * s.msgQueue.msgProcList.length + 3
  | .run (some _) => 3 * s.msgQueue.msgProcList.length + 4
  | .run none | .blocked | .splice | .exited | .crashed => 0

theorem rank_congr {s s' : InternalThread α} (hp : s'.pc = s.pc)
    (hq : s'.msgQueue.msgProcList = s.msgQueue.msgProcList) : s'.rank = s.rank := by
  simp only [rank, hp, hq]

section Worker

variable {s s' : InternalThread α}

theorem call_pc (s : InternalThread α) (package : Option (Package α)) :
    (package = none ∧ (s.call package).pc = .crashed) ∨
      (∃ x, package = some x ∧ (s.call package).pc = .test ∧
        (s.call package).msgQueue = s.msgQueue ∧ (s.call package).taken = s.taken) := by
  match package with
  | none => exact .inl ⟨rfl, rfl⟩
  | some (.scene a) => exact .inr ⟨_, rfl, rfl, rfl, rfl⟩
  | some .stop => exact .inr ⟨_, rfl, rfl, rfl, rfl⟩

/-- What a `Pop` takes from the proc list is in hand. -/
theorem pop_length (q : MessageQueue (Package α)) :
    q.pop.1.toList.length + q.pop.2.msgProcList.length = q.msgProcList.length := by
  unfold MessageQueue.pop
  split
  · rename_i h
    simp [h]
  · rename_i h
    simp [h]
    omega

/-- The inner loop counts down, and ends with the proc list used up. -/
theorem worker_popping (h : s.workerStep = some s') (hp : Popping s.pc) :
    Ended s' ∨ (s'.taken.length + s'.msgQueue.msgProcList.length =
        s.taken.length + s.msgQueue.msgProcList.length ∧ s'.rank < s.rank ∧
      (Popping s'.pc ∨ (s'.pc = .loop ∧ s.pc = .test ∧ s'.taken = s.taken ∧ s'.ran = s.ran ∧
        s'.msgQueue.msgProcList = []))) := by
  unfold workerStep at h
  cases hpc : s.pc
  all_goals simp only [hpc, Popping] at hp
  all_goals simp only [hpc, Option.some.injEq] at h
  all_goals subst h
  case pop =>
    have hlen := pop_length s.msgQueue
    refine .inr ⟨?_, ?_, .inl trivial⟩
    · simp only [List.length_append]
      omega
    · simp only [rank, hpc]
      cases hx : s.msgQueue.pop.1 with
      | none => simp
      | some x =>
        simp only [hx, Option.toList_some, List.length_singleton] at hlen
        simp only []
        omega
  case run package =>
    rcases call_pc s package with ⟨-, hc⟩ | ⟨x, rfl, hc, hq, ht⟩
    · exact .inl (.inr hc)
    · refine .inr ⟨by rw [hq, ht], ?_, .inl (by rw [hc]; trivial)⟩
      simp only [rank, hc, hpc, hq]
      omega
  case test =>
    by_cases he : s.msgQueue.msgProcList = []
    · refine .inr ⟨rfl, ?_, .inr ⟨?_, rfl, rfl, rfl, he⟩⟩ <;> simp [rank, hpc, he]
    · refine .inr ⟨rfl, ?_, .inl ?_⟩ <;> simp [rank, hpc, he, Popping]

theorem worker_going (h : s.workerStep = some s') (hp : Going s.pc) :
    (s'.pc = .blocked ∨ Ended s') ∨ (Going s'.pc ∧ s'.rank < s.rank) := by
  by_cases hpop : Popping s.pc
  · rcases worker_popping h hpop with he | ⟨-, hlt, hpop' | ⟨hloop, -⟩⟩
    · exact .inl (.inr he)
    · refine .inr ⟨?_, hlt⟩
      revert hpop'
      cases s'.pc <;> simp [Popping, Going]
    · exact .inr ⟨by rw [hloop]; trivial, hlt⟩
  · unfold workerStep at h
    cases hpc : s.pc
    all_goals simp only [hpc, Popping, not_true_eq_false] at hpop
    all_goals simp only [hpc, Going] at hp
    all_goals simp only [hpc, Option.some.injEq] at h
    all_goals subst h
    case loop =>
      cases ha : s.active
      · exact .inl (.inr (.inl (by simp)))
      · exact .inr ⟨by simp [Going], by simp [rank, hpc]⟩
    case wait => exact .inl (.inl rfl)

theorem going_enabled (hp : Going s.pc) : s.workerStep.isSome = true := by
  unfold workerStep
  cases hpc : s.pc
  all_goals simp_all [Going]

end Worker

/-! ## Phases of a fair run -/

section Phases

variable {tr : Trace (sys (α := α) spurious)}

/-- A phase in which only the worker counts: others keep it, and the worker
gets nearer to its end. -/
structure Phase (spurious : Bool) (P Q : InternalThread α → Prop) (μ : InternalThread α → Nat) :
    Prop where
  enabled : ∀ s, P s → s.workerStep.isSome = true
  other : ∀ s l s', P s → l ≠ .worker → step spurious s l = some s' → P s' ∧ μ s' ≤ μ s
  worker : ∀ s s', P s → s.workerStep = some s' → Q s' ∨ (P s' ∧ μ s' < μ s)

theorem Phase.ends {P Q : InternalThread α → Prop} {μ : InternalThread α → Nat}
    (h : Phase spurious P Q μ) (hf : Fair tr) (n : Nat) (hn : P (tr.state n)) :
    ∃ m, n ≤ m ∧ Q (tr.state m) := by
  refine tr.leadsTo (μ := μ) (fun n hp => ?_) (fun n hp => ?_) n hn
  · by_cases hl : tr.lbl n = .worker
    · have hs := tr.step n
      rw [hl] at hs
      rcases h.worker _ _ hp hs with hq | ⟨hp', hlt⟩
      · exact .inl hq
      · exact .inr ⟨hp', Nat.le_of_lt hlt⟩
    · exact .inr (h.other _ _ _ hp hl (tr.step n))
  · obtain ⟨m, hm, hl⟩ := hf.worker n (h.enabled _ hp)
    refine ⟨m, hm, fun hpm => ?_⟩
    have hs := tr.step m
    rw [hl] at hs
    exact (h.worker _ _ hpm hs).imp_right And.right

/-- On its way to the wait, the worker gets there. -/
theorem going_phase : Phase spurious (fun s : InternalThread α => Going s.pc)
    (fun s => s.pc = .blocked ∨ Ended s) rank where
  enabled _ := going_enabled
  other s l s' hp hl hs := by
    obtain ⟨hpc | ⟨hb, -⟩, -, -, hq⟩ := step_other hs hl
    · rw [hpc]
      exact ⟨hp, Nat.le_of_eq (rank_congr hpc hq)⟩
    · rw [hb] at hp
      exact hp.elim
  worker _ _ hp hs := worker_going hs hp

/-- A splice takes all that has been pushed. -/
theorem splice_phase (k : Nat) : Phase spurious
    (fun s : InternalThread α => s.Inv ∧ s.pc = .splice ∧ k ≤ s.pushed.length)
    (fun s => s.Inv ∧ Popping s.pc ∧ k ≤ s.taken.length + s.msgQueue.msgProcList.length)
    (fun _ => 0) where
  enabled s hp := by simp [workerStep, hp.2.1]
  other s l s' hp hl hs := by
    obtain ⟨hi, hpc, hk⟩ := hp
    refine ⟨⟨inv_step spurious s l s' hi hs, ?_, ?_⟩, Nat.le_refl 0⟩
    · obtain ⟨he | ⟨hb, -⟩, -⟩ := step_other hs hl
      · rw [he, hpc]
      · rw [hpc] at hb
        cases hb
    · exact Nat.le_trans hk (pushed_mono hs).length_le
  worker s s' hp hs := by
    obtain ⟨hi, hpc, hk⟩ := hp
    refine .inl ⟨inv_workerStep s s' hi hs, ?_⟩
    simp only [workerStep, hpc, Option.some.injEq] at hs
    subst hs
    refine ⟨trivial, ?_⟩
    rw [← hi.fifo, MessageQueue.contents, List.length_append, List.length_append] at hk
    simp only [MessageQueue.splice_proc, List.length_append]
    omega

/-- What has been spliced is run. -/
theorem popping_phase (k : Nat) : Phase spurious
    (fun s : InternalThread α =>
      s.Inv ∧ Popping s.pc ∧ k ≤ s.taken.length + s.msgQueue.msgProcList.length)
    (fun s => k ≤ s.ran.length ∨ Ended s) rank where
  enabled s hp := going_enabled (by
    have hpop := hp.2.1
    revert hpop
    cases s.pc <;> simp [Popping, Going])
  other s l s' hp hl hs := by
    obtain ⟨hi, hpop, hk⟩ := hp
    obtain ⟨hpc | ⟨hb, -⟩, ht, -, hq⟩ := step_other hs hl
    · refine ⟨⟨inv_step spurious s l s' hi hs, ?_, by rw [ht, hq]; exact hk⟩, ?_⟩
      · rw [hpc]
        exact hpop
      · exact Nat.le_of_eq (rank_congr hpc hq)
    · rw [hb] at hpop
      exact hpop.elim
  worker s s' hp hs := by
    obtain ⟨hi, hpop, hk⟩ := hp
    have hi' := inv_workerStep s s' hi hs
    rcases worker_popping hs hpop with he | ⟨hlen, hlt, hpop' | ⟨-, hpc, ht, hr, hq⟩⟩
    · exact .inl (.inr he)
    · exact .inr ⟨⟨hi', hpop', by omega⟩, hlt⟩
    · -- The list is used up, so all that was taken has been run.
      have hran := hi.ran
      simp only [inHand, hpc, List.append_nil] at hran
      rw [hq, List.length_nil, ht, hran] at hlen
      refine .inl (.inl ?_)
      rw [hr]
      rw [hran] at hk
      omega

/-- A blocked worker is woken by a notify to come. -/
theorem blocked_woken (hf : Fair tr) (n : Nat) (hb : (tr.state n).pc = .blocked) :
    ∃ m, n ≤ m ∧ (tr.state m).pc = .splice := by
  refine tr.leadsTo (P := fun s => s.pc = .blocked) (Q := fun s => s.pc = .splice) (μ := fun _ => 0)
    (fun n hp => ?_) (fun n _ => ?_) n hb
  · have hl : tr.lbl n ≠ .worker := by
      intro hl
      have hs := tr.step n
      rw [hl] at hs
      simp [step, workerStep, hp] at hs
    obtain ⟨he | ⟨-, he⟩, -⟩ := step_other (tr.step n) hl
    · exact .inr ⟨he.trans hp, Nat.le_refl 0⟩
    · exact .inl he
  · obtain ⟨m, hm, hl⟩ := hf.notify n
    refine ⟨m, hm, fun hp => .inl ?_⟩
    have hs := tr.step m
    rw [hl] at hs
    exact notify_blocked hs hp

theorem inv_trace (tr : Trace (sys (α := α) spurious)) (h0 : (sys spurious).Reachable (tr.state 0))
    (n : Nat) : (tr.state n).Inv :=
  tr.always (inv_inductive spurious) ((inv_inductive spurious).reachable _ h0) n

theorem pushed_trace (tr : Trace (sys (α := α) spurious)) {n m : Nat} (h : n ≤ m) :
    (tr.state n).pushed <+: (tr.state m).pushed :=
  tr.monotone (R := fun s s' => s.pushed <+: s'.pushed) (fun _ => List.prefix_rfl)
    List.IsPrefix.trans (fun n => pushed_mono (tr.step n)) h

/-- The worker comes to a splice, if its loop goes on. -/
theorem eventually_splice (hf : Fair tr) (n : Nat) :
    ∃ m, n ≤ m ∧ ((tr.state m).pc = .splice ∨ Ended (tr.state m)) := by
  have hblocked : ∀ i, n ≤ i → (tr.state i).pc = .blocked ∨ Ended (tr.state i) →
      ∃ m, n ≤ m ∧ ((tr.state m).pc = .splice ∨ Ended (tr.state m)) := by
    intro i hi h
    rcases h with hb | he
    · obtain ⟨m, hm, hs⟩ := blocked_woken hf i hb
      exact ⟨m, by omega, .inl hs⟩
    · exact ⟨i, hi, .inr he⟩
  by_cases hg : Going (tr.state n).pc
  · obtain ⟨i, hi, h⟩ := going_phase.ends hf n hg
    exact hblocked i hi h
  · cases hp : (tr.state n).pc
    case blocked => exact hblocked n (Nat.le_refl n) (.inl hp)
    case splice => exact ⟨n, Nat.le_refl n, .inl hp⟩
    case exited => exact ⟨n, Nat.le_refl n, .inr (.inl hp)⟩
    case crashed => exact ⟨n, Nat.le_refl n, .inr (.inr hp)⟩
    all_goals exact absurd (by rw [hp]; trivial) hg

end Phases

/-- **Packages are run.** In a fair run, what has been pushed by any moment is
run in the end, in the order of the pushes, or the loop has ended: by a `Stop`
or by the call of an empty package. -/
theorem eventually_run {tr : Trace (sys (α := α) spurious)}
    (h0 : (sys spurious).Reachable (tr.state 0)) (hf : Fair tr) (n : Nat) :
    ∃ m, n ≤ m ∧ ((tr.state n).pushed <+: (tr.state m).ran ∨ Ended (tr.state m)) := by
  obtain ⟨i, hi, hs | he⟩ := eventually_splice hf n
  · have hle := (pushed_trace tr hi).length_le
    obtain ⟨j, hj, hpop⟩ :=
      (splice_phase (tr.state n).pushed.length).ends hf i ⟨inv_trace tr h0 i, hs, hle⟩
    obtain ⟨m, hm, hk | he⟩ := (popping_phase (tr.state n).pushed.length).ends hf j hpop
    · -- Both are first parts of what is pushed by now.
      have hinv := inv_trace tr h0 m
      have hran : (tr.state m).ran <+: (tr.state m).pushed := by
        rw [← hinv.fifo, hinv.ran, List.append_assoc]
        exact List.prefix_append ..
      have hnm : n ≤ m := by omega
      exact ⟨m, hnm, .inl (List.prefix_of_prefix_length_le (pushed_trace tr hnm) hran hk)⟩
    · exact ⟨m, by omega, .inr he⟩
  · exact ⟨i, hi, .inr he⟩

/-! ## Round after round -/

/-- A scene is pushed to the blocked worker and run, step by step. -/
def roundAct : Nat → Act Unit
  | 2 => .append (.scene ())
  | 3 => .notify
  | _ => .worker

/-- Where that step finds the worker; `log` is what was run in the rounds before. -/
def inRound (log : List (Package Unit)) : Nat → InternalThread Unit
  | 0 => ⟨.new, true, .loop, 0, log, log, log⟩
  | 1 => ⟨.new, true, .wait, 0, log, log, log⟩
  | 2 => ⟨.new, true, .blocked, 0, log, log, log⟩
  | 3 => ⟨⟨[.scene ()], []⟩, true, .blocked, 1, log ++ [.scene ()], log, log⟩
  | 4 => ⟨⟨[.scene ()], []⟩, true, .splice, 0, log ++ [.scene ()], log, log⟩
  | 5 => ⟨⟨[], [.scene ()]⟩, true, .pop, 0, log ++ [.scene ()], log, log⟩
  | 6 => ⟨.new, true, .run (some (.scene ())), 0, log ++ [.scene ()], log ++ [.scene ()], log⟩
  | _ => ⟨.new, true, .test, 0, log ++ [.scene ()], log ++ [.scene ()], log ++ [.scene ()]⟩

theorem inRound_step (log : List (Package Unit)) : (j : Nat) → j < 7 →
    step false (inRound log j) (roundAct j) = some (inRound log (j + 1))
  | 0, _ | 1, _ | 2, _ | 3, _ | 4, _ | 5, _ | 6, _ => rfl
  | _ + 7, h => absurd h (by omega)

theorem inRound_not_ended (log : List (Package Unit)) (j : Nat) : ¬ Ended (inRound log j) := by
  unfold inRound Ended
  split <;> simp

def roundTrace : Trace (sys (α := Unit) false) where
  state n := inRound (List.replicate (n / 8) (.scene ())) (n % 8)
  lbl n := roundAct (n % 8)
  step n := by
    rw [sys_step]
    by_cases h : n % 8 = 7
    · have hdiv : (n + 1) / 8 = n / 8 + 1 := by omega
      have hmod : (n + 1) % 8 = 0 := by omega
      rw [hdiv, hmod, h, List.replicate_succ']
      rfl
    · have hdiv : (n + 1) / 8 = n / 8 := by omega
      have hmod : (n + 1) % 8 = n % 8 + 1 := by omega
      rw [hdiv, hmod]
      exact inRound_step _ _ (by omega)

theorem roundTrace_fair : Fair roundTrace where
  worker n _ := ⟨8 * n, by omega, by simp [roundTrace, roundAct]⟩
  notify n := ⟨8 * n + 3, by omega, by simp [roundTrace, roundAct, Nat.add_mod]⟩

theorem eventually_run_round : ∃ tr : Trace (sys (α := Unit) false), Fair tr ∧
    ∀ n, ∃ m, n ≤ m ∧ (tr.state n).pushed <+: (tr.state m).ran := by
  have h0 : (sys (α := Unit) false).Reachable (roundTrace.state 0) := .init rfl
  refine ⟨roundTrace, roundTrace_fair, fun n => ?_⟩
  obtain ⟨m, hm, h | he⟩ := eventually_run h0 roundTrace_fair n
  · exact ⟨m, hm, h⟩
  · exact absurd he (inRound_not_ended _ _)

end MonitorAgent.L2.InternalThread
