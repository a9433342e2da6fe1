import MonitorAgent.L2Queue.MessageQueue

/-!
# Wake-ups of the worker

`MessageQueue::Wait` calls `cv.wait(lock)` with no predicate
(Monitor/Monitor/MessageQueue.hpp:24), so a notify counts only if the worker
is blocked when it comes, and a wake-up says nothing about the wait list.
Both ways to go wrong are runs of the code:

* `push_before_wait`: a notify that comes while the worker is not blocked is
  gone, and the worker then blocks with a package in the wait list.
* `late_notify`: a package already spliced with an earlier batch is notified
  when the worker has come back to `Wait`; the wake-up finds nothing to
  splice, and the `do … while` pops from an empty list.

`lost_wakeup_iff` and `empty_pop_iff` give the exact condition on the steps
of a run under which each is excluded.
-/
namespace MonitorAgent.L2.InternalThread

variable {α : Type u}

/-! ## Blocking with work to do -/

/-- Blocked, with a package waiting and no `Push` left to say so. -/
def Stuck (s : InternalThread α) : Prop :=
  s.pc = .blocked ∧ s.notifies = 0 ∧ s.msgQueue.msgWaitList ≠ []

/-- The worker enters `cv.wait` with the wait list empty, or while a `Push`
has still to notify. -/
def BlocksInTime (s : InternalThread α) (l : Act α) : Prop :=
  l = .worker → s.pc = .wait → s.msgQueue.msgWaitList = [] ∨ 0 < s.notifies

theorem wake_not_blocked (s : InternalThread α) : s.wake.pc ≠ .blocked := by
  rcases wake_cases s with ⟨-, he⟩ | ⟨hp, he⟩ <;> rw [he]
  · simp
  · exact hp

theorem call_not_blocked (s : InternalThread α) (package : Option (Package α)) :
    (s.call package).pc ≠ .blocked := by
  match package with
  | none => simp [call]
  | some (.scene a) => simp [call]
  | some .stop => simp [call]

/-- Only entering `cv.wait` leaves the worker blocked. -/
theorem workerStep_blocked (s s' : InternalThread α) (hs : s.workerStep = some s')
    (hb : s'.pc = .blocked) : s.pc = .wait ∧ s' = { s with pc := .blocked } := by
  unfold workerStep at hs
  cases hp : s.pc
  all_goals simp only [hp, Option.some.injEq, reduceCtorEq] at hs; try subst hs
  case loop => dsimp only at hb; split at hb <;> cases hb
  case wait => exact ⟨rfl, rfl⟩
  case splice => cases hb
  case pop => cases hb
  case run package => exact absurd hb (call_not_blocked s package)
  case test => dsimp only at hb; split at hb <;> cases hb

theorem stuck_guarded (spurious : Bool) :
    (sys spurious).Guarded (BlocksInTime (α := α)) (fun s => ¬ Stuck s) (fun s => ¬ Stuck s) where
  init s h0 := by
    intro ⟨hp, _, _⟩
    rw [h0] at hp
    cases hp
  step s l s' hi hc hs := by
    intro ⟨hb, hn, hw⟩
    cases l with
    | append package =>
      simp only [sys_step, step, Option.some.injEq] at hs; subst hs
      cases hn
    | notify =>
      simp only [sys_step, step] at hs
      split at hs
      · cases hs; exact wake_not_blocked s hb
      · cases hs
    | spurious =>
      simp only [sys_step, step] at hs
      split at hs
      · cases hs; exact wake_not_blocked s hb
      · cases hs
    | worker =>
      obtain ⟨hp, rfl⟩ := workerStep_blocked s s' hs hb
      rcases hc rfl hp with he | hpos
      · exact hw he
      · exact absurd hn (Nat.ne_of_gt hpos)
  safe s h := h
  sharp s l s' _ hc hs := by
    simp only [BlocksInTime, Classical.not_imp, not_or, Nat.not_lt, Nat.le_zero] at hc
    obtain ⟨rfl, hp, hw, hn⟩ := hc
    simp only [sys_step, step, workerStep, hp, Option.some.injEq] at hs
    subst hs
    exact not_not.mpr ⟨rfl, hn, hw⟩

/-- **Lost wake-ups.** A run has no state where the worker is stuck exactly
when it never enters `cv.wait` with a package in the wait list and no notify
to come. -/
theorem lost_wakeup_iff (spurious : Bool) {ms : List (Move (InternalThread α) (Act α))}
    {s : InternalThread α} (hr : (sys spurious).Run start ms s) :
    (∀ x ∈ LTS.visited start ms, ¬ Stuck x) ↔ ∀ m ∈ ms, BlocksInTime m.src m.lbl :=
  (stuck_guarded spurious).safe_along_iff rfl hr

instance (s : InternalThread Unit) (l : Act Unit) : Decidable (BlocksInTime s l) :=
  inferInstanceAs (Decidable (_ → _ → _ ∨ _))

/-- A `Push` to a blocked worker. -/
def pushToBlocked : List (Act Unit) := [.worker, .worker, .append (.scene ()), .notify, .worker]

theorem lost_wakeup_iff_pushToBlocked :
    (∀ m ∈ LTS.moves (step false) start pushToBlocked, BlocksInTime m.src m.lbl) ∧
      ∀ x ∈ LTS.visited start (LTS.moves (step false) start pushToBlocked), ¬ Stuck x := by
  have hc : ∀ m ∈ LTS.moves (step false) start pushToBlocked, BlocksInTime m.src m.lbl := by decide
  exact ⟨hc, (lost_wakeup_iff false (LTS.run_of_exec pushToBlocked (by decide))).mpr hc⟩

/-- A `Push` that completes before the worker's first `Wait`. -/
theorem push_before_wait :
    ∃ s : InternalThread Unit, (sys false).Reachable s ∧ Stuck s := by
  obtain ⟨s, hr, hp⟩ := LTS.exists_reachable_of_exec (· = start) (step false)
    [.append (.scene ()), .notify, .worker, .worker]
    (fun s => s.blocked && s.notifies == 0 && !s.msgQueue.msgWaitList.isEmpty) rfl (by decide)
  refine ⟨s, hr, ?_⟩
  simpa [Stuck, and_assoc] using hp

/-! ## Waking with nothing to do -/

/-- The next step of the worker is a `Pop` from an empty proc list. -/
def EmptyPop (s : InternalThread α) : Prop := s.pc = .pop ∧ s.msgQueue.msgProcList = []

/-- The splice after a wake-up finds a package in the wait list. -/
def SplicesWork (s : InternalThread α) (l : Act α) : Prop :=
  l = .worker → s.pc = .splice → s.msgQueue.msgWaitList ≠ []

/-- Between two batches the proc list is used up, and without spurious
wake-ups a `Pop` always finds something. -/
structure Fed (s : InternalThread α) : Prop where
  drained : Drained s.pc → s.msgQueue.msgProcList = []
  fed : s.pc = .pop → s.msgQueue.msgProcList ≠ []

theorem fed_wake (s : InternalThread α) (h : Fed s) : Fed s.wake := by
  rcases wake_cases s with ⟨hp, he⟩ | ⟨-, he⟩ <;> rw [he]
  · exact ⟨fun _ => h.drained (by simp [hp, Drained]), by simp⟩
  · exact h

theorem fed_workerStep (s s' : InternalThread α) (h : Fed s) (hc : SplicesWork s .worker)
    (hs : s.workerStep = some s') : Fed s' := by
  unfold workerStep at hs
  have hd := h.drained
  cases hp : s.pc
  all_goals simp only [hp, Option.some.injEq, reduceCtorEq] at hs; try subst hs
  all_goals simp only [hp, Drained, true_imp_iff] at hd
  case loop => exact ⟨fun _ => hd, by dsimp only; split <;> simp⟩
  case wait => exact ⟨fun _ => hd, by simp⟩
  case splice => exact ⟨False.elim, fun _ => by simpa [hd] using hc rfl hp⟩
  case pop => exact ⟨False.elim, by simp⟩
  case run package =>
    cases package with
    | none => exact ⟨False.elim, by simp [call]⟩
    | some t => cases t <;> exact ⟨False.elim, by simp [call]⟩
  case test =>
    by_cases he : s.msgQueue.msgProcList = []
    · exact ⟨fun _ => he, by simp [he]⟩
    · exact ⟨by simp [he, Drained], fun _ => he⟩

theorem fed_guarded : (sys false).Guarded (SplicesWork (α := α)) Fed (fun s => ¬ EmptyPop s) where
  init s h0 := by
    rw [h0]
    exact ⟨fun _ => rfl, by simp [start]⟩
  step s l s' hi hc hs := by
    cases l with
    | append package =>
      simp only [sys_step, step, Option.some.injEq] at hs; subst hs
      exact ⟨hi.drained, hi.fed⟩
    | notify =>
      simp only [sys_step, step] at hs
      split at hs
      · cases hs; exact ⟨(fed_wake s hi).drained, (fed_wake s hi).fed⟩
      · cases hs
    | spurious => simp [step] at hs
    | worker => exact fed_workerStep s s' hi hc hs
  safe s h hp := h.fed hp.1 hp.2
  sharp s l s' hi hc hs := by
    simp only [SplicesWork, Classical.not_imp, not_not] at hc
    obtain ⟨rfl, hp, hw⟩ := hc
    have hd := hi.drained (by simp [hp, Drained])
    simp only [sys_step, step, workerStep, hp, Option.some.injEq] at hs
    subst hs
    exact not_not.mpr ⟨rfl, by simp [hd, hw]⟩

/-- **Empty pops.** Without spurious wake-ups, every `Pop` of a run finds the
proc list non-empty exactly when every splice finds the wait list non-empty. -/
theorem empty_pop_iff {ms : List (Move (InternalThread α) (Act α))} {s : InternalThread α}
    (hr : (sys false).Run start ms s) :
    (∀ x ∈ LTS.visited start ms, ¬ EmptyPop x) ↔ ∀ m ∈ ms, SplicesWork m.src m.lbl :=
  fed_guarded.safe_along_iff rfl hr

instance (s : InternalThread Unit) (l : Act Unit) : Decidable (SplicesWork s l) :=
  inferInstanceAs (Decidable (_ → _ → _))

theorem empty_pop_iff_pushToBlocked :
    (∀ m ∈ LTS.moves (step false) start pushToBlocked, SplicesWork m.src m.lbl) ∧
      ∀ x ∈ LTS.visited start (LTS.moves (step false) start pushToBlocked), ¬ EmptyPop x := by
  have hc : ∀ m ∈ LTS.moves (step false) start pushToBlocked, SplicesWork m.src m.lbl := by decide
  exact ⟨hc, (empty_pop_iff (LTS.run_of_exec pushToBlocked (by decide))).mpr hc⟩

/-- Two packages are appended, one notify starts the batch that runs both,
the other comes when the worker is blocked again. -/
def lateNotify : List (Act Unit) :=
  [.worker, .worker, .append (.scene ()), .append (.scene ()), .notify,
    .worker, .worker, .worker, .worker, .worker, .worker, .worker, .worker,
    .worker, .notify, .worker]

/-- The worker pops from the empty list, and calling the result ends it. -/
theorem late_notify :
    ∃ s : InternalThread Unit, (sys false).Reachable s ∧ EmptyPop s := by
  obtain ⟨s, hr, hp⟩ := LTS.exists_reachable_of_exec (· = start) (step false) lateNotify
    (fun s => s.pc == .pop && s.msgQueue.empty) rfl (by decide)
  refine ⟨s, hr, ?_⟩
  simpa [EmptyPop] using hp

example : (LTS.exec (step false) start (lateNotify ++ [.worker, .worker])).map (·.pc) =
    some .crashed := by
  decide

end MonitorAgent.L2.InternalThread
