import MonitorAgent.L2Queue.PoolThread

/-!
# What a thread of a pool has run

The scenes given to a thread, as those it has run and those it has yet to run:
what each step of a pool does to the two lists. Only the worker's own step runs
a scene, and only `Schedule` adds one.

* `ran_append_backlog`: in a pool of one thread the two lists are what was
  scheduled.
-/
namespace MonitorAgent.L2

universe u

variable {α : Type u}

/-- The scene that the next step of the worker calls. -/
def InternalThread.calling (x : InternalThread α) : List α :=
  match x.pc with
  | .run (some (.scene a)) => [a]
  | _ => []

namespace PoolThread

section Thread

variable {spurious : Bool} {x x' : InternalThread α}

theorem wake_ran (x : InternalThread α) : x.wake.ran = x.ran := by
  rcases InternalThread.wake_cases x with ⟨-, h⟩ | ⟨-, h⟩ <;> rw [h]

theorem workerStep_ran (h : x.workerStep = some x') :
    scenes x'.ran = scenes x.ran ++ x.calling := by
  unfold InternalThread.workerStep at h
  unfold InternalThread.calling
  cases hp : x.pc
  case run package =>
    simp only [hp, Option.some.injEq] at h
    subst h
    match package with
    | none => simp [InternalThread.call]
    | some (.scene a) => simp [InternalThread.call]
    | some .stop => simp [InternalThread.call]
  all_goals simp only [hp, Option.some.injEq, reduceCtorEq] at h
  all_goals subst h; simp

/-- Nobody but the worker runs anything. -/
theorem step_ran {l : L2.Act α} (h : InternalThread.step spurious x l = some x')
    (hl : l ≠ .worker) :
    x'.ran = x.ran := by
  cases l with
  | append package =>
    simp only [InternalThread.step, Option.some.injEq] at h
    subst h; rfl
  | notify =>
    simp only [InternalThread.step] at h
    split at h
    · cases h; exact wake_ran x
    · cases h
  | spurious =>
    simp only [InternalThread.step] at h
    split at h
    · cases h; exact wake_ran x
    · cases h
  | worker => exact absurd rfl hl

end Thread

/-- The scenes a thread has run. -/
def ran (s : PoolThread α) (thread : Nat) : List α := scenes (s.internal thread).ran

/-- The scenes a thread has yet to run: in hand, spliced and waiting. -/
def backlog (s : PoolThread α) (thread : Nat) : List α :=
  scenes ((s.internal thread).inHand ++ (s.internal thread).msgQueue.contents)

/-- The packages that were scheduled, in this order. -/
def packages (s : PoolThread α) : List α := s.scheduled.map fun e => e.2

section Step

variable {spurious : Bool} {s s' : PoolThread α}

/-- Nothing is run and nothing is scheduled. -/
structure Quiet (s s' : PoolThread α) : Prop where
  ran : ∀ t, s'.ran t = s.ran t
  scheduled : s'.scheduled = s.scheduled

theorem Quiet.of_eq (hi : s'.internal = s.internal) (hs : s'.scheduled = s.scheduled) :
    Quiet s s' :=
  ⟨fun t => by rw [PoolThread.ran, PoolThread.ran, hi], hs⟩

theorem quiet_act {t : Nat} {l : L2.Act α} (h : s.act spurious t l = some s') (hl : l ≠ .worker) :
    Quiet s s' := by
  obtain ⟨x, hx, rfl⟩ := act_eq_some h
  refine ⟨fun u => ?_, rfl⟩
  by_cases hu : u = t
  · subst hu
    simp [ran, step_ran hx hl]
  · simp [ran, Function.update_of_ne hu]

theorem quiet_startThread (s : PoolThread α) (idx t : Nat) : Quiet s (s.startThread idx t) := by
  unfold startThread
  split
  · exact .of_eq rfl rfl
  · refine ⟨fun u => ?_, rfl⟩
    by_cases hu : u = t
    · subst hu; simp [ran]
    · simp [ran, Function.update_of_ne hu]

theorem quiet_ownerStep (h : s.ownerStep = some s') : Quiet s s' := by
  unfold ownerStep at h
  cases ho : s.owner
  all_goals simp only [ho, reduceCtorEq] at h
  case starting idx =>
    rcases read_cases h with ⟨-, hd⟩ | ⟨-, rfl⟩ | ⟨-, t, -, ht⟩
    · cases hd; exact .of_eq rfl rfl
    · exact .of_eq rfl rfl
    · cases ht; exact quiet_startThread s idx t
  case running => cases h; exact .of_eq rfl rfl
  case stopping idx =>
    rcases read_cases h with ⟨-, hd⟩ | ⟨-, rfl⟩ | ⟨-, t, -, ht⟩
    · cases hd; exact .of_eq rfl rfl
    · exact .of_eq rfl rfl
    · obtain ⟨s₁, ha, rfl⟩ := Option.map_eq_some_iff.mp ht
      obtain ⟨hr, hsc⟩ := quiet_act ha (by simp)
      exact ⟨hr, hsc⟩
  case notifying idx t =>
    obtain ⟨s₁, ha, rfl⟩ := Option.map_eq_some_iff.mp h
    obtain ⟨hr, hsc⟩ := quiet_act ha (by simp)
    exact ⟨hr, hsc⟩
  case joining idx =>
    rcases read_cases h with ⟨-, hd⟩ | ⟨-, rfl⟩ | ⟨-, t, -, ht⟩
    · cases hd
    · exact .of_eq rfl rfl
    · split at ht
      · cases ht; exact .of_eq rfl rfl
      · cases ht; exact .of_eq rfl rfl
  case waiting idx t =>
    split at h
    · cases h; exact .of_eq rfl rfl
    · cases h

theorem quiet_notify (h : s.notify = some s') : Quiet s s' := by
  unfold notify at h
  split at h
  · obtain ⟨s₁, ha, rfl⟩ := Option.map_eq_some_iff.mp h
    obtain ⟨hr, hsc⟩ := quiet_act ha (by simp)
    exact ⟨hr, hsc⟩
  · cases h

theorem quiet_makeHeap {threads : List Nat} (h : s.makeHeap threads = some s') : Quiet s s' := by
  unfold makeHeap at h
  split at h
  · split at h
    · cases h; exact .of_eq rfl rfl
    · cases h
  · cases h

theorem schedule_adds {package : α} (h : s.schedule package = some s') :
    (∀ t, s'.ran t = s.ran t) ∧ s'.packages = s.packages ++ [package] := by
  unfold schedule at h
  split at h
  · obtain ⟨s₁, ha, rfl⟩ := Option.map_eq_some_iff.mp h
    obtain ⟨hr, hsc⟩ := quiet_act ha (by simp)
    refine ⟨hr, ?_⟩
    simp [packages, hsc]
  · cases h

theorem worker_runs {t : Nat} (h : s.step spurious (.worker t) = some s') :
    s'.ran t = s.ran t ++ (s.internal t).calling ∧ s'.packages = s.packages := by
  simp only [step] at h
  split at h
  · obtain ⟨x, hx, rfl⟩ := act_eq_some h
    exact ⟨by simpa [ran] using workerStep_ran hx, rfl⟩
  · cases h

theorem worker_others {t u : Nat} (h : s.step spurious (.worker t) = some s') (hu : u ≠ t) :
    s'.ran u = s.ran u := by
  simp only [step] at h
  split at h
  · obtain ⟨x, -, rfl⟩ := act_eq_some h
    simp [ran, Function.update_of_ne hu]
  · cases h

theorem quiet_spurious {t : Nat} (h : s.step spurious (.spurious t) = some s') : Quiet s s' := by
  simp only [step] at h
  split at h
  · exact quiet_act h (by simp)
  · cases h

/-- What a step schedules. -/
def added : Act α → List α
  | .schedule package => [package]
  | _ => []

/-- What a step runs in a thread. -/
def called (s : PoolThread α) (thread : Nat) : Act α → List α
  | .worker t => if t = thread then (s.internal t).calling else []
  | _ => []

theorem packages_step {l : Act α} (h : s.step spurious l = some s') :
    s'.packages = s.packages ++ added l := by
  have hquiet : Quiet s s' → s'.packages = s.packages ++ [] := fun hq => by
    rw [List.append_nil, packages, packages, hq.scheduled]
  cases l with
  | schedule package => exact (schedule_adds h).2
  | notify => exact hquiet (quiet_notify h)
  | makeHeap threads => exact hquiet (quiet_makeHeap h)
  | worker t => simpa [added] using (worker_runs h).2
  | spurious t => exact hquiet (quiet_spurious h)
  | owner => exact hquiet (quiet_ownerStep h)

theorem ran_step {l : Act α} (h : s.step spurious l = some s') (t : Nat) :
    s'.ran t = s.ran t ++ s.called t l := by
  have hquiet : Quiet s s' → s'.ran t = s.ran t ++ [] := fun hq => by
    rw [List.append_nil, hq.ran]
  cases l with
  | schedule package => simpa [called] using (schedule_adds h).1 t
  | notify => exact hquiet (quiet_notify h)
  | makeHeap threads => exact hquiet (quiet_makeHeap h)
  | worker u =>
    by_cases hu : u = t
    · subst hu
      simpa [called] using (worker_runs h).1
    · simpa [called, hu] using worker_others h fun e => hu e.symm
  | spurious u => exact hquiet (quiet_spurious h)
  | owner => exact hquiet (quiet_ownerStep h)

/-- In a pool of one thread, what was scheduled has been run or is yet to be. -/
theorem ran_append_backlog (h : Inv 1 s) : s.ran 0 ++ s.backlog 0 = s.packages := by
  have hone : ∀ e ∈ s.scheduled, (e.1 == 0) = true := fun e he => by
    have hlt := h.places e he
    simpa using (by omega : e.1 = 0)
  have hd : dealt s.scheduled 0 = s.packages := by
    rw [dealt, List.filter_eq_self.mpr hone, packages]
  rw [← hd, ← h.dealt 0, (h.sound 0).pushed]
  simp [ran, backlog, MessageQueue.contents]

end Step

end PoolThread
end MonitorAgent.L2
