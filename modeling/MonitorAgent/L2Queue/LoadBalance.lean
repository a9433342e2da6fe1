import MonitorAgent.L2Queue.PoolThread
import Mathlib.Algebra.BigOperators.Group.Finset.Piecewise
import Mathlib.Algebra.Order.BigOperators.Group.Finset
import Mathlib.Algebra.Group.Action.Defs

/-!
# How a pool spreads its packages

`Schedule` (Monitor/Monitor/PoolThread.hpp:120-126) gives a package to the
thread that `make_heap` put first. The loads it compares change under its
hands; here they do not: no worker takes a package, and `Stop` is not called.

* `spread_even`: of `k` packages every thread then has `k / n`, rounded down or up.
-/
namespace MonitorAgent.L2.PoolThread

universe u

variable {α : Type u}

/-- No package is taken, and the owner is not past `Start`. -/
def Untaken (m : Move (PoolThread α) (Act α)) : Prop :=
  match m.lbl with
  | .worker t | .spurious t => m.dst.load t = m.src.load t
  | .owner => ¬ m.dst.owner.Called
  | .schedule _ | .notify | .makeHeap _ => True

/-- The loads differ by one at most, and the thread that is next has the least. -/
structure Even (threadsCount : Nat) (s : PoolThread α) : Prop where
  within : ∀ t < threadsCount, ∀ u < threadsCount, s.load t ≤ s.load u + 1
  least : s.lock = .free → ∀ t, s.threads.head? = some t → ∀ u < threadsCount, s.load t ≤ s.load u
  quiet : s.lock ≠ .heaping false
  total : (Finset.range threadsCount).sum s.load = s.scheduled.length

section Even

variable {threadsCount : Nat} {spurious : Bool} {s s' : PoolThread α}

theorem even_new (threadsCount : Nat) : Even threadsCount (new threadsCount : PoolThread α) where
  within t _ u _ := Nat.le_succ 0
  least _ t _ u _ := Nat.le_refl 0
  quiet := by simp [new]
  total := Finset.sum_const_zero

/-- Nothing changes but the lock, and that not to free. -/
theorem Even.congr (h : Even threadsCount s) (hl : ∀ t, s'.load t = s.load t)
    (hk : s'.lock = .free → s.lock = .free) (ht : s'.threads = s.threads)
    (hq : s'.lock ≠ .heaping false) (hs : s'.scheduled = s.scheduled) : Even threadsCount s' where
  within t htl u hu := by rw [hl, hl]; exact h.within t htl u hu
  least hf t hh u hu := by
    rw [hl, hl]
    exact h.least (hk hf) t (ht ▸ hh) u hu
  quiet := hq
  total := by rw [hs, ← h.total]; exact Finset.sum_congr rfl fun t _ => hl t

theorem load_act {t : Nat} {l : L2.Act α} (hs : s.act spurious t l = some s') (u : Nat) :
    s'.load u = if u = t then s'.load t else s.load u := by
  obtain ⟨x, -, rfl⟩ := act_eq_some hs
  split
  · rename_i he
    rw [he]
  · rename_i hu
    simp [load, Function.update_of_ne hu]

theorem load_append {t : Nat} {package : Package α}
    (hs : s.act spurious t (.append package) = some s') : s'.load t = s.load t + 1 := by
  obtain ⟨x, hx, rfl⟩ := act_eq_some hs
  simp only [InternalThread.step, Option.some.injEq] at hx
  subst hx
  simp [load, InternalThread.load, MessageQueue.size, MessageQueue.push]
  omega

theorem load_notify {t : Nat} (hs : s.act spurious t .notify = some s') (u : Nat) :
    s'.load u = s.load u := by
  rw [load_act hs]
  split
  · rename_i he
    obtain ⟨x, hx, rfl⟩ := act_eq_some hs
    simp only [InternalThread.step] at hx
    split at hx
    · cases hx
      rcases InternalThread.wake_cases (s.internal t) with ⟨-, hw⟩ | ⟨-, hw⟩ <;>
        simp [load, InternalThread.load, hw, he]
    · cases hx
  · rfl

theorem even_schedule (hi : Inv threadsCount s) (h : Even threadsCount s) {package : α}
    (hs : s.schedule package = some s') : Even threadsCount s' := by
  unfold schedule at hs
  split at hs
  · rename_i t rest hlock hthreads
    obtain ⟨s₁, ha, rfl⟩ := Option.map_eq_some_iff.mp hs
    have hlt : t < threadsCount := hi.mem_lt (by rw [hthreads]; exact List.mem_cons_self)
    have hleast := h.least hlock t (by rw [hthreads]; rfl)
    have hload := load_act ha
    rw [load_append ha] at hload
    have hlog : s₁.scheduled = s.scheduled := by
      obtain ⟨x, -, rfl⟩ := act_eq_some ha
      rfl
    refine ⟨fun u hu v hv => ?_, by simp, by simp, ?_⟩
    · change s₁.load u ≤ s₁.load v + 1
      have h1 := h.within u hu v hv
      have h2 := hleast v hv
      have h3 := h.within u hu t hlt
      rw [hload u, hload v]
      split <;> split <;> omega
    · have hfun : s₁.load = Function.update s.load t (s.load t + 1) := by
        funext u
        rw [hload u, Function.update_apply]
      change (Finset.range threadsCount).sum s₁.load = (s₁.scheduled ++ [(t, package)]).length
      rw [hfun, Finset.sum_update_of_mem (Finset.mem_range.mpr hlt),
        List.length_append, hlog, ← h.total,
        ← Finset.sum_sdiff (Finset.singleton_subset_iff.mpr (Finset.mem_range.mpr hlt)),
        Finset.sum_singleton, List.length_singleton]
      omega
  · cases hs

theorem even_notify (h : Even threadsCount s) (hs : s.notify = some s') : Even threadsCount s' := by
  unfold notify at hs
  split at hs
  · obtain ⟨s₁, ha, rfl⟩ := Option.map_eq_some_iff.mp hs
    have hload := load_notify ha
    obtain ⟨x, -, rfl⟩ := act_eq_some ha
    exact h.congr hload (by simp) rfl (by simp) rfl
  · cases hs

/-- The root of the new heap has the least load. -/
theorem even_makeHeap (hi : Inv threadsCount s) (h : Even threadsCount s) {threads : List Nat}
    (hs : s.makeHeap threads = some s') : Even threadsCount s' := by
  unfold makeHeap at hs
  split at hs
  · rename_i quiet hlock
    split at hs
    · rename_i hp
      cases hs
      have hq : quiet = true := by
        cases quiet with
        | true => rfl
        | false => exact absurd hlock h.quiet
      refine ⟨h.within, fun _ t ht u hu => ?_, by simp, h.total⟩
      obtain ⟨rest, rfl⟩ := List.head?_eq_some_iff.mp ht
      refine (hp.2 hq).root_le (y := u) ?_
      exact (hp.1.trans hi.threads).mem_iff.mpr (List.mem_range.mpr hu)
    · cases hs
  · cases hs

/-- A step of a worker that takes nothing. -/
theorem even_worker (h : Even threadsCount s) {t : Nat} {l : L2.Act α}
    (hs : s.act spurious t l = some s') (hu : s'.load t = s.load t) : Even threadsCount s' := by
  have hload : ∀ u, s'.load u = s.load u := fun u => by
    rw [load_act hs]
    split
    · rename_i he
      rw [he, hu]
    · rfl
  obtain ⟨x, -, rfl⟩ := act_eq_some hs
  have hx : x.load = s.load t := by simpa [load] using hu
  have hd : s.disturb (x.load == s.load t) = s.lock := by
    unfold disturb
    split
    · rename_i hl
      simp [hx, hl]
    · rfl
  refine h.congr hload (fun hf => ?_) rfl ?_ rfl
  · exact hd ▸ hf
  · exact hd ▸ h.quiet

theorem even_owner (h : Even threadsCount s) (hs : s.ownerStep = some s')
    (hc : ¬ s'.owner.Called) : Even threadsCount s' := by
  unfold ownerStep at hs
  cases ho : s.owner
  all_goals simp only [ho, reduceCtorEq] at hs
  case starting idx =>
    rcases read_cases hs with ⟨-, hd⟩ | ⟨-, rfl⟩ | ⟨-, t, -, hf⟩
    · cases hd
      exact h.congr (fun _ => rfl) id rfl h.quiet rfl
    · exact absurd trivial hc
    · cases hf
      unfold startThread at hc ⊢
      split at hc
      · exact absurd trivial hc
      · rename_i hn
        rw [if_neg hn]
        refine h.congr (fun u => ?_) id rfl h.quiet rfl
        simp only [load, Function.update_apply]
        split
        · rename_i he
          subst he; rfl
        · rfl
  case running =>
    cases hs
    exact absurd trivial hc
  case stopping idx =>
    rcases read_cases hs with ⟨-, hd⟩ | ⟨-, rfl⟩ | ⟨-, t, -, hf⟩
    · cases hd; exact absurd trivial hc
    · exact absurd trivial hc
    · obtain ⟨s₁, -, rfl⟩ := Option.map_eq_some_iff.mp hf
      exact absurd trivial hc
  case notifying idx t =>
    obtain ⟨s₁, -, rfl⟩ := Option.map_eq_some_iff.mp hs
    exact absurd trivial hc
  case joining idx =>
    rcases read_cases hs with ⟨-, hd⟩ | ⟨-, rfl⟩ | ⟨-, t, -, hf⟩
    · cases hd
    · exact absurd trivial hc
    · split at hf
      · cases hf; exact absurd trivial hc
      · cases hf; exact absurd trivial hc
  case waiting idx t =>
    split at hs
    · cases hs; exact absurd trivial hc
    · cases hs

theorem even_step (hi : Inv threadsCount s) (h : Even threadsCount s) {l : Act α}
    (hs : s.step spurious l = some s') (hu : Untaken ⟨s, l, s'⟩) : Even threadsCount s' := by
  cases l with
  | schedule package => exact even_schedule hi h hs
  | notify => exact even_notify h hs
  | makeHeap threads => exact even_makeHeap hi h hs
  | worker t =>
    simp only [step] at hs
    split at hs
    · exact even_worker h hs hu
    · cases hs
  | spurious t =>
    simp only [step] at hs
    split at hs
    · exact even_worker h hs hu
    · cases hs
  | owner => exact even_owner h hs hu

end Even

theorem even_inductive (threadsCount : Nat) (spurious : Bool) :
    ((sys threadsCount spurious).moving Untaken).Inductive fun s : PoolThread α =>
      Inv threadsCount s ∧ Even threadsCount s :=
  ⟨fun _ h0 => h0 ▸ ⟨inv_new threadsCount, even_new threadsCount⟩,
    fun _ _ _ h hs => ⟨inv_step h.1 hs.1, even_step h.1 h.2 hs.1 hs.2⟩⟩

/-- A list of numbers that differ by one at most is as even as its sum allows. -/
theorem even_of_within {n : Nat} {f : Nat → Nat} (h : ∀ t < n, ∀ u < n, f t ≤ f u + 1) {t : Nat}
    (ht : t < n) :
    (Finset.range n).sum f / n ≤ f t ∧ f t ≤ ((Finset.range n).sum f + n - 1) / n := by
  have hmem : t ∈ Finset.range n := Finset.mem_range.mpr ht
  have hsplit : f t + ((Finset.range n).erase t).sum f = (Finset.range n).sum f :=
    Finset.add_sum_erase _ f hmem
  have hcard : ((Finset.range n).erase t).card = n - 1 := by
    rw [Finset.card_erase_of_mem hmem, Finset.card_range]
  have hup : ((Finset.range n).erase t).sum f ≤ (n - 1) * (f t + 1) := by
    have := Finset.sum_le_card_nsmul ((Finset.range n).erase t) f (f t + 1) fun u hu =>
      h u (Finset.mem_range.mp (Finset.mem_of_mem_erase hu)) t ht
    rwa [hcard, smul_eq_mul] at this
  have hlow : (n - 1) * (f t - 1) ≤ ((Finset.range n).erase t).sum f := by
    have := Finset.card_nsmul_le_sum ((Finset.range n).erase t) f (f t - 1) fun u hu => by
      have := h t ht u (Finset.mem_range.mp (Finset.mem_of_mem_erase hu))
      omega
    rwa [hcard, smul_eq_mul] at this
  rw [← hsplit]
  generalize ((Finset.range n).erase t).sum f = r at hup hlow
  obtain ⟨m, rfl⟩ : ∃ m, n = m + 1 := ⟨n - 1, by omega⟩
  rw [Nat.add_sub_cancel] at hup hlow
  constructor
  · refine Nat.le_of_lt_succ (Nat.div_lt_of_lt_mul ?_)
    rw [Nat.succ_eq_add_one, Nat.add_one_mul]
    omega
  · rw [Nat.le_div_iff_mul_le (Nat.succ_pos m), Nat.mul_add_one]
    cases hf : f t with
    | zero => omega
    | succ k =>
      rw [hf, Nat.add_sub_cancel] at hlow
      rw [Nat.mul_comm, Nat.mul_add_one]
      omega

/-- **Balance.** While no package is taken, `k` packages are spread over `n`
threads so that each has `k / n` of them, rounded down or up. -/
theorem spread_even {threadsCount : Nat} {spurious : Bool} {ms : List (Move (PoolThread α) (Act α))}
    {s : PoolThread α} (hr : (sys threadsCount spurious).Run (new threadsCount) ms s)
    (hu : ∀ m ∈ ms, Untaken m) {t : Nat} (ht : t < threadsCount) :
    s.scheduled.length / threadsCount ≤ s.load t ∧
      s.load t ≤ (s.scheduled.length + threadsCount - 1) / threadsCount := by
  obtain ⟨-, he⟩ := (even_inductive threadsCount spurious).run (hr.moving hu)
    ⟨inv_new threadsCount, even_new threadsCount⟩
  rw [← he.total]
  exact even_of_within he.within ht

instance (o : Owner) : Decidable o.Called :=
  match o with
  | .starting _ | .running => .isFalse id
  | .stopping _ | .notifying _ _ | .joining _ | .waiting _ _ => .isTrue trivial
  | .stopped | .terminated | .undefined => .isTrue trivial

instance (m : Move (PoolThread α) (Act α)) : Decidable (Untaken m) :=
  match m with
  | ⟨_, .worker _, _⟩ => inferInstanceAs (Decidable (_ = _))
  | ⟨_, .spurious _, _⟩ => inferInstanceAs (Decidable (_ = _))
  | ⟨_, .owner, _⟩ => inferInstanceAs (Decidable (¬ _))
  | ⟨_, .schedule _, _⟩ => .isTrue trivial
  | ⟨_, .notify, _⟩ => .isTrue trivial
  | ⟨_, .makeHeap _, _⟩ => .isTrue trivial

/-- Three packages for two threads, while the first of these comes up. -/
def threeScheduled : List (Act Nat) :=
  [.owner, .schedule 7, .owner, .notify, .makeHeap [1, 0], .owner, .worker 0,
    .schedule 8, .worker 0,
    .notify, .makeHeap [1, 0], .schedule 9, .notify, .makeHeap [0, 1]]

theorem spread_even_threeScheduled : ∃ s : PoolThread Nat, s.scheduled = [(0, 7), (1, 8), (1, 9)] ∧
    3 / 2 ≤ s.load 0 ∧ s.load 1 ≤ (3 + 2 - 1) / 2 := by
  have hall : (LTS.exec (fun s => s.step false) (new 2) threeScheduled).map
      (fun s => s.scheduled == [(0, 7), (1, 8), (1, 9)]) = some true := by
    decide +kernel
  obtain ⟨s, he, hp⟩ := Option.map_eq_some_iff.mp hall
  have hp : s.scheduled = [(0, 7), (1, 8), (1, 9)] := by simpa using hp
  have hrun : (sys 2 false).Run (new 2) _ s := LTS.run_moves threeScheduled he
  have hu : ∀ m ∈ LTS.moves (fun s => s.step false) (new 2) threeScheduled, Untaken m := by
    decide +kernel
  have h0 := spread_even hrun hu (t := 0) (by decide)
  have h1 := spread_even hrun hu (t := 1) (by decide)
  rw [hp] at h0 h1
  exact ⟨s, hp, h0.1, h1.2⟩

end MonitorAgent.L2.PoolThread
