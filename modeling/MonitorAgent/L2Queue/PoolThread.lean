import MonitorAgent.Core.MinHeap
import MonitorAgent.L2Queue.MessageQueue
import Mathlib.Data.List.Range
import Mathlib.Logic.Function.Basic

/-!
# The thread pool

`PoolThread<T>` (Monitor/Monitor/PoolThread.hpp:88-132) owns some
`InternalThread`s, each with a queue of its own. `Schedule` pushes to the one
that is first in `threads_` and then makes a heap of `threads_` again, so the
one with the least load comes first. Any number of threads call `Schedule`;
`threads_lock_` keeps them apart. One thread, the owner, calls `Start` and
`Stop`, which go through `threads_` without the lock.

A step is a lock-protected section of a queue, a step of a worker, or one
access of the owner to `threads_`. `make_heap` compares loads that the workers
may change meanwhile. What it leaves is then some order of the same threads;
if no load has changed it is a heap.

A heap being made is read by nobody but `Schedule`: with two threads or more a
read by the owner is a data race (`Owner.undefined`). Starting a thread again
and joining one that is not joinable end the process (`Owner.terminated`).

Results:
* `dealt_in_order`: each package scheduled is with exactly one thread, and each thread
  has its packages in the order in which they were scheduled.
* `stop_joins`: if no `Schedule` is under way while the owner is at `Start` or
  `Stop`, then `Stop` returns with every thread at its end, and all that was
  scheduled before the call has been run. A pool of one thread needs no such
  condition (`Calm`).
-/
namespace MonitorAgent.L2

universe u

/-- mirrors Monitor/Monitor/MessageQueue.hpp:68-79 -/
def MessageQueue.size {T : Type u} (q : MessageQueue T) : Nat :=
  q.msgWaitList.length + q.msgProcList.length

namespace InternalThread

variable {α : Type u}

/-- mirrors Monitor/Monitor/PoolThread.hpp:23-29 -/
def new : InternalThread α := { start with active := false }

/-- mirrors Monitor/Monitor/PoolThread.hpp:76-79 -/
def load (s : InternalThread α) : Nat := s.msgQueue.size

def exited (s : InternalThread α) : Bool :=
  match s.pc with
  | .exited => true
  | _ => false

@[simp] theorem exited_iff (s : InternalThread α) : s.exited = true ↔ s.pc = .exited := by
  unfold exited; split <;> simp_all

end InternalThread

/-- Where the holder of `threads_lock_` stands, if there is one. `quiet` says
that no load has changed since `make_heap` began. -/
inductive Scheduling
  | free
  | pushed (thread : Nat)
  | heaping (quiet : Bool)
deriving DecidableEq

/-- Where the caller of `Start` and `Stop` stands; `idx` is the counter of the
loop, and `thread` what `threads_[idx]` was. -/
inductive Owner
  | starting (idx : Nat)
  | running
  | stopping (idx : Nat)
  | notifying (idx thread : Nat)
  | joining (idx : Nat)
  | waiting (idx thread : Nat)
  | stopped
  | terminated
  | undefined
deriving DecidableEq

namespace Owner

/-- The places of `threads_` whose threads have been started. -/
def startedUpTo (threadsCount : Nat) : Owner → Nat
  | .starting idx => idx
  | _ => threadsCount

/-- The places of `threads_` whose threads have been joined. -/
def joinedUpTo (threadsCount : Nat) : Owner → Nat
  | .stopping idx | .notifying idx _ | .joining idx | .waiting idx _ => idx
  | .stopped => threadsCount
  | _ => 0

/-- `Stop` has been called. -/
def Called : Owner → Prop
  | .starting _ | .running => False
  | _ => True

end Owner

/-- A pool. `scheduled` logs the packages with the threads they were given to,
`before` is that log when `Stop` was called.
mirrors Monitor/Monitor/PoolThread.hpp:128-131 -/
structure PoolThread (α : Type u) where
  threads : List Nat
  internal : Nat → InternalThread α
  started : Nat → Bool
  joined : Nat → Bool
  lock : Scheduling
  owner : Owner
  scheduled : List (Nat × α)
  before : List (Nat × α)

namespace PoolThread

variable {α : Type u}

inductive Act (α : Type u)
  | schedule (package : α)
  | notify
  | makeHeap (threads : List Nat)
  | worker (thread : Nat)
  | spurious (thread : Nat)
  | owner
deriving DecidableEq

/-- The constructor. With all loads 0 any order is a heap.
mirrors Monitor/Monitor/PoolThread.hpp:92-102 -/
def new (threadsCount : Nat) : PoolThread α where
  threads := List.range threadsCount
  internal _ := .new
  started _ := false
  joined _ := false
  lock := .free
  owner := .starting 0
  scheduled := []
  before := []

section Step

variable (s : PoolThread α)

def load (thread : Nat) : Nat := (s.internal thread).load

/-- A heap that is being made has seen a load change. -/
def disturb (same : Bool) : Scheduling :=
  match s.lock with
  | .heaping quiet => .heaping (quiet && same)
  | lock => lock

/-- A step of a thread of the pool, or on its queue. -/
def act (spurious : Bool) (thread : Nat) (l : L2.Act α) : Option (PoolThread α) :=
  (InternalThread.step spurious (s.internal thread) l).map fun x =>
    { s with
      internal := Function.update s.internal thread x, lock :=
        s.disturb (x.load == s.load thread) }

/-- mirrors Monitor/Monitor/PoolThread.hpp:120-124 -/
def schedule (package : α) : Option (PoolThread α) :=
  match s.lock, s.threads with
  | .free, t :: _ => (s.act false t (.append (.scene package))).map fun s =>
    { s with lock := .pushed t, scheduled := s.scheduled ++ [(t, package)] }
  | _, _ => none

/-- The end of the `Push`. mirrors Monitor/Monitor/MessageQueue.hpp:39 -/
def notify : Option (PoolThread α) :=
  match s.lock with
  | .pushed t => (s.act false t .notify).map fun s => { s with lock := .heaping true }
  | _ => none

/-- mirrors Monitor/Monitor/PoolThread.hpp:125-126 -/
def makeHeap (threads : List Nat) : Option (PoolThread α) :=
  match s.lock with
  | .heaping quiet =>
    if threads.Perm s.threads ∧ (quiet = true → IsMinHeap s.load threads) then
      some { s with threads := threads, lock := .free }
    else none
  | _ => none

/-- `threads_` is being written. -/
def racing : Bool :=
  match s.lock with
  | .heaping _ => 1 < s.threads.length
  | _ => false

/-- The owner reads `threads_[idx]` and goes on with it, or leaves the loop. -/
def read (idx : Nat) (done : Option (PoolThread α)) (f : Nat → Option (PoolThread α)) :
    Option (PoolThread α) :=
  match s.threads[idx]? with
  | none => done
  | some t => if s.racing then some { s with owner := .undefined } else f t

/-- mirrors Monitor/Monitor/PoolThread.hpp:31-34,108 -/
def startThread (idx thread : Nat) : PoolThread α :=
  if s.started thread then { s with owner := .terminated }
  else { s with
    internal := Function.update s.internal thread { s.internal thread with active := true }
    started := Function.update s.started thread true
    owner := .starting (idx + 1) }

/-- mirrors Monitor/Monitor/PoolThread.hpp:104-118,58-74 -/
def ownerStep : Option (PoolThread α) :=
  match s.owner with
  | .starting idx => s.read idx (some { s with owner := .running }) fun t =>
      some (s.startThread idx t)
  | .running => some { s with owner := .stopping 0, before := s.scheduled }
  | .stopping idx => s.read idx (some { s with owner := .stopped }) fun t =>
    (s.act false t (.append .stop)).map fun s => { s with owner := .notifying idx t }
  | .notifying idx t => (s.act false t .notify).map fun s => { s with owner := .joining idx }
  | .joining idx => s.read idx none fun t =>
    if s.started t && !s.joined t then some { s with owner := .waiting idx t }
    else some { s with owner := .terminated }
  | .waiting idx t =>
    if (s.internal t).exited then
      some { s with joined := Function.update s.joined t true, owner := .stopping (idx + 1) }
    else none
  | .stopped | .terminated | .undefined => none

def step (spurious : Bool) : Act α → Option (PoolThread α)
  | .schedule package => s.schedule package
  | .notify => s.notify
  | .makeHeap threads => s.makeHeap threads
  | .worker t => if s.started t then s.act spurious t .worker else none
  | .spurious t => if s.started t then s.act spurious t .spurious else none
  | .owner => s.ownerStep

end Step

/-- The runs of a pool, from its construction. -/
def sys (threadsCount : Nat) (spurious : Bool) : LTS (PoolThread α) (Act α) :=
  .ofFn (· = new threadsCount) fun s => s.step spurious

@[simp] theorem sys_step (threadsCount : Nat) (spurious : Bool) (s : PoolThread α) (l : Act α)
    (s' : PoolThread α) :
    (sys threadsCount spurious).step s l s' ↔ s.step spurious l = some s' := Iff.rfl

/-! ## One thread of the pool -/

/-- The scenes among the packages of a queue. -/
def scenes (packages : List (Package α)) : List α :=
  packages.filterMap fun
    | .scene a => some a
    | .stop => none

/-- What the log says was given to a thread. -/
def dealt (log : List (Nat × α)) (thread : Nat) : List α :=
  (log.filter fun e => e.1 == thread).map fun e => e.2

@[simp] theorem scenes_append (xs ys : List (Package α)) :
    scenes (xs ++ ys) = scenes xs ++ scenes ys :=
  List.filterMap_append

@[simp] theorem scenes_scene (a : α) : scenes [Package.scene a] = [a] := rfl

@[simp] theorem scenes_stop : scenes [(Package.stop : Package α)] = [] := rfl

@[simp] theorem dealt_nil (thread : Nat) : dealt ([] : List (Nat × α)) thread = [] := rfl

@[simp] theorem dealt_append (xs ys : List (Nat × α)) (thread : Nat) :
    dealt (xs ++ ys) thread = dealt xs thread ++ dealt ys thread := by
  simp [dealt]

theorem dealt_self (thread : Nat) (a : α) : dealt [(thread, a)] thread = [a] := by simp [dealt]

theorem dealt_other {thread t : Nat} (h : t ≠ thread) (a : α) : dealt [(thread, a)] t = [] := by
  simp [dealt, Ne.symm h]

/-- What a step appends to the queue. -/
def appended : L2.Act α → List (Package α)
  | .append package => [package]
  | _ => []

section Thread

variable {spurious : Bool} {x x' : InternalThread α} {l : L2.Act α}

theorem wake_pushed (x : InternalThread α) : x.wake.pushed = x.pushed := by
  rcases InternalThread.wake_cases x with ⟨-, h⟩ | ⟨-, h⟩ <;> rw [h]

theorem call_pushed (x : InternalThread α) (package : Option (Package α)) :
    (x.call package).pushed = x.pushed := by
  match package with
  | none => rfl
  | some (.scene a) => rfl
  | some .stop => rfl

theorem workerStep_pushed (h : x.workerStep = some x') : x'.pushed = x.pushed := by
  unfold InternalThread.workerStep at h
  cases hp : x.pc
  all_goals simp only [hp, Option.some.injEq, reduceCtorEq] at h; try subst h
  all_goals first | rfl | exact call_pushed x _

/-- Only an append adds to what was pushed. -/
theorem step_pushed (h : InternalThread.step spurious x l = some x') :
    x'.pushed = x.pushed ++ appended l := by
  cases l with
  | append package =>
    simp only [InternalThread.step, Option.some.injEq] at h
    subst h; rfl
  | notify =>
    simp only [InternalThread.step] at h
    split at h
    · cases h; simp [appended, wake_pushed]
    · cases h
  | spurious =>
    simp only [InternalThread.step] at h
    split at h
    · cases h; simp [appended, wake_pushed]
    · cases h
  | worker => simpa [appended] using workerStep_pushed h

/-- A thread of the pool, started or not. -/
def Sound : Bool → InternalThread α → Prop
  | true, x => x.Inv
  | false, x => InternalThread.Inv { x with active := true } ∧ x.pc = .loop

/-- Others only append to the queue of a thread and wake it. -/
def Outside : L2.Act α → Prop
  | .append _ | .notify => True
  | .spurious | .worker => False

theorem Sound.step {b : Bool} (h : Sound b x) (hs : InternalThread.step spurious x l = some x')
    (hb : b = true ∨ Outside l) : Sound b x' := by
  cases b with
  | true => exact InternalThread.inv_step spurious x l x' h hs
  | false =>
    obtain ⟨hi, hp⟩ := h
    cases l with
    | append package =>
      simp only [InternalThread.step, Option.some.injEq] at hs
      subst hs
      exact ⟨InternalThread.inv_step spurious _ (.append package) _ hi rfl, hp⟩
    | notify =>
      have hw : x.wake = x := by
        rcases InternalThread.wake_cases x with ⟨hb, -⟩ | ⟨-, he⟩
        · rw [hp] at hb; cases hb
        · exact he
      simp only [InternalThread.step, hw] at hs
      split at hs
      · cases hs
        exact ⟨⟨hi.fifo, hi.ran, hi.drained, hi.stopped, hi.exited⟩, hp⟩
      · cases hs
    | spurious => exact absurd hb (by simp [Outside])
    | worker => exact absurd hb (by simp [Outside])

theorem sound_new : Sound false (InternalThread.new : InternalThread α) :=
  ⟨InternalThread.inv_start, rfl⟩

theorem Sound.start (h : Sound false x) : Sound true { x with active := true } := h.1

/-- Where the packages given to a thread are. -/
theorem Sound.pushed {b : Bool} (h : Sound b x) :
    x.pushed = x.ran ++ x.inHand ++ x.msgQueue.msgProcList ++ x.msgQueue.msgWaitList := by
  have hi : ∃ a, InternalThread.Inv { x with active := a } := by
    cases b with
    | true => exact ⟨x.active, h⟩
    | false => exact ⟨true, h.1⟩
  obtain ⟨a, hi⟩ := hi
  rw [← show _ = x.pushed from hi.fifo, show x.taken = x.ran ++ x.inHand from hi.ran]
  simp [MessageQueue.contents]

end Thread

/-! ## The books of the pool -/

/-- The threads are all there, and each has what the log says. -/
structure Inv (threadsCount : Nat) (s : PoolThread α) : Prop where
  threads : s.threads.Perm (List.range threadsCount)
  sound : ∀ t, Sound (s.started t) (s.internal t)
  dealt : ∀ t, scenes (s.internal t).pushed = dealt s.scheduled t
  places : ∀ e ∈ s.scheduled, e.1 < threadsCount

section Books

variable {threadsCount : Nat} {spurious : Bool} {s s' : PoolThread α}

theorem act_eq_some {t : Nat} {l : L2.Act α} (h : s.act spurious t l = some s') :
    ∃ x, InternalThread.step spurious (s.internal t) l = some x ∧
      s' = { s with
        internal := Function.update s.internal t x, lock := s.disturb (x.load == s.load t) } := by
  obtain ⟨x, hx, he⟩ := Option.map_eq_some_iff.mp h
  exact ⟨x, hx, he.symm⟩

theorem inv_new (threadsCount : Nat) : Inv threadsCount (new threadsCount : PoolThread α) :=
  ⟨List.Perm.refl _, fun _ => sound_new, fun _ => rfl, by simp [new]⟩

theorem Inv.mem_lt (h : Inv threadsCount s) {t : Nat} (ht : t ∈ s.threads) : t < threadsCount :=
  List.mem_range.mp (h.threads.mem_iff.mp ht)

/-- A step on the queue of `t`, with what is logged for it. -/
theorem Inv.act {t : Nat} {l : L2.Act α} (h : Inv threadsCount s)
    (hs : s.act spurious t l = some s')
    (hb : s.started t = true ∨ Outside l) (log : List (Nat × α)) (hlog : ∀ e ∈ log,
      e.1 < threadsCount)
    (hself : PoolThread.dealt log t = scenes (appended l))
    (hother : ∀ u, u ≠ t → PoolThread.dealt log u = []) :
    Inv threadsCount { s' with scheduled := s.scheduled ++ log } := by
  obtain ⟨x, hx, rfl⟩ := act_eq_some hs
  refine ⟨h.threads, fun u => ?_, fun u => ?_, fun e he => ?_⟩
  · by_cases hu : u = t
    · subst hu
      simpa using (h.sound u).step hx hb
    · simpa [Function.update_of_ne hu] using h.sound u
  · by_cases hu : u = t
    · subst hu
      simp [step_pushed hx, h.dealt, hself]
    · simp [Function.update_of_ne hu, h.dealt, hother u hu]
  · rcases List.mem_append.mp he with he | he
    · exact h.places e he
    · exact hlog e he

/-- A step on a queue that nothing is logged for. -/
theorem Inv.act_silent {t : Nat} {l : L2.Act α} (h : Inv threadsCount s)
    (hs : s.act spurious t l = some s') (hb : s.started t = true ∨ Outside l)
    (hl : scenes (appended l) = []) : Inv threadsCount s' := by
  have ha := h.act hs hb [] (by simp) (by rw [hl]; rfl) (by simp)
  obtain ⟨x, -, rfl⟩ := act_eq_some hs
  simpa using ha

/-- The lock, the owner and who was joined are not in the books. -/
theorem Inv.congr (h : Inv threadsCount s) (ht : s'.threads = s.threads)
    (hi : s'.internal = s.internal) (hst : s'.started = s.started)
    (hl : s'.scheduled = s.scheduled) : Inv threadsCount s' :=
  ⟨ht ▸ h.threads, by rw [hst, hi]; exact h.sound, by rw [hi, hl]; exact h.dealt,
    by rw [hl]; exact h.places⟩

theorem inv_schedule (h : Inv threadsCount s) {package : α} (hs : s.schedule package = some s') :
    Inv threadsCount s' := by
  unfold schedule at hs
  split at hs
  · rename_i t rest _ ht
    obtain ⟨s₁, ha, rfl⟩ := Option.map_eq_some_iff.mp hs
    have hlt : t < threadsCount := h.mem_lt (by rw [ht]; exact List.mem_cons_self)
    refine (h.act ha (.inr trivial) [(t, package)] (by simpa using hlt) (dealt_self t package)
      fun u hu => dealt_other hu package).congr rfl rfl rfl ?_
    obtain ⟨x, -, rfl⟩ := act_eq_some ha
    rfl
  · cases hs

theorem inv_notify (h : Inv threadsCount s) (hs : s.notify = some s') : Inv threadsCount s' := by
  unfold notify at hs
  split at hs
  · obtain ⟨s₁, ha, rfl⟩ := Option.map_eq_some_iff.mp hs
    exact (h.act_silent ha (.inr trivial) rfl).congr rfl rfl rfl rfl
  · cases hs

theorem inv_makeHeap (h : Inv threadsCount s) {threads : List Nat}
    (hs : s.makeHeap threads = some s') : Inv threadsCount s' := by
  unfold makeHeap at hs
  split at hs
  · split at hs
    · rename_i hp
      cases hs
      exact ⟨hp.1.trans h.threads, h.sound, h.dealt, h.places⟩
    · cases hs
  · cases hs

/-- What a read of `threads_[idx]` leads to. -/
theorem read_cases {idx : Nat} {done : Option (PoolThread α)} {f : Nat → Option (PoolThread α)}
    (hs : s.read idx done f = some s') :
    (s.threads.length ≤ idx ∧ done = some s') ∨
      (s.racing = true ∧ s' = { s with owner := .undefined }) ∨
      (s.racing = false ∧ ∃ t, s.threads[idx]? = some t ∧ f t = some s') := by
  unfold read at hs
  split at hs
  · rename_i hn
    exact .inl ⟨by simpa using hn, hs⟩
  · rename_i t ht
    split at hs
    · rename_i hr
      cases hs
      exact .inr (.inl ⟨hr, rfl⟩)
    · rename_i hr
      exact .inr (.inr ⟨by simpa using hr, t, ht, hs⟩)

theorem inv_startThread (h : Inv threadsCount s) (idx t : Nat) :
    Inv threadsCount (s.startThread idx t) := by
  unfold startThread
  split
  · exact h.congr rfl rfl rfl rfl
  · rename_i hn
    have hn : s.started t = false := by simpa using hn
    refine ⟨h.threads, fun u => ?_, fun u => ?_, h.places⟩
    · by_cases hu : u = t
      · subst hu
        have hb := h.sound u
        rw [hn] at hb
        simpa using hb.start
      · simpa [Function.update_of_ne hu] using h.sound u
    · rw [← h.dealt u]
      by_cases hu : u = t
      · subst hu; simp
      · simp [Function.update_of_ne hu]

theorem inv_ownerStep (h : Inv threadsCount s) (hs : s.ownerStep = some s') :
    Inv threadsCount s' := by
  unfold ownerStep at hs
  cases ho : s.owner
  all_goals simp only [ho, reduceCtorEq] at hs
  case starting idx =>
    rcases read_cases hs with ⟨-, hd⟩ | ⟨-, rfl⟩ | ⟨-, t, -, ht⟩
    · cases hd; exact h.congr rfl rfl rfl rfl
    · exact h.congr rfl rfl rfl rfl
    · cases ht; exact inv_startThread h idx t
  case running => cases hs; exact h.congr rfl rfl rfl rfl
  case stopping idx =>
    rcases read_cases hs with ⟨-, hd⟩ | ⟨-, rfl⟩ | ⟨-, t, -, ht⟩
    · cases hd; exact h.congr rfl rfl rfl rfl
    · exact h.congr rfl rfl rfl rfl
    · obtain ⟨s₁, ha, rfl⟩ := Option.map_eq_some_iff.mp ht
      exact (h.act_silent ha (.inr trivial) rfl).congr rfl rfl rfl rfl
  case notifying idx t =>
    obtain ⟨s₁, ha, rfl⟩ := Option.map_eq_some_iff.mp hs
    exact (h.act_silent ha (.inr trivial) rfl).congr rfl rfl rfl rfl
  case joining idx =>
    rcases read_cases hs with ⟨-, hd⟩ | ⟨-, rfl⟩ | ⟨-, t, -, ht⟩
    · cases hd
    · exact h.congr rfl rfl rfl rfl
    · split at ht
      · cases ht; exact h.congr rfl rfl rfl rfl
      · cases ht; exact h.congr rfl rfl rfl rfl
  case waiting idx t =>
    split at hs
    · cases hs; exact h.congr rfl rfl rfl rfl
    · cases hs

theorem inv_step (h : Inv threadsCount s) {l : Act α} (hs : s.step spurious l = some s') :
    Inv threadsCount s' := by
  cases l with
  | schedule package => exact inv_schedule h hs
  | notify => exact inv_notify h hs
  | makeHeap threads => exact inv_makeHeap h hs
  | worker t =>
    simp only [step] at hs
    split at hs
    · rename_i hb
      exact h.act_silent hs (.inl hb) rfl
    · cases hs
  | spurious t =>
    simp only [step] at hs
    split at hs
    · rename_i hb
      exact h.act_silent hs (.inl hb) rfl
    · cases hs
  | owner => exact inv_ownerStep h hs

end Books

theorem inv_inductive (threadsCount : Nat) (spurious : Bool) :
    (sys threadsCount spurious).Inductive (Inv (α := α) threadsCount) :=
  ⟨fun _ h0 => h0 ▸ inv_new threadsCount, fun _ _ _ h hs => inv_step h hs⟩

/-- **Each package is with one thread.** Whatever order `make_heap` leaves and
whenever: the packages scheduled were given to threads of the pool, and what a
thread has run, has in hand, has spliced and has waiting is, in this order,
what it was given, in the order in which it was scheduled. -/
theorem dealt_in_order {threadsCount : Nat} {spurious : Bool} {s : PoolThread α}
    (hr : (sys threadsCount spurious).Reachable s) :
    (∀ e ∈ s.scheduled, e.1 < threadsCount) ∧ ∀ t,
      scenes ((s.internal t).ran ++ (s.internal t).inHand ++ (s.internal t).msgQueue.msgProcList ++
        (s.internal t).msgQueue.msgWaitList) = dealt s.scheduled t := by
  have h := (inv_inductive threadsCount spurious).reachable s hr
  refine ⟨h.places, fun t => ?_⟩
  rw [← (h.sound t).pushed]
  exact h.dealt t

/-- Two packages for two threads, the first of them run. -/
def twoScheduled : List (Act Nat) :=
  [.owner, .owner, .owner, .worker 0, .worker 0, .schedule 7, .notify, .makeHeap [1, 0],
    .schedule 8, .worker 0, .worker 0, .worker 0, .notify, .makeHeap [0, 1]]

theorem dealt_in_order_twoScheduled : ∃ s : PoolThread Nat, s.scheduled = [(0, 7), (1, 8)] ∧
    (∀ e ∈ s.scheduled, e.1 < 2) ∧ ∀ t,
      scenes ((s.internal t).ran ++ (s.internal t).inHand ++ (s.internal t).msgQueue.msgProcList ++
        (s.internal t).msgQueue.msgWaitList) = dealt s.scheduled t := by
  obtain ⟨s, hr, hp⟩ :=
    LTS.exists_reachable_of_exec (· = new 2) (fun s => s.step false) twoScheduled
    (fun s => s.scheduled == [(0, 7), (1, 8)]) rfl (by decide +kernel)
  have hr : (sys 2 false).Reachable s := hr
  exact ⟨s, by simpa using hp, dealt_in_order hr⟩

/-! ## Start and Stop -/

/-- `Schedule` is used only while the owner is between `Start` and `Stop`, and
the owner calls these only while no `Schedule` is under way. -/
def Apart (s : PoolThread α) : Act α → Prop
  | .owner => s.lock = .free
  | .schedule _ | .notify | .makeHeap _ => s.owner = .running
  | .worker _ | .spurious _ => True

/-- Everything the log has for `t` when `Stop` was called is in front of its first `Stop`. -/
def StopsAfter (before : List α) (pushed : List (Package α)) : Prop :=
  ∃ b, b ++ [.stop] <+: pushed ∧ .stop ∉ b ∧ before <+: scenes b

/-- How far the loops of `Start` and `Stop` have come. -/
structure Orderly (threadsCount : Nat) (s : PoolThread α) : Prop where
  alive : s.owner ≠ .terminated ∧ s.owner ≠ .undefined
  started : ∀ i t, s.threads[i]? = some t →
    (s.started t = true ↔ i < s.owner.startedUpTo threadsCount)
  joined : ∀ i t, s.threads[i]? = some t → (s.joined t = true ↔ i < s.owner.joinedUpTo threadsCount)
  exited : ∀ t, s.joined t = true → (s.internal t).pc = .exited
  place : ∀ idx t, s.owner = .waiting idx t → s.threads[idx]? = some t
  before : s.owner.Called → s.before <+: s.scheduled
  stops : ∀ t, .stop ∈ (s.internal t).pushed →
    s.owner.Called ∧ StopsAfter (dealt s.before t) (s.internal t).pushed

section Stop

variable {spurious : Bool} {x x' : InternalThread α} {l : L2.Act α}

/-- A thread that has left its loop does not come back. -/
theorem step_exited (h : InternalThread.step spurious x l = some x') (hx : x.pc = .exited) :
    x'.pc = .exited := by
  have hw : x.wake = x := by
    rcases InternalThread.wake_cases x with ⟨hb, -⟩ | ⟨-, he⟩
    · rw [hx] at hb; cases hb
    · exact he
  cases l with
  | append package =>
    simp only [InternalThread.step, Option.some.injEq] at h
    subst h; exact hx
  | notify =>
    simp only [InternalThread.step, hw] at h
    split at h
    · cases h; exact hx
    · cases h
  | spurious =>
    simp only [InternalThread.step, hw] at h
    split at h
    · cases h; exact hx
    · cases h
  | worker =>
    simp only [InternalThread.step, InternalThread.workerStep, hx, reduceCtorEq] at h

theorem StopsAfter.append {before : List α} {pushed : List (Package α)}
    (h : StopsAfter before pushed) (more : List (Package α)) : StopsAfter before
    (pushed ++ more) := by
  obtain ⟨b, hb, hn, hl⟩ := h
  exact ⟨b, hb.trans (List.prefix_append _ _), hn, hl⟩

/-- The `Stop` of the owner comes behind all there is. -/
theorem stopsAfter_push {before : List α} {pushed : List (Package α)}
    (h : .stop ∈ pushed → StopsAfter before pushed) (hb : before <+: scenes pushed) :
    StopsAfter before (pushed ++ [.stop]) := by
  by_cases hp : .stop ∈ pushed
  · exact (h hp).append _
  · exact ⟨pushed, List.prefix_refl _, hp, hb⟩

/-- Who has run a `Stop` has run all in front of the first one. -/
theorem StopsAfter.ran {before : List α} {pushed ran : List (Package α)}
    (h : StopsAfter before pushed) (hr : ran <+: pushed) (hs : .stop ∈ ran) :
    before <+: scenes ran := by
  obtain ⟨b, hb, hn, hl⟩ := h
  have hle : b ++ [.stop] <+: ran := by
    rcases List.prefix_or_prefix_of_prefix hb hr with hle | ⟨rest, hle⟩
    · exact hle
    · -- A shorter prefix would be one of `b`, which has no `Stop`.
      rcases List.eq_nil_or_concat rest with rfl | ⟨rest', a, rfl⟩
      · rw [List.append_nil] at hle
        exact hle ▸ List.prefix_refl _
      · rw [List.concat_eq_append, ← List.append_assoc] at hle
        have hle := (List.append_inj' hle rfl).1
        exact absurd (hle ▸ List.mem_append_left rest' hs) hn
  obtain ⟨rest, rfl⟩ := hle
  rw [scenes_append, scenes_append, scenes_stop, List.append_nil]
  exact hl.trans (List.prefix_append _ _)

end Stop

section Orderly

variable {threadsCount : Nat} {spurious : Bool} {s s' : PoolThread α}

theorem orderly_new (threadsCount : Nat) :
    Orderly threadsCount (new threadsCount : PoolThread α) where
  alive := by simp [new]
  started i t _ := by simp [new, Owner.startedUpTo]
  joined i t _ := by simp [new, Owner.joinedUpTo]
  exited t ht := by simp [new] at ht
  place idx t ht := by simp [new] at ht
  before hc := by simp [new, Owner.Called] at hc
  stops t ht := by simp [new, InternalThread.new, InternalThread.start] at ht

theorem Inv.length (h : Inv threadsCount s) : s.threads.length = threadsCount := by
  rw [h.threads.length_eq, List.length_range]

theorem Inv.place_unique (h : Inv threadsCount s) {i j t : Nat} (hi : s.threads[i]? = some t)
    (hj : s.threads[j]? = some t) : i = j := by
  obtain ⟨hlt, -⟩ := List.getElem?_eq_some_iff.mp hi
  have hn : s.threads.Nodup := h.threads.nodup_iff.mpr List.nodup_range
  exact (List.getElem?_inj hlt hn).mp (hi.trans hj.symm)

/-- A pool of one thread is not written by `make_heap`. -/
theorem Inv.not_racing (h : Inv threadsCount s) (hc : threadsCount ≤ 1 ∨ s.lock = .free) :
    s.racing = false := by
  unfold racing
  split
  · rename_i quiet hl
    rcases hc with hn | hf
    · have := h.length
      simp; omega
    · rw [hf] at hl; cases hl
  · rfl

theorem Inv.perm_eq (h : Inv threadsCount s) (hn : threadsCount ≤ 1) {threads : List Nat}
    (hp : threads.Perm s.threads) : threads = s.threads := by
  have hl := h.length
  match hs : s.threads with
  | [] => rw [hs] at hp; exact hp.eq_nil
  | [t] => rw [hs] at hp; exact hp.eq_singleton
  | a :: b :: rest => rw [hs] at hl; simp at hl; omega

/-- A step on a queue that is not the owner's `Stop`. -/
theorem Orderly.act (h : Orderly threadsCount s) {t : Nat} {l : L2.Act α}
    (hs : s.act spurious t l = some s') (hl : .stop ∉ appended l) : Orderly threadsCount s' := by
  obtain ⟨x, hx, rfl⟩ := act_eq_some hs
  refine ⟨h.alive, h.started, h.joined, fun u hu => ?_, h.place, h.before, fun u hu => ?_⟩
  · by_cases he : u = t
    · subst he
      simpa using step_exited hx (h.exited u hu)
    · simpa [Function.update_of_ne he] using h.exited u hu
  · by_cases he : u = t
    · subst he
      simp only [Function.update_self, step_pushed hx, List.mem_append, hl, or_false] at hu ⊢
      exact ⟨(h.stops u hu).1, (h.stops u hu).2.append _⟩
    · simp only [Function.update_of_ne he] at hu ⊢
      exact h.stops u hu

theorem orderly_schedule (h : Orderly threadsCount s) {package : α}
    (hs : s.schedule package = some s') : Orderly threadsCount s' := by
  unfold schedule at hs
  split at hs
  · obtain ⟨s₁, ha, rfl⟩ := Option.map_eq_some_iff.mp hs
    have ho := h.act ha (by simp [appended])
    obtain ⟨x, -, rfl⟩ := act_eq_some ha
    exact ⟨ho.alive, ho.started, ho.joined, ho.exited, ho.place,
      fun hc => (ho.before hc).trans (List.prefix_append _ _), ho.stops⟩
  · cases hs

theorem orderly_notify (h : Orderly threadsCount s) (hs : s.notify = some s') :
    Orderly threadsCount s' := by
  unfold notify at hs
  split at hs
  · obtain ⟨s₁, ha, rfl⟩ := Option.map_eq_some_iff.mp hs
    have ho := h.act ha (by simp [appended])
    exact ⟨ho.alive, ho.started, ho.joined, ho.exited, ho.place, ho.before, ho.stops⟩
  · cases hs

theorem orderly_makeHeap (hi : Inv threadsCount s) (h : Orderly threadsCount s)
    {threads : List Nat} (hs : s.makeHeap threads = some s')
    (hc : threadsCount ≤ 1 ∨ s.owner = .running) : Orderly threadsCount s' := by
  unfold makeHeap at hs
  split at hs
  · split at hs
    · rename_i hp
      cases hs
      rcases hc with hn | hr
      · rw [hi.perm_eq hn hp.1]
        exact ⟨h.alive, h.started, h.joined, h.exited, h.place, h.before, h.stops⟩
      · -- Between `Start` and `Stop` all threads are alike.
        have hall : ∀ i t, threads[i]? = some t → s.started t = true ∧ ¬ s.joined t = true ∧
        i < threadsCount := by
          intro i t ht
          obtain ⟨hlt, -⟩ := List.getElem?_eq_some_iff.mp ht
          rw [hp.1.length_eq, hi.length] at hlt
          obtain ⟨j, hj⟩ := List.mem_iff_getElem?.mp (hp.1.mem_iff.mp (List.mem_of_getElem? ht))
          have hj' := (List.getElem?_eq_some_iff.mp hj).1
          rw [hi.length] at hj'
          rw [h.started j t hj, h.joined j t hj, hr]
          exact ⟨hj', Nat.not_lt_zero _, hlt⟩
        refine ⟨h.alive, fun i t ht => ?_, fun i t ht => ?_, h.exited, ?_, h.before, h.stops⟩
        · obtain ⟨h1, -, h3⟩ := hall i t ht
          simp only [h1, hr, Owner.startedUpTo, h3]
        · obtain ⟨-, h2, -⟩ := hall i t ht
          simp [h2, hr, Owner.joinedUpTo]
        · intro idx t he
          dsimp only at he
          rw [hr] at he; cases he
    · cases hs
  · cases hs

/-- The owner moves to a phase that says the same of the threads. -/
theorem Orderly.phase (h : Orderly threadsCount s) {o : Owner}
    (ha : o ≠ .terminated ∧ o ≠ .undefined)
    (hst : ∀ i, i < s.threads.length → (i < s.owner.startedUpTo threadsCount ↔
      i < o.startedUpTo threadsCount))
    (hjo : ∀ i, i < s.threads.length → (i < s.owner.joinedUpTo threadsCount ↔
      i < o.joinedUpTo threadsCount))
    (hpl : ∀ idx t, o = .waiting idx t → s.threads[idx]? = some t)
    (hca : s.owner.Called ↔ o.Called) : Orderly threadsCount { s with owner := o } := by
  refine ⟨ha, fun i t ht => ?_, fun i t ht => ?_, h.exited, hpl, fun hc =>
    h.before (hca.mpr hc), fun t ht => ?_⟩
  · rw [h.started i t ht]
    exact hst i (List.getElem?_eq_some_iff.mp ht).1
  · rw [h.joined i t ht]
    exact hjo i (List.getElem?_eq_some_iff.mp ht).1
  · exact ⟨hca.mp (h.stops t ht).1, (h.stops t ht).2⟩

/-- The thread at the counter is started. -/
theorem orderly_startThread (hi : Inv threadsCount s) (h : Orderly threadsCount s) {idx t : Nat}
    (ho : s.owner = .starting idx) (ht : s.threads[idx]? = some t) :
    Orderly threadsCount (s.startThread idx t) := by
  have hnew : ¬ s.started t = true := by
    rw [h.started idx t ht, ho]
    exact Nat.lt_irrefl idx
  unfold startThread
  rw [if_neg hnew]
  refine ⟨by simp, fun i u hu => ?_, fun i u hu => ?_, fun u hu =>
    ?_, by simp, by simp [Owner.Called], fun u hu => ?_⟩
  · dsimp only at hu ⊢
    by_cases he : u = t
    · subst he
      rw [hi.place_unique hu ht]
      simp [Owner.startedUpTo]
    · rw [Function.update_of_ne he, h.started i u hu, ho]
      have hne : i ≠ idx := fun hie => he (Option.some.inj (by rw [← hu, ← ht, hie]))
      simp only [Owner.startedUpTo]
      omega
  · rw [h.joined i u hu, ho]
    simp [Owner.joinedUpTo]
  · have hx := h.exited u hu
    dsimp only
    rw [Function.update_apply]
    split
    · rename_i he
      subst he; exact hx
    · exact hx
  · have hu' : .stop ∈ (s.internal u).pushed := by
      dsimp only at hu
      rw [Function.update_apply] at hu
      split at hu
      · rename_i he
        subst he; exact hu
      · exact hu
    have hc := (h.stops u hu').1
    rw [ho] at hc
    exact hc.elim

/-- `Stop` pushes to the thread at the counter. -/
theorem orderly_stop (hi : Inv threadsCount s) (h : Orderly threadsCount s) {idx t : Nat}
    (ho : s.owner = .stopping idx) (ht : s.threads[idx]? = some t)
    (hs : s.act spurious t (.append .stop) = some s') :
    Orderly threadsCount { s' with owner := .notifying idx t } := by
  obtain ⟨x, hx, rfl⟩ := act_eq_some hs
  have hcalled : s.owner.Called := by rw [ho]; trivial
  refine ⟨by simp, fun i u hu => ?_, fun i u hu => ?_, fun u hu => ?_, by simp, fun _ =>
    h.before hcalled, fun u hu => ?_⟩
  · rw [h.started i u hu, ho]
    rfl
  · rw [h.joined i u hu, ho]
    rfl
  · by_cases he : u = t
    · subst he
      simpa using step_exited hx (h.exited u hu)
    · simpa [Function.update_of_ne he] using h.exited u hu
  · refine ⟨trivial, ?_⟩
    by_cases he : u = t
    · subst he
      have hb : dealt s.before u <+: scenes (s.internal u).pushed := by
        obtain ⟨rest, hrest⟩ := h.before hcalled
        rw [hi.dealt u, ← hrest, dealt_append]
        exact List.prefix_append _ _
      simp only [Function.update_self, step_pushed hx]
      exact stopsAfter_push (fun hp => (h.stops u hp).2) hb
    · simp only [Function.update_of_ne he] at hu ⊢
      exact (h.stops u hu).2

/-- The thread the owner waits for has left its loop. -/
theorem orderly_join (hi : Inv threadsCount s) (h : Orderly threadsCount s) {idx t : Nat}
    (ho : s.owner = .waiting idx t) (hx : (s.internal t).pc = .exited) :
    Orderly threadsCount
      { s with joined := Function.update s.joined t true, owner := .stopping (idx + 1) } := by
  have ht := h.place idx t ho
  refine ⟨by simp, fun i u hu => ?_, fun i u hu => ?_, fun u hu => ?_, by simp, fun _ =>
    h.before (by rw [ho]; trivial),
    fun u hu => ⟨trivial, (h.stops u hu).2⟩⟩
  · rw [h.started i u hu, ho]
    rfl
  · dsimp only at hu ⊢
    by_cases he : u = t
    · subst he
      rw [hi.place_unique hu ht]
      simp [Owner.joinedUpTo]
    · rw [Function.update_of_ne he, h.joined i u hu, ho]
      have hne : i ≠ idx := fun hie => he (Option.some.inj (by rw [← hu, ← ht, hie]))
      simp only [Owner.joinedUpTo]
      omega
  · dsimp only at hu
    rw [Function.update_apply] at hu
    split at hu
    · rename_i he
      subst he; exact hx
    · exact h.exited u hu

theorem orderly_ownerStep (hi : Inv threadsCount s) (h : Orderly threadsCount s)
    (hc : threadsCount ≤ 1 ∨ s.lock = .free) (hs : s.ownerStep = some s') :
    Orderly threadsCount s' := by
  have hrace := hi.not_racing hc
  have hlen := hi.length
  unfold ownerStep at hs
  cases ho : s.owner
  all_goals simp only [ho, reduceCtorEq] at hs
  case starting idx =>
    rcases read_cases hs with ⟨hle, hd⟩ | ⟨hr, -⟩ | ⟨-, t, ht, hf⟩
    · cases hd
      refine h.phase (by simp) (fun i hlt => ?_) (fun i _ => ?_) (by simp) ?_
      · rw [ho]
        simp only [Owner.startedUpTo]
        omega
      · rw [ho]; rfl
      · rw [ho]; rfl
    · rw [hrace] at hr; cases hr
    · cases hf
      exact orderly_startThread hi h ho ht
  case running =>
    cases hs
    have hst : ∀ t, .stop ∈ (s.internal t).pushed → False := fun t ht => by
      have hc := (h.stops t ht).1
      rw [ho] at hc
      exact hc
    refine ⟨by simp, fun i t ht => ?_, fun i t ht => ?_, h.exited, by simp, fun _ =>
      List.prefix_refl _,
      fun t ht => (hst t ht).elim⟩
    · rw [h.started i t ht, ho]; rfl
    · rw [h.joined i t ht, ho]; rfl
  case stopping idx =>
    rcases read_cases hs with ⟨hle, hd⟩ | ⟨hr, -⟩ | ⟨-, t, ht, hf⟩
    · cases hd
      refine h.phase (by simp) (fun i _ => ?_) (fun i hlt => ?_) (by simp) ?_
      · rw [ho]; rfl
      · rw [ho]
        simp only [Owner.joinedUpTo]
        omega
      · rw [ho]; rfl
    · rw [hrace] at hr; cases hr
    · obtain ⟨s₁, ha, rfl⟩ := Option.map_eq_some_iff.mp hf
      exact orderly_stop hi h ho ht ha
  case notifying idx t =>
    obtain ⟨s₁, ha, rfl⟩ := Option.map_eq_some_iff.mp hs
    have ho' : s₁.owner = .notifying idx t := by
      obtain ⟨x, -, rfl⟩ := act_eq_some ha
      exact ho
    refine (h.act ha (by simp [appended])).phase (by simp) (fun i _ =>
      ?_) (fun i _ => ?_) (by simp) ?_
    · rw [ho']; rfl
    · rw [ho']; rfl
    · rw [ho']; rfl
  case joining idx =>
    rcases read_cases hs with ⟨-, hd⟩ | ⟨hr, -⟩ | ⟨-, t, ht, hf⟩
    · cases hd
    · rw [hrace] at hr; cases hr
    · have hidx : idx < threadsCount := hlen ▸ (List.getElem?_eq_some_iff.mp ht).1
      have hstarted : s.started t = true := (h.started idx t ht).mpr (by rw [ho]; exact hidx)
      have hjoined : ¬ s.joined t = true := by
        rw [h.joined idx t ht, ho]
        exact Nat.lt_irrefl idx
      rw [if_pos (by simpa [hstarted] using hjoined)] at hf
      cases hf
      refine h.phase (by simp) (fun i _ => ?_) (fun i _ => ?_) (fun i u he => ?_) ?_
      · rw [ho]; rfl
      · rw [ho]; rfl
      · cases he; exact ht
      · rw [ho]; rfl
  case waiting idx t =>
    split at hs
    · rename_i hx
      cases hs
      exact orderly_join hi h ho (by simpa using hx)
    · cases hs

theorem orderly_step (hi : Inv threadsCount s) (h : Orderly threadsCount s) {l : Act α}
    (hc : threadsCount ≤ 1 ∨ s.Apart l) (hs : s.step spurious l = some s') :
    Orderly threadsCount s' := by
  cases l with
  | schedule package => exact orderly_schedule h hs
  | notify => exact orderly_notify h hs
  | makeHeap threads => exact orderly_makeHeap hi h hs hc
  | worker t =>
    simp only [step] at hs
    split at hs
    · exact h.act hs (by simp [appended])
    · cases hs
  | spurious t =>
    simp only [step] at hs
    split at hs
    · exact h.act hs (by simp [appended])
    · cases hs
  | owner => exact orderly_ownerStep hi h hc hs

end Orderly

/-- Between them the owner and the callers of `Schedule` are apart, or there is
one thread only. -/
def Calm (threadsCount : Nat) (m : Move (PoolThread α) (Act α)) : Prop :=
  threadsCount ≤ 1 ∨ m.src.Apart m.lbl

theorem orderly_inductive (threadsCount : Nat) (spurious : Bool) :
    ((sys threadsCount spurious).moving (Calm threadsCount)).Inductive fun s : PoolThread α =>
      Inv threadsCount s ∧ Orderly threadsCount s :=
  ⟨fun _ h0 => h0 ▸ ⟨inv_new threadsCount, orderly_new threadsCount⟩,
    fun _ _ _ h hs => ⟨inv_step h.1 hs.1, orderly_step h.1 h.2 hs.2 hs.1⟩⟩

/-- What `Stop` leaves behind: every thread is at its end and joined, and has
run all it was given before the call, in order. -/
def AllDone (threadsCount : Nat) (s : PoolThread α) : Prop :=
  s.before <+: s.scheduled ∧ ∀ t < threadsCount, s.joined t = true ∧ (s.internal t).pc = .exited ∧
    dealt s.before t <+: scenes (s.internal t).ran

/-- **Start and Stop.** If no `Schedule` is under way while the owner is at
`Start` or `Stop`, no thread is started or joined twice, and `Stop` returns
only when all that was scheduled before it was called has been run. -/
theorem stop_joins {threadsCount : Nat} {spurious : Bool} {ms : List (Move (PoolThread α) (Act α))}
    {s : PoolThread α} (hr : (sys threadsCount spurious).Run (new threadsCount) ms s)
    (hc : ∀ m ∈ ms, Calm threadsCount m) :
    s.owner ≠ .terminated ∧ s.owner ≠ .undefined ∧
      (s.owner = .stopped → AllDone threadsCount s) := by
  obtain ⟨hi, ho⟩ := (orderly_inductive threadsCount spurious).run (hr.moving hc)
    ⟨inv_new threadsCount, orderly_new threadsCount⟩
  refine ⟨ho.alive.1, ho.alive.2, fun hs => ⟨ho.before (by rw [hs]; trivial), fun t ht => ?_⟩⟩
  obtain ⟨i, hget⟩ := List.mem_iff_getElem?.mp (hi.threads.mem_iff.mpr (List.mem_range.mpr ht))
  have hlt : i < threadsCount := hi.length ▸ (List.getElem?_eq_some_iff.mp hget).1
  have hjoined : s.joined t = true := (ho.joined i t hget).mpr (by rw [hs]; exact hlt)
  have hstarted : s.started t = true := (ho.started i t hget).mpr (by rw [hs]; exact hlt)
  have hx := ho.exited t hjoined
  refine ⟨hjoined, hx, ?_⟩
  have hsound := hi.sound t
  rw [hstarted] at hsound
  have hstop : .stop ∈ (s.internal t).ran := hsound.stopped (hsound.exited hx)
  have hran : (s.internal t).ran <+: (s.internal t).pushed := by
    rw [Sound.pushed (b := true) hsound, List.append_assoc, List.append_assoc]
    exact List.prefix_append _ _
  exact (ho.stops t (hran.subset hstop)).2.ran hran hstop

instance (s : PoolThread α) (l : Act α) : Decidable (s.Apart l) :=
  match l with
  | .owner => inferInstanceAs (Decidable (_ = _))
  | .schedule _ => inferInstanceAs (Decidable (_ = _))
  | .notify => inferInstanceAs (Decidable (_ = _))
  | .makeHeap _ => inferInstanceAs (Decidable (_ = _))
  | .worker _ => .isTrue trivial
  | .spurious _ => .isTrue trivial

instance (threadsCount : Nat) (m : Move (PoolThread α) (Act α)) : Decidable (Calm threadsCount m) :=
  inferInstanceAs (Decidable (_ ∨ _))

/-- One package for each of two threads, and `Stop`. -/
def scheduledThenStopped : List (Act Nat) :=
  let runs t := [.worker t, .worker t, .worker t, .worker t, .worker t, .worker t,
    .worker t, .worker t]
  [.owner, .owner, .owner, .worker 0, .worker 0, .worker 1, .worker 1, .schedule 7, .notify,
    .makeHeap [1, 0], .schedule 8, .notify, .makeHeap [0, 1], .owner, .owner, .owner] ++ runs 0 ++
    [.owner, .owner, .owner, .owner] ++ runs 1 ++ [.owner, .owner, .owner]

theorem stop_joins_scheduledThenStopped : ∃ s : PoolThread Nat, s.owner = .stopped ∧
    s.before = [(0, 7), (1, 8)] ∧ AllDone 2 s := by
  have hall : (LTS.exec (fun s => s.step false) (new 2) scheduledThenStopped).map
      (fun s => decide (s.owner = .stopped) && s.before == [(0, 7), (1, 8)]) = some true := by
    decide +kernel
  obtain ⟨s, he, hp⟩ := Option.map_eq_some_iff.mp hall
  simp only [Bool.and_eq_true, decide_eq_true_eq, beq_iff_eq] at hp
  have hrun : (sys 2 false).Run (new 2) _ s := LTS.run_moves scheduledThenStopped he
  exact ⟨s, hp.1, hp.2, (stop_joins hrun (by decide +kernel)).2.2 hp.1⟩

/-- A `Schedule` between the joins of two threads puts the joined one in the
place of the other. -/
theorem schedule_during_stop : ∃ s : PoolThread Nat, (sys 2 false).Reachable s ∧
    s.owner = .terminated := by
  obtain ⟨s, hr, hp⟩ := LTS.exists_reachable_of_exec (· = new 2) (fun s => s.step false)
    ([.owner, .owner, .owner, .worker 0, .worker 0, .owner, .owner, .owner, .worker 0, .worker 0,
      .worker 0, .worker 0, .worker 0, .owner, .owner, .schedule 7, .notify, .makeHeap [1, 0],
      .owner, .owner, .owner] : List (Act Nat))
    (fun s => decide (s.owner = .terminated)) rfl (by decide +kernel)
  exact ⟨s, hr, of_decide_eq_true hp⟩

end PoolThread
end MonitorAgent.L2
