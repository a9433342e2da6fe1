import MonitorAgent.Core.LTS

/-!
# The message queue and its worker thread

`MessageQueue<T>` (Monitor/Monitor/MessageQueue.hpp) keeps two lists:
`Push` appends to the wait list, `Wait` blocks on the condition variable and
then splices the wait list onto the proc list, `Pop` takes from the proc
list. `InternalThread<T>::Start` (Monitor/Monitor/PoolThread.hpp:31-64) is
the single consumer; `Stop` is itself a package.

Each lock-protected section is one step. A `Push` is two steps, the append
and, later, the `notify_one`; `notifies` counts the pushes in between. A
notify wakes the worker if it is blocked and has no effect otherwise. The
flag `spurious` of the system says whether the worker may also wake up by
itself. A `Pop` from the empty proc list returns a default-constructed
`std::function`, modelled by `none`; calling it ends in `crashed`.

Results:
* `MessageQueue.contents_push`, `contents_splice`, `contents_pop`: the two
  lists refine one FIFO list.
* `inv_step`, `inv_inductive`: the ledger of what was pushed, taken and run.
* `fifo`: nothing is lost, duplicated or reordered, and a worker that has
  left its loop has run everything pushed before the `Stop` that ended it.
-/
namespace MonitorAgent.L2

universe u

/-- mirrors Monitor/Monitor/MessageQueue.hpp:11-19,79-84 -/
structure MessageQueue (T : Type u) where
  msgWaitList : List T
  msgProcList : List T
deriving DecidableEq

namespace MessageQueue

variable {T : Type u}

def new : MessageQueue T := ⟨[], []⟩

/-- `Wait` after the condition variable.
mirrors Monitor/Monitor/MessageQueue.hpp:26-30 -/
def splice (q : MessageQueue T) : MessageQueue T :=
  if q.msgWaitList.length > 0 then ⟨[], q.msgProcList ++ q.msgWaitList⟩ else q

/-- `Push` up to the unlock. mirrors Monitor/Monitor/MessageQueue.hpp:35-37 -/
def push (q : MessageQueue T) (msg : T) : MessageQueue T :=
  { q with msgWaitList := q.msgWaitList ++ [msg] }

/-- mirrors Monitor/Monitor/MessageQueue.hpp:43-57 -/
def pop (q : MessageQueue T) : Option T × MessageQueue T :=
  match q.msgProcList with
  | [] => (none, q)
  | t :: ts => (some t, { q with msgProcList := ts })

/-- mirrors Monitor/Monitor/MessageQueue.hpp:59-66 -/
def empty (q : MessageQueue T) : Bool := q.msgProcList.length == 0

/-- The queue as its users see it: one list, oldest first. -/
def contents (q : MessageQueue T) : List T := q.msgProcList ++ q.msgWaitList

@[simp] theorem splice_wait (q : MessageQueue T) : q.splice.msgWaitList = [] := by
  unfold splice; split <;> simp_all

@[simp] theorem splice_proc (q : MessageQueue T) :
    q.splice.msgProcList = q.msgProcList ++ q.msgWaitList := by
  unfold splice; split <;> simp_all

@[simp] theorem empty_iff (q : MessageQueue T) : q.empty = true ↔ q.msgProcList = [] := by
  simp [empty]

theorem contents_push (q : MessageQueue T) (msg : T) :
    (q.push msg).contents = q.contents ++ [msg] := by
  simp [contents, push]

theorem contents_splice (q : MessageQueue T) : q.splice.contents = q.contents := by
  simp [contents]

/-- `Pop` takes the oldest element, if one has been spliced. -/
theorem contents_pop (q : MessageQueue T) : q.pop.1.toList ++ q.pop.2.contents = q.contents := by
  unfold pop contents; split <;> simp_all

end MessageQueue

/-! ## The worker -/

/-- A queued package: a scene, or the closure `Stop` pushes. -/
inductive Package (α : Type u)
  | scene (a : α)
  | stop
deriving DecidableEq

/-- Where the worker of `InternalThread::Start` stands. -/
inductive Pc (α : Type u)
  | loop
  | wait
  | blocked
  | splice
  | pop
  | run (package : Option (Package α))
  | test
  | exited
  | crashed
deriving DecidableEq

/-- mirrors Monitor/Monitor/PoolThread.hpp:78-81; `pushed`, `taken` and
`ran` log the packages in the order these things happened to them. -/
structure InternalThread (α : Type u) where
  msgQueue : MessageQueue (Package α)
  active : Bool
  pc : Pc α
  notifies : Nat
  pushed : List (Package α)
  taken : List (Package α)
  ran : List (Package α)
deriving DecidableEq

inductive Act (α : Type u)
  | append (package : Package α)
  | notify
  | spurious
  | worker
deriving DecidableEq

namespace InternalThread

variable {α : Type u}

/-- `Start`. mirrors Monitor/Monitor/PoolThread.hpp:33 -/
def start : InternalThread α := ⟨.new, true, .loop, 0, [], [], []⟩

/-- Calling a package. mirrors Monitor/Monitor/PoolThread.hpp:50,61 -/
def call (s : InternalThread α) : Option (Package α) → InternalThread α
  | none => { s with pc := .crashed }
  | some (.scene a) => { s with pc := .test, ran := s.ran ++ [.scene a] }
  | some .stop => { s with pc := .test, ran := s.ran ++ [.stop], active := false }

/-- One step of the worker. mirrors Monitor/Monitor/PoolThread.hpp:44-54 -/
def workerStep (s : InternalThread α) : Option (InternalThread α) :=
  match s.pc with
  | .loop => some { s with pc := if s.active then .wait else .exited }
  | .wait => some { s with pc := .blocked }
  | .blocked => none
  | .splice => some { s with pc := .pop, msgQueue := s.msgQueue.splice }
  | .pop => some { s with
      pc := .run s.msgQueue.pop.1, msgQueue := s.msgQueue.pop.2, taken :=
        s.taken ++ s.msgQueue.pop.1.toList }
  | .run package => some (s.call package)
  | .test => some { s with pc := if s.msgQueue.empty then .loop else .pop }
  | .exited => none
  | .crashed => none

def blocked (s : InternalThread α) : Bool :=
  match s.pc with
  | .blocked => true
  | _ => false

/-- The condition variable lets a blocked worker go on. -/
def wake (s : InternalThread α) : InternalThread α :=
  if s.blocked then { s with pc := .splice } else s

def step (spurious : Bool) (s : InternalThread α) : Act α → Option (InternalThread α)
  | .append package => some { s with
      msgQueue := s.msgQueue.push package, notifies := s.notifies + 1, pushed :=
        s.pushed ++ [package] }
  | .notify => if s.notifies > 0 then some { s.wake with notifies := s.notifies - 1 } else none
  | .spurious => if spurious && s.blocked then some s.wake else none
  | .worker => s.workerStep

/-- The runs of one queue and its worker. -/
def sys (spurious : Bool) : LTS (InternalThread α) (Act α) := .ofFn (· = start) (step spurious)

@[simp] theorem sys_step (spurious : Bool) (s : InternalThread α) (l : Act α)
    (s' : InternalThread α) :
    (sys spurious).step s l s' ↔ step spurious s l = some s' := Iff.rfl

@[simp] theorem blocked_iff (s : InternalThread α) : s.blocked = true ↔ s.pc = .blocked := by
  unfold blocked; split <;> simp_all

theorem wake_cases (s : InternalThread α) :
    (s.pc = .blocked ∧ s.wake = { s with pc := .splice }) ∨ (s.pc ≠ .blocked ∧ s.wake = s) := by
  unfold wake
  by_cases h : s.pc = .blocked
  · exact .inl ⟨h, if_pos (by simpa using h)⟩
  · exact .inr ⟨h, if_neg (by simpa using h)⟩

/-! ## The ledger -/

/-- The package the worker has popped and not called yet. -/
def inHand (s : InternalThread α) : List (Package α) :=
  match s.pc with
  | .run package => package.toList
  | _ => []

/-- From a `Wait` to the splice that ends it, and after the loop, the proc
list is used up. -/
def Drained : Pc α → Prop
  | .loop | .wait | .blocked | .splice | .exited => True
  | .pop | .run _ | .test | .crashed => False

structure Inv (s : InternalThread α) : Prop where
  fifo : s.taken ++ s.msgQueue.contents = s.pushed
  ran : s.taken = s.ran ++ s.inHand
  drained : Drained s.pc → s.msgQueue.msgProcList = []
  stopped : s.active = false → .stop ∈ s.ran
  exited : s.pc = .exited → s.active = false

theorem inv_start : Inv (start : InternalThread α) :=
  ⟨rfl, rfl, fun _ => rfl, (by simp [start]), (by simp [start])⟩

theorem inv_wake (s : InternalThread α) (h : Inv s) : Inv s.wake := by
  rcases wake_cases s with ⟨hp, he⟩ | ⟨-, he⟩ <;> rw [he]
  · refine ⟨h.fifo, ?_, fun _ => h.drained (by simp [hp, Drained]), h.stopped, by simp⟩
    simpa [inHand, hp] using h.ran
  · exact h

theorem inv_call (s : InternalThread α) (package : Option (Package α)) (h : Inv s)
    (hp : s.pc = .run package) : Inv (s.call package) := by
  have hr := h.ran
  simp only [inHand, hp] at hr
  match package with
  | none => exact ⟨h.fifo, by simpa [call, inHand] using hr, False.elim, h.stopped, by simp [call]⟩
  | some (.scene a) =>
    refine ⟨h.fifo, by simpa [call, inHand] using hr, False.elim, fun ha => ?_, by simp [call]⟩
    exact List.mem_append_left _ (h.stopped ha)
  | some .stop =>
    exact ⟨h.fifo, by simpa [call, inHand] using hr, False.elim, by simp [call], by simp [call]⟩

theorem inv_workerStep (s s' : InternalThread α) (h : Inv s) (hs : s.workerStep = some s') :
    Inv s' := by
  unfold workerStep at hs
  have hr := h.ran
  have hd := h.drained
  cases hp : s.pc
  all_goals simp only [hp, Option.some.injEq, reduceCtorEq] at hs; try subst hs
  all_goals simp only [inHand, hp, List.append_nil] at hr
  all_goals simp only [hp, Drained, true_imp_iff] at hd
  case loop =>
    refine ⟨h.fifo, ?_, fun _ => hd, h.stopped, fun he => ?_⟩
    · cases s.active <;> simp [inHand, hr]
    · by_contra ha
      simp [ha] at he
  case wait => exact ⟨h.fifo, by simpa [inHand] using hr, fun _ => hd, h.stopped, by simp⟩
  case splice =>
    refine ⟨?_, by simpa [inHand] using hr, False.elim, h.stopped, by simp⟩
    rw [MessageQueue.contents_splice]; exact h.fifo
  case pop =>
    refine ⟨?_, by simp [inHand, hr], False.elim, h.stopped, by simp⟩
    dsimp only
    rw [List.append_assoc, MessageQueue.contents_pop]; exact h.fifo
  case run package => exact inv_call s package h hp
  case test =>
    refine ⟨h.fifo, ?_, fun hdr => ?_, h.stopped, fun he => ?_⟩
    · cases s.msgQueue.empty <;> simp [inHand, hr]
    · by_cases he : s.msgQueue.msgProcList = []
      · exact he
      · simp [he, Drained] at hdr
    · dsimp only at he; split at he <;> cases he

theorem inv_step (spurious : Bool) (s : InternalThread α) (l : Act α) (s' : InternalThread α)
    (h : Inv s) (hs : step spurious s l = some s') : Inv s' := by
  cases l with
  | append package =>
    simp only [step, Option.some.injEq] at hs; subst hs
    refine ⟨?_, h.ran, h.drained, h.stopped, h.exited⟩
    rw [MessageQueue.contents_push, ← List.append_assoc, h.fifo]
  | notify =>
    simp only [step] at hs
    split at hs
    · cases hs
      obtain ⟨h1, h2, h3, h4, h5⟩ := inv_wake s h
      exact ⟨h1, h2, h3, h4, h5⟩
    · cases hs
  | spurious =>
    simp only [step] at hs
    split at hs
    · cases hs; exact inv_wake s h
    · cases hs
  | worker => exact inv_workerStep s s' h hs

theorem inv_inductive (spurious : Bool) : (sys spurious).Inductive (Inv (α := α)) :=
  ⟨fun _ h0 => h0 ▸ inv_start, inv_step spurious⟩

/-- **FIFO.** In every reachable state what was taken, then the proc list,
then the wait list, is what was pushed, in push order. A worker that has left
its loop has run a `Stop`, and what it ran, in order and each package once,
is all that was pushed but for what is still in the wait list: so everything
pushed before that `Stop`. -/
theorem fifo (spurious : Bool) (s : InternalThread α) (hr : (sys spurious).Reachable s) :
    s.taken ++ s.msgQueue.msgProcList ++ s.msgQueue.msgWaitList = s.pushed ∧
      (s.pc = .exited → ∃ before after, s.ran = before ++ .stop :: after ∧
        s.pushed = before ++ .stop :: after ++ s.msgQueue.msgWaitList) := by
  have h := (inv_inductive spurious).reachable s hr
  refine ⟨by rw [List.append_assoc]; exact h.fifo, fun he => ?_⟩
  obtain ⟨before, after, hb⟩ := List.append_of_mem (h.stopped (h.exited he))
  refine ⟨before, after, hb, ?_⟩
  have hd := h.drained (by simp [he, Drained])
  have hran := h.ran
  simp only [inHand, he, List.append_nil] at hran
  rw [← h.fifo, hran, hb, MessageQueue.contents, hd, List.nil_append]

/-- A scene and a `Stop`, pushed while the worker waits. -/
def sceneThenStop : List (Act Unit) :=
  [.worker, .worker, .append (.scene ()), .append .stop, .notify,
    .worker, .worker, .worker, .worker, .worker, .worker, .worker, .worker]

theorem fifo_sceneThenStop : ∃ s : InternalThread Unit, s.pc = .exited ∧
    ∃ before after, s.ran = before ++ .stop :: after ∧
      s.pushed = before ++ .stop :: after ++ s.msgQueue.msgWaitList := by
  obtain ⟨s, hr, hp⟩ := LTS.exists_reachable_of_exec (· = start) (step false) sceneThenStop
    (fun s => s.pc == .exited) rfl (by decide)
  have he : s.pc = .exited := by simpa using hp
  exact ⟨s, he, (fifo false s hr).2 he⟩

end InternalThread

end MonitorAgent.L2
