import MonitorAgent.L4Titles.Items
import MonitorAgent.L4Titles.PageRange

/-!
# Messages of an earlier watch

`WM_CONTINUE_TRAVERSE` names a title, not the watch it was sent for. `Begin`
and `End` reset the list's fields; what is in the pipe, or is sent when a room
asked for earlier cannot be linked, is handled for the watch that is active by
then.

A session is numbered by the calls of `Begin` before it; a message in the pipe
carries the session it was sent for, and so does the continuation that comes
of it. The UI thread begins, ends and pages, the scene worker adds rooms, and
the thread that reads the pipe handles one message at a time.

* `isolated_iff`: along a run no continuation of an earlier session changes
  the stack, the rooms or the page exactly if each finds an empty stack and
  the last page shown.
* `stale_continuation`: one that takes a room off the new session's stack.
-/
namespace MonitorAgent.L5.WatchSessions

open MonitorAgent.L3 MonitorAgent.L4 LTS

/-- `watch.pipe` is what a call sends, before it is in the pipe. -/
structure St where
  watch : Watch
  pipe : List (Message × Nat)
  session : Nat

/-- `send` are messages that nobody sends for a watch. -/
inductive Act
  | start (listing : Int → Option Document) (fuel : Nat) (node title : NodeRef)
  | finish
  | addRoom (room : NodeRef)
  | nextPage
  | prevPage
  | handle (listing : Int → Option Document) (fuel : Nat) (linked : Bool)
  | send (m : Message)
  | expand (listing : Int → Option Document) (node : NodeRef)
  | world (w : World)

namespace St

variable (x : St)

/-- What a call has sent goes into the pipe. -/
def after (s : Watch) (session : Nat) : St where
  watch := { s with pipe := [] }
  pipe := x.pipe ++ s.pipe.map fun m => (m, session)
  session := session

/-- `linked` is what `OnLinkRoom` comes to for a room asked for by a watch.
mirrors Monitor/Monitor/MonitorDlg.cpp:448-494 and ScreenMgr.cpp:181-205 -/
def handle (listing : Int → Option Document) (fuel : Nat) (linked : Bool) : Option St :=
  match x.pipe with
  | [] => none
  | (.continueTraverse _, _) :: rest =>
    (x.watch.onTraverse listing fuel).map fun s => ({ x with pipe := rest } : St).after s x.session
  | (.expandedRoom (some title) _, session) :: rest =>
    some { x with pipe := if linked then rest else rest ++ [(.continueTraverse title, session)] }
  | _ :: rest => some { x with pipe := rest }

def step : Act → Option St
  | .start listing fuel node title =>
    if node < x.watch.t.nextNode then
      (x.watch.start listing fuel node title).map fun s => x.after s (x.session + 1)
    else none
  | .finish => some (x.after x.watch.finish x.session)
  | .addRoom room => some (x.after (x.watch.addRoom room) x.session)
  | .nextPage => some (x.after x.watch.nextPage x.session)
  | .prevPage => some (x.after x.watch.prevPage x.session)
  | .handle listing fuel linked => x.handle listing fuel linked
  | .send m =>
    match m with
    | .continueTraverse _ | .expandedRoom (some _) _ => none
    | m => some { x with pipe := x.pipe ++ [(m, x.session)] }
  | .expand listing node =>
    if node < x.watch.t.nextNode ∧ (x.watch.t.nodes node).nodeType = .titleNode then
      some { x with watch := { x.watch with t := x.watch.t.onItemExpanded listing node } }
    else none
  | .world w => some { x with watch := { x.watch with t := { x.watch.t with w := w } } }

/-- Nodes without children, no watch, nothing sent. -/
structure Launched : Prop where
  nodes : ∀ n id, (x.watch.t.nodes n).nodes.find? id = none
  nodesOrder : ∀ n, (x.watch.t.nodes n).nodesOrder = []
  parentItem : ∀ n, (x.watch.t.nodes n).parentItem = none
  list : x.watch.list = ⟨none, none, false, 0, [], []⟩
  pipe : x.pipe = []

/-- A `WM_CONTINUE_TRAVERSE` of an earlier session is handled. -/
def Stale : Act → Prop
  | .handle _ _ _ =>
    match x.pipe with
    | (.continueTraverse _, session) :: _ => session < x.session
    | _ => False
  | _ => False

/-- Nothing is left to traverse, and the page shown is the last. -/
def Quiet : Prop :=
  x.watch.list.traverseStack = [] ∧
  (x.watch.list.watching = true → x.watch.list.page = x.watch.pageCount)

/-- The fields of the session. -/
def fields : List NodeRef × List NodeRef × Nat :=
  (x.watch.list.traverseStack, x.watch.list.rooms, x.watch.list.page)

end St

def sys : LTS St Act := .ofFn St.Launched St.step

/-! ## One continuation -/

/-- Where items hang, and the nodes on the stack are apart. -/
structure Inv (x : St) : Prop where
  hung : Hung x.watch.t
  stack : OnStack x.watch.t x.watch.list.traverseStack

theorem continuation_iff {s s' : Watch} {listing : Int → Option Document} {fuel : Nat}
    (ht : Hung s.t) (hs : OnStack s.t s.list.traverseStack)
    (h : s.onTraverse listing fuel = some s') :
    (s'.list.traverseStack = s.list.traverseStack ∧ s'.list.rooms = s.list.rooms ∧
      s'.list.page = s.list.page) ↔
      s.list.traverseStack = [] ∧ (s.list.watching = true → s.list.page = s.pageCount) := by
  by_cases hempty : s.list.traverseStack = []
  · cases fuel with
    | zero => cases h
    | succ fuel =>
      rw [Watch.onTraverse, hempty] at h
      cases h
      obtain ⟨-, -, hstack⟩ := s.nextPage_rest
      obtain ⟨hrooms, hpage⟩ := s.nextPage_fields
      rw [hrooms, hpage, ← s.page_stays_iff]
      constructor
      · rintro ⟨_, _, hp⟩
        exact ⟨hempty, fun hw => by rwa [if_pos hw] at hp⟩
      · rintro ⟨_, hp⟩
        refine ⟨hstack, rfl, ?_⟩
        split
        · exact hp ‹_›
        · rfl
  · exact iff_of_false (fun hc => Watch.onTraverse_stack_ne h ht hs hempty hc.1)
      fun hc => hempty hc.1

/-! ## Runs -/

theorem Inv.launched {x : St} (h : x.Launched) : Inv x := by
  have hn : ∀ n id r, (x.watch.t.nodes n).nodes.find? id ≠ some r :=
    fun n id r hf => by rw [h.nodes] at hf; cases hf
  have hp : ∀ r d, (x.watch.t.nodes r).parentItem ≠ some d :=
    fun r d hf => by rw [h.parentItem] at hf; cases hf
  refine ⟨⟨⟨fun n id r hf => absurd hf (hn n id r), fun n id r hf => absurd hf (hn n id r),
    fun n id r hf => absurd hf (hn n id r), fun n id r _ _ hf => absurd hf (hn n id r),
    fun r id _ => h.nodes r id,
    fun n id r hf => absurd hf (hn n id r)⟩, fun r d hf => absurd hf (hp r d), fun n r hr =>
      ?_, fun n => ?_⟩, ?_⟩
  · rw [h.nodesOrder] at hr; cases hr
  · rw [h.nodesOrder]; exact .nil
  · rw [h.list]; exact ⟨(fun _ h => nomatch h), .nil⟩

namespace Inv

variable {x : St} (h : Inv x)
include h

/-- What keeps the tree and the stack. -/
theorem of_same {y : St} (ht : y.watch.t = x.watch.t)
    (hs : y.watch.list.traverseStack = x.watch.list.traverseStack) : Inv y :=
  ⟨ht ▸ h.hung, by rw [ht, hs]; exact h.stack⟩

theorem onTraverse {listing : Int → Option Document} {fuel : Nat} {s' : Watch}
    (hst : x.watch.onTraverse listing fuel = some s') {y : St} (ht : y.watch.t = s'.t)
    (hs : y.watch.list.traverseStack = s'.list.traverseStack) : Inv y := by
  obtain ⟨hR, hstack, -⟩ := Watch.onTraverse_stack hst h.hung h.stack
  exact ⟨ht ▸ hR.hung, by rw [ht, hs]; exact hstack⟩

/-- `Begin` starts from the node alone. -/
theorem start {listing : Int → Option Document} {fuel : Nat} {node title : NodeRef}
    (hn : node < x.watch.t.nextNode)
    {s' : Watch} (hst : x.watch.start listing fuel node title = some s') {y : St}
    (ht : y.watch.t = s'.t) (hs : y.watch.list.traverseStack = s'.list.traverseStack) : Inv y := by
  rw [Watch.start_eq] at hst
  have hstack : OnStack ((x.watch.opened node title).push node).t
    ((x.watch.opened node title).push node).list.traverseStack :=
    ⟨fun m hm => List.mem_singleton.mp hm ▸ hn, List.pairwise_singleton _ _⟩
  obtain ⟨hR, hstack', -⟩ := Watch.onTraverse_stack hst h.hung hstack
  exact ⟨ht ▸ hR.hung, by rw [ht, hs]; exact hstack'⟩

theorem step {a : Act} {y : St} (hst : x.step a = some y) : Inv y := by
  cases a
  case start listing fuel node title =>
    simp only [St.step] at hst
    split at hst
    · obtain ⟨s', hs', rfl⟩ := Option.map_eq_some_iff.mp hst
      exact h.start ‹_› hs' rfl rfl
    · cases hst
  case finish =>
    cases hst
    exact ⟨h.hung, (fun _ h => nomatch h), .nil⟩
  case addRoom room =>
    cases hst
    obtain ⟨ht, -, hs⟩ := x.watch.addRoom_rest room
    exact h.of_same ht hs
  case nextPage =>
    cases hst
    obtain ⟨ht, -, hs⟩ := x.watch.nextPage_rest
    exact h.of_same ht hs
  case prevPage =>
    cases hst
    obtain ⟨ht, -, hs⟩ := x.watch.prevPage_rest
    exact h.of_same ht hs
  case handle listing fuel linked =>
    simp only [St.step, St.handle] at hst
    split at hst
    · cases hst
    · obtain ⟨s', hs', rfl⟩ := Option.map_eq_some_iff.mp hst
      exact h.onTraverse hs' rfl rfl
    · cases hst
      exact h.of_same rfl rfl
    · cases hst
      exact h.of_same rfl rfl
  case send m =>
    simp only [St.step] at hst
    split at hst
    · cases hst
    · cases hst
    · cases hst
      exact h.of_same rfl rfl
  case expand listing node =>
    simp only [St.step] at hst
    split at hst
    · rename_i hg
      cases hst
      have hR := h.hung.onItemExpanded hg.1 hg.2 listing
      exact ⟨hR.hung, hR.onStack h.hung h.stack⟩
    · cases hst
  case world w =>
    cases hst
    have hR : Rehangs x.watch.t { x.watch.t with w := w } :=
      ⟨h.hung.setWall w, Nat.le_refl _, fun _ _ => ⟨rfl, rfl⟩⟩
    exact ⟨hR.hung, hR.onStack h.hung h.stack⟩

end Inv

theorem sys_inductive : sys.Inductive Inv where
  init _ h0 := .launched h0
  step _ _ _ h hst := h.step hst

/-- A stale continuation is a call of `OnTraverse`. -/
theorem stale_iff {x y : St} {a : Act} (h : Inv x) (hst : x.step a = some y) (ha : x.Stale a) :
    y.fields = x.fields ↔ x.Quiet := by
  cases a
  case handle listing fuel linked =>
    simp only [St.Stale] at ha
    split at ha
    · rename_i hp
      simp only [St.step, St.handle, hp] at hst
      obtain ⟨s', hs', rfl⟩ := Option.map_eq_some_iff.mp hst
      rw [St.Quiet, ← continuation_iff h.hung h.stack hs']
      exact ⟨fun he => ⟨congrArg Prod.fst he, congrArg (·.2.1) he, congrArg (·.2.2) he⟩,
        fun ⟨h1, h2, h3⟩ =>
        Prod.ext h1 (Prod.ext h2 h3)⟩
    · exact ha.elim
  all_goals exact ha.elim

/-- **Watch sessions.** Along a run, the continuations of earlier sessions
leave the stack, the rooms and the page alone iff each of them is handled when
the stack is empty and no watch is active or its last page is shown. -/
theorem isolated_iff {x₀ x : St} {ms : List (Move St Act)} (h0 : x₀.Launched)
    (hr : sys.Run x₀ ms x) :
    (∀ m ∈ ms, m.src.Stale m.lbl → m.dst.fields = m.src.fields) ↔ ∀ m ∈ ms,
      m.src.Stale m.lbl → m.src.Quiet := by
  have hmoves := sys_inductive.moves hr (.launched h0)
  constructor
  · intro h m hm hs
    obtain ⟨hi, hst⟩ := hmoves m hm
    exact (stale_iff hi hst hs).mp (h m hm hs)
  · intro h m hm hs
    obtain ⟨hi, hst⟩ := hmoves m hm
    exact (stale_iff hi hst hs).mpr (h m hm hs)

/-! ## Runs of two sessions -/

instance (x : St) (a : Act) : Decidable (x.Stale a) := by
  unfold St.Stale
  split
  · split <;> infer_instance
  · infer_instance

instance (x : St) : Decidable x.Quiet := inferInstanceAs (Decidable (_ ∧ _))

/-- One node, and nothing read yet. -/
def St.launched : St where
  watch := {
    t := {
      nodes := fun n => ⟨.titleNode, n, "", 0, 0, .empty, [], none, n == 0⟩
      nextNode := 1, memory := fun _ => none, w := .launched }
    list := ⟨none, none, false, 0, [], []⟩, pipe := [], calls := [] }
  pipe := []
  session := 0

theorem St.launched_launched : St.launched.Launched :=
  ⟨fun _ _ => rfl, fun _ => rfl, fun _ => rfl, rfl, rfl⟩

def rooms (ids : List Int) (id : Int) : Option Document :=
  if id = 0 then some ⟨.dynamicNode, [], ids.map fun id => ⟨id, "", id.toNat, 0⟩⟩ else none

/-- A watch of a node with these rooms is replaced while the first room, which
cannot be linked, is still asked for. -/
def replaced (ids : List Int) : List Act :=
  [.start (rooms ids) 9 0 8, .handle (rooms ids) 9 false, .handle (rooms ids) 9 false,
    .start (rooms ids) 9 0 8,
    .handle (rooms ids) 9 false]

/-- With one room nothing is left to traverse when the old continuation comes. -/
theorem isolated_iff_oneRoom :
    (∀ m ∈ moves St.step .launched (replaced [5]), m.src.Stale m.lbl → m.src.Quiet) ∧
    (∃ m ∈ moves St.step .launched (replaced [5]), m.src.Stale m.lbl) ∧
    ∀ m ∈ moves St.step .launched (replaced [5]),
      m.src.Stale m.lbl → m.dst.fields = m.src.fields := by
  have hc : ∀ m ∈ moves St.step .launched (replaced [5]), m.src.Stale m.lbl → m.src.Quiet := by
    decide +kernel
  exact ⟨hc, by decide +kernel,
    (isolated_iff St.launched_launched (run_of_exec (replaced [5]) (by decide +kernel))).mpr hc⟩

/-- With two, the old continuation takes the second room off the new stack. -/
theorem stale_continuation :
    ∃ x y, sys.Reachable x ∧ sys.step x (.handle (rooms [5, 6]) 9 false) y ∧
    x.Stale (.handle (rooms [5, 6]) 9 false) ∧ x.fields = ([2], [], 0) ∧
      y.fields = ([], [], 0) := by
  obtain ⟨x, hr, hp⟩ := exists_reachable_of_exec St.Launched St.step ((replaced [5, 6]).take 4)
    (fun x => decide (x.Stale (.handle (rooms [5, 6]) 9 false)) && x.fields == ([2], [], 0) &&
      (x.step (.handle (rooms [5, 6]) 9 false)).map St.fields == some ([], [], 0))
    St.launched_launched (by decide +kernel)
  simp only [Bool.and_eq_true, beq_iff_eq, decide_eq_true_eq] at hp
  obtain ⟨⟨hs, hx⟩, hy⟩ := hp
  obtain ⟨y, hst, hy⟩ := Option.map_eq_some_iff.mp hy
  exact ⟨x, y, hr, hst, hs, hx, hy⟩

end MonitorAgent.L5.WatchSessions
