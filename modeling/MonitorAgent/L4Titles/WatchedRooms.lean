import MonitorAgent.Core.LTS
import MonitorAgent.L4Titles.WatchsList

/-!
# The rooms of a watch

`rooms_` compares rooms by `order_` alone (`order_cmp`), which orders the
children of one node, while the rooms of a watch come from many nodes.
`AddRoom` drops a room whose `order_` another one in the set has, and
`Node::Update` changes `order_` while a room is in the set.

* `watched_iff`: along a run, the set holds every accepted room once and in
  order exactly if no step does one of these things.
* `belongs_iff`: `AddRoom` takes the rooms below the watched item, and so not a
  room that is watched itself.
-/
namespace MonitorAgent.L4

open L3 LTS

/-- The guards of `AddRoom`. mirrors Monitor/Monitor/WatchsList.cpp:87-89 -/
def Watch.Accepts (s : Watch) (room : NodeRef) : Prop :=
  s.list.watching = true ∧ s.list.title ≠ none ∧ ∃ node ∈ s.list.node,
  s.t.belowWatchedNode room node = true

instance (s : Watch) (room : NodeRef) : Decidable (s.Accepts room) :=
  inferInstanceAs (Decidable (_ ∧ _ ∧ ∃ node ∈ s.list.node, s.t.belowWatchedNode room node = true))

namespace Watch

variable {s : Watch} {room : NodeRef}

theorem addRoom_accepts (h : s.Accepts room) : ∃ title, s.list.title = some title ∧
    s.addRoom room = { s.sendMessage (.continueTraverse title) with
      list := { s.list with rooms := OrderSet.insert s.t.orderOf room s.list.rooms } } := by
  obtain ⟨hw, ht, node, hn, hb⟩ := h
  obtain ⟨title, ht⟩ := Option.ne_none_iff_exists'.mp ht
  refine ⟨title, ht, ?_⟩
  unfold addRoom
  rw [ht, show s.list.node = some node from hn]
  exact if_pos ⟨hw, hb⟩

theorem addRoom_rejects (h : ¬ s.Accepts room) : s.addRoom room = s := by
  unfold addRoom
  split
  · rename_i title node ht hn
    exact if_neg fun hc => h ⟨hc.1, by rw [ht]; exact Option.some_ne_none _, node, hn, hc.2⟩
  · rfl

/-- The guards of `AddRoom` look above the room only. -/
theorem accepts_iff (h : Climbs s.t) {node title : NodeRef} (hw : s.list.watching = true)
    (hn : s.list.node = some node) (ht : s.list.title = some title) :
    s.Accepts room ↔ Below s.t node room := by
  rw [← belowWatchedNode_iff h]
  constructor
  · rintro ⟨-, -, node', hn', hb⟩
    rw [hn, Option.mem_some_iff] at hn'
    rwa [hn']
  · intro hb
    exact ⟨hw, by rw [ht]; exact Option.some_ne_none title, node, hn, hb⟩

/-- **The rooms of a watch.** In a tree whose parents come first, while `node`
is watched, `AddRoom` takes the watched item and what is below it, and nothing
else, iff the room is not the watched item itself. -/
theorem belongs_iff (h : Climbs s.t) {node title : NodeRef} (hw : s.list.watching = true)
    (hn : s.list.node = some node) (ht : s.list.title = some title) (room : NodeRef) :
    (s.Accepts room ↔ room = node ∨ Below s.t node room) ↔ room ≠ node := by
  rw [accepts_iff h hw hn ht]
  constructor
  · rintro hiff rfl
    exact Nat.lt_irrefl _ (h.lt (hiff.mpr (.inl rfl)))
  · intro hne
    exact (or_iff_right hne).symm

end Watch

/-- A watch; `accepted` are the rooms whose `AddRoom` passed its guards. -/
structure Watched where
  watch : Watch
  accepted : List NodeRef

inductive WatchOp
  | addRoom (room : NodeRef)
  | update (node : NodeRef) (name : String) (order usercount : Nat)

namespace Watched

variable (x : Watched)

/-- `Begin` has set the fields. -/
def Begun : Prop :=
  x.accepted = [] ∧ ∃ (s : Watch) (node title : NodeRef), x.watch = s.opened node title

def step : WatchOp → Option Watched
  | .addRoom room =>
    some { watch := x.watch.addRoom room
           accepted := if x.watch.Accepts room then room :: x.accepted else x.accepted }
  | .update node name order usercount =>
    some { x with watch := { x.watch with t := x.watch.t.update node name order usercount } }

/-- The set holds the accepted rooms, each once, in order. -/
structure Exact : Prop where
  mem : ∀ r, r ∈ x.watch.list.rooms ↔ r ∈ x.accepted
  nodup : x.watch.list.rooms.Nodup
  ordered : OrderSet.Ordered x.watch.t.orderOf x.watch.list.rooms

/-- No other room in the set has the order of one accepted, and an update
leaves a room between its neighbours. -/
def Seats : WatchOp → Prop
  | .addRoom room => x.watch.Accepts room →
      room ∈ x.watch.list.rooms ∨ ∀ r ∈ x.watch.list.rooms,
      x.watch.t.orderOf r ≠ x.watch.t.orderOf room
  | .update node _ order _ => OrderSet.Fits x.watch.t.orderOf node order x.watch.list.rooms

end Watched

def watchedSys : LTS Watched WatchOp := .ofFn Watched.Begun Watched.step

namespace Watched

variable {x : Watched}

theorem Begun.exact (h : x.Begun) : x.Exact := by
  obtain ⟨ha, s, node, title, hw⟩ := h
  have hr : x.watch.list.rooms = [] := by rw [hw]; rfl
  exact ⟨fun r => by rw [hr, ha], by rw [hr]; exact .nil, by rw [hr]; exact .nil⟩

namespace Exact

variable (h : x.Exact)
include h

/-! ## Adding -/

/-- An accepted room changes the set only. -/
theorem addRoom {room : NodeRef}
    (hc : room ∈ x.watch.list.rooms ∨ ∀ r ∈ x.watch.list.rooms,
      x.watch.t.orderOf r ≠ x.watch.t.orderOf room)
    {y : Watched}
    (hrooms : y.watch.list.rooms = OrderSet.insert x.watch.t.orderOf room x.watch.list.rooms)
    (hkey : y.watch.t.orderOf = x.watch.t.orderOf) (hacc : y.accepted = room :: x.accepted) :
    y.Exact := by
  have hmem : ∀ r, r ∈ y.watch.list.rooms ↔ r = room ∨ r ∈ x.watch.list.rooms := fun r => by
    rcases hc with hin | hnew
    · -- the room itself has the key
      rw [hrooms, OrderSet.insert_of_taken h.ordered ⟨room, hin, rfl⟩]
      exact ⟨.inr, fun hr => hr.elim (fun he => he ▸ hin) id⟩
    · rw [hrooms, (OrderSet.insert_perm hnew).mem_iff, List.mem_cons]
  refine ⟨fun r => ?_, ?_, ?_⟩
  · rw [hmem, h.mem, hacc, List.mem_cons]
  · rcases hc with hin | hnew
    · rw [hrooms, OrderSet.insert_of_taken h.ordered ⟨room, hin, rfl⟩]
      exact h.nodup
    · rw [hrooms, (OrderSet.insert_perm hnew).nodup_iff, List.nodup_cons]
      exact ⟨fun hin => hnew room hin rfl, h.nodup⟩
  · rw [hrooms, hkey]
    exact OrderSet.ordered_insert h.ordered

/-- A room is dropped when another one has its order. -/
theorem dropped {room r : NodeRef} (hout : room ∉ x.watch.list.rooms) (hr : r ∈ x.watch.list.rooms)
    (hk : x.watch.t.orderOf r = x.watch.t.orderOf room) {y : Watched}
    (hrooms : y.watch.list.rooms = OrderSet.insert x.watch.t.orderOf room x.watch.list.rooms)
    (hacc : y.accepted = room :: x.accepted) : ¬ y.Exact := by
  intro hy
  have hin := (hy.mem room).mpr (by rw [hacc]; exact List.mem_cons_self)
  rw [hrooms, OrderSet.insert_of_taken h.ordered ⟨r, hr, hk⟩] at hin
  exact hout hin

/-! ## Updating -/

theorem update_iff {node : NodeRef} {order : Nat} (name : String) (usercount : Nat) {y : Watched}
    (ht : y.watch.t = x.watch.t.update node name order usercount) (hl : y.watch.list = x.watch.list)
    (hacc : y.accepted = x.accepted) :
    y.Exact ↔ OrderSet.Fits x.watch.t.orderOf node order x.watch.list.rooms := by
  have hkey : ∀ r, y.watch.t.orderOf r = if r = node then order else x.watch.t.orderOf r :=
    fun r => by
    rw [ht, Titles.update_orderOf]
  have hne : ∀ r, r ≠ node → y.watch.t.orderOf r = x.watch.t.orderOf r :=
    fun r hr => by rw [hkey, if_neg hr]
  have hord := OrderSet.ordered_rekey_iff h.nodup h.ordered hne
  rw [hkey, if_pos rfl] at hord
  rw [← hord]
  constructor
  · intro hy
    exact hl ▸ hy.ordered
  · intro ho
    exact ⟨fun r => by rw [hl, hacc, h.mem], hl ▸ h.nodup, by rw [hl]; exact ho⟩

end Exact

/-! ## Runs -/

theorem step_exact_iff {op : WatchOp} {y : Watched} (h : x.Exact) (hst : x.step op = some y) :
    y.Exact ↔ x.Seats op := by
  cases op
  case addRoom room =>
    cases hst
    by_cases ha : x.watch.Accepts room
    · obtain ⟨title, -, he⟩ := Watch.addRoom_accepts ha
      constructor
      · intro hy _
        by_contra hn
        simp only [not_or, not_forall, not_not] at hn
        obtain ⟨hout, r, hr, hk⟩ := hn
        exact h.dropped hout hr hk (by dsimp only; rw [he]) (if_pos ha) hy
      · intro hc
        exact h.addRoom (hc ha) (by dsimp only; rw [he]) (by dsimp only; rw [he]; rfl) (if_pos ha)
    · have hx : (⟨x.watch.addRoom room, if x.watch.Accepts room then room :: x.accepted else
        x.accepted⟩ : Watched) = x := by
        rw [Watch.addRoom_rejects ha, if_neg ha]
      rw [hx]
      exact iff_of_true h fun hc => absurd hc ha
  case update node name order usercount =>
    cases hst
    exact h.update_iff name usercount rfl rfl rfl

end Watched

theorem watched_guarded : watchedSys.Guarded Watched.Seats Watched.Exact Watched.Exact where
  init _ h0 := h0.exact
  step _ _ _ h hc hst := (Watched.step_exact_iff h hst).mpr hc
  safe _ h := h
  sharp _ _ _ h hc hst hy := hc ((Watched.step_exact_iff h hst).mp hy)

/-- **The watched rooms.** Along a run of `AddRoom` and `Update` during one
watch, `rooms_` holds every accepted room, once and in order, iff no accepted
room has the order of another one in the set and no update moves a room past
its neighbours. -/
theorem watched_iff {x₀ x : Watched} {ms : List (Move Watched WatchOp)} (h0 : x₀.Begun)
    (hr : watchedSys.Run x₀ ms x) :
    (∀ y ∈ visited x₀ ms, y.Exact) ↔ ∀ m ∈ ms, m.src.Seats m.lbl :=
  watched_guarded.safe_along_iff h0 hr

/-! ## Runs of one watch -/

instance (x : Watched) (op : WatchOp) : Decidable (x.Seats op) := by
  unfold Watched.Seats
  split <;> infer_instance

/-- Two nodes below the watched node `1`, with the rooms `4` and `5` below
the first and `6` below the second. -/
def Watch.begun : Watch :=
  let node (nodeType : NodeType) (order : Nat) (parentItem : Option NodeRef) : Node :=
    ⟨nodeType, order, "", order, 0, .empty, [], parentItem, true⟩
  let t : Titles := {
    nodes := fun
      | 0 => node .title 0 none
      | 1 => node .titleNode 0 none
      | 2 => node .titleNode 1 (some 1)
      | 3 => node .titleNode 2 (some 1)
      | 4 => node .titleRoom 10 (some 2)
      | 5 => node .titleRoom 20 (some 2)
      | _ => node .titleRoom 10 (some 3)
    nextNode := 7, memory := fun _ => none, w := .launched }
  Watch.opened ⟨t, ⟨none, none, false, 0, [], []⟩, [], []⟩ 1 0

theorem Watch.begun_climbs : Climbs Watch.begun.t := by
  intro r d hp
  match r, hp with
  | 2, hp | 3, hp | 4, hp | 5, hp =>
    cases hp
    decide
  | r + 6, hp =>
    cases hp
    exact Nat.lt_add_left r (show 3 < 6 by decide)

/-- The room below the second node. -/
theorem belongs_iff_room : Watch.begun.Accepts 6 ∧ Below Watch.begun.t 1 6 := by
  have hb : Below Watch.begun.t 1 6 := .step (d := 3) rfl (.child rfl)
  exact ⟨((Watch.belongs_iff Watch.begun_climbs rfl rfl rfl 6).mpr (by decide)).mpr (.inr hb), hb⟩

/-- A room that is watched itself is turned down. -/
theorem watched_room_rejected :
    (Watch.begun.onConfig (some 4)).isSome = true ∧ Climbs Watch.begun.t ∧
    ¬ (((Watch.begun.opened 4 0).Accepts 4) ↔ 4 = 4 ∨ Below (Watch.begun.opened 4 0).t 4 4) := by
  refine ⟨by decide, Watch.begun_climbs, fun hiff => ?_⟩
  exact absurd (hiff.mpr (.inl rfl)) (by decide)

def Watched.begun : Watched := ⟨.begun, []⟩

theorem Watched.begun_begun : Watched.begun.Begun := ⟨rfl, _, 1, 0, rfl⟩

/-- The room below the second node gets a new order in time. -/
def reordered : List WatchOp :=
  [.addRoom 4, .update 6 "" 15 0, .addRoom 5, .addRoom 6, .addRoom 5, .update 6 "" 20 3, .addRoom 1]

theorem watched_iff_reordered :
    (∀ m ∈ moves Watched.step .begun reordered, m.src.Seats m.lbl) ∧
      ∀ y ∈ visited Watched.begun (moves Watched.step .begun reordered), y.Exact := by
  have hc : ∀ m ∈ moves Watched.step .begun reordered, m.src.Seats m.lbl := by decide +kernel
  exact ⟨hc, (watched_iff Watched.begun_begun (run_of_exec reordered (by decide +kernel))).mpr hc⟩

/-- Of two rooms with one order in different nodes the second is dropped. -/
theorem accepted_dropped :
    ∃ x, watchedSys.Reachable x ∧ x.accepted = [6, 4] ∧ x.watch.list.rooms = [4] ∧ ¬ x.Exact := by
  obtain ⟨x, hr, hp⟩ := exists_reachable_of_exec Watched.Begun Watched.step [.addRoom 4, .addRoom 6]
    (fun x => x.accepted == [6, 4] && x.watch.list.rooms == [4]) Watched.begun_begun
      (by decide +kernel)
  simp only [Bool.and_eq_true, beq_iff_eq] at hp
  obtain ⟨ha, hl⟩ := hp
  refine ⟨x, hr, ha, hl, fun h => ?_⟩
  have hin := (h.mem 6).mpr (by rw [ha]; exact List.mem_cons_self)
  rw [hl] at hin
  exact absurd hin (by decide)

end MonitorAgent.L4
