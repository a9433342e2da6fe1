import MonitorAgent.L4Titles.Traversal
import MonitorAgent.L4Titles.WatchedRooms
import MonitorAgent.L5Concurrency.WatchSessions

/-!
# A room and its continuation

`WatchsList::AddRoom` sends `WM_CONTINUE_TRAVERSE` first and puts the room into
`rooms_` then. On the scene worker the thread that reads the pipe can come
between the two; on that thread itself nothing can, as the message waits in the
pipe until the call is over. `Begin` is on the UI thread, where it can come
between the two as well: the runs here start when `Begin` has returned. A
message in the pipe carries the room whose `AddRoom` sent it.

* `counted_iff`: along a run whose insertions are not dropped, a continuation
  finds its room in `rooms_`, and a traversal ends with every accepted room
  there, exactly if none of this happens while the worker has a new room to
  insert.
* `page_without_room`: it happens with the first room of a watch.
-/
namespace MonitorAgent.L4.Watch

/-- What `AddRoom` sends, if it passes its guards.
mirrors Monitor/Monitor/WatchsList.cpp:87-91 -/
def continuation (s : Watch) (room : NodeRef) : Option L3.Message :=
  match s.list.title, s.list.node with
  | some title, some node =>
    if s.list.watching ∧ s.t.belowWatchedNode room node then
    some (.continueTraverse title) else none
  | _, _ => none

/-- mirrors Monitor/Monitor/WatchsList.cpp:93 -/
def insertRoom (s : Watch) (room : NodeRef) : Watch :=
  { s with list := { s.list with rooms := OrderSet.insert s.t.orderOf room s.list.rooms } }

/-- The two halves of `AddRoom`. -/
theorem addRoom_eq (s : Watch) (room : NodeRef) : s.addRoom room =
    match s.continuation room with
    | some m => (s.sendMessage m).insertRoom room
    | none => s := by
  unfold addRoom continuation
  cases s.list.title with
  | none => rfl
  | some title =>
    cases s.list.node with
    | none => rfl
    | some node =>
      dsimp only
      split <;> rfl

end MonitorAgent.L4.Watch

namespace MonitorAgent.L5.Continuation

open MonitorAgent.L3 MonitorAgent.L4 LTS

/-- `watch.pipe` is what a call sends, before it is in the pipe; `worker` is
the room that the scene worker has still to insert, `accepted` are the rooms
whose `AddRoom` passed its guards. -/
structure St where
  watch : Watch
  pipe : List (Message × Option NodeRef)
  worker : Option NodeRef
  accepted : List NodeRef

/-- `tree` is whatever happens to the tree, the rooms and their users. -/
inductive Act
  | send (room : NodeRef)
  | insert
  | handle (listing : Int → Option Document) (fuel : Nat) (linked : Bool)
  | tree (t : Titles)

/-- The room that a call of `OnTraverse` has come to. -/
def watched (s s' : Watch) : Option NodeRef :=
  (s'.calls.drop s.calls.length).getLast?.bind Call.room?

/-- The room whose `AddRoom` has sent the message in such a call. -/
def origin (s s' : Watch) : Message → Option NodeRef
  | .continueTraverse _ => watched s s'
  | _ => none

namespace St

variable (x : St)

/-- What a call has sent goes into the pipe. -/
def after (s : Watch) : St where
  watch := { s with pipe := [] }
  pipe := x.pipe ++ s.pipe.map fun m => (m, origin x.watch s m)
  worker := x.worker
  accepted := s.pipe.filterMap (origin x.watch s) ++ x.accepted

/-- `linked` is what `OnLinkRoom` comes to for a room asked for by the watch.
mirrors Monitor/Monitor/MonitorDlg.cpp:448-494 and ScreenMgr.cpp:181-205 -/
def handle (listing : Int → Option Document) (fuel : Nat) (linked : Bool) : Option St :=
  match x.pipe with
  | [] => none
  | (.continueTraverse _, _) :: rest =>
    (x.watch.onTraverse listing fuel).map fun s => ({ x with pipe := rest } : St).after s
  | (.expandedRoom (some title) _, _) :: rest =>
    some { x with pipe := if linked then rest else rest ++ [(.continueTraverse title, none)] }
  | _ :: rest => some { x with pipe := rest }

def step : Act → Option St
  | .send room =>
    if x.worker = none then
      match x.watch.continuation room with
      | some m =>
        some { x with pipe := x.pipe ++
          [(m, some room)], worker := some room, accepted := room :: x.accepted }
      | none => some x
    else none
  | .insert => x.worker.map fun room => { x with watch := x.watch.insertRoom room, worker := none }
  | .handle listing fuel linked => x.handle listing fuel linked
  | .tree t => some { x with watch := { x.watch with t := t } }

/-- `Begin` has returned; what was in the pipe before has no room. -/
def Begun : Prop :=
  ∃ (s s' : Watch) (old : List (Message × Option NodeRef)) (listing : Int → Option Document)
  (fuel : Nat) (node title : NodeRef), s.pipe = [] ∧ (∀ m ∈ old, m.2 = none) ∧
    s.start listing fuel node title = some s' ∧ x = (⟨s, old, none, []⟩ : St).after s'

end St

def sys : LTS St Act := .ofFn St.Begun St.step

/-! ## What is to hold, and when -/

/-- `NextPage` is called in the move. -/
def Ends (m : Move St Act) : Prop := .nextPage ∈ m.dst.watch.calls.drop m.src.watch.calls.length

instance (m : Move St Act) : Decidable (Ends m) := inferInstanceAs (Decidable (_ ∈ _))

/-- A continuation finds its room in the set, and a traversal ends with every
accepted room there. -/
def Counted (m : Move St Act) : Prop :=
  match m.lbl, m.src.pipe with
  | .handle _ _ _, (.continueTraverse _, o) :: _ =>
    (∀ r ∈ o, r ∈ m.src.watch.list.rooms) ∧
    (Ends m → ∀ r ∈ m.dst.accepted, r ∈ m.dst.watch.list.rooms)
  | _, _ => True

/-- While the worker has a new room to insert, neither its continuation is
handled nor does a traversal end. -/
def InTurn (m : Move St Act) : Prop :=
  match m.lbl, m.src.pipe with
  | .handle _ _ _, (.continueTraverse _, o) :: _ =>
    ∀ r ∈ m.src.worker, r ∉ m.src.watch.list.rooms → o ≠ some r ∧ ¬ Ends m
  | _, _ => True

instance (m : Move St Act) : Decidable (InTurn m) := by
  unfold InTurn
  split <;> infer_instance

/-- The rooms that are put into the set. -/
def inserted (m : Move St Act) : List NodeRef :=
  match m.lbl with
  | .insert => m.src.worker.toList
  | .handle _ _ _ => m.dst.accepted.take (m.dst.accepted.length - m.src.accepted.length)
  | _ => []

/-- No other room in the set has the order of one that is put in. -/
def Seats (m : Move St Act) : Prop := ∀ room ∈ inserted m, room ∈ m.src.watch.list.rooms ∨
  ∀ r ∈ m.src.watch.list.rooms, m.dst.watch.t.orderOf r ≠ m.dst.watch.t.orderOf room

instance (m : Move St Act) : Decidable (Seats m) :=
  inferInstanceAs (Decidable (∀ room ∈ inserted m, _ ∨ ∀ r ∈ m.src.watch.list.rooms, _))

/-! ## One call of `OnTraverse` -/

theorem origin_of_none {s s' : Watch} (h : watched s s' = none) (m : Message) :
    origin s s' m = none := by
  cases m with
  | continueTraverse title => exact h
  | _ => rfl

/-- A linked room is put in while it is accepted; else no continuation is sent. -/
theorem roomOnWatched_cases (s : Watch) (ctrl : Option NodeRef) (room : NodeRef) :
    ((s.roomOnWatched ctrl room).list.rooms = s.list.rooms ∧
      ((s.roomOnWatched ctrl room).pipe = s.pipe ∨
        (s.roomOnWatched ctrl room).pipe = s.pipe ++ [.expandedRoom ctrl room])) ∨
    ((s.roomOnWatched ctrl room).list.rooms = OrderSet.insert s.t.orderOf room s.list.rooms ∧
      ∃ title, (s.roomOnWatched ctrl room).pipe = s.pipe ++ [.continueTraverse title]) := by
  unfold Watch.roomOnWatched
  dsimp only
  split
  · by_cases ha : ({ s with calls := s.calls ++ [.watched room] } : Watch).Accepts room
    · obtain ⟨title, -, he⟩ := Watch.addRoom_accepts ha
      rw [he]
      exact .inr ⟨rfl, title, rfl⟩
    · rw [Watch.addRoom_rejects ha]
      exact .inl ⟨rfl, .inl rfl⟩
  · exact .inl ⟨rfl, .inr rfl⟩

/-- A call puts no room in, or the one whose continuation it sends. -/
theorem onTraverse_inserts {listing : Int → Option Document} {fuel : Nat} {s s' : Watch}
    (h : s.onTraverse listing fuel = some s')
    (hp : ∀ m ∈ s.pipe, ∀ title, m ≠ .continueTraverse title) :
    (s'.list.rooms = s.list.rooms ∧ s'.pipe.filterMap (origin s s') = []) ∨
      ∃ room, s'.list.rooms = OrderSet.insert s'.t.orderOf room s.list.rooms ∧
        s'.pipe.filterMap (origin s s') = [room] ∧ .nextPage ∉ s'.calls.drop s.calls.length := by
  obtain ⟨s₁, hway, hend⟩ := Watch.onTraverse_ends h
  obtain ⟨stack, hlist⟩ := hway.list
  have hrooms : s₁.list.rooms = s.list.rooms := by rw [hlist]
  have hquiet : ∀ m ∈ s.pipe, ∀ s'' : Watch, origin s s'' m = none := fun m hm s'' => by
    cases m with
    | continueTraverse title => exact absurd rfl (hp _ hm title)
    | _ => rfl
  rcases hend with rfl | rfl | ⟨room, rfl⟩
  · left
    obtain ⟨-, hcalls, -⟩ := s₁.nextPage_rest
    refine ⟨s₁.nextPage_fields.1.trans hrooms,
      List.filterMap_eq_nil_iff.mpr fun m _ => origin_of_none ?_ m⟩
    rw [watched, hcalls, hway.calls, List.drop_left]
    rfl
  · left
    refine ⟨hrooms, List.filterMap_eq_nil_iff.mpr fun m hm => ?_⟩
    rw [hway.pipe] at hm
    exact hquiet m hm _
  · obtain ⟨ht, hcalls, -⟩ := s₁.roomOnWatched_rest s.list.title room
    have hwatched : watched s (s₁.roomOnWatched s.list.title room) = some room := by
      rw [watched, hcalls, hway.calls, List.drop_left]
      rfl
    have hold : s₁.pipe.filterMap (origin s (s₁.roomOnWatched s.list.title room)) = [] :=
      List.filterMap_eq_nil_iff.mpr fun m hm => hquiet m (hway.pipe ▸ hm) _
    rcases roomOnWatched_cases s₁ s.list.title room with ⟨hr, hsent | hsent⟩ | ⟨hr, title, hsent⟩
    · exact .inl ⟨hr.trans hrooms, by rw [hsent, hold]⟩
    · exact .inl ⟨hr.trans hrooms, by rw [hsent, List.filterMap_append, hold]; rfl⟩
    · refine .inr ⟨room, ?_, ?_, ?_⟩
      · rw [hr, hrooms, ht]
      · rw [hsent, List.filterMap_append, hold, List.filterMap_cons, origin, hwatched]
        rfl
      · rw [hcalls, hway.calls, List.drop_left, List.mem_singleton]
        exact Call.noConfusion

/-! ## Steps -/

/-- What the worker has not inserted yet is all that is missing, and what is in
the pipe comes from an accepted room. -/
structure Inv (x : St) : Prop where
  sent : x.watch.pipe = []
  kept : ∀ r ∈ x.accepted, r ∈ x.watch.list.rooms ∨ x.worker = some r
  known : ∀ m ∈ x.pipe, ∀ r, m.2 = some r → r ∈ x.accepted
  worker : ∀ r, x.worker = some r → r ∈ x.accepted

/-- The state after a call that was made from `x`. -/
theorem inv_after {x : St} {s' : Watch}
    (hkept : ∀ r ∈ x.accepted, r ∈ s'.list.rooms ∨ x.worker = some r)
    (hknown : ∀ m ∈ x.pipe, ∀ r, m.2 = some r → r ∈ x.accepted)
    (hworker : ∀ r, x.worker = some r → r ∈ x.accepted)
    (hnew : ∀ r ∈ s'.pipe.filterMap (origin x.watch s'), r ∈ s'.list.rooms) : Inv (x.after s') where
  sent := rfl
  kept r hr := by
    rcases List.mem_append.mp hr with hr | hr
    · exact .inl (hnew r hr)
    · exact hkept r hr
  known m hm r he := by
    rcases List.mem_append.mp hm with hm | hm
    · exact List.mem_append_right _ (hknown m hm r he)
    · obtain ⟨m', hm', rfl⟩ := List.mem_map.mp hm
      exact List.mem_append_left _ (List.mem_filterMap.mpr ⟨m', hm', he⟩)
  worker r hr := List.mem_append_right _ (hworker r hr)

/-- The node of a watch may be a linked room. -/
theorem Inv.begun {x : St} (h : x.Begun) : Inv x := by
  obtain ⟨s, s', old, listing, fuel, node, title, hpipe, hold, hs, rfl⟩ := h
  rw [Watch.start_eq] at hs
  refine inv_after (fun r hr => nomatch hr) (fun m hm r he => ?_) (fun r hr => nomatch hr)
    fun r hr => ?_
  · rw [hold m hm] at he
    cases he
  · have hsent : ∀ m ∈ ((s.opened node title).push node).pipe, ∀ title, m ≠
      .continueTraverse title := by
      intro m hm title'
      have hm : m ∈ s.pipe ++ [.cleanScreens] := hm
      rw [hpipe, List.nil_append, List.mem_singleton] at hm
      rw [hm]
      exact Message.noConfusion
    rcases onTraverse_inserts hs hsent with ⟨-, hnone⟩ | ⟨room, hrooms, hone, -⟩
    · exact absurd (hnone ▸ hr) List.not_mem_nil
    · have he : r ∈ [room] := hone ▸ hr
      rw [List.mem_singleton.mp he, hrooms]
      exact OrderSet.self_mem_insert (.inr fun y hy => nomatch hy)

namespace Inv

variable {x y : St} (h : Inv x)
include h

/-- A message goes, and others without a room may come. -/
theorem pipe {rest : List (Message × Option NodeRef)} (hp : ∀ m ∈ rest, m ∈ x.pipe ∨ m.2 = none) :
    Inv { x with pipe := rest } where
  sent := h.sent
  kept := h.kept
  known m hm r he := by
    rcases hp m hm with hm | hn
    · exact h.known m hm r he
    · rw [hn] at he
      cases he
  worker := h.worker

/-- The thread that reads the pipe calls `OnTraverse`. -/
theorem traverse {listing : Int → Option Document} {fuel : Nat} {linked : Bool} {s' : Watch}
    {rest : List (Message × Option NodeRef)} (hrest : ∀ m ∈ rest, m ∈ x.pipe)
    (hs : x.watch.onTraverse listing fuel = some s')
    (hc : Seats ⟨x, .handle listing fuel linked, ({ x with pipe := rest } : St).after s'⟩) :
    Inv (({ x with pipe := rest } : St).after s') := by
  have hsent : ∀ m ∈ x.watch.pipe, ∀ title, m ≠ .continueTraverse title := fun m hm => by
    rw [h.sent] at hm
    cases hm
  have hknown : ∀ m ∈ rest, ∀ r, m.2 = some r → r ∈ x.accepted := fun m hm => h.known m (hrest m hm)
  rcases onTraverse_inserts hs hsent with ⟨hrooms, hnone⟩ | ⟨room, hrooms, hone, -⟩
  · refine inv_after (x := { x with pipe := rest }) ?_ hknown h.worker fun r hr => ?_
    · rw [hrooms]
      exact h.kept
    · exact absurd (hnone ▸ hr) List.not_mem_nil
  · have hin : room ∈ inserted ⟨x, .handle listing fuel linked,
        ({ x with pipe := rest } : St).after s'⟩ := by
      have hacc : (({ x with pipe := rest } : St).after s').accepted = room :: x.accepted :=
        congrArg (· ++ x.accepted) hone
      unfold inserted
      dsimp only
      rw [hacc, List.length_cons, Nat.add_sub_cancel_left]
      exact List.mem_cons_self
    refine inv_after (x := { x with pipe := rest }) (fun r hr => ?_) hknown h.worker fun r hr => ?_
    · rw [hrooms]
      exact (h.kept r hr).imp_left OrderSet.mem_insert_of_mem
    · have he : r ∈ [room] := hone ▸ hr
      rw [List.mem_singleton.mp he, hrooms]
      exact OrderSet.self_mem_insert (hc room hin)

theorem handle {listing : Int → Option Document} {fuel : Nat} {linked : Bool}
    (hst : x.handle listing fuel linked = some y) (hc : Seats ⟨x, .handle listing fuel linked, y⟩) :
    Inv y := by
  unfold St.handle at hst
  split at hst
  · cases hst
  · rename_i hp
    obtain ⟨s', hs', rfl⟩ := Option.map_eq_some_iff.mp hst
    exact h.traverse (fun m hm => by rw [hp]; exact List.mem_cons_of_mem _ hm) hs' hc
  · rename_i hp
    cases hst
    refine h.pipe fun m hm => ?_
    rw [hp]
    split at hm
    · exact .inl (List.mem_cons_of_mem _ hm)
    · rcases List.mem_append.mp hm with hm | hm
      · exact .inl (List.mem_cons_of_mem _ hm)
      · exact .inr (by rw [List.mem_singleton.mp hm])
  · rename_i hp
    cases hst
    exact h.pipe fun m hm => .inl (by rw [hp]; exact List.mem_cons_of_mem _ hm)

theorem step {a : Act} (hst : x.step a = some y) (hc : Seats ⟨x, a, y⟩) : Inv y := by
  cases a
  case send room =>
    simp only [St.step] at hst
    split at hst
    · rename_i hw
      split at hst
      · cases hst
        refine ⟨h.sent, fun r hr => ?_, fun m hm r he => ?_, fun r hr => ?_⟩
        · rcases List.mem_cons.mp hr with rfl | hr
          · exact .inr rfl
          · refine (h.kept r hr).imp id fun hr => ?_
            rw [hw] at hr
            cases hr
        · rcases List.mem_append.mp hm with hm | hm
          · exact List.mem_cons_of_mem _ (h.known m hm r he)
          · rw [List.mem_singleton.mp hm] at he
            cases he
            exact List.mem_cons_self
        · cases hr
          exact List.mem_cons_self
      · cases hst
        exact h
    · cases hst
  case insert =>
    obtain ⟨room, hw, rfl⟩ := Option.map_eq_some_iff.mp hst
    have hin : room ∈ inserted ⟨x, .insert,
        ⟨x.watch.insertRoom room, x.pipe, none, x.accepted⟩⟩ := by
      unfold inserted
      dsimp only
      rw [hw]
      exact List.mem_singleton.mpr rfl
    refine ⟨h.sent, fun r hr => .inl ?_, h.known, fun r hr => nomatch hr⟩
    rcases h.kept r hr with hr | hr
    · exact OrderSet.mem_insert_of_mem hr
    · rw [hw] at hr
      cases hr
      exact OrderSet.self_mem_insert (hc room hin)
  case handle listing fuel linked => exact h.handle hst hc
  case tree t =>
    cases hst
    exact ⟨h.sent, h.kept, h.known, h.worker⟩

end Inv

theorem seated_inductive : (sys.moving Seats).Inductive Inv where
  init _ h0 := .begun h0
  step _ _ _ h hst := h.step hst.1 hst.2

/-- A call that ends a traversal puts no room in. -/
theorem handle_ends {x y : St} {listing : Int → Option Document} {fuel : Nat} {linked : Bool}
    {title : NodeRef} {o : Option NodeRef} {rest : List (Message × Option NodeRef)} (h : Inv x)
    (hp : x.pipe = (.continueTraverse title, o) :: rest)
    (hst : x.handle listing fuel linked = some y) (he : Ends ⟨x, .handle listing fuel linked, y⟩) :
    y.accepted = x.accepted ∧ y.watch.list.rooms = x.watch.list.rooms := by
  simp only [St.handle, hp] at hst
  obtain ⟨s', hs', rfl⟩ := Option.map_eq_some_iff.mp hst
  have hsent : ∀ m ∈ x.watch.pipe, ∀ title, m ≠ .continueTraverse title := fun m hm => by
    rw [h.sent] at hm
    cases hm
  rcases onTraverse_inserts hs' hsent with ⟨hrooms, hnone⟩ | ⟨room, -, -, hnot⟩
  · exact ⟨congrArg (· ++ x.accepted) hnone, hrooms⟩
  · exact absurd he hnot

theorem counted_iff_inTurn {m : Move St Act} (h : Inv m.src) (hst : m.src.step m.lbl = some m.dst) :
    Counted m ↔ InTurn m := by
  unfold Counted InTurn
  split
  · rename_i listing fuel linked title o rest hlbl hp
    obtain ⟨x, a, y⟩ := m
    dsimp only at hlbl hp h hst ⊢
    subst hlbl
    have hends := handle_ends h hp hst
    constructor
    · rintro ⟨hfirst, hlast⟩ r hr hnot
      refine ⟨fun he => hnot (hfirst r he), fun he => hnot ?_⟩
      obtain ⟨hacc, hrooms⟩ := hends he
      exact hrooms ▸ hlast he r (hacc ▸ h.worker r hr)
    · intro hturn
      refine ⟨fun r hr => ?_, fun he r hr => ?_⟩
      · have hknown := h.known _ (hp ▸ List.mem_cons_self) r hr
        rcases h.kept r hknown with hin | hw
        · exact hin
        · by_contra hnot
          exact (hturn r hw hnot).1 hr
      · obtain ⟨hacc, hrooms⟩ := hends he
        rw [hrooms]
        rcases h.kept r (hacc ▸ hr) with hin | hw
        · exact hin
        · by_contra hnot
          exact (hturn r hw hnot).2 he
  · exact Iff.rfl

/-- **Rooms and continuations.** Along a run of a watch in which no room that is
put in has the order of another one, every continuation finds its room in the
set and every traversal ends with all accepted rooms in it, iff neither comes
while the worker has that room, or any new room, still to insert. -/
theorem counted_iff {x₀ x : St} {ms : List (Move St Act)} (h0 : x₀.Begun) (hr : sys.Run x₀ ms x)
    (hs : ∀ m ∈ ms, Seats m) : (∀ m ∈ ms, Counted m) ↔ ∀ m ∈ ms, InTurn m := by
  have hmoves := seated_inductive.moves (hr.moving hs) (.begun h0)
  refine forall₂_congr fun m hm => ?_
  obtain ⟨hi, hst, -⟩ := hmoves m hm
  exact counted_iff_inTurn hi hst

/-! ## A watch of one room -/

/-- The room of the node is asked for. -/
def begun : St :=
  (⟨WatchSessions.St.launched.watch, [], none, []⟩ : St).after
    ((WatchSessions.St.launched.watch.start (WatchSessions.rooms [5]) 9 0 8).get
      (by decide +kernel))

theorem begun_begun : begun.Begun :=
  ⟨WatchSessions.St.launched.watch, _, [], WatchSessions.rooms [5], 9, 0, 8, rfl,
    (fun _ hm => nomatch hm), (Option.some_get _).symm, rfl⟩

def handled : Act := .handle (WatchSessions.rooms [5]) 9 true

theorem counted_iff_inserted :
    (∀ m ∈ moves St.step begun [handled, handled, .send 1, .insert, handled], InTurn m) ∧
      ∀ m ∈ moves St.step begun [handled, handled, .send 1, .insert, handled], Counted m := by
  have hc : ∀ m ∈ moves St.step begun [handled, handled, .send 1, .insert, handled], InTurn m := by
    decide +kernel
  have hs : ∀ m ∈ moves St.step begun [handled, handled, .send 1, .insert, handled], Seats m := by
    decide +kernel
  exact ⟨hc, (counted_iff begun_begun (run_of_exec _ (by decide +kernel)) hs).mpr hc⟩

/-- The continuation comes first, and a page without the room is shown. -/
theorem page_without_room : ∃ x y, sys.Reachable x ∧ sys.step x handled y ∧
    (∃ title, x.pipe = [(.continueTraverse title, some 1)]) ∧ x.watch.list.rooms = [] ∧
    x.accepted = [1] ∧
    Ends ⟨x, handled, y⟩ ∧ ¬ Counted ⟨x, handled, y⟩ := by
  obtain ⟨x, hr, hp⟩ := exists_reachable_of_exec St.Begun St.step [handled, handled, .send 1]
    (fun x => x.pipe == [(.continueTraverse 8, some 1)] && x.watch.list.rooms == [] &&
      x.accepted == [1] &&
      (x.step handled).any fun y => decide (Ends ⟨x, handled, y⟩)) begun_begun (by decide +kernel)
  simp only [Bool.and_eq_true, beq_iff_eq, Option.any_eq_true, decide_eq_true_eq] at hp
  obtain ⟨⟨⟨hpipe, hrooms⟩, hacc⟩, y, hst, he⟩ := hp
  refine ⟨x, y, hr, hst, ⟨8, hpipe⟩, hrooms, hacc, he, fun hcounted => ?_⟩
  unfold Counted at hcounted
  simp only [handled, hpipe, hrooms] at hcounted
  exact absurd (hcounted.1 1 rfl) List.not_mem_nil

end MonitorAgent.L5.Continuation
