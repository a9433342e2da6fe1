import MonitorAgent.Core.LTS
import MonitorAgent.L3Wall.Bijection
import MonitorAgent.L4Titles.WatchsList

/-!
# The page number

`page_` and `Page()` are unsigned. `NextPage` takes the smaller of the last
page and the next one; `PrevPage` takes the larger of 1 and the page before,
which for page 0 is the largest number there is, and does not look at the last
page, which may have come down since.

The runs are any order of `Begin`, `End`, `AddRoom`, `OnTraverse`, the two key
presses, and what happens to rooms and users.

* `inRange_iff`: along a run every page turned to is in range exactly if each
  `PrevPage` finds a page from 1 on, at most one behind the last (or page 2).
* `prevPage_wraps`: the first key press of a watch.
-/
namespace MonitorAgent.L4

open L3 LTS

inductive PageOp
  | start (listing : Int → Option Document) (fuel : Nat) (node title : NodeRef)
  | finish
  | addRoom (room : NodeRef)
  | onTraverse (listing : Int → Option Document) (fuel : Nat)
  | nextPage
  | prevPage
  | wall (op : WallOp)

namespace Watch

variable (s : Watch)

def pageStep : PageOp → Option Watch
  | .start listing fuel node title => s.start listing fuel node title
  | .finish => some s.finish
  | .addRoom room => some (s.addRoom room)
  | .onTraverse listing fuel => s.onTraverse listing fuel
  | .nextPage => some s.nextPage
  | .prevPage => some s.prevPage
  | .wall op => (s.t.w.wallStep op).map fun w => { s with t := { s.t with w := w } }

/-- mirrors Monitor/Monitor/WatchsList.cpp:6-12 -/
def Constructed : Prop := s.list = ⟨none, none, false, 0, [], []⟩

/-- The page is one there is, or there is none and it is 0 or 1. -/
def InRange : Prop := s.list.page ≤ max 1 s.pageCount ∧ (1 ≤ s.pageCount → 1 ≤ s.list.page)

instance : Decidable s.InRange := inferInstanceAs (Decidable (_ ∧ _))

/-- A `PrevPage` of a watch finds a page from 1 on, at most one behind the
last or page 2. -/
def Turns : PageOp → Prop
  | .prevPage => s.list.watching = true → 1 ≤ s.list.page ∧ s.list.page ≤ max 2 (s.pageCount + 1)
  | _ => True

instance (op : PageOp) : Decidable (s.Turns op) := by
  cases op <;> unfold Turns <;> infer_instance

end Watch

def pageSys : LTS Watch PageOp := .ofFn Watch.Constructed Watch.pageStep

/-- `NextPage` or `PrevPage` passed its guard in the move. Both are the last
thing that a call which comes to them does. -/
def Paged (m : Move Watch PageOp) : Prop :=
  m.dst.list.watching = true ∧
    (m.lbl = .prevPage ∨ .nextPage ∈ m.dst.calls.drop m.src.calls.length)

namespace Watch

/-! ## The last page -/

theorem userCount_lt (s : Watch) (rooms : List NodeRef) (n : Nat) (hn : n < 4294967296) :
    rooms.foldl (fun n room => s.increaseCount room n) n < 4294967296 := by
  induction rooms generalizing n with
  | nil => exact hn
  | cons r rs ih =>
    have h : s.increaseCount r n < 4294967296 := by unfold increaseCount u32; omega
    exact ih _ h

theorem pageCount_lt (s : Watch) : s.pageCount < 4294967295 := by
  have h := userCount_lt s s.list.rooms 0 (by decide)
  unfold pageCount MAXIMAL_SCREEN_NUM
  generalize s.list.rooms.foldl (fun n room => s.increaseCount room n) 0 = n at h
  by_cases hd : n % 15 = 0
  · refine lt_of_eq_of_lt (if_pos hd) ?_
    omega
  · refine lt_of_eq_of_lt (if_neg hd) ?_
    omega

/-- `NextPage` stays on a page iff it is the last one. -/
theorem page_stays_iff (s : Watch) :
    min s.pageCount (u32 (s.list.page + 1)) = s.list.page ↔ s.list.page = s.pageCount := by
  have h := pageCount_lt s
  unfold u32
  omega

theorem nextPage_fields (s : Watch) : s.nextPage.list.rooms = s.list.rooms ∧
    s.nextPage.list.page =
      if s.list.watching then min s.pageCount (u32 (s.list.page + 1)) else s.list.page := by
  unfold nextPage
  dsimp only
  split
  · exact ⟨rfl, rfl⟩
  · exact ⟨rfl, rfl⟩

theorem nextPage_pageCount (s : Watch) : s.nextPage.pageCount = s.pageCount := by
  unfold nextPage
  dsimp only
  split <;> rfl

theorem nextPage_watching (s : Watch) : s.nextPage.list.watching = s.list.watching := by
  unfold nextPage
  dsimp only
  split <;> rfl

theorem prevPage_fields {s : Watch} (h : s.list.watching = true) :
    s.prevPage.list.watching = true ∧ s.prevPage.list.page = max 1 (u32 (s.list.page - 1)) ∧
      s.prevPage.pageCount = s.pageCount := by
  unfold prevPage
  rw [if_pos h]
  exact ⟨h, rfl, rfl⟩

/-! ## Turning a page -/

/-- While the page is not the largest number, `NextPage` turns to one in
range. -/
theorem nextPage_inRange {s : Watch} (hp : s.list.page < 4294967295) :
    s.nextPage.list.page < 4294967295 ∧ (s.list.watching = true → s.nextPage.InRange) := by
  have hcount := s.pageCount_lt
  obtain ⟨-, hpage⟩ := s.nextPage_fields
  rw [InRange, nextPage_pageCount, hpage]
  unfold u32
  constructor
  · split <;> omega
  · intro hw
    rw [if_pos hw]
    omega

theorem prevPage_inRange_iff {s : Watch} (hp : s.list.page < 4294967295)
    (hw : s.list.watching = true) :
    s.prevPage.InRange ↔ s.Turns .prevPage := by
  have hcount := s.pageCount_lt
  obtain ⟨-, hpage, hsame⟩ := prevPage_fields hw
  rw [InRange, hpage, hsame]
  simp only [Turns, hw, true_implies]
  unfold u32
  omega

/-- A walk turns a page if it comes to `NextPage`. -/
theorem onTraverse_inRange {listing : Int → Option Document} {fuel : Nat} {s s' : Watch}
    (h : s.onTraverse listing fuel = some s') (hp : s.list.page < 4294967295) :
    s'.list.page < 4294967295 ∧
      (s'.list.watching = true → .nextPage ∈ s'.calls.drop s.calls.length → s'.InRange) := by
  obtain ⟨s₁, hway, hend⟩ := onTraverse_ends h
  obtain ⟨stack, hlist⟩ := hway.list
  have hp₁ : s₁.list.page < 4294967295 := by rw [hlist]; exact hp
  rcases hend with rfl | rfl | ⟨room, rfl⟩
  · obtain ⟨hlt, hin⟩ := nextPage_inRange hp₁
    exact ⟨hlt, fun hw _ => hin (s₁.nextPage_watching ▸ hw)⟩
  · refine ⟨hp₁, fun _ hm => ?_⟩
    rw [hway.calls, List.drop_length] at hm
    cases hm
  · obtain ⟨-, hcalls, -⟩ := s₁.roomOnWatched_rest s.list.title room
    refine ⟨(s₁.roomOnWatched_page s.list.title room).1 ▸ hp₁, fun _ hm => ?_⟩
    rw [hcalls, hway.calls, List.drop_left] at hm
    exact absurd (List.mem_singleton.mp hm) Call.noConfusion

/-! ## Steps -/

/-- What turns no page. -/
theorem not_paged {s s' : Watch} {op : PageOp} (hop : op ≠ .prevPage) (hc : s'.calls = s.calls) :
    ¬ Paged ⟨s, op, s'⟩ := by
  intro ⟨_, h⟩
  rcases h with h | h
  · exact hop h
  · rw [hc, List.drop_length] at h
    cases h

/-- Only `PrevPage` can turn to a page out of range. -/
theorem pageStep_inRange {s s' : Watch} {op : PageOp} (hp : s.list.page < 4294967295)
    (hop : op ≠ .prevPage) (h : s.pageStep op = some s') :
    s'.list.page < 4294967295 ∧ (Paged ⟨s, op, s'⟩ → s'.InRange) := by
  have quiet : s'.list.page < 4294967295 → s'.calls = s.calls →
      s'.list.page < 4294967295 ∧ (Paged ⟨s, op, s'⟩ → s'.InRange) := fun hlt hc =>
    ⟨hlt, fun hpaged => absurd hpaged (not_paged hop hc)⟩
  cases op
  case start listing fuel node title =>
    simp only [pageStep, start_eq] at h
    obtain ⟨hlt, hin⟩ := onTraverse_inRange h (show 0 < 4294967295 by decide)
    exact ⟨hlt, fun ⟨hw, hm⟩ => hin hw (hm.resolve_left hop)⟩
  case finish =>
    cases h
    exact quiet (show 0 < 4294967295 by decide) rfl
  case addRoom room =>
    cases h
    exact quiet ((s.addRoom_page room).1 ▸ hp) (s.addRoom_rest room).2.1
  case onTraverse listing fuel =>
    obtain ⟨hlt, hin⟩ := onTraverse_inRange h hp
    exact ⟨hlt, fun ⟨hw, hm⟩ => hin hw (hm.resolve_left hop)⟩
  case nextPage =>
    cases h
    obtain ⟨hlt, hin⟩ := nextPage_inRange hp
    exact ⟨hlt, fun hpaged => hin (s.nextPage_watching ▸ hpaged.1)⟩
  case prevPage => exact absurd rfl hop
  case wall op =>
    obtain ⟨w, -, rfl⟩ := Option.map_eq_some_iff.mp h
    exact quiet hp rfl

theorem pages_guarded : pageSys.GuardedMoves Turns (fun s => s.list.page < 4294967295)
    fun m => Paged m → m.dst.InRange where
  init s h0 := by
    rw [show s.list = _ from h0]
    decide
  step s op s' hp hc h := by
    by_cases hop : op = .prevPage
    · subst hop
      cases h
      by_cases hw : s.list.watching = true
      · obtain ⟨-, hpage, -⟩ := prevPage_fields hw
        have hturns := hc hw
        refine ⟨?_, fun _ => (prevPage_inRange_iff hp hw).mpr hc⟩
        rw [hpage]
        unfold u32
        omega
      · have hsame : s.prevPage = s := by unfold prevPage; exact if_neg hw
        rw [hsame]
        exact ⟨hp, fun hpaged => absurd hpaged.1 hw⟩
    · exact pageStep_inRange hp hop h
  sharp s op s' hp hc h hin := by
    cases op
    case prevPage =>
      cases h
      obtain ⟨hw, -⟩ := Classical.not_imp.mp hc
      obtain ⟨hw', -, -⟩ := prevPage_fields hw
      exact hc ((prevPage_inRange_iff hp hw).mp (hin ⟨hw', .inl rfl⟩))
    all_goals exact hc trivial

end Watch

/-- **The page number.** Along a run, after every `NextPage` and `PrevPage`
of a watch the page is at most the last (or 1), and at least 1 if there is
one, iff every `PrevPage` finds a page from 1 on, at most one behind the last
(or page 2). -/
theorem inRange_iff {s₀ s : Watch} {ms : List (Move Watch PageOp)} (h0 : s₀.Constructed)
    (hr : pageSys.Run s₀ ms s) :
    (∀ m ∈ ms, Paged m → m.dst.InRange) ↔ ∀ m ∈ ms, m.src.Turns m.lbl :=
  Watch.pages_guarded.along_iff h0 hr

/-! ## Runs of one watch -/

/-- A watched node with one room, and two users in it. -/
def Watch.constructed : Watch where
  t := {
    nodes := fun
      | 0 => ⟨.titleNode, 0, "", 0, 0, .empty, [], none, true⟩
      | _ => ⟨.titleRoom, 5, "", 0, 0, .empty, [], some 0, true⟩
    nextNode := 2, memory := fun _ => none, w := .launched }
  list := ⟨none, none, false, 0, [], []⟩
  pipe := []
  calls := []

theorem Watch.constructed_constructed : Watch.constructed.Constructed := rfl

/-- The room's users come before it is added; one leaves again. -/
def paging : List PageOp :=
  [.wall (.addUser 1 7 1), .wall (.addUser 1 8 2), .start (fun _ => none) 9 0 8, .addRoom 1,
    .onTraverse (fun _ => none) 9, .nextPage, .wall (.delUser 1 7), .prevPage]

theorem inRange_iff_paging :
    (∀ m ∈ moves Watch.pageStep .constructed paging, m.src.Turns m.lbl) ∧
      ∀ m ∈ moves Watch.pageStep .constructed paging, Paged m → m.dst.InRange := by
  have hc : ∀ m ∈ moves Watch.pageStep .constructed paging, m.src.Turns m.lbl := by decide +kernel
  exact ⟨hc,
    (inRange_iff Watch.constructed_constructed (run_of_exec paging (by decide +kernel))).mpr hc⟩

/-- No room has been added when the first key is pressed. -/
theorem prevPage_wraps : ∃ s s', pageSys.Reachable s ∧ pageSys.step s .prevPage s' ∧
    Paged ⟨s, .prevPage, s'⟩ ∧ s'.list.page = 4294967295 ∧ ¬ s'.InRange := by
  obtain ⟨s, hr, hp⟩ := exists_reachable_of_exec Watch.Constructed Watch.pageStep
    [.start (fun _ => none) 9 0 8]
    (fun s => s.prevPage.list.watching && s.prevPage.list.page == 4294967295 &&
      !decide s.prevPage.InRange) Watch.constructed_constructed (by decide +kernel)
  simp only [Bool.and_eq_true, beq_iff_eq, Bool.not_eq_true', decide_eq_false_iff_not] at hp
  obtain ⟨⟨hw', hpage⟩, hin⟩ := hp
  exact ⟨s, s.prevPage, hr, rfl, ⟨hw', .inl rfl⟩, hpage, hin⟩

end MonitorAgent.L4
