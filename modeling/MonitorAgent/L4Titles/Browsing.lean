import MonitorAgent.L3Wall.Frame
import MonitorAgent.L4Titles.PageRange
import MonitorAgent.L4Titles.Paging

/-!
# Browsing through the pages

The left and right arrow keys call `PrevPage` and `NextPage` on the UI thread
(Monitor/Monitor/MonitorDlg.cpp:241-263, Monitor/Monitor/Title.cpp:62-84); the
messages of a page go one by one into `g_mainframe_pipe`, and another thread
takes them out and handles them. A page may be turned while messages of the
pages before it are still on their way. The walk is over, and meanwhile no user
comes or goes and nobody drags one.

* `browsing_settles`: whatever keys are pressed and however the two threads
  interleave, the screens show the page turned to last once all is handled.
-/
namespace MonitorAgent.L4

open L3 LTS

/-! ## What handling leaves alone -/

/-- The same users in the same rooms. -/
structure SameUsers (w w' : World) : Prop where
  rooms : w'.rooms = w.rooms
  alive : ∀ u, (w'.users u).alive = (w.users u).alive
  titleRoom : ∀ u, (w'.users u).titleRoom = (w.users u).titleRoom

theorem SameIdentity.sameUsers {w w' : World} (h : SameIdentity w w') (hr : w'.rooms = w.rooms) :
    SameUsers w w' := ⟨hr, h.alive, h.titleRoom⟩

theorem sameUsers_frame : SeatFrame SameUsers where
  refl _ := ⟨rfl, fun _ => rfl, fun _ => rfl⟩
  trans h h' := ⟨h'.rooms.trans h.rooms, fun u => (h'.alive u).trans (h.alive u),
    fun u => (h'.titleRoom u).trans (h.titleRoom u)⟩
  send w packet := by
    have h := SameWall.sendPacket w packet
    exact ⟨World.sendPacket_rooms w packet, fun u => by rw [h.users], fun u => by rw [h.users]⟩
  connect w s u := SameIdentity.sameUsers (.connect w s u) (World.connectUser_rooms w s u)
  disconnect w s := SameIdentity.sameUsers (.disconnectUser w s) (World.disconnectUser_rooms w s)

theorem SameUsers.watchable {w w' : World} (h : SameUsers w w') {u : UserRef} (hu : Watchable w u) :
    Watchable w' u := by
  rw [Watchable, h.alive, h.titleRoom, h.rooms]
  exact hu

section Handling

variable {d d' : MonitorDlg}

theorem onPageMessage_same {m : Message} (h : onPageMessage d m = some d') :
    SameUsers d.w d'.w := by
  cases m with
  | cleanScreens =>
    cases h
    exact sameUsers_frame.cleanScreens d.w
  | watchRoomUser user idx =>
    simp only [onPageMessage, MonitorDlg.onWatchRoomUser] at h
    split at h
    · obtain ⟨w, hw, rfl⟩ := Option.map_eq_some_iff.mp h
      exact sameUsers_frame.linkScreenUser d.w hw
    · cases h
      exact sameUsers_frame.refl d.w
  | _ =>
    cases h
    exact sameUsers_frame.refl d.w

/-- A message of a page, for one of these users. -/
def OfPage (users : List UserRef) (m : Message) : Prop :=
  m = .cleanScreens ∨ ∃ u ∈ users, ∃ idx, m = .watchRoomUser (some u) idx

theorem onPageMessage_bij {users : List UserRef} (hl : ∀ u ∈ users, Watchable d.w u) (hb : Bij d.w)
    {m : Message} (hm : OfPage users m) (h : onPageMessage d m = some d') : Bij d'.w := by
  rcases hm with rfl | ⟨u, hu, idx, rfl⟩
  · cases h
    exact hb.steps (cleanScreens_steps d.w)
  · simp only [onPageMessage, MonitorDlg.onWatchRoomUser] at h
    split at h
    · obtain ⟨w, hw, rfl⟩ := Option.map_eq_some_iff.mp h
      exact hb.steps (linkScreenUser_steps hb idx u (hl u hu).1 hw)
    · cases h
      exact hb

/-- Handling messages of pages keeps the wall in order and the users there. -/
theorem handled_keeps {users : List UserRef} {ms : List Message} (hl : ∀ u ∈ users, Watchable d.w u)
    (hb : Bij d.w) (hm : ∀ m ∈ ms, OfPage users m) (h : ms.foldlM onPageMessage d = some d') :
    Bij d'.w ∧ SameUsers d.w d'.w := by
  induction ms generalizing d with
  | nil =>
    rw [← Option.some.inj h]
    exact ⟨hb, sameUsers_frame.refl d.w⟩
  | cons m ms ih =>
    obtain ⟨d₁, h₁, h⟩ := Option.bind_eq_some_iff.mp h
    have hsame := onPageMessage_same h₁
    have hb₁ := onPageMessage_bij hl hb (hm m List.mem_cons_self) h₁
    obtain ⟨hb', hsame'⟩ := ih (fun u hu => hsame.watchable (hl u hu)) hb₁
      (fun m' hm' => hm m' (List.mem_cons_of_mem _ hm')) h
    exact ⟨hb', sameUsers_frame.trans hsame hsame'⟩

theorem ofPage_pageMessages {users us : List UserRef} (h : us.Sublist users) {m : Message}
    (hm : m ∈ Watch.pageMessages us) : OfPage users m := by
  rcases List.mem_cons.mp hm with rfl | hm
  · exact .inl rfl
  · obtain ⟨i, hi, rfl⟩ := List.mem_mapIdx.mp hm
    exact .inr ⟨us[i], h.subset (List.getElem_mem hi), i, rfl⟩

end Handling

/-! ## The two threads -/

/-- `sending` are the messages that the key pressed last has still to send. -/
structure Browser where
  watch : Watch
  sending : List Message
  isDraging : Bool
  dragingUser : Option UserRef

inductive BrowseOp
  | nextPage
  | prevPage
  | send
  | handle
deriving DecidableEq

namespace Browser

variable (x : Browser)

def dlg : MonitorDlg := ⟨x.watch.t.w, x.isDraging, x.dragingUser⟩

/-- A key is pressed: what it has put into the pipe is still to be sent. -/
def turn (f : Watch → Watch) : Option Browser :=
  match x.sending with
  | [] => some { x with
      watch := { f x.watch with pipe := x.watch.pipe }
      sending := (f x.watch).pipe.drop x.watch.pipe.length }
  | _ :: _ => none

def step : BrowseOp → Option Browser
  | .nextPage => x.turn Watch.nextPage
  | .prevPage => x.turn Watch.prevPage
  | .send =>
    match x.sending with
    | [] => none
    | m :: ms => some { x with watch := x.watch.sendMessage m, sending := ms }
  | .handle =>
    match x.watch.pipe with
    | [] => none
    | m :: ms => (onPageMessage x.dlg m).map fun d => { x with
        watch := { x.watch with t := { x.watch.t with w := d.w }, pipe := ms }
        isDraging := d.isDraging
        dragingUser := d.dragingUser }

/-- The walk has ended, a page is shown, and no message is on its way. -/
structure Ready : Prop where
  wall : wallSys.Reachable x.watch.t.w
  watching : x.watch.list.watching = true
  rooms : x.watch.list.rooms.Nodup
  few : x.watch.numbered.length < 4294967296
  linked : ∀ u ∈ x.watch.numbered, Watchable x.watch.t.w u
  page : 1 ≤ x.watch.list.page ∧ x.watch.list.page ≤ x.watch.pageCount
  pipe : x.watch.pipe = []
  sending : x.sending = []

/-- The users of the page that was turned to last. -/
def shownPage : List UserRef := x.watch.pageUsers x.watch.list.page

end Browser

def browseSys : LTS Browser BrowseOp := .ofFn Browser.Ready Browser.step

/-- Whether the step presses a key. -/
def BrowseOp.Key : BrowseOp → Prop
  | .nextPage | .prevPage => True
  | .send | .handle => False

/-- The page after a step, of so many. -/
def BrowseOp.turned (pageCount page : Nat) : BrowseOp → Nat
  | .nextPage => min pageCount (page + 1)
  | .prevPage => max 1 (page - 1)
  | .send | .handle => page

namespace Browser

variable {x y : Browser}

/-- The rooms and their users are the same, and so are numbers and pages. -/
theorem numbered_congr {s s' : Watch} (hl : s'.list.rooms = s.list.rooms)
    (hr : s'.t.w.rooms = s.t.w.rooms) : s'.numbered = s.numbered := by
  rw [Watch.numbered, Watch.numbered, Watch.usersOf, Watch.usersOf, hl, hr]

theorem pageCount_congr {s s' : Watch} (hl : s'.list.rooms = s.list.rooms)
    (hr : s'.t.w.rooms = s.t.w.rooms) : s'.pageCount = s.pageCount := by
  unfold Watch.pageCount Watch.increaseCount
  rw [hl, hr]

/-- What is on its way can be handled, and if a key was pressed the screens then
show the page turned to last. -/
structure Inv (x : Browser) (pressed : Prop) : Prop where
  wall : Bij x.watch.t.w
  watching : x.watch.list.watching = true
  rooms : x.watch.list.rooms.Nodup
  few : x.watch.numbered.length < 4294967296
  linked : ∀ u ∈ x.watch.numbered, Watchable x.watch.t.w u
  page : 1 ≤ x.watch.list.page ∧ x.watch.list.page ≤ x.watch.pageCount
  ofPage : ∀ m ∈ x.watch.pipe ++ x.sending, OfPage x.watch.numbered m
  settles : ∃ d, (x.watch.pipe ++ x.sending).foldlM onPageMessage x.dlg = some d ∧
    (pressed → ∀ t : ScreenRef, (d.w.screens t).user = x.shownPage[t.val]?)

theorem Ready.inv (h : x.Ready) : x.Inv False where
  wall := bij_inductive.reachable _ h.wall
  watching := h.watching
  rooms := h.rooms
  few := h.few
  linked := h.linked
  page := h.page
  ofPage := by simp [h.pipe, h.sending]
  settles := ⟨x.dlg, by rw [h.pipe, h.sending]; rfl, False.elim⟩

/-- The page is turned, and sent. -/
structure Turned (s s' : Watch) (p : Nat) : Prop where
  t : s'.t = s.t
  list : s'.list = { s.list with page := p }
  pipe : s'.pipe = s.pipe ++ Watch.pageMessages (s.pageUsers p)

theorem nextPage_turned {s : Watch} (hw : s.list.watching = true)
    (hn : s.numbered.length < 4294967296)
    (h1 : 1 ≤ s.list.page) (hp : s.list.page ≤ s.pageCount) :
    Turned s s.nextPage (min s.pageCount (s.list.page + 1)) := by
  have hlt := s.pageCount_lt
  have hpage : u32 (s.list.page + 1) = s.list.page + 1 := by
    unfold u32
    omega
  let s₀ : Watch := { s with calls := s.calls ++ [.nextPage] }
  have hnext : s.nextPage = (s₀.setPage (min s.pageCount (s.list.page + 1))).onShowPage := by
    unfold Watch.nextPage
    dsimp only
    rw [if_pos hw, hpage]
    rfl
  have hsent := s₀.onShowPage_page hn (p := min s.pageCount (s.list.page + 1)) (by omega)
    (Nat.min_le_left _ _)
  rw [hnext]
  exact ⟨rfl, rfl, hsent⟩

theorem prevPage_turned {s : Watch} (hw : s.list.watching = true)
    (hn : s.numbered.length < 4294967296)
    (h1 : 1 ≤ s.list.page) (hp : s.list.page ≤ s.pageCount) :
    Turned s s.prevPage (max 1 (s.list.page - 1)) := by
  have hlt := s.pageCount_lt
  have hpage : u32 (s.list.page - 1) = s.list.page - 1 := by
    unfold u32
    omega
  have hprev : s.prevPage = (s.setPage (max 1 (s.list.page - 1))).onShowPage := by
    unfold Watch.prevPage
    rw [if_pos hw, hpage]
  rw [hprev]
  exact ⟨rfl, rfl, Watch.onShowPage_page _ hn (by omega) (by omega)⟩

/-- A key that turns to a page there is. -/
theorem Inv.turn {pressed : Prop} (h : x.Inv pressed) {f : Watch → Watch} {p : Nat}
    (hf : Turned x.watch (f x.watch) p) (h1 : 1 ≤ p) (hp : p ≤ x.watch.pageCount)
    (hs : x.turn f = some y) :
    y.Inv True ∧ y.watch.list.page = p ∧ y.watch.numbered = x.watch.numbered := by
  unfold Browser.turn at hs
  split at hs
  · rename_i hsend
    cases hs
    have hrooms : (f x.watch).list.rooms = x.watch.list.rooms := by rw [hf.list]
    have hpage : (f x.watch).list.page = p := by rw [hf.list]
    have hnum : ({ f x.watch with pipe := x.watch.pipe } : Watch).numbered = x.watch.numbered :=
      numbered_congr hrooms (by rw [hf.t])
    have hcount : ({ f x.watch with pipe := x.watch.pipe } : Watch).pageCount = x.watch.pageCount :=
      pageCount_congr hrooms (by rw [hf.t])
    have husers : ({ f x.watch with pipe := x.watch.pipe } : Watch).pageUsers p =
      x.watch.pageUsers p := by
      rw [Watch.pageUsers, hnum, Watch.pageUsers]
    have hsub : (x.watch.pageUsers p).Sublist x.watch.numbered := Pages.page_sublist _
    -- the pages before can be handled, and this one after them
    obtain ⟨d, hd, -⟩ := h.settles
    rw [hsend, List.append_nil] at hd
    obtain ⟨hbij, hsame⟩ := handled_keeps h.linked h.wall
      (fun m hm => h.ofPage m (List.mem_append_left _ hm)) hd
    obtain ⟨d', hd', hseated⟩ := pageMessages_seated (Pages.length_page_le _)
      ((x.watch.usersOf_nodup h.wall.toFiling h.rooms).sublist hsub) hbij
      fun u hu => hsame.watchable (h.linked u (hsub.subset hu))
    refine ⟨⟨?_, ?_, ?_, ?_, ?_, ?_, fun m hm => ?_, d', ?_, fun _ => ?_⟩, hpage, hnum⟩
    · exact hf.t.symm ▸ h.wall
    · exact hf.list.symm ▸ h.watching
    · exact hrooms.symm ▸ h.rooms
    · rw [hnum]
      exact h.few
    · rw [hnum]
      exact hf.t.symm ▸ h.linked
    · rw [hcount]
      exact ⟨hpage.symm ▸ h1, hpage.symm ▸ hp⟩
    · rw [hnum]
      rcases List.mem_append.mp hm with hm | hm
      · exact h.ofPage m (List.mem_append_left _ hm)
      · dsimp only at hm
        rw [hf.pipe, List.drop_left] at hm
        exact ofPage_pageMessages hsub hm
    · have hdlg : (⟨(f x.watch).t.w, x.isDraging, x.dragingUser⟩ : MonitorDlg) = x.dlg := by
        rw [hf.t]
        rfl
      dsimp only [Browser.dlg]
      rw [hdlg, hf.pipe, List.drop_left, List.foldlM_append, hd]
      exact hd'
    · dsimp only [Browser.shownPage]
      rw [hpage, husers]
      exact hseated
  · cases hs

theorem Inv.send {pressed : Prop} (h : x.Inv pressed) (hs : x.step .send = some y) :
    y.Inv pressed ∧ y.watch.list.page = x.watch.list.page ∧
    y.watch.numbered = x.watch.numbered := by
  simp only [Browser.step] at hs
  split at hs
  · cases hs
  · rename_i m ms hsend
    cases hs
    have hall : x.watch.pipe ++ [m] ++ ms = x.watch.pipe ++ x.sending := by
      rw [hsend, List.append_assoc, List.singleton_append]
    refine ⟨⟨h.wall, h.watching, h.rooms, h.few, h.linked, h.page, ?_, ?_⟩, rfl, rfl⟩
    · dsimp only [Watch.sendMessage]
      rw [hall]
      exact h.ofPage
    · dsimp only [Watch.sendMessage]
      rw [hall]
      exact h.settles

theorem Inv.handle {pressed : Prop} (h : x.Inv pressed) (hs : x.step .handle = some y) :
    y.Inv pressed ∧ y.watch.list.page = x.watch.list.page ∧
      y.watch.numbered = x.watch.numbered := by
  simp only [Browser.step] at hs
  split at hs
  · cases hs
  · rename_i m ms hpipe
    obtain ⟨d, hd, rfl⟩ := Option.map_eq_some_iff.mp hs
    have hm : OfPage x.watch.numbered m := h.ofPage m (by simp [hpipe])
    have hsame : SameUsers x.watch.t.w d.w := onPageMessage_same hd
    have hbij : Bij d.w := onPageMessage_bij (d := x.dlg) h.linked h.wall hm hd
    have hnum : ({ x.watch with t := { x.watch.t with w := d.w }, pipe := ms } : Watch).numbered =
        x.watch.numbered := numbered_congr rfl hsame.rooms
    have hcount :
        ({ x.watch with t := { x.watch.t with w := d.w }, pipe := ms } : Watch).pageCount =
          x.watch.pageCount := pageCount_congr rfl hsame.rooms
    refine ⟨⟨hbij, h.watching, h.rooms, ?_, ?_, ?_, fun m' hm' => ?_, ?_⟩, rfl, hnum⟩
    · rw [hnum]
      exact h.few
    · rw [hnum]
      exact fun u hu => hsame.watchable (h.linked u hu)
    · rw [hcount]
      exact h.page
    · rw [hnum]
      exact h.ofPage m' (by rw [hpipe]; exact List.mem_cons_of_mem _ hm')
    · obtain ⟨d', hd', hshown⟩ := h.settles
      rw [hpipe, List.cons_append, List.foldlM_cons] at hd'
      obtain ⟨d₁, h₁, hd'⟩ := Option.bind_eq_some_iff.mp hd'
      obtain rfl : d = d₁ := Option.some.inj (hd.symm.trans h₁)
      refine ⟨d', hd', ?_⟩
      dsimp only [Browser.shownPage, Watch.pageUsers]
      rw [hnum]
      exact hshown

theorem Inv.step {pressed : Prop} (h : x.Inv pressed) {op : BrowseOp} (hs : x.step op = some y) :
    y.Inv (op.Key ∨ pressed) ∧ y.watch.list.page = op.turned x.watch.pageCount x.watch.list.page ∧
      y.watch.numbered = x.watch.numbered := by
  obtain ⟨h1, hp⟩ := h.page
  cases op with
  | nextPage =>
    obtain ⟨hy, hpage, hnum⟩ :=
    h.turn (nextPage_turned h.watching h.few h1 hp) (by omega) (by omega) hs
    simp only [BrowseOp.Key, true_or]
    exact ⟨hy, hpage, hnum⟩
  | prevPage =>
    obtain ⟨hy, hpage, hnum⟩ :=
    h.turn (prevPage_turned h.watching h.few h1 hp) (by omega) (by omega) hs
    simp only [BrowseOp.Key, true_or]
    exact ⟨hy, hpage, hnum⟩
  | send =>
    simp only [BrowseOp.Key, false_or]
    exact h.send hs
  | handle =>
    simp only [BrowseOp.Key, false_or]
    exact h.handle hs

theorem Inv.run {pressed : Prop} {ms : List (Move Browser BrowseOp)} (h : x.Inv pressed)
    (hr : browseSys.Run x ms y) :
    y.Inv (pressed ∨ ∃ m ∈ ms, m.lbl.Key) ∧ y.watch.numbered = x.watch.numbered ∧
      y.watch.list.page =
        (ms.map Move.lbl).foldl (fun page op => op.turned x.watch.pageCount page)
        x.watch.list.page := by
  induction hr generalizing pressed with
  | nil => exact ⟨by simpa using h, rfl, rfl⟩
  | @cons x x₁ y op ms hs _ ih =>
    obtain ⟨h₁, hpage, hnum⟩ := h.step hs
    obtain ⟨hy, hnum', hpage'⟩ := ih h₁
    have hcount : x₁.watch.pageCount = x.watch.pageCount := by
      rw [Watch.pageCount_numbered _ h₁.few, Watch.pageCount_numbered _ h.few, hnum]
    refine ⟨?_, hnum'.trans hnum, ?_⟩
    · have hor : (pressed ∨ ∃ m ∈ (⟨x, op, x₁⟩ : Move Browser BrowseOp) :: ms, m.lbl.Key) ↔
          (op.Key ∨ pressed) ∨ ∃ m ∈ ms, m.lbl.Key := by
        rw [List.exists_mem_cons_iff]
        tauto
      rw [hor]
      exact hy
    · rw [hpage', hcount, hpage]
      rfl

/-- **Browsing.** The walk is over and no user comes or goes. Whatever keys are
pressed and however the threads interleave, once a key has been pressed: the
page is the one that the keys turn to, and when what is on its way has been
handled, each screen shows its user of that page and the rest are idle. -/
theorem browsing_settles {ms : List (Move Browser BrowseOp)} (h : x.Ready)
    (hr : browseSys.Run x ms y)
    (hk : ∃ m ∈ ms, m.lbl.Key) :
    y.watch.numbered = x.watch.numbered ∧
      y.watch.list.page =
        (ms.map Move.lbl).foldl (fun page op => op.turned x.watch.pageCount page)
        x.watch.list.page ∧
      (∃ d, (y.watch.pipe ++ y.sending).foldlM onPageMessage y.dlg = some d ∧
        ∀ t : ScreenRef, (d.w.screens t).user = y.shownPage[t.val]?) ∧
      (y.watch.pipe = [] → y.sending = [] →
        ∀ t : ScreenRef, (y.watch.t.w.screens t).user = y.shownPage[t.val]?) := by
  obtain ⟨hy, hnum, hpage⟩ := h.inv.run hr
  obtain ⟨d, hd, hshown⟩ := hy.settles
  have hshown := hshown (.inr hk)
  refine ⟨hnum, hpage, ⟨d, hd, hshown⟩, fun hpipe hsend => ?_⟩
  rw [hpipe, hsend] at hd
  rw [← Option.some.inj hd] at hshown
  exact hshown

/-! ## Back before the page is there -/

/-- The first of two pages is shown. -/
def firstPage (w : World) : Browser := ⟨(Watch.watching w).setPage 1, [], false, none⟩

/-- The second page is sent, and the first again before any of it is handled. -/
def thereAndBack : List BrowseOp :=
  .nextPage :: List.replicate 3 .send ++ .prevPage :: List.replicate 16 .send ++
  List.replicate 19 .handle

theorem browsing_settles_thereAndBack : ∃ w y, wallSys.Reachable w ∧
    exec step (firstPage w) thereAndBack = some y ∧
    ∀ t : ScreenRef, (y.watch.t.w.screens t).user = some t.val := by
  obtain ⟨w, hw, hp⟩ := LTS.exists_reachable_of_exec World.Launched World.wallStep Watch.seventeen
    (fun w => decide ((firstPage w).watch.numbered = List.range 17) &&
      decide ((firstPage w).watch.pageCount = 2) &&
      decide (∀ u ∈ List.range 17, Watchable w u) &&
      (exec step (firstPage w) thereAndBack).any fun y =>
        y.watch.pipe.isEmpty && y.sending.isEmpty && y.shownPage == List.range 15)
    World.launched_launched (by decide +kernel)
  simp only [Bool.and_eq_true, decide_eq_true_eq, Option.any_eq_true, beq_iff_eq,
    List.isEmpty_iff] at hp
  obtain ⟨⟨⟨hnum, hcount⟩, hl⟩, y, hy, ⟨hpipe, hsend⟩, hshown⟩ := hp
  have hready : (firstPage w).Ready :=
    { wall := hw
      watching := rfl
      rooms := show [0, 1, 2].Nodup by decide
      few := by rw [hnum]; decide
      linked := by rw [hnum]; exact hl
      page := by rw [hcount]; exact ⟨Nat.le_refl 1, Nat.le_succ 1⟩
      pipe := rfl
      sending := rfl }
  have hr : browseSys.Run _ _ y := run_moves _ hy
  have hkey : ∃ m ∈ moves step (firstPage w) thereAndBack, m.lbl.Key :=
    ⟨_, List.mem_cons_self, trivial⟩
  obtain ⟨-, -, -, hscreens⟩ := browsing_settles hready hr hkey
  refine ⟨w, y, hw, hy, fun t => ?_⟩
  rw [hscreens hpipe hsend, hshown]
  exact List.getElem?_range t.isLt

end Browser
end MonitorAgent.L4
