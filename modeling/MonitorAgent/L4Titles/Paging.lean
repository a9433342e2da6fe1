import MonitorAgent.Core.Pages
import MonitorAgent.L3Wall.Bijection
import MonitorAgent.L4Titles.WatchsList

/-!
# Pages of users

`WatchsList::OnShowPage` (Monitor/Monitor/WatchsList.cpp:130-149) counts an
offset through the rooms and, in `TitleRoom::OnShowPage`, through the users of
each, and stops in the middle of a room when a page is full. Where the rooms
begin does not matter: it is one count through all users in a row
(`showRooms_eq`), and the messages are a page of that list.

* `paging_partition`: each page is sent as its users in order, the pages
  together are all users, an index sent is always that of a screen, and the
  screens show the page once its messages are handled.
-/
namespace MonitorAgent.L4

open L3 Pages

namespace Watch

variable (s : Watch)

/-- The users of the rooms in the order of the iterations. -/
def usersOf (rooms : List NodeRef) : List UserRef :=
  rooms.flatMap fun room => (s.t.w.rooms room).users.entries.map Prod.snd

/-- The users of the watched rooms, by number. -/
def numbered : List UserRef := s.usersOf s.list.rooms

/-- The users of page `p`, counted from 1. -/
def pageUsers (p : Nat) : List UserRef := page MAXIMAL_SCREEN_NUM (p - 1) s.numbered

/-- What a page is sent as. -/
def pageMessages (users : List UserRef) : List Message :=
  .cleanScreens :: users.mapIdx fun i u => .watchRoomUser (some u) i

/-! ## Counting -/

theorem foldl_increaseCount (rooms : List NodeRef) (n : Nat)
    (h : n + (s.usersOf rooms).length < 4294967296) :
    rooms.foldl (fun n room => s.increaseCount room n) n = n + (s.usersOf rooms).length := by
  induction rooms generalizing n with
  | nil => rfl
  | cons room rooms ih =>
    have hlen : (s.usersOf (room :: rooms)).length =
        (s.t.w.rooms room).users.size + (s.usersOf rooms).length := by
      simp [usersOf, StdMap.size]
    rw [hlen] at h ⊢
    have hcount : s.increaseCount room n = n + (s.t.w.rooms room).users.size := by
      unfold increaseCount u32
      omega
    rw [List.foldl_cons, hcount, ih _ (by omega)]
    omega

theorem pageCount_numbered (h : s.numbered.length < 4294967296) :
    s.pageCount = Pages.pageCount MAXIMAL_SCREEN_NUM s.numbered.length := by
  have hcount := s.foldl_increaseCount s.list.rooms 0 (by rw [Nat.zero_add]; exact h)
  rw [Nat.zero_add] at hcount
  unfold pageCount
  rw [hcount]
  rfl

/-! ## One count through all users -/

theorem showUsers_append (first offset : Nat) (us us' : List UserRef) :
    (showUsers first offset (us ++ us')).1 =
      match showUsers first offset us with
      | (sent, some offset) => sent ++ (showUsers first offset us').1
      | (sent, none) => sent := by
  induction us generalizing offset with
  | nil => rfl
  | cons u us ih =>
    rw [List.cons_append, showUsers, showUsers]
    split
    · rfl
    · rw [ih]
      rcases showUsers first (u32 (offset + 1)) us with ⟨sent, _ | offset⟩
      · rfl
      · exact (List.append_assoc ..).symm

theorem showRooms_eq (first offset : Nat) (rooms : List NodeRef) :
    s.showRooms first offset rooms = (showUsers first offset (s.usersOf rooms)).1 := by
  induction rooms generalizing offset with
  | nil => rfl
  | cons room rooms ih =>
    have husers : s.usersOf (room :: rooms) =
        (s.t.w.rooms room).users.entries.map Prod.snd ++ s.usersOf rooms := List.flatMap_cons
    rw [husers, showUsers_append, showRooms]
    rcases showUsers first offset ((s.t.w.rooms room).users.entries.map Prod.snd) with ⟨sent,
      _ | offset⟩
    · rfl
    · exact congrArg (sent ++ ·) (ih offset)

/-- A user is sent from `first` on, and the count goes on while the page is
not full. -/
theorem showUsers_cons (first offset : Nat) (u : UserRef) (us : List UserRef) :
    (showUsers first offset (u :: us)).1 =
      (if first ≤ offset then [.watchRoomUser (some u) (u32 (offset - first))] else []) ++
        if u32 (first + MAXIMAL_SCREEN_NUM) ≤ u32 (offset + 1) then []
        else (showUsers first (u32 (offset + 1)) us).1 := by
  rw [showUsers]
  by_cases h : u32 (first + MAXIMAL_SCREEN_NUM) ≤ u32 (offset + 1)
  · rw [if_pos h, if_pos h, List.append_nil]
  · rw [if_neg h, if_neg h]

/-- While the page does not wrap, what is sent are the users from `first` on,
up to the size of a page. -/
theorem showUsers_sent {first : Nat} (hf : first + MAXIMAL_SCREEN_NUM < 4294967296)
    (users : List UserRef) (offset : Nat) (ho : offset < first + MAXIMAL_SCREEN_NUM) :
    (showUsers first offset users).1 =
      ((users.drop (first - offset)).take (first + MAXIMAL_SCREEN_NUM - max first offset)).mapIdx
        fun i u => .watchRoomUser (some u) (i + (offset - first)) := by
  induction users generalizing offset with
  | nil => simp [showUsers]
  | cons u us ih =>
    have hend : u32 (first + MAXIMAL_SCREEN_NUM) = first + MAXIMAL_SCREEN_NUM := by
      unfold u32; omega
    have hnext : u32 (offset + 1) = offset + 1 := by unfold u32; omega
    rw [showUsers_cons, hend, hnext]
    by_cases hlt : offset < first
    · -- before the page
      have hdrop : (u :: us).drop (first - offset) = us.drop (first - (offset + 1)) := by
        rw [show first - offset = (first - (offset + 1)) + 1 by omega, List.drop_succ_cons]
      rw [if_neg (by omega), if_neg (by unfold MAXIMAL_SCREEN_NUM; omega), List.nil_append, hdrop,
        ih (offset + 1) (by unfold MAXIMAL_SCREEN_NUM; omega),
        show max first (offset + 1) = max first offset by omega,
        show offset + 1 - first = offset - first by omega]
    · have hidx : u32 (offset - first) = offset - first := by unfold u32; omega
      have htake : first + MAXIMAL_SCREEN_NUM - max first offset =
          first + MAXIMAL_SCREEN_NUM - (offset + 1) + 1 := by omega
      rw [if_pos (by omega), hidx, show first - offset = 0 by omega, List.drop_zero, htake,
        List.take_succ_cons, List.mapIdx_cons, Nat.zero_add]
      split
      · -- the page is full
        rw [show first + MAXIMAL_SCREEN_NUM - (offset + 1) = 0 by omega]
        rfl
      · rw [ih (offset + 1) (by omega), show first - (offset + 1) = 0 by omega, List.drop_zero,
          show max first (offset + 1) = offset + 1 by omega]
        refine congrArg (_ :: ·) (congrArg (List.mapIdx · _) ?_)
        funext i u
        rw [show i + (offset + 1 - first) = i + 1 + (offset - first) by omega]

/-- Whatever wraps, the index of a user sent is that of a screen. -/
theorem showUsers_index {first : Nat} (hf : first < 4294967296) (users : List UserRef)
    (offset : Nat) (ho : offset < first + MAXIMAL_SCREEN_NUM)
    (hw : 4294967296 ≤ first + MAXIMAL_SCREEN_NUM → offset < MAXIMAL_SCREEN_NUM) :
    ∀ m ∈ (showUsers first offset users).1,
      ∃ u idx, m = .watchRoomUser (some u) idx ∧ idx < MAXIMAL_SCREEN_NUM := by
  induction users generalizing offset with
  | nil =>
    intro m hm
    cases hm
  | cons u us ih =>
    intro m hm
    rw [showUsers_cons] at hm
    rcases List.mem_append.mp hm with hm | hm
    · split at hm
      · refine ⟨u, _, List.mem_singleton.mp hm, ?_⟩
        unfold u32
        omega
      · cases hm
    · split at hm
      · cases hm
      · rename_i hmore
        unfold MAXIMAL_SCREEN_NUM u32 at *
        exact ih _ (by omega) (by omega) m hm

/-! ## Pages -/

/-- No count of a page that there is wraps. -/
theorem first_eq (h : s.numbered.length < 4294967296) {p : Nat} (h1 : 1 ≤ p)
    (hp : p ≤ s.pageCount) :
    u32 (u32 (p - 1) * MAXIMAL_SCREEN_NUM) = MAXIMAL_SCREEN_NUM * (p - 1) ∧
      MAXIMAL_SCREEN_NUM * (p - 1) + MAXIMAL_SCREEN_NUM < 4294967296 := by
  rw [pageCount_numbered s h] at hp
  have hlt : MAXIMAL_SCREEN_NUM * (p - 1) < s.numbered.length :=
    mul_lt_of_lt_pageCount (by decide) (by omega)
  unfold MAXIMAL_SCREEN_NUM u32 at *
  constructor <;> omega

/-- **One page.** It is sent as its users in order. -/
theorem onShowPage_page (h : s.numbered.length < 4294967296) {p : Nat} (h1 : 1 ≤ p)
    (hp : p ≤ s.pageCount) :
    (s.setPage p).onShowPage.pipe = s.pipe ++ pageMessages (s.pageUsers p) := by
  obtain ⟨hfirst, hwrap⟩ := s.first_eq h h1 hp
  have hrooms : (s.setPage p).showRooms (u32 (u32 (p - 1) * MAXIMAL_SCREEN_NUM)) 0 s.list.rooms =
      (s.pageUsers p).mapIdx fun i u => .watchRoomUser (some u) i := by
    rw [showRooms_eq, hfirst, showUsers_sent hwrap _ 0 (by unfold MAXIMAL_SCREEN_NUM; omega),
      Nat.sub_zero, Nat.zero_sub, Nat.max_zero, Nat.add_sub_cancel_left]
    rfl
  exact congrArg (fun ms => s.pipe ++ .cleanScreens :: ms) hrooms

/-- **Every page number.** Cleaning comes first, and indices are in range. -/
theorem onShowPage_index : ∃ ms, s.onShowPage.pipe = s.pipe ++ .cleanScreens :: ms ∧
    ∀ m ∈ ms, ∃ u idx, m = .watchRoomUser (some u) idx ∧ idx < MAXIMAL_SCREEN_NUM := by
  refine ⟨_, rfl, ?_⟩
  rw [showRooms_eq]
  refine showUsers_index ?_ _ 0 ?_ fun _ => ?_
  · unfold u32
    omega
  · unfold MAXIMAL_SCREEN_NUM
    omega
  · decide

/-! ## Users are numbered once -/

/-- A user is filed in one room, under one id. -/
theorem usersOf_nodup (hf : Filing s.t.w) {rooms : List NodeRef} (hr : rooms.Nodup) :
    (s.usersOf rooms).Nodup := by
  have hfiled : ∀ {room : NodeRef} {e : Int × UserRef}, e ∈ (s.t.w.rooms room).users.entries →
      (s.t.w.users e.2).titleRoom = room ∧ (s.t.w.users e.2).userId = e.1 := fun {room e} he =>
    (hf.filed room e.1 e.2 ((StdMap.mem_entries_iff _ _ _).mp he)).2
  refine List.nodup_flatMap.mpr ⟨fun room _ => ?_, hr.imp fun hne => ?_⟩
  · -- one room: the ids increase
    refine List.pairwise_map.mpr ((s.t.w.rooms room).users.sorted.imp_of_mem
      fun {e e'} he he' hlt heq => ?_)
    have hid : e.1 = e'.1 := by rw [← (hfiled he).2, ← (hfiled he').2, heq]
    exact absurd hid (ne_of_lt hlt)
  · -- two rooms: a user has one
    intro u hu hu'
    obtain ⟨e, he, rfl⟩ := List.mem_map.mp hu
    obtain ⟨e', he', heq⟩ := List.mem_map.mp hu'
    exact hne (by rw [← (hfiled he).1, ← (hfiled he').1, heq])

end Watch

/-! ## Handling a page -/

/-- The handlers of the messages a page is sent as.
mirrors Monitor/Monitor/MonitorDlg.cpp:464-466,482-484 -/
def onPageMessage (d : MonitorDlg) : Message → Option MonitorDlg
  | .cleanScreens => some d.onCleanScreens
  | .watchRoomUser user idx => d.onWatchRoomUser user idx
  | _ => some d

/-- A user whose room is linked. -/
def Watchable (w : World) (u : UserRef) : Prop :=
  (w.users u).alive = true ∧ (w.rooms (w.users u).titleRoom).proxy ≠ none

instance (w : World) (u : UserRef) : Decidable (Watchable w u) :=
  inferInstanceAs (Decidable (_ ∧ _))

/-- A linked user off every screen takes an idle screen. -/
theorem onWatchRoomUser_idle (d : MonitorDlg) (t : ScreenRef) (u : UserRef) (hl : Watchable d.w u)
    (hs : (d.w.users u).screen = none) (ht : (d.w.screens t).user = none) :
    ∃ d', d.onWatchRoomUser (some u) t.val = some d' ∧
      (∀ t', (d'.w.screens t').user = if t' = t then some u else (d.w.screens t').user) ∧
      ∀ u', u' ≠ u → d'.w.users u' = d.w.users u' ∧ d'.w.rooms = d.w.rooms := by
  obtain ⟨p, hp⟩ := Option.ne_none_iff_exists'.mp hl.2
  have hsend := SameWall.linkRoomUser d.w p (some u)
  have hidx : t.val ≠ INVALID_SCREEN_INDEX := by
    have := t.isLt
    unfold MAXIMAL_SCREEN_NUM at this
    unfold INVALID_SCREEN_INDEX
    omega
  have hlink : d.w.linkScreenUser t.val (some u) =
      some ((d.w.linkRoomUser p (some u)).1.connectUser t (some u)).1 := by
    unfold World.linkScreenUser
    rw [if_neg hidx]
    dsimp only
    rw [hp]
    dsimp only
    rw [dif_pos t.isLt, hs]
    unfold World.takeScreen World.getUser?
    rw [ht]
  refine ⟨{ d with w := ((d.w.linkRoomUser p (some u)).1.connectUser t (some u)).1 }, ?_,
    fun t' => ?_, fun u' hne => ⟨?_, ?_⟩⟩
  · unfold MonitorDlg.onWatchRoomUser
    rw [if_pos ⟨rfl, hidx⟩, hlink]
    rfl
  · dsimp only
    rw [World.connectUser_screens, hsend.screens]
    split <;> rfl
  · dsimp only
    rw [World.connectUser_users, if_neg hne, hsend.users]
  · dsimp only
    rw [World.connectUser_rooms]
    exact World.sendPacket_rooms _ _

/-- The users of a page take the screens one after the other. -/
theorem watchUsers_seated (users : List UserRef) (i : Nat)
    (hi : i + users.length ≤ MAXIMAL_SCREEN_NUM) (hn : users.Nodup) (d : MonitorDlg)
    (hu : ∀ u ∈ users, Watchable d.w u ∧ (d.w.users u).screen = none)
    (ht : ∀ t : ScreenRef, i ≤ t.val → (d.w.screens t).user = none) :
    ∃ d', (users.mapIdx fun j u => .watchRoomUser (some u) (j + i)).foldlM onPageMessage d =
      some d' ∧
      ∀ t : ScreenRef, (d'.w.screens t).user =
        if t.val < i then (d.w.screens t).user else users[t.val - i]? := by
  induction users generalizing i d with
  | nil =>
    refine ⟨d, rfl, fun t => ?_⟩
    split
    · rfl
    · exact ht t (by omega)
  | cons u us ih =>
    obtain ⟨hnot, hn⟩ := List.nodup_cons.mp hn
    rw [List.length_cons] at hi
    obtain ⟨hl, hs⟩ := hu u List.mem_cons_self
    obtain ⟨d₁, hd₁, hshown, hrest⟩ :=
      onWatchRoomUser_idle d ⟨i, by omega⟩ u hl hs (ht _ (Nat.le_refl i))
    have hother : ∀ u' ∈ us, Watchable d₁.w u' ∧ (d₁.w.users u').screen = none := fun u' hu' => by
      obtain ⟨husers, hrooms⟩ := hrest u' fun he => hnot (he ▸ hu')
      rw [Watchable, husers, hrooms]
      exact hu u' (List.mem_cons_of_mem _ hu')
    obtain ⟨d', hd', hd⟩ := ih (i + 1) (by omega) hn d₁ hother fun t hle => by
      rw [hshown, if_neg fun he => by rw [he] at hle; exact absurd hle (by simp)]
      exact ht t (by omega)
    refine ⟨d', ?_, fun t => ?_⟩
    · have hmap : (us.mapIdx fun j u => Message.watchRoomUser (some u) (j + 1 + i)) =
          us.mapIdx fun j u => Message.watchRoomUser (some u) (j + (i + 1)) := by
        refine congrArg (List.mapIdx · us) ?_
        funext j u
        rw [Nat.add_right_comm, Nat.add_assoc]
      rw [List.mapIdx_cons, hmap, List.foldlM_cons, Nat.zero_add, onPageMessage, hd₁]
      exact hd'
    · rw [hd, hshown]
      rcases Nat.lt_trichotomy t.val i with hlt | heq | hgt
      · have hne : t ≠ ⟨i, by omega⟩ := fun he => Nat.ne_of_lt hlt (congrArg Fin.val he)
        rw [if_pos (by omega), if_pos hlt, if_neg hne]
      · rw [if_pos (show t.val < i + 1 by omega), if_pos (Fin.ext heq), if_neg (by omega), heq,
          Nat.sub_self]
        rfl
      · rw [if_neg (by omega), if_neg (by omega), show t.val - i = t.val - (i + 1) + 1 by omega]
        rfl

/-- **A page on the screens.** Whatever they showed, each shows its user of
the page, and the rest are idle. -/
theorem pageMessages_seated {users : List UserRef} (hlen : users.length ≤ MAXIMAL_SCREEN_NUM)
    (hn : users.Nodup) {d : MonitorDlg} (hb : Bij d.w) (hl : ∀ u ∈ users, Watchable d.w u) :
    ∃ d', (Watch.pageMessages users).foldlM onPageMessage d = some d' ∧
      ∀ t : ScreenRef, (d'.w.screens t).user = users[t.val]? := by
  have hb' : Bij d.w.cleanScreens := hb.steps (cleanScreens_steps d.w)
  have hid := cleanScreens_identity d.w
  have hu : ∀ u ∈ users, Watchable d.w.cleanScreens u ∧
    (d.w.cleanScreens.users u).screen = none := by
    intro u hu
    refine ⟨?_, ?_⟩
    · rw [Watchable, hid.alive, hid.titleRoom, cleanScreens_rooms]
      exact hl u hu
    · -- a screen it were on would show it
      cases hs : (d.w.cleanScreens.users u).screen with
      | none => rfl
      | some t =>
        have hshows := (hb'.paired t u ((hid.alive u).trans (hl u hu).1)).mpr hs
        rw [cleanScreens_idle] at hshows
        cases hshows
  obtain ⟨d', hd', hd⟩ := watchUsers_seated users 0 (by omega) hn d.onCleanScreens hu
    fun t _ => cleanScreens_idle d.w t
  exact ⟨d', hd', fun t => by rw [hd, if_neg (Nat.not_lt_zero _), Nat.sub_zero]⟩

/-! ## The partition -/

namespace Watch

/-- **Paging.** For a set of rooms with fewer than 2^32 users, page `p` is
sent as the users numbered from `15 * (p - 1)` on, with their places on the
page as indices; the pages together are every user once; whatever number the
page has, an index sent is that of a screen; and when the messages of a page
are handled in order, the screens show it and nothing else. -/
theorem paging_partition {s : Watch} (hr : wallSys.Reachable s.t.w) (hrooms : s.list.rooms.Nodup)
    (hn : s.numbered.length < 4294967296) :
    (∀ p, 1 ≤ p → p ≤ s.pageCount →
      (s.setPage p).onShowPage.pipe = s.pipe ++ pageMessages (s.pageUsers p)) ∧
    s.numbered.Nodup ∧
    (List.range s.pageCount).flatMap (fun p => s.pageUsers (p + 1)) = s.numbered ∧
    (∀ page, ∃ ms, (s.setPage page).onShowPage.pipe = s.pipe ++ .cleanScreens :: ms ∧
      ∀ m ∈ ms, ∃ u idx, m = .watchRoomUser (some u) idx ∧ idx < MAXIMAL_SCREEN_NUM) ∧
    ∀ p, 1 ≤ p → p ≤ s.pageCount → ∀ d : MonitorDlg, wallSys.Reachable d.w →
      (∀ u ∈ s.pageUsers p, Watchable d.w u) → ∃ d',
      (pageMessages (s.pageUsers p)).foldlM onPageMessage d = some d' ∧
        ∀ t : ScreenRef, (d'.w.screens t).user = (s.pageUsers p)[t.val]? := by
  have hnodup := s.usersOf_nodup (bij_inductive.reachable _ hr).toFiling hrooms
  refine ⟨fun p => s.onShowPage_page hn, hnodup, ?_,
    fun page => (s.setPage page).onShowPage_index, ?_⟩
  · rw [pageCount_numbered s hn]
    exact flatMap_page (by decide)
  · intro p _ _ d hd hl
    exact pageMessages_seated (length_page_le _) (hnodup.sublist (page_sublist _))
      (bij_inductive.reachable _ hd) hl

/-! ## Two pages -/

/-- The rooms 0, 1 and 2 of `w` are watched. -/
def watching (w : World) : Watch where
  t := { nodes := fun n => ⟨.titleRoom, n, "", n, 0, .empty, [], none, true⟩
         nextNode := 3, memory := fun _ => none, w := w }
  list := ⟨some 0, some 0, true, 0, [0, 1, 2], []⟩
  pipe := []
  calls := []

/-- Ten users in one room, none in the next, seven in the third. -/
def seventeen : List WallOp :=
  (List.range 10).map (fun i => .addUser 0 i 1) ++ (List.range 7).map fun i =>
  .addUser 2 (100 + i) 1

def secondPage : List Message :=
  [.cleanScreens, .watchRoomUser (some 15) 0, .watchRoomUser (some 16) 1]

/-- The second page begins inside the third room. -/
theorem paging_partition_seventeen : ∃ w, wallSys.Reachable w ∧ (watching w).pageCount = 2 ∧
    ((watching w).setPage 2).onShowPage.pipe = secondPage ∧
    ∃ d', secondPage.foldlM onPageMessage ⟨w, false, none⟩ = some d' ∧
      ∀ t : ScreenRef, (d'.w.screens t).user = [15, 16][t.val]? := by
  obtain ⟨w, hr, hp⟩ := LTS.exists_reachable_of_exec World.Launched World.wallStep seventeen
    (fun w => (watching w).pageCount == 2 && (watching w).numbered == List.range 17 &&
      [15, 16].all fun u => decide (Watchable w u)) World.launched_launched (by decide +kernel)
  simp only [Bool.and_eq_true, beq_iff_eq, List.all_eq_true, decide_eq_true_eq] at hp
  obtain ⟨⟨hcount, hnum⟩, hl⟩ := hp
  have hrooms : (watching w).list.rooms.Nodup := show [0, 1, 2].Nodup by decide
  have hpage : (watching w).pageUsers 2 = [15, 16] := by
    rw [pageUsers, hnum]
    decide
  obtain ⟨hshow, -, -, -, hscreens⟩ :=
    paging_partition (s := watching w) hr hrooms (by rw [hnum]; decide)
  have hsent := hshow 2 (by decide) (by rw [hcount])
  obtain ⟨d', hd', hd⟩ :=
    hscreens 2 (by decide) (by rw [hcount]) ⟨w, false, none⟩ hr (by rw [hpage]; exact hl)
  rw [hpage] at hsent hd' hd
  exact ⟨w, hr, hcount, hsent, d', hd', hd⟩

end Watch
end MonitorAgent.L4
