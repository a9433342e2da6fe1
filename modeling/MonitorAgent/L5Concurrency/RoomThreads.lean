import MonitorAgent.L4Session.Subscriptions
import MonitorAgent.L5Concurrency.NodeThreads

/-!
# A thread in a room goes on

Every step of `AddUser` and `DelUser` keeps the items of all rooms in order
(`Tidy`), and so does whoever changes the seats of users.

* `inv_inductive`: so the threads in the rooms and at the nodes keep `Inv`.
-/
namespace MonitorAgent.L5.RoomCalls

open MonitorAgent.L3 MonitorAgent.L4 LTS

theorem bij_fileUser {w : World} (h : Bij w) (r : RoomRef) (userId : Int) (micId : Nat) :
    Bij (fileUser w r userId micId) := by
  refine (h.create r userId micId).ofRooms rfl rfl rfl fun r' k u hf => ?_
  rw [World.newUser_find?]
  rw [fileUser_rooms] at hf
  split at hf
  · rename_i he
    rw [StdMap.find?_assign] at hf
    split at hf
    · rename_i hk
      rw [if_pos ⟨he, hk⟩]
      exact hf
    · rename_i hk
      rw [if_neg fun hc => hk hc.2, he]
      exact hf
  · rename_i he
    rw [if_neg fun hc => he hc.1]
    exact hf

/-- A user that is nobody's any more is deleted. -/
theorem bij_forget {w : World} (h : Bij w) {u : UserRef} (hs : (w.users u).screen = none)
    (hf : ∀ r, ¬ Filed (w.rooms r).users u) :
    Bij (w.modifyUser u fun y => { y with alive := false }) := by
  have hne : ∀ v, ((w.modifyUser u fun y => { y with alive := false }).users v).alive = true →
      v ≠ u ∧ (w.modifyUser u fun y => { y with alive := false }).users v = w.users v := by
    intro v ha
    rw [World.modifyUser_users] at *
    split at ha
    · cases ha
    · rename_i hv
      exact ⟨hv, if_neg hv⟩
  have hkeep : ∀ v, (w.users v).alive = true → v ≠ u →
      (w.modifyUser u fun y => { y with alive := false }).users v = w.users v := by
    intro v _ hv
    rw [World.modifyUser_users, if_neg hv]
  refine ⟨⟨fun s v ha => ?_, fun s v ha => ?_, fun v ha => ?_, h.active, fun s v he => ?_⟩,
    ⟨h.index, fun r k v hfv => ?_, fun v ha => ?_⟩⟩
  · obtain ⟨-, e⟩ := hne v ha
    rw [e] at ha ⊢
    exact h.paired s v ha
  · obtain ⟨-, e⟩ := hne v ha
    rw [e] at ha ⊢
    exact h.idx s v ha
  · obtain ⟨-, e⟩ := hne v ha
    rw [e] at ha ⊢
    exact h.noIdx v ha
  · have hv := h.shows s v he
    rw [hkeep v hv]
    · exact hv
    · rintro rfl
      rw [World.modifyUser_screens, h.paired s v hv, hs] at he
      cases he
  · have hv := h.filed r k v hfv
    rw [hkeep v hv.1]
    · exact hv
    · rintro rfl
      exact hf r ⟨k, hfv⟩
  · obtain ⟨-, e⟩ := hne v ha
    rw [e] at ha
    exact h.fresh v ha

/-- Users change seats, the rooms stay. -/
theorem seat_same {w w' : World} {op : WallOp} (hop : seats op = true)
    (hs : w.wallStep op = some w') : SameIdentity w w' ∧ w'.rooms = w.rooms := by
  have hre : ∀ {w'}, Reseats w w' → SameIdentity w w' ∧ w'.rooms = w.rooms :=
    fun h => ⟨h.toSameIdentity, h.rooms⟩
  cases op
  case linkScreenUser idx u =>
    simp only [World.wallStep] at hs
    split at hs
    · exact hre (Reseats.seatFrame.linkScreenUser w hs)
    · cases hs
  case unlinkScreenUser s u =>
    simp only [World.wallStep] at hs
    split at hs
    · cases hs
      exact hre (Reseats.seatFrame.unlinkScreenUser w _ _)
    · cases hs
  case connectUser s u =>
    simp only [World.wallStep] at hs
    split at hs
    · cases hs
      exact hre (Reseats.connectUser w s u)
    · cases hs
  case disconnectUser s =>
    cases hs
    exact hre (Reseats.disconnectUser w s)
  case cleanScreens =>
    cases hs
    exact hre (Reseats.seatFrame.cleanScreens w)
  case modUser u a v =>
    obtain ⟨-, rfl⟩ := wallStep_modUser hs
    exact ⟨.modMedia w u a v, World.modMedia_rooms w u a v⟩
  all_goals cases hop

namespace Tidy

variable {x : St} (h : Tidy x.pc x.s.t) {r : RoomRef}
include h

/-- A thread in one room changes that room, and users of its own. -/
theorem inRoom {w : World} {pc : Pc} (hr : RoomExists x.s.t r) (hb : Bij w)
    (hrooms : ∀ r', r' ≠ r → (w.rooms r').users = (x.s.t.w.rooms r').users ∧
      (w.rooms r').items = (x.s.t.w.rooms r').items)
    (hi : Items (w.rooms r).users (w.rooms r).items pc)
    (hothers : ∀ r' u, r' ≠ r → x.pc r' = .deleting u ∨ x.pc r' = .deleted u →
      (w.users u).alive = true ∧ (w.users u).titleRoom = r' ∧ ¬ Filed (w.rooms r).users u)
    (hown : ∀ u, pc = .deleting u ∨ pc = .deleted u →
      (w.users u).alive = true ∧ (w.users u).titleRoom = r ∧
        ∀ r', ¬ Filed (w.rooms r').users u) :
    Tidy ((x.setWall w).goto r pc).pc ((x.setWall w).goto r pc).s.t := by
  have hpc : ∀ r', ((x.setWall w).goto r pc).pc r' = if r' = r then pc else x.pc r' :=
    fun r' => Function.update_apply ..
  refine ⟨h.tree.wall w, hb, fun r' hr' => ?_, fun r' hlt hty => ?_, fun r' u hu => ?_⟩
  · rw [hpc] at hr'
    split at hr'
    · rename_i he
      exact he ▸ hr
    · exact h.locked r' hr'
  · rw [hpc]
    by_cases he : r' = r
    · rw [if_pos he, he]
      exact hi
    · rw [if_neg he]
      have hold := h.rooms r' hlt hty
      rw [← (hrooms r' he).1, ← (hrooms r' he).2] at hold
      exact hold
  · rw [hpc] at hu
    by_cases he : r' = r
    · rw [if_pos he] at hu
      rw [he]
      exact hown u hu
    · rw [if_neg he] at hu
      obtain ⟨ha, ht, hf⟩ := hothers r' u he hu
      refine ⟨ha, ht, fun r'' => ?_⟩
      by_cases hr'' : r'' = r
      · rw [hr'']
        exact hf
      · have hold := (h.leaving r' u hu).2.2 r''
        rw [← (hrooms r'' hr'').1] at hold
        exact hold

/-- Nothing but the place of the thread. -/
theorem goto {pc : Pc} (hr : RoomExists x.s.t r)
    (hi : Items (x.s.t.w.rooms r).users (x.s.t.w.rooms r).items pc)
    (hown : ∀ u, ¬ (pc = .deleting u ∨ pc = .deleted u)) :
    Tidy (x.goto r pc).pc (x.goto r pc).s.t :=
  h.inRoom hr h.bij (fun _ _ => ⟨rfl, rfl⟩) hi
    (fun r' u _ hu => ⟨(h.leaving r' u hu).1, (h.leaving r' u hu).2.1, (h.leaving r' u hu).2.2 r⟩)
    fun u hu => absurd hu (hown u)

/-- The room's items change, or it loses users, and nothing else. -/
theorem edit {f : TitleRoom → TitleRoom} {pc : Pc} (hr : RoomExists x.s.t r)
    (hsub : ∀ u, Filed (f (x.s.t.w.rooms r)).users u → Filed (x.s.t.w.rooms r).users u)
    (hb : Bij (x.s.t.w.modifyRoom r f))
    (hi : Items (f (x.s.t.w.rooms r)).users (f (x.s.t.w.rooms r)).items pc)
    (hown : ∀ u, pc = .deleting u ∨ pc = .deleted u →
      (x.s.t.w.users u).alive = true ∧ (x.s.t.w.users u).titleRoom = r ∧
        ∀ r', ¬ Filed ((x.s.t.w.modifyRoom r f).rooms r').users u) :
    Tidy ((x.setWall (x.s.t.w.modifyRoom r f)).goto r pc).pc
      ((x.setWall (x.s.t.w.modifyRoom r f)).goto r pc).s.t := by
  have hself : (x.s.t.w.modifyRoom r f).rooms r = f (x.s.t.w.rooms r) := by
    rw [World.modifyRoom_rooms, if_pos rfl]
  refine h.inRoom hr hb (fun r' hr' => ?_) (by rw [hself]; exact hi) (fun r' u _ hu => ?_) hown
  · rw [World.modifyRoom_rooms, if_neg hr']
    exact ⟨rfl, rfl⟩
  · obtain ⟨ha, ht, hf⟩ := h.leaving r' u hu
    refine ⟨ha, ht, ?_⟩
    rw [hself]
    exact fun hfu => hf r (hsub u hfu)

/-- The items change. -/
theorem editItems {g : List (Option UserRef) → List (Option UserRef)} {pc : Pc}
    (hr : RoomExists x.s.t r)
    (hi : Items (x.s.t.w.rooms r).users (g (x.s.t.w.rooms r).items) pc)
    (hown : ∀ u, pc = .deleting u ∨ pc = .deleted u →
      x.pc r = .deleting u ∨ x.pc r = .deleted u) :
    Tidy ((x.setWall (x.s.t.w.modifyRoom r fun y => { y with items := g y.items })).goto r pc).pc
      ((x.setWall (x.s.t.w.modifyRoom r fun y => { y with items := g y.items })).goto
        r pc).s.t := by
  have husers : ∀ r',
    ((x.s.t.w.modifyRoom r fun y => { y with items := g y.items }).rooms r').users =
      (x.s.t.w.rooms r').users := by
    intro r'
    rw [World.modifyRoom_rooms]
    split
    · rename_i he
      rw [he]
    · rfl
  refine h.edit hr (fun _ hf => hf) (h.bij.ofRooms rfl rfl rfl fun r' k u hf =>
    ?_) hi fun u hu => ?_
  · rw [husers] at hf
    exact hf
  · obtain ⟨ha, ht, hf⟩ := h.leaving r u (hown u hu)
    refine ⟨ha, ht, fun r' => ?_⟩
    rw [husers]
    exact hf r'

theorem findUser (hr : RoomExists x.s.t r) (userId : Int) (micId : Nat)
    (hfound : ∀ u, (x.s.t.w.rooms r).users.find? userId = some u →
      Items (x.s.t.w.rooms r).users (x.s.t.w.rooms r).items .unlocked)
    (hone : ∀ v, (x.s.t.w.rooms r).items.count (some v) ≤ 1)
    (huser : ∀ v, some v ∈ (x.s.t.w.rooms r).items ↔ Filed (x.s.t.w.rooms r).users v)
    (hnone : none ∉ (x.s.t.w.rooms r).items) :
    Tidy (x.findUser r userId micId).pc (x.findUser r userId micId).s.t := by
  unfold St.findUser
  cases hf : (x.s.t.w.rooms r).users.find? userId with
  | some u =>
    have hsame : ∀ v, ((x.s.t.w.modifyUser u fun y => { y with micId := micId }).users v).alive =
        (x.s.t.w.users v).alive ∧
        ((x.s.t.w.modifyUser u fun y => { y with micId := micId }).users v).titleRoom =
        (x.s.t.w.users v).titleRoom := by
      intro v
      rw [World.modifyUser_users]
      split
      · rename_i he
        rw [he]
        exact ⟨rfl, rfl⟩
      · exact ⟨rfl, rfl⟩
    simp only [hf]
    refine h.inRoom hr (h.bij.step (.micId _ u micId)) (fun _ _ => ⟨rfl, rfl⟩) (hfound u hf)
      (fun r' v _ hv => ?_) fun v hv => ?_
    · obtain ⟨ha, ht, hn⟩ := h.leaving r' v hv
      exact ⟨(hsame v).1.trans ha, (hsame v).2.trans ht, hn r⟩
    · rcases hv with hv | hv <;> cases hv
  | none =>
    have hrooms := fileUser_rooms x.s.t.w r userId micId
    have hnew : ¬ Filed (x.s.t.w.rooms r).users x.s.t.w.nextUser := by
      intro ⟨k, hk⟩
      exact Nat.lt_irrefl _ (h.bij.fresh _ (h.bij.filed r k _ hk).1)
    simp only [hf]
    refine h.inRoom hr (bij_fileUser h.bij r userId micId) (fun r' hr' => ?_) ?_
      (fun r' u _ hu => ?_) fun u hu => ?_
    · rw [hrooms, if_neg hr']
      exact ⟨rfl, rfl⟩
    · rw [hrooms, if_pos rfl]
      exact .file hone huser hnone hf hnew
    · obtain ⟨ha, ht, hn⟩ := h.leaving r' u hu
      have hne : u ≠ x.s.t.w.nextUser := Nat.ne_of_lt (h.bij.fresh u ha)
      rw [fileUser_users, if_neg hne, hrooms, if_pos rfl, filed_assign hf]
      refine ⟨ha, ht, ?_⟩
      intro hfiled
      exact hn r (hfiled.resolve_left hne)
    · rcases hu with hu | hu <;> cases hu

theorem addUser (hr : RoomExists x.s.t r) (hpc : x.pc r = .unlocked) (userId : Int) (micId : Nat) :
    Tidy (x.addUser r userId micId).pc (x.addUser r userId micId).s.t := by
  have hi := h.rooms r (h.tree.inUse r hr.1) hr.2
  rw [hpc] at hi
  unfold St.addUser
  split
  · rename_i he
    refine h.goto hr (hi.clear he userId micId) fun u hu => ?_
    rcases hu with hu | hu <;> cases hu
  · rename_i he
    exact h.findUser hr userId micId (fun _ _ => hi) hi.once hi.user fun hn => he (hi.stage.mp hn)

theorem delUser (hr : RoomExists x.s.t r) (hpc : x.pc r = .unlocked) (userId : Int) :
    Tidy (x.delUser r userId).pc (x.delUser r userId).s.t := by
  have hi := h.rooms r (h.tree.inUse r hr.1) hr.2
  rw [hpc] at hi
  unfold St.delUser
  cases hf : (x.s.t.w.rooms r).users.find? userId with
  | some u =>
    have herased := hi.erase hf fun k' hk => filed_once h.bij hf hk
    have hself : (x.s.t.w.modifyRoom r fun y => { y with users := y.users.erase userId }).rooms r =
        { x.s.t.w.rooms r with users := (x.s.t.w.rooms r).users.erase userId } := by
      rw [World.modifyRoom_rooms, if_pos rfl]
    have hsub : ∀ k v, ((x.s.t.w.rooms r).users.erase userId).find? k = some v →
        (x.s.t.w.rooms r).users.find? k = some v := by
      intro k v hk
      rw [StdMap.find?_erase] at hk
      split at hk
      · cases hk
      · exact hk
    have hfewer : ∀ r' k v,
        ((x.s.t.w.modifyRoom r fun y =>
          { y with users := y.users.erase userId }).rooms r').users.find? k = some v →
        (x.s.t.w.rooms r').users.find? k = some v := by
      intro r' k v hk
      rw [World.modifyRoom_rooms] at hk
      split at hk
      · rename_i he
        rw [he]
        exact hsub k v hk
      · exact hk
    simp only [hf]
    refine h.edit hr (fun v hv => ?_) (h.bij.ofRooms rfl rfl rfl hfewer) herased fun v hv => ?_
    · obtain ⟨k, hk⟩ := hv
      exact ⟨k, hsub k v hk⟩
    · obtain rfl : v = u := by
        rcases hv with hv | hv <;> cases hv
        rfl
      obtain ⟨ha, ht, -⟩ := h.bij.filed r userId v hf
      refine ⟨ha, ht, fun r' => ?_⟩
      intro ⟨k, hk⟩
      by_cases he : r' = r
      · subst he
        rw [hself] at hk
        exact herased.stage.2 ⟨k, hk⟩
      · exact he ((h.bij.filed r' k v (hfewer r' k v hk)).2.1.symm.trans ht)
  | none =>
    simp only [hf]
    refine h.goto hr hi.missing fun u hu => ?_
    rcases hu with hu | hu <;> cases hu

/-- The screen of the user lets go of it first. -/
theorem release {u : UserRef} (hr : RoomExists x.s.t r) (hpc : x.pc r = .deleted u)
    (hi : Items (x.s.t.w.rooms r).users (x.s.t.w.rooms r).items (.deleted u)) :
    Tidy ((x.release u).goto r (.adding true)).pc ((x.release u).goto r (.adding true)).s.t := by
  obtain ⟨hu, -, hf⟩ := h.leaving r u (.inr hpc)
  obtain ⟨w, hw, hb, hid, hrooms, hs⟩ : ∃ w, x.release u =
      x.setWall (w.modifyUser u fun y => { y with alive := false }) ∧ Bij w ∧
      SameIdentity x.s.t.w w ∧ w.rooms = x.s.t.w.rooms ∧ (w.users u).screen = none := by
    cases hs : (x.s.t.w.users u).screen with
    | none => exact ⟨x.s.t.w, by simp only [St.release, hs], h.bij, .refl _, rfl, hs⟩
    | some s =>
      have hshown := (h.bij.paired s u hu).mpr hs
      refine ⟨(x.s.t.w.disconnectUser s).1, by simp only [St.release, hs],
        h.bij.step (.disconnect _ s u hshown), .disconnect _ s u hshown,
        World.disconnectUser_rooms _ s, ?_⟩
      rw [World.disconnectUser_users _ s u hshown, if_pos rfl]
  have hforget := bij_forget hb hs (by rw [hrooms]; exact hf)
  rw [hw]
  refine h.inRoom hr hforget (fun r' _ => ?_) ?_ (fun r' v hr' hv => ?_) fun v hv => ?_
  · rw [World.modifyUser_rooms, hrooms]
    exact ⟨rfl, rfl⟩
  · rw [World.modifyUser_rooms, hrooms]
    exact hi.release
  · obtain ⟨ha, ht, hn⟩ := h.leaving r' v hv
    -- the two are of different rooms
    have hne : v ≠ u := by
      rintro rfl
      exact hr' (ht.symm.trans (h.leaving r v (.inr hpc)).2.1)
    rw [World.modifyUser_users, if_neg hne, World.modifyUser_rooms, hrooms]
    exact ⟨(hid.alive v).trans ha, (hid.titleRoom v).trans ht, hn r⟩
  · rcases hv with hv | hv <;> cases hv

theorem advance {x' : St} (hs : x.advance r = some x') : Tidy x'.pc x'.s.t := by
  have hpc : x.pc r ≠ .unlocked := by
    intro hpc
    simp only [St.advance, hpc] at hs
    cases hs
  have hr := h.locked r hpc
  have hi := h.rooms r (h.tree.inUse r hr.1) hr.2
  unfold St.advance at hs
  cases hcase : x.pc r with
  | new =>
    simp only [hcase] at hs
    cases hs
  | unlocked => exact absurd hcase hpc
  | delAll userId micId =>
    rw [hcase] at hi
    have hnobody := not_filed_iff.mp hi.stage
    simp only [hcase] at hs
    cases hitems : (x.s.t.w.rooms r).items with
    | nil =>
      simp only [hitems, Option.some.injEq] at hs
      subst hs
      refine h.findUser hr userId micId (fun u hf => absurd ⟨userId, hf⟩ (hnobody u)) hi.once
        hi.user ?_
      rw [hitems]
      exact List.not_mem_nil
    | cons i items =>
      simp only [hitems, Option.some.injEq] at hs
      subst hs
      rw [hitems] at hi
      have hgo := h.editItems (g := fun _ => items) hr hi.tail fun u hu => by
        rcases hu with hu | hu <;> cases hu
      have hself := St.goto_self
        (x.setWall (x.s.t.w.modifyRoom r fun y => { y with items := items })) hcase
      rw [hself] at hgo
      exact hgo
  | inserting u =>
    rw [hcase] at hi
    simp only [hcase, Option.some.injEq] at hs
    subst hs
    refine h.editItems (g := fun items => items ++ [some u]) hr hi.insert fun v hv => ?_
    rcases hv with hv | hv <;> cases hv
  | deleting u =>
    rw [hcase] at hi
    simp only [hcase, Option.some.injEq] at hs
    subst hs
    refine h.editItems (g := fun items => items.erase (some u)) hr hi.remove fun v hv => ?_
    rcases hv with hv | hv <;> cases hv
    exact .inl hcase
  | deleted u =>
    rw [hcase] at hi
    simp only [hcase, Option.some.injEq] at hs
    subst hs
    exact h.release hr hcase hi
  | adding found =>
    rw [hcase] at hi
    have hback := hi.restore
    simp only [hcase, Option.some.injEq] at hs
    subst hs
    split
    · rename_i he
      rw [if_pos he] at hback
      refine h.editItems (g := fun items => items ++ [none]) hr hback fun v hv => ?_
      rcases hv with hv | hv <;> cases hv
    · rename_i he
      rw [if_neg he] at hback
      refine h.goto hr hback fun v hv => ?_
      rcases hv with hv | hv <;> cases hv

/-- Users change seats. -/
theorem seat {w : World} {op : WallOp} (hop : seats op = true)
    (hs : x.s.t.w.wallStep op = some w) : Tidy (x.setWall w).pc (x.setWall w).s.t := by
  have hb : Bij w := bij_inductive.step x.s.t.w op w h.bij hs
  obtain ⟨hid, hrooms⟩ := seat_same hop hs
  refine ⟨h.tree.wall w, hb, h.locked, fun r hlt hty => ?_, fun r u hu => ?_⟩
  · change Items (w.rooms r).users (w.rooms r).items (x.pc r)
    rw [hrooms]
    exact h.rooms r hlt hty
  · obtain ⟨ha, ht, hf⟩ := h.leaving r u hu
    refine ⟨(hid.alive u).trans ha, (hid.titleRoom u).trans ht, fun r' => ?_⟩
    change ¬ Filed (w.rooms r').users u
    rw [hrooms]
    exact hf r'

end Tidy

/-! ## The nodes meanwhile -/

/-- Threads in rooms change neither the nodes nor the threads at them. -/
theorem Inv.inRooms {x x' : St} (h : Inv x) (htidy : Tidy x'.pc x'.s.t)
    (hnodes : x'.s.t.nodes = x.s.t.nodes) (hnext : x'.s.t.nextNode = x.s.t.nextNode)
    (hitems : x'.s.items = x.s.items) (hexp : x'.expanding = x.expanding)
    (hpc : ∀ n, x.pc n = .new → x'.pc n = .new) : Inv x' where
  tidy := htidy
  thread n := by
    rw [hexp]
    refine (h.thread n).congr (by rw [hnodes]) (fun hi => ?_) (hpc n) fun child _ => by rw [hexp]
    rw [hnodes]
    exact (h.thread n).alive hi
  branch n hlt hty := by
    rw [hnodes] at hty ⊢
    rw [hexp, hitems]
    exact h.branch n (hnext ▸ hlt) hty

/-- A step in a room changes the wall, and where the thread is. -/
def InRoom (x x' : St) : Prop :=
  ∃ w r pc, x' = (x.setWall w).goto r pc ∧ x.pc r ≠ .new

theorem InRoom.inv {x x' : St} (hx : InRoom x x') (h : Inv x) (htidy : Tidy x'.pc x'.s.t) :
    Inv x' := by
  obtain ⟨w, r, pc, rfl, hr⟩ := hx
  refine h.inRooms htidy rfl rfl rfl rfl fun n hn => ?_
  have hne : n ≠ r := by
    rintro rfl
    exact hr hn
  exact (Function.update_of_ne hne _ _).trans hn

theorem findUser_inRoom (x : St) {r : RoomRef} (hr : x.pc r ≠ .new) (userId : Int) (micId : Nat) :
    InRoom x (x.findUser r userId micId) := by
  unfold St.findUser
  dsimp only
  split <;> exact ⟨_, r, _, rfl, hr⟩

theorem addUser_inRoom (x : St) {r : RoomRef} (hr : x.pc r ≠ .new) (userId : Int) (micId : Nat) :
    InRoom x (x.addUser r userId micId) := by
  unfold St.addUser
  split
  · exact ⟨x.s.t.w, r, _, rfl, hr⟩
  · exact findUser_inRoom x hr userId micId

theorem delUser_inRoom (x : St) {r : RoomRef} (hr : x.pc r ≠ .new) (userId : Int) :
    InRoom x (x.delUser r userId) := by
  unfold St.delUser
  dsimp only
  split
  · exact ⟨_, r, _, rfl, hr⟩
  · exact ⟨x.s.t.w, r, _, rfl, hr⟩

theorem advance_inRoom {x x' : St} {r : RoomRef} (hs : x.advance r = some x') : InRoom x x' := by
  unfold St.advance at hs
  cases hpc : x.pc r with
  | new | unlocked =>
    rw [hpc] at hs
    cases hs
  | delAll userId micId =>
    have hr : x.pc r ≠ .new := by rw [hpc]; nofun
    rw [hpc] at hs
    dsimp only at hs
    split at hs
    · rename_i items _
      cases hs
      have hself := St.goto_self
        (x.setWall (x.s.t.w.modifyRoom r fun y => { y with items := items })) hpc
      exact ⟨_, r, _, hself.symm, hr⟩
    · cases hs
      exact findUser_inRoom x hr userId micId
  | inserting u =>
    rw [hpc] at hs
    cases hs
    exact ⟨_, r, _, rfl, by rw [hpc]; nofun⟩
  | deleting u =>
    rw [hpc] at hs
    cases hs
    exact ⟨_, r, _, rfl, by rw [hpc]; nofun⟩
  | deleted u =>
    rw [hpc] at hs
    cases hs
    exact ⟨_, r, _, rfl, by rw [hpc]; nofun⟩
  | adding found =>
    rw [hpc] at hs
    cases hs
    split
    · exact ⟨_, r, _, rfl, by rw [hpc]; nofun⟩
    · exact ⟨x.s.t.w, r, _, rfl, by rw [hpc]; nofun⟩

/-! ## Runs -/

theorem Inv.launched {x : St} (h : x.Launched) : Inv x where
  tidy := by
    refine ⟨h.items.tree, .launched h.world, fun r hr => absurd (h.pc r) hr,
      fun r _ hty => absurd hty (h.nodes r), fun r u hu => ?_⟩
    rw [h.pc] at hu
    rcases hu with hu | hu <;> cases hu
  thread n := by
    rw [h.expanding]
    trivial
  branch n _ _ := by
    rw [h.expanding, h.items.items]
    exact ⟨iff_of_false nofun id, trivial⟩

theorem Inv.step {x x' : St} (h : Inv x) {a : Act} (hs : x.step a = some x') : Inv x' := by
  cases a with
  | addUser r userId micId =>
    simp only [St.step] at hs
    split at hs
    · rename_i hc
      cases hs
      exact (addUser_inRoom x (by rw [hc.2]; nofun) userId micId).inv h
        (h.tidy.addUser hc.1 hc.2 userId micId)
    · cases hs
  | delUser r userId =>
    simp only [St.step] at hs
    split at hs
    · rename_i hc
      cases hs
      exact (delUser_inRoom x (by rw [hc.2]; nofun) userId).inv h (h.tidy.delUser hc.1 hc.2 userId)
    · cases hs
  | advance r => exact (advance_inRoom hs).inv h (h.tidy.advance hs)
  | expand n =>
    simp only [St.step] at hs
    split at hs
    · rename_i hc
      cases hs
      exact h.expand ⟨hc.1, hc.2.1⟩ hc.2.2
    · cases hs
  | answer n response => exact h.answer hs
  | proceed n =>
    obtain ⟨hs, hspares⟩ := Option.filter_eq_some_iff.mp hs
    exact h.proceed hs (of_decide_eq_true hspares)
  | seat op =>
    simp only [St.step] at hs
    split at hs
    · rename_i hop
      obtain ⟨w, hw, rfl⟩ := Option.map_eq_some_iff.mp hs
      exact h.inRooms (h.tidy.seat hop hw) rfl rfl rfl rfl fun _ => id
    · cases hs

theorem inv_inductive : sys.Inductive Inv where
  init _ := Inv.launched
  step _ _ _ h hs := h.step hs

end MonitorAgent.L5.RoomCalls
