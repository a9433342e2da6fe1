import MonitorAgent.L5Concurrency.RoomThreads

/-!
# Undisturbed calls

With nothing in between, the calls of one thread do what the functions do in
the models that take them whole.

* `addUser_run`, `delUser_run`: so `AddUser` and `DelUser` change the wall.
* `onItemExpanded_run`: so `OnItemExpanded` changes the tree and its items.
-/
namespace MonitorAgent.L5.RoomCalls

open MonitorAgent.L3 MonitorAgent.L4 LTS

/-! ## Rooms -/

/-- Steps of one call in the room. -/
def OfCall (first : Act) (r : RoomRef) (ms : List (Move St Act)) : Prop :=
  ∀ m ∈ ms, m.lbl = first ∨ m.lbl = .advance r

namespace OfCall

variable {first : Act} {r : RoomRef} {ms ms' : List (Move St Act)}

theorem nil (first : Act) (r : RoomRef) : OfCall first r [] := fun _ hm => nomatch hm

theorem start {x x' : St} (h : OfCall first r ms) : OfCall first r (⟨x, first, x'⟩ :: ms) :=
  List.forall_mem_cons.mpr ⟨.inl rfl, h⟩

theorem next {x x' : St} (h : OfCall first r ms) : OfCall first r (⟨x, .advance r, x'⟩ :: ms) :=
  List.forall_mem_cons.mpr ⟨.inr rfl, h⟩

theorem append (h : OfCall first r ms) (h' : OfCall first r ms') : OfCall first r (ms ++ ms') :=
  List.forall_mem_append.mpr ⟨h, h'⟩

end OfCall

theorem modifyRoom_twice (w : World) (r : RoomRef) (f g : TitleRoom → TitleRoom) :
    (w.modifyRoom r f).modifyRoom r g = w.modifyRoom r fun y => g (f y) := by
  simp only [World.modifyRoom, Function.update_self, Function.update_idem]

theorem modifyRoom_same (w : World) (r : RoomRef) {f : TitleRoom → TitleRoom}
    (h : f (w.rooms r) = w.rooms r) : w.modifyRoom r f = w := by
  simp only [World.modifyRoom, h, Function.update_eq_self]

namespace St

variable {x : St} {r : RoomRef}

/-- Only the last place of the thread counts. -/
theorem goto_twice (x : St) (r : RoomRef) (w : World) (pc pc' : Pc) :
    ((x.goto r pc).setWall w).goto r pc' = (x.setWall w).goto r pc' := by
  simp only [goto, setWall, Function.update_idem]

/-- The thread leaves the room. -/
theorem leave (hpc : x.pc r = .unlocked) (w : World) (pc : Pc) :
    ((x.goto r pc).setWall w).goto r .unlocked = x.setWall w := by
  rw [goto_twice]
  exact goto_self (x.setWall w) hpc

theorem step_advance {x' : St} (h : x.advance r = some x') : sys.step x (.advance r) x' := h

theorem findUser_goto (x : St) (r : RoomRef) (pc : Pc) (w : World) (userId : Int) (micId : Nat) :
    ((x.goto r pc).setWall w).findUser r userId micId = (x.setWall w).findUser r userId micId := by
  unfold findUser
  cases hf : (w.rooms r).users.find? userId <;>
    simp only [goto, setWall, hf, Function.update_idem]

/-- `DelAll` goes through all items. -/
theorem clear_run (first : Act) {userId : Int} {micId : Nat} (items : List (Option UserRef)) :
    ∀ x : St, x.pc r = .delAll userId micId → (x.s.t.w.rooms r).items = items →
      ∃ ms, sys.Run x ms (x.setWall (x.s.t.w.delAll r)) ∧ OfCall first r ms := by
  induction items with
  | nil =>
    intro x _ hi
    have hsame : x.s.t.w.delAll r = x.s.t.w := by
      refine modifyRoom_same _ r ?_
      rw [← hi]
    rw [hsame]
    exact ⟨[], .nil x, .nil first r⟩
  | cons i items ih =>
    intro x hpc hi
    have hstep : x.advance r =
        some (x.setWall (x.s.t.w.modifyRoom r fun y => { y with items := items })) := by
      simp only [advance, hpc, hi]
    have hrest : ((x.s.t.w.modifyRoom r fun y => { y with items := items }).rooms r).items =
        items := by
      rw [World.modifyRoom_rooms, if_pos rfl]
    obtain ⟨ms, hrun, hms⟩ :=
      ih (x.setWall (x.s.t.w.modifyRoom r fun y => { y with items := items })) hpc hrest
    have hend :
        (x.setWall (x.s.t.w.modifyRoom r fun y => { y with items := items })).s.t.w.delAll r =
        x.s.t.w.delAll r :=
      modifyRoom_twice x.s.t.w r (fun y => { y with items := items }) fun y =>
        { y with items := [] }
    rw [hend] at hrun
    exact ⟨_, .cons (step_advance hstep) hrun, hms.next⟩

/-- A user that is filed gets its item. -/
theorem insert_run (first : Act) {w : World} {userId : Int} (micId : Nat)
    (hpc : x.pc r = .unlocked) (hf : (w.rooms r).users.find? userId = none) :
    ∃ ms, sys.Run ((x.setWall w).findUser r userId micId) ms
      (x.setWall (w.newUser r userId micId)) ∧ OfCall first r ms := by
  have hfind : (x.setWall w).findUser r userId micId =
      (x.setWall (fileUser w r userId micId)).goto r (.inserting w.nextUser) := by
    unfold findUser
    have hf' : (((x.setWall w).s.t.w).rooms r).users.find? userId = none := hf
    simp only [hf']
    rfl
  have hpc' : ((x.setWall (fileUser w r userId micId)).goto r (.inserting w.nextUser)).pc r =
      .inserting w.nextUser :=
    Function.update_self ..
  have hstep : ((x.setWall (fileUser w r userId micId)).goto r (.inserting w.nextUser)).advance r =
      some (x.setWall (w.newUser r userId micId)) := by
    unfold advance
    simp only [hpc']
    rw [newUser_eq]
    exact congrArg some (leave (x := x.setWall (fileUser w r userId micId)) hpc _ _)
  rw [hfind]
  exact ⟨_, .cons (step_advance hstep) (.nil _), (OfCall.nil first r).next⟩

/-- The last step of `DelUser`. -/
theorem adding_step (hpc : x.pc r = .unlocked) (w : World) (found : Bool) :
    ((x.setWall w).goto r (.adding found)).advance r =
      some (x.setWall (if (w.rooms r).users.isEmpty then w.addNull r else w)) := by
  have hpc' : ((x.setWall w).goto r (.adding found)).pc r = .adding found := Function.update_self ..
  have hwall : ((x.setWall w).goto r (.adding found)).s.t.w = w := rfl
  unfold advance
  simp only [hpc', hwall]
  split
  · exact congrArg some (leave (x := x.setWall w) hpc _ _)
  · exact congrArg some (leave (x := x.setWall w) hpc w _)

end St

section Undisturbed

variable {x : St} {r : RoomRef} (hr : RoomExists x.s.t r) (hpc : x.pc r = .unlocked) (userId : Int)
include hr hpc

/-- **Undisturbed, `AddUser` is `AddUser`.** -/
theorem addUser_run (micId : Nat) :
    ∃ ms, sys.Run x ms (x.setWall (x.s.t.w.addUser r userId micId).1) ∧
      OfCall (.addUser r userId micId) r ms := by
  have hcall : sys.step x (.addUser r userId micId) (x.addUser r userId micId) := if_pos ⟨hr, hpc⟩
  unfold World.addUser
  unfold St.addUser at hcall
  by_cases he : (x.s.t.w.rooms r).users.isEmpty = true
  · have hnone : ((x.s.t.w.delAll r).rooms r).users.find? userId = none := by
      rw [World.delAll, World.modifyRoom_rooms, if_pos rfl]
      exact (StdMap.isEmpty_iff _).mp he userId
    rw [if_pos he] at hcall ⊢
    obtain ⟨ms, hclear, hms⟩ := St.clear_run (.addUser r userId micId) _
      (x.goto r (.delAll userId micId)) (Function.update_self ..) rfl
    obtain ⟨ms', hinsert, hms'⟩ :=
      St.insert_run (x := x) (.addUser r userId micId) micId hpc hnone
    have hfind : ((x.goto r (.delAll userId micId)).setWall (x.s.t.w.delAll r)).advance r =
        some ((x.setWall (x.s.t.w.delAll r)).findUser r userId micId) := by
      have hpc' : ((x.goto r (.delAll userId micId)).setWall (x.s.t.w.delAll r)).pc r =
          .delAll userId micId :=
        Function.update_self ..
      have hitems :
          (((x.goto r (.delAll userId micId)).setWall (x.s.t.w.delAll r)).s.t.w.rooms r).items =
            [] := by
        change ((x.s.t.w.delAll r).rooms r).items = []
        rw [World.delAll, World.modifyRoom_rooms, if_pos rfl]
      unfold St.advance
      simp only [hpc', hitems]
      rw [St.findUser_goto]
    simp only [hnone]
    exact ⟨_, .cons hcall (hclear.append (.cons (St.step_advance hfind) hinsert)),
      (hms.append hms'.next).start⟩
  · rw [if_neg he] at hcall ⊢
    cases hf : (x.s.t.w.rooms r).users.find? userId with
    | some u =>
      have hfound : x.findUser r userId micId =
          x.setWall (x.s.t.w.modifyUser u fun y => { y with micId := micId }) := by
        unfold St.findUser
        simp only [hf]
        exact St.goto_self _ hpc
      rw [hfound] at hcall
      simp only [hf]
      exact ⟨_, .cons hcall (.nil _), (OfCall.nil _ r).start⟩
    | none =>
      obtain ⟨ms, hinsert, hms⟩ :=
        St.insert_run (x := x) (.addUser r userId micId) micId hpc hf
      simp only [hf]
      exact ⟨_, .cons hcall hinsert, hms.start⟩

/-- **Undisturbed, `DelUser` is `DelUser`.** -/
theorem delUser_run :
    ∃ ms, sys.Run x ms (x.setWall (x.s.t.w.delUser r userId).1) ∧
      OfCall (.delUser r userId) r ms := by
  have hcall : sys.step x (.delUser r userId) (x.delUser r userId) := if_pos ⟨hr, hpc⟩
  unfold World.delUser
  unfold St.delUser at hcall
  cases hf : (x.s.t.w.rooms r).users.find? userId with
  | some u =>
    simp only [hf] at hcall ⊢
    have hdelete : ((x.setWall (x.s.t.w.modifyRoom r fun y =>
          { y with users := y.users.erase userId })).goto r (.deleting u)).advance r =
        some ((x.setWall (x.s.t.w.modifyRoom r fun y => { y with
          users := y.users.erase userId, items := y.items.erase (some u) })).goto r
          (.deleted u)) := by
      have hpc' : ((x.setWall (x.s.t.w.modifyRoom r fun y =>
          { y with users := y.users.erase userId })).goto r (.deleting u)).pc r = .deleting u :=
        Function.update_self ..
      unfold St.advance
      simp only [hpc']
      refine congrArg some ((St.goto_twice (x.setWall _) r _ _ _).trans ?_)
      exact congrArg (fun w => (x.setWall w).goto r (.deleted u))
        (modifyRoom_twice x.s.t.w r (fun y => { y with users := y.users.erase userId })
          fun y => { y with items := y.items.erase (some u) })
    have hrelease : ((x.setWall (x.s.t.w.modifyRoom r fun y => { y with
          users := y.users.erase userId, items := y.items.erase (some u) })).goto r
            (.deleted u)).advance r =
        some ((x.setWall (x.s.t.w.delFound r userId u)).goto r (.adding true)) := by
      have hpc' : ((x.setWall (x.s.t.w.modifyRoom r fun y => { y with
          users := y.users.erase userId, items := y.items.erase (some u) })).goto r
            (.deleted u)).pc r = .deleted u :=
        Function.update_self ..
      unfold St.advance
      simp only [hpc']
      exact congrArg some (St.goto_twice (x.setWall _) r _ _ _)
    exact ⟨_, .cons hcall (.cons (St.step_advance hdelete) (.cons (St.step_advance hrelease)
      (.cons (St.step_advance (St.adding_step hpc _ true)) (.nil _)))),
      (OfCall.nil _ r).next.next.next.start⟩
  | none =>
    simp only [hf] at hcall ⊢
    exact ⟨_, .cons hcall (.cons (St.step_advance (St.adding_step hpc x.s.t.w false)) (.nil _)),
      ((OfCall.nil _ r).next).start⟩

end Undisturbed

/-! ## Nodes -/

/-- Steps of one expansion of the node. -/
def OfExpansion (n : NodeRef) (response : Option Document) (ms : List (Move St Act)) : Prop :=
  ∀ m ∈ ms, m.lbl = .expand n ∨ m.lbl = .answer n response ∨ m.lbl = .proceed n

namespace OfExpansion

variable {n : NodeRef} {response : Option Document} {ms ms' : List (Move St Act)}

theorem nil (n : NodeRef) (response : Option Document) : OfExpansion n response [] :=
  fun _ hm => nomatch hm

theorem next {x x' : St} (h : OfExpansion n response ms) :
    OfExpansion n response (⟨x, .proceed n, x'⟩ :: ms) :=
  List.forall_mem_cons.mpr ⟨.inr (.inr rfl), h⟩

theorem append (h : OfExpansion n response ms) (h' : OfExpansion n response ms') :
    OfExpansion n response (ms ++ ms') :=
  List.forall_mem_append.mpr ⟨h, h'⟩

end OfExpansion

/-- The items and the tree are `s`, and the thread at the node is at `e`. -/
def St.through (x : St) (n : NodeRef) (s : TreeItems) (e : Expansion) : St :=
  { x with s := s }.reach n e

theorem Inv.busy_alive {x : St} (h : Inv x) {m : NodeRef} (hm : x.Busy m) :
    (x.s.t.nodes m).alive = true := by
  rcases hm with hm | hm
  · exact (h.tidy.locked m hm).1
  · exact (h.thread m).alive hm

/-- A step that deletes nothing. -/
theorem Inv.step_proceed {x x' : St} (h : Inv x) {n : NodeRef} (hs : x.proceed n = some x')
    (hkeep : ∀ m < x.s.t.nextNode, (x'.s.t.nodes m).alive = (x.s.t.nodes m).alive) :
    sys.step x (.proceed n) x' := by
  refine Option.filter_eq_some_iff.mpr ⟨hs, decide_eq_true fun m hlt hm => ?_⟩
  rw [hkeep m hlt]
  exact h.busy_alive hm

section Expand

variable {x : St} {n : NodeRef}

theorem St.through_expanding (x : St) (n : NodeRef) (s : TreeItems) (e : Expansion) :
    (x.through n s e).expanding n = e :=
  Function.update_self ..

theorem St.through_reach (x : St) (n : NodeRef) (s s' : TreeItems) (e e' : Expansion) :
    { x.through n s e with s := s' }.reach n e' = x.through n s' e' := by
  simp only [through, reach, Function.update_idem]

/-- `DelAll`, an item at a time. -/
theorem clearing_run (response : Option Document) (items : List (Option NodeRef)) :
    ∀ s : TreeItems, Inv (x.through n s .clearing) → s.items n = items →
      ∃ ms, sys.Run (x.through n s .clearing) ms (x.through n (s.delAll n) .requesting) ∧
        OfExpansion n response ms := by
  induction items with
  | nil =>
    intro s h hi
    have hexp := x.through_expanding n s .clearing
    have hb := h.branchAt hexp (h.threadAt hexp)
    have hstep : (x.through n s .clearing).proceed n =
        some (x.through n (s.delAll n) .requesting) := by
      unfold St.proceed
      rw [St.through_expanding]
      have hi' : (x.through n s .clearing).s.items n = [] := hi
      simp only [hi']
      exact congrArg some (St.through_reach x n s _ _ _)
    refine ⟨_, .cons (h.step_proceed hstep fun m _ => ?_) (.nil _),
      (OfExpansion.nil n response).next⟩
    have hnode : (s.delAll n).t.nodes m =
        if m = n then { s.t.nodes n with nodesOrder := [] } else s.t.nodes m :=
      Tree.delAll_nodes hb.2 m
    change ((s.delAll n).t.nodes m).alive = (s.t.nodes m).alive
    rw [hnode]
    split
    · rename_i hm
      rw [hm]
    · rfl
  | cons i items ih =>
    intro s h hi
    have hstep : (x.through n s .clearing).proceed n =
        some (x.through n { s with items := Function.update s.items n items } .clearing) := by
      unfold St.proceed
      rw [St.through_expanding]
      have hi' : (x.through n s .clearing).s.items n = i :: items := hi
      simp only [hi']
      rfl
    have hsys := h.step_proceed hstep fun m _ => rfl
    obtain ⟨ms, hrun, hms⟩ := ih { s with items := Function.update s.items n items }
      (inv_inductive.step _ _ _ h hsys) (Function.update_self ..)
    have hend : ({ s with items := Function.update s.items n items } : TreeItems).delAll n =
        s.delAll n := by
      simp only [TreeItems.delAll, Function.update_idem]
    rw [hend] at hrun
    exact ⟨_, .cons hsys hrun, hms.next⟩

/-- The calls of `AddNodeOrRoom` make the child. -/
theorem order_place_file (y : St) (d : Document) (e : Entry) (es : List Entry)
    (hne : n ≠ y.s.t.nextNode) (hidle : y.expanding y.s.t.nextNode = .idle)
    (hpc : y.pc y.s.t.nextNode = .unlocked) :
    ((y.file n d e es).place n d y.s.t.nextNode es).order n d y.s.t.nextNode es =
      y.through n (y.s.addChild n d.heading e) (.listing d es) := by
  rw [addChild_eq y.s hne]
  have hunlocked :
      (((y.file n d e es).place n d y.s.t.nextNode es).order n d y.s.t.nextNode es).pc = y.pc := by
    change Function.update (Function.update y.pc y.s.t.nextNode _) y.s.t.nextNode .unlocked = y.pc
    rw [Function.update_idem, ← hpc, Function.update_eq_self]
  have hexp : (((y.file n d e es).place n d y.s.t.nextNode es).order n d
      y.s.t.nextNode es).expanding = Function.update y.expanding n (.listing d es) := by
    funext m
    simp only [St.file, St.place, St.order, St.reach, St.goto, Function.update_apply]
    by_cases hm : m = n
    · rw [if_pos hm, if_pos hm]
    · by_cases hmc : m = y.s.t.nextNode
      · rw [hmc, if_neg hne.symm, if_pos rfl, if_neg hne.symm, hidle]
      · simp only [if_neg hm, if_neg hmc]
  exact congrArg₂ (St.mk _) hunlocked hexp

/-- An entry of the listing, in one step or three. -/
theorem entry_run (response : Option Document) {s : TreeItems} {d : Document} {e : Entry}
    {es : List Entry} (h : Inv (x.through n s (.listing d (e :: es)))) :
    ∃ ms, sys.Run (x.through n s (.listing d (e :: es))) ms
      (x.through n (TreeItems.parseEntry n d.heading s e) (.listing d es)) ∧
        OfExpansion n response ms := by
  have hexp := x.through_expanding n s (.listing d (e :: es))
  have hs : (x.through n s (.listing d (e :: es))).s = s := rfl
  generalize hy : x.through n s (.listing d (e :: es)) = y at h hexp hs
  have hn := h.threadAt hexp
  have hproceed : y.proceed n = some (y.parse n d e es) := by
    unfold St.proceed
    rw [hexp]
  unfold TreeItems.parseEntry
  cases hchild : s.t.getNodeOrRoom n e.id with
  | some child =>
    have hparse : y.parse n d e es =
        x.through n { s with t := s.t.update child e.name e.order e.usercount }
        (.listing d es) := by
      unfold St.parse
      rw [hs, hchild, ← hy]
      exact St.through_reach x n s _ _ _
    rw [hparse] at hproceed
    refine ⟨_, .cons (h.step_proceed hproceed fun m _ => ?_) (.nil _), (OfExpansion.nil n _).next⟩
    rw [hs]
    exact (s.t.update_samePlace child e.name e.order e.usercount m).alive
  | none =>
    have hlt := h.tidy.tree.inUse n hn.1
    have hidle : y.expanding y.s.t.nextNode = .idle := by
      by_contra hi
      exact Nat.lt_irrefl _ (h.inUse hi)
    have hpc : y.pc y.s.t.nextNode = .unlocked := by
      by_contra hpc
      exact Nat.lt_irrefl _ (h.tidy.tree.inUse _ (h.tidy.locked _ hpc).1)
    have hparse : y.parse n d e es = y.file n d e es := by
      unfold St.parse
      rw [hs, hchild]
    rw [hparse] at hproceed
    have hfile := h.step_proceed hproceed fun m hm =>
      (fileChild_type y.s.t n d.heading e hlt (Nat.ne_of_lt hm)).2
    have h₁ := inv_inductive.step _ _ _ h hfile
    have hplace : (y.file n d e es).proceed n =
        some ((y.file n d e es).place n d y.s.t.nextNode es) := by
      unfold St.proceed
      rw [show (y.file n d e es).expanding n = .inserting d y.s.t.nextNode es from
        Function.update_self ..]
    have hplace := h₁.step_proceed hplace fun m _ => rfl
    have h₂ := inv_inductive.step _ _ _ h₁ hplace
    have horder : ((y.file n d e es).place n d y.s.t.nextNode es).proceed n =
        some (y.through n (y.s.addChild n d.heading e) (.listing d es)) := by
      rw [← order_place_file y d e es (Nat.ne_of_lt hlt) hidle hpc]
      unfold St.proceed
      rw [show ((y.file n d e es).place n d y.s.t.nextNode es).expanding n =
        .inserted d y.s.t.nextNode es from Function.update_self ..]
    have horder := h₂.step_proceed horder fun m _ => by
      rw [← order_place_file y d e es (Nat.ne_of_lt hlt) hidle hpc]
      exact (orderChild_same _ n y.s.t.nextNode m).2.2.2.2
    have hend : y.through n (y.s.addChild n d.heading e) (.listing d es) =
        x.through n (s.addChild n d.heading e) (.listing d es) := by
      rw [hs, ← hy]
      exact St.through_reach x n s _ _ _
    rw [hend] at horder
    exact ⟨_, .cons hfile (.cons hplace (.cons horder (.nil _))),
      (OfExpansion.nil n _).next.next.next⟩

/-- All entries. -/
theorem listing_run (response : Option Document) (d : Document) :
    ∀ (es : List Entry) (s : TreeItems),
    Inv (x.through n s (.listing d es)) →
    ∃ ms, sys.Run (x.through n s (.listing d es)) ms
      (x.through n (es.foldl (TreeItems.parseEntry n d.heading) s) (.listing d [])) ∧
        OfExpansion n response ms
  | [], s, _ => ⟨[], .nil _, .nil n response⟩
  | e :: es, s, h => by
    obtain ⟨ms, hrun, hms⟩ := entry_run response h
    obtain ⟨ms', hrun', hms'⟩ := listing_run response d es _ (inv_inductive.run hrun h)
    exact ⟨ms ++ ms', hrun.append hrun', hms.append hms'⟩

/-- **Undisturbed, `OnItemExpanded` is `OnItemExpanded`**, if it kicks out
nothing that a thread is in. -/
theorem onItemExpanded_run (h : Inv x) (hn : Expandable x.s.t n) (hidle : x.expanding n = .idle)
    (response : Option Document)
    (hspared : ∀ m, x.Busy m → ((x.s.onItemExpanded n response).t.nodes m).alive = true) :
    ∃ ms, sys.Run x ms { x with s := x.s.onItemExpanded n response } ∧
      OfExpansion n response ms := by
  have hcall : sys.step x (.expand n) (x.onItemExpanded n) := if_pos ⟨hn.1, hn.2, hidle⟩
  have h₀ := inv_inductive.step _ _ _ h hcall
  -- `DelAll`, if there are no children
  obtain ⟨ms, hclear, hms⟩ : ∃ ms, sys.Run (x.onItemExpanded n) ms
      (x.through n (if (x.s.t.nodes n).nodes.isEmpty then x.s.delAll n else x.s) .requesting) ∧
        OfExpansion n response ms := by
    unfold St.onItemExpanded at h₀ ⊢
    split
    · rename_i he
      rw [if_pos he] at h₀
      exact clearing_run response _ x.s h₀ rfl
    · exact ⟨[], .nil _, .nil n response⟩
  have h₁ := inv_inductive.run hclear h₀
  generalize hs₀ : (if (x.s.t.nodes n).nodes.isEmpty then x.s.delAll n else x.s) = s₀ at hclear h₁
  have hfinish : ∀ s s' e, (x.through n s e).finish s' n =
      { x with s := if (s'.t.nodes n).nodes.isEmpty then s'.addNull n else s' } := by
    intro s s' e
    refine (St.through_reach x n s _ e .idle).trans ?_
    rw [St.through, St.reach, ← hidle, Function.update_eq_self]
  cases response with
  | none =>
    have hanswer : sys.step (x.through n s₀ .requesting) (.answer n none)
        { x with s := x.s.onItemExpanded n none } := by
      change (x.through n s₀ .requesting).answer n none = _
      unfold St.answer
      rw [St.through_expanding]
      refine congrArg some ((hfinish s₀ s₀ _).trans ?_)
      rw [TreeItems.onItemExpanded, hs₀]
      rfl
    refine ⟨_, .cons hcall (hclear.append (.cons hanswer (.nil _))), ?_⟩
    refine List.forall_mem_cons.mpr ⟨.inl rfl, hms.append ?_⟩
    exact List.forall_mem_cons.mpr ⟨.inr (.inl rfl), OfExpansion.nil n none⟩
  | some d =>
    have hanswer : sys.step (x.through n s₀ .requesting) (.answer n (some d))
        (x.through n s₀ (.listing d d.entries)) := by
      change (x.through n s₀ .requesting).answer n (some d) = _
      unfold St.answer
      rw [St.through_expanding]
      exact congrArg some (St.through_reach x n s₀ _ _ _)
    have h₂ := inv_inductive.step _ _ _ h₁ hanswer
    obtain ⟨ms', hlisting, hms'⟩ := listing_run (some d) d d.entries s₀ h₂
    have h₃ := inv_inductive.run hlisting h₂
    have hend : x.s.onItemExpanded n (some d) =
        if (((d.entries.foldl (TreeItems.parseEntry n d.heading) s₀).kickoutRedundantNodes n
          d.ids).t.nodes n).nodes.isEmpty
        then ((d.entries.foldl (TreeItems.parseEntry n d.heading) s₀).kickoutRedundantNodes n
          d.ids).addNull n
        else (d.entries.foldl (TreeItems.parseEntry n d.heading) s₀).kickoutRedundantNodes n
          d.ids := by
      rw [TreeItems.onItemExpanded, hs₀]
      rfl
    generalize d.entries.foldl (TreeItems.parseEntry n d.heading) s₀ = s₁ at hlisting h₃ hend
    have hproceed : (x.through n s₁ (.listing d [])).proceed n =
        some { x with s := x.s.onItemExpanded n (some d) } := by
      unfold St.proceed
      rw [St.through_expanding, hend]
      exact congrArg some (hfinish s₁ (s₁.kickoutRedundantNodes n d.ids) _)
    have hspares : (x.through n s₁ (.listing d [])).Spares
        { x with s := x.s.onItemExpanded n (some d) } := by
      intro m _ hm
      by_cases hmn : m = n
      · have hthread := h₃.threadAt (x.through_expanding n s₁ (.listing d []))
        have hkick : (x.s.onItemExpanded n (some d)).t = s₁.t.kickoutRedundantNodes n d.ids := by
          rw [hend]
          split <;> rfl
        change ((x.s.onItemExpanded n (some d)).t.nodes m).alive = true
        rw [hkick, hmn]
        exact (kickout_removes h₃.tidy.tree.toShape n d.ids).1.owner.trans hthread.1
      · refine hspared m (hm.imp id fun hi => ?_)
        change Function.update x.expanding n _ m ≠ .idle at hi
        rw [Function.update_of_ne hmn] at hi
        exact hi
    have hkick : sys.step (x.through n s₁ (.listing d [])) (.proceed n)
        { x with s := x.s.onItemExpanded n (some d) } :=
      Option.filter_eq_some_iff.mpr ⟨hproceed, decide_eq_true hspares⟩
    refine ⟨_,
      .cons hcall (hclear.append (.cons hanswer (hlisting.append (.cons hkick (.nil _))))), ?_⟩
    refine List.forall_mem_cons.mpr ⟨.inl rfl, hms.append (List.forall_mem_cons.mpr ?_)⟩
    exact ⟨.inr (.inl rfl), hms'.append (OfExpansion.nil n _).next⟩

end Expand

end MonitorAgent.L5.RoomCalls
