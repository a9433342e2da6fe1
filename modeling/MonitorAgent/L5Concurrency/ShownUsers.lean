import MonitorAgent.L5Concurrency.RoomCalls

/-!
# The items of a room between two calls

Which users have an item, and whether there is an empty one, by where the
thread in the room is (`Items`). In a room that no thread is in, the items are
the users, or at least one empty one; a second empty one comes when `DelUser`
is called for a user that an empty room does not have.

`Quiet` is what the teardown of any room keeps for the others.
-/
namespace MonitorAgent.L5.RoomCalls

open MonitorAgent.L3 MonitorAgent.L4 LTS

/-! ## The items of one room -/

def Filed (users : StdMap Int UserRef) (u : UserRef) : Prop := ∃ k, users.find? k = some u

theorem filed_assign {users : StdMap Int UserRef} {k : Int} (hk : users.find? k = none)
    (u v : UserRef) : Filed (users.assign k u) v ↔ v = u ∨ Filed users v := by
  constructor
  · intro ⟨k', hf⟩
    rw [StdMap.find?_assign] at hf
    split at hf
    · exact .inl (Option.some.inj hf).symm
    · exact .inr ⟨k', hf⟩
  · intro h
    rcases h with rfl | ⟨k', hf⟩
    · exact ⟨k, by rw [StdMap.find?_assign, if_pos rfl]⟩
    · refine ⟨k', ?_⟩
      rw [StdMap.find?_assign, if_neg]
      · exact hf
      · intro he
        rw [he, hk] at hf
        cases hf

/-- With a user that is filed once. -/
theorem filed_erase {users : StdMap Int UserRef} {k : Int} {u : UserRef}
    (hf : users.find? k = some u)
    (hone : ∀ k', users.find? k' = some u → k' = k) (v : UserRef) :
    Filed (users.erase k) v ↔ v ≠ u ∧ Filed users v := by
  constructor
  · intro ⟨k', hf'⟩
    rw [StdMap.find?_erase] at hf'
    split at hf'
    · cases hf'
    · rename_i hk
      refine ⟨?_, k', hf'⟩
      intro he
      exact hk (hone k' (by rw [hf', he]))
  · intro ⟨hv, k', hf'⟩
    refine ⟨k', ?_⟩
    rw [StdMap.find?_erase, if_neg]
    · exact hf'
    · intro he
      rw [he, hf] at hf'
      exact hv (Option.some.inj hf').symm

theorem not_filed_iff {users : StdMap Int UserRef} :
    users.isEmpty = true ↔ ∀ v, ¬ Filed users v := by
  rw [StdMap.isEmpty_iff]
  constructor
  · intro h v ⟨k, hf⟩
    rw [h k] at hf
    cases hf
  · intro h k
    cases hf : users.find? k with
    | none => rfl
    | some v => exact absurd ⟨k, hf⟩ (h v)

/-- The users whose items are there: all, but the one whose item is still to
come, and the one whose item is still to go. -/
def Shown (users : StdMap Int UserRef) : Pc → UserRef → Prop
  | .inserting u, v => v ≠ u ∧ Filed users v
  | .deleting u, v => v = u ∨ Filed users v
  | _, v => Filed users v

/-- The rest of what a thread in the room leaves behind it. -/
def Stage (users : StdMap Int UserRef) (items : List (Option UserRef)) : Pc → Prop
  | .new => items = [] ∧ users.isEmpty = true
  | .unlocked | .adding false => none ∈ items ↔ users.isEmpty = true
  | .delAll _ _ => users.isEmpty = true
  | .inserting u => none ∉ items ∧ Filed users u
  | .deleting u | .deleted u => none ∉ items ∧ ¬ Filed users u
  | .adding true => none ∉ items

structure Items (users : StdMap Int UserRef) (items : List (Option UserRef)) (pc : Pc) : Prop where
  once : ∀ v, items.count (some v) ≤ 1
  user : ∀ v, some v ∈ items ↔ Shown users pc v
  stage : Stage users items pc

namespace Items

variable {users : StdMap Int UserRef} {items : List (Option UserRef)} {pc : Pc}

theorem made : Items .empty [] .new where
  once v := by simp
  user v := by simp [Shown, Filed]
  stage := ⟨rfl, rfl⟩

/-- The empty item of a new room. -/
theorem order (h : Items users items .new) : Items users (items ++ [none]) .unlocked where
  once v := by simp [h.stage.1]
  user v := by
    rw [h.stage.1]
    simpa [Shown] using not_filed_iff.mp h.stage.2 v
  stage := by simp [Stage, h.stage.2]

/-- Between two calls in an empty room. -/
theorem clear (h : Items users items .unlocked) (he : users.isEmpty = true) (userId : Int)
    (micId : Nat) : Items users items (.delAll userId micId) :=
  ⟨h.once, h.user, he⟩

theorem tail {i : Option UserRef} {userId : Int} {micId : Nat}
    (h : Items users (i :: items) (.delAll userId micId)) :
    Items users items (.delAll userId micId) where
  once v := Nat.le_trans (List.count_le_count_cons ..) (h.once v)
  user v := by
    -- nobody is filed, so there is no user's item
    have hv := not_filed_iff.mp h.stage v
    constructor
    · intro hm
      exact (h.user v).mp (List.mem_cons_of_mem _ hm)
    · intro hf
      exact absurd hf hv
  stage := h.stage

/-- A new user is filed, its item is to come. -/
theorem file (hone : ∀ v, items.count (some v) ≤ 1) (huser : ∀ v, some v ∈ items ↔ Filed users v)
    (hnone : none ∉ items) {k : Int} {u : UserRef} (hk : users.find? k = none)
    (hu : ¬ Filed users u) : Items (users.assign k u) items (.inserting u) where
  once := hone
  user v := by
    rw [huser]
    simp only [Shown, filed_assign hk]
    constructor
    · intro hf
      refine ⟨?_, .inr hf⟩
      rintro rfl
      exact hu hf
    · intro ⟨hv, hf⟩
      exact hf.resolve_left hv
  stage := ⟨hnone, (filed_assign hk u u).mpr (.inl rfl)⟩

theorem insert {u : UserRef} (h : Items users items (.inserting u)) :
    Items users (items ++ [some u]) .unlocked where
  once v := by
    rw [List.count_append]
    by_cases hv : v = u
    · have hzero : items.count (some v) = 0 := by
        refine List.count_eq_zero.mpr ?_
        rw [h.user, hv]
        exact fun hs => hs.1 rfl
      rw [hzero, hv]
      simp
    · have hne : List.count (some v) [some u] = 0 := List.count_eq_zero.mpr (by simpa using hv)
      rw [hne]
      exact h.once v
  user v := by
    rw [List.mem_append, List.mem_singleton, h.user, Option.some.injEq]
    constructor
    · intro hv
      rcases hv with ⟨-, hf⟩ | rfl
      · exact hf
      · exact h.stage.2
    · intro hf
      by_cases hv : v = u
      · exact .inr hv
      · exact .inl ⟨hv, hf⟩
  stage := by
    have hne : users.isEmpty = false := Bool.eq_false_iff.mpr fun he =>
      not_filed_iff.mp he u h.stage.2
    simp [Stage, hne, h.stage.1]

theorem erase (h : Items users items .unlocked) {k : Int} {u : UserRef}
    (hf : users.find? k = some u)
    (hone : ∀ k', users.find? k' = some u → k' = k) :
    Items (users.erase k) items (.deleting u) where
  once := h.once
  user v := by
    rw [h.user]
    simp only [Shown, filed_erase hf hone]
    by_cases hv : v = u
    · rw [hv]
      exact iff_of_true ⟨k, hf⟩ (.inl rfl)
    · simp [hv]
  stage := by
    refine ⟨fun hn => not_filed_iff.mp (h.stage.mp hn) u ⟨k, hf⟩, ?_⟩
    rw [filed_erase hf hone]
    exact fun he => he.1 rfl

theorem remove {u : UserRef} (h : Items users items (.deleting u)) :
    Items users (items.erase (some u)) (.deleted u) where
  once v := Nat.le_trans (List.erase_sublist.count_le _) (h.once v)
  user v := by
    by_cases hv : v = u
    · have hgone : some v ∉ items.erase (some u) := by
        have hc := h.once u
        rw [hv, ← List.count_eq_zero, List.count_erase_self]
        omega
      refine iff_of_false hgone ?_
      rw [hv]
      exact h.stage.2
    · rw [List.mem_erase_of_ne (by simpa using hv), h.user]
      exact or_iff_right hv
  stage := ⟨fun hn => h.stage.1 (List.mem_of_mem_erase hn), h.stage.2⟩

theorem release {u : UserRef} (h : Items users items (.deleted u)) :
    Items users items (.adding true) :=
  ⟨h.once, h.user, h.stage.1⟩

theorem missing (h : Items users items .unlocked) : Items users items (.adding false) :=
  ⟨h.once, h.user, h.stage⟩

theorem restore {found : Bool} (h : Items users items (.adding found)) :
    Items users (if users.isEmpty then items ++ [none] else items) .unlocked := by
  cases he : users.isEmpty with
  | true =>
    rw [if_pos rfl]
    refine ⟨fun v => ?_, fun v => ?_, ?_⟩
    · rw [List.count_append]
      simpa using h.once v
    · simpa [Shown] using h.user v
    · simp [Stage, he]
  | false =>
    rw [if_neg Bool.false_ne_true]
    refine ⟨h.once, h.user, ?_⟩
    have hs := h.stage
    cases found with
    | true => simpa [Stage, he] using hs
    | false => exact hs

end Items

/-! ## Other rooms' items while a room is torn down -/

/-- The items of rooms that no thread is in. -/
def Still (idle : RoomRef → Prop) (w : World) : Prop :=
  ∀ r, idle r → Items (w.rooms r).users (w.rooms r).items .unlocked

/-- Users that are taken out of their rooms and not deleted yet. -/
def Leaving (pc : RoomRef → Pc) (w : World) : Prop :=
  ∀ r u, pc r = .deleting u ∨ pc r = .deleted u →
    (w.users u).alive = true ∧ (w.users u).titleRoom = r ∧ ∀ r', ¬ Filed (w.rooms r').users u

section Teardown

variable {idle : RoomRef → Prop} {pc : RoomRef → Pc} {w : World} (hw : Bij w)
include hw

/-- Filed in its own room under its own id. -/
theorem filed_once {r : RoomRef} {k k' : Int} {u : UserRef}
    (hf : (w.rooms r).users.find? k = some u) (hf' : (w.rooms r).users.find? k' = some u) :
    k' = k :=
  (hw.filed r k' u hf').2.2.symm.trans (hw.filed r k u hf).2.2

theorem still_delUser (h : Still idle w) (r : RoomRef) (userId : Int) :
    Still idle (w.delUser r userId).1 := by
  intro r' hr'
  have hi := h r' hr'
  by_cases hr : r' = r
  · subst hr
    unfold World.delUser
    cases hf : (w.rooms r').users.find? userId with
    | some u =>
      have hrooms := congrFun (World.delFound_rooms w r' userId u) r'
      rw [World.modifyRoom_rooms, if_pos rfl] at hrooms
      have hgone := ((hi.erase hf fun k' hk => filed_once hw hf hk).remove.release).restore
      dsimp only
      rw [hrooms]
      dsimp only
      split
      · rename_i he
        rw [if_pos he] at hgone
        rw [World.addNull, World.modifyRoom_rooms, if_pos rfl, hrooms]
        exact hgone
      · rename_i he
        rw [if_neg he] at hgone
        rw [hrooms]
        exact hgone
    | none =>
      have hback := hi.missing.restore
      dsimp only
      split
      · rename_i he
        rw [if_pos he] at hback
        rw [World.addNull, World.modifyRoom_rooms, if_pos rfl]
        exact hback
      · exact hi
  · rw [(World.delUser_rooms w r userId r').2.2 hr]
    exact hi

/-- Only filed users are deleted, and nobody is filed. -/
theorem leaving_delUser (h : Leaving pc w) (r : RoomRef) (userId : Int) :
    Leaving pc (w.delUser r userId).1 := by
  intro r₀ u hu
  obtain ⟨ha, hr, hf⟩ := h r₀ u hu
  have hout : (w.rooms r).users.find? userId ≠ some u := fun hk => hf r ⟨userId, hk⟩
  refine ⟨?_, ?_, fun r' => ?_⟩
  · rw [(delUser_elsewhere hw r userId).users u ha hout]
    exact ha
  · rw [(sameOwner_teardownFrame.delUser w r userId u).2]
    exact hr
  · by_cases he : r' = r
    · subst he
      cases hk : (w.rooms r').users.find? userId with
      | some v =>
        rw [(World.delUser_users w r' hk).1]
        intro ⟨k, hfk⟩
        rw [StdMap.find?_erase] at hfk
        split at hfk
        · cases hfk
        · exact hf r' ⟨k, hfk⟩
      | none =>
        have hsame : ((w.delUser r' userId).1.rooms r').users = (w.rooms r').users := by
          unfold World.delUser
          rw [hk]
          exact (World.addNull_if_rooms w r' _ r').1
        rw [hsame]
        exact hf r'
    · rw [(World.delUser_rooms w r userId r').2.2 he]
      exact hf r'

end Teardown

/-- What a change to one room at a time keeps. -/
structure Quiet (idle : RoomRef → Prop) (pc : RoomRef → Pc) (w : World) : Prop where
  bij : Bij w
  still : Still idle w
  leaving : Leaving pc w

namespace Quiet

variable {idle : RoomRef → Prop} {pc : RoomRef → Pc} {w : World} (h : Quiet idle pc w)
include h

theorem delUser (r : RoomRef) (userId : Int) : Quiet idle pc (w.delUser r userId).1 :=
  ⟨h.bij.steps (delUser_steps h.bij r userId), still_delUser h.bij h.still r userId,
    leaving_delUser h.bij h.leaving r userId⟩

theorem onDestoryGo (r : RoomRef) (n : Nat) (puser : Option Int) :
    Quiet idle pc (World.onDestoryGo r n puser w) := by
  induction n generalizing w puser with
  | zero => exact h
  | succ n ih =>
    cases puser with
    | none => exact h
    | some k =>
      unfold World.onDestoryGo
      split
      · exact h
      · exact ih (h.delUser r _) _

theorem onDestory (r : RoomRef) : Quiet idle pc (w.onDestory r) := by
  have hgo := h.onDestoryGo r (w.rooms r).users.size (w.rooms r).users.begin
  have hsame : ∀ r', ((w.onDestory r).rooms r').users =
        ((World.onDestoryGo r (w.rooms r).users.size (w.rooms r).users.begin w).rooms r').users ∧
      ((w.onDestory r).rooms r').items =
        ((World.onDestoryGo r (w.rooms r).users.size (w.rooms r).users.begin w).rooms
          r').items := by
    intro r'
    rw [World.onDestory, World.modifyRoom_rooms]
    split
    · rename_i he
      rw [he]
      exact ⟨rfl, rfl⟩
    · exact ⟨rfl, rfl⟩
  refine ⟨h.bij.steps (onDestory_steps h.bij r), fun r' hr' => ?_, fun r₀ u hu => ?_⟩
  · rw [(hsame r').1, (hsame r').2]
    exact hgo.still r' hr'
  · obtain ⟨ha, hr, hf⟩ := hgo.leaving r₀ u hu
    refine ⟨ha, hr, fun r' => ?_⟩
    rw [(hsame r').1]
    exact hf r'

end Quiet

end MonitorAgent.L5.RoomCalls
