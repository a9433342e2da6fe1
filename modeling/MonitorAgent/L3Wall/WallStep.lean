import MonitorAgent.L3Wall.ScreenMgr
import Mathlib.Logic.Relation

/-!
# What the operations do to the wall

However an operation is put together, its effect on the screens, the users
and the SSRC tables is a sequence of `WallStep`s: a screen takes a user, a
screen lets go of its user, a user is created or deleted, or nothing of the
wall changes (`SameWall`). An invariant of the wall is shown once for each
kind of step and then holds after every operation.

`Bij` is the first such invariant: both sides of the screen-user reference
agree. It is also what makes the operations sequences of steps, since
`LinkScreenUser` and `DelUser` disconnect the *screen* of a user and rely on
that to detach the user.
-/
namespace MonitorAgent.L3

open Relation (ReflTransGen)

/-! ## Steps of the wall -/

/-- The two worlds differ outside the wall only. -/
structure SameWall (w w' : World) : Prop where
  screens : w'.screens = w.screens
  users : w'.users = w.users
  nextUser : w'.nextUser = w.nextUser
  avIndexMap : w'.avIndexMap = w.avIndexMap
  roomUsers : ∀ r, (w'.rooms r).users = (w.rooms r).users

theorem SameWall.refl (w : World) : SameWall w w := ⟨rfl, rfl, rfl, rfl, fun _ => rfl⟩

theorem SameWall.trans {w w' w'' : World} (h : SameWall w w') (h' : SameWall w' w'') :
    SameWall w w'' where
  screens := h'.screens.trans h.screens
  users := h'.users.trans h.users
  nextUser := h'.nextUser.trans h.nextUser
  avIndexMap := h'.avIndexMap.trans h.avIndexMap
  roomUsers r := (h'.roomUsers r).trans (h.roomUsers r)

/-- One change of the wall. -/
inductive WallStep : World → World → Prop
  | connect (w : World) (s : ScreenRef) (u : UserRef) : (w.screens s).user = none →
      (w.users u).screen = none → (w.users u).alive = true → WallStep w (w.connectUser s (some u)).1
  | disconnect (w : World) (s : ScreenRef) (u : UserRef) : (w.screens s).user = some u →
      WallStep w (w.disconnectUser s).1
  | create (w : World) (r : RoomRef) (userId : Int) (micId : Nat) :
      (w.rooms r).users.find? userId = none → WallStep w (w.newUser r userId micId)
  | delete (w : World) (r : RoomRef) (userId : Int) (u : UserRef) :
      (w.rooms r).users.find? userId = some u → (w.users u).screen = none →
      WallStep w (w.dropUser r userId u)
  | micId (w : World) (u : UserRef) (n : Nat) : WallStep w (w.modifyUser u fun x =>
      { x with micId := n })
  | other (w w' : World) : SameWall w w' → WallStep w w'

abbrev WallSteps : World → World → Prop := ReflTransGen WallStep

theorem SameWall.steps {w w' : World} (h : SameWall w w') : WallSteps w w' :=
  .single (.other w w' h)

/-! ## The screen-user references agree -/

/-- The references of screens and live users to each other. -/
structure Seating (w : World) : Prop where
  paired : ∀ s u, (w.users u).alive = true →
    ((w.screens s).user = some u ↔ (w.users u).screen = some s)
  idx : ∀ s u, (w.users u).alive = true → (w.users u).screen = some s →
    (w.users u).screenIdx = (w.screens s).index
  noIdx : ∀ u, (w.users u).alive = true → (w.users u).screen = none →
    (w.users u).screenIdx = INVALID_SCREEN_INDEX
  active : ∀ s, (w.screens s).mediaActive = (w.screens s).user.isSome
  shows : ∀ s u, (w.screens s).user = some u → (w.users u).alive = true

/-- Screens know their place in the array, rooms hold live users of their own
under their ids, and no object beyond `nextUser` is in use. -/
structure Filing (w : World) : Prop where
  index : ∀ s, (w.screens s).index = s.val
  filed : ∀ r k u, (w.rooms r).users.find? k = some u →
    (w.users u).alive = true ∧ (w.users u).titleRoom = r ∧ (w.users u).userId = k
  fresh : ∀ u, (w.users u).alive = true → u < w.nextUser

structure Bij (w : World) : Prop extends Seating w, Filing w

/-- Seats may change, identities stay. -/
structure SameIdentity (w w' : World) : Prop where
  index : ∀ s, (w'.screens s).index = (w.screens s).index
  alive : ∀ u, (w'.users u).alive = (w.users u).alive
  titleRoom : ∀ u, (w'.users u).titleRoom = (w.users u).titleRoom
  userId : ∀ u, (w'.users u).userId = (w.users u).userId
  nextUser : w'.nextUser = w.nextUser
  roomUsers : ∀ r, (w'.rooms r).users = (w.rooms r).users

theorem SameIdentity.refl (w : World) : SameIdentity w w :=
  ⟨fun _ => rfl, fun _ => rfl, fun _ => rfl, fun _ => rfl, rfl, fun _ => rfl⟩

theorem SameIdentity.trans {w w' w'' : World} (h : SameIdentity w w') (h' : SameIdentity w' w'') :
    SameIdentity w w'' where
  index s := (h'.index s).trans (h.index s)
  alive u := (h'.alive u).trans (h.alive u)
  titleRoom u := (h'.titleRoom u).trans (h.titleRoom u)
  userId u := (h'.userId u).trans (h.userId u)
  nextUser := h'.nextUser.trans h.nextUser
  roomUsers r := (h'.roomUsers r).trans (h.roomUsers r)

theorem Filing.same {w w' : World} (h : Filing w) (e : SameIdentity w w') : Filing w' where
  index s := (e.index s).trans (h.index s)
  filed r k u hf := by
    rw [e.roomUsers] at hf
    rw [e.alive, e.titleRoom, e.userId]
    exact h.filed r k u hf
  fresh u ha := by
    rw [e.alive] at ha
    rw [e.nextUser]
    exact h.fresh u ha

theorem SameIdentity.connect (w : World) (s : ScreenRef) (u : UserRef) :
    SameIdentity w (w.connectUser s (some u)).1 where
  index s' := by rw [World.connectUser_screens]; split <;> simp_all
  alive u' := by rw [World.connectUser_users]; split <;> simp_all
  titleRoom u' := by rw [World.connectUser_users]; split <;> simp_all
  userId u' := by rw [World.connectUser_users]; split <;> simp_all
  nextUser := World.connectUser_nextUser w s u
  roomUsers r := by rw [World.connectUser_rooms]

theorem SameIdentity.disconnect (w : World) (s : ScreenRef) (u : UserRef)
    (hs : (w.screens s).user = some u) :
    SameIdentity w (w.disconnectUser s).1 where
  index s' := by rw [World.disconnectUser_screens w s s' hs]; split <;> simp_all
  alive u' := by rw [World.disconnectUser_users w s u' hs]; split <;> simp_all
  titleRoom u' := by rw [World.disconnectUser_users w s u' hs]; split <;> simp_all
  userId u' := by rw [World.disconnectUser_users w s u' hs]; split <;> simp_all
  nextUser := World.disconnectUser_nextUser w s
  roomUsers r := by rw [World.disconnectUser_rooms]

theorem SameIdentity.disconnectUser (w : World) (s : ScreenRef) :
    SameIdentity w (w.disconnectUser s).1 := by
  cases hs : (w.screens s).user with
  | none => rw [World.disconnectUser_of_idle w s hs]; exact .refl w
  | some u => exact .disconnect w s u hs

namespace Bij

variable {w : World}

theorem seating_connect (h : Bij w) (s : ScreenRef) (u : UserRef) (hs : (w.screens s).user = none)
    (hu : (w.users u).screen = none) (ha : (w.users u).alive = true) :
    Seating (w.connectUser s (some u)).1 where
  paired s' u' ha' := by
    rw [(SameIdentity.connect w s u).alive] at ha'
    have hp := h.paired s' u' ha'
    rw [World.connectUser_screens, World.connectUser_users]
    by_cases hs' : s' = s
    · subst hs'
      by_cases hu' : u' = u
      · simp [hu']
      · -- the screen was idle, so nobody else claims it
        rw [if_pos rfl, if_neg hu', ← hp, hs]
        exact iff_of_false (fun e => hu' (Option.some.inj e).symm) (fun e => nomatch e)
    · by_cases hu' : u' = u
      · -- the user was on no screen, so no other screen shows it
        subst hu'
        rw [if_neg hs', if_pos rfl, hp, hu]
        exact iff_of_false (fun e => nomatch e) (fun e => hs' (Option.some.inj e).symm)
      · rwa [if_neg hs', if_neg hu']
  idx s' u' ha' := by
    rw [(SameIdentity.connect w s u).alive] at ha'
    rw [World.connectUser_users, (SameIdentity.connect w s u).index]
    split
    · rintro ⟨⟩
      rfl
    · exact h.idx s' u' ha'
  noIdx u' ha' := by
    rw [(SameIdentity.connect w s u).alive] at ha'
    rw [World.connectUser_users]
    split
    · exact fun e => nomatch e
    · exact h.noIdx u' ha'
  active s' := by
    rw [World.connectUser_screens]
    split
    · rfl
    · exact h.active s'
  shows s' u' he := by
    rw [(SameIdentity.connect w s u).alive]
    rw [World.connectUser_screens] at he
    split at he
    · cases he; exact ha
    · exact h.shows s' u' he

theorem seating_disconnect (h : Bij w) (s : ScreenRef) (u : UserRef)
    (hs : (w.screens s).user = some u) :
    Seating (w.disconnectUser s).1 where
  paired s' u' ha' := by
    rw [(SameIdentity.disconnect w s u hs).alive] at ha'
    have hp := h.paired s' u' ha'
    rw [World.disconnectUser_screens w s s' hs, World.disconnectUser_users w s u' hs]
    by_cases hs' : s' = s
    · subst hs'
      by_cases hu' : u' = u
      · simp [hu']
      · rw [if_pos rfl, if_neg hu', ← hp, hs]
        exact iff_of_false (fun e => nomatch e) (fun e => hu' (Option.some.inj e).symm)
    · by_cases hu' : u' = u
      · subst hu'
        rw [if_neg hs', if_pos rfl, hp, (h.paired s u' ha').mp hs]
        exact iff_of_false (fun e => hs' (Option.some.inj e).symm) (fun e => nomatch e)
      · rwa [if_neg hs', if_neg hu']
  idx s' u' ha' := by
    rw [(SameIdentity.disconnect w s u hs).alive] at ha'
    rw [World.disconnectUser_users w s u' hs, (SameIdentity.disconnect w s u hs).index]
    split
    · exact fun e => nomatch e
    · exact h.idx s' u' ha'
  noIdx u' ha' := by
    rw [(SameIdentity.disconnect w s u hs).alive] at ha'
    rw [World.disconnectUser_users w s u' hs]
    split
    · exact fun _ => rfl
    · exact h.noIdx u' ha'
  active s' := by
    rw [World.disconnectUser_screens w s s' hs]
    split
    · rfl
    · exact h.active s'
  shows s' u' he := by
    rw [(SameIdentity.disconnect w s u hs).alive]
    rw [World.disconnectUser_screens w s s' hs] at he
    split at he
    · cases he
    · exact h.shows s' u' he

/-- The new object was in use nowhere. -/
theorem create (h : Bij w) (r : RoomRef) (userId : Int) (micId : Nat) :
    Bij (w.newUser r userId micId) where
  paired s u ha := by
    rw [World.newUser_screens, World.newUser_users] at *
    split
    · rename_i hu
      refine iff_of_false (fun e => ?_) (fun e => nomatch e)
      exact Nat.ne_of_lt (h.fresh u (h.shows s u e)) hu
    · rename_i hu
      rw [if_neg hu] at ha
      exact h.paired s u ha
  idx s u ha := by
    rw [World.newUser_users] at *
    split
    · exact fun e => nomatch e
    · rename_i hu
      rw [if_neg hu] at ha
      exact h.idx s u ha
  noIdx u ha := by
    rw [World.newUser_users] at *
    split
    · exact fun _ => rfl
    · rename_i hu
      rw [if_neg hu] at ha
      exact h.noIdx u ha
  active := h.active
  shows s u he := by
    rw [World.newUser_users]
    split
    · rfl
    · exact h.shows s u he
  index := h.index
  filed r' k u hf := by
    rw [World.newUser_find?] at hf
    rw [World.newUser_users]
    split at hf
    · rename_i hr
      cases hf
      simp [hr]
    · have hu := h.filed r' k u hf
      rwa [if_neg (Nat.ne_of_lt (h.fresh u hu.1))]
  fresh u ha := by
    rw [World.newUser_users] at ha
    rw [World.newUser_nextUser]
    split at ha
    · rename_i hu
      rw [hu]
      exact Nat.lt_succ_self _
    · exact Nat.lt_succ_of_lt (h.fresh u ha)

/-- A user off every screen is deleted. -/
theorem delete (h : Bij w) (r : RoomRef) (userId : Int) (u : UserRef)
    (hf : (w.rooms r).users.find? userId = some u) (hu : (w.users u).screen = none) :
    Bij (w.dropUser r userId u) := by
  obtain ⟨halive, hroom, hid⟩ := h.filed r userId u hf
  have hne : ∀ u', ((w.dropUser r userId u).users u').alive = true →
      u' ≠ u ∧ (w.dropUser r userId u).users u' = w.users u' := fun u' ha => by
    rw [World.dropUser_users] at *
    split at ha
    · cases ha
    · rename_i hne; exact ⟨hne, if_neg hne⟩
  refine ⟨⟨fun s u' ha => ?_, fun s u' ha => ?_, fun u' ha => ?_, h.active, fun s u' he => ?_⟩,
    ⟨h.index, fun r' k u' hf' => ?_, fun u' ha => ?_⟩⟩
  · obtain ⟨-, e⟩ := hne u' ha
    rw [e] at ha ⊢
    exact h.paired s u' ha
  · obtain ⟨-, e⟩ := hne u' ha
    rw [e] at ha ⊢
    exact h.idx s u' ha
  · obtain ⟨-, e⟩ := hne u' ha
    rw [e] at ha ⊢
    exact h.noIdx u' ha
  · have hs := h.shows s u' he
    rw [World.dropUser_users, if_neg]
    · exact hs
    · rintro rfl
      rw [World.dropUser_screens, h.paired s u' hs, hu] at he
      cases he
  · rw [World.dropUser_find?] at hf'
    split at hf'
    · cases hf'
    · rename_i hk
      have hf'' := h.filed r' k u' hf'
      rw [World.dropUser_users, if_neg]
      · exact hf''
      · -- a user is filed once, in its own room under its own id
        rintro rfl
        exact hk ⟨hf''.2.1.symm.trans hroom, hf''.2.2.symm.trans hid⟩
  · obtain ⟨-, e⟩ := hne u' ha
    rw [e] at ha
    exact h.fresh u' ha

/-- Users whose seats and identities are the same. -/
theorem congr {w' : World} (h : Bij w) (hs : w'.screens = w.screens)
    (hu : ∀ u, (w'.users u).screen = (w.users u).screen ∧
      (w'.users u).screenIdx = (w.users u).screenIdx)
    (e : SameIdentity w w') : Bij w' where
  paired s u ha := by rw [hs, (hu u).1]; exact h.paired s u (e.alive u ▸ ha)
  idx s u ha := by rw [(hu u).1, (hu u).2, hs]; exact h.idx s u (e.alive u ▸ ha)
  noIdx u ha := by rw [(hu u).1, (hu u).2]; exact h.noIdx u (e.alive u ▸ ha)
  active s := by rw [hs]; exact h.active s
  shows s u he := by rw [e.alive]; exact h.shows s u (by rwa [hs] at he)
  toFiling := h.toFiling.same e

/-- Rooms lose users at most. -/
theorem ofRooms {w' : World} (h : Bij w) (hs : w'.screens = w.screens) (hu : w'.users = w.users)
    (hn : w'.nextUser = w.nextUser)
    (hr : ∀ r k u, (w'.rooms r).users.find? k = some u → (w.rooms r).users.find? k = some u) :
    Bij w' where
  paired s u := by rw [hs, hu]; exact h.paired s u
  idx s u := by rw [hs, hu]; exact h.idx s u
  noIdx u := by rw [hu]; exact h.noIdx u
  active s := by rw [hs]; exact h.active s
  shows s u := by rw [hs, hu]; exact h.shows s u
  index s := by rw [hs]; exact h.index s
  filed r k u hf := by rw [hu]; exact h.filed r k u (hr r k u hf)
  fresh u := by rw [hu, hn]; exact h.fresh u

theorem step {w' : World} (h : Bij w) (hst : WallStep w w') : Bij w' := by
  cases hst with
  | connect s u hs hu ha => exact ⟨h.seating_connect s u hs hu ha, h.toFiling.same (.connect w s u)⟩
  | disconnect s u hs => exact ⟨h.seating_disconnect s u hs, h.toFiling.same (.disconnect w s u hs)⟩
  | create r userId micId _ => exact h.create r userId micId
  | delete r userId u hf hu => exact h.delete r userId u hf hu
  | micId u n =>
    refine h.congr rfl (fun u' => ?_) ⟨fun _ => rfl, fun u' => ?_, fun u' => ?_, fun u' => ?_, rfl,
      fun _ => rfl⟩
    all_goals rw [World.modifyUser_users]; split <;> simp_all
  | other w' e =>
    refine h.congr e.screens (fun u => by rw [e.users]; exact ⟨rfl, rfl⟩)
      ⟨fun s => by rw [e.screens], fun u => by rw [e.users], fun u => by rw [e.users],
        fun u => by rw [e.users], e.nextUser, e.roomUsers⟩

theorem steps {w' : World} (h : Bij w) (hst : WallSteps w w') : Bij w' := by
  induction hst with
  | refl => exact h
  | tail _ hs ih => exact ih.step hs

end Bij

/-! ## Filed users -/

/-- A user that is filed stays so until it is deleted; memory in use is not
used again. -/
theorem WallStep.filed_or_dead {w w' : World} (hst : WallStep w w') {r : RoomRef} {k : Int}
    {u : UserRef} (h : (w.rooms r).users.find? k = some u ∨ (w.users u).alive = false)
    (hu : u < w.nextUser) :
    ((w'.rooms r).users.find? k = some u ∨ (w'.users u).alive = false) ∧ u < w'.nextUser := by
  have hsame : SameIdentity w w' →
      ((w'.rooms r).users.find? k = some u ∨ (w'.users u).alive = false) ∧ u < w'.nextUser :=
        fun e => by
    rw [e.roomUsers, e.alive, e.nextUser]
    exact ⟨h, hu⟩
  cases hst with
  | connect s v => exact hsame (.connect w s v)
  | disconnect s v hs => exact hsame (.disconnect w s v hs)
  | create r' userId micId hn =>
    rw [World.newUser_find?, World.newUser_users, World.newUser_nextUser, if_neg (Nat.ne_of_lt hu)]
    refine ⟨h.imp_left fun hf => ?_, Nat.lt_succ_of_lt hu⟩
    rw [if_neg]
    · exact hf
    · rintro ⟨rfl, rfl⟩
      rw [hn] at hf
      cases hf
  | delete r' userId v hf' _ =>
    rw [World.dropUser_find?, World.dropUser_users, World.dropUser_nextUser]
    refine ⟨?_, hu⟩
    by_cases hv : u = v
    · exact .inr (by rw [if_pos hv])
    · rw [if_neg hv]
      refine h.imp_left fun hf => ?_
      rw [if_neg]
      · exact hf
      · rintro ⟨rfl, rfl⟩
        exact hv (Option.some.inj (hf.symm.trans hf'))
  | micId v n =>
    refine hsame ⟨fun _ => rfl, fun u' => ?_, fun u' => ?_, fun u' => ?_, rfl, fun _ => rfl⟩
    all_goals rw [World.modifyUser_users]; split <;> simp_all
  | other w' e =>
    exact hsame ⟨fun s => by rw [e.screens], fun u => by rw [e.users], fun u => by rw [e.users],
      fun u => by rw [e.users], e.nextUser, e.roomUsers⟩

theorem filed_or_dead {w w' : World} (hst : WallSteps w w') {r : RoomRef} {k : Int} {u : UserRef}
    (hf : (w.rooms r).users.find? k = some u) (hu : u < w.nextUser) :
    ((w'.rooms r).users.find? k = some u ∨ (w'.users u).alive = false) ∧ u < w'.nextUser := by
  induction hst with
  | refl => exact ⟨.inl hf, hu⟩
  | tail _ hs ih => exact hs.filed_or_dead ih.1 ih.2

/-! ## Live users are filed -/

/-- A user that has not been deleted is in the `users_` of its room. -/
def Homed (w : World) : Prop :=
  ∀ u, (w.users u).alive = true →
    (w.rooms (w.users u).titleRoom).users.find? (w.users u).userId = some u

namespace Homed

variable {w : World}

theorem same {w' : World} (h : Homed w) (e : SameIdentity w w') : Homed w' := by
  intro u ha
  rw [e.alive] at ha
  rw [e.titleRoom, e.userId, e.roomUsers]
  exact h u ha

theorem step {w' : World} (h : Homed w) (hst : WallStep w w') : Homed w' := by
  cases hst with
  | connect s u hs hu ha => exact h.same (.connect w s u)
  | disconnect s u hs => exact h.same (.disconnect w s u hs)
  | create r userId micId hn =>
    intro u ha
    rw [World.newUser_users] at ha ⊢
    rw [World.newUser_find?]
    split
    · rename_i hu
      rw [if_pos ⟨rfl, rfl⟩, hu]
    · rename_i hu
      rw [if_neg hu] at ha
      have hf := h u ha
      rw [if_neg]
      · exact hf
      · -- nobody was filed there
        intro ⟨hr, hk⟩
        rw [hr, hk, hn] at hf
        cases hf
  | delete r userId u hu hs =>
    intro u' ha
    rw [World.dropUser_users] at ha ⊢
    split at ha
    · cases ha
    · rename_i hne
      have hf := h u' ha
      rw [if_neg hne, World.dropUser_find?, if_neg]
      · exact hf
      · intro ⟨hr, hk⟩
        rw [hr, hk, hu] at hf
        exact hne (Option.some.inj hf).symm
  | micId u n =>
    refine h.same ⟨fun _ => rfl, fun u' => ?_, fun u' => ?_, fun u' => ?_, rfl, fun _ => rfl⟩
    all_goals rw [World.modifyUser_users]; split <;> simp_all
  | other w' e =>
    exact h.same ⟨fun s => by rw [e.screens], fun u => by rw [e.users], fun u => by rw [e.users],
      fun u => by rw [e.users], e.nextUser, e.roomUsers⟩

theorem steps {w' : World} (h : Homed w) (hst : WallSteps w w') : Homed w' := by
  induction hst with
  | refl => exact h
  | tail _ hs ih => exact ih.step hs

end Homed
end MonitorAgent.L3
