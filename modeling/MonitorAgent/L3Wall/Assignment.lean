import MonitorAgent.L3Wall.Bijection

/-!
# Assigning a user is all or nothing

`LinkScreenUser` lets go of the screen the user is on before it looks whom
the new screen shows, and returns once more if that is, by value, the user it
is to seat. By then the user is on no screen, so the user shown is another
one; and two live users are not equal, since a room has one user under an id
(`Homed`).

* `linkScreenUser_moved`: the call changes nothing, or moves the user.
* `takeScreen_moved`: with the user on no screen, the rest of the call always
  goes through.
-/
namespace MonitorAgent.L3

/-- User `u` went to screen `k`: the screen it came from is idle, the user it
met there is on no screen, and nobody else moved. -/
structure Moved (w : World) (u : UserRef) (k : ScreenRef) (w' : World) : Prop where
  shown : (w'.screens k).user = some u ∧ (w'.screens k).mediaActive = true
  seated : w'.users u = { w.users u with screen := some k, screenIdx := (w.screens k).index }
  vacated : ∀ s, (w.users u).screen = some s → s ≠ k →
    (w'.screens s).user = none ∧ (w'.screens s).mediaActive = false
  displaced : ∀ v, (w.screens k).user = some v → v ≠ u →
    w'.users v = { w.users v with screen := none, screenIdx := INVALID_SCREEN_INDEX } ∧
      ∀ s, (w'.screens s).user ≠ some v
  screens : ∀ s, s ≠ k → (w.users u).screen ≠ some s → w'.screens s = w.screens s
  users : ∀ v, v ≠ u → (w.screens k).user ≠ some v → w'.users v = w.users v

/-- Two live users with the same id in the same room are one. -/
theorem Homed.eq_of_same {w : World} (h : Homed w) {u v : UserRef} (hu : (w.users u).alive = true)
    (hv : (w.users v).alive = true) (he : (w.users u).same (w.users v) = true) : u = v := by
  simp only [User.same, Bool.and_eq_true, beq_iff_eq] at he
  obtain ⟨⟨⟨hid, hroom⟩, -⟩, -⟩ := he
  have hfu := h u hu
  rw [hid, hroom, h v hv] at hfu
  exact (Option.some.inj hfu).symm

/-- The users of a world with a new screen for `u` and none for `old`. -/
def reseat (w : World) (u : UserRef) (k : ScreenRef) (old : Option UserRef) (x : UserRef) : User :=
  if x = u then { w.users u with screen := some k, screenIdx := (w.screens k).index }
  else if old = some x then { w.users x with screen := none, screenIdx := INVALID_SCREEN_INDEX }
  else w.users x

section TakeScreen

variable (w : World) (p : ProxyRef) (k s : ScreenRef) (u x : UserRef)

theorem unlinkScreenUser_screens (v : UserRef) {y : UserRef} (h : (w.screens k).user = some y) :
    (w.unlinkScreenUser (some k) (some v)).screens s =
      if s = k then { w.screens k with mediaActive := false, user := none, shown := true }
        else w.screens s := by
  rw [(unlinkScreenUser_wall w k v).screens, World.disconnectUser_screens w k s h]

theorem unlinkScreenUser_users (v : UserRef) {y : UserRef} (h : (w.screens k).user = some y) :
    (w.unlinkScreenUser (some k) (some v)).users x =
      if x = y then { w.users y with screen := none, screenIdx := INVALID_SCREEN_INDEX }
        else w.users x := by
  rw [(unlinkScreenUser_wall w k v).users, World.disconnectUser_users w k x h]

/-- The packet, then the seat. -/
theorem linkAndConnect_seats :
    ((w.linkRoomUser p (some u)).1.connectUser k (some u)).1.screens s =
        (if s = k then { w.screens k with mediaActive := true, user := some u } else w.screens s) ∧
      ((w.linkRoomUser p (some u)).1.connectUser k (some u)).1.users x = reseat w u k none x := by
  have he := SameWall.linkRoomUser w p (some u)
  rw [World.connectUser_screens, World.connectUser_users, he.screens, he.users]
  exact ⟨rfl, rfl⟩

variable {w k u} in
/-- Past the guard, the screen shows the user and whom it showed is off it. -/
theorem takeScreen_seats
    (hne : ∀ v, (w.screens k).user = some v → (w.users u).same (w.users v) = false) :
    (((w.takeScreen p k u).screens k).user = some u ∧
      ((w.takeScreen p k u).screens k).mediaActive = true) ∧
      (s ≠ k → (w.takeScreen p k u).screens s = w.screens s) ∧
      (w.takeScreen p k u).users x = reseat w u k (w.screens k).user x := by
  unfold World.takeScreen World.getUser?
  cases hk : (w.screens k).user with
  | none =>
    have hseat := fun s => linkAndConnect_seats w p k s u x
    dsimp only
    refine ⟨?_, fun hs => ?_, (hseat s).2⟩
    · rw [(hseat k).1, if_pos rfl]
      exact ⟨rfl, rfl⟩
    · rw [(hseat s).1, if_neg hs]
  | some v =>
    have hvu : u ≠ v := by
      rintro rfl
      have := hne u hk
      simp [User.same] at this
    have hseat := fun s => linkAndConnect_seats (w.unlinkScreenUser (some k) (some v)) p k s u x
    have hscreens := fun s => unlinkScreenUser_screens w k s v hk
    have husers := fun x => unlinkScreenUser_users w k x v hk
    dsimp only
    rw [hne v hk, if_neg Bool.false_ne_true]
    refine ⟨?_, fun hs => ?_, (hseat s).2.trans ?_⟩
    · rw [(hseat k).1, if_pos rfl]
      exact ⟨rfl, rfl⟩
    · rw [(hseat s).1, if_neg hs, hscreens, if_neg hs]
    · unfold reseat
      rw [husers u, if_neg hvu, husers x, hscreens k, if_pos rfl]
      by_cases hx : x = u
      · rw [if_pos hx, if_pos hx]
      · rw [if_neg hx, if_neg hx, if_neg (by simp)]
        by_cases hxv : x = v
        · rw [if_pos hxv, if_pos (by rw [hxv]), hxv]
        · rw [if_neg hxv, if_neg fun e => hxv (Option.some.inj e).symm]

end TakeScreen

/-- The new user, off every screen, is not the one shown there. -/
theorem Homed.not_same {w : World} (h : Homed w) (hw : Bij w) {u : UserRef} {k : ScreenRef}
    (ha : (w.users u).alive = true) (hu : (w.users u).screen = none) {v : UserRef}
    (hv : (w.screens k).user = some v) : (w.users u).same (w.users v) = false := by
  by_contra hc
  obtain rfl := h.eq_of_same ha (hw.shows k v hv) (Bool.eq_true_of_not_eq_false hc)
  rw [(hw.paired k u ha).mp hv] at hu
  cases hu

section Assignment

variable {w : World} (hw : Bij w) (hh : Homed w) {u : UserRef} {k : ScreenRef}
  (ha : (w.users u).alive = true)
include hw hh ha

theorem takeScreen_moved (p : ProxyRef) (hu : (w.users u).screen = none) :
    Moved w u k (w.takeScreen p k u) := by
  have hseat := fun s x => takeScreen_seats p s x fun v hv => hh.not_same hw ha hu (k := k) hv
  have hw' := hw.steps (takeScreen_steps w p k u hu ha)
  refine ⟨(hseat k u).1, ?_, fun s hs => ?_, fun v hv hvu => ?_, fun s hs _ => (hseat s u).2.1 hs,
    fun v hvu hv => ?_⟩
  · rw [(hseat k u).2.2, reseat, if_pos rfl]
  · rw [hu] at hs
    cases hs
  · have he : (w.takeScreen p k u).users v =
        { w.users v with screen := none, screenIdx := INVALID_SCREEN_INDEX } := by
      rw [(hseat k v).2.2, reseat, if_neg hvu, if_pos hv]
    refine ⟨he, fun s hs => ?_⟩
    have hp := (hw'.paired s v (hw'.shows s v hs)).mp hs
    rw [he] at hp
    cases hp
  · rw [(hseat k v).2.2, reseat, if_neg hvu, if_neg hv]

/-- The old screen lets go of the user, and the rest goes through. -/
theorem unlinkTake_moved (p : ProxyRef) {s₀ : ScreenRef} (hs₀ : (w.users u).screen = some s₀)
    (hk : s₀ ≠ k) : Moved w u k ((w.unlinkScreenUser (some s₀) (some u)).takeScreen p k u) := by
  have hshow := (hw.paired s₀ u ha).mpr hs₀
  have hsteps := unlinkScreenUser_steps w (some s₀) (some u)
  have hscreens := fun s => unlinkScreenUser_screens w s₀ s u hshow
  have husers := fun x => unlinkScreenUser_users w s₀ x u hshow
  generalize w.unlinkScreenUser (some s₀) (some u) = w₁ at hsteps hscreens husers ⊢
  have hu₁ : (w₁.users u).screen = none := by rw [husers, if_pos rfl]
  have ha₁ : (w₁.users u).alive = true := by rw [husers, if_pos rfl]; exact ha
  have hk₁ : w₁.screens k = w.screens k := by rw [hscreens, if_neg hk.symm]
  have h := takeScreen_moved (hw.steps hsteps) (hh.steps hsteps) ha₁ (k := k) p hu₁
  refine ⟨h.shown, ?_,
    fun s hs hsk => ?_, fun v hv hvu => ?_, fun s hsk hs => ?_, fun v hvu hv => ?_⟩
  · rw [h.seated, husers, if_pos rfl, hk₁]
  · cases hs₀.symm.trans hs
    rw [h.screens s₀ hsk (by rw [hu₁]; exact nofun), hscreens, if_pos rfl]
    exact ⟨rfl, rfl⟩
  · have hd := h.displaced v (by rw [hk₁]; exact hv) hvu
    rwa [husers, if_neg hvu] at hd
  · rw [h.screens s hsk (by rw [hu₁]; exact nofun), hscreens, if_neg]
    rintro rfl
    exact hs hs₀
  · rw [h.users v hvu (by rw [hk₁]; exact hv), husers, if_neg hvu]

/-- **All or nothing.** Assigning a live user, whose room has a proxy, to a
screen changes nothing if the user is on it, and otherwise moves the user. -/
theorem linkScreenUser_moved (hp : (w.rooms (w.users u).titleRoom).proxy ≠ none) (k : ScreenRef) :
    ∃ w', w.linkScreenUser k.val (some u) = some w' ∧
      (w' = w ↔ (w.users u).screen = some k) ∧ (w' = w ∨ Moved w u k w') := by
  have hk : k.val ≠ INVALID_SCREEN_INDEX := fun e => by
    have := k.isLt
    rw [e] at this
    exact absurd this (by decide)
  have hmoved : ∀ {w'}, (w.users u).screen ≠ some k → Moved w u k w' →
      (w' = w ↔ (w.users u).screen = some k) ∧ (w' = w ∨ Moved w u k w') := fun hne h => by
    refine ⟨iff_of_false ?_ hne, .inr h⟩
    rintro rfl
    exact hne ((hw.paired k u ha).mp h.shown.1)
  obtain ⟨p, hp⟩ := Option.ne_none_iff_exists'.mp hp
  unfold World.linkScreenUser
  rw [if_neg hk]
  simp only [hp, dif_pos k.isLt]
  cases hs : (w.users u).screen with
  | none =>
    rw [hs] at hmoved
    exact ⟨_, rfl, hmoved nofun (takeScreen_moved hw hh ha p hs)⟩
  | some s₀ =>
    rw [hs] at hmoved
    dsimp only
    by_cases he : s₀ = k
    · rw [if_pos he]
      exact ⟨w, rfl, iff_of_true rfl (by rw [he]), .inl rfl⟩
    · rw [if_neg he]
      exact ⟨_, rfl, hmoved (fun e => he (Option.some.inj e)) (unlinkTake_moved hw hh ha p hs he)⟩

end Assignment

/-- Two users of one room, on no screen. -/
def twoUsers : World := ((World.launched.addUser 0 7 1).1.addUser 0 8 2).1

/-- User 1 goes to screen 2 and user 0 to screen 3. -/
def twoSeats : Option World :=
  (twoUsers.linkScreenUser 2 (some 1)).bind (·.linkScreenUser 3 (some 0))

/-- User 1 leaves its screen for that of user 0, who is on none then. -/
theorem linkScreenUser_moved_twoUsers :
    ∃ w w', twoSeats = some w ∧ (w.users 1).screen = some 2 ∧ (w.screens 3).user = some 0 ∧
      w.linkScreenUser (3 : ScreenRef).val (some 1) = some w' ∧ Moved w 1 3 w' := by
  have hhomed : Homed World.launched := fun _ => nofun
  have hsteps := (addUser_steps World.launched 0 7 1).trans (addUser_steps _ 0 8 2)
  have hw := (Bij.launched World.launched_launched).steps hsteps
  obtain ⟨w, htwo, w₁, h₁, h₂⟩ : ∃ w, twoSeats = some w ∧ ∃ w₁,
      twoUsers.linkScreenUser 2 (some 1) = some w₁ ∧ w₁.linkScreenUser 3 (some 0) = some w :=
    ⟨_, rfl, _, rfl, rfl⟩
  have hu : ((twoSeats.map fun w => ((w.users 1).alive, (w.users 1).screen, (w.screens 3).user,
      (w.rooms (w.users 1).titleRoom).proxy.isSome)) == some (true, some 2, some 0, true)) &&
      ((twoUsers.linkScreenUser 2 (some 1)).map fun w => (w.users 0).alive) == some true := by
    decide +kernel
  simp only [htwo, h₁, Option.map_some, Bool.and_eq_true, beq_iff_eq, Option.some.injEq,
    Prod.mk.injEq] at hu
  obtain ⟨⟨ha, hs, hk, hp⟩, ha₁⟩ := hu
  have hsteps₁ := linkScreenUser_steps hw 2 1 rfl h₁
  have hsteps₂ := linkScreenUser_steps (hw.steps hsteps₁) 3 0 ha₁ h₂
  obtain ⟨w', he, hiff, hm⟩ :=
    linkScreenUser_moved ((hw.steps hsteps₁).steps hsteps₂)
      ((hhomed.steps hsteps).steps (hsteps₁.trans hsteps₂)) ha
      (Option.isSome_iff_ne_none.mp hp) 3
  refine ⟨w, w', htwo, hs, hk, he, hm.resolve_left ?_⟩
  intro hsame
  rw [hiff.mp hsame] at hs
  cases hs

end MonitorAgent.L3
