import MonitorAgent.L3Wall.World

/-!
# Screens and the users they show

`User::ConnectScreen`, `DisconnectScreen`, `ModMedia`
(Monitor/Monitor/TitleRoom.cpp:10-52) and `Screen::GetUser`, `ConnectUser`,
`DisconnectUser` (Monitor/Monitor/Screen.cpp:374-411). Both sides keep a
reference to the other, and the SSRC tables map an SSRC to the index of the
screen: `ConnectScreen` and `ModMedia` insert (without overwriting),
`DisconnectScreen` erases by the SSRCs the user has at that moment.

After each function, what it does to every part of the world.
-/
namespace MonitorAgent.L3.World

/-! ## The user's side -/

/-- `if (ssrc > 0) g_av_index_map[m].insert(…)`. -/
def mapIndex (w : World) (m : Medium) (ssrc screenIdx : Nat) : World :=
  if ssrc > 0 then w.modifyIndexMap m (·.insert ssrc (u8 screenIdx)) else w

/-- mirrors Monitor/Monitor/TitleRoom.cpp:10-24 -/
def connectScreen (w : World) (u : UserRef) (screen : ScreenRef) (screenIdx : Nat) : World :=
  ((w.mapIndex .audio (w.users u).audioSsrc screenIdx).mapIndex .video (w.users u).videoSsrc
    screenIdx).modifyUser u
    fun x => { x with screen := some screen, screenIdx := screenIdx }

/-- mirrors Monitor/Monitor/TitleRoom.cpp:26-33 -/
def disconnectScreen (w : World) (u : UserRef) : World :=
  ((w.modifyIndexMap .audio (·.erase (w.users u).audioSsrc)).modifyIndexMap .video
    (·.erase (w.users u).videoSsrc)).modifyUser u
      fun x => { x with screen := none, screenIdx := INVALID_SCREEN_INDEX }

/-- mirrors Monitor/Monitor/TitleRoom.cpp:35-52 -/
def modMedia (w : World) (u : UserRef) (audioSsrc videoSsrc : Nat) : World :=
  let w := w.modifyUser u fun x => { x with audioSsrc := audioSsrc, videoSsrc := videoSsrc }
  match (w.users u).screen with
  | some _ =>
    (w.mapIndex .audio audioSsrc (w.users u).screenIdx).mapIndex .video videoSsrc
    (w.users u).screenIdx
  | none => w

/-! ## The screen's side -/

/-- mirrors Monitor/Monitor/Screen.cpp:374-377 -/
def getUser? (w : World) (s : ScreenRef) : Option UserRef := (w.screens s).user

/-- mirrors Monitor/Monitor/Screen.cpp:379-393 -/
def connectUser (w : World) (s : ScreenRef) (user : Option UserRef) : World × PjStatus :=
  match user with
  | none => (w, .einval)
  | some u =>
    let w := w.modifyScreen s fun x => { x with mediaActive := true, user := some u }
    (w.connectScreen u s (w.screens s).index, .success)

/-- `UpdateWindow` hides and shows the window.
mirrors Monitor/Monitor/Screen.cpp:395-411 -/
def disconnectUser (w : World) (s : ScreenRef) : World × PjStatus :=
  match (w.screens s).user with
  | none => (w, .einval)
  | some u =>
    let w := w.modifyScreen s fun x => { x with mediaActive := false }
    let w := w.disconnectScreen u
    (w.modifyScreen s fun x => { x with user := none, shown := true }, .success)

/-! ## What they do -/

section MapIndex

variable (w : World) (m : Medium) (ssrc idx : Nat)

@[simp] theorem mapIndex_screens : (w.mapIndex m ssrc idx).screens = w.screens := by
  unfold mapIndex; split <;> rfl
@[simp] theorem mapIndex_users : (w.mapIndex m ssrc idx).users = w.users := by
  unfold mapIndex; split <;> rfl
@[simp] theorem mapIndex_nextUser : (w.mapIndex m ssrc idx).nextUser = w.nextUser := by
  unfold mapIndex; split <;> rfl
@[simp] theorem mapIndex_rooms : (w.mapIndex m ssrc idx).rooms = w.rooms := by
  unfold mapIndex; split <;> rfl
@[simp] theorem mapIndex_proxies : (w.mapIndex m ssrc idx).proxies = w.proxies := by
  unfold mapIndex; split <;> rfl

theorem mapIndex_find? (m' : Medium) (x : Nat) :
    ((w.mapIndex m ssrc idx).avIndexMap m').find? x =
      if m' = m ∧ 0 < ssrc ∧ x = ssrc then some (((w.avIndexMap m).find? ssrc).getD (u8 idx))
      else (w.avIndexMap m').find? x := by
  unfold mapIndex
  split
  · rename_i h
    rw [modifyIndexMap_avIndexMap]
    by_cases hm : m' = m
    · subst hm
      simp [StdMap.find?_insert, h]
    · simp [hm]
  · rename_i h
    rw [if_neg fun hc => h hc.2.1]

end MapIndex

/-- The insertions of `ConnectScreen` and `ModMedia`, both media at once. -/
theorem mapIndex_both_find? (w : World) (a v idx : Nat) (m : Medium) (x : Nat) :
    (((w.mapIndex .audio a idx).mapIndex .video v idx).avIndexMap m).find? x =
      if 0 < m.pick a v ∧ x = m.pick a v then some (((w.avIndexMap m).find? x).getD (u8 idx))
      else (w.avIndexMap m).find? x := by
  by_cases h : 0 < m.pick a v ∧ x = m.pick a v
  · obtain ⟨hpos, rfl⟩ := h
    rw [if_pos ⟨hpos, rfl⟩]
    cases m <;> simp_all [mapIndex_find?, Medium.pick]
  · rw [if_neg h]
    cases m <;> simp only [Medium.pick] at h <;> simp [mapIndex_find?, h]

section ConnectUser

variable (w : World) (s : ScreenRef) (u : UserRef)

theorem connectUser_screens (s' : ScreenRef) :
    (w.connectUser s (some u)).1.screens s' =
      if s' = s then { w.screens s with mediaActive := true, user := some u } else
      w.screens s' := by
  simp [connectUser, connectScreen, modifyScreen_screens]

theorem connectUser_users (u' : UserRef) :
    (w.connectUser s (some u)).1.users u' =
      if u' = u then { w.users u with screen := some s, screenIdx := (w.screens s).index } else
      w.users u' := by
  simp [connectUser, connectScreen, modifyUser_users, modifyScreen_screens]

theorem connectUser_find? (m : Medium) (x : Nat) :
    ((w.connectUser s (some u)).1.avIndexMap m).find? x =
      if 0 < (w.users u).ssrc m ∧ x = (w.users u).ssrc m then
        some (((w.avIndexMap m).find? x).getD (u8 (w.screens s).index))
      else (w.avIndexMap m).find? x := by
  have h :=
    mapIndex_both_find? (w.modifyScreen s fun x => { x with mediaActive := true, user := some u })
    (w.users u).audioSsrc (w.users u).videoSsrc (w.screens s).index m x
  simp only [connectUser, connectScreen, modifyUser_avIndexMap, modifyScreen_screens, if_true]
  exact h

@[simp] theorem connectUser_nextUser : (w.connectUser s (some u)).1.nextUser = w.nextUser := by
  simp [connectUser, connectScreen]
@[simp] theorem connectUser_rooms : (w.connectUser s (some u)).1.rooms = w.rooms := by
  simp [connectUser, connectScreen]
@[simp] theorem connectUser_proxies : (w.connectUser s (some u)).1.proxies = w.proxies := by
  simp [connectUser, connectScreen]

end ConnectUser

/-- An idle screen has nothing to disconnect. -/
theorem disconnectUser_of_idle (w : World) (s : ScreenRef) (h : (w.screens s).user = none) :
    (w.disconnectUser s).1 = w := by
  simp [disconnectUser, h]

section DisconnectUser

variable (w : World) (s : ScreenRef)

theorem disconnectUser_screens (s' : ScreenRef) {u : UserRef} (h : (w.screens s).user = some u) :
    (w.disconnectUser s).1.screens s' =
      if s' = s then { w.screens s with mediaActive := false, user := none, shown := true }
      else w.screens s' := by
  simp only [disconnectUser, h, disconnectScreen, modifyScreen_screens, modifyUser_screens,
    modifyIndexMap_screens]
  split <;> simp_all

theorem disconnectUser_users (u' : UserRef) {u : UserRef} (h : (w.screens s).user = some u) :
    (w.disconnectUser s).1.users u' =
      if u' = u then { w.users u with screen := none, screenIdx := INVALID_SCREEN_INDEX } else
      w.users u' := by
  simp [disconnectUser, h, disconnectScreen, modifyUser_users]

theorem disconnectUser_find? (m : Medium) (x : Nat) {u : UserRef}
    (h : (w.screens s).user = some u) :
    ((w.disconnectUser s).1.avIndexMap m).find? x =
      if x = (w.users u).ssrc m then none else (w.avIndexMap m).find? x := by
  simp only [disconnectUser, h, disconnectScreen, modifyScreen_avIndexMap, modifyUser_avIndexMap,
    modifyIndexMap_avIndexMap, modifyScreen_users]
  cases m <;> simp only [reduceCtorEq, if_true, if_false]
  all_goals exact StdMap.find?_erase ..

@[simp] theorem disconnectUser_nextUser : (w.disconnectUser s).1.nextUser = w.nextUser := by
  unfold disconnectUser; split <;> simp [disconnectScreen]
@[simp] theorem disconnectUser_rooms : (w.disconnectUser s).1.rooms = w.rooms := by
  unfold disconnectUser; split <;> simp [disconnectScreen]
@[simp] theorem disconnectUser_proxies : (w.disconnectUser s).1.proxies = w.proxies := by
  unfold disconnectUser; split <;> simp [disconnectScreen]

/-- Whatever it showed, the screen is idle afterwards. -/
theorem disconnectUser_idle : ((w.disconnectUser s).1.screens s).user = none := by
  cases h : (w.screens s).user with
  | none => rw [disconnectUser_of_idle w s h, h]
  | some u => simp [disconnectUser_screens w s s h]

theorem disconnectUser_user (s' : ScreenRef) :
    ((w.disconnectUser s).1.screens s').user = if s' = s then none else (w.screens s').user := by
  cases hu : (w.screens s).user with
  | none =>
    rw [disconnectUser_of_idle w s hu]
    split
    · rename_i he; rw [he, hu]
    · rfl
  | some u =>
    rw [disconnectUser_screens w s s' hu]
    split <;> rfl

end DisconnectUser

section ModMedia

variable (w : World) (u : UserRef) (a v : Nat)

@[simp] theorem modMedia_screens : (w.modMedia u a v).screens = w.screens := by
  unfold modMedia; dsimp only; split <;> simp

theorem modMedia_users (u' : UserRef) :
    (w.modMedia u a v).users u' =
      if u' = u then { w.users u with audioSsrc := a, videoSsrc := v } else w.users u' := by
  unfold modMedia; dsimp only; split <;> simp [modifyUser_users]

theorem modMedia_find? (m : Medium) (x : Nat) :
    ((w.modMedia u a v).avIndexMap m).find? x =
      if (w.users u).screen ≠ none ∧ 0 < m.pick a v ∧ x = m.pick a v then
        some (((w.avIndexMap m).find? x).getD (u8 (w.users u).screenIdx))
      else (w.avIndexMap m).find? x := by
  unfold modMedia
  simp only [modifyUser_users, if_true]
  cases h : (w.users u).screen with
  | none => simp
  | some s => simp [mapIndex_both_find?]

@[simp] theorem modMedia_nextUser : (w.modMedia u a v).nextUser = w.nextUser := by
  unfold modMedia; dsimp only; split <;> simp
@[simp] theorem modMedia_rooms : (w.modMedia u a v).rooms = w.rooms := by
  unfold modMedia; dsimp only; split <;> simp
@[simp] theorem modMedia_proxies : (w.modMedia u a v).proxies = w.proxies := by
  unfold modMedia; dsimp only; split <;> simp

end ModMedia

end MonitorAgent.L3.World
