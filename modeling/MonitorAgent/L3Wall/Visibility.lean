import MonitorAgent.L3Wall.Bijection
import MonitorAgent.L3Wall.Layout

/-!
# Visibility follows the layout

After `Launch`, window `i` should be shown exactly when the current layout has
a tile `i` (`FollowsLayout`). Laying out makes it so. Every operation that
makes a screen let go of its user shows the window of that screen
(`viewStep_shown`), and none of them asks the layout.

* `visible_iff`: a run keeps to the layout exactly when no screen that the
  layout hides lets go of a user in it.
* `hidden_shown`: a run that ends with a hidden screen shown.
-/
namespace MonitorAgent.L3

open LTS

/-- Layout changes, the operations that make screens let go, and what brings
users, SSRCs and proxies into being. -/
inductive ViewOp
  | changeLayout (resolution : Resolution)
  | adjest (cx cy : Int)
  | linkScreenUser (newScreenIdx : Nat) (newUser : Option UserRef)
  | unlinkScreenUser (screen : Option ScreenRef) (oldUser : Option UserRef)
  | cleanScreens
  | delUser (room : RoomRef) (userId : Int)
  | addUser (room : RoomRef) (userId : Int) (micId : Nat)
  | modUser (user : Option UserRef) (audioSsrc videoSsrc : Nat)
  | linkRoom (proxy : ProxyRef) (room : RoomRef)
  | onRxNAT (proxy : ProxyRef)

def Wall.viewStep (v : Wall) : ViewOp → Option Wall
  | .changeLayout resolution => some (v.changeLayout resolution)
  | .adjest cx cy => some (v.adjest cx cy)
  | .linkScreenUser idx u => (v.w.linkScreenUser idx u).map fun w => { v with w := w }
  | .unlinkScreenUser s u => some { v with w := v.w.unlinkScreenUser s u }
  | .cleanScreens => some { v with w := v.w.cleanScreens }
  | .delUser r userId => some { v with w := (v.w.delUser r userId).1 }
  | .addUser r userId micId => some { v with w := (v.w.addUser r userId micId).1 }
  | .modUser u a v' => some { v with w := v.w.modUser u a v' }
  | .linkRoom p r => some { v with w := (v.w.linkRoom p r).1 }
  | .onRxNAT p => some { v with w := (v.w.onRxNAT p).1 }

/-- After `Prepare`: every window is created visible.
mirrors Monitor/Monitor/ScreenMgr.cpp:142-146, Monitor/Monitor/Screen.cpp:48-50 -/
structure Wall.Prepared (v : Wall) : Prop where
  world : v.w.Launched
  shown : ∀ s, v.shown s = true
  screenMgrRes : v.screenMgrRes = .res3x5
  width : v.width = MININUM_SCREEN_WIDTH
  height : v.height = NIMINUM_SCREEN_HEIGHT

/-- After `Launch`. -/
def Wall.Launched (v : Wall) : Prop := ∃ v₀ : Wall, v₀.Prepared ∧ v = v₀.launch

def viewSys : LTS Wall ViewOp := .ofFn Wall.Launched Wall.viewStep

/-- Exactly the screens with a tile are shown. -/
def Wall.FollowsLayout (v : Wall) : Prop := ∀ s, v.shown s = true ↔ s.val < v.screenMgrRes.tiles

/-! ## Who lets go -/

/-- A user on another screen, or on none, whose room has a proxy: the
screen is the user's old one, or the new one while it shows somebody else. -/
structure World.LinkReleases (w : World) (s : ScreenRef) (idx : Nat) (u : UserRef) : Prop where
  valid : idx ≠ INVALID_SCREEN_INDEX
  linked : (w.rooms (w.users u).titleRoom).proxy ≠ none
  moves : ∀ s', (w.users u).screen = some s' → s'.val ≠ idx
  place : (w.users u).screen = some s ∨
    (s.val = idx ∧ ∃ u' ∈ (w.screens s).user, (w.users u).same (w.users u') = false)

/-- The operation reaches `DisconnectUser` of the screen. -/
def World.Releases (w : World) (s : ScreenRef) : ViewOp → Prop
  | .linkScreenUser idx (some u) => w.LinkReleases s idx u
  | .unlinkScreenUser (some s') (some _) => s = s'
  | .cleanScreens => True
  | .delUser r userId => ∃ u ∈ (w.rooms r).users.find? userId, (w.users u).screen = some s
  | _ => False

namespace World

variable (w : World) (s : ScreenRef)

theorem unlinkScreenUser_shown (screen : ScreenRef) (u : UserRef) :
    ((w.unlinkScreenUser (some screen) (some u)).screens s).shown = true ↔
      (w.screens s).shown = true ∨ (s = screen ∧ (w.screens s).user ≠ none) := by
  rw [(unlinkScreenUser_wall w screen u).screens]
  exact w.disconnectUser_shown screen s

theorem linkAndConnect_shown (p : ProxyRef) (k : ScreenRef) (u : UserRef) :
    (((w.linkRoomUser p (some u)).1.connectUser k (some u)).1.screens s).shown =
    (w.screens s).shown := by
  rw [connectUser_screens, (SameWall.linkRoomUser w p (some u)).screens]
  split
  · rename_i he; rw [he]
  · rfl

theorem takeScreen_shown (p : ProxyRef) (k : ScreenRef) (u : UserRef) :
    ((w.takeScreen p k u).screens s).shown = true ↔ (w.screens s).shown = true ∨
      (s = k ∧ ∃ u' ∈ (w.screens s).user, (w.users u).same (w.users u') = false) := by
  unfold takeScreen getUser?
  cases hk : (w.screens k).user with
  | none =>
    dsimp only
    rw [linkAndConnect_shown]
    refine (or_iff_left ?_).symm
    intro ⟨he, u', hu', _⟩
    rw [he, hk] at hu'
    cases hu'
  | some old =>
    dsimp only
    split
    · rename_i hsame
      refine (or_iff_left ?_).symm
      intro ⟨he, u', hu', hn⟩
      rw [he, hk] at hu'
      cases hu'
      rw [hsame] at hn
      cases hn
    · rename_i hsame
      rw [linkAndConnect_shown, unlinkScreenUser_shown]
      refine or_congr_right (and_congr_right fun he => ?_)
      rw [he, hk]
      simpa using hsame

theorem cleanScreens_shown :
    (w.cleanScreens.screens s).shown = true ↔ (w.screens s).shown = true ∨
    (w.screens s).user ≠ none := by
  have key : ∀ (ss : List ScreenRef) (w : World),
      ((ss.foldl (fun w s => (w.disconnectUser s).1) w).screens s).shown = true ↔
        (w.screens s).shown = true ∨ (s ∈ ss ∧ (w.screens s).user ≠ none) := fun ss => by
    induction ss with
    | nil => simp
    | cons s' ss ih =>
      intro w
      rw [List.foldl_cons, ih, disconnectUser_shown, disconnectUser_user, List.mem_cons]
      by_cases he : s = s'
      · simp [he]
      · simp [he]
  rw [cleanScreens, key]
  simp

theorem delUser_shown (r : RoomRef) (userId : Int) :
    ((w.delUser r userId).1.screens s).shown = true ↔ (w.screens s).shown = true ∨
      ((∃ u ∈ (w.rooms r).users.find? userId, (w.users u).screen = some s) ∧
        (w.screens s).user ≠ none) := by
  have hnull : ∀ w : World, (if (w.rooms r).users.isEmpty then w.addNull r else w).screens =
    w.screens := by
    intro w; split <;> rfl
  unfold delUser
  cases hf : (w.rooms r).users.find? userId with
  | none => simp [hnull]
  | some u =>
    dsimp only
    rw [hnull, delFound_eq]
    cases hs : (w.users u).screen with
    | none => simp [hs]
    | some s' =>
      rw [dropUser_screens, disconnectUser_shown]
      simp [hs, eq_comm (a := s')]

theorem linkScreenUser_shown {w' : World} {idx : Nat} {u : UserRef}
    (h : w.linkScreenUser idx (some u) = some w') :
    (w'.screens s).shown = true ↔
      (w.screens s).shown = true ∨ (w.LinkReleases s idx u ∧ (w.screens s).user ≠ none) := by
  have hnot : ¬ w.LinkReleases s idx u →
      ((w.screens s).shown = true ↔
        (w.screens s).shown = true ∨ (w.LinkReleases s idx u ∧ (w.screens s).user ≠ none)) :=
    fun hn => (or_iff_left fun e => hn e.1).symm
  unfold linkScreenUser at h
  split at h
  · rename_i hidx
    cases h
    exact hnot fun e => e.valid hidx
  rename_i hidx
  dsimp only at h
  split at h
  · rename_i hp
    cases h
    exact hnot fun e => e.linked hp
  rename_i p hp
  split at h
  case isFalse => cases h
  rename_i hlt
  have hk : ∀ t : ScreenRef, t.val = idx ↔ t = ⟨idx, hlt⟩ := fun t => by rw [Fin.ext_iff]
  have hplace : (∀ s', (w.users u).screen = some s' → s'.val ≠ idx) →
      (w.LinkReleases s idx u ↔ ((w.users u).screen = some s ∨
        (s = ⟨idx, hlt⟩ ∧ ∃ u' ∈ (w.screens s).user, (w.users u).same (w.users u') = false))) :=
    fun hm => ⟨fun e => by rw [← hk]; exact e.place,
      fun e => ⟨hidx, by rw [hp]; exact Option.some_ne_none p, hm, by rw [hk]; exact e⟩⟩
  split at h
  · rename_i old hold
    split at h
    · rename_i he
      cases h
      exact hnot fun e => e.moves old hold (by rw [he])
    · rename_i he
      cases h
      -- the user's old screen lets go first; the new one is another screen
      rw [hplace fun s' hs' => by cases hold.symm.trans hs'; rwa [Ne, hk], takeScreen_shown,
        (unlinkScreenUser_wall w old u).screens, (unlinkScreenUser_wall w old u).users,
        disconnectUser_shown,
        disconnectUser_user, hold, Option.some.injEq]
      simp only [disconnectUser_same]
      by_cases ho : s = old
      · rw [ho]
        simp [he]
      · rw [if_neg ho]
        by_cases hs : s = ⟨idx, hlt⟩
        · have hno : old ≠ ⟨idx, hlt⟩ := he
          have hno' : ¬ (⟨idx, hlt⟩ : ScreenRef) = old := fun e => hno e.symm
          cases hu : (w.screens s).user <;> simp [hs, hno, hno']
        · simp [ho, hs, Ne.symm ho]
  · rename_i hnone
    cases h
    have hmoves : ∀ s', (w.users u).screen = some s' → s'.val ≠ idx := fun s' hs' => by
      rw [hnone] at hs'; cases hs'
    rw [hplace hmoves, takeScreen_shown, hnone]
    cases hu : (w.screens s).user <;> simp

end World

/-- What an operation that is not a layout change does to the windows. -/
theorem viewStep_shown {v v' : Wall} {op : ViewOp} (h : v.viewStep op = some v')
    (hc : ∀ resolution, op ≠ .changeLayout resolution) (ha : ∀ cx cy, op ≠ .adjest cx cy)
    (s : ScreenRef) :
    v'.screenMgrRes = v.screenMgrRes ∧
      (v'.shown s = true ↔ v.shown s = true ∨
        (v.w.Releases s op ∧ (v.w.screens s).user ≠ none)) := by
  have hsame : ∀ {w : World}, w.screens = v.w.screens → ¬ v.w.Releases s op →
      ((w.screens s).shown = true ↔
        v.shown s = true ∨ (v.w.Releases s op ∧ (v.w.screens s).user ≠ none)) := fun hw hn => by
    rw [hw]
    exact (or_iff_left fun e => hn e.1).symm
  cases op
  case changeLayout resolution => exact absurd rfl (hc resolution)
  case adjest cx cy => exact absurd rfl (ha cx cy)
  case linkScreenUser idx user =>
    obtain ⟨w, hw, rfl⟩ := Option.map_eq_some_iff.mp h
    cases user with
    | none =>
      refine ⟨rfl, hsame ?_ id⟩
      unfold World.linkScreenUser at hw
      split at hw <;> cases hw <;> rfl
    | some u => exact ⟨rfl, World.linkScreenUser_shown v.w s hw⟩
  all_goals cases h
  case unlinkScreenUser screen user =>
    cases screen with
    | none => exact ⟨rfl, hsame rfl id⟩
    | some s' =>
      cases user with
      | none => exact ⟨rfl, hsame rfl id⟩
      | some u => exact ⟨rfl, v.w.unlinkScreenUser_shown s s' u⟩
  case cleanScreens =>
    refine ⟨rfl, (v.w.cleanScreens_shown s).trans (or_congr_right ?_)⟩
    exact (and_iff_right trivial).symm
  case delUser r userId => exact ⟨rfl, v.w.delUser_shown s r userId⟩
  case addUser r userId micId =>
    refine ⟨rfl, hsame ?_ id⟩
    unfold World.addUser
    dsimp only
    split <;> split <;> rfl
  case modUser user a v' =>
    refine ⟨rfl, hsame ?_ id⟩
    cases user with
    | none => rfl
    | some u => exact World.modMedia_screens ..
  case linkRoom p r => exact ⟨rfl, hsame ((SameWall.callFrame p).linkRoom v.w r).screens id⟩
  case onRxNAT p => exact ⟨rfl, hsame ((SameWall.callFrame p).onRxNAT v.w).screens id⟩

/-! ## Layout changes -/

theorem Wall.FollowsLayout.changeLayout {v : Wall} (h : v.FollowsLayout) (resolution : Resolution) :
    (v.changeLayout resolution).FollowsLayout := by
  unfold Wall.changeLayout
  split
  · exact h
  · intro s
    rw [Wall.layOut_shown, Wall.layOut_screenMgrRes, Wall.hideAll_shown]
    exact or_iff_right (fun e => nomatch e)

theorem Wall.FollowsLayout.adjest {v : Wall} (h : v.FollowsLayout) (cx cy : Int) :
    (v.adjest cx cy).FollowsLayout := by
  unfold Wall.adjest
  split
  · intro s
    rw [Wall.layOut_shown, Wall.layOut_screenMgrRes]
    exact (or_congr_left (h s)).trans or_self_iff
  · exact h

theorem Wall.Launched.followsLayout {v : Wall} (h : v.Launched) : v.FollowsLayout := by
  obtain ⟨v₀, h0, rfl⟩ := h
  intro s
  have hres : v₀.launch.screenMgrRes = .res3x5 := (v₀.layOut_screenMgrRes _ _).trans h0.screenMgrRes
  rw [hres]
  exact iff_of_true ((v₀.layOut_shown _ _ s).mpr (.inl (h0.shown s))) s.isLt

/-! ## Runs -/

/-- No screen without a tile lets go of a user. -/
def KeepsHidden (v : Wall) (op : ViewOp) : Prop :=
  ∀ s, v.w.Releases s op → (v.w.screens s).user ≠ none → s.val < v.screenMgrRes.tiles

theorem visible_guarded : viewSys.Guarded KeepsHidden Wall.FollowsLayout Wall.FollowsLayout where
  init _ h0 := h0.followsLayout
  step v op v' h hk hst := by
    cases op
    case changeLayout resolution => cases hst; exact h.changeLayout resolution
    case adjest cx cy => cases hst; exact h.adjest cx cy
    all_goals
      intro s
      obtain ⟨hres, hs⟩ := viewStep_shown hst (fun _ e => nomatch e) (fun _ _ e => nomatch e) s
      rw [hres, hs, ← h s]
      exact or_iff_left_of_imp fun e => (h s).mpr (hk s e.1 e.2)
  safe _ h := h
  sharp v op v' h hk hst hf := by
    apply hk
    intro s hr hu
    cases op
    case changeLayout resolution => cases hr
    case adjest cx cy => cases hr
    all_goals
      obtain ⟨hres, hs⟩ := viewStep_shown hst (fun _ e => nomatch e) (fun _ _ e => nomatch e) s
      rw [← hres]
      exact (hf s).mp (hs.mpr (.inr ⟨hr, hu⟩))

/-- **Visibility.** The windows shown are those of the layout's tiles in every
state of a run exactly when no operation of the run makes a screen without a
tile let go of a user. -/
theorem visible_iff {v₀ v : Wall} {ms : List (Move Wall ViewOp)} (h0 : v₀.Launched)
    (hr : viewSys.Run v₀ ms v) :
    (∀ x ∈ visited v₀ ms, x.FollowsLayout) ↔ ∀ m ∈ ms, KeepsHidden m.src m.lbl :=
  visible_guarded.safe_along_iff h0 hr

/-! ## Runs with one user -/

instance (w : World) (s : ScreenRef) (idx : Nat) (u : UserRef) :
    Decidable (w.LinkReleases s idx u) :=
  decidable_of_iff (idx ≠ INVALID_SCREEN_INDEX ∧ (w.rooms (w.users u).titleRoom).proxy ≠ none ∧
      (∀ s', (w.users u).screen = some s' → s'.val ≠ idx) ∧ ((w.users u).screen = some s ∨
        (s.val = idx ∧ ∃ u' ∈ (w.screens s).user, (w.users u).same (w.users u') = false)))
    ⟨fun h => ⟨h.1, h.2.1, h.2.2.1, h.2.2.2⟩, fun h => ⟨h.valid, h.linked, h.moves, h.place⟩⟩

instance (w : World) (s : ScreenRef) (op : ViewOp) : Decidable (w.Releases s op) := by
  unfold World.Releases
  split <;> infer_instance

instance (v : Wall) (op : ViewOp) : Decidable (KeepsHidden v op) :=
  inferInstanceAs (Decidable (∀ _, _ → _ → _))

/-- `Prepare` before any window was moved. -/
def Wall.prepared : Wall :=
  ⟨.launched, fun _ => ⟨0, 0, 0, 0⟩, ⟨0, 0, 0, 0⟩, .res3x5, MININUM_SCREEN_WIDTH,
    NIMINUM_SCREEN_HEIGHT, false⟩

theorem Wall.prepared_prepared : Wall.prepared.Prepared :=
  ⟨World.launched_launched, fun _ => rfl, rfl, rfl, rfl⟩

theorem Wall.launched_launch : Wall.prepared.launch.Launched := ⟨_, Wall.prepared_prepared, rfl⟩

/-- The user leaves screen 3 while the layout has four tiles. -/
def inTile : List ViewOp :=
  [.addUser 0 7 1, .linkScreenUser 3 (some 0), .changeLayout .res2x2, .adjest 1000 600,
    .delUser 0 7]

theorem visible_iff_inTile :
    (∀ m ∈ moves Wall.viewStep Wall.prepared.launch inTile, KeepsHidden m.src m.lbl) ∧
      ∀ x ∈ visited Wall.prepared.launch (moves Wall.viewStep Wall.prepared.launch inTile),
      x.FollowsLayout := by
  have hk : ∀ m ∈ moves Wall.viewStep Wall.prepared.launch inTile, KeepsHidden m.src m.lbl := by
    decide +kernel
  exact ⟨hk, (visible_iff Wall.launched_launch (run_of_exec inTile (by decide +kernel))).mpr hk⟩

/-- The user leaves screen 9 while the layout has one tile. -/
def offTile : List ViewOp :=
  [.addUser 0 7 1, .linkScreenUser 9 (some 0), .changeLayout .res1x1, .cleanScreens]

theorem hidden_shown :
    ∃ v, viewSys.Reachable v ∧ v.screenMgrRes = .res1x1 ∧ v.shown 9 = true ∧ ¬ v.FollowsLayout := by
  obtain ⟨v, hr, hp⟩ := exists_reachable_of_exec Wall.Launched Wall.viewStep offTile
    (fun v => v.screenMgrRes == .res1x1 && v.shown 9) Wall.launched_launch (by decide +kernel)
  simp only [Bool.and_eq_true, beq_iff_eq] at hp
  refine ⟨v, hr, hp.1, hp.2, fun hf => ?_⟩
  have h9 := (hf 9).mp hp.2
  rw [hp.1] at h9
  exact absurd h9 (by decide)

end MonitorAgent.L3
