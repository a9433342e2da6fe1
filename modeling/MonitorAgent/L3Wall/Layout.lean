import MonitorAgent.L3Wall.Operations

/-!
# The layout of the wall

`ScreenMgr::ChangeLayout`, `Adjest`, `Launch` and the five `ChangeLayout_*`
(Monitor/Monitor/ScreenMgr.cpp:153-170,273-447). A layout moves the first
screens of the array to its tiles, which shows their windows; `ChangeLayout`
hides all windows before. Which windows a layout leaves shown: `layOut_shown`.

`Screen::DisconnectUser` shows its window too
(Monitor/Monitor/Screen.cpp:395-411): `disconnectUser_shown`.
-/
namespace MonitorAgent.L3

/-! ## Rectangles -/

/-- mirrors Monitor/Monitor/ScreenMgr.h:33-36 -/
def MININUM_PADDING : Nat := 0
def MININUM_TREE_CTL_WIDTH : Nat := 200
def MININUM_SCREEN_WIDTH : Nat := 176
def NIMINUM_SCREEN_HEIGHT : Nat := 144

/-- Conversion of a `pj_uint32_t` to `LONG`. -/
def long (n : Nat) : Int := if n < 2147483648 then n else n - 4294967296

structure Rect where
  left : Int
  top : Int
  right : Int
  bottom : Int
deriving DecidableEq

/-- The rectangle at a corner, its other corner added up as `pj_uint32_t`. -/
def Rect.at (left top : Int) (width height : Nat) : Rect :=
  ⟨left, top, long (u32 (left + width)), long (u32 (top + height))⟩

/-- mirrors Monitor/Monitor/Com.h:54-62, without the end mark -/
inductive Resolution
  | res1x1
  | res2x2
  | res1x5
  | res3x3
  | res3x5
deriving DecidableEq

/-- `num_blocks_`. mirrors Monitor/Monitor/ScreenMgr.h:53-57 -/
structure Round where
  h : Nat
  v : Nat

/-- mirrors Monitor/Monitor/ScreenMgr.cpp:50-65 -/
def Resolution.numBlocks : Resolution → Round
  | .res1x1 => ⟨1, 1⟩
  | .res2x2 => ⟨2, 2⟩
  | .res1x5 => ⟨3, 3⟩
  | .res3x3 => ⟨3, 3⟩
  | .res3x5 => ⟨5, 3⟩

/-- Row by row, as `ChangeLayout_2x2`, `_3x3` and `_3x5` do. -/
def gridRects (rows cols width height : Nat) : List Rect :=
  (List.range rows).flatMap fun row => (List.range cols).map fun col =>
    .at (long (u32 (col * width + col * MININUM_PADDING + MININUM_TREE_CTL_WIDTH)))
      (long (u32 (row * height + row * MININUM_PADDING))) width height

/-- mirrors Monitor/Monitor/ScreenMgr.cpp:324-330 -/
def changeLayout1x1 (width height : Nat) : List Rect :=
  [⟨MININUM_TREE_CTL_WIDTH, 0, long (u32 (MININUM_TREE_CTL_WIDTH + width)), long height⟩]

/-- mirrors Monitor/Monitor/ScreenMgr.cpp:332-354 -/
def changeLayout2x2 (width height : Nat) : List Rect := gridRects 2 2 width height

/-- mirrors Monitor/Monitor/ScreenMgr.cpp:356-391 -/
def changeLayout1x5 (width height : Nat) : List Rect :=
  let lstart : Int := MININUM_TREE_CTL_WIDTH
  let big :=
    Rect.at lstart 0 (u32 (width * 2 + MININUM_PADDING)) (u32 (height * 2 + MININUM_PADDING))
  let column := long (u32 (big.right + MININUM_PADDING))
  let right1 := Rect.at column 0 width height
  let right2 := Rect.at column (long (u32 (right1.bottom + MININUM_PADDING))) width height
  let row := long (u32 (right2.bottom + MININUM_PADDING))
  let low1 := Rect.at lstart row width height
  let low2 := Rect.at (long (u32 (low1.right + MININUM_PADDING))) row width height
  let low3 := Rect.at (long (u32 (low2.right + MININUM_PADDING))) row width height
  [big, right1, right2, low1, low2, low3]

/-- mirrors Monitor/Monitor/ScreenMgr.cpp:393-415 -/
def changeLayout3x3 (width height : Nat) : List Rect := gridRects 3 3 width height

/-- mirrors Monitor/Monitor/ScreenMgr.cpp:417-439 -/
def changeLayout3x5 (width height : Nat) : List Rect := gridRects 3 5 width height

/-- `screenmgr_func_array_`. mirrors Monitor/Monitor/ScreenMgr.cpp:50-65 -/
def Resolution.rects : Resolution → Nat → Nat → List Rect
  | .res1x1 => changeLayout1x1
  | .res2x2 => changeLayout2x2
  | .res1x5 => changeLayout1x5
  | .res3x3 => changeLayout3x3
  | .res3x5 => changeLayout3x5

/-- The number of screens a layout shows. -/
def Resolution.tiles : Resolution → Nat
  | .res1x1 => 1
  | .res2x2 => 4
  | .res1x5 => 6
  | .res3x3 => 9
  | .res3x5 => 15

theorem Resolution.rects_length (resolution : Resolution) (width height : Nat) :
    (resolution.rects width height).length = resolution.tiles := by
  cases resolution <;> rfl

/-! ## The windows -/

/-- `ScreenMgr` as far as it lays out its windows. -/
structure Wall where
  w : World
  rect : ScreenRef → Rect
  titlesRect : Rect
  screenMgrRes : Resolution
  width : Nat
  height : Nat
  active : Bool

namespace Wall

variable (v : Wall)

/-- `ShowWindow`. -/
def showWindow (s : ScreenRef) (shown : Bool) : Wall :=
  { v with w := v.w.modifyScreen s fun x => { x with shown := shown } }

/-- mirrors Monitor/Monitor/Screen.cpp:148-153 -/
def moveToRect (s : ScreenRef) (rect : Rect) : Wall :=
  { v with rect := Function.update v.rect s rect }.showWindow s true

/-- mirrors Monitor/Monitor/Screen.cpp:155-159 -/
def hideWindow (s : ScreenRef) : Wall := v.showWindow s false

/-- mirrors Monitor/Monitor/ScreenMgr.cpp:441-447 -/
def hideAll : Wall := (List.finRange MAXIMAL_SCREEN_NUM).foldl hideWindow v

/-- The call through `screenmgr_func_array_`: the titles, then the screens in
the order of the array. mirrors Monitor/Monitor/ScreenMgr.cpp:324-439 -/
def layOut (width height : Nat) : Wall :=
  let v := { v with titlesRect :=
    ⟨0, 0, MININUM_TREE_CTL_WIDTH, long (u32 (height * v.screenMgrRes.numBlocks.v))⟩ }
  ((List.finRange MAXIMAL_SCREEN_NUM).zip (v.screenMgrRes.rects width height)).foldl
    (fun v x => v.moveToRect x.1 x.2) v

/-- mirrors Monitor/Monitor/ScreenMgr.cpp:153-155 -/
def launch : Wall := { v.layOut v.width v.height with active := true }

/-- mirrors Monitor/Monitor/ScreenMgr.cpp:273-290 -/
def changeLayout (resolution : Resolution) : Wall :=
  if v.screenMgrRes = resolution then v
  else
    let v := { v with screenMgrRes := resolution }
    let divisor := resolution.numBlocks
    v.hideAll.layOut (u32 (v.width - MININUM_TREE_CTL_WIDTH) / divisor.h) (v.height / divisor.v)

/-- mirrors Monitor/Monitor/ScreenMgr.cpp:308-322 -/
def adjest (cx cy : Int) : Wall :=
  if v.active then
    let v := { v with width := u32 cx, height := u32 cy }
    let divisor := v.screenMgrRes.numBlocks
    v.layOut (u32 (cx - MININUM_TREE_CTL_WIDTH) / divisor.h) (u32 cy / divisor.v)
  else v

/-! ## Which windows are shown -/

def shown (s : ScreenRef) : Bool := (v.w.screens s).shown

theorem showWindow_shown (s s' : ScreenRef) (b : Bool) :
    (v.showWindow s b).shown s' = if s' = s then b else v.shown s' := by
  simp only [shown, showWindow, World.modifyScreen_screens]
  split <;> rfl

theorem hideAll_shown (s : ScreenRef) : v.hideAll.shown s = false := by
  have key : ∀ (ss : List ScreenRef) (v : Wall), (s ∈ ss ∨ v.shown s = false) →
      (ss.foldl hideWindow v).shown s = false := fun ss => by
    induction ss with
    | nil => exact fun v h => h.resolve_left (List.not_mem_nil)
    | cons s' ss ih =>
      intro v h
      refine ih _ ?_
      rw [hideWindow, showWindow_shown]
      by_cases he : s = s'
      · exact .inr (if_pos he)
      · rw [if_neg he]
        exact h.imp_left fun hm => (List.mem_cons.mp hm).resolve_left he
  exact key _ v (.inl (List.mem_finRange s))

theorem moveAll_shown (xs : List (ScreenRef × Rect)) (s : ScreenRef) :
    (xs.foldl (fun v x => v.moveToRect x.1 x.2) v).shown s = true ↔ v.shown s = true ∨
    ∃ x ∈ xs, x.1 = s := by
  induction xs generalizing v with
  | nil => simp
  | cons x xs ih =>
    have hx : (∃ y ∈ x :: xs, y.1 = s) ↔ x.1 = s ∨ ∃ y ∈ xs, y.1 = s := by simp
    rw [List.foldl_cons, ih, moveToRect, showWindow_shown, hx]
    by_cases he : s = x.1
    · simp [he]
    · rw [if_neg he, or_iff_right (a := x.1 = s) fun e => he e.symm]
      rfl

theorem moveAll_screenMgrRes (xs : List (ScreenRef × Rect)) :
    (xs.foldl (fun v x => v.moveToRect x.1 x.2) v).screenMgrRes = v.screenMgrRes := by
  induction xs generalizing v with
  | nil => rfl
  | cons x xs ih => exact ih _

/-- The `i`-th rectangle goes to screen `i`. -/
theorem exists_mem_zip (rects : List Rect) (s : ScreenRef) :
    (∃ x ∈ (List.finRange MAXIMAL_SCREEN_NUM).zip rects, x.1 = s) ↔ s.val < rects.length := by
  constructor
  · intro ⟨x, hx, he⟩
    obtain ⟨i, hi, rfl⟩ := List.mem_iff_getElem.mp hx
    rw [List.getElem_zip, List.getElem_finRange] at he
    rw [List.length_zip] at hi
    rw [← he]
    exact Nat.lt_of_lt_of_le hi (Nat.min_le_right ..)
  · intro h
    have hs : s.val < (List.finRange MAXIMAL_SCREEN_NUM).length := by
      rw [List.length_finRange]; exact s.isLt
    refine ⟨_,
      List.getElem_mem (n := s.val) (by rw [List.length_zip]; exact Nat.lt_min.mpr ⟨hs, h⟩), ?_⟩
    simp

/-- A layout shows its tiles and leaves the other windows as they are. -/
theorem layOut_shown (width height : Nat) (s : ScreenRef) :
    (v.layOut width height).shown s = true ↔ v.shown s = true ∨ s.val < v.screenMgrRes.tiles := by
  rw [layOut, moveAll_shown, exists_mem_zip, Resolution.rects_length]
  rfl

theorem layOut_screenMgrRes (width height : Nat) :
    (v.layOut width height).screenMgrRes = v.screenMgrRes :=
  moveAll_screenMgrRes _ _

end Wall

/-! ## Screens that let go -/

namespace World

variable (w : World)

theorem disconnectUser_shown (s s' : ScreenRef) :
    ((w.disconnectUser s).1.screens s').shown = true ↔
      (w.screens s').shown = true ∨ (s' = s ∧ (w.screens s').user ≠ none) := by
  cases hu : (w.screens s).user with
  | none =>
    rw [disconnectUser_of_idle w s hu]
    refine (or_iff_left ?_).symm
    intro ⟨he, hne⟩
    exact hne (he ▸ hu)
  | some u =>
    rw [disconnectUser_screens w s s' hu]
    by_cases he : s' = s
    · simp [he, hu]
    · simp [he]

/-- Leaving a screen changes nothing that `User::operator==` looks at. -/
theorem disconnectUser_same (s : ScreenRef) (u u' : UserRef) :
    ((w.disconnectUser s).1.users u).same ((w.disconnectUser s).1.users u') =
    (w.users u).same (w.users u') := by
  cases hs : (w.screens s).user with
  | none => rw [disconnectUser_of_idle w s hs]
  | some v =>
    rw [disconnectUser_users w s u hs, disconnectUser_users w s u' hs]
    by_cases hu : u = v <;> by_cases hu' : u' = v <;> simp [hu, hu', User.same]

end World
end MonitorAgent.L3
