import MonitorAgent.L3Wall.TiledWall

/-!
# The wall and the window

`CMonitorDlg::OnSize` (Monitor/Monitor/MonitorDlg.cpp:331-338) hands the client
area's size to `ScreenMgr::Adjest`, and `ChangeLayout` uses the size of the last
one (Monitor/Monitor/ScreenMgr.cpp:273-322). What is left of the width beside the
titles is divided among the columns. It is a `pj_uint32_t`, and so it is close to
2^32 for a width below that of the titles; a minimised window has width 0.

* `fits_iff`: the wall fits the window along a run exactly if every width is at
  least that of the titles.
* `minimised_overflows`: a window is minimised, and its tiles are 858993419 wide.
-/
namespace MonitorAgent.L3

open LTS Tiling

/-! ## The size of a cell -/

/-- `ROUND` of what is left of the width, and of the height. The comma binds less
than the assignment, so it is the quotient that is assigned.
mirrors Monitor/Monitor/ScreenMgr.h:37, Monitor/Monitor/ScreenMgr.cpp:280-285,315-319 -/
def Round.cellSize (divisor : Round) (width : Int) (height : Nat) : Nat × Nat :=
  (u32 (width - MININUM_TREE_CTL_WIDTH) / divisor.h, height / divisor.v)

/-- A window, the size it was told last and the cell computed last. -/
structure Window where
  wall : Wall
  client : Option (Int × Int)
  cell : Option (Nat × Nat)

inductive WindowOp
  | onSize (cx cy : Int32)
  | changeLayout (resolution : Resolution)

namespace Window

variable (s : Window)

/-- mirrors Monitor/Monitor/MonitorDlg.cpp:331-338 -/
def onSize (cx cy : Int) : Window where
  wall := s.wall.adjest cx cy
  client := some (cx, cy)
  cell :=
    if s.wall.active then some (s.wall.screenMgrRes.numBlocks.cellSize cx (u32 cy)) else s.cell

def changeLayout (resolution : Resolution) : Window where
  wall := s.wall.changeLayout resolution
  client := s.client
  cell := if s.wall.screenMgrRes = resolution then s.cell
    else some (resolution.numBlocks.cellSize s.wall.width s.wall.height)

/-- Sizes are not negative, and the layout changes after the first of them. -/
def step : WindowOp → Option Window
  | .onSize cx cy => if 0 ≤ cx.toInt ∧ 0 ≤ cy.toInt then some (s.onSize cx.toInt cy.toInt) else none
  | .changeLayout resolution => if s.client.isSome then some (s.changeLayout resolution) else none

end Window

/-- The wall is launched, and no size was told yet. -/
structure Window.Opened (s : Window) : Prop where
  active : s.wall.active = true
  client : s.client = none

def windowSys : LTS Window WindowOp := .ofFn Window.Opened Window.step

/-- The client area to the right of the titles. -/
def clientArea (cx cy : Int) : Box Int :=
  ⟨MININUM_TREE_CTL_WIDTH, 0, max cx MININUM_TREE_CTL_WIDTH, cy⟩

/-- The cells beside the titles, and one below the other, are within `cx` and
`cy`; the width left of `cx` has not wrapped; and the tiles are in the area. -/
structure FitsClient (v : Wall) (cx cy : Int) (cell : Nat × Nat) : Prop where
  width : (MININUM_TREE_CTL_WIDTH + v.screenMgrRes.numBlocks.h * cell.1 : Int) ≤
    max cx MININUM_TREE_CTL_WIDTH
  height : (v.screenMgrRes.numBlocks.v * cell.2 : Int) ≤ cy
  unwrapped : (u32 (cx - MININUM_TREE_CTL_WIDTH) : Int) = cx - MININUM_TREE_CTL_WIDTH
  tiles : ∀ k : ScreenRef, k.val < v.screenMgrRes.tiles → (v.rect k).box.Within (clientArea cx cy)

/-- Whatever size was told last, the wall fits it. -/
def Window.FitsWindow (s : Window) : Prop :=
  ∀ size ∈ s.client, ∃ cell ∈ s.cell, FitsClient s.wall size.1 size.2 cell

/-- The titles have room. -/
def WideEnough : WindowOp → Prop
  | .onSize cx _ => MININUM_TREE_CTL_WIDTH ≤ cx.toInt
  | .changeLayout _ => True

instance (op : WindowOp) : Decidable (WideEnough op) := by
  unfold WideEnough
  split <;> infer_instance

/-! ## Laying out for a size -/

namespace Wall

/-- What a layout does not touch. -/
def settings (v : Wall) : Resolution × Nat × Nat × Bool :=
  (v.screenMgrRes, v.width, v.height, v.active)

theorem moveAll_settings (v : Wall) (xs : List (ScreenRef × Rect)) :
    (xs.foldl (fun v x => v.moveToRect x.1 x.2) v).settings = v.settings := by
  induction xs generalizing v with
  | nil => rfl
  | cons x xs ih => exact ih _

theorem layOut_settings (v : Wall) (width height : Nat) :
    (v.layOut width height).settings = v.settings :=
  moveAll_settings _ _

theorem layOut_width (v : Wall) (width height : Nat) : (v.layOut width height).width = v.width :=
  congrArg (·.2.1) (v.layOut_settings width height)

theorem layOut_height (v : Wall) (width height : Nat) : (v.layOut width height).height = v.height :=
  congrArg (·.2.2.1) (v.layOut_settings width height)

theorem layOut_active (v : Wall) (width height : Nat) : (v.layOut width height).active = v.active :=
  congrArg (·.2.2.2) (v.layOut_settings width height)

theorem hideAll_settings (v : Wall) : v.hideAll.settings = v.settings := by
  have key (ss : List ScreenRef) (v : Wall) : (ss.foldl hideWindow v).settings = v.settings := by
    induction ss generalizing v with
    | nil => rfl
    | cons s ss ih => exact ih _
  exact key _ v

/-- Laid out with the cells of this size. -/
structure Sized (v : Wall) (width : Int) (height : Nat) (cell : Nat × Nat) : Prop where
  size : cell = v.screenMgrRes.numBlocks.cellSize width height
  placed : ∀ x ∈ v.screenMgrRes.moves cell.1 cell.2, v.rect x.1 = x.2

theorem layOut_sized (v : Wall) {width : Int} {height : Nat} {cell : Nat × Nat}
    (h : cell = v.screenMgrRes.numBlocks.cellSize width height) :
    (v.layOut cell.1 cell.2).Sized width height cell := by
  have hres : (v.layOut cell.1 cell.2).screenMgrRes = v.screenMgrRes := v.layOut_screenMgrRes _ _
  refine ⟨hres ▸ h, fun x hx => v.layOut_rect ?_⟩
  rwa [hres] at hx

theorem adjest_eq {v : Wall} (h : v.active = true) (cx cy : Int) :
    v.adjest cx cy = ({ v with width := u32 cx, height := u32 cy }).layOut
      (v.screenMgrRes.numBlocks.cellSize cx (u32 cy)).1
      (v.screenMgrRes.numBlocks.cellSize cx (u32 cy)).2 :=
  if_pos h

theorem changeLayout_eq {v : Wall} {resolution : Resolution} (h : v.screenMgrRes ≠ resolution) :
    v.changeLayout resolution = ({ v with screenMgrRes := resolution }).hideAll.layOut
      (resolution.numBlocks.cellSize v.width v.height).1
      (resolution.numBlocks.cellSize v.width v.height).2 := by
  rw [changeLayout, if_neg h]
  simp only [Round.cellSize]

/-- The wall was laid out for a size that leaves room beside the titles. -/
structure LaidOutFor (v : Wall) (cx cy : Int) (cell : Nat × Nat) : Prop where
  width : v.width = cx
  height : v.height = cy
  wide : MININUM_TREE_CTL_WIDTH ≤ cx ∧ cx < 2147483648
  high : cy < 2147483648
  sized : v.Sized v.width v.height cell

end Wall

/-- There is a cell for the size told last. -/
structure Window.Adjusted (s : Window) : Prop where
  active : s.wall.active = true
  laidOut : ∀ size ∈ s.client, ∃ cell ∈ s.cell, s.wall.LaidOutFor size.1 size.2 cell

/-! ## Fitting -/

theorem numBlocks_pos (resolution : Resolution) :
    0 < resolution.numBlocks.h ∧ 0 < resolution.numBlocks.v := by
  cases resolution <;> decide

/-- Every screen of the layout is moved. -/
theorem exists_move {resolution : Resolution} {k : ScreenRef} (hk : k.val < resolution.tiles)
    (width height : Nat) : ∃ x ∈ resolution.moves width height, x.1 = k := by
  have hmem : k.val ∈ (resolution.moves width height).map (·.1.val) := by
    rw [moves_once, List.mem_range]
    exact hk
  obtain ⟨x, hx, he⟩ := List.mem_map.mp hmem
  exact ⟨x, hx, Fin.ext he⟩

theorem mul_div_le_int (n : Nat) (d : Nat) : (d * (n / d : Nat) : Int) ≤ n := by
  exact_mod_cast Nat.mul_div_le n d

theorem Wall.LaidOutFor.fits {v : Wall} {cx cy : Int} {cell : Nat × Nat}
    (h : v.LaidOutFor cx cy cell) :
    FitsClient v cx cy cell := by
  obtain ⟨hwidth, hheight, ⟨hwide, hcx⟩, hcy, hsize, hplaced⟩ := h
  have hu : (u32 (cx - MININUM_TREE_CTL_WIDTH) : Int) = cx - MININUM_TREE_CTL_WIDTH := by
    rw [u32]
    omega
  have hw : (v.screenMgrRes.numBlocks.h * cell.1 : Int) ≤ cx - MININUM_TREE_CTL_WIDTH := by
    rw [hsize, hwidth, ← hu]
    exact mul_div_le_int _ _
  have hh : (v.screenMgrRes.numBlocks.v * cell.2 : Int) ≤ cy := by
    rw [hsize, ← hheight]
    exact mul_div_le_int _ _
  have hfits : FitsLong v.screenMgrRes cell.1 cell.2 := by
    have hwidth' : ((v.screenMgrRes.numBlocks.h * cell.1 : Nat) : Int) ≤
      cx - MININUM_TREE_CTL_WIDTH := hw
    have hheight' : ((v.screenMgrRes.numBlocks.v * cell.2 : Nat) : Int) ≤ cy := hh
    exact ⟨by omega, by omega⟩
  refine ⟨by omega, hh, hu, fun k hk => ?_⟩
  obtain ⟨x, hx, rfl⟩ := exists_move hk cell.1 cell.2
  have hmem : x.2.box ∈ (v.screenMgrRes.rects cell.1 cell.2).map Rect.box := by
    rw [← moves_rects, List.map_map]
    exact List.mem_map_of_mem hx
  obtain ⟨hl, hr, ht, hb⟩ := (rects_tile hfits).within _ hmem
  rw [hplaced x hx]
  refine ⟨hl, hr.trans ?_, ht, hb.trans hh⟩
  simp only [Resolution.area, Rect.box, clientArea]
  omega

/-- A width below that of the titles wraps, and its cells are too wide. -/
theorem not_fits_of_narrow {v : Wall} {cx cy : Int} {cell : Nat × Nat} (h0 : 0 ≤ cx)
    (hcx : cx < MININUM_TREE_CTL_WIDTH)
    (hsize : cell.1 = u32 (cx - MININUM_TREE_CTL_WIDTH) / v.screenMgrRes.numBlocks.h) :
    ¬ FitsClient v cx cy cell := by
  intro hf
  have htree : (MININUM_TREE_CTL_WIDTH : Int) = 200 := rfl
  have hu : (u32 (cx - MININUM_TREE_CTL_WIDTH) : Int) = 4294967296 +
    (cx - MININUM_TREE_CTL_WIDTH) := by
    rw [u32]
    omega
  have hle := hf.width
  rw [hsize] at hle
  generalize u32 (cx - MININUM_TREE_CTL_WIDTH) = left at hu hle
  have hpos := (numBlocks_pos v.screenMgrRes).1
  have hmul : left < v.screenMgrRes.numBlocks.h * (left / v.screenMgrRes.numBlocks.h + 1) :=
    Nat.lt_mul_div_succ left hpos
  have hh : v.screenMgrRes.numBlocks.h ≤ 5 := by cases v.screenMgrRes <;> decide
  rw [Nat.mul_succ] at hmul
  have hcells : ((v.screenMgrRes.numBlocks.h * (left / v.screenMgrRes.numBlocks.h) : Nat) : Int) ≤
      max cx MININUM_TREE_CTL_WIDTH - MININUM_TREE_CTL_WIDTH := by
    rw [Int.natCast_mul]
    omega
  omega

/-! ## Runs -/

theorem Wall.layOut_laidOutFor {v : Wall} {cx cy : Int} (hw : v.width = cx) (hh : v.height = cy)
    (hwide : MININUM_TREE_CTL_WIDTH ≤ cx ∧ cx < 2147483648) (hcy : cy < 2147483648) :
    (v.layOut (v.screenMgrRes.numBlocks.cellSize v.width v.height).1
      (v.screenMgrRes.numBlocks.cellSize v.width v.height).2).LaidOutFor cx cy
        (v.screenMgrRes.numBlocks.cellSize v.width v.height) := by
  refine ⟨by rw [layOut_width, hw], by rw [layOut_height, hh], hwide, hcy, ?_⟩
  rw [layOut_width, layOut_height]
  exact v.layOut_sized rfl

theorem Window.Adjusted.onSize {s : Window} (h : s.Adjusted) {cx cy : Int32} (h0 : 0 ≤ cy.toInt)
    (hw : MININUM_TREE_CTL_WIDTH ≤ cx.toInt) : (s.onSize cx.toInt cy.toInt).Adjusted := by
  have hcx : cx.toInt < 2147483648 := cx.toInt_lt
  have hcy : cy.toInt < 2147483648 := cy.toInt_lt
  have hx : (u32 cx.toInt : Int) = cx.toInt := by
    rw [u32]
    omega
  have hy : (u32 cy.toInt : Int) = cy.toInt := by
    rw [u32]
    omega
  have hadj := Wall.adjest_eq h.active cx.toInt cy.toInt
  constructor
  · rw [Window.onSize, hadj, Wall.layOut_active]
    exact h.active
  · intro size hsize
    cases hsize
    refine ⟨_, if_pos h.active, ?_⟩
    have hlaid := Wall.layOut_laidOutFor
      (v := { s.wall with width := u32 cx.toInt, height := u32 cy.toInt }) hx hy ⟨hw, hcx⟩ hcy
    simp only [hx] at hlaid
    rw [Window.onSize, hadj]
    exact hlaid

theorem Window.Adjusted.changeLayout {s : Window} (h : s.Adjusted) (resolution : Resolution) :
    (s.changeLayout resolution).Adjusted := by
  by_cases hres : s.wall.screenMgrRes = resolution
  · -- the same layout again: nothing is laid out
    have hwall : s.wall.changeLayout resolution = s.wall := if_pos hres
    rw [Window.changeLayout, hwall, if_pos hres]
    exact ⟨h.active, h.laidOut⟩
  · have hhide := ({ s.wall with screenMgrRes := resolution } : Wall).hideAll_settings
    simp only [Wall.settings, Prod.mk.injEq] at hhide
    obtain ⟨hr, hw, hh, ha⟩ := hhide
    rw [Window.changeLayout, Wall.changeLayout_eq hres, if_neg hres]
    generalize ({ s.wall with screenMgrRes := resolution } : Wall).hideAll = v at hr hw hh ha
    subst hr
    constructor
    · rw [Wall.layOut_active]
      exact ha.trans h.active
    · intro size hsize
      obtain ⟨cell, -, hlaid⟩ := h.laidOut size hsize
      refine ⟨_, rfl, ?_⟩
      simp only [← hw, ← hh]
      exact Wall.layOut_laidOutFor (by rw [hw, hlaid.width]) (by rw [hh, hlaid.height])
        hlaid.wide hlaid.high

theorem not_fitsWindow_onSize {s : Window} (h : s.Adjusted) (cx cy : Int32) (h0 : 0 ≤ cx.toInt)
    (hw : ¬ MININUM_TREE_CTL_WIDTH ≤ cx.toInt) : ¬ (s.onSize cx.toInt cy.toInt).FitsWindow := by
  intro hf
  obtain ⟨cell, hcell, hfits⟩ := hf (cx.toInt, cy.toInt) rfl
  have he : cell = s.wall.screenMgrRes.numBlocks.cellSize cx.toInt (u32 cy.toInt) := by
    rw [Window.onSize, if_pos h.active] at hcell
    exact (Option.some.inj hcell).symm
  refine not_fits_of_narrow h0 (Int.not_le.mp hw) ?_ hfits
  have hres : (s.wall.adjest cx.toInt cy.toInt).screenMgrRes = s.wall.screenMgrRes := by
    rw [Wall.adjest_eq h.active]
    exact Wall.layOut_screenMgrRes _ _ _
  rw [Window.onSize, hres, he]
  rfl

theorem windowSys_guarded :
    windowSys.Guarded (fun _ => WideEnough) Window.Adjusted Window.FitsWindow where
  init s h := ⟨h.active, fun size hs => by rw [h.client] at hs; cases hs⟩
  step s op s' hi hc hst := by
    cases op with
    | onSize cx cy =>
      obtain ⟨h0, he⟩ := Option.ite_none_right_eq_some.mp hst
      cases he
      exact hi.onSize h0.2 hc
    | changeLayout resolution =>
      obtain ⟨-, he⟩ := Option.ite_none_right_eq_some.mp hst
      cases he
      exact hi.changeLayout resolution
  safe s hi size hs := by
    obtain ⟨cell, hcell, hlaid⟩ := hi.laidOut size hs
    exact ⟨cell, hcell, hlaid.fits⟩
  sharp s op s' hi hc hst := by
    cases op with
    | onSize cx cy =>
      obtain ⟨h0, he⟩ := Option.ite_none_right_eq_some.mp hst
      cases he
      exact not_fitsWindow_onSize hi cx cy h0.1 hc
    | changeLayout resolution => exact absurd trivial hc

/-- **The wall fits the window.** After every size and every change of layout,
exactly if no size is narrower than the titles. -/
theorem fits_iff {s₀ s : Window} {ms : List (Move Window WindowOp)} (h0 : s₀.Opened)
    (hr : windowSys.Run s₀ ms s) :
    (∀ x ∈ visited s₀ ms, x.FitsWindow) ↔ ∀ m ∈ ms, WideEnough m.lbl :=
  windowSys_guarded.safe_along_iff h0 hr

/-- The dialog after `Launch`. -/
def Window.opened : Window := ⟨Wall.prepared.launch, none, none⟩

theorem Window.opened_opened : Window.opened.Opened := ⟨rfl, rfl⟩

/-- Maximised, another layout, a smaller window. -/
def resized : List WindowOp := [.onSize 1920 1017, .changeLayout .res1x5, .onSize 728 432]

theorem fits_iff_resized :
    (∀ m ∈ moves Window.step .opened resized, WideEnough m.lbl) ∧
      ∀ x ∈ visited .opened (moves Window.step .opened resized), x.FitsWindow := by
  have hwide : ∀ m ∈ moves Window.step .opened resized, WideEnough m.lbl := by decide +kernel
  exact ⟨hwide, (fits_iff Window.opened_opened (run_of_exec resized (by decide +kernel))).mpr hwide⟩

/-- A minimised window: 2^32 - 200 is divided among five columns. -/
theorem minimised_overflows : ∃ s, windowSys.Reachable s ∧ s.client = some (0, 0) ∧
    s.cell = some (858993419, 0) ∧ ¬ s.FitsWindow := by
  refine ⟨Window.opened.onSize 0 0, reachable_of_exec [.onSize 0 0] Window.opened_opened rfl, rfl,
    rfl, ?_⟩
  exact not_fitsWindow_onSize (windowSys_guarded.init _ Window.opened_opened) 0 0
    (by decide) (by decide)

end MonitorAgent.L3
