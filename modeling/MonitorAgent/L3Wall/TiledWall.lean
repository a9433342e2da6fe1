import MonitorAgent.Core.Tiling
import MonitorAgent.L3Wall.Visibility

/-!
# Every layout tiles the wall

The rectangles that the five `ChangeLayout_*` (Monitor/Monitor/ScreenMgr.cpp:324-439)
hand out, for cells small enough that no coordinate wraps (`FitsLong`). The three
grids are rows of cells; `ChangeLayout_1x5` is a tile of two by two cells with two
cells beside it and three below.

* `rects_tile`: the rectangles tile the wall.
* `layOut_tiles`: they go to the first screens of the array, one each, and none
  is over the titles.
-/
namespace MonitorAgent.L3

open Tiling

def Rect.box (r : Rect) : Box Int := ⟨r.left, r.top, r.right, r.bottom⟩

/-- The columns and rows of the layout, to the right of the titles. -/
def Resolution.area (resolution : Resolution) (width height : Nat) : Rect :=
  ⟨MININUM_TREE_CTL_WIDTH, 0, MININUM_TREE_CTL_WIDTH + resolution.numBlocks.h * width,
    resolution.numBlocks.v * height⟩

/-- The right and the lower edge of the wall are `LONG`s. -/
structure FitsLong (resolution : Resolution) (width height : Nat) : Prop where
  width : MININUM_TREE_CTL_WIDTH + resolution.numBlocks.h * width < 2147483648
  height : resolution.numBlocks.v * height < 2147483648

/-- The calls of `MoveToRect` for the screens, in order. -/
def Resolution.moves (resolution : Resolution) (width height : Nat) : List (ScreenRef × Rect) :=
  (List.finRange MAXIMAL_SCREEN_NUM).zip (resolution.rects width height)

/-! ## Coordinates -/

/-- The left edge of a column; `columnAt width n` is the right edge of the last of `n`. -/
def columnAt (width col : Nat) : Int := ((MININUM_TREE_CTL_WIDTH + col * width : Nat) : Int)

def rowAt (height row : Nat) : Int := ((row * height : Nat) : Int)

theorem columnAt_le (width : Nat) {i j : Nat} (h : i ≤ j) : columnAt width i ≤ columnAt width j :=
  Int.ofNat_le.mpr (Nat.add_le_add_left (Nat.mul_le_mul_right width h) _)

theorem rowAt_le (height : Nat) {i j : Nat} (h : i ≤ j) : rowAt height i ≤ rowAt height j :=
  Int.ofNat_le.mpr (Nat.mul_le_mul_right height h)

theorem long_u32 {n : Nat} (h : n < 2147483648) : long (u32 n) = n := by
  have hu : u32 n = n := by
    rw [u32]
    omega
  rw [hu, long, if_pos h]

/-- The rectangle of a cell. -/
def cell (width height col row : Nat) : Rect :=
  ⟨columnAt width col, rowAt height row, columnAt width (col + 1), rowAt height (row + 1)⟩

@[simp] theorem cell_right (width height col row : Nat) :
    (cell width height col row).right = columnAt width (col + 1) := rfl

@[simp] theorem cell_bottom (width height col row : Nat) :
    (cell width height col row).bottom = rowAt height (row + 1) := rfl

/-- A rectangle of some columns and rows, as the code adds it up. -/
theorem Rect.at_eq {width height : Nat} (col row cols rows : Nat)
    (hw : MININUM_TREE_CTL_WIDTH + (col + cols) * width < 2147483648)
    (hh : (row + rows) * height < 2147483648) :
    Rect.at (columnAt width col) (rowAt height row) (cols * width) (rows * height) =
      ⟨columnAt width col, rowAt height row, columnAt width (col + cols),
        rowAt height (row + rows)⟩ := by
  have hright : columnAt width col + ((cols * width : Nat) : Int) =
    columnAt width (col + cols) := by
    rw [columnAt, columnAt, ← Int.natCast_add, Nat.add_assoc, ← Nat.add_mul]
  have hbottom : rowAt height row + ((rows * height : Nat) : Int) = rowAt height (row + rows) := by
    rw [rowAt, rowAt, ← Int.natCast_add, ← Nat.add_mul]
  have hx : long (u32 (columnAt width (col + cols))) = columnAt width (col + cols) := long_u32 hw
  have hy : long (u32 (rowAt height (row + rows))) = rowAt height (row + rows) := long_u32 hh
  rw [Rect.at, hright, hbottom, hx, hy]

theorem Rect.at_cell {width height col row : Nat}
    (hw : MININUM_TREE_CTL_WIDTH + (col + 1) * width < 2147483648)
    (hh : (row + 1) * height < 2147483648) :
    Rect.at (columnAt width col) (rowAt height row) width height = cell width height col row := by
  have h := Rect.at_eq col row 1 1 hw hh
  rwa [Nat.one_mul, Nat.one_mul] at h

/-! ## The grids -/

theorem mul_lt_of_le {a b m n : Nat} (hab : a ≤ b) (h : m + b * n < 2147483648) :
    m + a * n < 2147483648 :=
  Nat.lt_of_le_of_lt (Nat.add_le_add_left (Nat.mul_le_mul_right n hab) m) h

theorem gridRects_eq {rows cols width height : Nat}
    (hw : MININUM_TREE_CTL_WIDTH + cols * width < 2147483648) (hh : rows * height < 2147483648) :
    gridRects rows cols width height = (List.range rows).flatMap fun row =>
      (List.range cols).map fun col => cell width height col row := by
  have hh0 : 0 + rows * height < 2147483648 := by rwa [Nat.zero_add]
  -- the indices are cast before they are multiplied
  simp only [gridRects, List.bind_eq_flatMap, List.pure_def, ← List.map_eq_flatMap, List.map_map,
    List.flatMap_map, Function.comp_def]
  refine List.flatMap_congr fun row hrow => List.map_congr_left fun col hcol => ?_
  have hr : row + 1 ≤ rows := List.mem_range.mp hrow
  have hc : col + 1 ≤ cols := List.mem_range.mp hcol
  have hx : long (u32 (col * width + col * MININUM_PADDING + MININUM_TREE_CTL_WIDTH)) =
    columnAt width col := by
    have he : (col * width + col * MININUM_PADDING + MININUM_TREE_CTL_WIDTH : Int) =
        (MININUM_TREE_CTL_WIDTH + col * width : Nat) := by
      simp [MININUM_PADDING, Int.add_comm]
    rw [he]
    exact long_u32 (mul_lt_of_le (Nat.le_of_succ_le hc) hw)
  have hy : long (u32 (row * height + row * MININUM_PADDING)) = rowAt height row := by
    have he : (row * height + row * MININUM_PADDING : Int) = (row * height : Nat) := by
      simp [MININUM_PADDING]
    have hlt := mul_lt_of_le (Nat.le_of_succ_le hr) hh0
    rw [Nat.zero_add] at hlt
    rw [he]
    exact long_u32 hlt
  have hbottom := mul_lt_of_le hr hh0
  rw [Nat.zero_add] at hbottom
  rw [hx, hy, Rect.at_cell (mul_lt_of_le hc hw) hbottom]

/-! ## The irregular layout -/

theorem changeLayout1x5_eq {width height : Nat}
    (hw : MININUM_TREE_CTL_WIDTH + 3 * width < 2147483648) (hh : 3 * height < 2147483648) :
    changeLayout1x5 width height =
      [⟨columnAt width 0, rowAt height 0, columnAt width 2, rowAt height 2⟩, cell width height 2 0,
        cell width height 2 1, cell width height 0 2, cell width height 1 2,
        cell width height 2 2] := by
  have hw200 : 200 + 3 * width < 2147483648 := hw
  have hcell {col row : Nat} (hc : col + 1 ≤ 3) (hr : row + 1 ≤ 3) :
      Rect.at (columnAt width col) (rowAt height row) width height = cell width height col row := by
    have hbottom : 0 + (row + 1) * height < 2147483648 := mul_lt_of_le hr (by omega)
    exact Rect.at_cell (mul_lt_of_le hc hw) (by omega)
  have hcolumn {col : Nat} (hc : col ≤ 3) :
      long (u32 (columnAt width col + MININUM_PADDING)) = columnAt width col :=
    long_u32 (mul_lt_of_le hc hw)
  have hrow {row : Nat} (hr : row ≤ 3) :
      long (u32 (rowAt height row + MININUM_PADDING)) = rowAt height row := by
    have hlt : 0 + row * height < 2147483648 := mul_lt_of_le hr (by omega)
    exact long_u32 (n := row * height) (by omega)
  have hstart : (MININUM_TREE_CTL_WIDTH : Int) = columnAt width 0 := by
    rw [columnAt, Nat.zero_mul, Nat.add_zero]
  have hzero : (0 : Int) = rowAt height 0 := by rw [rowAt, Nat.zero_mul, Int.natCast_zero]
  have hbig : Rect.at (columnAt width 0) (rowAt height 0) (u32 (width * 2 + MININUM_PADDING))
      (u32 (height * 2 + MININUM_PADDING)) =
        ⟨columnAt width 0, rowAt height 0, columnAt width 2, rowAt height 2⟩ := by
    have hx : u32 (width * 2 + MININUM_PADDING) = 2 * width := by
      rw [u32, MININUM_PADDING]
      omega
    have hy : u32 (height * 2 + MININUM_PADDING) = 2 * height := by
      rw [u32, MININUM_PADDING]
      omega
    rw [hx, hy]
    exact Rect.at_eq 0 0 2 2 (mul_lt_of_le (by decide) hw) (by omega)
  simp only [changeLayout1x5]
  rw [hzero, hstart, hbig]
  simp (disch := decide) only [hcolumn, hrow, hcell, cell_right, cell_bottom, Nat.reduceAdd]

/-! ## All layouts -/

theorem area_box (resolution : Resolution) (width height : Nat) :
    (resolution.area width height).box = ⟨columnAt width 0, rowAt height 0,
      columnAt width resolution.numBlocks.h, rowAt height resolution.numBlocks.v⟩ := by
  simp [Resolution.area, Rect.box, columnAt, rowAt]

theorem changeLayout1x1_eq {width height : Nat}
    (hw : MININUM_TREE_CTL_WIDTH + 1 * width < 2147483648) (hh : 1 * height < 2147483648) :
    changeLayout1x1 width height = [cell width height 0 0] := by
  have hx : long (u32 (columnAt width 1)) = columnAt width 1 := long_u32 hw
  have hy : long height = rowAt height 1 := by rw [rowAt, long, if_pos (by omega), Nat.one_mul]
  simp only [columnAt, Nat.one_mul, Int.natCast_add] at hx
  simp [changeLayout1x1, cell, columnAt, hx, hy, rowAt]

theorem gridRects_tile {rows cols width height : Nat}
    (hw : MININUM_TREE_CTL_WIDTH + cols * width < 2147483648) (hh : rows * height < 2147483648) :
    Tiles ⟨columnAt width 0, rowAt height 0, columnAt width cols, rowAt height rows⟩
      ((gridRects rows cols width height).map Rect.box) := by
  rw [gridRects_eq hw hh, List.map_flatMap]
  simp only [List.map_map]
  exact Tiles.grid (fun _ _ h => columnAt_le width h) (fun _ _ h => rowAt_le height h) rows cols

/-- The large tile with two cells beside it, and a row of cells below. -/
theorem changeLayout1x5_tile {width height : Nat}
    (hw : MININUM_TREE_CTL_WIDTH + 3 * width < 2147483648) (hh : 3 * height < 2147483648) :
    Tiles ⟨columnAt width 0, rowAt height 0, columnAt width 3, rowAt height 3⟩
      ((changeLayout1x5 width height).map Rect.box) := by
  have hx {i j : Nat} (h : i ≤ j) := columnAt_le width h
  have hy {i j : Nat} (h : i ≤ j) := rowAt_le height h
  have hright : Tiles ⟨columnAt width 2, rowAt height 0, columnAt width 3, rowAt height 2⟩
      ([cell width height 2 0, cell width height 2 1].map Rect.box) :=
    (Tiles.single _).above (hy (by decide)) (hy (by decide)) (.single _)
  have htop : Tiles ⟨columnAt width 0, rowAt height 0, columnAt width 3, rowAt height 2⟩
      ([⟨columnAt width 0, rowAt height 0, columnAt width 2, rowAt height 2⟩, cell width height 2 0,
        cell width height 2 1].map Rect.box) :=
    (Tiles.single _).beside (hx (by decide)) (hx (by decide)) hright
  have hlow : Tiles ⟨columnAt width 0, rowAt height 2, columnAt width 3, rowAt height 3⟩
      ([cell width height 0 2, cell width height 1 2, cell width height 2 2].map Rect.box) :=
    Tiles.row (fun _ _ h => columnAt_le width h) (rowAt height 2) (rowAt height 3) 3
  rw [changeLayout1x5_eq hw hh]
  exact htop.above (hy (by decide)) (hy (by decide)) hlow

theorem rects_tile {resolution : Resolution} {width height : Nat}
    (h : FitsLong resolution width height) :
    Tiles (resolution.area width height).box ((resolution.rects width height).map Rect.box) := by
  obtain ⟨hw, hh⟩ := h
  rw [area_box]
  cases resolution with
  | res1x1 =>
    rw [Resolution.rects, changeLayout1x1_eq hw hh]
    exact .single _
  | res1x5 => exact changeLayout1x5_tile hw hh
  | res2x2 | res3x3 | res3x5 => exact gridRects_tile hw hh

/-! ## Handed to the screens -/

/-- What laying out cells of this size does to the windows. -/
structure Wall.LaidOut (v : Wall) (width height : Nat) (v' : Wall) : Prop where
  tiles : Tiles (v.screenMgrRes.area width height).box
    ((v.screenMgrRes.rects width height).map Rect.box)
  once : (v.screenMgrRes.moves width height).map (·.1.val) = List.range v.screenMgrRes.tiles
  all : (v.screenMgrRes.moves width height).map (·.2) = v.screenMgrRes.rects width height
  moved : ∀ x ∈ v.screenMgrRes.moves width height, v'.rect x.1 = x.2
  kept : ∀ s : ScreenRef, v.screenMgrRes.tiles ≤ s.val → v'.rect s = v.rect s
  titles : v'.titlesRect =
    ⟨0, 0, MININUM_TREE_CTL_WIDTH, v.screenMgrRes.numBlocks.v * height⟩
  apart : ∀ r ∈ v.screenMgrRes.rects width height, r.box.Apart v'.titlesRect.box

theorem moves_screens (resolution : Resolution) (width height : Nat) :
    (resolution.moves width height).map Prod.fst =
      (List.finRange MAXIMAL_SCREEN_NUM).take resolution.tiles := by
  cases resolution <;> rfl

theorem moves_rects (resolution : Resolution) (width height : Nat) :
    (resolution.moves width height).map Prod.snd = resolution.rects width height := by
  refine List.map_snd_zip ?_
  rw [Resolution.rects_length, List.length_finRange]
  cases resolution <;> decide

theorem moves_once (resolution : Resolution) (width height : Nat) :
    (resolution.moves width height).map (·.1.val) = List.range resolution.tiles := by
  have h := congrArg (List.map Fin.val) (moves_screens resolution width height)
  rw [List.map_map] at h
  refine h.trans ?_
  cases resolution <;> decide

namespace Wall

theorem moveAll_rect_of_notMem (v : Wall) {xs : List (ScreenRef × Rect)} {s : ScreenRef}
    (h : s ∉ xs.map Prod.fst) :
    (xs.foldl (fun v x => v.moveToRect x.1 x.2) v).rect s = v.rect s := by
  induction xs generalizing v with
  | nil => rfl
  | cons x xs ih =>
    rw [List.map_cons, List.mem_cons, not_or] at h
    rw [List.foldl_cons, ih _ h.2]
    exact Function.update_of_ne h.1 ..

/-- A screen that is moved once stays where it was moved. -/
theorem moveAll_rect (v : Wall) {xs : List (ScreenRef × Rect)} (hn : (xs.map Prod.fst).Nodup)
    {x : ScreenRef × Rect} (hx : x ∈ xs) :
    (xs.foldl (fun v x => v.moveToRect x.1 x.2) v).rect x.1 = x.2 := by
  induction xs generalizing v with
  | nil => cases hx
  | cons y xs ih =>
    rw [List.map_cons, List.nodup_cons] at hn
    rw [List.foldl_cons]
    rcases List.mem_cons.mp hx with rfl | hx
    · rw [moveAll_rect_of_notMem _ hn.1]
      exact Function.update_self ..
    · exact ih _ hn.2 hx

theorem moveAll_titlesRect (v : Wall) (xs : List (ScreenRef × Rect)) :
    (xs.foldl (fun v x => v.moveToRect x.1 x.2) v).titlesRect = v.titlesRect := by
  induction xs generalizing v with
  | nil => rfl
  | cons x xs ih => exact ih _

theorem layOut_titlesRect (v : Wall) {width height : Nat}
    (h : v.screenMgrRes.numBlocks.v * height < 2147483648) :
    (v.layOut width height).titlesRect =
      ⟨0, 0, MININUM_TREE_CTL_WIDTH, v.screenMgrRes.numBlocks.v * height⟩ := by
  have hlong : long (u32 (height * v.screenMgrRes.numBlocks.v)) =
    v.screenMgrRes.numBlocks.v * height := by
    rw [← Int.natCast_mul, ← Int.natCast_mul, Nat.mul_comm]
    exact long_u32 h
  rw [layOut, moveAll_titlesRect, hlong]

/-- Where the screens of a layout are afterwards. -/
theorem layOut_rect (v : Wall) {width height : Nat} {x : ScreenRef × Rect}
    (hx : x ∈ v.screenMgrRes.moves width height) : (v.layOut width height).rect x.1 = x.2 := by
  have hn : ((v.screenMgrRes.moves width height).map Prod.fst).Nodup := by
    rw [moves_screens]
    exact (List.nodup_finRange _).sublist (List.take_sublist ..)
  exact moveAll_rect _ hn hx

end Wall

/-- **Every layout tiles the wall.** Laid out with cells that fit, the
rectangles tile the columns and rows of the layout, each of the first screens
gets one of them, and none is over the titles. -/
theorem layOut_tiles (v : Wall) {width height : Nat} (h : FitsLong v.screenMgrRes width height) :
    v.LaidOut width height (v.layOut width height) where
  tiles := rects_tile h
  once := moves_once _ _ _
  all := moves_rects _ _ _
  moved _ hx := v.layOut_rect hx
  kept s hs := by
    have hout : s ∉ (v.screenMgrRes.moves width height).map Prod.fst := by
      intro hmem
      have hval : s.val ∈ (v.screenMgrRes.moves width height).map (·.1.val) := by
        obtain ⟨x, hx, rfl⟩ := List.mem_map.mp hmem
        exact List.mem_map.mpr ⟨x, hx, rfl⟩
      rw [moves_once, List.mem_range] at hval
      omega
    exact Wall.moveAll_rect_of_notMem _ hout
  titles := v.layOut_titlesRect h.height
  apart r hr x y hxy := by
    obtain ⟨hin, htitles⟩ := hxy
    have hwithin := (rects_tile h).within r.box (List.mem_map_of_mem hr)
    rw [v.layOut_titlesRect h.height] at htitles
    exact absurd (hwithin.1.trans hin.1) (Int.not_le.mpr htitles.2.1)

/-- The cells that `Launch` starts with. -/
theorem layOut_tiles_launch : Wall.prepared.LaidOut MININUM_SCREEN_WIDTH NIMINUM_SCREEN_HEIGHT
    (Wall.prepared.layOut MININUM_SCREEN_WIDTH NIMINUM_SCREEN_HEIGHT) :=
  layOut_tiles Wall.prepared ⟨by decide, by decide⟩

end MonitorAgent.L3
