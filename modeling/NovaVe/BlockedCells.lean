import NovaVe.OrthogonalGrid

namespace NovaVe

theorem mem_loopRange {lo hi x : Int} : x ∈ loopRange lo hi ↔ lo ≤ x ∧ x ≤ hi := by
  unfold loopRange
  rw [List.mem_map]
  constructor
  · rintro ⟨k, hk, rfl⟩
    have hlt := List.mem_range.mp hk
    omega
  · rintro ⟨hlo, hhi⟩
    exact ⟨(x - lo).toNat, List.mem_range.mpr (by omega), by omega⟩

/-- The clamped value of a cell's bounds still bounds the cells of the grid. -/
theorem clamp_bounds {v n c : Int} (h0 : 0 ≤ c) (hn : c ≤ n) :
    (v ≤ c → clamp v 0 n ≤ c) ∧ (c ≤ v → c ≤ clamp v 0 n) := by
  unfold clamp
  constructor
  · intro h
    split
    next => exact h0
    next =>
      split
      next => omega
      next => exact h
  · intro h
    split
    next => omega
    next =>
      split
      next => exact hn
      next => exact h

theorem clamp_inside (v : Int) {n : Int} (hn : 0 ≤ n) : 0 ≤ clamp v 0 n ∧ clamp v 0 n ≤ n := by
  unfold clamp
  split
  next => omega
  next =>
    split
    next => omega
    next => omega

/-- The bounds, the step and the size of a grid. -/
def Grid.shape (grid : Grid) : RouteBounds × ℚ × Nat × Nat :=
  (grid.bounds, grid.step, grid.cols, grid.rows)

theorem setBlocked_shape (grid : Grid) (value : Bool) (cx cy : Int) :
    (grid.setBlocked value cx cy).shape = grid.shape := by
  unfold Grid.setBlocked
  split
  next => rfl
  next => rfl

theorem cellRange_shape {grid grid' : Grid} (h : grid.shape = grid'.shape) (box : InflatedBox) :
    grid.cellRange box = grid'.cellRange box := by
  unfold Grid.shape at h
  simp only [Prod.mk.injEq] at h
  obtain ⟨hbounds, hstep, hcols, hrows⟩ := h
  unfold Grid.cellRange
  rw [hbounds, hstep, hcols, hrows]

theorem inBounds_shape {grid grid' : Grid} (h : grid.shape = grid'.shape) (cx cy : Int) :
    grid.inBounds cx cy = grid'.inBounds cx cy := by
  unfold Grid.shape at h
  simp only [Prod.mk.injEq] at h
  obtain ⟨_, _, hcols, hrows⟩ := h
  unfold Grid.inBounds
  rw [hcols, hrows]

theorem block_isBlocked (grid : Grid) (cx cy cx' cy' : Int) :
    (grid.block cx cy).isBlocked cx' cy' = true ↔
      (cx = cx' ∧ cy = cy') ∨ grid.isBlocked cx' cy' = true := by
  unfold Grid.block
  rw [Grid.setBlocked_isBlocked]
  split
  next h => exact ⟨fun _ => Or.inl ⟨h.1, h.2.1⟩, fun _ => rfl⟩
  next h =>
    constructor
    · exact Or.inr
    · rintro (⟨rfl, rfl⟩ | hold)
      · have hout : ¬ grid.inBounds cx cy = true := fun hin => h ⟨rfl, rfl, hin⟩
        unfold Grid.isBlocked
        simp [hout]
      · exact hold

/-- Blocking a column of a row after another. -/
theorem blockRow_spec (grid : Grid) (cy : Int) (columns : List Int) :
    (columns.foldl (fun grid cx => grid.block cx cy) grid).shape = grid.shape ∧
      ∀ cx' cy', (columns.foldl (fun grid cx => grid.block cx cy) grid).isBlocked cx' cy' = true ↔
        (cx' ∈ columns ∧ cy = cy') ∨ grid.isBlocked cx' cy' = true := by
  induction columns generalizing grid with
  | nil => simp
  | cons cx rest ih =>
    obtain ⟨hshape, hblocked⟩ := ih (grid.block cx cy)
    rw [List.foldl_cons]
    refine ⟨hshape.trans (setBlocked_shape grid true cx cy), ?_⟩
    intro cx' cy'
    rw [hblocked, block_isBlocked, List.mem_cons, eq_comm (a := cx)]
    tauto

/-- The cells of a range. -/
def CellRange.Has (range : CellRange) (cell : GridCell) : Prop :=
  (range.cx0 ≤ cell.cx ∧ cell.cx ≤ range.cx1) ∧ range.cy0 ≤ cell.cy ∧ cell.cy ≤ range.cy1

theorem blockRange_spec (grid : Grid) (range : CellRange) :
    (grid.blockRange range).shape = grid.shape ∧
      ∀ cell : GridCell, (grid.blockRange range).isBlocked cell.cx cell.cy = true ↔
        range.Has cell ∨ grid.isBlocked cell.cx cell.cy = true := by
  have hrun : ∀ (lines : List Int) (grid : Grid),
      (lines.foldl (fun grid cy =>
        (loopRange range.cx0 range.cx1).foldl (fun grid cx => grid.block cx cy) grid) grid).shape =
          grid.shape ∧
      ∀ cell : GridCell, (lines.foldl (fun grid cy =>
        (loopRange range.cx0 range.cx1).foldl (fun grid cx => grid.block cx cy) grid) grid).isBlocked
          cell.cx cell.cy = true ↔
          (cell.cx ∈ loopRange range.cx0 range.cx1 ∧ cell.cy ∈ lines) ∨
            grid.isBlocked cell.cx cell.cy = true := by
    intro lines
    induction lines with
    | nil =>
      intro grid
      simp
    | cons cy rest ih =>
      intro grid
      obtain ⟨hrow, hblockedRow⟩ := blockRow_spec grid cy (loopRange range.cx0 range.cx1)
      obtain ⟨hshape, hblocked⟩ := ih ((loopRange range.cx0 range.cx1).foldl
        (fun grid cx => grid.block cx cy) grid)
      rw [List.foldl_cons]
      refine ⟨hshape.trans hrow, ?_⟩
      intro cell
      rw [hblocked, hblockedRow, List.mem_cons, eq_comm (a := cy)]
      tauto
  obtain ⟨hshape, hblocked⟩ := hrun (loopRange range.cy0 range.cy1) grid
  refine ⟨hshape, ?_⟩
  intro cell
  have hcell := hblocked cell
  rw [mem_loopRange, mem_loopRange] at hcell
  exact hcell

/-- The cells of every obstacle are blocked. -/
theorem buildGrid_spec (bounds : RouteBounds) (obstacles : List Obstacle) (clearance step : ℚ) :
    (buildGrid bounds obstacles clearance step).shape = (Grid.empty bounds step).shape ∧
      ∀ cell : GridCell, (buildGrid bounds obstacles clearance step).isBlocked cell.cx cell.cy = true ↔
        (∃ o ∈ obstacles, ((Grid.empty bounds step).cellRange (o.inflated clearance)).Has cell) ∨
          (Grid.empty bounds step).isBlocked cell.cx cell.cy = true := by
  have hrun : ∀ (obstacles : List Obstacle) (grid : Grid), grid.shape = (Grid.empty bounds step).shape →
      (obstacles.foldl (fun grid o => grid.blockRange (grid.cellRange (o.inflated clearance)))
        grid).shape = (Grid.empty bounds step).shape ∧
      ∀ cell : GridCell,
        (obstacles.foldl (fun grid o => grid.blockRange (grid.cellRange (o.inflated clearance)))
          grid).isBlocked cell.cx cell.cy = true ↔
        (∃ o ∈ obstacles, ((Grid.empty bounds step).cellRange (o.inflated clearance)).Has cell) ∨
          grid.isBlocked cell.cx cell.cy = true := by
    intro obstacles
    induction obstacles with
    | nil =>
      intro grid hgrid
      exact ⟨hgrid, by simp⟩
    | cons o rest ih =>
      intro grid hgrid
      obtain ⟨hkept, hone⟩ := blockRange_spec grid (grid.cellRange (o.inflated clearance))
      obtain ⟨hshape, hblocked⟩ := ih (grid.blockRange (grid.cellRange (o.inflated clearance)))
        (hkept.trans hgrid)
      rw [List.foldl_cons]
      refine ⟨hshape, ?_⟩
      intro cell
      rw [hblocked, hone, cellRange_shape hgrid, List.exists_mem_cons_iff, or_left_comm, or_assoc]
  exact hrun obstacles (Grid.empty bounds step) rfl

theorem cell_ext {a b : GridCell} (hx : a.cx = b.cx) (hy : a.cy = b.cy) : a = b := by
  obtain ⟨ax, ay⟩ := a
  obtain ⟨bx, by'⟩ := b
  cases hx
  cases hy
  rfl

/-- A cell of a grid is snapped into the grid. -/
theorem cellAt_inBounds {grid : Grid} (hcols : 0 < grid.cols) (hrows : 0 < grid.rows) (x y : ℚ) :
    grid.inBounds (grid.cellAt x y).cx (grid.cellAt x y).cy = true := by
  have hx := clamp_inside (mathRound ((x - grid.bounds.minX) / grid.step))
    (by omega : (0 : Int) ≤ grid.cols - 1)
  have hy := clamp_inside (mathRound ((y - grid.bounds.minY) / grid.step))
    (by omega : (0 : Int) ≤ grid.rows - 1)
  rw [Grid.inBounds_iff]
  unfold Grid.cellAt
  dsimp only
  omega

theorem empty_size (bounds : RouteBounds) (step : ℚ) :
    0 < (Grid.empty bounds step).cols ∧ 0 < (Grid.empty bounds step).rows := by
  unfold Grid.empty
  dsimp only
  omega

/-- Carving an exit frees that cell at most. -/
theorem carveExit_spec (grid : Grid) (port : PortRef) (cell : GridCell) :
    (carveExit grid port cell).shape = grid.shape ∧
      ∀ other : GridCell, other ≠ exitCell port cell →
        (carveExit grid port cell).isBlocked other.cx other.cy = grid.isBlocked other.cx other.cy := by
  unfold carveExit
  dsimp only
  split
  next =>
    refine ⟨setBlocked_shape grid false _ _, ?_⟩
    intro other hne
    unfold Grid.unblock
    rw [Grid.setBlocked_isBlocked, if_neg]
    rintro ⟨hx, hy, _⟩
    exact hne (cell_ext hx.symm hy.symm)
  next => exact ⟨rfl, fun _ _ => rfl⟩

/-- A cell that is neither a port's cell nor an exit. -/
structure RouteRequest.Plain (req : RouteRequest) (cell : GridCell) : Prop where
  notStart : cell ≠ req.startCell
  notEnd : cell ≠ req.endCell
  notSourceExit : cell ≠ exitCell req.source req.startCell
  notTargetExit : cell ≠ exitCell req.target req.endCell

theorem unblock_spec (grid : Grid) (cell : GridCell) :
    (grid.unblock cell.cx cell.cy).shape = grid.shape ∧
      ∀ other : GridCell, other ≠ cell →
        (grid.unblock cell.cx cell.cy).isBlocked other.cx other.cy =
          grid.isBlocked other.cx other.cy := by
  refine ⟨setBlocked_shape grid false _ _, ?_⟩
  intro other hne
  unfold Grid.unblock
  rw [Grid.setBlocked_isBlocked, if_neg]
  rintro ⟨hx, hy, _⟩
  exact hne (cell_ext hx.symm hy.symm)

/-- The grid that is searched has the obstacles' cells blocked but for the ports' cells and exits. -/
theorem RouteRequest.grid_spec (req : RouteRequest) :
    req.grid.shape = (Grid.empty req.bounds gridStep).shape ∧
      ∀ cell, req.Plain cell →
        req.grid.isBlocked cell.cx cell.cy = req.obstacleGrid.isBlocked cell.cx cell.cy := by
  obtain ⟨hbuild, _⟩ := buildGrid_spec req.bounds
    (filterObstacles req.obstacles req.bounds portClearance) portClearance gridStep
  obtain ⟨h1, hb1⟩ := unblock_spec req.obstacleGrid req.startCell
  obtain ⟨h2, hb2⟩ := unblock_spec (req.obstacleGrid.unblock req.startCell.cx req.startCell.cy)
    req.endCell
  obtain ⟨h3, hb3⟩ := carveExit_spec ((req.obstacleGrid.unblock req.startCell.cx
    req.startCell.cy).unblock req.endCell.cx req.endCell.cy) req.source req.startCell
  obtain ⟨h4, hb4⟩ := carveExit_spec (carveExit ((req.obstacleGrid.unblock req.startCell.cx
    req.startCell.cy).unblock req.endCell.cx req.endCell.cy) req.source req.startCell) req.target
    req.endCell
  constructor
  · exact h4.trans (h3.trans (h2.trans (h1.trans hbuild)))
  · intro cell hplain
    exact (hb4 cell hplain.notTargetExit).trans ((hb3 cell hplain.notSourceExit).trans
      ((hb2 cell hplain.notEnd).trans (hb1 cell hplain.notStart)))

end NovaVe
