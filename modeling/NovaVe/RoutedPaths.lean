import Mathlib.Algebra.Order.Field.Basic
import Mathlib.Tactic.Linarith
import NovaVe.AStarWays
import NovaVe.BlockedCells

namespace NovaVe

/-- The segment between the centres of two cells meets the interior of a box. -/
def StepMeets (grid : Grid) (a b : GridCell) (box : InflatedBox) : Prop :=
  ∃ x y : ℚ, (min (grid.worldX a.cx) (grid.worldX b.cx) ≤ x ∧
      x ≤ max (grid.worldX a.cx) (grid.worldX b.cx)) ∧
    (min (grid.worldY a.cy) (grid.worldY b.cy) ≤ y ∧ y ≤ max (grid.worldY a.cy) (grid.worldY b.cy)) ∧
    (box.x0 < x ∧ x < box.x1) ∧ box.y0 < y ∧ y < box.y1

/-- Every path the search finds avoids the obstacles between its plain cells. -/
def RouteRequest.Avoids (req : RouteRequest) : Prop :=
  ∀ aborted cells, runAStar req.grid req.startCell req.endCell aborted = some (.found cells) →
    ∀ before a b after, cells = before ++ a :: b :: after → req.Plain a → req.Plain b →
      ∀ o ∈ req.obstacles, ¬ StepMeets req.grid a b (o.inflated portClearance)

/-- No obstacle that `filterObstacles` leaves out meets a step between free plain cells of the grid. -/
def RouteRequest.DroppedClear (req : RouteRequest) : Prop :=
  ∀ o ∈ req.obstacles, outsideBounds req.bounds portClearance o = true →
    ∀ a b, Adjacent a b → req.Plain a → req.Plain b → req.grid.isBlocked a.cx a.cy = false →
      req.grid.isBlocked b.cx b.cy = false → ¬ StepMeets req.grid a b (o.inflated portClearance)

/-- One axis of a step: a cell at its end lies between the rounded ends of a box that it meets. -/
theorem axis_between {origin step x x0 x1 : ℚ} {a b : Int} (hstep : 0 < step)
    (hnear : (a - b).natAbs ≤ 1)
    (hlo : min (origin + a * step) (origin + b * step) ≤ x)
    (hhi : x ≤ max (origin + a * step) (origin + b * step)) (h0 : x0 < x) (h1 : x < x1) :
    ⌊(x0 - origin) / step⌋ ≤ a ∧ a ≤ ⌈(x1 - origin) / step⌉ := by
  have habove : x ≤ origin + (a + 1) * step := by
    refine hhi.trans (max_le ?_ ?_)
    · have hle : (a : ℚ) ≤ a + 1 := by linarith
      have hmul := mul_le_mul_of_nonneg_right hle hstep.le
      linarith
    · have hle : (b : ℚ) ≤ a + 1 := by exact_mod_cast (by omega : b ≤ a + 1)
      have hmul := mul_le_mul_of_nonneg_right hle hstep.le
      linarith
  have hbelow : origin + (a - 1) * step ≤ x := by
    refine le_trans (le_min ?_ ?_) hlo
    · have hle : (a : ℚ) - 1 ≤ a := by linarith
      have hmul := mul_le_mul_of_nonneg_right hle hstep.le
      linarith
    · have hle : (a : ℚ) - 1 ≤ b := by exact_mod_cast (by omega : a - 1 ≤ b)
      have hmul := mul_le_mul_of_nonneg_right hle hstep.le
      linarith
  constructor
  · have hlt : (x0 - origin) / step < ((a + 1 : Int) : ℚ) := by
      rw [div_lt_iff₀ hstep]
      push_cast
      linarith
    have hfloor := Int.floor_lt.mpr hlt
    omega
  · have hlt : ((a - 1 : Int) : ℚ) < (x1 - origin) / step := by
      rw [lt_div_iff₀ hstep]
      push_cast
      linarith
    have hceil := Int.lt_ceil.mpr hlt
    omega

/-- A step that meets an obstacle's box starts at one of the cells the obstacle blocks. -/
theorem cellRange_of_meets {grid : Grid} {a b : GridCell} {box : InflatedBox} (hstep : 0 < grid.step)
    (hin : grid.inBounds a.cx a.cy = true) (hnear : Adjacent a b) (h : StepMeets grid a b box) :
    (grid.cellRange box).Has a := by
  obtain ⟨x, y, ⟨hxlo, hxhi⟩, ⟨hylo, hyhi⟩, ⟨hx0, hx1⟩, hy0, hy1⟩ := h
  obtain ⟨⟨hcx0, hcx1⟩, hcy0, hcy1⟩ := Grid.inBounds_iff.mp hin
  unfold Adjacent heuristic at hnear
  have hcols := axis_between hstep (by omega : (a.cx - b.cx).natAbs ≤ 1) hxlo hxhi hx0 hx1
  have hrows := axis_between hstep (by omega : (a.cy - b.cy).natAbs ≤ 1) hylo hyhi hy0 hy1
  have hclampX : ∀ v, _ := fun v => @clamp_bounds v (grid.cols - 1) a.cx hcx0 (by omega)
  have hclampY : ∀ v, _ := fun v => @clamp_bounds v (grid.rows - 1) a.cy hcy0 (by omega)
  exact ⟨⟨(hclampX _).1 hcols.1, (hclampX _).2 hcols.2⟩, (hclampY _).1 hrows.1, (hclampY _).2 hrows.2⟩

theorem RouteRequest.startCell_inBounds (req : RouteRequest) :
    req.grid.inBounds req.startCell.cx req.startCell.cy = true ∧
      req.grid.inBounds req.endCell.cx req.endCell.cy = true := by
  obtain ⟨hshape, _⟩ := buildGrid_spec req.bounds
    (filterObstacles req.obstacles req.bounds portClearance) portClearance gridStep
  have hsame : req.grid.shape = req.obstacleGrid.shape := req.grid_spec.1.trans hshape.symm
  have hsize := empty_size req.bounds gridStep
  have hcols : req.obstacleGrid.cols = (Grid.empty req.bounds gridStep).cols :=
    congrArg (fun s : RouteBounds × ℚ × Nat × Nat => s.2.2.1) hshape
  have hrows : req.obstacleGrid.rows = (Grid.empty req.bounds gridStep).rows :=
    congrArg (fun s : RouteBounds × ℚ × Nat × Nat => s.2.2.2) hshape
  rw [inBounds_shape hsame, inBounds_shape hsame]
  exact ⟨cellAt_inBounds (by omega) (by omega) _ _, cellAt_inBounds (by omega) (by omega) _ _⟩

/-- A step between plain unblocked cells meets no obstacle that `filterObstacles` keeps. -/
theorem kept_avoided {req : RouteRequest} {o : Obstacle} {a b : GridCell} (ho : o ∈ req.obstacles)
    (hkept : outsideBounds req.bounds portClearance o = false) (hnear : Adjacent a b)
    (hplain : req.Plain a) (hfree : req.grid.isBlocked a.cx a.cy = false) :
    ¬ StepMeets req.grid a b (o.inflated portClearance) := by
  intro hmeets
  obtain ⟨hshape, hcells⟩ := req.grid_spec
  have hstep : req.grid.step = gridStep :=
    congrArg (fun s : RouteBounds × ℚ × Nat × Nat => s.2.1) hshape
  have hpos : 0 < req.grid.step := by
    rw [hstep]
    unfold gridStep
    norm_num
  have hrange := cellRange_of_meets hpos (Grid.isBlocked_false_iff.mp hfree).1 hnear hmeets
  rw [cellRange_shape hshape] at hrange
  have hblocked := ((buildGrid_spec req.bounds (filterObstacles req.obstacles req.bounds portClearance)
    portClearance gridStep).2 a).mpr (Or.inl ⟨o, ?_, hrange⟩)
  · have hfree' : req.obstacleGrid.isBlocked a.cx a.cy = false := (hcells a hplain).symm.trans hfree
    exact absurd (hblocked.symm.trans hfree') (by decide)
  · unfold filterObstacles
    rw [List.mem_filter, hkept]
    exact ⟨ho, rfl⟩

/-- Where no left out obstacle meets a free step of the grid, the paths avoid every obstacle. -/
theorem routed_path_avoids (req : RouteRequest) (h : req.DroppedClear) : req.Avoids := by
  intro aborted cells hfound before a b after hcells hplainA hplainB o ho
  obtain ⟨hstart, hgoal⟩ := req.startCell_inBounds
  have hway := runAStar_found hstart hgoal hfound
  have hfree : ∀ cell ∈ cells, cell ≠ req.startCell → req.grid.isBlocked cell.cx cell.cy = false := by
    intro cell hcell hne
    have hfirst := hway.starts
    have henters := hway.enters
    cases cells with
    | nil => exact absurd hcell List.not_mem_nil
    | cons first rest =>
      rcases List.mem_cons.mp hcell with rfl | hcell
      · exact absurd (Option.some.inj hfirst) hne
      · exact henters cell hcell
  have hfreeA := hfree a (by rw [hcells]; simp) hplainA.notStart
  have hfreeB := hfree b (by rw [hcells]; simp) hplainB.notStart
  rw [hcells] at hway
  have hnear : Adjacent a b := (List.isChain_append_cons_cons.mp hway.connected).2.1
  cases hkept : outsideBounds req.bounds portClearance o with
  | true => exact h o ho hkept a b hnear hplainA hplainB hfreeA hfreeB
  | false => exact kept_avoided ho hkept hnear hplainA hfreeA

/-- A box that begins at the last column meets no step of the grid. -/
theorem clear_beyond {grid : Grid} {a b : GridCell} {box : InflatedBox} (hstep : 0 < grid.step)
    (ha : grid.inBounds a.cx a.cy = true) (hb : grid.inBounds b.cx b.cy = true)
    (hbeyond : grid.worldX (grid.cols - 1) ≤ box.x0) : ¬ StepMeets grid a b box := by
  rintro ⟨x, _, ⟨_, hxhi⟩, _, ⟨hx0, _⟩, _⟩
  have hlast : ∀ cx : Int, cx < grid.cols → grid.worldX cx ≤ grid.worldX (grid.cols - 1) := by
    intro cx hcx
    have hle : cx ≤ (grid.cols : Int) - 1 := by omega
    have hmul := mul_le_mul_of_nonneg_right (Int.cast_le.mpr hle : (cx : ℚ) ≤ _) hstep.le
    unfold Grid.worldX
    push_cast at hmul ⊢
    linarith
  have hmax := max_le (hlast a.cx (Grid.inBounds_iff.mp ha).1.2)
    (hlast b.cx (Grid.inBounds_iff.mp hb).1.2)
  linarith

/-- Two ports with an obstacle between them, and one far to the right of both. -/
def betweenRequest : RouteRequest where
  source := { x := 0, y := 0, side := .right }
  target := { x := 100, y := 0, side := .left }
  obstacles := [{ x := 40, y := -10, w := 20, h := 20 }, { x := 400, y := -50, w := 60, h := 100 }]

theorem between_avoids : betweenRequest.Avoids := by
  apply routed_path_avoids
  intro o ho hdropped a b _ _ _ hfreeA hfreeB
  have hbeyond : ∀ o ∈ betweenRequest.obstacles,
      outsideBounds betweenRequest.bounds portClearance o = true →
        betweenRequest.grid.worldX (betweenRequest.grid.cols - 1) ≤
          (o.inflated portClearance).x0 := by decide +kernel
  have hstep : 0 < betweenRequest.grid.step := by decide +kernel
  exact clear_beyond hstep (Grid.isBlocked_false_iff.mp hfreeA).1
    (Grid.isBlocked_false_iff.mp hfreeB).1 (hbeyond o ho hdropped)

/-- Two ports with a wall between them that leaves the last column free, and an obstacle over that column
that begins beyond the bounds. -/
def wallRequest : RouteRequest where
  source := { x := 0, y := 0, side := .top }
  target := { x := 1, y := 81, side := .bottom }
  obstacles := [{ x := -200, y := 32, w := 308, h := 0 }, { x := 134, y := -200, w := 100, h := 600 }]

/-- Along the sixth row to the last column, down it, and back along the tenth row. -/
def wallPath : List GridCell :=
  (List.range 7).map (fun (k : Nat) => { cx := k + 6, cy := 6 }) ++
    (List.range 5).map (fun (k : Nat) => { cx := 13, cy := k + 6 }) ++
      (List.range 7).map (fun (k : Nat) => { cx := 12 - k, cy := 10 })

/-- The path goes down the last column, through the obstacle that was left out. -/
theorem wall_crossed : ¬ wallRequest.Avoids := by
  intro h
  have hfound : runAStar wallRequest.grid wallRequest.startCell wallRequest.endCell (fun _ => false) =
      some (.found wallPath) := by decide +kernel
  have hcells : wallPath =
      wallPath.take 8 ++ { cx := 13, cy := 7 } :: { cx := 13, cy := 8 } :: wallPath.drop 10 := rfl
  have hplain : wallRequest.Plain { cx := 13, cy := 7 } ∧ wallRequest.Plain { cx := 13, cy := 8 } :=
    ⟨⟨by decide +kernel, by decide +kernel, by decide +kernel, by decide +kernel⟩,
      ⟨by decide +kernel, by decide +kernel, by decide +kernel, by decide +kernel⟩⟩
  apply h _ _ hfound _ _ _ _ hcells hplain.1 hplain.2 { x := 134, y := -200, w := 100, h := 600 }
  · unfold wallRequest
    simp
  · exact ⟨140, 30, by decide +kernel⟩

end NovaVe
