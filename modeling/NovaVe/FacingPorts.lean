import NovaVe.RoutedPaths

namespace NovaVe

/-- A way leads from one cell to another. -/
def Leads (grid : Grid) (start goal : GridCell) : Prop := ∃ cells, IsWay grid start goal cells

def Grid.Free (grid : Grid) (cell : GridCell) : Prop := grid.isBlocked cell.cx cell.cy = false

theorem leads_refl (grid : Grid) (cell : GridCell) : Leads grid cell cell :=
  ⟨[cell], rfl, rfl, List.IsChain.singleton cell, fun _ h => absurd h List.not_mem_nil⟩

theorem Leads.step {grid : Grid} {start a b : GridCell} (h : Leads grid start a) (hnear : Adjacent a b)
    (hfree : grid.Free b) : Leads grid start b := by
  obtain ⟨cells, hway⟩ := h
  obtain ⟨before, rfl⟩ := List.getLast?_eq_some_iff.mp hway.ends
  exact ⟨before ++ [a, b], hway.snoc hnear hfree⟩

/-- Along a row of free cells. -/
theorem Leads.run {grid : Grid} {start : GridCell} {cell : Int → GridCell}
    (hnear : ∀ k, Adjacent (cell k) (cell (k + 1))) {i k : Int} (hik : i ≤ k)
    (hfree : ∀ m, i < m → m ≤ k → grid.Free (cell m)) (h : Leads grid start (cell i)) :
    Leads grid start (cell k) := by
  revert hfree
  induction k, hik using Int.leInduction with
  | base => exact fun _ => h
  | succ k hik ih =>
    intro hfree
    have hbefore := ih (fun m hlo hhi => hfree m hlo (by omega))
    exact hbefore.step (hnear k) (hfree (k + 1) (by omega) le_rfl)

theorem adjacent_comm {a b : GridCell} (h : Adjacent a b) : Adjacent b a := by
  unfold Adjacent heuristic at h ⊢
  omega

/-- Along a row in either direction. -/
theorem Leads.between {grid : Grid} {start : GridCell} {cell : Int → GridCell}
    (hnear : ∀ k, Adjacent (cell k) (cell (k + 1))) {i k : Int}
    (hfree : ∀ m, min i k ≤ m → m ≤ max i k → grid.Free (cell m)) (h : Leads grid start (cell i)) :
    Leads grid start (cell k) := by
  by_cases hik : i ≤ k
  · exact h.run hnear hik (fun m hlo hhi => hfree m (by omega) (by omega))
  · have hback : ∀ m, Adjacent (cell (-m)) (cell (-(m + 1))) := by
      intro m
      have hprev := hnear (-(m + 1))
      rw [show -(m + 1) + 1 = -m by omega] at hprev
      exact adjacent_comm hprev
    have hstart : Leads grid start (cell (-(-i))) := by
      rw [neg_neg]
      exact h
    have hrun := @Leads.run _ _ (fun m => cell (-m)) hback (-i) (-k) (by omega)
      (fun m hlo hhi => hfree (-m) (by omega) (by omega)) hstart
    rw [neg_neg] at hrun
    exact hrun

/-- Out of a cell, over the space between, and in again. -/
theorem leads_over {grid : Grid} {cell : Int → Int → GridCell}
    (hmain : ∀ i j, Adjacent (cell i j) (cell (i + 1) j))
    (hcross : ∀ i j, Adjacent (cell i j) (cell i (j + 1))) {i j k l : Int} (hik : i + 4 ≤ k)
    (hexit : grid.Free (cell (i + 1) j))
    (hspace : ∀ m n, i + 2 ≤ m → m ≤ k - 2 → min j l ≤ n → n ≤ max j l → grid.Free (cell m n))
    (hentry : grid.Free (cell (k - 1) l)) (hgoal : grid.Free (cell k l)) :
    Leads grid (cell i j) (cell k l) := by
  have hout : Leads grid (cell i j) (cell (i + 2) j) := by
    have hfirst := (leads_refl grid (cell i j)).step (hmain i j) hexit
    have hnear := hmain (i + 1) j
    rw [show i + 1 + 1 = i + 2 by omega] at hnear
    exact hfirst.step hnear (hspace (i + 2) j le_rfl (by omega) (by omega) (by omega))
  have hturn : Leads grid (cell i j) (cell (i + 2) l) :=
    hout.between (hcross (i + 2)) (fun n hlo hhi => hspace (i + 2) n le_rfl (by omega) hlo hhi)
  refine @Leads.run _ _ (fun m => cell m l) (fun m => hmain m l) _ _ (by omega) ?_ hturn
  intro m hlo hhi
  by_cases hlast : m = k
  · rw [hlast]
    exact hgoal
  · by_cases hnext : m = k - 1
    · rw [hnext]
      exact hentry
    · exact hspace m l (by omega) (by omega) (by omega) (by omega)

/-- A way between free cells does not pass a wall. -/
theorem Leads.inside_iff {grid : Grid} {start goal : GridCell} {inside : GridCell → Prop}
    (h : Leads grid start goal) (hstart : grid.Free start)
    (hwall : ∀ a b, Adjacent a b → inside a → ¬ inside b → ¬ grid.Free b) :
    inside start ↔ inside goal := by
  obtain ⟨cells, hway⟩ := h
  have hall : ∀ before cell after, cells = before ++ cell :: after →
      grid.Free cell ∧ (inside start ↔ inside cell) := by
    intro before
    induction before using List.reverseRecOn with
    | nil =>
      intro cell after hcells
      have hfirst := hway.starts
      rw [hcells] at hfirst
      cases hfirst
      exact ⟨hstart, Iff.rfl⟩
    | append_singleton before last ih =>
      intro cell after hcells
      rw [List.append_assoc, List.singleton_append] at hcells
      obtain ⟨hlast, hsame⟩ := ih last (cell :: after) hcells
      have hnear : Adjacent last cell := by
        have hconnected := hway.connected
        rw [hcells] at hconnected
        exact (List.isChain_append_cons_cons.mp hconnected).2.1
      have hfree : grid.Free cell := by
        apply hway.enters
        rw [hcells]
        cases before with
        | nil => exact List.mem_cons_self
        | cons first rest => simp
      refine ⟨hfree, hsame.trans ⟨fun hin => ?_, fun hin => ?_⟩⟩
      · by_contra hout
        exact hwall last cell hnear hin hout hfree
      · by_contra hout
        exact hwall cell last (adjacent_comm hnear) hin hout hlast
  obtain ⟨before, hcells⟩ := List.getLast?_eq_some_iff.mp hway.ends
  exact (hall before goal [] hcells).2

/-- The route comes from the search, not from the fallback, unless the search is aborted. -/
def RouteRequest.ReachesBySearch (req : RouteRequest) : Prop :=
  ∀ aborted,
    (∀ cells, runAStar req.grid req.startCell req.endCell aborted ≠ some (.fallback cells)) ∧
      ((∀ n, aborted n = false) →
        ∃ cells, runAStar req.grid req.startCell req.endCell aborted = some (.found cells))

theorem reachesBySearch_iff (req : RouteRequest) :
    req.ReachesBySearch ↔ Leads req.grid req.startCell req.endCell := by
  obtain ⟨hstart, hgoal⟩ := req.startCell_inBounds
  constructor
  · intro h
    obtain ⟨cells, hfound⟩ := (h (fun _ => false)).2 (fun _ => rfl)
    exact ⟨cells, runAStar_found hstart hgoal hfound⟩
  · rintro ⟨way, hway⟩ aborted
    have hnever : ∀ cells,
        runAStar req.grid req.startCell req.endCell aborted ≠ some (.fallback cells) :=
      fun cells hfallback => runAStar_fallback hstart hfallback way hway
    refine ⟨hnever, fun hquiet => ?_⟩
    obtain ⟨result, hresult⟩ := runAStar_returns hstart aborted
    rcases aStarLoop_cases HeadState.initial hresult with
      ⟨_, n, hn⟩ | ⟨_, _, _, rfl⟩ | ⟨_, _, _, _, _, _, _, rfl⟩
    · rw [hquiet n] at hn
      cases hn
    · exact absurd hresult (hnever _)
    · exact ⟨_, hresult⟩

/-- The cell with the given indices along an axis and across it. -/
def cellOn : Axis → Int → Int → GridCell
  | .horiz, i, j => { cx := i, cy := j }
  | .vert, i, j => { cx := j, cy := i }

def PortRef.along (port : PortRef) : Axis → ℚ
  | .horiz => port.x
  | .vert => port.y

def Obstacle.low (box : Obstacle) : Axis → ℚ
  | .horiz => box.x
  | .vert => box.y

def Obstacle.high (box : Obstacle) : Axis → ℚ
  | .horiz => box.x + box.w
  | .vert => box.y + box.h

def RouteBounds.low (bounds : RouteBounds) : Axis → Int
  | .horiz => bounds.minX
  | .vert => bounds.minY

def RouteBounds.high (bounds : RouteBounds) : Axis → Int
  | .horiz => bounds.maxX
  | .vert => bounds.maxY

def Grid.count (grid : Grid) : Axis → Nat
  | .horiz => grid.cols
  | .vert => grid.rows

def PortSide.axis : PortSide → Axis
  | .left | .right => .horiz
  | .top | .bottom => .vert

/-- The direction along its axis that a side faces. -/
def PortSide.ahead : PortSide → Int
  | .right | .bottom => 1
  | .left | .top => -1

/-- The coordinate of a side of a box, along the axis of the side. -/
def Obstacle.edge (box : Obstacle) : PortSide → ℚ
  | .top => box.y
  | .right => box.x + box.w
  | .bottom => box.y + box.h
  | .left => box.x

/-- A port on the boundary of a box, on the side that it names. -/
structure PortRef.OnSide (port : PortRef) (box : Obstacle) : Prop where
  edge : port.along port.side.axis = box.edge port.side
  within : box.low port.side.axis.other ≤ port.along port.side.axis.other ∧
    port.along port.side.axis.other ≤ box.high port.side.axis.other
  size : 0 ≤ box.w ∧ 0 ≤ box.h

/-- The second box lies beyond the first on a side, with room for the clearances and four cells. -/
def Beyond (side : PortSide) (a b : Obstacle) : Prop :=
  match side with
  | .top => b.y + b.h + (2 * portClearance + 4 * gridStep) < a.y
  | .right => a.x + a.w + (2 * portClearance + 4 * gridStep) < b.x
  | .bottom => a.y + a.h + (2 * portClearance + 4 * gridStep) < b.y
  | .left => b.x + b.w + (2 * portClearance + 4 * gridStep) < a.x

def PortSide.opposite : PortSide → PortSide
  | .top => .bottom
  | .right => .left
  | .bottom => .top
  | .left => .right

/-- Two boxes apart, and a request between ports on the sides with which they face each other. -/
structure RouteRequest.Faces (req : RouteRequest) (a b : Obstacle) : Prop where
  source : req.source.OnSide a
  target : req.target.OnSide b
  beyond : Beyond req.source.side a b
  facing : req.target.side = req.source.side.opposite
  obstacles : ∀ o, o ∈ req.obstacles ↔ o = a ∨ o = b

/-- How far the ports are apart along the axis of their sides, from the whole number below the first. -/
def RouteRequest.reach (req : RouteRequest) : ℚ :=
  max (req.source.along req.source.side.axis) (req.target.along req.source.side.axis) -
    ⌊min (req.source.along req.source.side.axis) (req.target.along req.source.side.axis)⌋

/-- The far port lies in the tenth of a cell in which its cell is rounded away from its host box and the
inflated box is rounded over its exit. -/
def RouteRequest.ExitShut (req : RouteRequest) : Prop :=
  1 / 2 ≤ Int.fract (req.reach / gridStep) ∧ Int.fract (req.reach / gridStep) < 3 / 5

theorem gridStep_pos : 0 < gridStep := by
  unfold gridStep
  norm_num

/-- The index along an axis of the cell of a port. -/
def RouteRequest.index (req : RouteRequest) (port : PortRef) (axis : Axis) : Int :=
  mathRound ((port.along axis - req.bounds.low axis) / gridStep)

/-- A coordinate between the two ports. -/
def RouteRequest.Between (req : RouteRequest) (axis : Axis) (v : ℚ) : Prop :=
  min (req.source.along axis) (req.target.along axis) ≤ v ∧
    v ≤ max (req.source.along axis) (req.target.along axis)

theorem RouteRequest.between_source (req : RouteRequest) (axis : Axis) :
    req.Between axis (req.source.along axis) := ⟨min_le_left _ _, le_max_left _ _⟩

theorem RouteRequest.between_target (req : RouteRequest) (axis : Axis) :
    req.Between axis (req.target.along axis) := ⟨min_le_right _ _, le_max_right _ _⟩

theorem RouteRequest.bounds_low (req : RouteRequest) (axis : Axis) :
    req.bounds.low axis = ⌊min (req.source.along axis) (req.target.along axis) - 120⌋ := by
  have hpad : gridStep * 6 = 120 := by
    unfold gridStep
    norm_num
  unfold RouteRequest.bounds computeRouteBounds
  rw [hpad]
  cases axis with
  | horiz => rfl
  | vert => rfl

theorem RouteRequest.bounds_high (req : RouteRequest) (axis : Axis) :
    req.bounds.high axis = ⌈max (req.source.along axis) (req.target.along axis) + 120⌉ := by
  have hpad : gridStep * 6 = 120 := by
    unfold gridStep
    norm_num
  unfold RouteRequest.bounds computeRouteBounds
  rw [hpad]
  cases axis with
  | horiz => rfl
  | vert => rfl

/-- The bounds keep their distance from what lies between the ports. -/
theorem RouteRequest.Between.room {req : RouteRequest} {axis : Axis} {v : ℚ} (h : req.Between axis v) :
    120 ≤ v - req.bounds.low axis ∧ v + 120 ≤ req.bounds.high axis := by
  have hlow : (req.bounds.low axis : ℚ) ≤
      min (req.source.along axis) (req.target.along axis) - 120 := by
    rw [req.bounds_low]
    exact Int.floor_le _
  have hhigh : max (req.source.along axis) (req.target.along axis) + 120 ≤
      (req.bounds.high axis : ℚ) := by
    rw [req.bounds_high]
    exact Int.le_ceil _
  obtain ⟨hmin, hmax⟩ := h
  constructor
  · linarith
  · linarith

theorem empty_count (bounds : RouteBounds) (axis : Axis) :
    (bounds.high axis : ℚ) - bounds.low axis ≤
      gridStep * (((Grid.empty bounds gridStep).count axis : Int) - 1 : Int) := by
  have hcount : ⌈((bounds.high axis - bounds.low axis : Int) : ℚ) / gridStep⌉ ≤
      ((Grid.empty bounds gridStep).count axis : Int) - 1 := by
    unfold Grid.empty Grid.count RouteBounds.high RouteBounds.low
    cases axis with
    | horiz =>
      dsimp only
      omega
    | vert =>
      dsimp only
      omega
  have hle := (Int.ceil_le.mp hcount)
  rw [div_le_iff₀ gridStep_pos] at hle
  push_cast at hle ⊢
  linarith

theorem mathRound_bounds (x : ℚ) : (mathRound x : ℚ) ≤ x + 1 / 2 ∧ x < mathRound x + 1 / 2 := by
  have hle := Int.floor_le (x + 1 / 2)
  have hlt := Int.lt_floor_add_one (x + 1 / 2)
  unfold mathRound
  constructor
  · exact hle
  · linarith

/-- The cells of the ports are well inside the grid. -/
theorem RouteRequest.index_inside {req : RouteRequest} {port : PortRef} {axis : Axis}
    (h : req.Between axis (port.along axis)) :
    6 ≤ req.index port axis ∧
      req.index port axis + 6 < (Grid.empty req.bounds gridStep).count axis := by
  obtain ⟨hlow, hhigh⟩ := h.room
  have hcount := empty_count req.bounds axis
  obtain ⟨hround, hround'⟩ := mathRound_bounds
    ((port.along axis - req.bounds.low axis) / gridStep)
  have hscaled : (port.along axis - req.bounds.low axis) / gridStep * gridStep =
      port.along axis - req.bounds.low axis := div_mul_cancel₀ _ gridStep_pos.ne'
  have hstep : gridStep = 20 := rfl
  rw [hstep] at hscaled hround hround' hcount
  constructor
  · have hlt : (5 : ℚ) < req.index port axis := by
      unfold RouteRequest.index
      rw [hstep]
      linarith
    have hint : (5 : Int) < req.index port axis := by exact_mod_cast hlt
    omega
  · have hlt : (req.index port axis : ℚ) + 5 < (((Grid.empty req.bounds gridStep).count axis : Int) - 1 : Int) := by
      unfold RouteRequest.index
      rw [hstep]
      linarith
    have hint : req.index port axis + 5 < ((Grid.empty req.bounds gridStep).count axis : Int) - 1 := by
      exact_mod_cast hlt
    omega

theorem clamp_of_inside {v n : Int} (h0 : 0 ≤ v) (hn : v ≤ n) : clamp v 0 n = v := by
  unfold clamp
  rw [if_neg (by omega), if_neg (by omega)]

/-- The bounds, step and size of the grid with the obstacles. -/
theorem RouteRequest.obstacleGrid_shape (req : RouteRequest) :
    req.obstacleGrid.shape = (Grid.empty req.bounds gridStep).shape :=
  (buildGrid_spec req.bounds (filterObstacles req.obstacles req.bounds portClearance) portClearance
    gridStep).1

/-- The cell of a port is not clamped. -/
theorem RouteRequest.cellAt_port {req : RouteRequest} {port : PortRef}
    (h : ∀ axis, req.Between axis (port.along axis)) (axis : Axis) :
    req.obstacleGrid.cellAt port.x port.y =
      cellOn axis (req.index port axis) (req.index port axis.other) := by
  have hshape := req.obstacleGrid_shape
  unfold Grid.shape at hshape
  simp only [Prod.mk.injEq] at hshape
  obtain ⟨hbounds, hstep, hcols, hrows⟩ := hshape
  have hx := RouteRequest.index_inside (h .horiz)
  have hy := RouteRequest.index_inside (h .vert)
  have hcell : req.obstacleGrid.cellAt port.x port.y =
      { cx := req.index port .horiz, cy := req.index port .vert } := by
    unfold Grid.cellAt
    rw [hbounds, hstep, hcols, hrows]
    unfold Grid.count at hx hy
    dsimp only at hx hy
    have hbx : clamp (req.index port .horiz) 0 ((Grid.empty req.bounds gridStep).cols - 1) =
        req.index port .horiz := clamp_of_inside (by omega) (by omega)
    have hby : clamp (req.index port .vert) 0 ((Grid.empty req.bounds gridStep).rows - 1) =
        req.index port .vert := clamp_of_inside (by omega) (by omega)
    exact cell_ext hbx hby
  rw [hcell]
  cases axis with
  | horiz => rfl
  | vert => rfl

/-- The cells along an axis that the inflated box of an obstacle covers. -/
def Obstacle.Spans (o : Obstacle) (bounds : RouteBounds) (axis : Axis) (i : Int) : Prop :=
  ⌊(o.low axis - portClearance - bounds.low axis) / gridStep⌋ ≤ i ∧
    i ≤ ⌈(o.high axis + portClearance - bounds.low axis) / gridStep⌉

/-- The box of an obstacle reaches into the bounds. -/
def Obstacle.Reaches (o : Obstacle) (bounds : RouteBounds) : Prop :=
  ∀ axis, (bounds.low axis : ℚ) ≤ o.high axis + portClearance ∧
    o.low axis - portClearance ≤ bounds.high axis

theorem Obstacle.Reaches.kept {o : Obstacle} {bounds : RouteBounds} (h : o.Reaches bounds) :
    outsideBounds bounds portClearance o = false := by
  obtain ⟨hx0, hx1⟩ := h .horiz
  obtain ⟨hy0, hy1⟩ := h .vert
  unfold RouteBounds.low RouteBounds.high Obstacle.low Obstacle.high at *
  unfold outsideBounds Obstacle.inflated
  simp only [Bool.or_eq_false_iff, decide_eq_false_iff_not, not_lt]
  exact ⟨⟨⟨hx0, hy0⟩, hx1⟩, hy1⟩

/-- For a cell of the grid the clamped range is that of the box. -/
theorem span_clamped {origin high low1 high1 : ℚ} {n : Nat} {i : Int} (hcount : high - origin ≤
    gridStep * (((n : Int) - 1 : Int) : ℚ)) (h0 : origin ≤ high1) (h1 : low1 ≤ high) (hi : 0 ≤ i)
    (hn : i < n) :
    (clamp ⌊(low1 - origin) / gridStep⌋ 0 (n - 1) ≤ i ∧
        i ≤ clamp ⌈(high1 - origin) / gridStep⌉ 0 (n - 1)) ↔
      ⌊(low1 - origin) / gridStep⌋ ≤ i ∧ i ≤ ⌈(high1 - origin) / gridStep⌉ := by
  have hceil : 0 ≤ ⌈(high1 - origin) / gridStep⌉ := by
    apply Int.ceil_nonneg
    exact div_nonneg (by linarith) gridStep_pos.le
  have hfloor : ⌊(low1 - origin) / gridStep⌋ ≤ (n : Int) - 1 := by
    have hle : (low1 - origin) / gridStep ≤ (((n : Int) - 1 : Int) : ℚ) := by
      rw [div_le_iff₀ gridStep_pos]
      linarith
    have hfloorLe := Int.floor_le ((low1 - origin) / gridStep)
    exact_mod_cast hfloorLe.trans hle
  unfold clamp
  constructor
  · rintro ⟨hlo, hhi⟩
    split at hlo <;> split at hhi <;> omega
  · rintro ⟨hlo, hhi⟩
    split <;> split <;> omega

/-- The cells of the grid along an axis and across it. -/
theorem inBounds_on {req : RouteRequest} {axis : Axis} {i j : Int} (hi : 0 ≤ i)
    (hin : i < (Grid.empty req.bounds gridStep).count axis) (hj : 0 ≤ j)
    (hjn : j < (Grid.empty req.bounds gridStep).count axis.other) :
    (Grid.empty req.bounds gridStep).inBounds (cellOn axis i j).cx (cellOn axis i j).cy = true := by
  rw [Grid.inBounds_iff]
  cases axis with
  | horiz => exact ⟨⟨hi, hin⟩, hj, hjn⟩
  | vert => exact ⟨⟨hj, hjn⟩, hi, hin⟩

/-- A plain cell is blocked where the inflated boxes are. -/
theorem RouteRequest.blocked_iff {req : RouteRequest}
    (hreach : ∀ o ∈ req.obstacles, o.Reaches req.bounds) {axis : Axis} {i j : Int} (hi : 0 ≤ i)
    (hin : i < (Grid.empty req.bounds gridStep).count axis) (hj : 0 ≤ j)
    (hjn : j < (Grid.empty req.bounds gridStep).count axis.other) (hplain : req.Plain (cellOn axis i j)) :
    ¬ req.grid.Free (cellOn axis i j) ↔
      ∃ o ∈ req.obstacles, o.Spans req.bounds axis i ∧ o.Spans req.bounds axis.other j := by
  have hbuilt := (buildGrid_spec req.bounds (filterObstacles req.obstacles req.bounds portClearance)
    portClearance gridStep).2 (cellOn axis i j)
  have hin' := @inBounds_on req axis i j hi hin hj hjn
  have hempty : (Grid.empty req.bounds gridStep).isBlocked (cellOn axis i j).cx (cellOn axis i j).cy =
      false := Grid.isBlocked_false_iff.mpr ⟨hin', rfl⟩
  have hkept : filterObstacles req.obstacles req.bounds portClearance = req.obstacles := by
    apply List.filter_eq_self.mpr
    intro o ho
    rw [(hreach o ho).kept]
    rfl
  rw [hempty, hkept] at hbuilt
  have hfree : req.grid.Free (cellOn axis i j) ↔
      ¬ req.obstacleGrid.isBlocked (cellOn axis i j).cx (cellOn axis i j).cy = true := by
    unfold Grid.Free
    rw [req.grid_spec.2 _ hplain, Bool.not_eq_true]
  have hobstacles : req.obstacleGrid =
      buildGrid req.bounds req.obstacles portClearance gridStep := by
    unfold RouteRequest.obstacleGrid
    rw [hkept]
  rw [hfree, not_not, hobstacles, hbuilt]
  simp only [Bool.false_eq_true, or_false]
  apply exists_congr
  intro o
  apply and_congr_right
  intro ho
  have hspan : ∀ ax : Axis, ∀ c : Int, 0 ≤ c → c < (Grid.empty req.bounds gridStep).count ax →
      ((clamp ⌊(o.low ax - portClearance - req.bounds.low ax) / gridStep⌋ 0
          ((Grid.empty req.bounds gridStep).count ax - 1) ≤ c ∧
        c ≤ clamp ⌈(o.high ax + portClearance - req.bounds.low ax) / gridStep⌉ 0
          ((Grid.empty req.bounds gridStep).count ax - 1)) ↔ o.Spans req.bounds ax c) := by
    intro ax c hc hcn
    exact span_clamped (empty_count req.bounds ax) (hreach o ho ax).1 (hreach o ho ax).2 hc hcn
  have hmain := hspan axis i hi hin
  have hother := hspan axis.other j hj hjn
  cases axis with
  | horiz => exact and_congr hmain hother
  | vert => exact and_comm.trans (and_congr hmain hother)

end NovaVe
