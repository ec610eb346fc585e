import NovaVe.FacingPorts

namespace NovaVe

variable {req : RouteRequest} {a b : Obstacle} {axis : Axis} {p q : PortRef}

theorem Grid.free_setBlocked_iff (grid : Grid) (cell other : GridCell) :
    (grid.unblock cell.cx cell.cy).Free other ↔
      (cell = other ∧ grid.inBounds cell.cx cell.cy = true) ∨ grid.Free other := by
  unfold Grid.Free Grid.unblock
  rw [Grid.setBlocked_isBlocked]
  split
  next h => exact ⟨fun _ => Or.inl ⟨cell_ext h.1 h.2.1, h.2.2⟩, fun _ => rfl⟩
  next h =>
    constructor
    · exact Or.inr
    · rintro (⟨rfl, hin⟩ | hfree)
      · exact absurd ⟨rfl, rfl, hin⟩ h
      · exact hfree

theorem Grid.free_carveExit_iff (grid : Grid) (port : PortRef) (cell other : GridCell) :
    (carveExit grid port cell).Free other ↔
      (exitCell port cell = other ∧
        grid.inBounds (exitCell port cell).cx (exitCell port cell).cy = true) ∨ grid.Free other := by
  unfold carveExit
  dsimp only
  split
  next => exact grid.free_setBlocked_iff (exitCell port cell) other
  next hout =>
    constructor
    · exact Or.inr
    · rintro (⟨_, hin⟩ | hfree)
      · exact absurd hin hout
      · exact hfree

theorem RouteRequest.inBounds_iff (req : RouteRequest) (cx cy : Int) :
    req.obstacleGrid.inBounds cx cy = (Grid.empty req.bounds gridStep).inBounds cx cy :=
  inBounds_shape req.obstacleGrid_shape cx cy

/-- The cells of the ports and their exits are free where they are in the grid. -/
theorem RouteRequest.free_special (req : RouteRequest) {cell : GridCell}
    (hin : (Grid.empty req.bounds gridStep).inBounds cell.cx cell.cy = true)
    (h : cell = req.startCell ∨ cell = req.endCell ∨ cell = exitCell req.source req.startCell ∨
      cell = exitCell req.target req.endCell) : req.grid.Free cell := by
  have hbounds : ∀ grid : Grid, grid.shape = req.obstacleGrid.shape →
      grid.inBounds cell.cx cell.cy = true := by
    intro grid hshape
    rw [inBounds_shape hshape, req.inBounds_iff]
    exact hin
  have hfirst := (unblock_spec req.obstacleGrid req.startCell).1
  have hsecond := (unblock_spec (req.obstacleGrid.unblock req.startCell.cx req.startCell.cy)
    req.endCell).1.trans hfirst
  have hthird := (carveExit_spec ((req.obstacleGrid.unblock req.startCell.cx
    req.startCell.cy).unblock req.endCell.cx req.endCell.cy) req.source req.startCell).1.trans hsecond
  unfold RouteRequest.grid
  dsimp only
  rw [Grid.free_carveExit_iff, Grid.free_carveExit_iff, Grid.free_setBlocked_iff,
    Grid.free_setBlocked_iff]
  rcases h with hcell | hcell | hcell | hcell
  · rw [hcell] at hbounds
    exact Or.inr (Or.inr (Or.inr (Or.inl ⟨hcell.symm, hbounds _ rfl⟩)))
  · rw [hcell] at hbounds
    exact Or.inr (Or.inr (Or.inl ⟨hcell.symm, hbounds _ hfirst⟩))
  · rw [hcell] at hbounds
    exact Or.inr (Or.inl ⟨hcell.symm, hbounds _ hsecond⟩)
  · rw [hcell] at hbounds
    exact Or.inl ⟨hcell.symm, hbounds _ hthird⟩

/-- How the port's cell and the edge of the inflated box are rounded against each other. -/
theorem floor_behind (u : ℚ) :
    (1 / 2 ≤ Int.fract u ∧ Int.fract u < 3 / 5 → ⌊u - 3 / 5⌋ = mathRound u - 2) ∧
      (¬ (1 / 2 ≤ Int.fract u ∧ Int.fract u < 3 / 5) → ⌊u - 3 / 5⌋ = mathRound u - 1) := by
  have hsplit : (⌊u⌋ : ℚ) + Int.fract u = u := Int.floor_add_fract u
  have hnonneg := Int.fract_nonneg u
  have hlt := Int.fract_lt_one u
  have hdown : Int.fract u < 1 / 2 → mathRound u = ⌊u⌋ := by
    intro h
    unfold mathRound
    rw [Int.floor_eq_iff]
    constructor <;> linarith
  have hup : 1 / 2 ≤ Int.fract u → mathRound u = ⌊u⌋ + 1 := by
    intro h
    unfold mathRound
    rw [Int.floor_eq_iff]
    push_cast
    constructor <;> linarith
  have hbehind : Int.fract u < 3 / 5 → ⌊u - 3 / 5⌋ = ⌊u⌋ - 1 := by
    intro h
    rw [Int.floor_eq_iff]
    push_cast
    constructor <;> linarith
  constructor
  · rintro ⟨hhalf, hfifths⟩
    rw [hup hhalf, hbehind hfifths]
    omega
  · intro hnot
    by_cases hhalf : 1 / 2 ≤ Int.fract u
    · have hfifths : 3 / 5 ≤ Int.fract u := by
        by_contra hless
        exact hnot ⟨hhalf, not_le.mp hless⟩
      have hsame : ⌊u - 3 / 5⌋ = ⌊u⌋ := by
        rw [Int.floor_eq_iff]
        constructor <;> linarith
      rw [hup hhalf, hsame]
      omega
    · have hless := not_le.mp hhalf
      rw [hdown hless, hbehind (by linarith)]

/-- The inflated box of what holds a point covers the cells beside that of the point. -/
theorem span_around {low high x : ℚ} (origin : Int) (hlow : low ≤ x) (hhigh : x ≤ high) :
    ⌊(low - portClearance - origin) / gridStep⌋ ≤ mathRound ((x - origin) / gridStep) - 1 ∧
      mathRound ((x - origin) / gridStep) + 1 ≤ ⌈(high + portClearance - origin) / gridStep⌉ := by
  obtain ⟨hround, hround'⟩ := mathRound_bounds ((x - origin) / gridStep)
  have hscaled : (x - origin) / gridStep * gridStep = x - origin :=
    div_mul_cancel₀ _ gridStep_pos.ne'
  have hstep : gridStep = 20 := rfl
  have hclear : portClearance = 12 := rfl
  constructor
  · have hlt : (low - portClearance - origin) / gridStep <
        ((mathRound ((x - origin) / gridStep) : Int) : ℚ) := by
      rw [div_lt_iff₀ gridStep_pos, hclear]
      rw [hstep] at hscaled hround' ⊢
      linarith
    have hfloor := Int.floor_lt.mpr hlt
    omega
  · have hlt : ((mathRound ((x - origin) / gridStep) : Int) : ℚ) <
        (high + portClearance - origin) / gridStep := by
      rw [lt_div_iff₀ gridStep_pos, hclear]
      rw [hstep] at hscaled hround ⊢
      linarith
    have hceil := Int.lt_ceil.mpr hlt
    omega

/-- The two ports in the order of their axis: the near one on the high side of its box, the far one on
the low side of the other box. -/
structure RouteRequest.Lined (req : RouteRequest) (axis : Axis) (p q : PortRef) (a b : Obstacle) :
    Prop where
  ports : (p = req.source ∧ q = req.target) ∨ (p = req.target ∧ q = req.source)
  nearSide : p.side.axis = axis ∧ p.side.ahead = 1
  farSide : q.side.axis = axis ∧ q.side.ahead = -1
  near : p.OnSide a
  far : q.OnSide b
  apart : a.high axis + 104 < b.low axis
  obstacles : ∀ o, o ∈ req.obstacles ↔ o = a ∨ o = b

theorem RouteRequest.Faces.lined (h : req.Faces a b) :
    ∃ p q a' b', req.Lined req.source.side.axis p q a' b' := by
  have hroom : 2 * portClearance + 4 * gridStep = 104 := by
    unfold portClearance gridStep
    norm_num
  obtain ⟨hsource, htarget, hbeyond, hfacing, hobstacles⟩ := h
  have hcomm : ∀ o, o ∈ req.obstacles ↔ o = b ∨ o = a := fun o => (hobstacles o).trans or_comm
  unfold Beyond at hbeyond
  rw [hroom] at hbeyond
  cases hside : req.source.side with
  | right =>
    rw [hside] at hbeyond hfacing
    exact ⟨_, _, _, _, Or.inl ⟨rfl, rfl⟩, by rw [hside]; exact ⟨rfl, rfl⟩,
      by rw [hfacing]; exact ⟨rfl, rfl⟩, hsource, htarget, hbeyond, hobstacles⟩
  | bottom =>
    rw [hside] at hbeyond hfacing
    exact ⟨_, _, _, _, Or.inl ⟨rfl, rfl⟩, by rw [hside]; exact ⟨rfl, rfl⟩,
      by rw [hfacing]; exact ⟨rfl, rfl⟩, hsource, htarget, hbeyond, hobstacles⟩
  | left =>
    rw [hside] at hbeyond hfacing
    exact ⟨_, _, _, _, Or.inr ⟨rfl, rfl⟩, by rw [hfacing]; exact ⟨rfl, rfl⟩,
      by rw [hside]; exact ⟨rfl, rfl⟩, htarget, hsource, hbeyond, hcomm⟩
  | top =>
    rw [hside] at hbeyond hfacing
    exact ⟨_, _, _, _, Or.inr ⟨rfl, rfl⟩, by rw [hfacing]; exact ⟨rfl, rfl⟩,
      by rw [hside]; exact ⟨rfl, rfl⟩, htarget, hsource, hbeyond, hcomm⟩

theorem PortRef.OnSide.edge_high {port : PortRef} {box : Obstacle} (h : port.OnSide box)
    (hahead : port.side.ahead = 1) : port.along port.side.axis = box.high port.side.axis := by
  have hedge := h.edge
  cases hside : port.side with
  | right => rw [hside] at hedge; exact hedge
  | bottom => rw [hside] at hedge; exact hedge
  | left => rw [hside] at hahead; cases hahead
  | top => rw [hside] at hahead; cases hahead

theorem PortRef.OnSide.edge_low {port : PortRef} {box : Obstacle} (h : port.OnSide box)
    (hahead : port.side.ahead = -1) : port.along port.side.axis = box.low port.side.axis := by
  have hedge := h.edge
  cases hside : port.side with
  | left => rw [hside] at hedge; exact hedge
  | top => rw [hside] at hedge; exact hedge
  | right => rw [hside] at hahead; cases hahead
  | bottom => rw [hside] at hahead; cases hahead

theorem Obstacle.low_le_high {o : Obstacle} (h : 0 ≤ o.w ∧ 0 ≤ o.h) (axis : Axis) :
    o.low axis ≤ o.high axis := by
  unfold Obstacle.low Obstacle.high
  cases axis with
  | horiz => exact le_add_of_nonneg_right h.1
  | vert => exact le_add_of_nonneg_right h.2

theorem axis_cases (axis axis' : Axis) : axis' = axis ∨ axis' = axis.other := by
  cases axis <;> cases axis' <;> simp [Axis.other]

/-- A port on a side lies in the box, along either axis. -/
theorem PortRef.OnSide.inside {port : PortRef} {box : Obstacle} (h : port.OnSide box) (axis : Axis) :
    box.low axis ≤ port.along axis ∧ port.along axis ≤ box.high axis := by
  have hsize := Obstacle.low_le_high h.size
  rcases axis_cases port.side.axis axis with rfl | rfl
  · have hahead : port.side.ahead = 1 ∨ port.side.ahead = -1 := by
      cases port.side <;> simp [PortSide.ahead]
    rcases hahead with hahead | hahead
    · rw [h.edge_high hahead]
      exact ⟨hsize _, le_rfl⟩
    · rw [h.edge_low hahead]
      exact ⟨le_rfl, hsize _⟩
  · exact h.within

theorem PortRef.OnSide.reaches {port : PortRef} {box : Obstacle} (h : port.OnSide box)
    (hbetween : ∀ axis, req.Between axis (port.along axis)) :
    box.Reaches req.bounds := by
  intro axis
  obtain ⟨hlow, hhigh⟩ := h.inside axis
  obtain ⟨hroom, hroom'⟩ := (hbetween axis).room
  unfold portClearance
  constructor
  · linarith
  · linarith

theorem RouteRequest.Lined.between (h : req.Lined axis p q a b) (ax : Axis) :
    req.Between ax (p.along ax) ∧ req.Between ax (q.along ax) := by
  rcases h.ports with ⟨rfl, rfl⟩ | ⟨rfl, rfl⟩
  · exact ⟨req.between_source ax, req.between_target ax⟩
  · exact ⟨req.between_target ax, req.between_source ax⟩

theorem RouteRequest.Lined.edges (h : req.Lined axis p q a b) :
    p.along axis = a.high axis ∧ q.along axis = b.low axis := by
  have hnear := h.near.edge_high h.nearSide.2
  have hfar := h.far.edge_low h.farSide.2
  rw [h.nearSide.1] at hnear
  rw [h.farSide.1] at hfar
  exact ⟨hnear, hfar⟩

theorem RouteRequest.Lined.least (h : req.Lined axis p q a b) :
    min (req.source.along axis) (req.target.along axis) = p.along axis ∧
      max (req.source.along axis) (req.target.along axis) = q.along axis := by
  have hlt : p.along axis < q.along axis := by
    rw [h.edges.1, h.edges.2]
    linarith [h.apart]
  rcases h.ports with ⟨rfl, rfl⟩ | ⟨rfl, rfl⟩
  · exact ⟨min_eq_left hlt.le, max_eq_right hlt.le⟩
  · exact ⟨min_eq_right hlt.le, max_eq_left hlt.le⟩

/-- The near port lies within a unit after six cells from the bounds. -/
theorem RouteRequest.Lined.near_offset (h : req.Lined axis p q a b) :
    120 ≤ p.along axis - req.bounds.low axis ∧ p.along axis - req.bounds.low axis < 121 := by
  rw [req.bounds_low, h.least.1]
  have hle := Int.floor_le (p.along axis - 120)
  have hlt := Int.lt_floor_add_one (p.along axis - 120)
  constructor
  · linarith
  · linarith

/-- The near port, and the cells that its box covers before it. -/
theorem RouteRequest.Lined.near_cells (h : req.Lined axis p q a b) :
    req.index p axis = 6 ∧ ∀ i, a.Spans req.bounds axis i → i ≤ 7 := by
  obtain ⟨hlow, hhigh⟩ := h.near_offset
  have hstep : gridStep = 20 := rfl
  have hclear : portClearance = 12 := rfl
  constructor
  · unfold RouteRequest.index mathRound
    rw [hstep, Int.floor_eq_iff]
    push_cast
    constructor <;> linarith
  · rintro i ⟨_, hi⟩
    have hceil : ⌈(a.high axis + portClearance - req.bounds.low axis) / gridStep⌉ ≤ 7 := by
      rw [Int.ceil_le, div_le_iff₀ gridStep_pos, hclear, hstep, ← h.edges.1]
      push_cast
      linarith
    omega

/-- The far port, and the cells that its box covers before it. -/
theorem RouteRequest.Lined.far_cells (h : req.Lined axis p q a b)
    (haxis : req.source.side.axis = axis) :
    11 ≤ req.index q axis ∧
      (req.ExitShut → ⌊(b.low axis - portClearance - req.bounds.low axis) / gridStep⌋ =
        req.index q axis - 2) ∧
      (¬ req.ExitShut → ⌊(b.low axis - portClearance - req.bounds.low axis) / gridStep⌋ =
        req.index q axis - 1) := by
  have hstep : gridStep = 20 := rfl
  have hclear : portClearance = 12 := rfl
  have hreach : (q.along axis - req.bounds.low axis) / gridStep = req.reach / gridStep + (6 : Int) := by
    have hfloor : ⌊p.along axis - 120⌋ = ⌊p.along axis⌋ - 120 := by
      have h120 := Int.floor_sub_intCast (p.along axis) 120
      push_cast at h120
      exact h120
    unfold RouteRequest.reach
    rw [haxis, req.bounds_low, h.least.1, h.least.2, hfloor, hstep]
    push_cast
    ring
  have hshut : req.ExitShut ↔
      1 / 2 ≤ Int.fract ((q.along axis - req.bounds.low axis) / gridStep) ∧
        Int.fract ((q.along axis - req.bounds.low axis) / gridStep) < 3 / 5 := by
    unfold RouteRequest.ExitShut
    rw [hreach, Int.fract_add_intCast]
  have hedge : (b.low axis - portClearance - req.bounds.low axis) / gridStep =
      (q.along axis - req.bounds.low axis) / gridStep - 3 / 5 := by
    rw [← h.edges.2, hclear, hstep]
    ring
  obtain ⟨hbehind, hbefore⟩ := floor_behind ((q.along axis - req.bounds.low axis) / gridStep)
  refine ⟨?_, ?_, ?_⟩
  · obtain ⟨_, hround⟩ := mathRound_bounds ((q.along axis - req.bounds.low axis) / gridStep)
    obtain ⟨hlow, _⟩ := h.near_offset
    have hapart := h.apart
    rw [← h.edges.1, ← h.edges.2] at hapart
    have hlt : (10 : ℚ) < req.index q axis := by
      unfold RouteRequest.index
      have hfar : (56 : ℚ) / 5 < (q.along axis - req.bounds.low axis) / gridStep := by
        rw [lt_div_iff₀ gridStep_pos, hstep]
        linarith
      linarith
    have hint : (10 : Int) < req.index q axis := by exact_mod_cast hlt
    omega
  · intro hyes
    rw [hedge]
    exact hbehind (hshut.mp hyes)
  · intro hno
    rw [hedge]
    exact hbefore (fun hbad => hno (hshut.mpr hbad))

/-- The box of the far port around its cell. -/
theorem RouteRequest.Lined.far_around (h : req.Lined axis p q a b) (ax : Axis) {i : Int}
    (hlow : req.index q ax - 1 ≤ i) (hhigh : i ≤ req.index q ax + 1) : b.Spans req.bounds ax i := by
  obtain ⟨hinside, hinside'⟩ := h.far.inside ax
  obtain ⟨hbefore, hafter⟩ := span_around (req.bounds.low ax) hinside hinside'
  unfold RouteRequest.index at hlow hhigh
  exact ⟨by omega, by omega⟩

theorem cellOn_inj {i j k l : Int} : cellOn axis i j = cellOn axis k l ↔ i = k ∧ j = l := by
  unfold cellOn
  cases axis <;> simp only [GridCell.mk.injEq]
  exact and_comm

theorem cellOn_adjacent (axis : Axis) (i j : Int) :
    Adjacent (cellOn axis i j) (cellOn axis (i + 1) j) ∧
      Adjacent (cellOn axis i j) (cellOn axis i (j + 1)) := by
  unfold Adjacent heuristic cellOn
  cases axis with
  | horiz => exact ⟨by dsimp only; omega, by dsimp only; omega⟩
  | vert => exact ⟨by dsimp only; omega, by dsimp only; omega⟩

theorem exitCell_on {port : PortRef} (h : port.side.axis = axis) (i j : Int) :
    exitCell port (cellOn axis i j) = cellOn axis (i + port.side.ahead) j := by
  subst h
  unfold exitCell PortSide.tangent PortSide.ahead PortSide.axis cellOn
  cases port.side <;> simp

/-- The cells of the ports and their exits. -/
theorem RouteRequest.Lined.specials (h : req.Lined axis p q a b) (cell : GridCell) :
    (cell = req.startCell ∨ cell = req.endCell ∨ cell = exitCell req.source req.startCell ∨
        cell = exitCell req.target req.endCell) ↔
      cell = cellOn axis (req.index p axis) (req.index p axis.other) ∨
        cell = cellOn axis (req.index p axis + 1) (req.index p axis.other) ∨
        cell = cellOn axis (req.index q axis) (req.index q axis.other) ∨
        cell = cellOn axis (req.index q axis - 1) (req.index q axis.other) := by
  have hp := RouteRequest.cellAt_port (fun ax => (h.between ax).1) axis
  have hq := RouteRequest.cellAt_port (fun ax => (h.between ax).2) axis
  have hpExit := exitCell_on h.nearSide.1 (req.index p axis) (req.index p axis.other)
  have hqExit := exitCell_on h.farSide.1 (req.index q axis) (req.index q axis.other)
  rw [h.nearSide.2] at hpExit
  rw [h.farSide.2, ← sub_eq_add_neg] at hqExit
  unfold RouteRequest.startCell RouteRequest.endCell
  rcases h.ports with ⟨rfl, rfl⟩ | ⟨rfl, rfl⟩
  · rw [hp, hq, hpExit, hqExit]
    tauto
  · rw [hp, hq, hpExit, hqExit]
    tauto

theorem RouteRequest.Lined.reaches (h : req.Lined axis p q a b) :
    ∀ o ∈ req.obstacles, o.Reaches req.bounds := by
  intro o ho
  rcases (h.obstacles o).mp ho with rfl | rfl
  · exact h.near.reaches (fun ax => (h.between ax).1)
  · exact h.far.reaches (fun ax => (h.between ax).2)

/-- A cell of the grid that neither box covers is free, and so are the cells of the ports and their
exits. -/
theorem RouteRequest.Lined.free (h : req.Lined axis p q a b) {i j : Int} (hi : 0 ≤ i)
    (hin : i < (Grid.empty req.bounds gridStep).count axis) (hj : 0 ≤ j)
    (hjn : j < (Grid.empty req.bounds gridStep).count axis.other)
    (hclear : ¬ a.Spans req.bounds axis i ∧ ¬ b.Spans req.bounds axis i ∨
      (i = req.index p axis ∨ i = req.index p axis + 1) ∧ j = req.index p axis.other ∨
      (i = req.index q axis ∨ i = req.index q axis - 1) ∧ j = req.index q axis.other) :
    req.grid.Free (cellOn axis i j) := by
  have hbounds := @inBounds_on req axis i j hi hin hj hjn
  by_cases hspecial : cellOn axis i j = req.startCell ∨ cellOn axis i j = req.endCell ∨
      cellOn axis i j = exitCell req.source req.startCell ∨
      cellOn axis i j = exitCell req.target req.endCell
  · exact req.free_special hbounds hspecial
  · have hplain : req.Plain (cellOn axis i j) :=
      ⟨fun heq => hspecial (Or.inl heq), fun heq => hspecial (Or.inr (Or.inl heq)),
        fun heq => hspecial (Or.inr (Or.inr (Or.inl heq))),
        fun heq => hspecial (Or.inr (Or.inr (Or.inr heq)))⟩
    rw [h.specials, cellOn_inj, cellOn_inj, cellOn_inj, cellOn_inj] at hspecial
    have hoff : ¬ a.Spans req.bounds axis i ∧ ¬ b.Spans req.bounds axis i := by
      rcases hclear with hoff | ⟨hcell | hcell, hrow⟩ | ⟨hcell | hcell, hrow⟩
      · exact hoff
      · exact absurd (Or.inl ⟨hcell, hrow⟩) hspecial
      · exact absurd (Or.inr (Or.inl ⟨hcell, hrow⟩)) hspecial
      · exact absurd (Or.inr (Or.inr (Or.inl ⟨hcell, hrow⟩))) hspecial
      · exact absurd (Or.inr (Or.inr (Or.inr ⟨hcell, hrow⟩))) hspecial
    by_contra hblocked
    obtain ⟨o, ho, hspan, _⟩ :=
      (RouteRequest.blocked_iff h.reaches hi hin hj hjn hplain).mp hblocked
    rcases (h.obstacles o).mp ho with rfl | rfl
    · exact hoff.1 hspan
    · exact hoff.2 hspan

/-- A cell that the far box covers is blocked, but for those of the ports and their exits. -/
theorem RouteRequest.Lined.blocked (h : req.Lined axis p q a b) {i j : Int} (hi : 0 ≤ i)
    (hin : i < (Grid.empty req.bounds gridStep).count axis) (hj : 0 ≤ j)
    (hjn : j < (Grid.empty req.bounds gridStep).count axis.other)
    (hspan : b.Spans req.bounds axis i) (hspan' : b.Spans req.bounds axis.other j)
    (hnear : req.index p axis + 1 < i)
    (hout : ¬ ((i = req.index q axis ∨ i = req.index q axis - 1) ∧ j = req.index q axis.other)) :
    ¬ req.grid.Free (cellOn axis i j) := by
  have hspecial := h.specials (cellOn axis i j)
  rw [cellOn_inj, cellOn_inj, cellOn_inj, cellOn_inj] at hspecial
  have hnot : ¬ (cellOn axis i j = req.startCell ∨ cellOn axis i j = req.endCell ∨
      cellOn axis i j = exitCell req.source req.startCell ∨
      cellOn axis i j = exitCell req.target req.endCell) := by
    rw [hspecial]
    rintro (⟨hcell, _⟩ | ⟨hcell, _⟩ | ⟨hcell, hrow⟩ | ⟨hcell, hrow⟩)
    · omega
    · omega
    · exact hout ⟨Or.inl hcell, hrow⟩
    · exact hout ⟨Or.inr hcell, hrow⟩
  have hplain : req.Plain (cellOn axis i j) :=
    ⟨fun heq => hnot (Or.inl heq), fun heq => hnot (Or.inr (Or.inl heq)),
      fun heq => hnot (Or.inr (Or.inr (Or.inl heq))),
      fun heq => hnot (Or.inr (Or.inr (Or.inr heq)))⟩
  rw [RouteRequest.blocked_iff h.reaches hi hin hj hjn hplain]
  exact ⟨b, (h.obstacles b).mpr (Or.inr rfl), hspan, hspan'⟩

/-- The start and the goal of the search are the cells of the two ports, in either order. -/
theorem RouteRequest.Lined.ends (h : req.Lined axis p q a b) :
    (req.startCell = cellOn axis (req.index p axis) (req.index p axis.other) ∧
        req.endCell = cellOn axis (req.index q axis) (req.index q axis.other)) ∨
      (req.startCell = cellOn axis (req.index q axis) (req.index q axis.other) ∧
        req.endCell = cellOn axis (req.index p axis) (req.index p axis.other)) := by
  have hp := RouteRequest.cellAt_port (fun ax => (h.between ax).1) axis
  have hq := RouteRequest.cellAt_port (fun ax => (h.between ax).2) axis
  unfold RouteRequest.startCell RouteRequest.endCell
  rcases h.ports with ⟨rfl, rfl⟩ | ⟨rfl, rfl⟩
  · exact Or.inl ⟨hp, hq⟩
  · exact Or.inr ⟨hq, hp⟩

/-- Where the far exit opens, the space between the boxes joins the two exits. -/
theorem RouteRequest.Lined.leads (h : req.Lined axis p q a b) (haxis : req.source.side.axis = axis)
    (hopen : ¬ req.ExitShut) :
    Leads req.grid req.startCell req.endCell := by
  obtain ⟨hnear, hnearSpan⟩ := h.near_cells
  obtain ⟨hfar, _, hbefore⟩ := h.far_cells haxis
  have hedge := hbefore hopen
  obtain ⟨hp, hpn⟩ := RouteRequest.index_inside (h.between axis).1
  obtain ⟨hq, hqn⟩ := RouteRequest.index_inside (h.between axis).2
  obtain ⟨hp', hpn'⟩ := RouteRequest.index_inside (h.between axis.other).1
  obtain ⟨hq', hqn'⟩ := RouteRequest.index_inside (h.between axis.other).2
  have hspace : ∀ m n, req.index p axis + 2 ≤ m → m ≤ req.index q axis - 2 →
      min (req.index p axis.other) (req.index q axis.other) ≤ n →
      n ≤ max (req.index p axis.other) (req.index q axis.other) → req.grid.Free (cellOn axis m n) := by
    intro m n hlo hhi hnlo hnhi
    refine h.free (by omega) (by omega) (by omega) (by omega) (Or.inl ⟨?_, ?_⟩)
    · intro hspan
      have hle := hnearSpan m hspan
      omega
    · rintro ⟨hspan, _⟩
      omega
  have hstart : req.grid.Free (cellOn axis (req.index p axis) (req.index p axis.other)) :=
    h.free (by omega) (by omega) (by omega) (by omega) (Or.inr (Or.inl ⟨Or.inl rfl, rfl⟩))
  have hexit : req.grid.Free (cellOn axis (req.index p axis + 1) (req.index p axis.other)) :=
    h.free (by omega) (by omega) (by omega) (by omega) (Or.inr (Or.inl ⟨Or.inr rfl, rfl⟩))
  have hgoal : req.grid.Free (cellOn axis (req.index q axis) (req.index q axis.other)) :=
    h.free (by omega) (by omega) (by omega) (by omega) (Or.inr (Or.inr ⟨Or.inl rfl, rfl⟩))
  have hentry : req.grid.Free (cellOn axis (req.index q axis - 1) (req.index q axis.other)) :=
    h.free (by omega) (by omega) (by omega) (by omega) (Or.inr (Or.inr ⟨Or.inr rfl, rfl⟩))
  rcases h.ends with ⟨hs, he⟩ | ⟨hs, he⟩
  · rw [hs, he]
    exact leads_over (fun i j => (cellOn_adjacent axis i j).1) (fun i j => (cellOn_adjacent axis i j).2)
      (by omega) hexit hspace hentry hgoal
  · -- The same from the far port, with the axis turned round.
    have hmain : ∀ i j, Adjacent (cellOn axis (-i) j) (cellOn axis (-(i + 1)) j) := by
      intro i j
      have hback := (cellOn_adjacent axis (-(i + 1)) j).1
      rw [show -(i + 1) + 1 = -i by omega] at hback
      exact adjacent_comm hback
    have hturned := @leads_over req.grid (fun i j => cellOn axis (-i) j) hmain
      (fun i j => (cellOn_adjacent axis (-i) j).2) (-req.index q axis) (req.index q axis.other)
      (-req.index p axis) (req.index p axis.other) (by omega)
      (by rw [show -(-req.index q axis + 1) = req.index q axis - 1 by omega]; exact hentry)
      (fun m n hlo hhi hnlo hnhi => hspace (-m) n (by omega) (by omega) (by omega) (by omega))
      (by rw [show -(-req.index p axis - 1) = req.index p axis + 1 by omega]; exact hexit)
      (by rw [neg_neg]; exact hstart)
    rw [neg_neg, neg_neg] at hturned
    rw [hs, he]
    exact hturned

/-- Where it is shut, the far port's cell and its exit are walled in. -/
theorem RouteRequest.Lined.walled (h : req.Lined axis p q a b) (haxis : req.source.side.axis = axis)
    (hshut : req.ExitShut) :
    ¬ Leads req.grid req.startCell req.endCell := by
  obtain ⟨hnear, _⟩ := h.near_cells
  obtain ⟨hfar, hbehind, _⟩ := h.far_cells haxis
  have hedge := hbehind hshut
  obtain ⟨hp, hpn⟩ := RouteRequest.index_inside (h.between axis).1
  obtain ⟨hq, hqn⟩ := RouteRequest.index_inside (h.between axis).2
  obtain ⟨hp', hpn'⟩ := RouteRequest.index_inside (h.between axis.other).1
  obtain ⟨hq', hqn'⟩ := RouteRequest.index_inside (h.between axis.other).2
  have hspan : ∀ i, req.index q axis - 2 ≤ i → i ≤ req.index q axis + 1 → b.Spans req.bounds axis i := by
    intro i hlo hhi
    have hhigh := (@RouteRequest.Lined.far_around _ _ _ _ _ _ h axis (req.index q axis + 1) (by omega) le_rfl).2
    exact ⟨by omega, by omega⟩
  let inside : GridCell → Prop := fun cell =>
    cell = cellOn axis (req.index q axis) (req.index q axis.other) ∨
      cell = cellOn axis (req.index q axis - 1) (req.index q axis.other)
  have hinside : ∀ i j, inside (cellOn axis i j) ↔
      (i = req.index q axis ∨ i = req.index q axis - 1) ∧ j = req.index q axis.other := by
    intro i j
    show (_ ∨ _) ↔ _
    rw [cellOn_inj, cellOn_inj]
    tauto
  have hwall : ∀ c d, Adjacent c d → inside c → ¬ inside d → ¬ req.grid.Free d := by
    intro c d hcd hc hd
    have hon : ∀ cell : GridCell, cell = cellOn axis (cell.along axis) (cell.along axis.other) := by
      intro cell
      cases axis <;> rfl
    have hnext : ∀ i j k l, Adjacent (cellOn axis i j) (cellOn axis k l) →
        (k - i).natAbs + (l - j).natAbs = 1 := by
      intro i j k l hij
      unfold Adjacent heuristic cellOn at hij
      cases axis with
      | horiz => dsimp only at hij; omega
      | vert => dsimp only at hij; omega
    rw [hon c] at hcd hc
    rw [hon d] at hcd hd ⊢
    have hdist := hnext _ _ _ _ hcd
    rw [hinside] at hc hd
    generalize c.along axis = i at *
    generalize c.along axis.other = j at *
    generalize d.along axis = k at *
    generalize d.along axis.other = l at *
    refine h.blocked (by omega) (by omega) (by omega) (by omega) (hspan k (by omega) (by omega))
      (h.far_around axis.other (by omega) (by omega)) (by omega) hd
  intro hleads
  have hfree : req.grid.Free req.startCell :=
    req.free_special (by rw [← req.inBounds_iff, ← inBounds_shape (req.grid_spec.1.trans
      req.obstacleGrid_shape.symm)]; exact req.startCell_inBounds.1) (Or.inl rfl)
  have hsame := hleads.inside_iff hfree hwall
  rcases h.ends with ⟨hs, he⟩ | ⟨hs, he⟩
  · rw [hs, he, hinside, hinside] at hsame
    omega
  · rw [hs, he, hinside, hinside] at hsame
    omega

/-- Between facing ports of two boxes that are well apart, the search reaches the goal unless the exit of
the far port is shut. -/
theorem facing_ports_searched {req : RouteRequest} {a b : Obstacle} (h : req.Faces a b) :
    req.ReachesBySearch ↔ ¬ req.ExitShut := by
  rw [reachesBySearch_iff]
  obtain ⟨p, q, a', b', hlined⟩ := h.lined
  constructor
  · intro hleads hshut
    exact hlined.walled rfl hshut hleads
  · exact hlined.leads rfl

/-- Two boxes whose facing ports are so far apart. -/
def facingRequest (distance : ℚ) : RouteRequest where
  source := { x := 0, y := 0, side := .right }
  target := { x := distance, y := 0, side := .left }
  obstacles := [{ x := -50, y := -20, w := 50, h := 40 }, { x := distance, y := -20, w := 50, h := 40 }]

theorem facingRequest_faces {distance : ℚ} (h : 104 < distance) :
    (facingRequest distance).Faces { x := -50, y := -20, w := 50, h := 40 }
      { x := distance, y := -20, w := 50, h := 40 } where
  source := ⟨by show (0 : ℚ) = -50 + 50; norm_num, by
    show (-20 : ℚ) ≤ 0 ∧ (0 : ℚ) ≤ -20 + 40
    norm_num, by norm_num⟩
  target := ⟨rfl, by
    show (-20 : ℚ) ≤ 0 ∧ (0 : ℚ) ≤ -20 + 40
    norm_num, by norm_num⟩
  beyond := by
    show (-50 : ℚ) + 50 + (2 * portClearance + 4 * gridStep) < distance
    unfold portClearance gridStep
    linarith
  facing := rfl
  obstacles := by
    intro o
    unfold facingRequest
    simp

theorem facing_request_searched : (facingRequest 120).ReachesBySearch :=
  (facing_ports_searched (facingRequest_faces (by norm_num))).mpr (by
    unfold RouteRequest.ExitShut
    decide +kernel)

/-- Ports 110 apart: the boxes face each other, but the route is the fallback. -/
theorem facing_request_falls_back :
    (∃ a b, (facingRequest 110).Faces a b) ∧ ¬ (facingRequest 110).ReachesBySearch := by
  have hfaces := @facingRequest_faces 110 (by norm_num)
  refine ⟨⟨_, _, hfaces⟩, ?_⟩
  rw [reachesBySearch_iff]
  obtain ⟨p, q, a, b, hlined⟩ := hfaces.lined
  apply hlined.walled rfl
  unfold RouteRequest.ExitShut
  decide +kernel

end NovaVe
