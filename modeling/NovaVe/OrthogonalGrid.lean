import Mathlib.Algebra.Order.Floor.Ring
import Mathlib.Data.Rat.Floor

namespace NovaVe

def gridStep : ℚ := 20

def portClearance : ℚ := 12

inductive PortSide
  | top | right | bottom | left
deriving DecidableEq, Repr

structure PortRef where
  x : ℚ
  y : ℚ
  side : PortSide

structure Obstacle where
  x : ℚ
  y : ℚ
  w : ℚ
  h : ℚ

structure RouteRequest where
  source : PortRef
  target : PortRef
  obstacles : List Obstacle

structure RouteBounds where
  minX : Int
  minY : Int
  maxX : Int
  maxY : Int

def computeRouteBounds (source target : PortRef) (pad : ℚ) : RouteBounds where
  minX := ⌊min source.x target.x - pad⌋
  minY := ⌊min source.y target.y - pad⌋
  maxX := ⌈max source.x target.x + pad⌉
  maxY := ⌈max source.y target.y + pad⌉

/-- The box of an obstacle with the clearance on every side. -/
structure InflatedBox where
  x0 : ℚ
  y0 : ℚ
  x1 : ℚ
  y1 : ℚ

def Obstacle.inflated (o : Obstacle) (clearance : ℚ) : InflatedBox where
  x0 := o.x - clearance
  y0 := o.y - clearance
  x1 := o.x + o.w + clearance
  y1 := o.y + o.h + clearance

/-- The test by which `filterObstacles` leaves an obstacle out. -/
def outsideBounds (bounds : RouteBounds) (clearance : ℚ) (o : Obstacle) : Bool :=
  let box := o.inflated clearance
  decide (box.x1 < bounds.minX) || decide (box.y1 < bounds.minY) ||
    decide (bounds.maxX < box.x0) || decide (bounds.maxY < box.y0)

def filterObstacles (obstacles : List Obstacle) (bounds : RouteBounds) (clearance : ℚ) :
    List Obstacle :=
  obstacles.filter (fun o => !outsideBounds bounds clearance o)

structure GridCell where
  cx : Int
  cy : Int
deriving DecidableEq, Repr

structure Grid where
  bounds : RouteBounds
  step : ℚ
  cols : Nat
  rows : Nat
  blocked : Nat → Bool

/-- The constructor of `Grid`: nothing is blocked. -/
def Grid.empty (bounds : RouteBounds) (step : ℚ) : Grid where
  bounds := bounds
  step := step
  cols := (max 1 (⌈((bounds.maxX - bounds.minX : Int) : ℚ) / step⌉ + 1)).toNat
  rows := (max 1 (⌈((bounds.maxY - bounds.minY : Int) : ℚ) / step⌉ + 1)).toNat
  blocked _ := false

def Grid.idx (grid : Grid) (cx cy : Int) : Nat := (cy * grid.cols + cx).toNat

def Grid.inBounds (grid : Grid) (cx cy : Int) : Bool :=
  decide (0 ≤ cx) && decide (0 ≤ cy) && decide (cx < grid.cols) && decide (cy < grid.rows)

def Grid.setBlocked (grid : Grid) (value : Bool) (cx cy : Int) : Grid :=
  if grid.inBounds cx cy then
    { grid with blocked := fun i => if i = grid.idx cx cy then value else grid.blocked i }
  else grid

def Grid.block (grid : Grid) (cx cy : Int) : Grid := grid.setBlocked true cx cy

def Grid.unblock (grid : Grid) (cx cy : Int) : Grid := grid.setBlocked false cx cy

def Grid.isBlocked (grid : Grid) (cx cy : Int) : Bool :=
  if !grid.inBounds cx cy then true else grid.blocked (grid.idx cx cy)

def clamp (v lo hi : Int) : Int := if v < lo then lo else if hi < v then hi else v

/-- `Math.round`. -/
def mathRound (x : ℚ) : Int := ⌊x + 1 / 2⌋

def Grid.cellAt (grid : Grid) (x y : ℚ) : GridCell where
  cx := clamp (mathRound ((x - grid.bounds.minX) / grid.step)) 0 (grid.cols - 1)
  cy := clamp (mathRound ((y - grid.bounds.minY) / grid.step)) 0 (grid.rows - 1)

def Grid.worldX (grid : Grid) (cx : Int) : ℚ := grid.bounds.minX + cx * grid.step

def Grid.worldY (grid : Grid) (cy : Int) : ℚ := grid.bounds.minY + cy * grid.step

/-- The values of a loop from `lo` to `hi`. -/
def loopRange (lo hi : Int) : List Int :=
  (List.range (hi + 1 - lo).toNat).map (fun (k : Nat) => lo + k)

/-- The cells an obstacle blocks, first and last column and row. -/
structure CellRange where
  cx0 : Int
  cy0 : Int
  cx1 : Int
  cy1 : Int

def Grid.cellRange (grid : Grid) (box : InflatedBox) : CellRange where
  cx0 := clamp ⌊(box.x0 - grid.bounds.minX) / grid.step⌋ 0 (grid.cols - 1)
  cy0 := clamp ⌊(box.y0 - grid.bounds.minY) / grid.step⌋ 0 (grid.rows - 1)
  cx1 := clamp ⌈(box.x1 - grid.bounds.minX) / grid.step⌉ 0 (grid.cols - 1)
  cy1 := clamp ⌈(box.y1 - grid.bounds.minY) / grid.step⌉ 0 (grid.rows - 1)

def Grid.blockRange (grid : Grid) (range : CellRange) : Grid :=
  (loopRange range.cy0 range.cy1).foldl (fun grid cy =>
    (loopRange range.cx0 range.cx1).foldl (fun grid cx => grid.block cx cy) grid) grid

def buildGrid (bounds : RouteBounds) (obstacles : List Obstacle) (clearance step : ℚ) : Grid :=
  obstacles.foldl (fun grid o => grid.blockRange (grid.cellRange (o.inflated clearance)))
    (Grid.empty bounds step)

def PortSide.tangent : PortSide → Int × Int
  | .top => (0, -1)
  | .bottom => (0, 1)
  | .left => (-1, 0)
  | .right => (1, 0)

/-- The cell beside a port's cell in the direction of its side. -/
def exitCell (port : PortRef) (cell : GridCell) : GridCell where
  cx := cell.cx + port.side.tangent.1
  cy := cell.cy + port.side.tangent.2

def carveExit (grid : Grid) (port : PortRef) (cell : GridCell) : Grid :=
  let exit := exitCell port cell
  if grid.inBounds exit.cx exit.cy then grid.unblock exit.cx exit.cy else grid

/-- The bounds `routeOrthogonal` works in. -/
def RouteRequest.bounds (req : RouteRequest) : RouteBounds :=
  computeRouteBounds req.source req.target (gridStep * 6)

/-- The grid with the cells of the obstacles blocked. -/
def RouteRequest.obstacleGrid (req : RouteRequest) : Grid :=
  buildGrid req.bounds (filterObstacles req.obstacles req.bounds portClearance) portClearance gridStep

def RouteRequest.startCell (req : RouteRequest) : GridCell :=
  req.obstacleGrid.cellAt req.source.x req.source.y

def RouteRequest.endCell (req : RouteRequest) : GridCell :=
  req.obstacleGrid.cellAt req.target.x req.target.y

/-- The grid `routeOrthogonal` searches: the cells of the ports and their exits are freed. -/
def RouteRequest.grid (req : RouteRequest) : Grid :=
  let freed := (req.obstacleGrid.unblock req.startCell.cx req.startCell.cy).unblock
    req.endCell.cx req.endCell.cy
  carveExit (carveExit freed req.source req.startCell) req.target req.endCell

@[simp] theorem Grid.setBlocked_cols (grid : Grid) (value : Bool) (cx cy : Int) :
    (grid.setBlocked value cx cy).cols = grid.cols := by
  unfold Grid.setBlocked
  split <;> rfl

@[simp] theorem Grid.setBlocked_rows (grid : Grid) (value : Bool) (cx cy : Int) :
    (grid.setBlocked value cx cy).rows = grid.rows := by
  unfold Grid.setBlocked
  split <;> rfl

theorem Grid.inBounds_iff {grid : Grid} {cx cy : Int} :
    grid.inBounds cx cy = true ↔ (0 ≤ cx ∧ cx < grid.cols) ∧ 0 ≤ cy ∧ cy < grid.rows := by
  unfold Grid.inBounds
  simp only [Bool.and_eq_true, decide_eq_true_eq]
  omega

theorem Grid.setBlocked_inBounds (grid : Grid) (value : Bool) (cx cy cx' cy' : Int) :
    (grid.setBlocked value cx cy).inBounds cx' cy' = grid.inBounds cx' cy' := by
  unfold Grid.inBounds
  rw [Grid.setBlocked_cols, Grid.setBlocked_rows]

theorem Grid.isBlocked_false_iff {grid : Grid} {cx cy : Int} :
    grid.isBlocked cx cy = false ↔
      grid.inBounds cx cy = true ∧ grid.blocked (grid.idx cx cy) = false := by
  unfold Grid.isBlocked
  cases grid.inBounds cx cy with
  | false => simp
  | true => simp

theorem row_of_index {cols : Nat} {cx : Int} (h0 : 0 ≤ cx) (h1 : cx < cols) (cy : Int) :
    (cy * cols + cx) / cols = cy := by
  rw [Int.add_comm, Int.add_mul_ediv_right _ _ (by omega), Int.ediv_eq_zero_of_lt h0 h1, Int.zero_add]

/-- Cells of the grid have different indices. -/
theorem Grid.idx_injective {grid : Grid} {cx cy cx' cy' : Int} (h : grid.inBounds cx cy = true)
    (h' : grid.inBounds cx' cy' = true) (heq : grid.idx cx cy = grid.idx cx' cy') :
    cx = cx' ∧ cy = cy' := by
  obtain ⟨⟨hx0, hx1⟩, hy0, hy1⟩ := Grid.inBounds_iff.mp h
  obtain ⟨⟨hx0', hx1'⟩, hy0', hy1'⟩ := Grid.inBounds_iff.mp h'
  unfold Grid.idx at heq
  have hprod : 0 ≤ cy * grid.cols := Int.mul_nonneg hy0 (by omega)
  have hprod' : 0 ≤ cy' * grid.cols := Int.mul_nonneg hy0' (by omega)
  have hsum : cy * grid.cols + cx = cy' * grid.cols + cx' := by omega
  have hrow : cy = cy' := by
    rw [← row_of_index hx0 hx1 cy, hsum, row_of_index hx0' hx1' cy']
  subst hrow
  exact ⟨by omega, rfl⟩

/-- Setting a cell leaves the others as they are. -/
theorem Grid.setBlocked_isBlocked (grid : Grid) (value : Bool) (cx cy cx' cy' : Int) :
    (grid.setBlocked value cx cy).isBlocked cx' cy' =
      if cx = cx' ∧ cy = cy' ∧ grid.inBounds cx cy = true then value else grid.isBlocked cx' cy' := by
  unfold Grid.isBlocked
  rw [Grid.setBlocked_inBounds]
  by_cases hin : grid.inBounds cx cy = true
  · by_cases hin' : grid.inBounds cx' cy' = true
    · have hidx : (grid.setBlocked value cx cy).idx cx' cy' = grid.idx cx' cy' := by
        unfold Grid.idx
        rw [Grid.setBlocked_cols]
      rw [hidx]
      unfold Grid.setBlocked
      rw [if_pos hin, hin', Bool.not_true]
      by_cases hsame : cx = cx' ∧ cy = cy'
      · obtain ⟨rfl, rfl⟩ := hsame
        simp [hin]
      · have hne : grid.idx cx' cy' ≠ grid.idx cx cy := by
          intro heq
          obtain ⟨hx, hy⟩ := Grid.idx_injective hin' hin heq
          exact hsame ⟨hx.symm, hy.symm⟩
        have hnot : ¬ (cx = cx' ∧ cy = cy' ∧ grid.inBounds cx cy = true) :=
          fun h => hsame ⟨h.1, h.2.1⟩
        rw [if_neg hnot]
        simp [hne]
    · have hnot : ¬ (cx = cx' ∧ cy = cy' ∧ grid.inBounds cx cy = true) := by
        rintro ⟨rfl, rfl, _⟩
        exact hin' hin
      rw [if_neg hnot]
      simp [hin']
  · have hnot : ¬ (cx = cx' ∧ cy = cy' ∧ grid.inBounds cx cy = true) := fun h => hin h.2.2
    rw [if_neg hnot]
    unfold Grid.setBlocked
    rw [if_neg hin]

end NovaVe
