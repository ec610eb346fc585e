import Mathlib.Data.Prod.Lex
import NovaVe.MinHeap
import NovaVe.OrthogonalGrid

namespace NovaVe

def bendPenalty : Nat := 1

def abortCheckEvery : Nat := 256

/-- An element of the open heap. -/
structure OpenItem where
  f : Nat
  bends : Nat
  serial : Nat
  idx : Nat
deriving DecidableEq, Repr

/-- `MinHeap.less`. -/
def OpenItem.less (a b : OpenItem) : Bool :=
  if a.f ≠ b.f then decide (a.f < b.f)
  else if a.bends ≠ b.bends then decide (a.bends < b.bends)
  else decide (a.serial < b.serial)

inductive Axis
  | horiz | vert
deriving DecidableEq, Repr

def Axis.other : Axis → Axis
  | .horiz => .vert
  | .vert => .horiz

def GridCell.along (cell : GridCell) : Axis → Int
  | .horiz => cell.cx
  | .vert => cell.cy

/-- The state of the loop of `runAStar`; a score that is not there is infinite. The array `fScore` is
read only where it has just been written, and is left out. -/
structure AStarState where
  gScore : Nat → Option Nat
  bends : Nat → Nat
  cameFrom : Nat → Option Nat
  dirIn : Nat → Option Axis
  closed : Nat → Bool
  serial : Nat
  openItems : Array OpenItem

/-- `values[i] = value`. -/
def setAt {α : Type} (values : Nat → α) (i : Nat) (value : α) : Nat → α :=
  fun j => if j = i then value else values j

def heuristic (a b : GridCell) : Nat := (a.cx - b.cx).natAbs + (a.cy - b.cy).natAbs

def dirs : List (Int × Int) := [(1, 0), (-1, 0), (0, 1), (0, -1)]

/-- The cell of an index. -/
def Grid.cellOf (grid : Grid) (idx : Nat) : GridCell where
  cx := (idx % grid.cols : Nat)
  cy := ((idx - idx % grid.cols) / grid.cols : Nat)

/-- One direction of the inner loop of `runAStar`. -/
def relaxDir (grid : Grid) (goal : GridCell) (idx : Nat) (incoming : Option Axis) (st : AStarState)
    (dir : Int × Int) : AStarState :=
  let nx := (grid.cellOf idx).cx + dir.1
  let ny := (grid.cellOf idx).cy + dir.2
  if nx < 0 ∨ ny < 0 ∨ nx ≥ grid.cols ∨ ny ≥ grid.rows then st
  else
    let nIdx := grid.idx nx ny
    if st.closed nIdx then st
    else if grid.isBlocked nx ny then st
    else
      let stepDir := if dir.1 ≠ 0 then Axis.horiz else Axis.vert
      let isBend := incoming ≠ none ∧ incoming ≠ some stepDir
      match st.gScore idx with
      | none => st
      | some g =>
        let tentativeG := g + (1 + if isBend then bendPenalty else 0)
        if (st.gScore nIdx).any (fun old => decide (tentativeG ≥ old)) then st
        else
          let bends := st.bends idx + if isBend then 1 else 0
          { st with
            gScore := setAt st.gScore nIdx (some tentativeG)
            bends := setAt st.bends nIdx bends
            cameFrom := setAt st.cameFrom nIdx (some idx)
            dirIn := setAt st.dirIn nIdx (some stepDir)
            serial := st.serial + 1
            openItems := heapPush OpenItem.less st.openItems
              { f := tentativeG + heuristic { cx := nx, cy := ny } goal, bends := bends
                serial := st.serial, idx := nIdx } }

def expandCell (grid : Grid) (goal : GridCell) (idx : Nat) (st : AStarState) : AStarState :=
  dirs.foldl (relaxDir grid goal idx (st.dirIn idx)) st

/-- The loop of `reconstruct`, from the end of the path. -/
def traceBack (grid : Grid) (cameFrom : Nat → Option Nat) : Nat → Option Nat → List GridCell
  | 0, _ => []
  | _ + 1, none => []
  | fuel + 1, some cur => grid.cellOf cur :: traceBack grid cameFrom fuel (cameFrom cur)

/-- `reconstruct`; no path is longer than the grid has cells. -/
def reconstruct (grid : Grid) (cameFrom : Nat → Option Nat) (endIdx : Nat) : List GridCell :=
  (traceBack grid cameFrom (grid.cols * grid.rows) (some endIdx)).reverse

/-- The values after `a` up to `b`, one apart. -/
def walkTo (a b : Int) : List Int :=
  (List.range (b - a).natAbs).map (fun (k : Nat) => if a < b then a + (k + 1) else a - (k + 1))

def fallbackL (start goal : GridCell) : List GridCell :=
  start :: ((walkTo start.cx goal.cx).map (fun cx => { cx := cx, cy := start.cy }) ++
    (walkTo start.cy goal.cy).map (fun cy => { cx := goal.cx, cy := cy }))

inductive AStarResult
  | aborted
  | found (cells : List GridCell)
  | fallback (cells : List GridCell)
deriving DecidableEq

/-- The loop of `runAStar`. The `aborted` state of the signal is read at an expansion, and the result is
none when the fuel runs out. -/
def aStarLoop (grid : Grid) (start goal : GridCell) (aborted : Nat → Bool) :
    Nat → Nat → AStarState → Option AStarResult
  | 0, _, _ => none
  | fuel + 1, expansions, st =>
    match heapPop OpenItem.less st.openItems with
    | none => some (.fallback (fallbackL start goal))
    | some (top, rest) =>
      if (expansions + 1) % abortCheckEvery = 0 ∧ aborted (expansions + 1) = true then some .aborted
      else
        let st := { st with openItems := rest }
        if st.closed top.idx then aStarLoop grid start goal aborted fuel (expansions + 1) st
        else
          let st := { st with closed := setAt st.closed top.idx true }
          if top.idx = grid.idx goal.cx goal.cy then
            some (.found (reconstruct grid st.cameFrom top.idx))
          else
            aStarLoop grid start goal aborted fuel (expansions + 1)
              (expandCell grid goal top.idx st)

def AStarState.initial (grid : Grid) (start goal : GridCell) : AStarState :=
  let startIdx := grid.idx start.cx start.cy
  { gScore := setAt (fun _ => none) startIdx (some 0)
    bends := fun _ => 0
    cameFrom := fun _ => none
    dirIn := fun _ => none
    closed := fun _ => false
    serial := 1
    openItems := heapPush OpenItem.less #[]
      { f := heuristic start goal, bends := 0, serial := 0, idx := startIdx } }

/-- `runAStar`; every turn of the loop takes an item, and a cell adds four at most. -/
def runAStar (grid : Grid) (start goal : GridCell) (aborted : Nat → Bool) : Option AStarResult :=
  aStarLoop grid start goal aborted (4 * (grid.cols * grid.rows) + 2) 0
    (AStarState.initial grid start goal)

/-- The axis of a step between neighbouring cells. -/
def stepAxis (a b : GridCell) : Axis := if a.cx ≠ b.cx then .horiz else .vert

/-- Two cells side by side or one above the other. -/
def Adjacent (a b : GridCell) : Prop := heuristic a b = 1

instance (a b : GridCell) : Decidable (Adjacent a b) := inferInstanceAs (Decidable (heuristic a b = 1))

/-- The number of direction changes on a path. -/
def turns : List GridCell → Nat
  | a :: b :: c :: rest => (if stepAxis a b ≠ stepAxis b c then 1 else 0) + turns (b :: c :: rest)
  | _ => 0

def pathCost (cells : List GridCell) : Nat := (cells.length - 1) + bendPenalty * turns cells

/-- A 4-connected way from `start` to `goal` that enters unblocked cells only. -/
structure IsWay (grid : Grid) (start goal : GridCell) (cells : List GridCell) : Prop where
  starts : cells.head? = some start
  ends : cells.getLast? = some goal
  connected : cells.IsChain Adjacent
  enters : ∀ cell ∈ cells.tail, grid.isBlocked cell.cx cell.cy = false

/-- A 4-connected path over unblocked cells. -/
def IsPath (grid : Grid) (start goal : GridCell) (cells : List GridCell) : Prop :=
  IsWay grid start goal cells ∧ grid.isBlocked start.cx start.cy = false

/-- The laws of `runAStar`. -/
structure AStarLaw (grid : Grid) (start goal : GridCell) (aborted : Nat → Bool) : Prop where
  returns : ∃ result, runAStar grid start goal aborted = some result
  cheapest : ∀ cells, runAStar grid start goal aborted = some (.found cells) →
    IsPath grid start goal cells ∧
      ∀ other, IsPath grid start goal other → pathCost cells ≤ pathCost other
  fallback : ∀ cells, runAStar grid start goal aborted = some (.fallback cells) →
    ∀ other, ¬ IsPath grid start goal other

/-- A cheapest path that no way ties: a way to one of its inner cells that arrives along the other axis
costs something else, or is taken up after the path, by the order of the search. -/
structure UntiedPath (grid : Grid) (start goal : GridCell) (cells : List GridCell) : Prop where
  isPath : IsPath grid start goal cells
  cheapest : ∀ other, IsPath grid start goal other → pathCost cells ≤ pathCost other
  untied : ∀ before a b c after, cells = before ++ a :: b :: c :: after →
    ∀ way q, IsWay grid start b (way ++ [q, b]) → stepAxis q b ≠ stepAxis a b →
      pathCost (way ++ [q, b]) = pathCost (before ++ [a, b]) →
        pathCost (before ++ [a]) + heuristic a goal < pathCost (way ++ [q]) + heuristic q goal

end NovaVe
