import Mathlib.Data.List.Sort
import Mathlib.Algebra.BigOperators.Group.List.Basic
import NovaVe.FacingPorts

namespace NovaVe

def laneWidth : ℚ := 12

structure Segment where
  x1 : ℚ
  y1 : ℚ
  x2 : ℚ
  y2 : ℚ
deriving DecidableEq, Repr

instance : Inhabited Segment := ⟨⟨0, 0, 0, 0⟩⟩

def segmentAt (segments : List Segment) (i : Nat) : Segment := segments.getD i default

/-- The coordinate that the sweeps exchange between the segments along `axis`. -/
def Segment.channel (s : Segment) : Axis → ℚ
  | .horiz => s.y1
  | .vert => s.x1

/-- The smaller coordinate of a segment along `axis`. -/
def Segment.entry (s : Segment) : Axis → ℚ
  | .horiz => min s.x1 s.x2
  | .vert => min s.y1 s.y2

/-- The segments `reduceCrossings` takes to run along `axis`; a point runs along `horiz`. -/
def Segment.runs (s : Segment) : Axis → Bool
  | .horiz => decide (s.y1 = s.y2)
  | .vert => !decide (s.y1 = s.y2) && decide (s.x1 = s.x2)

def swapChannel (a b : Segment) : Axis → Segment × Segment
  | .horiz => ({ a with y1 := b.y1, y2 := b.y2 }, { b with y1 := a.y1, y2 := a.y1 })
  | .vert => ({ a with x1 := b.x1, x2 := b.x2 }, { b with x1 := a.x1, x2 := a.x1 })

/-- `swapChannel` of two entries of the list. -/
def swapAt (axis : Axis) (segments : List Segment) (i j : Nat) : List Segment :=
  let pair := swapChannel (segmentAt segments i) (segmentAt segments j) axis
  (segments.set i pair.1).set j pair.2

/-- True iff one axis-parallel segment is horizontal, the other vertical, and they cross. -/
def segmentsCross (a b : Segment) : Bool :=
  let aHoriz := decide (a.y1 = a.y2)
  let bHoriz := decide (b.y1 = b.y2)
  if aHoriz = bHoriz then false
  else
    let h := if aHoriz then a else b
    let v := if aHoriz then b else a
    decide (min h.x1 h.x2 < v.x1) && decide (v.x1 < max h.x1 h.x2) &&
      decide (min v.y1 v.y2 < h.y1) && decide (h.y1 < max v.y1 v.y2)

def pairCrossings (s : Segment) (others : List Nat) (all : List Segment) : Nat :=
  others.countP (fun oi => segmentsCross s (segmentAt all oi))

/-- Total count of orthogonal crossings across all pairs. -/
def countCrossings : List Segment → Nat
  | [] => 0
  | s :: rest => rest.countP (segmentsCross s) + countCrossings rest

/-- The crossings of two segments with those across them. -/
def crossingsOf (segments : List Segment) (ortho : List Nat) (i j : Nat) : Nat :=
  pairCrossings (segmentAt segments i) ortho segments +
    pairCrossings (segmentAt segments j) ortho segments

/-- One step of the loop of `sweepGroup`: strict-improve only. -/
def sweepPair (axis : Axis) (ortho : List Nat) (segments : List Segment) (i j : Nat) :
    List Segment :=
  let swapped := swapAt axis segments i j
  if crossingsOf swapped ortho i j ≥ crossingsOf segments ortho i j then swapAt axis swapped i j
  else swapped

def sweepPairs (axis : Axis) (ortho : List Nat) : List Nat → List Segment → List Segment
  | i :: j :: rest, segments =>
    sweepPairs axis ortho (j :: rest) (sweepPair axis ortho segments i j)
  | _, segments => segments

def sortGroup (axis : Axis) (segments : List Segment) (group : List Nat) : List Nat :=
  group.insertionSort (fun a b => (segmentAt segments a).entry axis ≤ (segmentAt segments b).entry axis)

def sweepGroup (axis : Axis) (ortho : List Nat) (segments : List Segment) (group : List Nat) :
    List Segment :=
  if group.length < 2 then segments
  else sweepPairs axis ortho (sortGroup axis segments group) segments

/-- Appends an index to its band's list; a map keeps its bands in the order of their first entry. -/
def pushBand (band : Int) (i : Nat) : List (Int × List Nat) → List (Int × List Nat)
  | [] => [(band, [i])]
  | (other, arr) :: rest =>
    if other = band then (other, arr ++ [i]) :: rest else (other, arr) :: pushBand band i rest

/-- The indices of the segments along `axis`. -/
def lane (axis : Axis) (segments : List Segment) : List Nat :=
  (List.range segments.length).filter (fun i => (segmentAt segments i).runs axis)

def laneBand (axis : Axis) (s : Segment) : Int := mathRound (s.channel axis / (2 * laneWidth))

/-- The lane bands of `axis`, each with the indices of its segments. -/
def laneBands (axis : Axis) (segments : List Segment) : List (Int × List Nat) :=
  (lane axis segments).foldl
    (fun bands i => pushBand (laneBand axis (segmentAt segments i)) i bands) []

/-- The sweeps over the bands of one axis. -/
def sweepBands (axis : Axis) (ortho : List Nat) (bands : List (Int × List Nat))
    (segments : List Segment) : List Segment :=
  bands.foldl (fun out band => sweepGroup axis ortho out band.2) segments

def reduceCrossings (segments : List Segment) : List Segment :=
  if segments.length ≤ 1 then segments
  else
    sweepBands .vert (lane .horiz segments) (laneBands .vert segments)
      (sweepBands .horiz (lane .vert segments) (laneBands .horiz segments) segments)

end NovaVe
