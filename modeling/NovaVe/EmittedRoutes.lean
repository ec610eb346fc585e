import Mathlib.Data.Sign.Defs
import NovaVe.FacedRoutes
import NovaVe.SweptAgain

namespace NovaVe

structure RoutePoint where
  x : ℚ
  y : ℚ
deriving DecidableEq, Repr

def PortRef.point (port : PortRef) : RoutePoint := { x := port.x, y := port.y }

def Grid.worldOf (grid : Grid) (cell : GridCell) : RoutePoint where
  x := grid.worldX cell.cx
  y := grid.worldY cell.cy

/-- The corner between a port and its neighbour on the path, where the two are not in line. It respects
the port tangent direction. -/
def portCorner (port : PortRef) (a b : RoutePoint) : List RoutePoint :=
  if a.x ≠ b.x ∧ a.y ≠ b.y then
    [if port.side = .left ∨ port.side = .right then { x := b.x, y := a.y } else { x := a.x, y := b.y }]
  else []

/-- The splice of a corner behind the first point. -/
def spliceCorner (port : PortRef) : List RoutePoint → List RoutePoint
  | a :: b :: rest => a :: (portCorner port a b ++ b :: rest)
  | pts => pts

/-- The centres of the cells with the first and the last replaced by the ports. -/
def anchoredPoints (cells : List GridCell) (grid : Grid) (source target : PortRef) : List RoutePoint :=
  let pts := (cells.map grid.worldOf).set 0 source.point
  pts.set (pts.length - 1) target.point

def collinear (a b c : RoutePoint) : Bool :=
  (decide (a.y = b.y) && decide (b.y = c.y)) || (decide (a.x = b.x) && decide (b.x = c.x))

/-- The loop that collapses collinear runs, behind the point kept last. The last point is always kept,
also where it is the only one. -/
def collapseFrom (prev : RoutePoint) : List RoutePoint → List RoutePoint
  | [] => [prev]
  | [last] => [last]
  | cur :: next :: rest =>
    if collinear prev cur next then collapseFrom prev (next :: rest)
    else cur :: collapseFrom cur (next :: rest)

def segmentBetween (a b : RoutePoint) : Segment := { x1 := a.x, y1 := a.y, x2 := b.x, y2 := b.y }

/-- The segments between consecutive points; a diagonal pair is split. -/
def segmentsThrough : List RoutePoint → List Segment
  | a :: b :: rest =>
    (if a.x = b.x ∨ a.y = b.y then [segmentBetween a b]
      else [segmentBetween a { x := b.x, y := a.y }, segmentBetween { x := b.x, y := a.y } b]) ++
      segmentsThrough (b :: rest)
  | _ => []

/-- The points of `emitSegments` with both corners. -/
def corneredPoints (cells : List GridCell) (grid : Grid) (source target : PortRef) : List RoutePoint :=
  let pts := spliceCorner source (anchoredPoints cells grid source target)
  (spliceCorner target pts.reverse).reverse

def emitSegments (cells : List GridCell) (grid : Grid) (source target : PortRef) : List Segment :=
  match corneredPoints cells grid source target with
  | [] => [segmentBetween source.point target.point]
  | first :: rest => segmentsThrough (first :: collapseFrom first rest)

/-- The result of `serialize`: the points of the path string, and its metrics. -/
structure RouteShape where
  d : List RoutePoint
  bends : Nat
  lengthPx : ℚ
deriving DecidableEq

def Segment.first (s : Segment) : RoutePoint := { x := s.x1, y := s.y1 }

def Segment.last (s : Segment) : RoutePoint := { x := s.x2, y := s.y2 }

/-- The length that `serialize` adds for a segment. -/
def Segment.manhattan (s : Segment) : ℚ := |s.x2 - s.x1| + |s.y2 - s.y1|

/-- One turn of the loop of `serialize`. -/
def RouteShape.lineTo (shape : RouteShape) (s : Segment) : RouteShape where
  d := shape.d ++ [s.last]
  bends := shape.bends + 1
  lengthPx := shape.lengthPx + s.manhattan

def serialize : List Segment → RouteShape
  | [] => { d := [], bends := 0, lengthPx := 0 }
  | s :: rest =>
    rest.foldl RouteShape.lineTo { d := [s.first, s.last], bends := 0, lengthPx := s.manhattan }

/-- Where a segment starts from and where it heads. -/
def Segment.heading (s : Segment) : SignType × SignType :=
  (SignType.sign (s.x2 - s.x1), SignType.sign (s.y2 - s.y1))

/-- The number of direction changes along segments. -/
def directionChanges : List Segment → Nat
  | s :: t :: rest => (if s.heading ≠ t.heading then 1 else 0) + directionChanges (t :: rest)
  | _ => 0

/-- The length of a segment that is parallel to an axis. -/
def Segment.span (s : Segment) : ℚ := max |s.x2 - s.x1| |s.y2 - s.y1|

/-- The segments form a polyline of axis-parallel segments from one port to the other. -/
structure PortPolyline (source target : PortRef) (segments : List Segment) : Prop where
  parallel : ∀ s ∈ segments, s.AxisParallel
  connected : segments.IsChain (fun s t => t.first = s.last)
  starts : segments.head?.map Segment.first = some source.point
  ends : segments.getLast?.map Segment.last = some target.point

/-- `serialize` reports what the polyline is. -/
structure FaithfulPolyline (source target : PortRef) (segments : List Segment) : Prop
    extends PortPolyline source target segments where
  bends : (serialize segments).bends = directionChanges segments
  lengthPx : (serialize segments).lengthPx = (segments.map Segment.span).sum

/-- The paths that `routeOrthogonal` can emit: those of the search, and the fallback. -/
def RouteRequest.Routed (req : RouteRequest) (cells : List GridCell) : Prop :=
  (∃ aborted, runAStar req.grid req.startCell req.endCell aborted = some (.found cells)) ∨
    cells = fallbackL req.startCell req.endCell

/-- Three cells between ports that look along the same axis and lie on one line along it, off the centre
of the middle cell. -/
def RouteRequest.StraightJog (req : RouteRequest) (cells : List GridCell) : Prop :=
  ∃ a b c, cells = [a, b, c] ∧ req.source.side.axis = req.target.side.axis ∧
    match req.source.side.axis with
    | .horiz => req.source.y = req.target.y ∧ req.source.y ≠ req.grid.worldY b.cy
    | .vert => req.source.x = req.target.x ∧ req.source.x ≠ req.grid.worldX b.cx

theorem lineTo_metrics (rest : List Segment) (shape : RouteShape) :
    (rest.foldl RouteShape.lineTo shape).bends = shape.bends + rest.length ∧
      (rest.foldl RouteShape.lineTo shape).lengthPx =
        shape.lengthPx + (rest.map Segment.manhattan).sum := by
  induction rest generalizing shape with
  | nil => simp
  | cons t rest ih =>
    obtain ⟨hbends, hlength⟩ := ih (shape.lineTo t)
    rw [List.foldl_cons, hbends, hlength, List.map_cons, List.sum_cons, List.length_cons]
    dsimp only [RouteShape.lineTo]
    constructor
    · omega
    · ring

theorem serialize_metrics (segments : List Segment) :
    (serialize segments).bends = segments.length - 1 ∧
      (serialize segments).lengthPx = (segments.map Segment.manhattan).sum := by
  cases segments with
  | nil => exact ⟨rfl, rfl⟩
  | cons s rest =>
    obtain ⟨hbends, hlength⟩ :=
      lineTo_metrics rest { d := [s.first, s.last], bends := 0, lengthPx := s.manhattan }
    refine ⟨hbends.trans (by simp), hlength.trans ?_⟩
    rw [List.map_cons, List.sum_cons]

theorem Segment.AxisParallel.manhattan_eq {s : Segment} (h : s.AxisParallel) : s.manhattan = s.span := by
  unfold Segment.manhattan Segment.span
  rcases h with hy | hx
  · rw [hy, sub_self, abs_zero, add_zero, max_eq_left (abs_nonneg _)]
  · rw [hx, sub_self, abs_zero, zero_add, max_eq_right (abs_nonneg _)]

theorem serialize_length {segments : List Segment} (h : ∀ s ∈ segments, s.AxisParallel) :
    (serialize segments).lengthPx = (segments.map Segment.span).sum := by
  rw [(serialize_metrics segments).2]
  congr 1
  exact List.map_congr_left (fun s hs => (h s hs).manhattan_eq)

theorem directionChanges_le (segments : List Segment) :
    directionChanges segments ≤ segments.length - 1 := by
  induction segments with
  | nil => rfl
  | cons s rest ih =>
    cases rest with
    | nil => exact Nat.zero_le _
    | cons t rest =>
      rw [directionChanges]
      simp only [List.length_cons] at ih ⊢
      split <;> omega

/-- All the joints are bends where the direction changes at each. -/
theorem directionChanges_eq_iff (segments : List Segment) :
    segments.length - 1 = directionChanges segments ↔
      segments.IsChain (fun s t => s.heading ≠ t.heading) := by
  induction segments with
  | nil => simp [directionChanges]
  | cons s rest ih =>
    cases rest with
    | nil => simp [directionChanges]
    | cons t rest =>
      have hle := directionChanges_le (t :: rest)
      rw [directionChanges, List.isChain_cons_cons, ← ih]
      simp only [List.length_cons] at hle ⊢
      split
      next hne =>
        simp only [hne, ne_eq, not_false_eq_true, true_and]
        omega
      next heq =>
        constructor
        · intro hcount
          omega
        · rintro ⟨hne, _⟩
          exact absurd hne heq

theorem PortPolyline.faithful_iff {source target : PortRef} {segments : List Segment}
    (h : PortPolyline source target segments) :
    FaithfulPolyline source target segments ↔
      segments.IsChain (fun s t => s.heading ≠ t.heading) := by
  rw [← directionChanges_eq_iff]
  constructor
  · intro hfaithful
    rw [← (serialize_metrics segments).1]
    exact hfaithful.bends
  · intro hbends
    exact ⟨h, (serialize_metrics segments).1.trans hbends, serialize_length h.parallel⟩

theorem segment_unmoved {s t : Segment} {axis : Axis} (hs : s.runs axis) (ht : t.runs axis)
    (hextent : t.extent axis = s.extent axis) (hfirst : t.first = s.first) : t = s := by
  obtain ⟨x1, y1, x2, y2⟩ := s
  obtain ⟨x1', y1', x2', y2'⟩ := t
  cases axis <;> simp_all [Segment.runs, Segment.extent, Segment.first]

theorem segmentAt_getElem {segments : List Segment} {k : Nat} (hk : k < segments.length) :
    segmentAt segments k = segments[k] := by
  unfold segmentAt
  rw [List.getD_eq_getElem?_getD, List.getElem?_eq_getElem hk, Option.getD_some]

/-- A connected polyline from the same point, with the extents of another, is the other. -/
theorem Rechannelled.eq_of_connected {segments out : List Segment} (h : Rechannelled segments out)
    (hpar : ∀ s ∈ segments, s.AxisParallel)
    (hconn : segments.IsChain (fun s t => t.first = s.last))
    (hconn' : out.IsChain (fun s t => t.first = s.last))
    (hstarts : out.head?.map Segment.first = segments.head?.map Segment.first) : out = segments := by
  have hunmoved : ∀ k, k < segments.length →
      (segmentAt out k).first = (segmentAt segments k).first →
        segmentAt out k = segmentAt segments k := by
    intro k hk hfirst
    obtain ⟨axis, hruns⟩ := (Segment.axisParallel_iff _).mp (hpar _ (segmentAt_mem hk))
    exact segment_unmoved hruns (by rw [h.runs]; exact hruns)
      (h.extent axis k (mem_lane.mpr ⟨hk, hruns⟩)) hfirst
  have hall : ∀ k, k < segments.length → segmentAt out k = segmentAt segments k := by
    intro k
    induction k with
    | zero =>
      intro hk
      have hk' : 0 < out.length := by rw [h.length]; exact hk
      apply hunmoved 0 hk
      rw [segmentAt_getElem hk, segmentAt_getElem hk']
      rw [List.head?_eq_getElem?, List.head?_eq_getElem?, List.getElem?_eq_getElem hk,
        List.getElem?_eq_getElem hk'] at hstarts
      simpa using hstarts
    | succ k ih =>
      intro hk
      have hk' : k + 1 < out.length := by rw [h.length]; exact hk
      have hbefore := ih (by omega)
      apply hunmoved (k + 1) hk
      rw [segmentAt_getElem (by omega), segmentAt_getElem (by omega)] at hbefore
      rw [segmentAt_getElem hk, segmentAt_getElem hk', List.isChain_iff_getElem.mp hconn k hk,
        List.isChain_iff_getElem.mp hconn' k hk', hbefore]
  apply segments_ext h.length
  intro k
  by_cases hk : k < segments.length
  · exact hall k hk
  · have hlen := h.length
    unfold segmentAt
    rw [List.getD_eq_getElem?_getD, List.getD_eq_getElem?_getD, List.getElem?_eq_none (by omega),
      List.getElem?_eq_none (by omega)]

/-- Two points on one line along an axis. -/
def RoutePoint.InLine (a b : RoutePoint) : Axis → Prop
  | .horiz => a.y = b.y
  | .vert => a.x = b.x

/-- The points turn at every joint, with the first step along `axis`. -/
def Zigzag : Axis → List RoutePoint → Prop
  | axis, a :: b :: rest => (a ≠ b ∧ a.InLine b axis) ∧ Zigzag axis.other (b :: rest)
  | _, _ => True

def Aligned (a b : RoutePoint) : Prop := ∃ axis, a.InLine b axis

theorem RoutePoint.point_ext {a b : RoutePoint} (h : a.InLine b .horiz) (h' : a.InLine b .vert) :
    a = b := by
  obtain ⟨x, y⟩ := a
  obtain ⟨x', y'⟩ := b
  cases h
  cases h'
  rfl

theorem collinear_iff {a b c : RoutePoint} :
    collinear a b c = true ↔ ∃ axis, a.InLine b axis ∧ b.InLine c axis := by
  unfold collinear
  simp only [Bool.or_eq_true, Bool.and_eq_true, decide_eq_true_eq]
  constructor
  · rintro (⟨hab, hbc⟩ | ⟨hab, hbc⟩)
    · exact ⟨.horiz, hab, hbc⟩
    · exact ⟨.vert, hab, hbc⟩
  · rintro ⟨axis, hab, hbc⟩
    cases axis with
    | horiz => exact .inl ⟨hab, hbc⟩
    | vert => exact .inr ⟨hab, hbc⟩

theorem RoutePoint.InLine.unique {a b : RoutePoint} {axis other : Axis} (hne : a ≠ b)
    (h : a.InLine b axis) (h' : a.InLine b other) : other = axis := by
  cases axis <;> cases other
  · rfl
  · exact absurd (RoutePoint.point_ext h h') hne
  · exact absurd (RoutePoint.point_ext h' h) hne
  · rfl

theorem RoutePoint.InLine.trans {a b c : RoutePoint} {axis : Axis} (h : a.InLine b axis)
    (h' : b.InLine c axis) : a.InLine c axis := by
  cases axis with
  | horiz => exact Eq.trans h h'
  | vert => exact Eq.trans h h'

/-- Collapsing distinct points in line leaves a turn at every joint. -/
theorem collapseFrom_zigzag {prev cur : RoutePoint} {rest : List RoutePoint} {axis : Axis}
    (hnodup : (prev :: cur :: rest).Nodup) (hline : prev.InLine cur axis)
    (hchain : (cur :: rest).IsChain Aligned) : Zigzag axis (prev :: collapseFrom prev (cur :: rest)) := by
  induction rest generalizing prev cur axis with
  | nil =>
    have hne : prev ≠ cur := by
      rintro rfl
      exact (List.nodup_cons.mp hnodup).1 (by simp)
    exact ⟨⟨hne, hline⟩, trivial⟩
  | cons next rest ih =>
    obtain ⟨hprev, htail⟩ := List.nodup_cons.mp hnodup
    have hne : prev ≠ cur := by
      rintro rfl
      exact hprev (by simp)
    obtain ⟨⟨other, hnext⟩, hrest⟩ := List.isChain_cons_cons.mp hchain
    rw [collapseFrom]
    split
    next hcollinear =>
      obtain ⟨along, hpc, hcn⟩ := collinear_iff.mp hcollinear
      rw [RoutePoint.InLine.unique hne hline hpc] at hcn
      refine ih (List.nodup_cons.mpr ⟨fun hmem => hprev ?_, (List.nodup_cons.mp htail).2⟩)
        (hline.trans hcn) hrest
      exact List.mem_cons_of_mem _ hmem
    next hturn =>
      have hother : other = axis.other := by
        rcases axis_cases axis other with rfl | h
        · exact absurd (collinear_iff.mpr ⟨other, hline, hnext⟩) hturn
        · exact h
      subst hother
      exact ⟨⟨hne, hline⟩, ih htail hnext hrest⟩

theorem collapseFrom_ne_nil (prev : RoutePoint) (rest : List RoutePoint) :
    collapseFrom prev rest ≠ [] := by
  fun_induction collapseFrom prev rest with
  | case1 => simp
  | case2 => simp
  | case3 prev cur next rest hcollinear ih => exact ih
  | case4 => simp

theorem collapseFrom_last (prev : RoutePoint) {rest : List RoutePoint} (hrest : rest ≠ []) :
    (prev :: collapseFrom prev rest).getLast? = rest.getLast? := by
  induction rest generalizing prev with
  | nil => exact absurd rfl hrest
  | cons cur rest ih =>
    cases rest with
    | nil => rfl
    | cons next rest =>
      rw [collapseFrom]
      split
      next =>
        rw [ih prev (by simp), List.getLast?_cons_cons]
      next =>
        rw [List.getLast?_cons_cons, ih cur (by simp), List.getLast?_cons_cons]

theorem Zigzag.aligned {axis : Axis} {pts : List RoutePoint} (h : Zigzag axis pts) :
    pts.IsChain Aligned := by
  induction pts generalizing axis with
  | nil => exact .nil
  | cons a rest ih =>
    cases rest with
    | nil => exact .singleton a
    | cons b rest => exact List.isChain_cons_cons.mpr ⟨⟨axis, h.1.2⟩, ih h.2⟩

theorem segmentsThrough_cons {a b : RoutePoint} (h : Aligned a b) (rest : List RoutePoint) :
    segmentsThrough (a :: b :: rest) = segmentBetween a b :: segmentsThrough (b :: rest) := by
  have hline : a.x = b.x ∨ a.y = b.y := by
    obtain ⟨axis, h⟩ := h
    cases axis with
    | horiz => exact .inr h
    | vert => exact .inl h
  rw [segmentsThrough, if_pos hline, List.singleton_append]

theorem segmentBetween_parallel {a b : RoutePoint} (h : Aligned a b) :
    (segmentBetween a b).AxisParallel := by
  obtain ⟨axis, h⟩ := h
  cases axis with
  | horiz => exact .inl h
  | vert => exact .inr h

/-- The segments through points in line, from one point to the next. -/
theorem segmentsThrough_joined {a b : RoutePoint} {rest : List RoutePoint}
    (h : (a :: b :: rest).IsChain Aligned) :
    (∀ s ∈ segmentsThrough (a :: b :: rest), s.AxisParallel) ∧
      (segmentsThrough (a :: b :: rest)).IsChain (fun s t => t.first = s.last) ∧
      (segmentsThrough (a :: b :: rest)).getLast?.map Segment.last = (b :: rest).getLast? := by
  induction rest generalizing a b with
  | nil =>
    obtain ⟨hab, _⟩ := List.isChain_cons_cons.mp h
    rw [segmentsThrough_cons hab]
    refine ⟨?_, .singleton _, rfl⟩
    intro s hs
    rcases List.mem_cons.mp hs with rfl | hs
    · exact segmentBetween_parallel hab
    · exact absurd hs List.not_mem_nil
  | cons c rest ih =>
    obtain ⟨hab, hrest⟩ := List.isChain_cons_cons.mp h
    obtain ⟨hbc, _⟩ := List.isChain_cons_cons.mp hrest
    obtain ⟨hpar, hconn, hlast⟩ := ih hrest
    rw [segmentsThrough_cons hab]
    rw [segmentsThrough_cons hbc] at hpar hconn hlast ⊢
    refine ⟨?_, List.isChain_cons_cons.mpr ⟨rfl, hconn⟩, ?_⟩
    · intro s hs
      rcases List.mem_cons.mp hs with rfl | hs
      · exact segmentBetween_parallel hab
      · exact hpar s hs
    · rw [List.getLast?_cons_cons, hlast, List.getLast?_cons_cons]

theorem heading_ne {a b c : RoutePoint} {axis : Axis} (hab : a ≠ b) (hline : a.InLine b axis)
    (hline' : b.InLine c axis.other) :
    (segmentBetween a b).heading ≠ (segmentBetween b c).heading := by
  intro heq
  unfold Segment.heading segmentBetween at heq
  simp only [Prod.mk.injEq] at heq
  obtain ⟨hx, hy⟩ := heq
  cases axis with
  | horiz =>
    have hy' : b.x = c.x := hline'
    rw [hy', sub_self, sign_zero, sign_eq_zero_iff, sub_eq_zero] at hx
    exact hab (RoutePoint.point_ext hline (hy'.trans hx).symm)
  | vert =>
    have hx' : b.y = c.y := hline'
    rw [hx', sub_self, sign_zero, sign_eq_zero_iff, sub_eq_zero] at hy
    exact hab (RoutePoint.point_ext (hx'.trans hy).symm hline)

theorem Zigzag.headings {axis : Axis} {pts : List RoutePoint} (h : Zigzag axis pts) :
    (segmentsThrough pts).IsChain (fun s t => s.heading ≠ t.heading) := by
  induction pts generalizing axis with
  | nil => exact .nil
  | cons a rest ih =>
    cases rest with
    | nil => exact .nil
    | cons b rest =>
      have htail := ih h.2
      rw [segmentsThrough_cons ⟨axis, h.1.2⟩]
      cases rest with
      | nil => exact .singleton _
      | cons c rest =>
        rw [segmentsThrough_cons ⟨axis.other, h.2.1.2⟩] at htail ⊢
        exact List.isChain_cons_cons.mpr
          ⟨heading_ne h.1.1 h.1.2 h.2.1.2, htail⟩

end NovaVe
