import NovaVe.EmittedRoutes

namespace NovaVe

/-- A path of neighbouring cells that visits none twice. -/
structure SimplePath (start goal : GridCell) (cells : List GridCell) : Prop where
  starts : cells.head? = some start
  ends : cells.getLast? = some goal
  connected : cells.IsChain Adjacent
  nodup : cells.Nodup

theorem walkTo_cons (a b : Int) :
    a :: walkTo a b =
      (List.range ((b - a).natAbs + 1)).map (fun (k : Nat) => if a < b then a + k else a - k) := by
  rw [List.range_succ_eq_map, List.map_cons, List.map_map]
  unfold walkTo
  congr 1
  simp

/-- The walk from `a` to `b` in steps of one. -/
theorem walkTo_simple (a b : Int) :
    (a :: walkTo a b).IsChain (fun u v => (u - v).natAbs = 1) ∧ (a :: walkTo a b).Nodup ∧
      (a :: walkTo a b).getLast? = some b := by
  rw [walkTo_cons]
  refine ⟨?_, ?_, ?_⟩
  · rw [List.isChain_iff_getElem]
    intro k hk
    simp only [List.getElem_map, List.getElem_range]
    split <;> omega
  · refine List.Nodup.map ?_ List.nodup_range
    intro k l hkl
    dsimp only at hkl
    split at hkl <;> omega
  · rw [List.range_succ, List.map_append, List.getLast?_append]
    simp only [List.map_cons, List.map_nil, List.getLast?_singleton, Option.some_or]
    congr 1
    split <;> omega

theorem fallbackL_simple (start goal : GridCell) : SimplePath start goal (fallbackL start goal) := by
  obtain ⟨hrow, hrowNodup, hrowLast⟩ := walkTo_simple start.cx goal.cx
  obtain ⟨hcol, hcolNodup, hcolLast⟩ := walkTo_simple start.cy goal.cy
  have hsplit : fallbackL start goal =
      (start.cx :: walkTo start.cx goal.cx).map (fun cx => ({ cx := cx, cy := start.cy } : GridCell)) ++
        (walkTo start.cy goal.cy).map (fun cy => ({ cx := goal.cx, cy := cy } : GridCell)) := rfl
  have hcolChain : ((start.cy :: walkTo start.cy goal.cy).map
      (fun cy => ({ cx := goal.cx, cy := cy } : GridCell))).IsChain Adjacent := by
    refine List.isChain_map_of_isChain _ ?_ hcol
    intro u v huv
    simpa [Adjacent, heuristic] using huv
  rw [List.map_cons, List.isChain_cons] at hcolChain
  have hlast : ((start.cx :: walkTo start.cx goal.cx).map
      (fun cx => ({ cx := cx, cy := start.cy } : GridCell))).getLast? =
        some { cx := goal.cx, cy := start.cy } := by
    rw [List.getLast?_map, hrowLast]
    rfl
  refine ⟨rfl, ?_, ?_, ?_⟩
  · rw [hsplit, List.getLast?_append, hlast, List.getLast?_map]
    rcases List.eq_nil_or_concat (walkTo start.cy goal.cy) with hempty | ⟨front, last, hfront⟩
    · rw [hempty] at hcolLast ⊢
      simp only [List.getLast?_singleton, Option.some.injEq] at hcolLast
      simp [hcolLast]
    · rw [hfront, List.concat_eq_append] at hcolLast ⊢
      rw [← List.cons_append, List.getLast?_concat] at hcolLast
      rw [List.getLast?_concat, Option.some.inj hcolLast]
      rfl
  · rw [hsplit, List.isChain_append]
    refine ⟨?_, hcolChain.2, ?_⟩
    · refine List.isChain_map_of_isChain _ ?_ hrow
      intro u v huv
      simpa [Adjacent, heuristic] using huv
    · intro u hu v hv
      rw [hlast] at hu
      cases hu
      exact hcolChain.1 v hv
  · rw [hsplit, List.nodup_append]
    refine ⟨hrowNodup.map ?_, (List.nodup_cons.mp hcolNodup).2.map ?_, ?_⟩
    · intro u v huv
      exact congrArg GridCell.cx huv
    · intro u v huv
      exact congrArg GridCell.cy huv
    · intro u hu v hv
      obtain ⟨cx, _, rfl⟩ := List.mem_map.mp hu
      obtain ⟨cy, hcy, rfl⟩ := List.mem_map.mp hv
      intro heq
      have hsame : start.cy = cy := congrArg GridCell.cy heq
      exact (List.nodup_cons.mp hcolNodup).1 (hsame ▸ hcy)

theorem RouteRequest.Routed.simple {req : RouteRequest} {cells : List GridCell} (h : req.Routed cells) :
    SimplePath req.startCell req.endCell cells := by
  obtain ⟨hstart, hend⟩ := req.startCell_inBounds
  rcases h with ⟨aborted, hfound⟩ | rfl
  · have hway := runAStar_found hstart hend hfound
    exact ⟨hway.starts, hway.ends, hway.connected, runAStar_found_nodup hstart hfound⟩
  · exact fallbackL_simple _ _

/-- The cell that a point lies in. -/
def RouteRequest.cellOfPoint (req : RouteRequest) (p : RoutePoint) : GridCell where
  cx := mathRound ((p.x - req.bounds.minX) / gridStep)
  cy := mathRound ((p.y - req.bounds.minY) / gridStep)

theorem RouteRequest.grid_bounds (req : RouteRequest) :
    req.grid.bounds = req.bounds ∧ req.grid.step = gridStep := by
  obtain ⟨hshape, _⟩ := req.grid_spec
  exact ⟨congrArg (fun s : RouteBounds × ℚ × Nat × Nat => s.1) hshape,
    congrArg (fun s : RouteBounds × ℚ × Nat × Nat => s.2.1) hshape⟩

theorem mathRound_cell (origin : Int) (c : Int) :
    mathRound (((origin : ℚ) + c * gridStep - origin) / gridStep) = c := by
  have hquot : ((origin : ℚ) + c * gridStep - origin) / gridStep = c := by
    rw [add_sub_cancel_left, mul_div_assoc, div_self gridStep_pos.ne', mul_one]
  rw [hquot]
  unfold mathRound
  rw [Int.floor_eq_iff]
  constructor <;> norm_num

theorem RouteRequest.cellOf_world (req : RouteRequest) (cell : GridCell) :
    req.cellOfPoint (req.grid.worldOf cell) = cell := by
  obtain ⟨hbounds, hstep⟩ := req.grid_bounds
  unfold RouteRequest.cellOfPoint Grid.worldOf Grid.worldX Grid.worldY
  rw [hbounds, hstep]
  exact cell_ext (mathRound_cell _ _) (mathRound_cell _ _)

theorem RouteRequest.cellOf_source (req : RouteRequest) :
    req.cellOfPoint req.source.point = req.startCell :=
  (@RouteRequest.cellAt_port req _ (fun axis => req.between_source axis) .horiz).symm

theorem RouteRequest.cellOf_target (req : RouteRequest) :
    req.cellOfPoint req.target.point = req.endCell :=
  (@RouteRequest.cellAt_port req _ (fun axis => req.between_target axis) .horiz).symm

theorem portCorner_mem {port : PortRef} {a b c : RoutePoint} :
    c ∈ portCorner port a b ↔ (a.x ≠ b.x ∧ a.y ≠ b.y) ∧
      match port.side.axis with
      | .horiz => c = { x := b.x, y := a.y }
      | .vert => c = { x := a.x, y := b.y } := by
  unfold portCorner
  by_cases hdiag : a.x ≠ b.x ∧ a.y ≠ b.y
  · rw [if_pos hdiag, List.mem_singleton]
    cases port.side <;> simp [PortSide.axis, hdiag]
  · rw [if_neg hdiag]
    simp [hdiag]

/-- A corner is neither of the points it stands between, and in the cell of one of them. -/
theorem RouteRequest.corner_spec {req : RouteRequest} {port : PortRef} {a b c : RoutePoint}
    (h : c ∈ portCorner port a b) (hnear : Adjacent (req.cellOfPoint a) (req.cellOfPoint b)) :
    c ≠ a ∧ c ≠ b ∧
      (req.cellOfPoint c = req.cellOfPoint a ∨ req.cellOfPoint c = req.cellOfPoint b) := by
  obtain ⟨⟨hx, hy⟩, hside⟩ := portCorner_mem.mp h
  unfold Adjacent heuristic at hnear
  have hcells : ((req.cellOfPoint a).cx = (req.cellOfPoint b).cx) ∨
      (req.cellOfPoint a).cy = (req.cellOfPoint b).cy := by omega
  split at hside
  · subst hside
    refine ⟨fun heq => hx (congrArg RoutePoint.x heq).symm, fun heq => hy (congrArg RoutePoint.y heq :), ?_⟩
    rcases hcells with hcx | hcy
    · exact .inl (cell_ext hcx.symm rfl)
    · exact .inr (cell_ext rfl hcy)
  · subst hside
    refine ⟨fun heq => hy (congrArg RoutePoint.y heq).symm, fun heq => hx (congrArg RoutePoint.x heq :), ?_⟩
    rcases hcells with hcx | hcy
    · exact .inr (cell_ext hcx rfl)
    · exact .inl (cell_ext rfl hcy.symm)

theorem portCorner_nodup (port : PortRef) (a b : RoutePoint) : (portCorner port a b).Nodup := by
  unfold portCorner
  split
  · exact List.nodup_singleton _
  · exact List.nodup_nil

/-- A corner puts a point in line with its neighbour. -/
theorem portCorner_chain (port : PortRef) (a b : RoutePoint) {rest : List RoutePoint}
    (h : (b :: rest).IsChain Aligned) : (a :: (portCorner port a b ++ b :: rest)).IsChain Aligned := by
  by_cases hdiag : a.x ≠ b.x ∧ a.y ≠ b.y
  · unfold portCorner
    rw [if_pos hdiag, List.singleton_append, List.isChain_cons_cons, List.isChain_cons_cons]
    split
    · exact ⟨⟨.horiz, rfl⟩, ⟨.vert, rfl⟩, h⟩
    · exact ⟨⟨.vert, rfl⟩, ⟨.horiz, rfl⟩, h⟩
  · unfold portCorner
    rw [if_neg hdiag, List.nil_append, List.isChain_cons_cons]
    refine ⟨?_, h⟩
    rw [not_and_or, not_not, not_not] at hdiag
    rcases hdiag with hx | hy
    · exact ⟨.vert, hx⟩
    · exact ⟨.horiz, hy⟩

theorem aligned_symm (a b : RoutePoint) : Aligned a b ↔ Aligned b a := by
  constructor
  · rintro ⟨axis, h⟩
    refine ⟨axis, ?_⟩
    cases axis <;> exact Eq.symm h
  · rintro ⟨axis, h⟩
    refine ⟨axis, ?_⟩
    cases axis <;> exact Eq.symm h

theorem chain_reverse {pts : List RoutePoint} (h : pts.IsChain Aligned) :
    pts.reverse.IsChain Aligned := by
  rw [List.isChain_reverse]
  exact h.imp (fun a b hab => (aligned_symm a b).mp hab)

theorem worldOf_aligned {grid : Grid} {a b : GridCell} (h : Adjacent a b) :
    Aligned (grid.worldOf a) (grid.worldOf b) := by
  unfold Adjacent heuristic at h
  have hcells : a.cx = b.cx ∨ a.cy = b.cy := by omega
  rcases hcells with hcx | hcy
  · exact ⟨.vert, by simp only [RoutePoint.InLine, Grid.worldOf, hcx]⟩
  · exact ⟨.horiz, by simp only [RoutePoint.InLine, Grid.worldOf, hcy]⟩

/-- The points between two ports whose path has cells between theirs. -/
theorem corneredPoints_inner (grid : Grid) (source target : PortRef) (a b : GridCell)
    {inner : List GridCell} {first last : GridCell} (hfirst : inner.head? = some first)
    (hlast : inner.getLast? = some last) :
    corneredPoints (a :: (inner ++ [b])) grid source target =
      source.point :: (portCorner source source.point (grid.worldOf first) ++
        (inner.map grid.worldOf ++ (portCorner target target.point (grid.worldOf last)).reverse ++
          [target.point])) := by
  have hanchored : anchoredPoints (a :: (inner ++ [b])) grid source target =
      source.point :: (inner.map grid.worldOf ++ [target.point]) := by
    unfold anchoredPoints
    simp
  have hsource : spliceCorner source (source.point :: (inner.map grid.worldOf ++ [target.point])) =
      source.point :: (portCorner source source.point (grid.worldOf first) ++
        (inner.map grid.worldOf ++ [target.point])) := by
    cases inner with
    | nil => cases hfirst
    | cons head rest =>
      cases hfirst
      rfl
  have htarget : ∀ tail : List RoutePoint,
      spliceCorner target (target.point :: ((inner.map grid.worldOf).reverse ++ tail)) =
        target.point :: (portCorner target target.point (grid.worldOf last) ++
          ((inner.map grid.worldOf).reverse ++ tail)) := by
    intro tail
    rcases List.eq_nil_or_concat inner with rfl | ⟨front, final, hfront⟩
    · cases hlast
    · rw [List.concat_eq_append] at hfront
      subst hfront
      rw [List.getLast?_concat] at hlast
      cases hlast
      simp [spliceCorner]
  have hreverse : (source.point :: (portCorner source source.point (grid.worldOf first) ++
      (inner.map grid.worldOf ++ [target.point]))).reverse =
        target.point :: ((inner.map grid.worldOf).reverse ++
          ((portCorner source source.point (grid.worldOf first)).reverse ++ [source.point])) := by
    simp
  unfold corneredPoints
  dsimp only
  rw [hanchored, hsource, hreverse, htarget]
  simp

theorem corneredPoints_two (grid : Grid) (source target : PortRef) (a b : GridCell) :
    corneredPoints [a, b] grid source target =
      source.point :: (portCorner source source.point target.point ++ [target.point]) := by
  have hanchored : anchoredPoints [a, b] grid source target = [source.point, target.point] := rfl
  have haligned : ∀ c d : RoutePoint, c.x = d.x ∨ c.y = d.y → portCorner target c d = [] := by
    intro c d h
    unfold portCorner
    rw [if_neg]
    rintro ⟨hx, hy⟩
    exact h.elim hx hy
  unfold corneredPoints
  dsimp only
  rw [hanchored, spliceCorner]
  by_cases hdiag : source.point.x ≠ target.point.x ∧ source.point.y ≠ target.point.y
  · unfold portCorner
    rw [if_pos hdiag]
    split
    · simp [spliceCorner, haligned target.point { x := target.point.x, y := source.point.y } (.inl rfl)]
    · simp [spliceCorner, haligned target.point { x := source.point.x, y := target.point.y } (.inr rfl)]
  · have hline : target.point.x = source.point.x ∨ target.point.y = source.point.y := by
      rw [not_and_or, not_not, not_not] at hdiag
      exact hdiag.imp Eq.symm Eq.symm
    have hnone : portCorner source source.point target.point = [] := by
      unfold portCorner
      rw [if_neg hdiag]
    rw [hnone]
    simp [spliceCorner, haligned target.point source.point hline]

/-- Both ports ask for the same corner only at the middle of a straight path of three cells. -/
theorem RouteRequest.straightJog_of_corner {req : RouteRequest} {a m b : GridCell} {c : RoutePoint}
    (h : c ∈ portCorner req.source req.source.point (req.grid.worldOf m))
    (h' : c ∈ portCorner req.target req.target.point (req.grid.worldOf m)) :
    req.StraightJog [a, m, b] := by
  obtain ⟨⟨hx, hy⟩, hside⟩ := portCorner_mem.mp h
  obtain ⟨⟨hx', hy'⟩, hside'⟩ := portCorner_mem.mp h'
  refine ⟨a, m, b, rfl, ?_⟩
  cases hs : req.source.side.axis <;> cases ht : req.target.side.axis <;> rw [hs] at hside <;>
    rw [ht] at hside' <;> dsimp only at hside hside' ⊢
  · have heq : req.source.point.y = req.target.point.y := by
      rw [hside] at hside'
      exact (congrArg RoutePoint.y hside' :)
    exact ⟨rfl, heq, hy⟩
  · rw [hside] at hside'
    exact absurd (congrArg RoutePoint.y hside') hy
  · rw [hside] at hside'
    exact absurd (congrArg RoutePoint.x hside') hx
  · have heq : req.source.point.x = req.target.point.x := by
      rw [hside] at hside'
      exact (congrArg RoutePoint.x hside' :)
    exact ⟨rfl, heq, hx⟩

/-- The points of a path from one port to the other, in line from each to the next. -/
structure PathPoints (source target : PortRef) (pts : List RoutePoint) : Prop where
  starts : ∃ rest, rest ≠ [] ∧ pts = source.point :: rest
  ends : pts.getLast? = some target.point
  aligned : pts.IsChain Aligned

theorem corneredPoints_path {req : RouteRequest} {a b : GridCell} {inner : List GridCell}
    (h : (a :: (inner ++ [b])).IsChain Adjacent) :
    PathPoints req.source req.target
      (corneredPoints (a :: (inner ++ [b])) req.grid req.source req.target) := by
  rcases hfirst : inner.head? with _ | first
  · rw [List.head?_eq_none_iff] at hfirst
    subst hfirst
    rw [List.nil_append, corneredPoints_two]
    refine ⟨⟨_, by simp, rfl⟩, ?_, portCorner_chain _ _ _ (.singleton _)⟩
    rw [← List.cons_append, List.getLast?_concat]
  · obtain ⟨last, hlast⟩ : ∃ last, inner.getLast? = some last := by
      cases inner with
      | nil => cases hfirst
      | cons head rest => exact ⟨_, List.getLast?_eq_some_getLast (by simp)⟩
    have hinner : (inner.map req.grid.worldOf).IsChain Aligned := by
      refine List.isChain_map_of_isChain req.grid.worldOf (fun _ _ => worldOf_aligned) ?_
      exact (List.isChain_append.mp (List.isChain_of_isChain_cons h)).1
    have hfront : (req.source.point :: (portCorner req.source req.source.point
        (req.grid.worldOf first) ++ inner.map req.grid.worldOf)).IsChain Aligned := by
      cases inner with
      | nil => cases hfirst
      | cons head rest =>
        cases hfirst
        exact portCorner_chain _ _ _ hinner
    have hback : ((req.source.point :: (portCorner req.source req.source.point
        (req.grid.worldOf first) ++ inner.map req.grid.worldOf)).reverse).IsChain Aligned :=
      chain_reverse hfront
    have hall : (req.target.point :: (portCorner req.target req.target.point
        (req.grid.worldOf last) ++ (req.source.point :: (portCorner req.source req.source.point
          (req.grid.worldOf first) ++ inner.map req.grid.worldOf)).reverse)).IsChain Aligned := by
      rcases List.eq_nil_or_concat inner with rfl | ⟨front, final, hconcat⟩
      · cases hlast
      · rw [List.concat_eq_append] at hconcat
        subst hconcat
        rw [List.getLast?_concat] at hlast
        cases hlast
        have hsplit : (req.source.point :: (portCorner req.source req.source.point
            (req.grid.worldOf first) ++ (front ++ [last]).map req.grid.worldOf)).reverse =
            req.grid.worldOf last :: ((front.map req.grid.worldOf).reverse ++
              ((portCorner req.source req.source.point (req.grid.worldOf first)).reverse ++
                [req.source.point])) := by
          simp
        rw [hsplit] at hback ⊢
        exact portCorner_chain _ _ _ hback
    rw [corneredPoints_inner req.grid req.source req.target a b hfirst hlast]
    refine ⟨⟨_, by simp, rfl⟩, ?_, ?_⟩
    · rw [← List.append_assoc, ← List.cons_append, List.getLast?_concat]
    · have hreversed := chain_reverse hall
      simpa using hreversed

/-- The ends of a path with cells between, and where they lie. -/
structure InnerPath (req : RouteRequest) (a b : GridCell) (inner : List GridCell) : Prop where
  source : req.cellOfPoint req.source.point = a
  target : req.cellOfPoint req.target.point = b
  connected : (a :: (inner ++ [b])).IsChain Adjacent
  nodup : inner.Nodup
  notStart : a ∉ inner
  notEnd : b ∉ inner
  apart : a ≠ b

theorem SimplePath.inner {req : RouteRequest} {a b : GridCell} {inner : List GridCell}
    (h : SimplePath req.startCell req.endCell (a :: (inner ++ [b]))) : InnerPath req a b inner := by
  have hstart : req.startCell = a := by simpa using h.starts.symm
  have hend : req.endCell = b := by
    have hends := h.ends
    rw [← List.cons_append, List.getLast?_concat] at hends
    exact (Option.some.inj hends).symm
  obtain ⟨ha, hrest⟩ := List.nodup_cons.mp h.nodup
  obtain ⟨hinner, _, hb⟩ := List.nodup_append.mp hrest
  refine ⟨req.cellOf_source.trans hstart, req.cellOf_target.trans hend, h.connected, hinner, ?_, ?_, ?_⟩
  · intro hmem
    exact ha (List.mem_append_left _ hmem)
  · intro hmem
    exact hb b hmem b (by simp) rfl
  · rintro rfl
    exact ha (by simp)

/-- Points of distinct cells, with corners next to the ends, are distinct. -/
theorem InnerPath.nodup_points {req : RouteRequest} {a b : GridCell} {inner : List GridCell}
    (h : InnerPath req a b inner) {first last : GridCell} (hfirst : first ∈ inner)
    (hlast : last ∈ inner) {sources targets : List RoutePoint} (hsources : sources.Nodup)
    (htargets : targets.Nodup)
    (hsource : ∀ c ∈ sources, c ≠ req.source.point ∧ c ≠ req.grid.worldOf first ∧
      (req.cellOfPoint c = a ∨ req.cellOfPoint c = first))
    (htarget : ∀ c ∈ targets, c ≠ req.target.point ∧ c ≠ req.grid.worldOf last ∧
      (req.cellOfPoint c = b ∨ req.cellOfPoint c = last))
    (hapart : ∀ c ∈ sources, c ∉ targets) :
    (req.source.point :: (sources ++ (inner.map req.grid.worldOf ++ targets ++
      [req.target.point]))).Nodup := by
  have hworld : ∀ p ∈ inner.map req.grid.worldOf, req.cellOfPoint p ∈ inner ∧
      p = req.grid.worldOf (req.cellOfPoint p) := by
    intro p hp
    obtain ⟨cell, hcell, rfl⟩ := List.mem_map.mp hp
    rw [req.cellOf_world]
    exact ⟨hcell, rfl⟩
  have hmap : (inner.map req.grid.worldOf).Nodup := by
    refine h.nodup.map ?_
    intro c d hcd
    rw [← req.cellOf_world c, hcd, req.cellOf_world]
  rw [List.nodup_cons, List.nodup_append, List.nodup_append, List.nodup_append]
  refine ⟨?_, hsources, ⟨⟨hmap, htargets, ?_⟩, List.nodup_singleton _, ?_⟩, ?_⟩
  · intro hmem
    rcases List.mem_append.mp hmem with hmem | hmem
    · exact (hsource _ hmem).1 rfl
    rcases List.mem_append.mp hmem with hmem | hmem
    · rcases List.mem_append.mp hmem with hmem | hmem
      · have hin := (hworld _ hmem).1
        rw [h.source] at hin
        exact h.notStart hin
      · obtain ⟨_, _, hb | hl⟩ := htarget _ hmem
        · exact h.apart (h.source.symm.trans hb)
        · exact h.notStart (h.source.symm.trans hl ▸ hlast)
    · have heq := List.mem_singleton.mp hmem
      exact h.apart (h.source.symm.trans ((congrArg req.cellOfPoint heq).trans h.target))
  · intro p hp c hc
    rintro rfl
    obtain ⟨hin, hself⟩ := hworld p hp
    obtain ⟨_, hne, hb | hl⟩ := htarget p hc
    · exact h.notEnd (hb ▸ hin)
    · rw [hl] at hself
      exact hne hself
  · intro p hp c hc
    rw [List.mem_singleton.mp hc]
    rintro rfl
    rcases List.mem_append.mp hp with hp | hp
    · have hin := (hworld _ hp).1
      rw [h.target] at hin
      exact h.notEnd hin
    · exact (htarget _ hp).1 rfl
  · intro c hc p hp
    rintro rfl
    obtain ⟨_, hne, hcell⟩ := hsource c hc
    rcases List.mem_append.mp hp with hp | hp
    · rcases List.mem_append.mp hp with hp | hp
      · obtain ⟨hin, hself⟩ := hworld c hp
        rcases hcell with ha | hf
        · exact h.notStart (ha ▸ hin)
        · rw [hf] at hself
          exact hne hself
      · exact hapart c hc hp
    · rw [List.mem_singleton.mp hp, h.target] at hcell
      rcases hcell with ha | hf
      · exact h.apart ha.symm
      · exact h.notEnd (hf ▸ hfirst)

/-- The points of a path are distinct, but for the two corners of a straight jog. -/
theorem InnerPath.corneredPoints_nodup {req : RouteRequest} {a b : GridCell} {inner : List GridCell}
    (h : InnerPath req a b inner) (hjog : ¬ req.StraightJog (a :: (inner ++ [b]))) :
    (corneredPoints (a :: (inner ++ [b])) req.grid req.source req.target).Nodup := by
  rcases hfirst : inner.head? with _ | first
  · rw [List.head?_eq_none_iff] at hfirst
    subst hfirst
    have hnear : Adjacent (req.cellOfPoint req.source.point) (req.cellOfPoint req.target.point) := by
      rw [h.source, h.target]
      exact List.isChain_pair.mp h.connected
    have hcorner : ∀ c ∈ portCorner req.source req.source.point req.target.point,
        c ≠ req.source.point ∧ c ≠ req.target.point := by
      intro c hc
      obtain ⟨hs, ht, _⟩ := RouteRequest.corner_spec hc hnear
      exact ⟨hs, ht⟩
    rw [List.nil_append, corneredPoints_two, List.nodup_cons, List.nodup_append]
    refine ⟨?_, portCorner_nodup _ _ _, List.nodup_singleton _, ?_⟩
    · intro hmem
      rcases List.mem_append.mp hmem with hmem | hmem
      · exact (hcorner _ hmem).1 rfl
      · have heq := List.mem_singleton.mp hmem
        exact h.apart (h.source.symm.trans ((congrArg req.cellOfPoint heq).trans h.target))
    · intro c hc p hp
      rw [List.mem_singleton.mp hp]
      exact (hcorner c hc).2
  · obtain ⟨last, hlast⟩ : ∃ last, inner.getLast? = some last := by
      cases inner with
      | nil => cases hfirst
      | cons head rest => exact ⟨_, List.getLast?_eq_some_getLast (by simp)⟩
    have hfirstMem : first ∈ inner := List.mem_of_head? hfirst
    have hlastMem : last ∈ inner := List.mem_of_getLast? hlast
    obtain ⟨hnext, hchain⟩ := List.isChain_cons.mp h.connected
    have hnearFirst : Adjacent a first := hnext first (by rw [List.head?_append, hfirst]; rfl)
    have hnearLast : Adjacent last b := (List.isChain_append.mp hchain).2.2 last hlast b rfl
    have hsource : ∀ c ∈ portCorner req.source req.source.point (req.grid.worldOf first),
        c ≠ req.source.point ∧ c ≠ req.grid.worldOf first ∧
          (req.cellOfPoint c = a ∨ req.cellOfPoint c = first) := by
      intro c hc
      have hspec := @RouteRequest.corner_spec req _ _ _ _ hc
        (by rw [h.source, req.cellOf_world]; exact hnearFirst)
      rwa [h.source, req.cellOf_world] at hspec
    have htarget : ∀ c ∈ portCorner req.target req.target.point (req.grid.worldOf last),
        c ≠ req.target.point ∧ c ≠ req.grid.worldOf last ∧
          (req.cellOfPoint c = b ∨ req.cellOfPoint c = last) := by
      intro c hc
      have hback : Adjacent b last := by
        unfold Adjacent heuristic at hnearLast ⊢
        omega
      have hspec := @RouteRequest.corner_spec req _ _ _ _ hc
        (by rw [h.target, req.cellOf_world]; exact hback)
      rwa [h.target, req.cellOf_world] at hspec
    rw [corneredPoints_inner req.grid req.source req.target a b hfirst hlast]
    refine h.nodup_points hfirstMem hlastMem (portCorner_nodup _ _ _)
      (List.nodup_reverse.mpr (portCorner_nodup _ _ _)) hsource
      (fun c hc => htarget c (List.mem_reverse.mp hc)) ?_
    intro c hc hc'
    have hc' := List.mem_reverse.mp hc'
    have hmiddle : first = last := by
      rcases (hsource c hc).2.2 with hs | hs <;> rcases (htarget c hc').2.2 with ht | ht <;>
        rw [hs] at ht
      · exact absurd ht h.apart
      · exact absurd (ht ▸ hlastMem) h.notStart
      · exact absurd (ht ▸ hfirstMem) h.notEnd
      · exact ht
    subst hmiddle
    have hone : inner = [first] := by
      cases inner with
      | nil => cases hfirst
      | cons head rest =>
        cases hfirst
        rcases List.eq_nil_or_concat rest with rfl | ⟨front, final, hconcat⟩
        · rfl
        · rw [List.concat_eq_append] at hconcat
          subst hconcat
          rw [← List.cons_append, List.getLast?_concat] at hlast
          cases hlast
          exact absurd (List.mem_append_right front (by simp)) (List.nodup_cons.mp h.nodup).1
    subst hone
    exact hjog (RouteRequest.straightJog_of_corner hc hc')

/-- The segments through the collapsed points of a path. -/
theorem PathPoints.polyline {source target : PortRef} {pts : List RoutePoint}
    (h : PathPoints source target pts) (hnodup : pts.Nodup) :
    ∃ rest, pts = source.point :: rest ∧
      PortPolyline source target (segmentsThrough (source.point :: collapseFrom source.point rest)) ∧
      (segmentsThrough (source.point :: collapseFrom source.point rest)).IsChain
        (fun s t => s.heading ≠ t.heading) := by
  obtain ⟨rest, hrest, rfl⟩ := h.starts
  refine ⟨rest, rfl, ?_⟩
  have hends := h.ends
  cases rest with
  | nil => exact absurd rfl hrest
  | cons cur rest =>
    rw [List.getLast?_cons_cons, ← collapseFrom_last source.point (by simp)] at hends
    obtain ⟨⟨axis, hline⟩, hchain⟩ := List.isChain_cons_cons.mp h.aligned
    have hzigzag := collapseFrom_zigzag hnodup hline hchain
    refine ⟨?_, hzigzag.headings⟩
    rcases hcollapsed : collapseFrom source.point (cur :: rest) with _ | ⟨b, tail⟩
    · exact absurd hcollapsed (collapseFrom_ne_nil _ _)
    · rw [hcollapsed] at hends hzigzag
      obtain ⟨hpar, hconn, hlast⟩ := segmentsThrough_joined hzigzag.aligned
      refine ⟨hpar, hconn, ?_, hlast.trans ?_⟩
      · rw [segmentsThrough_cons ⟨axis, hzigzag.1.2⟩]
        rfl
      · rw [List.getLast?_cons_cons] at hends
        exact hends

theorem PortPolyline.reduced_faithful_iff {source target : PortRef} {segments : List Segment}
    (h : PortPolyline source target segments) :
    FaithfulPolyline source target (reduceCrossings segments) ↔
      (∀ pair ∈ sweepOrder segments, ¬ PaysAt segments pair) ∧
        segments.IsChain (fun s t => s.heading ≠ t.heading) := by
  have hfixed : reduceCrossings segments = segments ↔
      ∀ pair ∈ sweepOrder segments, ¬ PaysAt segments pair := by
    rw [reduceCrossings_steps]
    exact sweepSteps_fixed_iff h.parallel (sweepOrder_pairs segments)
  rw [← hfixed, ← h.faithful_iff]
  constructor
  · intro hfaithful
    obtain ⟨_, _, hkept⟩ := reduceCrossings_adds_none h.parallel
    have hsame := hkept.eq_of_connected h.parallel h.connected hfaithful.connected
      (hfaithful.starts.trans h.starts.symm)
    exact ⟨hsame, by rwa [hsame] at hfaithful⟩
  · rintro ⟨hsame, hfaithful⟩
    rwa [hsame]

theorem adjacent_across {a m b : GridCell} (ham : Adjacent a m) (hmb : Adjacent m b) (hab : a ≠ b)
    (hrow : a.cy = b.cy) : m.cy = a.cy ∧ (m.cx = a.cx + 1 ∧ b.cx = m.cx + 1 ∨
      m.cx = a.cx - 1 ∧ b.cx = m.cx - 1) := by
  unfold Adjacent heuristic at ham hmb
  have hcx : a.cx ≠ b.cx := fun h => hab (cell_ext h hrow)
  omega

theorem adjacent_along {a m b : GridCell} (ham : Adjacent a m) (hmb : Adjacent m b) (hab : a ≠ b)
    (hcol : a.cx = b.cx) : m.cx = a.cx ∧ (m.cy = a.cy + 1 ∧ b.cy = m.cy + 1 ∨
      m.cy = a.cy - 1 ∧ b.cy = m.cy - 1) := by
  unfold Adjacent heuristic at ham hmb
  have hcy : a.cy ≠ b.cy := fun h => hab (cell_ext hcol h)
  omega

/-- A coordinate on the side of the centre of a cell on which its own cell lies. -/
theorem mathRound_side {origin : Int} {x : ℚ} {c m : Int}
    (h : mathRound ((x - origin) / gridStep) = c) :
    (c < m → x < (origin : ℚ) + m * gridStep) ∧ (m < c → (origin : ℚ) + m * gridStep < x) := by
  obtain ⟨hle, hlt⟩ := mathRound_bounds ((x - origin) / gridStep)
  rw [h] at hle hlt
  have hscaled : (x - origin) / gridStep * gridStep = x - origin := div_mul_cancel₀ _ gridStep_pos.ne'
  have hstep : gridStep = 20 := rfl
  rw [hstep] at hscaled hle hlt ⊢
  constructor
  · intro hcm
    have hcast : (c : ℚ) + 1 ≤ m := by exact_mod_cast hcm
    linarith
  · intro hmc
    have hcast : (m : ℚ) + 1 ≤ c := by exact_mod_cast hmc
    linarith

/-- A coordinate of the middle cell of three in a row lies between those of the ports. -/
theorem middle_between {origin : Int} {x z : ℚ} {a m b : Int}
    (ha : mathRound ((x - origin) / gridStep) = a) (hb : mathRound ((z - origin) / gridStep) = b)
    (h : m = a + 1 ∧ b = m + 1 ∨ m = a - 1 ∧ b = m - 1) {y : ℚ}
    (hy : y = (origin : ℚ) + m * gridStep) : x < y ∧ y < z ∨ z < y ∧ y < x := by
  obtain ⟨hbelow, habove⟩ := @mathRound_side origin x a m ha
  obtain ⟨hbelow', habove'⟩ := @mathRound_side origin z b m hb
  rw [hy]
  rcases h with ⟨hm, hb⟩ | ⟨hm, hb⟩
  · exact .inl ⟨hbelow (by omega), habove' (by omega)⟩
  · exact .inr ⟨hbelow' (by omega), habove (by omega)⟩

theorem sign_between {x y z : ℚ} (h : x < y ∧ y < z ∨ z < y ∧ y < x) :
    SignType.sign (y - x) = SignType.sign (z - y) := by
  rcases h with ⟨hxy, hyz⟩ | ⟨hzy, hyx⟩
  · rw [sign_pos (by linarith), sign_pos (by linarith)]
  · rw [sign_neg (by linarith), sign_neg (by linarith)]

theorem collapse_jog {p c m t : RoutePoint} (hturn : collinear p c m = false)
    (hback : collinear c m c = true) (hon : collinear c c t = true) :
    collapseFrom p [c, m, c, t] = [c, t] := by
  simp [collapseFrom, hturn, hback, hon]

theorem RouteRequest.world_axes (req : RouteRequest) (cell : GridCell) :
    (req.grid.worldOf cell).x = (req.bounds.minX : ℚ) + cell.cx * gridStep ∧
      (req.grid.worldOf cell).y = (req.bounds.minY : ℚ) + cell.cy * gridStep := by
  obtain ⟨hbounds, hstep⟩ := req.grid_bounds
  unfold Grid.worldOf Grid.worldX Grid.worldY
  rw [hbounds, hstep]
  exact ⟨rfl, rfl⟩

/-- A corner that lies between two ports, and to which both return from the middle cell. -/
structure JogCorner (p t m c : RoutePoint) : Prop where
  turns : collinear p c m = false
  back : collinear c m c = true
  onLine : collinear c c t = true
  aligned : Aligned p c ∧ Aligned c t
  heading : (segmentBetween p c).heading = (segmentBetween c t).heading

theorem jogCorner_across {p t m : RoutePoint} (hy : p.y = t.y) (hoff : p.y ≠ m.y)
    (hx : p.x < m.x ∧ m.x < t.x ∨ t.x < m.x ∧ m.x < p.x) :
    JogCorner p t m { x := m.x, y := p.y } := by
  have hpx : p.x ≠ m.x := by
    rintro heq
    rcases hx with ⟨hpm, _⟩ | ⟨_, hmp⟩ <;> linarith
  refine ⟨?_, ?_, ?_, ⟨⟨.horiz, rfl⟩, ⟨.horiz, hy⟩⟩, ?_⟩
  · simp [collinear, hoff, hpx]
  · simp [collinear]
  · simp [collinear, hy]
  · unfold Segment.heading segmentBetween
    dsimp only
    rw [sign_between hx, hy]

theorem jogCorner_along {p t m : RoutePoint} (hx : p.x = t.x) (hoff : p.x ≠ m.x)
    (hy : p.y < m.y ∧ m.y < t.y ∨ t.y < m.y ∧ m.y < p.y) :
    JogCorner p t m { x := p.x, y := m.y } := by
  have hpy : p.y ≠ m.y := by
    rintro heq
    rcases hy with ⟨hpm, _⟩ | ⟨_, hmp⟩ <;> linarith
  refine ⟨?_, ?_, ?_, ⟨⟨.vert, rfl⟩, ⟨.vert, hx⟩⟩, ?_⟩
  · simp [collinear, hoff, hpy]
  · simp [collinear]
  · simp [collinear, hx]
  · unfold Segment.heading segmentBetween
    dsimp only
    rw [sign_between hy, hx]

theorem portCorner_single {port : PortRef} {a b c : RoutePoint} (h : c ∈ portCorner port a b) :
    portCorner port a b = [c] := by
  unfold portCorner at h ⊢
  split at h
  next hdiag => rw [if_pos hdiag, List.mem_singleton.mp h]
  next => exact absurd h List.not_mem_nil

/-- The corner that both ports of a straight jog ask for. -/
theorem InnerPath.jogCorner {req : RouteRequest} {a m b : GridCell} (h : InnerPath req a b [m])
    (hjog : req.StraightJog [a, m, b]) :
    ∃ c, portCorner req.source req.source.point (req.grid.worldOf m) = [c] ∧
      portCorner req.target req.target.point (req.grid.worldOf m) = [c] ∧
      JogCorner req.source.point req.target.point (req.grid.worldOf m) c := by
  obtain ⟨a', m', b', hcells, haxis, hline⟩ := hjog
  cases hcells
  obtain ⟨ham, hrest⟩ := List.isChain_cons_cons.mp h.connected
  obtain ⟨hmb, _⟩ := List.isChain_cons_cons.mp hrest
  obtain ⟨hwx, hwy⟩ := req.world_axes m
  have hsx := congrArg GridCell.cx h.source
  have hsy := congrArg GridCell.cy h.source
  have htx := congrArg GridCell.cx h.target
  have hty := congrArg GridCell.cy h.target
  cases hs : req.source.side.axis with
  | horiz =>
    rw [hs] at hline haxis
    obtain ⟨hy, hoff⟩ := hline
    have hrow : a.cy = b.cy := by
      rw [← hsy, ← hty]
      unfold RouteRequest.cellOfPoint PortRef.point
      dsimp only
      rw [hy]
    have hbetween := middle_between hsx htx (adjacent_across ham hmb h.apart hrow).2 hwx
    have hcorner := @jogCorner_across req.source.point req.target.point (req.grid.worldOf m) hy hoff
      hbetween
    refine ⟨_, portCorner_single ?_, portCorner_single ?_, hcorner⟩
    · rw [portCorner_mem, hs]
      refine ⟨⟨?_, hoff⟩, rfl⟩
      rintro heq
      rcases hbetween with ⟨hlt, _⟩ | ⟨_, hlt⟩
      · exact absurd heq hlt.ne
      · exact absurd heq.symm hlt.ne
    · rw [portCorner_mem, ← haxis]
      refine ⟨⟨?_, ?_⟩, RoutePoint.point_ext hy rfl⟩
      · rintro heq
        rcases hbetween with ⟨_, hlt⟩ | ⟨hlt, _⟩
        · exact absurd heq.symm hlt.ne
        · exact absurd heq hlt.ne
      · exact fun heq => hoff (hy.trans heq)
  | vert =>
    rw [hs] at hline haxis
    obtain ⟨hx, hoff⟩ := hline
    have hcol : a.cx = b.cx := by
      rw [← hsx, ← htx]
      unfold RouteRequest.cellOfPoint PortRef.point
      dsimp only
      rw [hx]
    have hbetween := middle_between hsy hty (adjacent_along ham hmb h.apart hcol).2 hwy
    have hcorner := @jogCorner_along req.source.point req.target.point (req.grid.worldOf m) hx hoff
      hbetween
    refine ⟨_, portCorner_single ?_, portCorner_single ?_, hcorner⟩
    · rw [portCorner_mem, hs]
      refine ⟨⟨hoff, ?_⟩, rfl⟩
      rintro heq
      rcases hbetween with ⟨hlt, _⟩ | ⟨_, hlt⟩
      · exact absurd heq hlt.ne
      · exact absurd heq.symm hlt.ne
    · rw [portCorner_mem, ← haxis]
      refine ⟨⟨?_, ?_⟩, RoutePoint.point_ext rfl hx⟩
      · exact fun heq => hoff (hx.trans heq)
      · rintro heq
        rcases hbetween with ⟨_, hlt⟩ | ⟨hlt, _⟩
        · exact absurd heq.symm hlt.ne
        · exact absurd heq hlt.ne

/-- The two segments of a straight jog head the same way. -/
theorem emitSegments_jog {req : RouteRequest} {a m b : GridCell}
    (hjog : req.StraightJog [a, m, b]) (hinner : InnerPath req a b [m]) :
    ∃ c, emitSegments [a, m, b] req.grid req.source req.target =
        [segmentBetween req.source.point c, segmentBetween c req.target.point] ∧
      (segmentBetween req.source.point c).heading = (segmentBetween c req.target.point).heading ∧
      Aligned req.source.point c ∧ Aligned c req.target.point := by
  obtain ⟨c, hsource, htarget, hcorner⟩ := hinner.jogCorner hjog
  have hpts := @corneredPoints_inner req.grid req.source req.target a b [m] m m rfl rfl
  rw [hsource, htarget] at hpts
  have hcells : corneredPoints [a, m, b] req.grid req.source req.target =
      req.source.point :: [c, req.grid.worldOf m, c, req.target.point] := hpts
  refine ⟨c, ?_, hcorner.heading, hcorner.aligned⟩
  unfold emitSegments
  rw [hcells]
  dsimp only
  rw [collapse_jog hcorner.turns hcorner.back hcorner.onLine, segmentsThrough_cons hcorner.aligned.1,
    segmentsThrough_cons hcorner.aligned.2]
  rfl

theorem emitSegments_one (grid : Grid) (source target : PortRef) (a : GridCell) :
    emitSegments [a] grid source target = [segmentBetween target.point target.point] := by
  have haligned : Aligned target.point target.point := ⟨.horiz, rfl⟩
  have hpts : corneredPoints [a] grid source target = [target.point] := rfl
  unfold emitSegments
  rw [hpts]
  dsimp only
  rw [collapseFrom, segmentsThrough_cons haligned]
  rfl

/-- What it takes for a path to be emitted and left as it is: one cell holds one port only, no straight
jog, and no exchange of two neighbours in a band of the emitted segments that pays. -/
structure RouteRequest.EmitsPlain (req : RouteRequest) (cells : List GridCell) : Prop where
  onePort : cells.length = 1 → req.source.point = req.target.point
  noJog : ¬ req.StraightJog cells
  noExchange : ∀ pair ∈ sweepOrder (emitSegments cells req.grid req.source req.target),
    ¬ PaysAt (emitSegments cells req.grid req.source req.target) pair

theorem sweepOrder_one (s : Segment) : sweepOrder [s] = [] := by
  rcases horder : sweepOrder [s] with _ | ⟨⟨axis, i, j⟩, rest⟩
  · rfl
  · have hpair : BandPair axis [s] i j := sweepOrder_pairs [s] (axis, i, j) (by simp [horder])
    have hi := (mem_lane.mp hpair.left).1
    have hj := (mem_lane.mp hpair.right).1
    have hne := hpair.apart
    simp only [List.length_singleton] at hi hj
    omega

/-- The polyline of a routed path is faithful under exactly these conditions. -/
theorem routed_faithful_iff {req : RouteRequest} {cells : List GridCell} (h : req.Routed cells) :
    FaithfulPolyline req.source req.target
        (reduceCrossings (emitSegments cells req.grid req.source req.target)) ↔
      req.EmitsPlain cells := by
  have hsimple := h.simple
  cases cells with
  | nil => cases hsimple.starts
  | cons a rest =>
    rcases List.eq_nil_or_concat rest with rfl | ⟨inner, b, hconcat⟩
    · have hemit := emitSegments_one req.grid req.source req.target a
      have hreduced : reduceCrossings [segmentBetween req.target.point req.target.point] =
          [segmentBetween req.target.point req.target.point] := rfl
      constructor
      · intro hfaithful
        rw [hemit, hreduced] at hfaithful
        refine ⟨fun _ => (Option.some.inj hfaithful.starts).symm, ?_, ?_⟩
        · rintro ⟨a', m', b', hcells, _⟩
          cases hcells
        · rw [hemit, sweepOrder_one]
          simp
      · intro hplain
        have hsame := hplain.onePort rfl
        rw [hemit, hreduced]
        have hpoly : PortPolyline req.source req.target
            [segmentBetween req.target.point req.target.point] :=
          ⟨by simp [Segment.AxisParallel, segmentBetween], .singleton _, congrArg some hsame.symm, rfl⟩
        exact hpoly.faithful_iff.mpr (.singleton _)
    · rw [List.concat_eq_append] at hconcat
      subst hconcat
      have hinner := hsimple.inner
      have hpath := @corneredPoints_path req a b inner hsimple.connected
      by_cases hjog : req.StraightJog (a :: (inner ++ [b]))
      · constructor
        · intro hfaithful
          exfalso
          obtain ⟨m, hm⟩ : ∃ m, inner = [m] := by
            obtain ⟨a', m, b', hcells, _⟩ := hjog
            have hsplit : inner ++ [b] = [m] ++ [b'] := (List.cons.inj hcells).2
            exact ⟨m, (List.append_inj' hsplit rfl).1⟩
          subst hm
          obtain ⟨c, hemit, hheading, hfirst, hlast⟩ := emitSegments_jog hjog hinner
          have hemit' : emitSegments (a :: ([m] ++ [b])) req.grid req.source req.target =
              [segmentBetween req.source.point c, segmentBetween c req.target.point] := hemit
          have hpoly : PortPolyline req.source req.target
              [segmentBetween req.source.point c, segmentBetween c req.target.point] := by
            refine ⟨?_, .cons_cons rfl (.singleton _), rfl, rfl⟩
            intro s hs
            simp only [List.mem_cons, List.not_mem_nil, or_false] at hs
            rcases hs with rfl | rfl
            · exact segmentBetween_parallel hfirst
            · exact segmentBetween_parallel hlast
          rw [hemit', hpoly.reduced_faithful_iff] at hfaithful
          exact List.isChain_pair.mp hfaithful.2 hheading
        · intro hplain
          exact absurd hjog hplain.noJog
      · obtain ⟨rest, hpts, hpoly, hheadings⟩ := hpath.polyline (hinner.corneredPoints_nodup hjog)
        have hemit : emitSegments (a :: (inner ++ [b])) req.grid req.source req.target =
            segmentsThrough (req.source.point :: collapseFrom req.source.point rest) := by
          unfold emitSegments
          rw [hpts]
        rw [← hemit] at hpoly hheadings
        rw [hpoly.reduced_faithful_iff]
        constructor
        · rintro ⟨hnone, _⟩
          refine ⟨?_, hjog, hnone⟩
          intro hone
          simp only [List.length_cons, List.length_append, List.length_nil] at hone
          omega
        · intro hplain
          exact ⟨hplain.noExchange, hheadings⟩

/-- Two ports with an obstacle between them, and the way below it: two bends, and back up to the port. -/
def detourRequest : RouteRequest where
  source := { x := 0, y := 3, side := .right }
  target := { x := 100, y := 63, side := .left }
  obstacles := [{ x := 40, y := -10, w := 20, h := 80 }]

def detourCells : List GridCell :=
  (List.range 6).map (fun (k : Nat) => { cx := 6, cy := k + 6 }) ++
    (List.range 5).map (fun (k : Nat) => { cx := k + 7, cy := 11 }) ++
      [{ cx := 11, cy := 10 }, { cx := 11, cy := 9 }]

theorem detour_found : runAStar detourRequest.grid detourRequest.startCell detourRequest.endCell
    (fun _ => false) = some (.found detourCells) := by decide +kernel

theorem detourRequest_emits : detourRequest.EmitsPlain detourCells where
  onePort hone := absurd hone (by decide)
  noJog := by
    rintro ⟨a, m, b, hcells, _⟩
    have hlength : detourCells.length = 13 := by decide
    rw [hcells] at hlength
    exact absurd hlength (by simp)
  noExchange := by
    have horder : sweepOrder (emitSegments detourCells detourRequest.grid detourRequest.source
        detourRequest.target) = [] := by decide +kernel
    rw [horder]
    simp

theorem detourRequest_faithful : FaithfulPolyline detourRequest.source detourRequest.target
    (reduceCrossings (emitSegments detourCells detourRequest.grid detourRequest.source
      detourRequest.target)) :=
  (routed_faithful_iff (.inl ⟨_, detour_found⟩)).mpr detourRequest_emits

/-- Two ports on one line, with nothing between. -/
def lineRequest (distance offset : ℚ) : RouteRequest where
  source := { x := 0, y := offset, side := .right }
  target := { x := distance, y := offset, side := .left }
  obstacles := []

/-- A straight route of one bend, half a unit off the centres of its cells. -/
theorem line_counted_as_bent : ¬ ∀ (req : RouteRequest) (cells : List GridCell), req.Routed cells →
    FaithfulPolyline req.source req.target
      (reduceCrossings (emitSegments cells req.grid req.source req.target)) := by
  intro hall
  have hfound : runAStar (lineRequest 40 (1 / 2)).grid (lineRequest 40 (1 / 2)).startCell
      (lineRequest 40 (1 / 2)).endCell (fun _ => false) =
        some (.found [⟨6, 6⟩, ⟨7, 6⟩, ⟨8, 6⟩]) := by decide +kernel
  have hbends := (hall (lineRequest 40 (1 / 2)) _ (.inl ⟨_, hfound⟩)).bends
  exact absurd hbends (by decide +kernel)

end NovaVe
