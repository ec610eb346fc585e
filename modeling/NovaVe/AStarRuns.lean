import NovaVe.RunAStar

namespace NovaVe

/-- The number of cells of a grid. -/
def Grid.total (grid : Grid) : Nat := grid.cols * grid.rows

/-- The heuristic of an index. -/
def hAt (grid : Grid) (goal : GridCell) (v : Nat) : Nat := heuristic (grid.cellOf v) goal

/-- The axis of a step between two indices. -/
def axisAt (grid : Grid) (u v : Nat) : Axis := stepAxis (grid.cellOf u) (grid.cellOf v)

/-- A step of the search: to an unblocked neighbour. -/
structure IsStep (grid : Grid) (u v : Nat) : Prop where
  near : Adjacent (grid.cellOf u) (grid.cellOf v)
  inside : v < grid.total
  free : grid.isBlocked (grid.cellOf v).cx (grid.cellOf v).cy = false

/-- The cost of a step along an axis, after one that arrived along another or none. -/
def stepCost (incoming : Option Axis) (axis : Axis) : Nat :=
  1 + if incoming ≠ none ∧ incoming ≠ some axis then bendPenalty else 0

theorem stepCost_bounds (incoming : Option Axis) (axis : Axis) :
    1 ≤ stepCost incoming axis ∧ stepCost incoming axis ≤ 2 := by
  unfold stepCost bendPenalty
  split
  next => omega
  next => omega

def OpenItem.key (item : OpenItem) : Nat ×ₗ Nat ×ₗ Nat := toLex (item.f, toLex (item.bends, item.serial))

theorem OpenItem.less_iff (a b : OpenItem) : OpenItem.less a b = true ↔ a.key < b.key := by
  unfold OpenItem.less OpenItem.key
  rw [Prod.Lex.toLex_lt_toLex, Prod.Lex.toLex_lt_toLex]
  split
  next hf =>
    rw [decide_eq_true_eq]
    constructor
    · exact Or.inl
    · rintro (h | ⟨h, _⟩)
      · exact h
      · exact absurd h hf
  next hf =>
    rw [not_not] at hf
    split
    next hb =>
      rw [decide_eq_true_eq]
      constructor
      · intro h
        exact Or.inr ⟨hf, Or.inl h⟩
      · rintro (h | ⟨_, h | ⟨h, _⟩⟩)
        · dsimp only at h
          omega
        · exact h
        · exact absurd h hb
    next hb =>
      rw [not_not] at hb
      rw [decide_eq_true_eq]
      constructor
      · intro h
        exact Or.inr ⟨hf, Or.inr ⟨hb, h⟩⟩
      · rintro (h | ⟨_, h | ⟨_, h⟩⟩)
        · dsimp only at h
          omega
        · dsimp only at h
          omega
        · exact h

theorem OpenItem.f_le {a b : OpenItem} (h : a.key ≤ b.key) : a.f ≤ b.f := by
  unfold OpenItem.key at h
  rw [Prod.Lex.toLex_le_toLex] at h
  rcases h with h | ⟨h, _⟩
  · exact h.le
  · exact h.le

theorem cellOf_inBounds {grid : Grid} {v : Nat} (hv : v < grid.total) :
    grid.inBounds (grid.cellOf v).cx (grid.cellOf v).cy = true := by
  have hcols : 0 < grid.cols := by
    unfold Grid.total at hv
    exact Nat.pos_of_mul_pos_right (by omega : 0 < grid.cols * grid.rows)
  have hcx := Nat.mod_lt v hcols
  have hcy : v / grid.cols < grid.rows := Nat.div_lt_of_lt_mul hv
  rw [Grid.inBounds_iff]
  unfold Grid.cellOf
  rw [← Nat.div_eq_sub_mod_div]
  refine ⟨⟨Int.natCast_nonneg _, ?_⟩, Int.natCast_nonneg _, ?_⟩
  · exact Int.ofNat_lt.mpr hcx
  · exact Int.ofNat_lt.mpr hcy

theorem idx_cellOf (grid : Grid) (v : Nat) :
    grid.idx (grid.cellOf v).cx (grid.cellOf v).cy = v := by
  have hsum := Nat.div_add_mod v grid.cols
  unfold Grid.idx Grid.cellOf
  rw [← Nat.div_eq_sub_mod_div]
  dsimp only
  rw [← Int.natCast_mul, ← Int.natCast_add, Int.toNat_natCast, Nat.mul_comm]
  exact hsum

theorem cellOf_idx {grid : Grid} {cell : GridCell} (h : grid.inBounds cell.cx cell.cy = true) :
    grid.cellOf (grid.idx cell.cx cell.cy) = cell ∧ grid.idx cell.cx cell.cy < grid.total := by
  obtain ⟨cx, cy⟩ := cell
  obtain ⟨⟨hx0, hx1⟩, hy0, hy1⟩ := Grid.inBounds_iff.mp h
  obtain ⟨x, rfl⟩ := Int.eq_ofNat_of_zero_le hx0
  obtain ⟨y, rfl⟩ := Int.eq_ofNat_of_zero_le hy0
  have hx : x < grid.cols := Int.ofNat_lt.mp hx1
  have hy : y < grid.rows := Int.ofNat_lt.mp hy1
  have hidx : grid.idx (x : Int) (y : Int) = grid.cols * y + x := by
    unfold Grid.idx
    rw [← Int.natCast_mul, ← Int.natCast_add, Int.toNat_natCast, Nat.mul_comm]
  dsimp only
  rw [hidx]
  constructor
  · unfold Grid.cellOf
    rw [← Nat.div_eq_sub_mod_div, Nat.mul_add_mod, Nat.mod_eq_of_lt hx,
      Nat.mul_add_div (by omega), Nat.div_eq_of_lt hx, Nat.add_zero]
  · unfold Grid.total
    have hrow : grid.cols * (y + 1) ≤ grid.cols * grid.rows := Nat.mul_le_mul_left _ hy
    rw [Nat.mul_add] at hrow
    omega

/-- The start and the end of a step differ, and the heuristic changes by one at most. -/
theorem IsStep.facts {grid : Grid} {u v : Nat} (h : IsStep grid u v) (goal : GridCell) :
    u ≠ v ∧ hAt grid goal u ≤ hAt grid goal v + 1 := by
  have hnear := h.near
  unfold Adjacent heuristic at hnear
  constructor
  · rintro rfl
    omega
  · unfold hAt heuristic
    omega

/-- The state after `v` is reached at a lower cost from `u`. -/
def AStarState.improved (st : AStarState) (grid : Grid) (goal : GridCell) (u v g : Nat) : AStarState :=
  let axis := axisAt grid u v
  let isBend := st.dirIn u ≠ none ∧ st.dirIn u ≠ some axis
  let bends := st.bends u + if isBend then 1 else 0
  { st with
    gScore := setAt st.gScore v (some (g + stepCost (st.dirIn u) axis))
    bends := setAt st.bends v bends
    cameFrom := setAt st.cameFrom v (some u)
    dirIn := setAt st.dirIn v (some axis)
    serial := st.serial + 1
    openItems := heapPush OpenItem.less st.openItems
      { f := g + stepCost (st.dirIn u) axis + hAt grid goal v, bends := bends
        serial := st.serial, idx := v } }

/-- `v` costs no more than by a step from `u`, or is closed. -/
def Relaxed (grid : Grid) (st : AStarState) (u v : Nat) : Prop :=
  st.closed v = true ∨ ∃ gv, st.gScore v = some gv ∧
    ∀ gu, st.gScore u = some gu → gv ≤ gu + stepCost (st.dirIn u) (axisAt grid u v)

/-- What a relaxation of `v` from `u` needs. -/
structure Improves (grid : Grid) (st : AStarState) (u v g : Nat) : Prop where
  step : IsStep grid u v
  notClosed : st.closed v = false
  reached : st.gScore u = some g
  lower : ∀ old, st.gScore v = some old → g + stepCost (st.dirIn u) (axisAt grid u v) < old

theorem dir_cases {dir : Int × Int} (h : dir ∈ dirs) :
    dir = (1, 0) ∨ dir = (-1, 0) ∨ dir = (0, 1) ∨ dir = (0, -1) := by
  simpa [dirs] using h

/-- The cell in a direction is adjacent, and the axis is that of the direction. -/
theorem dir_step {a : GridCell} {dir : Int × Int} (h : dir ∈ dirs) :
    Adjacent a { cx := a.cx + dir.1, cy := a.cy + dir.2 } ∧
      stepAxis a { cx := a.cx + dir.1, cy := a.cy + dir.2 } =
        if dir.1 ≠ 0 then Axis.horiz else Axis.vert := by
  unfold Adjacent heuristic stepAxis
  rcases dir_cases h with rfl | rfl | rfl | rfl
  · simp
  · simp
  · simp
  · simp

/-- An adjacent cell lies in one of the directions. -/
theorem dir_of_adjacent {a b : GridCell} (h : Adjacent a b) :
    ∃ dir ∈ dirs, b = { cx := a.cx + dir.1, cy := a.cy + dir.2 } := by
  obtain ⟨ax, ay⟩ := a
  obtain ⟨bx, by'⟩ := b
  unfold Adjacent heuristic at h
  dsimp only at h
  have hcase : (bx = ax + 1 ∧ by' = ay) ∨ (bx = ax + -1 ∧ by' = ay) ∨ (bx = ax ∧ by' = ay + 1) ∨
      (bx = ax ∧ by' = ay + -1) := by
    omega
  rcases hcase with ⟨rfl, rfl⟩ | ⟨rfl, rfl⟩ | ⟨rfl, rfl⟩ | ⟨rfl, rfl⟩
  · exact ⟨(1, 0), by simp [dirs], by simp⟩
  · exact ⟨(-1, 0), by simp [dirs], by simp⟩
  · exact ⟨(0, 1), by simp [dirs], by simp⟩
  · exact ⟨(0, -1), by simp [dirs], by simp⟩

/-- The cell a direction leads to. -/
def dirCell (grid : Grid) (u : Nat) (dir : Int × Int) : GridCell where
  cx := (grid.cellOf u).cx + dir.1
  cy := (grid.cellOf u).cy + dir.2

/-- What one direction does: nothing, since its cell is no step or is relaxed, or an improvement. -/
theorem relaxDir_cases {grid : Grid} {goal : GridCell} {u g : Nat} {st : AStarState}
    {dir : Int × Int} (hdir : dir ∈ dirs) (hreached : st.gScore u = some g) :
    (relaxDir grid goal u (st.dirIn u) st dir = st ∧
      ∀ v, IsStep grid u v → grid.cellOf v = dirCell grid u dir → Relaxed grid st u v) ∨
    (∃ v, grid.cellOf v = dirCell grid u dir ∧ Improves grid st u v g ∧
      relaxDir grid goal u (st.dirIn u) st dir = st.improved grid goal u v g) := by
  obtain ⟨hnear, haxis⟩ := @dir_step (grid.cellOf u) dir hdir
  unfold relaxDir
  dsimp only
  split
  next hout =>
    refine Or.inl ⟨rfl, ?_⟩
    intro v hstep hcell
    have hin := cellOf_inBounds hstep.inside
    rw [hcell, Grid.inBounds_iff] at hin
    unfold dirCell at hin
    dsimp only at hin
    omega
  next hnot =>
    have hin : grid.inBounds (dirCell grid u dir).cx (dirCell grid u dir).cy = true := by
      rw [Grid.inBounds_iff]
      unfold dirCell
      dsimp only
      omega
    obtain ⟨hcell, hinside⟩ := cellOf_idx hin
    have hsame : ∀ v, grid.cellOf v = dirCell grid u dir →
        v = grid.idx (dirCell grid u dir).cx (dirCell grid u dir).cy := by
      intro v hv
      rw [← hv, idx_cellOf]
    have hnear' : Adjacent (grid.cellOf u) (dirCell grid u dir) := hnear
    have haxis' : stepAxis (grid.cellOf u) (dirCell grid u dir) =
        if dir.1 ≠ 0 then Axis.horiz else Axis.vert := haxis
    generalize htarget : grid.idx (dirCell grid u dir).cx (dirCell grid u dir).cy = target at *
    have hidx : grid.idx ((grid.cellOf u).cx + dir.1) ((grid.cellOf u).cy + dir.2) = target := htarget
    have haxisAt : axisAt grid u target = if dir.1 ≠ 0 then Axis.horiz else Axis.vert := by
      unfold axisAt
      rw [hcell]
      exact haxis'
    rw [hidx, ← haxisAt]
    split
    next hclosed =>
      refine Or.inl ⟨rfl, ?_⟩
      intro v _ hv
      rw [hsame v hv]
      exact Or.inl hclosed
    next hopen =>
      split
      next hblocked =>
        refine Or.inl ⟨rfl, ?_⟩
        intro v hstep hv
        have hfree := hstep.free
        rw [hv] at hfree
        exact absurd (hblocked.symm.trans hfree) (by decide)
      next hfree =>
        have hcost : stepCost (st.dirIn u) (axisAt grid u target) =
            1 + if st.dirIn u ≠ none ∧ st.dirIn u ≠ some (axisAt grid u target) then bendPenalty
              else 0 := rfl
        rw [hreached]
        dsimp only
        rw [← hcost]
        by_cases hany : (st.gScore target).any (fun old =>
            decide (g + stepCost (st.dirIn u) (axisAt grid u target) ≥ old)) = true
        · rw [if_pos hany]
          refine Or.inl ⟨rfl, ?_⟩
          intro v _ hv
          rw [hsame v hv]
          obtain ⟨old, hold, hle⟩ := (Option.any_eq_true _ _).mp hany
          refine Or.inr ⟨old, hold, ?_⟩
          intro gu hgu
          cases hreached.symm.trans hgu
          exact of_decide_eq_true hle
        · rw [if_neg hany]
          refine Or.inr ⟨target, hcell, ⟨⟨?_, hinside, ?_⟩, ?_, hreached, ?_⟩, ?_⟩
          · rw [hcell]
            exact hnear'
          · rw [hcell]
            exact Bool.eq_false_iff.mpr hfree
          · simpa using hopen
          · intro old hold
            rw [hold] at hany
            simpa using hany
          · unfold AStarState.improved hAt
            rw [hcell]
            rfl

end NovaVe
