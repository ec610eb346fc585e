import NovaVe.AStarWays

namespace NovaVe

variable {grid : Grid} {start goal : GridCell} {cells : List GridCell} {axis : Axis}
  {first second : Nat}

/-- How far two cells are apart along an axis. -/
def Axis.along (axis : Axis) (a b : GridCell) : Nat := (a.along axis - b.along axis).natAbs

def Axis.across (axis : Axis) : GridCell → GridCell → Nat := axis.other.along

/-- The axes of the steps of a path. -/
def stepAxes : List GridCell → List Axis
  | a :: b :: rest => stepAxis a b :: stepAxes (b :: rest)
  | _ => []

/-- A free path that runs along one axis first and then along the other, no longer than it must be, and
its first leg no shorter than its second. -/
structure LegPath (grid : Grid) (start goal : GridCell) (cells : List GridCell) (axis : Axis)
    (first second : Nat) : Prop where
  isPath : IsPath grid start goal cells
  steps : stepAxes cells = List.replicate first axis ++ List.replicate second axis.other
  direct : heuristic start goal = first + second
  longer : second ≤ first

theorem Axis.ne_iff {axis other : Axis} : other ≠ axis ↔ other = axis.other := by
  cases axis <;> cases other <;> decide

theorem heuristic_eq_sum (axis : Axis) (a b : GridCell) :
    heuristic a b = axis.along a b + axis.across a b := by
  cases axis with
  | horiz => rfl
  | vert => exact Nat.add_comm _ _

/-- A step changes the distance along its own axis by one, and the distance across it not at all. -/
theorem along_step (axis : Axis) {a b : GridCell} (hnear : Adjacent a b) (haxis : stepAxis a b = axis)
    (origin : GridCell) :
    (axis.along origin b = axis.along origin a + 1 ∨ axis.along origin a = axis.along origin b + 1) ∧
      axis.across origin b = axis.across origin a := by
  unfold Adjacent heuristic at hnear
  unfold stepAxis at haxis
  cases axis with
  | horiz =>
    unfold Axis.across Axis.other Axis.along GridCell.along
    dsimp only
    split at haxis
    next => omega
    next => cases haxis
  | vert =>
    unfold Axis.across Axis.other Axis.along GridCell.along
    dsimp only
    split at haxis
    next => cases haxis
    next => omega

theorem length_stepAxes (cells : List GridCell) : (stepAxes cells).length = cells.length - 1 := by
  induction cells with
  | nil => rfl
  | cons a rest ih =>
    cases rest with
    | nil => rfl
    | cons b rest =>
      simp only [stepAxes, List.length_cons] at ih ⊢
      omega

/-- The axes of a path begin with those of any beginning of it. -/
theorem stepAxes_split (before : List GridCell) (b : GridCell) (after : List GridCell) :
    stepAxes (before ++ b :: after) = stepAxes (before ++ [b]) ++ stepAxes (b :: after) := by
  induction before with
  | nil => rfl
  | cons x rest ih =>
    cases rest with
    | nil => rfl
    | cons y rest => simpa only [List.cons_append, stepAxes, List.cons.injEq, true_and] using ih

theorem heuristic_le_length {b goal : GridCell} {after : List GridCell}
    (hchain : (b :: after).IsChain Adjacent) (hends : (b :: after).getLast? = some goal) :
    heuristic b goal ≤ after.length := by
  induction after generalizing b with
  | nil =>
    have hsame : b = goal := by simpa using hends
    subst hsame
    unfold heuristic
    omega
  | cons c rest ih =>
    rw [List.isChain_cons_cons] at hchain
    obtain ⟨hnear, hrest⟩ := hchain
    have hle := ih hrest (by rwa [List.getLast?_cons_cons] at hends)
    unfold Adjacent heuristic at *
    rw [List.length_cons]
    omega

theorem LegPath.lengths (h : LegPath grid start goal cells axis first second)
    {before after : List GridCell} {b : GridCell} (hcells : cells = before ++ b :: after) :
    before.length + after.length = first + second := by
  have hsteps := congrArg List.length h.steps
  rw [length_stepAxes, hcells] at hsteps
  simp only [List.length_append, List.length_cons, List.length_replicate] at hsteps
  omega

/-- The axis of a step is that of the leg it is in. -/
theorem LegPath.axisOf (h : LegPath grid start goal cells axis first second)
    {before after : List GridCell} {a b : GridCell} (hcells : cells = before ++ a :: b :: after) :
    stepAxis a b = if before.length < first then axis else axis.other := by
  have hlengths := h.lengths hcells
  have hlength : (stepAxes (before ++ [a])).length = before.length := by
    rw [length_stepAxes, List.length_append, List.length_singleton]
    omega
  have hget : (stepAxes cells)[before.length]? = some (stepAxis a b) := by
    rw [hcells, stepAxes_split, List.getElem?_append_right (by omega), hlength, Nat.sub_self]
    rfl
  rw [h.steps] at hget
  split
  next hfirst =>
    rw [List.getElem?_append_left (by rw [List.length_replicate]; exact hfirst),
      List.getElem?_replicate, if_pos hfirst] at hget
    exact (Option.some.inj hget).symm
  next hsecond =>
    rw [List.length_cons] at hlengths
    rw [List.getElem?_append_right (by rw [List.length_replicate]; omega),
      List.length_replicate, List.getElem?_replicate, if_pos (by omega)] at hget
    exact (Option.some.inj hget).symm

/-- How a beginning of the path arrives, and at which cost. -/
theorem LegPath.arrives (h : LegPath grid start goal cells axis first second)
    (before : List GridCell) (b : GridCell) (after : List GridCell)
    (hcells : cells = before ++ b :: after) :
    (axis.along start b ≤ min before.length first ∧ axis.across start b ≤ before.length - first) ∧
      lastAxis (before ++ [b]) = (if before.length = 0 then none
        else some (if before.length ≤ first then axis else axis.other)) ∧
      pathCost (before ++ [b]) = before.length + if first < before.length then 1 else 0 := by
  induction before using List.reverseRecOn generalizing b after with
  | nil =>
    have hstarts := h.isPath.1.starts
    rw [hcells] at hstarts
    cases hstarts
    refine ⟨⟨?_, ?_⟩, rfl, ?_⟩
    · cases axis <;> simp [Axis.along]
    · cases axis <;> simp [Axis.across, Axis.along]
    · simp [pathCost_one]
  | append_singleton before a ih =>
    rw [List.append_assoc, List.singleton_append] at hcells
    obtain ⟨⟨halong, hacross⟩, hlast, hcost⟩ := ih a (b :: after) hcells
    have haxis := h.axisOf hcells
    have hlengths := h.lengths hcells
    have hlonger := h.longer
    rw [List.length_cons] at hlengths
    have hway := h.isPath.1.connected
    rw [hcells] at hway
    have hnear : Adjacent a b := (List.isChain_append_cons_cons.mp hway).2.1
    have hsplit : before ++ [a] ++ [b] = before ++ [a, b] := by simp
    rw [hsplit, lastAxis_snoc, pathCost_snoc, hlast, hcost, List.length_append, List.length_singleton]
    by_cases hfirst : before.length < first
    · rw [if_pos hfirst] at haxis
      obtain ⟨hstep, hsame⟩ := along_step axis hnear haxis start
      rw [haxis]
      refine ⟨⟨by omega, by omega⟩, ?_, ?_⟩
      · rw [if_neg (by omega), if_pos (by omega)]
      · have hnow : ¬ first < before.length := by omega
        have hnext : ¬ first < before.length + 1 := by omega
        rw [if_pos hfirst.le, if_neg hnow, if_neg hnext]
        by_cases hzero : before.length = 0
        · rw [if_pos hzero]
          rfl
        · rw [if_neg hzero]
          simp [stepCost]
    · rw [if_neg hfirst] at haxis
      obtain ⟨hstep, hsame⟩ := along_step axis.other hnear haxis start
      have hacross' : axis.other.across = axis.along := by cases axis <;> rfl
      rw [hacross'] at hsame
      have hstep' : axis.across start b ≤ axis.across start a + 1 := by
        unfold Axis.across
        omega
      rw [haxis]
      refine ⟨⟨by omega, by omega⟩, ?_, ?_⟩
      · rw [if_neg (by omega), if_neg (by omega)]
      · have hmoved : ¬ before.length = 0 := by omega
        have hnext : first < before.length + 1 := by omega
        have hne : axis ≠ axis.other := by cases axis <;> decide
        rw [if_neg hmoved, if_pos hnext]
        by_cases hcorner : before.length = first
        · have hnow : ¬ first < before.length := by omega
          rw [if_neg hnow, if_pos hcorner.le]
          simp [stepCost, bendPenalty, hne]
        · have hnow : first < before.length := by omega
          rw [if_pos hnow, if_neg (Nat.not_le.mpr hnow)]
          simp [stepCost]

theorem along_triangle (axis : Axis) (a b c : GridCell) :
    axis.along a c ≤ axis.along a b + axis.along b c := by
  unfold Axis.along
  omega

/-- Where a cell of the path lies: no step of the path is in vain. -/
theorem LegPath.position (h : LegPath grid start goal cells axis first second)
    {before after : List GridCell} {b : GridCell} (hcells : cells = before ++ b :: after) :
    axis.along start b = min before.length first ∧ axis.across start b = before.length - first ∧
      heuristic b goal = after.length := by
  obtain ⟨⟨halong, hacross⟩, _, _⟩ := h.arrives before b after hcells
  have hlengths := h.lengths hcells
  have hchain := h.isPath.1.connected
  have hends := h.isPath.1.ends
  rw [hcells] at hchain hends
  have hrest : heuristic b goal ≤ after.length := by
    refine heuristic_le_length (List.isChain_append.mp hchain).2.1 ?_
    rwa [List.getLast?_append_cons] at hends
  have hdirect := h.direct
  rw [heuristic_eq_sum axis] at hdirect hrest ⊢
  have hfirst := along_triangle axis start b goal
  have hsecond : axis.across start goal ≤ axis.across start b + axis.across b goal :=
    along_triangle axis.other start b goal
  omega

theorem heuristic_triangle (a b c : GridCell) : heuristic a c ≤ heuristic a b + heuristic b c := by
  unfold heuristic
  omega

/-- An index of the path in the grid. -/
theorem LegPath.cellAt (h : LegPath grid start goal cells axis first second)
    {before after : List GridCell} {b : GridCell} (hcells : cells = before ++ b :: after) :
    grid.cellOf (grid.idx b.cx b.cy) = b := by
  apply (cellOf_idx _).1
  have hstarts := h.isPath.1.starts
  have henters := h.isPath.1.enters
  have hmem : b ∈ cells := by
    rw [hcells]
    simp
  cases cells with
  | nil => cases hstarts
  | cons head rest =>
    rcases List.mem_cons.mp hmem with rfl | hmem
    · cases hstarts
      exact (Grid.isBlocked_false_iff.mp h.isPath.2).1
    · exact (Grid.isBlocked_false_iff.mp (henters b hmem)).1

theorem LegPath.below (h : LegPath grid start goal cells axis first second) {cell : GridCell}
    (hbetween : heuristic start cell + heuristic cell goal = heuristic start goal) :
    axis.along start cell ≤ first := by
  obtain ⟨init, hinit⟩ := List.getLast?_eq_some_iff.mp h.isPath.1.ends
  obtain ⟨halong, hacross, _⟩ := h.position hinit
  have hfirst := along_triangle axis start cell goal
  have hsecond : axis.across start goal ≤ axis.across start cell + axis.across cell goal :=
    along_triangle axis.other start cell goal
  have hlengths := h.lengths hinit
  rw [List.length_nil] at hlengths
  rw [heuristic_eq_sum axis, heuristic_eq_sum axis, heuristic_eq_sum axis start goal] at hbetween
  omega

/-- A way pays for the distance, and for a bend where it arrives along an axis and off the start across
it. -/
theorem IsWay.pays (h : IsWay grid start goal cells) (before : List GridCell) (b : GridCell)
    (after : List GridCell) (hcells : cells = before ++ b :: after) :
    heuristic start b ≤ pathCost (before ++ [b]) ∧ ∀ axis, lastAxis (before ++ [b]) = some axis →
      axis.across start b ≠ 0 → heuristic start b + 1 ≤ pathCost (before ++ [b]) := by
  induction before using List.reverseRecOn generalizing b after with
  | nil =>
    have hfirst := h.starts
    rw [hcells] at hfirst
    cases hfirst
    refine ⟨?_, ?_⟩
    · unfold heuristic
      omega
    · intro axis hlast
      cases hlast
  | append_singleton before a ih =>
    rw [List.append_assoc, List.singleton_append] at hcells
    obtain ⟨hle, hbent⟩ := ih a (b :: after) hcells
    have hway := h.connected
    rw [hcells] at hway
    have hnear : Adjacent a b := (List.isChain_append_cons_cons.mp hway).2.1
    have hlower := (stepCost_bounds (lastAxis (before ++ [a])) (stepAxis a b)).1
    have hdistance : heuristic start b ≤ heuristic start a + 1 := by
      unfold Adjacent heuristic at hnear
      unfold heuristic
      omega
    have hsplit : before ++ [a] ++ [b] = before ++ [a, b] := by simp
    rw [hsplit, pathCost_snoc, lastAxis_snoc]
    refine ⟨by omega, ?_⟩
    intro axis haxis hoff
    have haxis' : stepAxis a b = axis := Option.some.inj haxis
    obtain ⟨_, hsame⟩ := along_step axis hnear haxis' start
    rw [hsame] at hoff
    rw [haxis']
    cases hlast : lastAxis (before ++ [a]) with
    | none =>
      cases before using List.reverseRecOn with
      | nil =>
        have hfirst := h.starts
        rw [hcells] at hfirst
        cases hfirst
        exact absurd (by cases axis <;> simp [Axis.across, Axis.along]) hoff
      | append_singleton before x =>
        rw [List.append_assoc, List.singleton_append, lastAxis_snoc] at hlast
        cases hlast
    | some incoming =>
      by_cases hincoming : incoming = axis
      · subst hincoming
        have hmore := hbent incoming hlast hoff
        have hcost : stepCost (some incoming) incoming = 1 := by simp [stepCost]
        omega
      · have hcost : stepCost (some incoming) axis = 2 := by
          simp [stepCost, bendPenalty, hincoming]
        omega

/-- The path of two legs is a cheapest one. -/
theorem LegPath.cheapest (h : LegPath grid start goal cells axis first second)
    {other : List GridCell} (hother : IsPath grid start goal other) :
    pathCost cells ≤ pathCost other := by
  obtain ⟨init, hinit⟩ := List.getLast?_eq_some_iff.mp h.isPath.1.ends
  obtain ⟨_, _, hcost⟩ := h.arrives init goal [] hinit
  obtain ⟨halong, hacross, _⟩ := h.position hinit
  have hlengths := h.lengths hinit
  have hlonger := h.longer
  have hdirect := h.direct
  obtain ⟨before, hbefore⟩ := List.getLast?_eq_some_iff.mp hother.1.ends
  obtain ⟨hle, hbent⟩ := hother.1.pays before goal [] hbefore
  rw [List.length_nil] at hlengths
  rw [← hinit] at hcost
  rw [← hbefore] at hle hbent
  by_cases hleg : first < init.length
  · rw [if_pos hleg] at hcost
    cases hlast : lastAxis other with
    | none =>
      cases before using List.reverseRecOn with
      | nil =>
        have hfirst := hother.1.starts
        rw [hbefore] at hfirst
        cases hfirst
        unfold heuristic at hdirect
        omega
      | append_singleton before x =>
        rw [hbefore, List.append_assoc, List.singleton_append, lastAxis_snoc] at hlast
        cases hlast
    | some last =>
      have hoff : last.across start goal ≠ 0 := by
        by_cases hsame : last = axis
        · rw [hsame]
          omega
        · rw [Axis.ne_iff.mp hsame]
          have hcross : axis.other.across start goal = axis.along start goal := by
            cases axis <;> rfl
          omega
      have hmore := hbent last hlast hoff
      omega
  · rw [if_neg hleg] at hcost
    omega

end NovaVe
