import Mathlib.Data.Finset.Card
import Mathlib.Data.List.Chain
import NovaVe.AStarSearching

namespace NovaVe

variable {grid : Grid} {start goal : GridCell} {st : AStarState}

/-- The number of indices that are not closed. -/
def unclosed (grid : Grid) (closed : Nat → Bool) : Nat :=
  (List.range grid.total).countP (fun v => !closed v)

/-- What every turn of the loop lowers. -/
def AStarState.potential (st : AStarState) (grid : Grid) : Nat :=
  st.openItems.size + 4 * unclosed grid st.closed

theorem countP_range_same {n i : Nat} {closed : Nat → Bool} (h : n ≤ i) :
    (List.range n).countP (fun v => !setAt closed i true v) =
      (List.range n).countP (fun v => !closed v) := by
  apply List.countP_congr
  intro v hv
  have hlt := List.mem_range.mp hv
  rw [setAt_other _ _ (by omega)]

/-- Closing an index that was not closed leaves one less. -/
theorem countP_range_close {n i : Nat} {closed : Nat → Bool} (hi : i < n) (hopen : closed i = false) :
    (List.range n).countP (fun v => !setAt closed i true v) + 1 =
      (List.range n).countP (fun v => !closed v) := by
  induction n with
  | zero => omega
  | succ n ih =>
    rw [List.range_succ, List.countP_append, List.countP_append, List.countP_singleton,
      List.countP_singleton]
    by_cases hlast : i = n
    · subst hlast
      rw [countP_range_same le_rfl, setAt_same, hopen]
      simp
    · rw [setAt_other _ _ (Ne.symm hlast), ← ih (by omega)]
      omega

theorem heapPush_size (items : Array OpenItem) (item : OpenItem) :
    (heapPush OpenItem.less items item).size = items.size + 1 := by
  have hlength := (heapPush_perm OpenItem.less items item).length_eq
  simpa using hlength

theorem relaxDir_size (grid : Grid) (goal : GridCell) (u : Nat) (incoming : Option Axis)
    (st : AStarState) (dir : Int × Int) :
    (relaxDir grid goal u incoming st dir).openItems.size ≤ st.openItems.size + 1 := by
  unfold relaxDir
  dsimp only
  split
  next => omega
  next =>
    split
    next => omega
    next =>
      split
      next => omega
      next =>
        cases st.gScore u with
        | none => exact Nat.le_succ _
        | some g =>
          dsimp only
          by_cases hany : (st.gScore (grid.idx ((grid.cellOf u).cx + dir.1)
              ((grid.cellOf u).cy + dir.2))).any (fun old => decide (g + (1 +
                if incoming ≠ none ∧ incoming ≠ some (if dir.1 ≠ 0 then Axis.horiz else Axis.vert) then
                  bendPenalty else 0) ≥ old)) = true
          · rw [if_pos hany]
            omega
          · rw [if_neg hany]
            exact (heapPush_size _ _).le

theorem expandCell_size (grid : Grid) (goal : GridCell) (u : Nat) (st : AStarState) :
    (expandCell grid goal u st).openItems.size ≤ st.openItems.size + 4 := by
  have hrun : ∀ (todo : List (Int × Int)) (s : AStarState),
      (todo.foldl (relaxDir grid goal u (st.dirIn u)) s).openItems.size ≤
        s.openItems.size + todo.length := by
    intro todo
    induction todo with
    | nil =>
      intro s
      exact le_rfl
    | cons dir rest ih =>
      intro s
      have hone := relaxDir_size grid goal u (st.dirIn u) s dir
      have hmore := ih (relaxDir grid goal u (st.dirIn u) s dir)
      rw [List.foldl_cons, List.length_cons]
      omega
  exact hrun dirs st

/-- With more fuel than the potential the loop returns. -/
theorem aStarLoop_returns {aborted : Nat → Bool} {fuel expansions : Nat}
    (hstart : grid.inBounds start.cx start.cy = true) (hst : HeadState grid start goal st)
    (hfuel : st.potential grid < fuel) :
    ∃ result, aStarLoop grid start goal aborted fuel expansions st = some result := by
  induction fuel generalizing expansions st with
  | zero => omega
  | succ fuel ih =>
    have hsearching := (hst.atHead hstart).searching
    rw [aStarLoop.eq_def]
    dsimp only
    cases hpop : heapPop OpenItem.less st.openItems with
    | none => exact ⟨_, rfl⟩
    | some popped =>
      obtain ⟨top, rest⟩ := popped
      obtain ⟨hperm, _, _⟩ := heapPop_spec OpenItem.less_iff hsearching.heap hpop
      have hsize : st.openItems.size = rest.size + 1 := by
        have hlength := hperm.length_eq
        simpa using hlength
      dsimp only
      split
      next => exact ⟨_, rfl⟩
      next =>
        split
        next hclosed =>
          apply ih (hst.skip hpop hclosed)
          unfold AStarState.potential at hfuel ⊢
          dsimp only
          omega
        next hopen =>
          have hopen' : st.closed top.idx = false := by simpa using hopen
          split
          next => exact ⟨_, rfl⟩
          next hnot =>
            apply ih (hst.expand hpop hopen' hnot)
            have hexpanded := expandCell_size grid goal top.idx (st.close top.idx rest)
            have hitem : top ∈ st.openItems := by
              rw [← Array.mem_toList_iff, hperm.mem_iff]
              exact List.mem_cons_self
            obtain ⟨g, hg, _⟩ := hsearching.items top hitem
            have hcount := countP_range_close (hsearching.origin top.idx g hg).1 hopen'
            have hclosed : (st.close top.idx rest).closed top.idx = true :=
              (close_closed st top.idx rest top.idx).mpr (Or.inr rfl)
            have hsame := (@expandCell_rule grid goal top.idx g (st.close top.idx rest) (fun _ => True)
              hclosed hg trivial (fun _ _ _ _ _ => trivial)).2.1
            unfold AStarState.potential at hfuel ⊢
            rw [hsame]
            unfold unclosed AStarState.close at *
            dsimp only at *
            omega

theorem runAStar_returns (hstart : grid.inBounds start.cx start.cy = true) (aborted : Nat → Bool) :
    ∃ result, runAStar grid start goal aborted = some result := by
  apply aStarLoop_returns hstart HeadState.initial
  have hcount : unclosed grid (fun _ => false) ≤ grid.total := by
    have hle := List.countP_le_length (p := fun _ : Nat => !false) (l := List.range grid.total)
    rw [List.length_range] at hle
    exact hle
  have hsize : (AStarState.initial grid start goal).openItems.size = 1 := heapPush_size _ _
  unfold AStarState.potential
  rw [hsize]
  show 1 + 4 * unclosed grid (fun _ => false) < 4 * grid.total + 2
  omega

/-- Without an item on the heap every way from the start leads to closed indices only. -/
theorem AtHead.no_way (h : AtHead grid start goal st) (hempty : st.openItems = #[]) :
    ∀ v, st.closed v = true → ∀ w, IsStep grid v w → st.closed w = true := by
  intro v hv w hstep
  by_contra hopen
  rcases h.relaxed v w hv hstep with hw | ⟨g, hg, _⟩
  · exact hopen hw
  · obtain ⟨item, hitem, _⟩ := h.searching.listed w g hg (Bool.eq_false_iff.mpr hopen)
    rw [hempty] at hitem
    exact absurd hitem (Array.not_mem_empty _)

/-- The axis along which a way arrives at its last cell. -/
def lastAxis : List GridCell → Option Axis
  | [] => none
  | [_] => none
  | [a, b] => some (stepAxis a b)
  | _ :: b :: c :: rest => lastAxis (b :: c :: rest)

theorem lastAxis_snoc (before : List GridCell) (a b : GridCell) :
    lastAxis (before ++ [a, b]) = some (stepAxis a b) := by
  induction before with
  | nil => rfl
  | cons x rest ih =>
    cases rest with
    | nil => rfl
    | cons y rest =>
      cases rest with
      | nil => rfl
      | cons z rest => exact ih

theorem turns_snoc (before : List GridCell) (a b : GridCell) :
    turns (before ++ [a, b]) = turns (before ++ [a]) +
      if lastAxis (before ++ [a]) ≠ none ∧ lastAxis (before ++ [a]) ≠ some (stepAxis a b) then 1
      else 0 := by
  induction before with
  | nil => rfl
  | cons x rest ih =>
    cases rest with
    | nil => simp [turns, lastAxis]
    | cons y rest =>
      cases rest with
      | nil =>
        simp only [List.cons_append, List.nil_append, turns, lastAxis] at ih ⊢
        omega
      | cons z rest =>
        simp only [List.cons_append, turns, lastAxis] at ih ⊢
        omega

/-- A way costs what it cost before its last step and the cost of that step. -/
theorem pathCost_snoc (before : List GridCell) (a b : GridCell) :
    pathCost (before ++ [a, b]) =
      pathCost (before ++ [a]) + stepCost (lastAxis (before ++ [a])) (stepAxis a b) := by
  unfold pathCost stepCost bendPenalty
  rw [turns_snoc]
  simp only [List.length_append, List.length_cons, List.length_nil]
  omega

theorem pathCost_one (a : GridCell) : pathCost [a] = 0 := rfl

/-- A way is longer by a step to an unblocked neighbour. -/
theorem IsWay.snoc {start a b : GridCell} {before : List GridCell}
    (h : IsWay grid start a (before ++ [a])) (hnear : Adjacent a b)
    (hfree : grid.isBlocked b.cx b.cy = false) : IsWay grid start b (before ++ [a, b]) := by
  have hsplit : before ++ [a, b] = (before ++ [a]) ++ [b] := by simp
  constructor
  · rw [hsplit, List.head?_append, h.starts]
    rfl
  · rw [hsplit, List.getLast?_append]
    rfl
  · rw [hsplit, List.isChain_append]
    refine ⟨h.connected, List.IsChain.singleton b, ?_⟩
    intro x hx y hy
    simp only [List.getLast?_append, List.getLast?_singleton, Option.mem_some_iff,
      List.head?_cons, Option.some_or] at hx hy
    subst hx
    subst hy
    exact hnear
  · intro cell hcell
    rw [hsplit, List.tail_append_of_ne_nil (by simp)] at hcell
    rcases List.mem_append.mp hcell with hcell | hcell
    · exact h.enters cell hcell
    · rw [List.mem_singleton.mp hcell]
      exact hfree

/-- The steps of a way. -/
theorem IsWay.step {start goal a b : GridCell} {before after : List GridCell}
    (h : IsWay grid start goal (before ++ a :: b :: after))
    (hstart : grid.inBounds start.cx start.cy = true) :
    IsStep grid (grid.idx a.cx a.cy) (grid.idx b.cx b.cy) ∧
      axisAt grid (grid.idx a.cx a.cy) (grid.idx b.cx b.cy) = stepAxis a b ∧
      grid.cellOf (grid.idx a.cx a.cy) = a ∧ grid.cellOf (grid.idx b.cx b.cy) = b := by
  have hnear : Adjacent a b := by
    have hchain := List.isChain_append_cons_cons.mp h.connected
    exact hchain.2.1
  have hinside : ∀ cell ∈ before ++ a :: b :: after, grid.inBounds cell.cx cell.cy = true := by
    intro cell hcell
    have hstarts := h.starts
    have henters := h.enters
    generalize before ++ a :: b :: after = cells at *
    cases cells with
    | nil => cases hstarts
    | cons first rest =>
      rcases List.mem_cons.mp hcell with rfl | hcell
      · cases hstarts
        exact hstart
      · exact (Grid.isBlocked_false_iff.mp (henters cell hcell)).1
  have hb : b ∈ (before ++ a :: b :: after).tail := by
    cases before with
    | nil => simp
    | cons x rest => simp
  obtain ⟨hcellA, _⟩ := cellOf_idx (hinside a (by simp))
  obtain ⟨hcellB, hsize⟩ := cellOf_idx (hinside b (by simp))
  refine ⟨⟨?_, hsize, ?_⟩, ?_, hcellA, hcellB⟩
  · rw [hcellA, hcellB]
    exact hnear
  · rw [hcellB]
    exact h.enters b hb
  · unfold axisAt
    rw [hcellA, hcellB]

open Classical in
/-- The number of indices with a lower score. -/
noncomputable def rank (grid : Grid) (st : AStarState) (g : Nat) : Nat :=
  ((Finset.range grid.total).filter (fun w => ∃ g', st.gScore w = some g' ∧ g' < g)).card

theorem rank_lt {u gu g : Nat} (hgu : st.gScore u = some gu) (hinside : u < grid.total)
    (hlower : gu < g) : rank grid st gu < rank grid st g := by
  apply Finset.card_lt_card
  rw [Finset.ssubset_iff_of_subset]
  · refine ⟨u, Finset.mem_filter.mpr ⟨Finset.mem_range.mpr hinside, gu, hgu, hlower⟩, ?_⟩
    intro hmem
    obtain ⟨_, g', hg', hlt⟩ := Finset.mem_filter.mp hmem
    cases hgu.symm.trans hg'
    omega
  · intro w hw
    obtain ⟨hrange, g', hg', hlt⟩ := Finset.mem_filter.mp hw
    exact Finset.mem_filter.mpr ⟨hrange, g', hg', by omega⟩

theorem rank_lt_total {v g : Nat} (hg : st.gScore v = some g) (hinside : v < grid.total) :
    rank grid st g < grid.total := by
  have hless := @rank_lt grid st v g (g + 1) hg hinside (by omega)
  have hall : rank grid st (g + 1) ≤ grid.total := by
    unfold rank
    refine (Finset.card_filter_le _ _).trans ?_
    rw [Finset.card_range]
  omega

/-- The path traced back from an index leads from the start to it, at the cost of its score. -/
theorem Searching.traced (h : Searching grid (grid.idx start.cx start.cy) goal st)
    (hstart : grid.inBounds start.cx start.cy = true) {fuel v g : Nat} (hg : st.gScore v = some g)
    (hfuel : rank grid st g < fuel) :
    ∃ before, (traceBack grid st.cameFrom fuel (some v)).reverse = before ++ [grid.cellOf v] ∧
      IsWay grid start (grid.cellOf v) (before ++ [grid.cellOf v]) ∧
      pathCost (before ++ [grid.cellOf v]) = g ∧ lastAxis (before ++ [grid.cellOf v]) = st.dirIn v := by
  induction fuel generalizing v g with
  | zero => omega
  | succ fuel ih =>
    obtain ⟨hinside, horigin⟩ := h.origin v g hg
    unfold traceBack
    rw [List.reverse_cons]
    rcases horigin with ⟨rfl, rfl, hcame, hdir⟩ | ⟨u, gu, hcame, _, hstep, hgu, hdir, hsum⟩
    · rw [hcame, hdir, (cellOf_idx hstart).1]
      refine ⟨[], ?_, ⟨rfl, rfl, List.IsChain.singleton start, ?_⟩, rfl, rfl⟩
      · cases fuel with
        | zero => rfl
        | succ fuel => rfl
      · intro cell hcell
        exact absurd hcell List.not_mem_nil
    · have hlower : gu < g := by
        rw [hsum]
        unfold stepCost
        omega
      have hrank := rank_lt hgu (h.origin u gu hgu).1 hlower
      obtain ⟨before, htrace, hway, hcost, hlast⟩ := ih hgu (by omega)
      rw [hcame, htrace]
      have hsplit : before ++ [grid.cellOf u] ++ [grid.cellOf v] =
          before ++ [grid.cellOf u, grid.cellOf v] := by simp
      refine ⟨before ++ [grid.cellOf u], rfl, ?_, ?_, ?_⟩
      · rw [hsplit]
        exact hway.snoc hstep.near hstep.free
      · rw [hsplit, pathCost_snoc, hcost, hlast, hsum]
        rfl
      · rw [hsplit, lastAxis_snoc, hdir]
        rfl

/-- Every index with a score is reached by a way at that cost. -/
theorem Searching.way (h : Searching grid (grid.idx start.cx start.cy) goal st)
    (hstart : grid.inBounds start.cx start.cy = true) {v g : Nat} (hg : st.gScore v = some g) :
    ∃ before, IsWay grid start (grid.cellOf v) (before ++ [grid.cellOf v]) ∧
      pathCost (before ++ [grid.cellOf v]) = g ∧ lastAxis (before ++ [grid.cellOf v]) = st.dirIn v := by
  obtain ⟨before, _, hway, hcost, hlast⟩ :=
    h.traced hstart hg (rank_lt_total hg (h.origin v g hg).1)
  exact ⟨before, hway, hcost, hlast⟩

/-- What `reconstruct` returns is a way to its index, at the cost of the score. -/
theorem Searching.reconstructed (h : Searching grid (grid.idx start.cx start.cy) goal st)
    (hstart : grid.inBounds start.cx start.cy = true) {v g : Nat} (hg : st.gScore v = some g) :
    IsWay grid start (grid.cellOf v) (reconstruct grid st.cameFrom v) ∧
      pathCost (reconstruct grid st.cameFrom v) = g := by
  obtain ⟨before, htrace, hway, hcost, _⟩ :=
    h.traced hstart hg (rank_lt_total hg (h.origin v g hg).1)
  have hfound : reconstruct grid st.cameFrom v = before ++ [grid.cellOf v] := htrace
  rw [hfound]
  exact ⟨hway, hcost⟩

/-- The state in which the search takes the goal off the heap, and the path it returns then. -/
theorem runAStar_found_head {aborted : Nat → Bool} {cells : List GridCell}
    (hstart : grid.inBounds start.cx start.cy = true) (hgoal : grid.inBounds goal.cx goal.cy = true)
    (h : runAStar grid start goal aborted = some (.found cells)) :
    ∃ s top rest g, HeadState grid start goal s ∧
      heapPop OpenItem.less s.openItems = some (top, rest) ∧ top.idx = grid.idx goal.cx goal.cy ∧
        s.gScore top.idx = some g ∧ IsWay grid start goal cells ∧ pathCost cells = g := by
  rcases aStarLoop_cases HeadState.initial h with
    ⟨hcase, _⟩ | ⟨_, _, _, hcase⟩ | ⟨s, top, rest, hs, hpop, _, hidx, hcase⟩
  · cases hcase
  · cases hcase
  · have hsearching := (hs.atHead hstart).searching
    have hclosed : (s.close top.idx rest).closed top.idx = true :=
      (close_closed s top.idx rest top.idx).mpr (Or.inr rfl)
    obtain ⟨g, hg⟩ := (hsearching.close hpop).scored top.idx hclosed
    obtain ⟨hway, hcost⟩ := hsearching.reconstructed hstart hg
    cases hcase
    rw [hidx, (cellOf_idx hgoal).1] at hway
    refine ⟨s, top, rest, g, hs, hpop, hidx, hg, ?_, hcost⟩
    rw [hidx]
    exact hway

/-- The scores fall along a path traced back from an index, so it visits no cell twice. -/
theorem Searching.traced_nodup (h : Searching grid (grid.idx start.cx start.cy) goal st)
    {fuel v g : Nat} (hg : st.gScore v = some g) :
    (∀ cell ∈ traceBack grid st.cameFrom fuel (some v),
      ∃ g', st.gScore (grid.idx cell.cx cell.cy) = some g' ∧ g' ≤ g) ∧
      (traceBack grid st.cameFrom fuel (some v)).Nodup := by
  induction fuel generalizing v g with
  | zero => exact ⟨fun _ hcell => absurd hcell List.not_mem_nil, List.nodup_nil⟩
  | succ fuel ih =>
    obtain ⟨_, horigin⟩ := h.origin v g hg
    unfold traceBack
    have hhead : ∃ g', st.gScore (grid.idx (grid.cellOf v).cx (grid.cellOf v).cy) = some g' ∧
        g' ≤ g := ⟨g, by rw [idx_cellOf, hg], le_refl g⟩
    rcases horigin with ⟨_, _, hcame, _⟩ | ⟨u, gu, hcame, _, _, hgu, _, hsum⟩
    · have hempty : traceBack grid st.cameFrom fuel (st.cameFrom v) = [] := by
        rw [hcame]
        cases fuel with
        | zero => rfl
        | succ fuel => rfl
      rw [hempty]
      refine ⟨?_, List.nodup_singleton _⟩
      intro cell hcell
      rw [List.mem_singleton.mp hcell]
      exact hhead
    · have hlower : gu < g := by
        rw [hsum]
        unfold stepCost
        omega
      obtain ⟨hscores, hnodup⟩ := ih hgu
      rw [hcame]
      constructor
      · intro cell hcell
        rcases List.mem_cons.mp hcell with rfl | hcell
        · exact hhead
        · obtain ⟨g', hg', hle⟩ := hscores cell hcell
          exact ⟨g', hg', by omega⟩
      · refine List.nodup_cons.mpr ⟨?_, hnodup⟩
        intro hmem
        obtain ⟨g', hg', hle⟩ := hscores _ hmem
        rw [idx_cellOf, hg] at hg'
        cases hg'
        omega

/-- No path of the search visits a cell twice. -/
theorem runAStar_found_nodup {aborted : Nat → Bool} {cells : List GridCell}
    (hstart : grid.inBounds start.cx start.cy = true)
    (h : runAStar grid start goal aborted = some (.found cells)) : cells.Nodup := by
  rcases aStarLoop_cases HeadState.initial h with
    ⟨hcase, _⟩ | ⟨_, _, _, hcase⟩ | ⟨s, top, rest, hs, hpop, _, _, hcase⟩
  · cases hcase
  · cases hcase
  · have hsearching := (hs.atHead hstart).searching
    have hclosed : (s.close top.idx rest).closed top.idx = true :=
      (close_closed s top.idx rest top.idx).mpr (Or.inr rfl)
    obtain ⟨g, hg⟩ := (hsearching.close hpop).scored top.idx hclosed
    cases hcase
    exact List.nodup_reverse.mpr (hsearching.traced_nodup hg).2

/-- The search finds ways only. -/
theorem runAStar_found {aborted : Nat → Bool} {cells : List GridCell}
    (hstart : grid.inBounds start.cx start.cy = true) (hgoal : grid.inBounds goal.cx goal.cy = true)
    (h : runAStar grid start goal aborted = some (.found cells)) : IsWay grid start goal cells := by
  obtain ⟨_, _, _, _, _, _, _, _, hway, _⟩ := runAStar_found_head hstart hgoal h
  exact hway

/-- The fallback is used only where no way leads to the goal. -/
theorem runAStar_fallback {aborted : Nat → Bool} {cells : List GridCell}
    (hstart : grid.inBounds start.cx start.cy = true)
    (h : runAStar grid start goal aborted = some (.fallback cells)) (other : List GridCell) :
    ¬ IsWay grid start goal other := by
  rcases aStarLoop_cases HeadState.initial h with
    ⟨hcase, _⟩ | ⟨s, hs, hempty, _⟩ | ⟨_, _, _, _, _, _, _, hcase⟩
  · cases hcase
  · have hhead := hs.atHead hstart
    intro hway
    have hroot : s.closed (grid.idx start.cx start.cy) = true := by
      by_contra hopen
      obtain ⟨item, hitem, _⟩ := hhead.searching.listed _ 0 hhead.searching.root
        (Bool.eq_false_iff.mpr hopen)
      rw [hempty] at hitem
      exact absurd hitem (Array.not_mem_empty _)
    have hall : ∀ before cell after, other = before ++ cell :: after →
        s.closed (grid.idx cell.cx cell.cy) = true := by
      intro before
      induction before using List.reverseRecOn with
      | nil =>
        intro cell after hother
        have hfirst := hway.starts
        rw [hother] at hfirst
        cases hfirst
        exact hroot
      | append_singleton before last ih =>
        intro cell after hother
        rw [List.append_assoc, List.singleton_append] at hother
        have hlast := ih last (cell :: after) hother
        rw [hother] at hway
        exact hhead.no_way hempty _ hlast _ (hway.step hstart).1
    obtain ⟨before, hother⟩ := List.getLast?_eq_some_iff.mp hway.ends
    have hgoal := hall before goal [] hother
    rw [hhead.goalOpen] at hgoal
    cases hgoal
  · cases hcase

end NovaVe
