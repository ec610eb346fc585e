import NovaVe.AStarWays

namespace NovaVe

variable {grid : Grid} {cells : List GridCell} {st : AStarState}

/-- What the scores say of a path: a closed cell costs no more than along the path, and an inner cell
that costs the same was reached along the same axis. -/
structure OnPath (grid : Grid) (cells : List GridCell) (st : AStarState) : Prop where
  closedLe : ∀ before b after, cells = before ++ b :: after →
    st.closed (grid.idx b.cx b.cy) = true →
      ∃ g, st.gScore (grid.idx b.cx b.cy) = some g ∧ g ≤ pathCost (before ++ [b])
  tieAxis : ∀ before b c after, cells = before ++ b :: c :: after →
    st.gScore (grid.idx b.cx b.cy) = some (pathCost (before ++ [b])) →
      st.dirIn (grid.idx b.cx b.cy) = lastAxis (before ++ [b])

/-- From a closed cell of the path the next one costs no more than along the path. -/
theorem OnPath.next_le {start goal : GridCell} (h : OnPath grid cells st)
    (hway : IsWay grid start goal cells) (hstart : grid.inBounds start.cx start.cy = true)
    {before after : List GridCell} {a b : GridCell} (hcells : cells = before ++ a :: b :: after)
    (hclosed : st.closed (grid.idx a.cx a.cy) = true)
    (hopen : st.closed (grid.idx b.cx b.cy) = false)
    (hrelaxed : Relaxed grid st (grid.idx a.cx a.cy) (grid.idx b.cx b.cy)) :
    ∃ g, st.gScore (grid.idx b.cx b.cy) = some g ∧ g ≤ pathCost (before ++ [a, b]) := by
  obtain ⟨ga, hga, hle⟩ := h.closedLe before a (b :: after) hcells hclosed
  rcases hrelaxed with hb | ⟨gb, hgb, hcost⟩
  · rw [hopen] at hb
    cases hb
  · refine ⟨gb, hgb, ?_⟩
    have hstep := hcost ga hga
    rw [hcells] at hway
    rw [(hway.step hstart).2.1] at hstep
    rw [pathCost_snoc]
    rcases Nat.lt_or_eq_of_le hle with hlt | heq
    · have hupper := (stepCost_bounds (st.dirIn (grid.idx a.cx a.cy)) (stepAxis a b)).2
      have hlower := (stepCost_bounds (lastAxis (before ++ [a])) (stepAxis a b)).1
      omega
    · rw [heq] at hga
      rw [h.tieAxis before a b after hcells hga] at hstep
      omega

/-- Before a cell of the path is closed the heap holds an item that comes no later than the cell, as the
path reaches it. -/
theorem OnPath.frontier {start goal finish : GridCell} (h : OnPath grid cells st)
    (hhead : AtHead grid start goal st) (hway : IsWay grid start finish cells)
    (hstart : grid.inBounds start.cx start.cy = true) (before : List GridCell) (b : GridCell)
    (after : List GridCell) (hcells : cells = before ++ b :: after)
    (hopen : st.closed (grid.idx b.cx b.cy) = false) :
    ∃ item ∈ st.openItems, item.f ≤ pathCost (before ++ [b]) + hAt grid goal (grid.idx b.cx b.cy) := by
  induction before using List.reverseRecOn generalizing b after with
  | nil =>
    have hfirst := hway.starts
    rw [hcells] at hfirst
    cases hfirst
    obtain ⟨item, hitem, _, hf⟩ := hhead.searching.listed _ 0 hhead.searching.root hopen
    exact ⟨item, hitem, by rw [hf, List.nil_append, pathCost_one]⟩
  | append_singleton before a ih =>
    rw [List.append_assoc, List.singleton_append] at hcells
    have hway' := hway
    rw [hcells] at hway'
    obtain ⟨hstep, _, _, _⟩ := hway'.step hstart
    have hsplit : before ++ [a] ++ [b] = before ++ [a, b] := by simp
    rw [hsplit]
    by_cases hclosed : st.closed (grid.idx a.cx a.cy) = true
    · obtain ⟨g, hg, hle⟩ := h.next_le hway hstart hcells hclosed hopen (hhead.relaxed _ _ hclosed hstep)
      obtain ⟨item, hitem, _, hf⟩ := hhead.searching.listed _ g hg hopen
      exact ⟨item, hitem, by omega⟩
    · obtain ⟨item, hitem, hf⟩ := ih a (b :: after) hcells (Bool.eq_false_iff.mpr hclosed)
      have hnear := (hstep.facts goal).2
      have hlower := (stepCost_bounds (lastAxis (before ++ [a])) (stepAxis a b)).1
      refine ⟨item, hitem, ?_⟩
      rw [pathCost_snoc]
      omega

/-- The item taken off the heap comes no later than an open cell of the path. -/
theorem OnPath.top_le {start goal finish : GridCell} {top : OpenItem} {rest : Array OpenItem}
    (h : OnPath grid cells st) (hhead : AtHead grid start goal st)
    (hway : IsWay grid start finish cells) (hstart : grid.inBounds start.cx start.cy = true)
    (hpop : heapPop OpenItem.less st.openItems = some (top, rest)) {before after : List GridCell}
    {b : GridCell} (hcells : cells = before ++ b :: after)
    (hopen : st.closed (grid.idx b.cx b.cy) = false) :
    ∃ g, st.gScore top.idx = some g ∧
      g + hAt grid goal top.idx ≤ pathCost (before ++ [b]) + hAt grid goal (grid.idx b.cx b.cy) := by
  obtain ⟨hperm, _, hleast⟩ := heapPop_spec OpenItem.less_iff hhead.searching.heap hpop
  have htop : top ∈ st.openItems := by
    rw [← Array.mem_toList_iff, hperm.mem_iff]
    exact List.mem_cons_self
  obtain ⟨g, hg, hle⟩ := hhead.searching.items top htop
  obtain ⟨item, hitem, hf⟩ := h.frontier hhead hway hstart before b after hcells hopen
  have hfirst := OpenItem.f_le (hleast item hitem)
  exact ⟨g, hg, by omega⟩

/-- The states while `u` is expanded: every other closed index is relaxed, and no open cell of the path
comes before `u`. -/
structure Expands (grid : Grid) (start goal : GridCell) (cells : List GridCell) (u g : Nat)
    (st : AStarState) : Prop where
  searching : Searching grid (grid.idx start.cx start.cy) goal st
  onPath : OnPath grid cells st
  closed : st.closed u = true
  relaxed : ∀ w x, st.closed w = true → w ≠ u → IsStep grid w x → Relaxed grid st w x
  first : ∀ before a after, cells = before ++ a :: after → st.closed (grid.idx a.cx a.cy) = false →
    g + hAt grid goal u ≤ pathCost (before ++ [a]) + hAt grid goal (grid.idx a.cx a.cy)

/-- An improvement of an inner cell along another axis than the path's does not come at the path's cost
while the cell before it is open. -/
def Untied (grid : Grid) (cells : List GridCell) (st : AStarState) (u v g : Nat) : Prop :=
  ∀ before a b c after, cells = before ++ a :: b :: c :: after → grid.cellOf v = b →
    st.closed (grid.idx a.cx a.cy) = false → axisAt grid u v ≠ stepAxis a b →
      g + stepCost (st.dirIn u) (axisAt grid u v) ≠ pathCost (before ++ [a, b])

/-- An untied improvement keeps what the scores say of a path. -/
theorem Expands.improve {start goal finish : GridCell} {u v g : Nat}
    (h : Expands grid start goal cells u g st) (hway : IsWay grid start finish cells)
    (hstart : grid.inBounds start.cx start.cy = true) (hi : Improves grid st u v g)
    (huntied : Untied grid cells st u v g) :
    OnPath grid cells (st.improved grid goal u v g) := by
  constructor
  · intro before b after hcells hclosed
    have hclosed' : st.closed (grid.idx b.cx b.cy) = true := hclosed
    have hne : grid.idx b.cx b.cy ≠ v := by
      intro heq
      rw [heq, hi.notClosed] at hclosed'
      cases hclosed'
    obtain ⟨gb, hgb, hle⟩ := h.onPath.closedLe before b after hcells hclosed'
    exact ⟨gb, (setAt_other _ _ hne).trans hgb, hle⟩
  · intro before b c after hcells hgb
    by_cases hv : grid.idx b.cx b.cy = v
    · have hcost : g + stepCost (st.dirIn u) (axisAt grid u v) = pathCost (before ++ [b]) := by
        rw [hv] at hgb
        exact Option.some.inj ((setAt_same _ _ _).symm.trans hgb)
      have hdir : (st.improved grid goal u v g).dirIn (grid.idx b.cx b.cy) =
          some (axisAt grid u v) := by
        rw [hv]
        exact setAt_same _ _ _
      rw [hdir]
      induction before using List.reverseRecOn with
      | nil =>
        rw [List.nil_append, pathCost_one] at hcost
        have hlower := (stepCost_bounds (st.dirIn u) (axisAt grid u v)).1
        omega
      | append_singleton before a _ =>
        have hsplit : before ++ [a] ++ [b] = before ++ [a, b] := by simp
        rw [List.append_assoc, List.singleton_append] at hcells
        rw [hsplit] at hcost ⊢
        rw [lastAxis_snoc]
        have hway' := hway
        rw [hcells] at hway'
        obtain ⟨hstep, haxis, _, hcellB⟩ := hway'.step hstart
        by_cases hu : grid.idx a.cx a.cy = u
        · rw [← hu, ← hv, haxis]
        · by_cases hclosed : st.closed (grid.idx a.cx a.cy) = true
          · -- the path has come here before, at no higher cost
            have hopen : st.closed (grid.idx b.cx b.cy) = false := by
              rw [hv]
              exact hi.notClosed
            obtain ⟨gb, hgb', hle⟩ := h.onPath.next_le hway hstart hcells hclosed hopen
              (h.relaxed _ _ hclosed hu hstep)
            rw [hv] at hgb'
            have hlower := hi.lower gb hgb'
            omega
          · -- the path comes here later, which an arrival along the other axis would have to
            by_contra hne
            have hother : axisAt grid u v ≠ stepAxis a b := fun heq => hne (congrArg some heq)
            exact huntied before a b c after hcells (by rw [← hv]; exact hcellB)
              (Bool.eq_false_iff.mpr hclosed) hother hcost
    · have hgb' : st.gScore (grid.idx b.cx b.cy) = some (pathCost (before ++ [b])) :=
        (setAt_other _ _ hv).symm.trans hgb
      exact (setAt_other _ _ hv).trans (h.onPath.tieAxis before b c after hcells hgb')

theorem onPath_initial (grid : Grid) (start goal : GridCell) (cells : List GridCell) :
    OnPath grid cells (AStarState.initial grid start goal) := by
  constructor
  · intro _ b _ _ hclosed
    cases hclosed
  · intro before b c after hcells hgb
    have hzero : pathCost (before ++ [b]) = 0 := by
      have hscore : (AStarState.initial grid start goal).gScore (grid.idx b.cx b.cy) =
          setAt (fun _ => none) (grid.idx start.cx start.cy) (some 0) (grid.idx b.cx b.cy) := rfl
      rw [hgb] at hscore
      unfold setAt at hscore
      split at hscore
      next => exact Option.some.inj hscore
      next => cases hscore
    have hnil : before = [] := by
      unfold pathCost at hzero
      rw [List.length_append, List.length_singleton] at hzero
      exact List.eq_nil_of_length_eq_zero (by omega)
    rw [hnil]
    rfl

/-- Closing the item taken off the heap keeps what the scores say of a path, and begins an expansion. -/
theorem OnPath.close {start goal finish : GridCell} {top : OpenItem} {rest : Array OpenItem}
    (h : OnPath grid cells st) (hhead : AtHead grid start goal st)
    (hway : IsWay grid start finish cells) (hstart : grid.inBounds start.cx start.cy = true)
    (hpop : heapPop OpenItem.less st.openItems = some (top, rest)) :
    ∃ g, st.gScore top.idx = some g ∧
      Expands grid start goal cells top.idx g (st.close top.idx rest) := by
  have hsearching := hhead.searching.close hpop
  have hclosed : (st.close top.idx rest).closed top.idx = true :=
    (close_closed st top.idx rest top.idx).mpr (Or.inr rfl)
  obtain ⟨g, hg⟩ := hsearching.scored top.idx hclosed
  have hfirst : ∀ before a after, cells = before ++ a :: after →
      st.closed (grid.idx a.cx a.cy) = false →
        g + hAt grid goal top.idx ≤
          pathCost (before ++ [a]) + hAt grid goal (grid.idx a.cx a.cy) := by
    intro before a after hcells hopen
    obtain ⟨g', hg', hle⟩ := h.top_le hhead hway hstart hpop hcells hopen
    cases hg.symm.trans hg'
    exact hle
  refine ⟨g, hg, hsearching, ⟨?_, h.tieAxis⟩, hclosed, ?_, ?_⟩
  · intro before b after hcells hb
    by_cases hold : st.closed (grid.idx b.cx b.cy) = true
    · exact h.closedLe before b after hcells hold
    · rcases (close_closed st top.idx rest _).mp hb with hb | hb
      · exact absurd hb hold
      · have hle := hfirst before b after hcells (Bool.eq_false_iff.mpr hold)
        rw [hb] at hle ⊢
        exact ⟨g, hg, by omega⟩
  · intro w x hw hne hstep
    have hw' := ((close_closed st top.idx rest w).mp hw).resolve_right hne
    rcases hhead.relaxed w x hw' hstep with hx | hx
    · exact Or.inl ((close_closed st top.idx rest x).mpr (Or.inl hx))
    · exact Or.inr hx
  · intro before a after hcells hopen
    apply hfirst before a after hcells
    exact Bool.eq_false_iff.mpr fun hold =>
      Bool.eq_false_iff.mp hopen ((close_closed st top.idx rest _).mpr (Or.inl hold))

/-- Where every improvement is untied under a further invariant of the search, what the scores say of a
path holds in every state at the head of the loop, and so does that invariant. -/
theorem HeadState.onPath_and {start goal : GridCell} (extra : AStarState → Prop)
    (hstart : grid.inBounds start.cx start.cy = true) (hway : IsWay grid start goal cells)
    (hinitial : extra (AStarState.initial grid start goal))
    (hpopped : ∀ (st : AStarState) top rest closed, AtHead grid start goal st →
      OnPath grid cells st → extra st → heapPop OpenItem.less st.openItems = some (top, rest) →
        (∀ v, closed v = true ↔ st.closed v = true ∨ v = top.idx) →
          extra { st with openItems := rest, closed := closed })
    (himproved : ∀ st u v g, Expands grid start goal cells u g st → extra st →
      Improves grid st u v g → Untied grid cells st u v g ∧ extra (st.improved grid goal u v g))
    (h : HeadState grid start goal st) : OnPath grid cells st ∧ extra st := by
  induction h with
  | initial => exact ⟨onPath_initial grid start goal cells, hinitial⟩
  | @skip st top rest hbefore hpop hclosed ih =>
    obtain ⟨hon, hextra⟩ := ih
    refine ⟨⟨hon.closedLe, hon.tieAxis⟩, ?_⟩
    apply hpopped st top rest st.closed (hbefore.atHead hstart) hon hextra hpop
    intro v
    constructor
    · exact Or.inl
    · rintro (hv | rfl)
      · exact hv
      · exact hclosed
  | @expand st top rest hbefore hpop hnot hgoal ih =>
    obtain ⟨hon, hextra⟩ := ih
    have hhead := hbefore.atHead hstart
    obtain ⟨g, hg, hexpands⟩ := hon.close hhead hway hstart hpop
    have hextra' : extra (st.close top.idx rest) :=
      hpopped st top rest _ hhead hon hextra hpop (close_closed st top.idx rest)
    obtain ⟨⟨hdone, hkept⟩, _⟩ := @expandCell_rule grid goal top.idx g (st.close top.idx rest)
      (fun s => Expands grid start goal cells top.idx g s ∧ extra s) hexpands.closed hg
      ⟨hexpands, hextra'⟩ (by
        rintro s v ⟨hs, hsextra⟩ _ hi
        obtain ⟨huntied, hkept⟩ := himproved s top.idx v g hs hsextra hi
        refine ⟨⟨hs.searching.improve hs.closed hi, hs.improve hway hstart hi huntied, hs.closed, ?_,
          hs.first⟩, hkept⟩
        intro w x hw hne hstep
        exact (hs.relaxed w x hw hne hstep).improve hi hw)
    exact ⟨hdone.onPath, hkept⟩

end NovaVe
