import NovaVe.AStarRuns

namespace NovaVe

/-- Where the score of an index comes from: it is the start, or it was reached from a closed one. -/
def Origin (grid : Grid) (start : Nat) (st : AStarState) (v g : Nat) : Prop :=
  (v = start ∧ g = 0 ∧ st.cameFrom v = none ∧ st.dirIn v = none) ∨
    ∃ u gu, st.cameFrom v = some u ∧ st.closed u = true ∧ IsStep grid u v ∧ st.gScore u = some gu ∧
      st.dirIn v = some (axisAt grid u v) ∧ g = gu + stepCost (st.dirIn u) (axisAt grid u v)

/-- The invariant of the scores and the open heap. -/
structure Searching (grid : Grid) (start : Nat) (goal : GridCell) (st : AStarState) : Prop where
  heap : IsHeap OpenItem.key st.openItems
  items : ∀ item ∈ st.openItems, ∃ g, st.gScore item.idx = some g ∧ g + hAt grid goal item.idx ≤ item.f
  listed : ∀ v g, st.gScore v = some g → st.closed v = false →
    ∃ item ∈ st.openItems, item.idx = v ∧ item.f = g + hAt grid goal v
  origin : ∀ v g, st.gScore v = some g → v < grid.total ∧ Origin grid start st v g
  scored : ∀ v, st.closed v = true → ∃ g, st.gScore v = some g
  root : st.gScore start = some 0

theorem setAt_same {α : Type} (values : Nat → α) (i : Nat) (value : α) : setAt values i value i = value :=
  if_pos rfl

theorem setAt_other {α : Type} (values : Nat → α) {i j : Nat} (value : α) (h : j ≠ i) :
    setAt values i value j = values j := if_neg h

theorem mem_heapPush {less : OpenItem → OpenItem → Bool} {items : Array OpenItem} {new item : OpenItem} :
    item ∈ heapPush less items new ↔ item = new ∨ item ∈ items := by
  rw [← Array.mem_toList_iff, (heapPush_perm less items new).mem_iff, List.mem_cons,
    Array.mem_toList_iff]

/-- An improvement keeps the invariant. -/
theorem Searching.improve {grid : Grid} {start : Nat} {goal : GridCell} {st : AStarState} {u v g : Nat}
    (h : Searching grid start goal st) (hclosed : st.closed u = true) (hi : Improves grid st u v g) :
    Searching grid start goal (st.improved grid goal u v g) := by
  have hne : u ≠ v := by
    rintro rfl
    rw [hi.notClosed] at hclosed
    cases hclosed
  have hscore : ∀ w, w ≠ v → (st.improved grid goal u v g).gScore w = st.gScore w :=
    fun w hw => setAt_other _ _ hw
  have hnew : (st.improved grid goal u v g).gScore v =
      some (g + stepCost (st.dirIn u) (axisAt grid u v)) := setAt_same _ _ _
  have hopen : ∀ w, st.closed w = true → w ≠ v := by
    rintro w hw rfl
    rw [hi.notClosed] at hw
    cases hw
  constructor
  · exact heapPush_isHeap OpenItem.less_iff h.heap _
  · intro item hitem
    rcases mem_heapPush.mp hitem with rfl | hitem
    · exact ⟨_, hnew, le_rfl⟩
    · obtain ⟨old, hold, hle⟩ := h.items item hitem
      by_cases hv : item.idx = v
      · rw [hv] at hold hle ⊢
        have hlower := hi.lower old hold
        exact ⟨_, hnew, by omega⟩
      · rw [hscore _ hv]
        exact ⟨old, hold, hle⟩
  · intro w gw hw hwopen
    by_cases hv : w = v
    · subst hv
      rw [hnew] at hw
      cases hw
      exact ⟨_, mem_heapPush.mpr (Or.inl rfl), rfl, rfl⟩
    · rw [hscore w hv] at hw
      obtain ⟨item, hitem, hidx, hf⟩ := h.listed w gw hw hwopen
      exact ⟨item, mem_heapPush.mpr (Or.inr hitem), hidx, hf⟩
  · intro w gw hw
    by_cases hv : w = v
    · subst hv
      rw [hnew] at hw
      cases hw
      refine ⟨hi.step.inside, Or.inr ⟨u, g, setAt_same _ _ _, hclosed, hi.step, ?_, setAt_same _ _ _, ?_⟩⟩
      · rw [hscore u hne]
        exact hi.reached
      · show _ = g + stepCost (setAt st.dirIn w _ u) _
        rw [setAt_other _ _ hne]
    · rw [hscore w hv] at hw
      obtain ⟨hinside, horigin⟩ := h.origin w gw hw
      refine ⟨hinside, ?_⟩
      unfold Origin AStarState.improved
      dsimp only
      rw [setAt_other _ _ hv, setAt_other _ _ hv]
      rcases horigin with hstart | ⟨u', gu, hcame, hclosed', hstep, hgu, hdir, hg⟩
      · exact Or.inl hstart
      · have hv' := hopen u' hclosed'
        refine Or.inr ⟨u', gu, hcame, hclosed', hstep, ?_, hdir, ?_⟩
        · rw [setAt_other _ _ hv']
          exact hgu
        · rw [setAt_other _ _ hv']
          exact hg
  · intro w hw
    rw [hscore w (hopen w hw)]
    exact h.scored w hw
  · have hstart : start ≠ v := by
      rintro rfl
      have hlower := hi.lower 0 h.root
      omega
    rw [hscore start hstart]
    exact h.root

/-- An improvement leaves closed indices as they are, and relaxes no less than before. -/
theorem Relaxed.improve {grid : Grid} {goal : GridCell} {st : AStarState} {u v g w x : Nat}
    (hi : Improves grid st u v g) (hw : st.closed w = true) (h : Relaxed grid st w x) :
    Relaxed grid (st.improved grid goal u v g) w x := by
  have hwv : w ≠ v := by
    rintro rfl
    rw [hi.notClosed] at hw
    cases hw
  rcases h with hclosed | ⟨gx, hgx, hle⟩
  · exact Or.inl hclosed
  · refine Or.inr ?_
    unfold AStarState.improved
    dsimp only
    rw [setAt_other _ _ hwv, setAt_other _ _ hwv]
    by_cases hx : x = v
    · subst hx
      refine ⟨_, setAt_same _ _ _, ?_⟩
      intro gw hgw
      have hold := hle gw hgw
      have hlower := hi.lower gx hgx
      omega
    · exact ⟨gx, by rw [setAt_other _ _ hx]; exact hgx, hle⟩

theorem Improves.relaxes {grid : Grid} {goal : GridCell} {st : AStarState} {u v g : Nat}
    (hi : Improves grid st u v g) (hclosed : st.closed u = true) :
    Relaxed grid (st.improved grid goal u v g) u v := by
  have hne : u ≠ v := by
    rintro rfl
    rw [hi.notClosed] at hclosed
    cases hclosed
  refine Or.inr ⟨_, setAt_same _ _ _, ?_⟩
  intro gu hgu
  have hold : st.gScore u = some gu := (setAt_other _ _ hne).symm.trans hgu
  cases hi.reached.symm.trans hold
  show _ ≤ g + stepCost (setAt st.dirIn v _ u) _
  rw [setAt_other _ _ hne]

/-- The state within an expansion of `u` from `st`, after the directions `seen`. -/
structure Expanding (grid : Grid) (u g : Nat) (st : AStarState) (seen : List (Int × Int))
    (s : AStarState) : Prop where
  closed : s.closed = st.closed
  score : s.gScore u = some g
  axis : s.dirIn u = st.dirIn u
  kept : ∀ w x, st.closed w = true → Relaxed grid st w x → Relaxed grid s w x
  relaxes : ∀ dir ∈ seen, ∀ v, IsStep grid u v → grid.cellOf v = dirCell grid u dir →
    Relaxed grid s u v

theorem Expanding.improve {grid : Grid} {goal : GridCell} {st s : AStarState} {u v g : Nat}
    {seen : List (Int × Int)} {dir : Int × Int} (h : Expanding grid u g st seen s)
    (hclosed : st.closed u = true) (hcell : grid.cellOf v = dirCell grid u dir)
    (hi : Improves grid s u v g) :
    Expanding grid u g st (seen ++ [dir]) (s.improved grid goal u v g) := by
  have hne : u ≠ v := (hi.step.facts goal).1
  have hclosed' : s.closed u = true := by
    rw [h.closed]
    exact hclosed
  constructor
  · exact h.closed
  · exact (setAt_other _ _ hne).trans h.score
  · exact (setAt_other _ _ hne).trans h.axis
  · intro w x hw hrelaxed
    exact (h.kept w x hw hrelaxed).improve hi (by rw [h.closed]; exact hw)
  · intro d hd x hstep hx
    rcases List.mem_append.mp hd with hd | hd
    · exact (h.relaxes d hd x hstep hx).improve hi hclosed'
    · rw [List.mem_singleton.mp hd, ← hcell] at hx
      have hsame : x = v := by
        rw [← idx_cellOf grid x, hx, idx_cellOf]
      subst hsame
      exact hi.relaxes hclosed'

/-- One direction of an expansion: nothing changes, or an index is improved. -/
theorem Expanding.step {grid : Grid} {goal : GridCell} {st s : AStarState} {u g : Nat}
    {seen : List (Int × Int)} {dir : Int × Int} (h : Expanding grid u g st seen s)
    (hclosed : st.closed u = true) (hdir : dir ∈ dirs) :
    Expanding grid u g st (seen ++ [dir]) (relaxDir grid goal u (st.dirIn u) s dir) ∧
      (relaxDir grid goal u (st.dirIn u) s dir = s ∨ ∃ v, Improves grid s u v g ∧
        relaxDir grid goal u (st.dirIn u) s dir = s.improved grid goal u v g) := by
  have hcases := @relaxDir_cases grid goal u g s dir hdir h.score
  rw [h.axis] at hcases
  rcases hcases with ⟨heq, hrelaxed⟩ | ⟨v, hcell, hi, heq⟩
  · rw [heq]
    refine ⟨⟨h.closed, h.score, h.axis, h.kept, ?_⟩, Or.inl rfl⟩
    intro d hd v hstep hv
    rcases List.mem_append.mp hd with hd | hd
    · exact h.relaxes d hd v hstep hv
    · rw [List.mem_singleton.mp hd] at hv
      exact hrelaxed v hstep hv
  · rw [heq]
    exact ⟨h.improve hclosed hcell hi, Or.inr ⟨v, hi, rfl⟩⟩

/-- An expansion relaxes every step from its index, and keeps what every improvement keeps. -/
theorem expandCell_rule {grid : Grid} {goal : GridCell} {u g : Nat} {st : AStarState}
    (motive : AStarState → Prop) (hclosed : st.closed u = true) (hreached : st.gScore u = some g)
    (hstart : motive st)
    (hstep : ∀ s v, motive s → s.closed = st.closed → Improves grid s u v g →
      motive (s.improved grid goal u v g)) :
    motive (expandCell grid goal u st) ∧ (expandCell grid goal u st).closed = st.closed ∧
      (∀ w x, st.closed w = true → Relaxed grid st w x →
        Relaxed grid (expandCell grid goal u st) w x) ∧
      ∀ v, IsStep grid u v → Relaxed grid (expandCell grid goal u st) u v := by
  have hrun : ∀ (todo seen : List (Int × Int)) (s : AStarState), (∀ dir ∈ todo, dir ∈ dirs) →
      motive s → Expanding grid u g st seen s →
      motive (todo.foldl (relaxDir grid goal u (st.dirIn u)) s) ∧
        Expanding grid u g st (seen ++ todo) (todo.foldl (relaxDir grid goal u (st.dirIn u)) s) := by
    intro todo
    induction todo with
    | nil =>
      intro seen s _ hmotive hs
      rw [List.append_nil]
      exact ⟨hmotive, hs⟩
    | cons dir rest ih =>
      intro seen s hdirs hmotive hs
      obtain ⟨hnext, hchange⟩ := @Expanding.step grid goal st s u g seen dir hs hclosed
        (hdirs dir List.mem_cons_self)
      have hmotive' : motive (relaxDir grid goal u (st.dirIn u) s dir) := by
        rcases hchange with heq | ⟨v, hi, heq⟩
        · rw [heq]
          exact hmotive
        · rw [heq]
          exact hstep s v hmotive hs.closed hi
      have hmore := ih (seen ++ [dir]) _ (fun d hd => hdirs d (List.mem_cons_of_mem _ hd)) hmotive' hnext
      rw [List.append_assoc, List.singleton_append] at hmore
      exact hmore
  obtain ⟨hm, hs⟩ := hrun dirs [] st (fun _ h => h) hstart
    ⟨rfl, hreached, rfl, fun _ _ _ h => h, fun _ h => absurd h List.not_mem_nil⟩
  refine ⟨hm, hs.closed, hs.kept, ?_⟩
  intro v hstep'
  obtain ⟨dir, hdir, hcell⟩ := dir_of_adjacent hstep'.near
  exact hs.relaxes dir hdir v hstep' hcell

/-- The state in which the taken item's index is closed. -/
def AStarState.close (st : AStarState) (idx : Nat) (rest : Array OpenItem) : AStarState :=
  { st with openItems := rest, closed := setAt st.closed idx true }

/-- The states at the head of the loop of `runAStar`. -/
inductive HeadState (grid : Grid) (start goal : GridCell) : AStarState → Prop
  | initial : HeadState grid start goal (AStarState.initial grid start goal)
  | skip {st : AStarState} {top : OpenItem} {rest : Array OpenItem} (before : HeadState grid start goal st)
      (popped : heapPop OpenItem.less st.openItems = some (top, rest))
      (closed : st.closed top.idx = true) :
      HeadState grid start goal { st with openItems := rest }
  | expand {st : AStarState} {top : OpenItem} {rest : Array OpenItem}
      (before : HeadState grid start goal st)
      (popped : heapPop OpenItem.less st.openItems = some (top, rest))
      (notClosed : st.closed top.idx = false) (notGoal : top.idx ≠ grid.idx goal.cx goal.cy) :
      HeadState grid start goal (expandCell grid goal top.idx (st.close top.idx rest))

/-- What holds at the head of the loop. -/
structure AtHead (grid : Grid) (start goal : GridCell) (st : AStarState) : Prop where
  searching : Searching grid (grid.idx start.cx start.cy) goal st
  relaxed : ∀ u v, st.closed u = true → IsStep grid u v → Relaxed grid st u v
  goalOpen : st.closed (grid.idx goal.cx goal.cy) = false

/-- Taking an item off the heap keeps the invariant, when its index is closed. -/
theorem Searching.pop {grid : Grid} {start : Nat} {goal : GridCell} {st : AStarState} {top : OpenItem}
    {rest : Array OpenItem} {closed : Nat → Bool} (h : Searching grid start goal st)
    (hpop : heapPop OpenItem.less st.openItems = some (top, rest))
    (hclosed : ∀ v, closed v = true ↔ st.closed v = true ∨ v = top.idx) :
    Searching grid start goal { st with openItems := rest, closed := closed } := by
  obtain ⟨hperm, hheap, _⟩ := heapPop_spec OpenItem.less_iff h.heap hpop
  have hmem : ∀ item, item ∈ st.openItems ↔ item = top ∨ item ∈ rest := by
    intro item
    rw [← Array.mem_toList_iff, hperm.mem_iff, List.mem_cons, Array.mem_toList_iff]
  constructor
  · exact hheap
  · intro item hitem
    exact h.items item ((hmem item).mpr (Or.inr hitem))
  · intro v g hg hopen
    have hnot : ¬ (st.closed v = true ∨ v = top.idx) := by
      rw [← hclosed v]
      exact Bool.eq_false_iff.mp hopen
    rw [not_or] at hnot
    obtain ⟨item, hitem, hidx, hf⟩ := h.listed v g hg (Bool.eq_false_iff.mpr hnot.1)
    rcases (hmem item).mp hitem with rfl | hitem
    · exact absurd hidx.symm hnot.2
    · exact ⟨item, hitem, hidx, hf⟩
  · intro v g hg
    obtain ⟨hinside, horigin⟩ := h.origin v g hg
    refine ⟨hinside, ?_⟩
    rcases horigin with hstart | ⟨u, gu, hcame, hu, hrest⟩
    · exact Or.inl hstart
    · exact Or.inr ⟨u, gu, hcame, (hclosed u).mpr (Or.inl hu), hrest⟩
  · intro v hv
    rcases (hclosed v).mp hv with hv | rfl
    · exact h.scored v hv
    · obtain ⟨g, hg, _⟩ := h.items top ((hmem top).mpr (Or.inl rfl))
      exact ⟨g, hg⟩
  · exact h.root

theorem close_closed (st : AStarState) (idx : Nat) (rest : Array OpenItem) (v : Nat) :
    (st.close idx rest).closed v = true ↔ st.closed v = true ∨ v = idx := by
  unfold AStarState.close setAt
  dsimp only
  by_cases hv : v = idx
  · rw [if_pos hv]
    exact ⟨fun _ => Or.inr hv, fun _ => rfl⟩
  · rw [if_neg hv]
    exact ⟨Or.inl, fun h => h.resolve_right hv⟩

/-- The invariant in the state in which an item's index is closed. -/
theorem Searching.close {grid : Grid} {start : Nat} {goal : GridCell} {st : AStarState} {top : OpenItem}
    {rest : Array OpenItem} (h : Searching grid start goal st)
    (hpop : heapPop OpenItem.less st.openItems = some (top, rest)) :
    Searching grid start goal (st.close top.idx rest) :=
  h.pop hpop (close_closed st top.idx rest)

theorem searching_initial (grid : Grid) (start goal : GridCell)
    (hstart : grid.inBounds start.cx start.cy = true) :
    Searching grid (grid.idx start.cx start.cy) goal (AStarState.initial grid start goal) := by
  obtain ⟨hcell, hinside⟩ := cellOf_idx hstart
  have hroot : (AStarState.initial grid start goal).gScore (grid.idx start.cx start.cy) = some 0 :=
    @setAt_same (Option Nat) (fun _ => none) (grid.idx start.cx start.cy) (some 0)
  have hempty : IsHeap OpenItem.key #[] := by
    intro c hc _ hcc
    exact absurd hcc (Nat.not_lt_zero _)
  have hscore : ∀ v g, (AStarState.initial grid start goal).gScore v = some g →
      v = grid.idx start.cx start.cy ∧ g = 0 := by
    intro v g hg
    unfold AStarState.initial setAt at hg
    dsimp only at hg
    split at hg
    next heq =>
      cases hg
      exact ⟨heq, rfl⟩
    next => cases hg
  constructor
  · exact heapPush_isHeap OpenItem.less_iff hempty _
  · intro item hitem
    rcases mem_heapPush.mp hitem with rfl | hitem
    · refine ⟨0, hroot, ?_⟩
      show 0 + heuristic (grid.cellOf (grid.idx start.cx start.cy)) goal ≤ heuristic start goal
      rw [hcell]
      omega
    · exact absurd hitem (Array.not_mem_empty _)
  · intro v g hg _
    obtain ⟨rfl, rfl⟩ := hscore v g hg
    refine ⟨_, mem_heapPush.mpr (Or.inl rfl), rfl, ?_⟩
    unfold hAt
    rw [hcell]
    exact (Nat.zero_add _).symm
  · intro v g hg
    obtain ⟨rfl, rfl⟩ := hscore v g hg
    exact ⟨hinside, Or.inl ⟨rfl, rfl, rfl, rfl⟩⟩
  · intro v hv
    cases hv
  · exact hroot

/-- Expanding a cell keeps what holds at the head of the loop. -/
theorem AtHead.expand {grid : Grid} {start goal : GridCell} {st : AStarState} {top : OpenItem}
    {rest : Array OpenItem} (h : AtHead grid start goal st)
    (hpop : heapPop OpenItem.less st.openItems = some (top, rest))
    (hnot : top.idx ≠ grid.idx goal.cx goal.cy) :
    AtHead grid start goal (expandCell grid goal top.idx (st.close top.idx rest)) := by
  have hsearching := h.searching.close hpop
  have hclosed : (st.close top.idx rest).closed top.idx = true :=
    (close_closed st top.idx rest top.idx).mpr (Or.inr rfl)
  obtain ⟨g, hg⟩ := hsearching.scored top.idx hclosed
  obtain ⟨hkept, hsame, hold, hnew⟩ := @expandCell_rule grid goal top.idx g
    (st.close top.idx rest) (Searching grid (grid.idx start.cx start.cy) goal) hclosed hg hsearching
    (fun s v hs hc hi => hs.improve (by rw [hc]; exact hclosed) hi)
  refine ⟨hkept, ?_, ?_⟩
  · intro u v hu hstep
    rw [hsame] at hu
    rcases (close_closed st top.idx rest u).mp hu with hu' | rfl
    · apply hold u v hu
      rcases h.relaxed u v hu' hstep with hv | hv
      · exact Or.inl ((close_closed st top.idx rest v).mpr (Or.inl hv))
      · exact Or.inr hv
    · exact hnew v hstep
  · rw [hsame, Bool.eq_false_iff]
    intro hgoal
    rcases (close_closed st top.idx rest _).mp hgoal with hgoal | hgoal
    · rw [h.goalOpen] at hgoal
      cases hgoal
    · exact hnot hgoal.symm

theorem HeadState.atHead {grid : Grid} {start goal : GridCell} {st : AStarState}
    (hstart : grid.inBounds start.cx start.cy = true) (h : HeadState grid start goal st) :
    AtHead grid start goal st := by
  induction h with
  | initial =>
    refine ⟨searching_initial grid start goal hstart, ?_, rfl⟩
    intro u v hu
    cases hu
  | skip _ hpop hclosed ih =>
    refine ⟨?_, ih.relaxed, ih.goalOpen⟩
    apply ih.searching.pop hpop
    intro v
    constructor
    · exact Or.inl
    · rintro (hv | rfl)
      · exact hv
      · exact hclosed
  | expand _ hpop _ hnot ih => exact ih.expand hpop hnot

/-- How the loop ends: with the goal taken off the heap, with an empty heap, or aborted. -/
theorem aStarLoop_cases {grid : Grid} {start goal : GridCell} {aborted : Nat → Bool}
    {fuel expansions : Nat} {st : AStarState} {result : AStarResult}
    (hst : HeadState grid start goal st)
    (h : aStarLoop grid start goal aborted fuel expansions st = some result) :
    (result = .aborted ∧ ∃ n, aborted n = true) ∨
      (∃ s, HeadState grid start goal s ∧ s.openItems = #[] ∧ result = .fallback (fallbackL start goal)) ∨
      ∃ s top rest, HeadState grid start goal s ∧ heapPop OpenItem.less s.openItems = some (top, rest) ∧
        s.closed top.idx = false ∧ top.idx = grid.idx goal.cx goal.cy ∧
        result = .found (reconstruct grid s.cameFrom top.idx) := by
  induction fuel generalizing expansions st with
  | zero => cases h
  | succ fuel ih =>
    rw [aStarLoop.eq_def] at h
    dsimp only at h
    cases hpop : heapPop OpenItem.less st.openItems with
    | none =>
      rw [hpop] at h
      cases h
      exact Or.inr (Or.inl ⟨st, hst, heapPop_none hpop, rfl⟩)
    | some popped =>
      obtain ⟨top, rest⟩ := popped
      rw [hpop] at h
      dsimp only at h
      split at h
      next habort =>
        cases h
        exact Or.inl ⟨rfl, _, habort.2⟩
      next =>
        split at h
        next hclosed => exact ih (hst.skip hpop hclosed) h
        next hopen =>
          have hopen' : st.closed top.idx = false := by simpa using hopen
          split at h
          next hgoal =>
            cases h
            exact Or.inr (Or.inr ⟨st, top, rest, hst, hpop, hopen', hgoal, rfl⟩)
          next hnot => exact ih (hst.expand hpop hopen' hnot) h

end NovaVe
