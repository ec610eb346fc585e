import NovaVe.AStarLegs
import NovaVe.AStarOnPath

namespace NovaVe

variable {grid : Grid} {start goal : GridCell} {st : AStarState} {u v g : Nat} {axis : Axis}
  {cells : List GridCell}

/-- What the search knows of bends: a score pays for the distance from the start and for its bends, and
there is one bend at least where a cell is entered along an axis and lies off the start across it. -/
structure Bends (grid : Grid) (start goal : GridCell) (st : AStarState) : Prop where
  serials : ∀ item ∈ st.openItems, item.serial < st.serial
  queued : ∀ item ∈ st.openItems,
    item.bends + heuristic start (grid.cellOf item.idx) + hAt grid goal item.idx ≤ item.f
  paid : ∀ v g, st.gScore v = some g → st.bends v + heuristic start (grid.cellOf v) ≤ g
  bent : ∀ v g axis, st.gScore v = some g → st.dirIn v = some axis →
    axis.across start (grid.cellOf v) ≠ 0 → 1 ≤ st.bends v

theorem bends_initial (hstart : grid.inBounds start.cx start.cy = true) :
    Bends grid start goal (AStarState.initial grid start goal) := by
  obtain ⟨hcell, _⟩ := cellOf_idx hstart
  have hself : heuristic start start = 0 := by
    unfold heuristic
    omega
  constructor
  · intro item hitem
    rcases mem_heapPush.mp hitem with rfl | hitem
    · exact Nat.zero_lt_one
    · exact absurd hitem (Array.not_mem_empty _)
  · intro item hitem
    rcases mem_heapPush.mp hitem with rfl | hitem
    · unfold hAt
      dsimp only
      rw [hcell, hself]
      omega
    · exact absurd hitem (Array.not_mem_empty _)
  · intro v g hg
    unfold AStarState.initial setAt at hg ⊢
    dsimp only at hg ⊢
    split at hg
    next heq =>
      rw [heq, hcell, hself]
      omega
    next => cases hg
  · intro v g axis _ hdir
    cases hdir

theorem Bends.pop {rest : Array OpenItem} {closed : Nat → Bool} (h : Bends grid start goal st)
    (hrest : ∀ item ∈ rest, item ∈ st.openItems) :
    Bends grid start goal { st with openItems := rest, closed := closed } :=
  ⟨fun item hitem => h.serials item (hrest item hitem),
    fun item hitem => h.queued item (hrest item hitem), h.paid, h.bent⟩

/-- An improvement pays for its step and its bend. -/
theorem Bends.improve (h : Bends grid start goal st)
    (hsearching : Searching grid (grid.idx start.cx start.cy) goal st)
    (hstart : grid.inBounds start.cx start.cy = true) (hi : Improves grid st u v g) :
    Bends grid start goal (st.improved grid goal u v g) := by
  have hpaid := h.paid u g hi.reached
  have hnear := hi.step.near
  have hdistance : heuristic start (grid.cellOf v) ≤ heuristic start (grid.cellOf u) + 1 := by
    unfold Adjacent heuristic at hnear
    unfold heuristic
    omega
  have hcost : st.bends u + (if st.dirIn u ≠ none ∧ st.dirIn u ≠ some (axisAt grid u v) then 1
      else 0) + heuristic start (grid.cellOf v) ≤ g + stepCost (st.dirIn u) (axisAt grid u v) := by
    unfold stepCost bendPenalty
    omega
  constructor
  · intro item hitem
    rcases mem_heapPush.mp hitem with rfl | hitem
    · exact Nat.lt_succ_self _
    · exact Nat.lt_succ_of_lt (h.serials item hitem)
  · intro item hitem
    rcases mem_heapPush.mp hitem with rfl | hitem
    · exact Nat.add_le_add_right hcost _
    · exact h.queued item hitem
  · intro w gw hw
    unfold AStarState.improved at hw ⊢
    dsimp only at hw ⊢
    by_cases hv : w = v
    · subst hv
      rw [setAt_same] at hw ⊢
      cases hw
      exact hcost
    · rw [setAt_other _ _ hv] at hw ⊢
      exact h.paid w gw hw
  · intro w gw axis hw hdir hoff
    unfold AStarState.improved at hw hdir ⊢
    dsimp only at hw hdir ⊢
    by_cases hv : w = v
    · subst hv
      rw [setAt_same] at hdir ⊢
      have haxis : axisAt grid u w = axis := Option.some.inj hdir
      rw [haxis]
      obtain ⟨_, hsame⟩ := along_step axis hnear haxis start
      rw [hsame] at hoff
      cases hdirU : st.dirIn u with
      | none =>
        rcases (hsearching.origin u g hi.reached).2 with ⟨hroot, _⟩ | ⟨_, _, _, _, _, _, hdir', _⟩
        · rw [hroot, (cellOf_idx hstart).1] at hoff
          exact absurd (by cases axis <;> simp [Axis.across, Axis.along]) hoff
        · rw [hdirU] at hdir'
          cases hdir'
      | some incoming =>
        by_cases hincoming : incoming = axis
        · have hbent := h.bent u g incoming hi.reached hdirU (by rw [hincoming]; exact hoff)
          omega
        · rw [if_pos ⟨by simp, by simpa using hincoming⟩]
          omega
    · rw [setAt_other _ _ hv] at hw hdir ⊢
      exact h.bent w gw axis hw hdir hoff

theorem OpenItem.key_lt {a b : OpenItem}
    (h : a.f < b.f ∨ a.f = b.f ∧ a.bends ≤ b.bends ∧ a.serial < b.serial) : a.key < b.key := by
  rw [← OpenItem.less_iff]
  unfold OpenItem.less
  rcases h with hf | ⟨hf, hbends, hserial⟩
  · rw [if_pos (Nat.ne_of_lt hf)]
    exact decide_eq_true hf
  · rw [if_neg (not_not_intro hf)]
    split
    next hne => exact decide_eq_true (by omega)
    next => exact decide_eq_true hserial

/-- A cell between the start and the goal, entered along the axis, after one bend and by no step in
vain. -/
structure Runner (grid : Grid) (start goal : GridCell) (axis : Axis) (st : AStarState) (u : Nat) :
    Prop where
  score : st.gScore u = some (heuristic start (grid.cellOf u) + 1)
  dir : st.dirIn u = some axis
  off : axis.across start (grid.cellOf u) ≠ 0
  between : heuristic start (grid.cellOf u) + hAt grid goal u = heuristic start goal

/-- A runner is reached from a runner. -/
theorem Improves.runner (hi : Improves grid st u v g) (hbends : Bends grid start goal st)
    (hsearching : Searching grid (grid.idx start.cx start.cy) goal st)
    (hstart : grid.inBounds start.cx start.cy = true)
    (hrun : Runner grid start goal axis (st.improved grid goal u v g) v)
    (hlevel : 2 ≤ axis.along start (grid.cellOf v)) :
    Runner grid start goal axis st u ∧
      axis.along start (grid.cellOf u) + 1 = axis.along start (grid.cellOf v) := by
  have hscore : g + stepCost (st.dirIn u) (axisAt grid u v) = heuristic start (grid.cellOf v) + 1 :=
    Option.some.inj ((setAt_same _ _ _).symm.trans hrun.score)
  have haxis : axisAt grid u v = axis :=
    Option.some.inj ((setAt_same _ _ _).symm.trans hrun.dir)
  obtain ⟨hstep, hsame⟩ := along_step axis hi.step.near haxis start
  have hoff := hrun.off
  have hpaid := hbends.paid u g hi.reached
  have hlower := (stepCost_bounds (st.dirIn u) (axisAt grid u v)).1
  have hsumU := heuristic_eq_sum axis start (grid.cellOf u)
  have hsumV := heuristic_eq_sum axis start (grid.cellOf v)
  rw [hsame] at hoff hsumV
  rcases hstep with hstep | hstep
  · have hnear := (hi.step.facts goal).2
    have htriangle : heuristic start goal ≤ heuristic start (grid.cellOf u) + hAt grid goal u :=
      heuristic_triangle start (grid.cellOf u) goal
    have hbetween := hrun.between
    cases hdir : st.dirIn u with
    | none =>
      rcases (hsearching.origin u g hi.reached).2 with ⟨hroot, _⟩ | ⟨_, _, _, _, _, _, hdir', _⟩
      · rw [hroot, (cellOf_idx hstart).1] at hoff
        exact absurd (by cases axis <;> simp [Axis.across, Axis.along]) hoff
      · rw [hdir] at hdir'
        cases hdir'
    | some incoming =>
      rw [hdir, haxis] at hscore
      by_cases hincoming : incoming = axis
      · subst hincoming
        have hbent := hbends.bent u g incoming hi.reached hdir hoff
        have hcost : stepCost (some incoming) incoming = 1 := by simp [stepCost]
        refine ⟨⟨?_, hdir, hoff, by omega⟩, hstep.symm⟩
        rw [hi.reached]
        exact congrArg some (by omega)
      · have hother := Axis.ne_iff.mp hincoming
        have hcross : incoming.across start (grid.cellOf u) =
            axis.along start (grid.cellOf u) := by
          rw [hother]
          cases axis <;> rfl
        have hbent := hbends.bent u g incoming hi.reached hdir (by omega)
        have hcost : stepCost (some incoming) axis = 2 := by
          simp [stepCost, bendPenalty, hincoming]
        omega
  · omega

/-- The invariant that keeps the path with the longer first leg ahead: runners that have come as far
along the axis as a cell of its second leg has come across it are taken up after that cell. -/
structure Legs (grid : Grid) (start goal : GridCell) (cells : List GridCell) (axis : Axis) (first : Nat)
    (st : AStarState) : Prop where
  bends : Bends grid start goal st
  runners : ∀ u, st.closed u = true → Runner grid start goal axis st u →
    ∀ before c after, cells = before ++ c :: after →
      before.length < first + axis.along start (grid.cellOf u) →
        st.closed (grid.idx c.cx c.cy) = true
  queued : ∀ item ∈ st.openItems, st.closed item.idx = false →
    Runner grid start goal axis st item.idx → ∀ before c after, cells = before ++ c :: after →
      first < before.length → before.length < first + axis.along start (grid.cellOf item.idx) →
        st.closed (grid.idx c.cx c.cy) = true ∨
          ∃ other ∈ st.openItems, other.idx = grid.idx c.cx c.cy ∧ other.key < item.key

theorem legs_initial {first : Nat} (hstart : grid.inBounds start.cx start.cy = true) :
    Legs grid start goal cells axis first (AStarState.initial grid start goal) := by
  refine ⟨bends_initial hstart, ?_, ?_⟩
  · intro u hu
    cases hu
  · intro item _ _ hrun
    cases hrun.dir

/-- Taking the first item off the heap keeps the invariant. -/
theorem Legs.pop {first second : Nat} {top : OpenItem} {rest : Array OpenItem} {closed : Nat → Bool}
    (h : Legs grid start goal cells axis first st)
    (hpath : LegPath grid start goal cells axis first second) (hhead : AtHead grid start goal st)
    (hon : OnPath grid cells st) (hstart : grid.inBounds start.cx start.cy = true)
    (hpop : heapPop OpenItem.less st.openItems = some (top, rest))
    (hclosed : ∀ v, closed v = true ↔ st.closed v = true ∨ v = top.idx) :
    Legs grid start goal cells axis first { st with openItems := rest, closed := closed } := by
  obtain ⟨hperm, _, hleast⟩ := heapPop_spec OpenItem.less_iff hhead.searching.heap hpop
  have hmem : ∀ item, item ∈ st.openItems ↔ item = top ∨ item ∈ rest := by
    intro item
    rw [← Array.mem_toList_iff, hperm.mem_iff, List.mem_cons, Array.mem_toList_iff]
  have hold : ∀ v, st.closed v = true → closed v = true := fun v hv => (hclosed v).mpr (Or.inl hv)
  refine ⟨h.bends.pop fun item hitem => (hmem item).mpr (Or.inr hitem), ?_, ?_⟩
  · intro u hu hrun before c after hcells hlt
    have hrun' : Runner grid start goal axis st u := ⟨hrun.score, hrun.dir, hrun.off, hrun.between⟩
    by_cases hbefore : st.closed u = true
    · exact hold _ (h.runners u hbefore hrun' before c after hcells hlt)
    · have htop : u = top.idx := ((hclosed u).mp hu).resolve_left hbefore
      subst htop
      by_contra hopen
      have hopen' : st.closed (grid.idx c.cx c.cy) = false :=
        Bool.eq_false_iff.mpr fun hc => hopen (hold _ hc)
      have htop := (hmem top).mpr (Or.inl rfl)
      by_cases hleg : first < before.length
      · rcases h.queued top htop (Bool.eq_false_iff.mpr hbefore) hrun' before c after hcells hleg hlt
          with hc | ⟨other, hother, _, hkey⟩
        · exact hopen (hold _ hc)
        · exact absurd (hleast other hother) (not_le_of_gt hkey)
      · -- the first leg costs nothing but its steps, and is taken up before any runner
        obtain ⟨item, hitem, hf⟩ := hon.frontier hhead hpath.isPath.1 hstart before c after hcells
          hopen'
        obtain ⟨_, _, hcost⟩ := hpath.arrives before c after hcells
        obtain ⟨_, _, hrest⟩ := hpath.position hcells
        have hlengths := hpath.lengths hcells
        have hdirect := hpath.direct
        have hbetween := hrun'.between
        have hfirst := OpenItem.f_le (hleast item hitem)
        obtain ⟨g, hg, hle⟩ := hhead.searching.items top htop
        cases hg.symm.trans hrun'.score
        rw [if_neg hleg] at hcost
        unfold hAt at hf
        rw [hpath.cellAt hcells, hrest] at hf
        omega
  · intro item hitem hopen hrun before c after hcells hleg hlt
    have hopen' : st.closed item.idx = false := by
      apply Bool.eq_false_iff.mpr
      intro hc
      exact absurd ((hold _ hc).symm.trans hopen) (by decide)
    rcases h.queued item ((hmem item).mpr (Or.inr hitem)) hopen'
      ⟨hrun.score, hrun.dir, hrun.off, hrun.between⟩ before c after hcells hleg hlt
      with hc | ⟨other, hother, hidx, hkey⟩
    · exact Or.inl (hold _ hc)
    · rcases (hmem other).mp hother with rfl | hother
      · exact Or.inl ((hclosed _).mpr (Or.inr hidx.symm))
      · exact Or.inr ⟨other, hother, hidx, hkey⟩

/-- While a runner is expanded, a cell of the second leg that it may come before has an item already. -/
theorem Legs.ahead {first second : Nat} {u g : Nat} (h : Legs grid start goal cells axis first st)
    (hpath : LegPath grid start goal cells axis first second)
    (hexpands : Expands grid start goal cells u g st)
    (hstart : grid.inBounds start.cx start.cy = true) (hrun : Runner grid start goal axis st u)
    (hlevel : axis.along start (grid.cellOf u) < first) {before after : List GridCell}
    {c : GridCell} (hcells : cells = before ++ c :: after) (hleg : first < before.length)
    (hlt : before.length ≤ first + axis.along start (grid.cellOf u))
    (hopen : st.closed (grid.idx c.cx c.cy) = false) :
    ∃ item ∈ st.openItems, item.idx = grid.idx c.cx c.cy ∧
      item.f ≤ heuristic start goal + 1 ∧
        (item.f = heuristic start goal + 1 → item.bends ≤ 1) := by
  induction before using List.reverseRecOn with
  | nil => exact absurd hleg (Nat.not_lt_zero _)
  | append_singleton before a _ =>
    obtain ⟨_, _, hcost⟩ := hpath.arrives _ c after hcells
    obtain ⟨halongC, hacrossC, hrestC⟩ := hpath.position hcells
    have hlengths := hpath.lengths hcells
    have hcellC := hpath.cellAt hcells
    have hdirect := hpath.direct
    rw [if_pos hleg] at hcost
    have hsumC := heuristic_eq_sum axis start c
    rw [List.append_assoc, List.singleton_append] at hcells
    obtain ⟨halongA, _, _⟩ := hpath.position hcells
    have hcellA := hpath.cellAt hcells
    have hsplit : before ++ [a] ++ [c] = before ++ [a, c] := by simp
    rw [hsplit] at hcost
    rw [List.length_append, List.length_singleton] at *
    have hclosedA := h.runners u hexpands.closed hrun before a (c :: after) hcells (by omega)
    have hne : grid.idx a.cx a.cy ≠ u := by
      intro heq
      rw [← heq, hcellA] at hlevel
      omega
    have hway := hpath.isPath.1
    have hway' := hway
    rw [hcells] at hway'
    obtain ⟨hstep, _, _, _⟩ := hway'.step hstart
    obtain ⟨gc, hgc, hle⟩ := hexpands.onPath.next_le hway hstart hcells hclosedA hopen
      (hexpands.relaxed _ _ hclosedA hne hstep)
    obtain ⟨item, hitem, hidx, hf⟩ := hexpands.searching.listed _ gc hgc hopen
    have hqueued := h.bends.queued item hitem
    unfold hAt at hf hqueued
    rw [hidx, hcellC] at hqueued
    rw [hcellC] at hf
    refine ⟨item, hitem, hidx, by omega, ?_⟩
    intro heq
    omega

/-- An improvement keeps the invariant. -/
theorem Legs.improve {first second : Nat} (h : Legs grid start goal cells axis first st)
    (hpath : LegPath grid start goal cells axis first second)
    (hexpands : Expands grid start goal cells u g st)
    (hstart : grid.inBounds start.cx start.cy = true) (hi : Improves grid st u v g) :
    Legs grid start goal cells axis first (st.improved grid goal u v g) := by
  have hbends := h.bends.improve hexpands.searching hstart hi
  have hsame : ∀ w, w ≠ v → Runner grid start goal axis (st.improved grid goal u v g) w →
      Runner grid start goal axis st w := by
    intro w hw hrun
    exact ⟨(setAt_other _ _ hw).symm.trans hrun.score, (setAt_other _ _ hw).symm.trans hrun.dir,
      hrun.off, hrun.between⟩
  refine ⟨hbends, ?_, ?_⟩
  · intro w hw hrun before c after hcells hlt
    have hne : w ≠ v := by
      rintro rfl
      exact absurd (hi.notClosed.symm.trans hw) (by decide)
    exact h.runners w hw (hsame w hne hrun) before c after hcells hlt
  · intro item hitem hopen hrun before c after hcells hleg hlt
    by_cases hv : item.idx = v
    · by_cases hclosed : st.closed (grid.idx c.cx c.cy) = true
      · exact Or.inl hclosed
      · right
        rw [hv] at hrun hlt
        have hlevel := hpath.below hrun.between
        obtain ⟨hrunU, hnext⟩ := hi.runner h.bends hexpands.searching hstart hrun (by omega)
        obtain ⟨other, hother, hidx, hf, hbent⟩ := h.ahead hpath hexpands hstart hrunU (by omega)
          hcells hleg (by omega) (Bool.eq_false_iff.mpr hclosed)
        refine ⟨other, mem_heapPush.mpr (Or.inr hother), hidx, OpenItem.key_lt ?_⟩
        have hscore : g + stepCost (st.dirIn u) (axisAt grid u v) =
            heuristic start (grid.cellOf v) + 1 :=
          Option.some.inj ((setAt_same _ _ _).symm.trans hrun.score)
        have hbetween := hrun.between
        rcases mem_heapPush.mp hitem with rfl | hitem
        · -- the item is the new one, so its serial is the highest
          have hserial := h.bends.serials other hother
          have hbentU := h.bends.bent u g axis hi.reached hrunU.dir hrunU.off
          dsimp only
          omega
        · -- the item is one that the improvement made stale
          obtain ⟨old, hold, hle⟩ := hexpands.searching.items item hitem
          rw [hv] at hold hle
          have hlower := hi.lower old hold
          omega
    · have hitem' : item ∈ st.openItems := by
        rcases mem_heapPush.mp hitem with rfl | hitem
        · exact absurd rfl hv
        · exact hitem
      rcases h.queued item hitem' hopen (hsame _ hv hrun) before c after hcells hleg hlt
        with hc | ⟨other, hother, hrest⟩
      · exact Or.inl hc
      · exact Or.inr ⟨other, mem_heapPush.mpr (Or.inr hother), hrest⟩

/-- No improvement ties the path. -/
theorem Legs.untied {first second : Nat} (h : Legs grid start goal cells axis first st)
    (hpath : LegPath grid start goal cells axis first second)
    (hexpands : Expands grid start goal cells u g st)
    (hstart : grid.inBounds start.cx start.cy = true) (hi : Improves grid st u v g) :
    Untied grid cells st u v g := by
  intro before a b c after hcells hcell hopen hother hcost
  have haxis := hpath.axisOf hcells
  have hlengths := hpath.lengths hcells
  have hlonger := hpath.longer
  have hdirect := hpath.direct
  have hnext : cells = (before ++ [a]) ++ b :: c :: after := by rw [hcells]; simp
  obtain ⟨_, _, hpays⟩ := hpath.arrives _ b (c :: after) hnext
  obtain ⟨halong, hacross, hrest⟩ := hpath.position hnext
  have hsplit : before ++ [a] ++ [b] = before ++ [a, b] := by simp
  rw [hsplit] at hpays
  have hsum := heuristic_eq_sum axis start b
  simp only [List.length_append, List.length_cons, List.length_nil] at *
  by_cases hleg : before.length < first
  · -- on the first leg every arrival across it has a bend more
    rw [if_pos hleg] at haxis
    rw [haxis] at hother
    have hbends := h.bends.improve hexpands.searching hstart hi
    have hscore : (st.improved grid goal u v g).gScore v =
        some (g + stepCost (st.dirIn u) (axisAt grid u v)) := setAt_same _ _ _
    have hpaid := hbends.paid v _ hscore
    have hcross : (axisAt grid u v).across start b = axis.along start b := by
      rw [Axis.ne_iff.mp hother]
      cases axis <;> rfl
    have hbent := hbends.bent v _ (axisAt grid u v) hscore (setAt_same _ _ _)
      (by rw [hcell, hcross]; omega)
    rw [hcell] at hpaid
    rw [if_neg (by omega)] at hpays
    omega
  · rw [if_neg hleg] at haxis
    rw [haxis] at hother
    have harrives : axisAt grid u v = axis := by
      cases hside : axisAt grid u v <;> cases axis <;> simp_all [Axis.other]
    rw [if_pos (by omega)] at hpays
    have hrun : Runner grid start goal axis (st.improved grid goal u v g) v := by
      refine ⟨?_, ?_, ?_, ?_⟩
      · refine (setAt_same _ _ _).trans (congrArg some ?_)
        rw [hcell]
        omega
      · rw [← harrives]
        exact setAt_same _ _ _
      · rw [hcell]
        omega
      · unfold hAt
        rw [hcell, hrest]
        omega
    obtain ⟨hrunU, hlevel⟩ := hi.runner h.bends hexpands.searching hstart hrun
      (by rw [hcell]; omega)
    rw [hcell] at hlevel
    have hclosed := h.runners u hexpands.closed hrunU before a (b :: c :: after) hcells (by omega)
    rw [hopen] at hclosed
    cases hclosed

theorem LegPath.onPath {first second : Nat} (h : LegPath grid start goal cells axis first second)
    (hst : HeadState grid start goal st) :
    OnPath grid cells st := by
  have hstart := (Grid.isBlocked_false_iff.mp h.isPath.2).1
  exact (hst.onPath_and _ hstart h.isPath.1 (legs_initial hstart)
    (fun _ _ _ _ hhead hon hlegs hpop hclosed => hlegs.pop h hhead hon hstart hpop hclosed)
    (fun _ _ _ _ hexpands hlegs hi =>
      ⟨hlegs.untied h hexpands hstart hi, hlegs.improve h hexpands hstart hi⟩)).1

/-- An improvement along another axis than the path's, at the cost of the path, comes after the path. -/
theorem UntiedPath.comes_first (hpath : UntiedPath grid start goal cells)
    (hstart : grid.inBounds start.cx start.cy = true)
    (hsearching : Searching grid (grid.idx start.cx start.cy) goal st) (hi : Improves grid st u v g)
    {before after : List GridCell} {a b c : GridCell}
    (hcells : cells = before ++ a :: b :: c :: after) (hcell : grid.cellOf v = b)
    (hother : axisAt grid u v ≠ stepAxis a b)
    (hcost : g + stepCost (st.dirIn u) (axisAt grid u v) = pathCost (before ++ [a, b])) :
    pathCost (before ++ [a]) + heuristic a goal < g + hAt grid goal u := by
  obtain ⟨way, hway, hcostU, hlastU⟩ := hsearching.way hstart hi.reached
  have harrives := hway.snoc hi.step.near hi.step.free
  have haxis : axisAt grid u v = stepAxis (grid.cellOf u) b := by
    unfold axisAt
    rw [hcell]
  rw [hcell] at harrives
  rw [haxis] at hother hcost
  have hsame : pathCost (way ++ [grid.cellOf u, b]) = pathCost (before ++ [a, b]) := by
    rw [pathCost_snoc, hcostU, hlastU]
    exact hcost
  have hlater := hpath.untied before a b c after hcells way (grid.cellOf u) harrives hother hsame
  rw [hcostU] at hlater
  exact hlater

theorem UntiedPath.keeps (h : UntiedPath grid start goal cells)
    (hstart : grid.inBounds start.cx start.cy = true)
    (hexpands : Expands grid start goal cells u g st) (hi : Improves grid st u v g) :
    Untied grid cells st u v g := by
  intro before a b c after hcells hcell hopen hother hcost
  have hway := h.isPath.1
  rw [hcells] at hway
  obtain ⟨_, _, hcellA, _⟩ := hway.step hstart
  have hle := hexpands.first before a (b :: c :: after) hcells hopen
  have hlater := h.comes_first hstart hexpands.searching hi hcells hcell hother hcost
  unfold hAt at hle hlater
  rw [hcellA] at hle
  omega

theorem UntiedPath.onPath (h : UntiedPath grid start goal cells)
    (hstart : grid.inBounds start.cx start.cy = true) (hst : HeadState grid start goal st) :
    OnPath grid cells st :=
  (hst.onPath_and (fun _ => True) hstart h.isPath.1 trivial
    (fun _ _ _ _ _ _ _ _ _ => trivial)
    (fun _ _ _ _ hexpands _ hi => ⟨h.keeps hstart hexpands hi, trivial⟩)).1

/-- A cheapest path that the search keeps to: what the scores say of it holds in every state. -/
structure KeptPath (grid : Grid) (start goal : GridCell) (cells : List GridCell) : Prop where
  isPath : IsPath grid start goal cells
  cheapest : ∀ other, IsPath grid start goal other → pathCost cells ≤ pathCost other
  onPath : ∀ st, HeadState grid start goal st → OnPath grid cells st

theorem KeptPath.found_le {path cells : List GridCell} {aborted : Nat → Bool}
    (h : KeptPath grid start goal path) (hstart : grid.inBounds start.cx start.cy = true)
    (hgoal : grid.inBounds goal.cx goal.cy = true)
    (hfound : runAStar grid start goal aborted = some (.found cells)) :
    pathCost cells ≤ pathCost path := by
  obtain ⟨s, top, rest, g, hs, hpop, hidx, hg, _, hcost⟩ := runAStar_found_head hstart hgoal hfound
  have hhead := hs.atHead hstart
  obtain ⟨before, hpath⟩ := List.getLast?_eq_some_iff.mp h.isPath.1.ends
  obtain ⟨g', hg', hle⟩ := (h.onPath s hs).top_le hhead h.isPath.1 hstart hpop hpath hhead.goalOpen
  cases hg.symm.trans hg'
  rw [hidx, ← hpath] at hle
  omega

/-- Where the goal cannot be reached, where some cheapest path is not tied, or where a path of two legs,
the first no shorter than the second, is free, the search keeps its laws. -/
theorem runAStar_law {grid : Grid} {start goal : GridCell}
    (hstart : grid.inBounds start.cx start.cy = true) (hgoal : grid.inBounds goal.cx goal.cy = true)
    (h : (∀ way, ¬ IsWay grid start goal way) ∨ (∃ cells, UntiedPath grid start goal cells) ∨
      ∃ cells axis first second, LegPath grid start goal cells axis first second)
    (aborted : Nat → Bool) : AStarLaw grid start goal aborted := by
  have hkept : (∀ way, ¬ IsWay grid start goal way) ∨ ∃ path, KeptPath grid start goal path := by
    rcases h with hnone | ⟨path, hpath⟩ | ⟨path, axis, first, second, hpath⟩
    · exact Or.inl hnone
    · exact Or.inr ⟨path, hpath.isPath, hpath.cheapest, fun st hst => hpath.onPath hstart hst⟩
    · exact Or.inr ⟨path, hpath.isPath, fun other hother => hpath.cheapest hother,
        fun st hst => hpath.onPath hst⟩
  refine ⟨runAStar_returns hstart aborted, ?_, ?_⟩
  · intro cells hfound
    have hway := runAStar_found hstart hgoal hfound
    rcases hkept with hnone | ⟨path, hpath⟩
    · exact absurd hway (hnone cells)
    · refine ⟨⟨hway, hpath.isPath.2⟩, ?_⟩
      intro other hother
      exact (hpath.found_le hstart hgoal hfound).trans (hpath.cheapest other hother)
  · intro cells hfell other hother
    exact runAStar_fallback hstart hfell other hother.1

/-- A grid of five by four cells with two cells blocked between the start and the goal. -/
def bendGrid : Grid where
  bounds := { minX := 0, minY := 0, maxX := 80, maxY := 60 }
  step := gridStep
  cols := 5
  rows := 4
  blocked i := decide (i = 6) || decide (i = 12)

def bendPath : List GridCell :=
  [⟨0, 0⟩, ⟨1, 0⟩, ⟨2, 0⟩, ⟨3, 0⟩, ⟨4, 0⟩, ⟨4, 1⟩, ⟨4, 2⟩, ⟨4, 3⟩]

theorem bendPath_legs : LegPath bendGrid ⟨0, 0⟩ ⟨4, 3⟩ bendPath .horiz 4 3 :=
  ⟨⟨⟨rfl, rfl, by decide, by decide⟩, by decide⟩, rfl, rfl, by decide⟩

theorem bend_law : AStarLaw bendGrid ⟨0, 0⟩ ⟨4, 3⟩ (fun _ => false) :=
  runAStar_law (by decide) (by decide) (Or.inr (Or.inr ⟨_, _, _, _, bendPath_legs⟩)) _

/-- A grid of three by two cells, the first one blocked. -/
def cornerGrid : Grid where
  bounds := { minX := 0, minY := 0, maxX := 40, maxY := 20 }
  step := gridStep
  cols := 3
  rows := 2
  blocked i := decide (i = 0)

/-- The search returns a path with two bends where there is one with one bend. -/
theorem corner_not_cheapest : ¬ AStarLaw cornerGrid ⟨2, 0⟩ ⟨0, 1⟩ (fun _ => false) := by
  intro h
  have hfound : runAStar cornerGrid ⟨2, 0⟩ ⟨0, 1⟩ (fun _ => false) =
      some (.found [⟨2, 0⟩, ⟨1, 0⟩, ⟨1, 1⟩, ⟨0, 1⟩]) := rfl
  have hpath : IsPath cornerGrid ⟨2, 0⟩ ⟨0, 1⟩ [⟨2, 0⟩, ⟨2, 1⟩, ⟨1, 1⟩, ⟨0, 1⟩] :=
    ⟨⟨rfl, rfl, by decide, by decide⟩, by decide⟩
  have hle := (h.cheapest _ hfound).2 _ hpath
  have hcosts : pathCost [⟨2, 0⟩, ⟨1, 0⟩, ⟨1, 1⟩, ⟨0, 1⟩] = 5 ∧
      pathCost [⟨2, 0⟩, ⟨2, 1⟩, ⟨1, 1⟩, ⟨0, 1⟩] = 4 := ⟨rfl, rfl⟩
  omega

end NovaVe
