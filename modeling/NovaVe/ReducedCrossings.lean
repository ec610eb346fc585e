import NovaVe.CrossingCounts

namespace NovaVe

variable {axis : Axis} {i j : Nat} {segments : List Segment}

/-- The indices of the segments of one lane band. -/
def bandOf (axis : Axis) (segments : List Segment) (band : Int) : List Nat :=
  (lane axis segments).filter (fun k => laneBand axis (segmentAt segments k) = band)

/-- The second list holds the segments of the first on channels of the same bands. -/
structure Rechannelled (segments out : List Segment) : Prop where
  length : out.length = segments.length
  runs : ∀ axis k, (segmentAt out k).runs axis = (segmentAt segments k).runs axis
  extent : ∀ axis, ∀ k ∈ lane axis segments,
    (segmentAt out k).extent axis = (segmentAt segments k).extent axis
  band : ∀ axis, ∀ k ∈ lane axis segments,
    laneBand axis (segmentAt out k) = laneBand axis (segmentAt segments k)
  channels : ∀ axis band,
    ((bandOf axis segments band).map (fun k => (segmentAt out k).channel axis)).Perm
      ((bandOf axis segments band).map (fun k => (segmentAt segments k).channel axis))

theorem Rechannelled.refl (segments : List Segment) : Rechannelled segments segments where
  length := rfl
  runs _ _ := rfl
  extent _ _ _ := rfl
  band _ _ _ := rfl
  channels _ _ := .refl _

theorem Rechannelled.lane_eq {segments out : List Segment} (h : Rechannelled segments out)
    (axis : Axis) : lane axis out = lane axis segments := by
  unfold lane
  rw [h.length]
  exact List.filter_congr (fun k _ => h.runs axis k)

theorem Rechannelled.bandOf_eq {segments out : List Segment} (h : Rechannelled segments out)
    (axis : Axis) (band : Int) : bandOf axis out band = bandOf axis segments band := by
  unfold bandOf
  rw [h.lane_eq]
  exact List.filter_congr (fun k hk => by rw [h.band axis k hk])

theorem Rechannelled.trans {segments middle out : List Segment} (h : Rechannelled segments middle)
    (h' : Rechannelled middle out) : Rechannelled segments out where
  length := h'.length.trans h.length
  runs axis k := (h'.runs axis k).trans (h.runs axis k)
  extent axis k hk := (h'.extent axis k (h.lane_eq axis ▸ hk)).trans (h.extent axis k hk)
  band axis k hk := (h'.band axis k (h.lane_eq axis ▸ hk)).trans (h.band axis k hk)
  channels axis band := by
    have hlast := h'.channels axis band
    rw [h.bandOf_eq] at hlast
    exact hlast.trans (h.channels axis band)

/-- Two neighbours of a group of a band. -/
structure BandPair (axis : Axis) (segments : List Segment) (i j : Nat) : Prop
    extends Pairs axis segments i j where
  band : laneBand axis (segmentAt segments i) = laneBand axis (segmentAt segments j)

theorem Rechannelled.bandPair {segments out : List Segment} (h : Rechannelled segments out)
    (hpair : BandPair axis segments i j) : BandPair axis out i j where
  toPairs := hpair.toPairs.of_lane (h.lane_eq axis)
  band := by rw [h.band axis i hpair.left, h.band axis j hpair.right, hpair.band]

theorem swap_mem {l : List Nat} {i j k : Nat} (hij : i ∈ l ↔ j ∈ l) (hk : k ∈ l) :
    Equiv.swap i j k ∈ l := by
  by_cases hki : k = i
  · rw [hki, Equiv.swap_apply_left]
    exact hij.mp (hki ▸ hk)
  · by_cases hkj : k = j
    · rw [hkj, Equiv.swap_apply_right]
      exact hij.mpr (hkj ▸ hk)
    · rwa [Equiv.swap_apply_of_ne_of_ne hki hkj]

theorem map_swap_perm {β : Type} {l : List Nat} (hl : l.Nodup) (hij : i ∈ l ↔ j ∈ l) (f : Nat → β) :
    (l.map (fun k => f (Equiv.swap i j k))).Perm (l.map f) := by
  have hperm : (l.map (Equiv.swap i j)).Perm l := by
    rw [List.perm_ext_iff_of_nodup (hl.map (Equiv.swap i j).injective) hl]
    intro k
    rw [List.mem_map]
    constructor
    · rintro ⟨m, hm, rfl⟩
      exact swap_mem hij hm
    · intro hk
      exact ⟨Equiv.swap i j k, swap_mem hij hk, Equiv.swap_apply_self i j k⟩
  have hmap := hperm.map f
  rwa [List.map_map] at hmap

theorem BandPair.swapAt_band (h : BandPair axis segments i j) {k : Nat} {other : Axis}
    (hk : k ∈ lane other segments) :
    laneBand other (segmentAt (swapAt axis segments i j) k) =
      laneBand other (segmentAt segments k) := by
  by_cases hmem : k ∈ lane axis segments
  · have hsame := Segment.runs_unique (mem_lane.mp hmem).2 (mem_lane.mp hk).2
    subst hsame
    have hswapped := h.swapAt_channel k
    unfold laneBand at *
    rw [hswapped]
    by_cases hki : k = i
    · rw [hki, Equiv.swap_apply_left]
      exact h.band.symm
    · by_cases hkj : k = j
      · rw [hkj, Equiv.swap_apply_right]
        exact h.band
      · rw [Equiv.swap_apply_of_ne_of_ne hki hkj]
  · rw [h.swapAt_other hmem]

theorem BandPair.swapAt_channels (h : BandPair axis segments i j) (other : Axis) (band : Int) :
    ((bandOf other segments band).map
        (fun k => (segmentAt (swapAt axis segments i j) k).channel other)).Perm
      ((bandOf other segments band).map (fun k => (segmentAt segments k).channel other)) := by
  by_cases hsame : other = axis
  · subst hsame
    have hmem : i ∈ bandOf other segments band ↔ j ∈ bandOf other segments band := by
      simp [bandOf, h.left, h.right, h.band]
    have hnodup : (bandOf other segments band).Nodup := (lane_nodup other segments).filter _
    rw [List.map_congr_left (fun k _ => h.swapAt_channel k)]
    exact map_swap_perm hnodup hmem (fun k => (segmentAt segments k).channel other)
  · rw [List.map_congr_left]
    intro k hk
    rw [h.swapAt_other]
    intro hmem
    exact hsame (Segment.runs_unique (mem_lane.mp hmem).2
      (mem_lane.mp (List.mem_of_mem_filter hk)).2)

theorem BandPair.swapAt_rechannels (h : BandPair axis segments i j) :
    Rechannelled segments (swapAt axis segments i j) where
  length := swapAt_length axis segments i j
  runs other k := h.swapAt_runs k other
  extent _ _ hk := h.swapAt_extent hk
  band _ _ hk := h.swapAt_band hk
  channels := h.swapAt_channels

/-- What a step of a sweep does: the exchange where it pays, and nothing where it does not. -/
theorem BandPair.sweepPair_eq (h : BandPair axis segments i j) :
    sweepPair axis (lane axis.other segments) segments i j =
      if ExchangePays axis segments i j then swapAt axis segments i j else segments := by
  by_cases hpays : ExchangePays axis segments i j
  · rw [if_pos hpays]
    unfold ExchangePays at hpays
    exact if_neg (by omega)
  · rw [if_neg hpays]
    unfold ExchangePays at hpays
    unfold sweepPair
    rw [if_pos (by omega), h.swapAt_swapAt]

/-- Every pair of neighbours a sweep over `group` looks at. -/
def neighbours (axis : Axis) (group : List Nat) : List (Axis × Nat × Nat) :=
  (group.zip group.tail).map (fun pair => (axis, pair))

/-- The pairs that `reduceCrossings` looks at, in their order. -/
def sweepOrder (segments : List Segment) : List (Axis × Nat × Nat) :=
  ((laneBands .horiz segments).flatMap
      (fun band => neighbours .horiz (sortGroup .horiz segments band.2))) ++
    ((laneBands .vert segments).flatMap
      (fun band => neighbours .vert (sortGroup .vert segments band.2)))

/-- What the sweeps do at one pair. -/
def sweepStep (segments : List Segment) : Axis × Nat × Nat → List Segment
  | (axis, i, j) => if ExchangePays axis segments i j then swapAt axis segments i j else segments

def IsPair (segments : List Segment) : Axis × Nat × Nat → Prop
  | (axis, i, j) => BandPair axis segments i j

theorem Rechannelled.isPair {segments out : List Segment} (h : Rechannelled segments out)
    {pair : Axis × Nat × Nat} (hpair : IsPair segments pair) : IsPair out pair :=
  h.bandPair hpair

theorem sweepStep_rechannels {pair : Axis × Nat × Nat} (hpair : IsPair segments pair) :
    Rechannelled segments (sweepStep segments pair) := by
  obtain ⟨axis, i, j⟩ := pair
  simp only [sweepStep]
  split
  next => exact BandPair.swapAt_rechannels hpair
  next => exact .refl _

theorem sweepSteps_rechannel {pairs : List (Axis × Nat × Nat)}
    (hpairs : ∀ pair ∈ pairs, IsPair segments pair) :
    Rechannelled segments (pairs.foldl sweepStep segments) := by
  induction pairs generalizing segments with
  | nil => exact .refl _
  | cons pair rest ih =>
    have hstep := sweepStep_rechannels (hpairs pair (by simp))
    exact hstep.trans (ih (fun other hother => hstep.isPair (hpairs other (by simp [hother]))))

/-- A group of distinct segments of one band. -/
structure BandGroup (axis : Axis) (segments : List Segment) (band : Int) (group : List Nat) : Prop where
  nodup : group.Nodup
  mem : ∀ k ∈ group, k ∈ lane axis segments ∧ laneBand axis (segmentAt segments k) = band

theorem pushBand_groups {seen : List Nat} {i : Nat} (hi : i ∈ lane axis segments) (hnew : i ∉ seen)
    {bands : List (Int × List Nat)}
    (h : ∀ band ∈ bands, BandGroup axis segments band.1 band.2 ∧ ∀ k ∈ band.2, k ∈ seen) :
    ∀ band ∈ pushBand (laneBand axis (segmentAt segments i)) i bands,
      BandGroup axis segments band.1 band.2 ∧ ∀ k ∈ band.2, k ∈ seen ++ [i] := by
  induction bands with
  | nil =>
    intro band hband
    rw [pushBand, List.mem_singleton] at hband
    subst hband
    refine ⟨⟨List.nodup_singleton i, ?_⟩, by simp⟩
    intro k hk
    rw [List.mem_singleton.mp hk]
    exact ⟨hi, rfl⟩
  | cons head rest ih =>
    obtain ⟨other, arr⟩ := head
    obtain ⟨hgroup, hseen⟩ := h (other, arr) (by simp)
    intro band hband
    rw [pushBand] at hband
    split at hband
    next heq =>
      rcases List.mem_cons.mp hband with rfl | hband
      · have hnodup : (arr ++ [i]).Nodup := by
          rw [List.nodup_append]
          refine ⟨hgroup.nodup, List.nodup_singleton i, ?_⟩
          intro a ha b hb
          rw [List.mem_singleton.mp hb]
          rintro rfl
          exact hnew (hseen a ha)
        refine ⟨⟨hnodup, ?_⟩, ?_⟩
        · intro k hk
          rcases List.mem_append.mp hk with hk | hk
          · exact hgroup.mem k hk
          · rw [List.mem_singleton.mp hk]
            exact ⟨hi, heq.symm⟩
        · intro k hk
          rcases List.mem_append.mp hk with hk | hk
          · exact List.mem_append_left _ (hseen k hk)
          · exact List.mem_append_right _ hk
      · obtain ⟨hother, hmem⟩ := h band (by simp [hband])
        exact ⟨hother, fun k hk => List.mem_append_left _ (hmem k hk)⟩
    next =>
      rcases List.mem_cons.mp hband with rfl | hband
      · exact ⟨hgroup, fun k hk => List.mem_append_left _ (hseen k hk)⟩
      · exact ih (fun band hmem => h band (by simp [hmem])) band hband

theorem laneBands_groups (axis : Axis) (segments : List Segment) :
    ∀ band ∈ laneBands axis segments, BandGroup axis segments band.1 band.2 := by
  have hfold : ∀ (rest seen : List Nat) (bands : List (Int × List Nat)),
      (seen ++ rest).Nodup → (∀ i ∈ rest, i ∈ lane axis segments) →
      (∀ band ∈ bands, BandGroup axis segments band.1 band.2 ∧ ∀ k ∈ band.2, k ∈ seen) →
      ∀ band ∈ rest.foldl
        (fun bands i => pushBand (laneBand axis (segmentAt segments i)) i bands) bands,
        BandGroup axis segments band.1 band.2 := by
    intro rest
    induction rest with
    | nil =>
      intro seen bands _ _ h band hband
      exact (h band hband).1
    | cons i rest ih =>
      intro seen bands hnodup hlane h
      have hnew : i ∉ seen := by
        intro hmem
        exact (List.nodup_append.mp hnodup).2.2 i hmem i (by simp) rfl
      exact ih (seen ++ [i]) _ (by simpa using hnodup) (fun k hk => hlane k (by simp [hk]))
        (pushBand_groups (hlane i (by simp)) hnew h)
  exact hfold (lane axis segments) [] [] (by simpa using lane_nodup axis segments) (fun _ h => h)
    (by simp)

theorem sortGroup_perm (axis : Axis) (segments : List Segment) (group : List Nat) :
    (sortGroup axis segments group).Perm group :=
  List.perm_insertionSort _ group

theorem BandGroup.sorted {band : Int} {group : List Nat} (h : BandGroup axis segments band group) :
    BandGroup axis segments band (sortGroup axis segments group) where
  nodup := (sortGroup_perm axis segments group).nodup_iff.mpr h.nodup
  mem k hk := h.mem k ((sortGroup_perm axis segments group).mem_iff.mp hk)

theorem BandGroup.neighbours {band : Int} {group : List Nat}
    (h : BandGroup axis segments band group) :
    ∀ pair ∈ neighbours axis group, IsPair segments pair := by
  induction group with
  | nil => simp [NovaVe.neighbours]
  | cons i rest ih =>
    cases rest with
    | nil => simp [NovaVe.neighbours]
    | cons j rest =>
      have htail : BandGroup axis segments band (j :: rest) :=
        ⟨(List.nodup_cons.mp h.nodup).2, fun k hk => h.mem k (List.mem_cons_of_mem _ hk)⟩
      intro pair hpair
      obtain ⟨hi, hiband⟩ := h.mem i (by simp)
      obtain ⟨hj, hjband⟩ := h.mem j (by simp)
      have hsplit : NovaVe.neighbours axis (i :: j :: rest) =
          (axis, i, j) :: NovaVe.neighbours axis (j :: rest) := rfl
      rw [hsplit] at hpair
      rcases List.mem_cons.mp hpair with rfl | hpair
      · have hne : i ≠ j := by
          rintro rfl
          exact (List.nodup_cons.mp h.nodup).1 (by simp)
        exact ⟨⟨hi, hj, hne⟩, hiband.trans hjband.symm⟩
      · exact ih htail pair hpair

theorem sweepPairs_steps {group : List Nat}
    (h : ∀ pair ∈ neighbours axis group, IsPair segments pair) :
    sweepPairs axis (lane axis.other segments) group segments =
      (neighbours axis group).foldl sweepStep segments := by
  induction group generalizing segments with
  | nil => rfl
  | cons i rest ih =>
    cases rest with
    | nil => rfl
    | cons j rest =>
      have hpair : IsPair segments (axis, i, j) := h _ (by simp [neighbours])
      have hstep := sweepStep_rechannels hpair
      have hrest : ∀ pair ∈ neighbours axis (j :: rest), IsPair segments pair :=
        fun pair hmem => h pair (List.mem_cons_of_mem _ hmem)
      have hlast := ih (fun pair hmem => hstep.isPair (hrest pair hmem))
      rw [hstep.lane_eq] at hlast
      rw [sweepPairs, BandPair.sweepPair_eq hpair]
      exact hlast

theorem Rechannelled.sortGroup_eq {segments out : List Segment} (h : Rechannelled segments out)
    {group : List Nat} (hgroup : ∀ k ∈ group, k ∈ lane axis segments) :
    sortGroup axis out group = sortGroup axis segments group := by
  have hentry : ∀ k ∈ group,
      (segmentAt out k).entry axis = (segmentAt segments k).entry axis := by
    intro k hk
    have hextent := h.extent axis k (hgroup k hk)
    cases axis <;> simp only [Segment.extent, Prod.mk.injEq] at hextent <;>
      simp only [Segment.entry, hextent.1, hextent.2]
  have hmap := List.map_insertionSort
    (r := fun a b => (segmentAt out a).entry axis ≤ (segmentAt out b).entry axis)
    (s := fun a b => (segmentAt segments a).entry axis ≤ (segmentAt segments b).entry axis)
    id group (fun a ha b hb => by rw [hentry a ha, hentry b hb]; rfl)
  simpa [sortGroup] using hmap

theorem sweepGroup_steps {segments out : List Segment} {band : Int} {group : List Nat}
    (h : Rechannelled segments out) (hgroup : BandGroup axis segments band group) :
    sweepGroup axis (lane axis.other segments) out group =
      (neighbours axis (sortGroup axis segments group)).foldl sweepStep out := by
  have hsteps := sweepPairs_steps (fun pair hpair => h.isPair (hgroup.sorted.neighbours pair hpair))
  rw [h.lane_eq] at hsteps
  unfold sweepGroup
  split
  next hshort =>
    have hlen := (sortGroup_perm axis segments group).length_eq
    rcases hsorted : sortGroup axis segments group with _ | ⟨i, _ | ⟨j, rest⟩⟩
    · rfl
    · rfl
    · rw [hsorted] at hlen
      simp only [List.length_cons] at hlen
      omega
  next => rw [h.sortGroup_eq (fun k hk => (hgroup.mem k hk).1), hsteps]

theorem sweepBands_steps {bands : List (Int × List Nat)}
    (hbands : ∀ band ∈ bands, BandGroup axis segments band.1 band.2) {out : List Segment}
    (h : Rechannelled segments out) :
    sweepBands axis (lane axis.other segments) bands out =
      (bands.flatMap (fun band => neighbours axis (sortGroup axis segments band.2))).foldl
        sweepStep out := by
  induction bands generalizing out with
  | nil => rfl
  | cons band rest ih =>
    have hgroup := hbands band (by simp)
    have hstep : Rechannelled segments (sweepGroup axis (lane axis.other segments) out band.2) := by
      rw [sweepGroup_steps h hgroup]
      exact h.trans (sweepSteps_rechannel
        (fun pair hpair => h.isPair (hgroup.sorted.neighbours pair hpair)))
    rw [List.flatMap_cons, List.foldl_append, ← sweepGroup_steps h hgroup]
    exact ih (fun other hother => hbands other (by simp [hother])) hstep

theorem sweepOrder_pairs (segments : List Segment) :
    ∀ pair ∈ sweepOrder segments, IsPair segments pair := by
  have hbands : ∀ axis, ∀ pair ∈ (laneBands axis segments).flatMap
      (fun band => neighbours axis (sortGroup axis segments band.2)), IsPair segments pair := by
    intro axis pair hpair
    obtain ⟨band, hband, hmem⟩ := List.mem_flatMap.mp hpair
    exact (laneBands_groups axis segments band hband).sorted.neighbours pair hmem
  intro pair hpair
  rcases List.mem_append.mp hpair with hmem | hmem
  · exact hbands .horiz pair hmem
  · exact hbands .vert pair hmem

theorem reduceCrossings_steps (segments : List Segment) :
    reduceCrossings segments = (sweepOrder segments).foldl sweepStep segments := by
  have hhoriz := sweepBands_steps (laneBands_groups .horiz segments) (.refl segments)
  have hmiddle : Rechannelled segments
      (sweepBands .horiz (lane .vert segments) (laneBands .horiz segments) segments) := by
    rw [show lane .vert segments = lane Axis.horiz.other segments from rfl, hhoriz]
    exact sweepSteps_rechannel (fun pair hpair => sweepOrder_pairs segments pair
      (List.mem_append_left _ hpair))
  have hvert := sweepBands_steps (laneBands_groups .vert segments) hmiddle
  unfold reduceCrossings
  split
  next hshort =>
    rcases horder : sweepOrder segments with _ | ⟨⟨axis, i, j⟩, rest⟩
    · rfl
    · have hpair : BandPair axis segments i j := sweepOrder_pairs segments (axis, i, j) (by simp [horder])
      have hi := (mem_lane.mp hpair.left).1
      have hj := (mem_lane.mp hpair.right).1
      have hne := hpair.apart
      omega
  next =>
    rw [sweepOrder, List.foldl_append]
    exact hvert.trans (by rw [← hhoriz]; rfl)

theorem sweepStep_parallel {pair : Axis × Nat × Nat} (hpar : ∀ s ∈ segments, s.AxisParallel)
    (hpair : IsPair segments pair) :
    ∀ s ∈ sweepStep segments pair, s.AxisParallel := by
  obtain ⟨axis, i, j⟩ := pair
  simp only [sweepStep]
  split
  next => exact swapAt_parallel hpar (BandPair.toPairs hpair)
  next => exact hpar

/-- A step leaves the list as it is, or lowers its crossings. -/
theorem sweepStep_count {pair : Axis × Nat × Nat} (hpar : ∀ s ∈ segments, s.AxisParallel)
    (hpair : IsPair segments pair) :
    sweepStep segments pair = segments ∨
      countCrossings (sweepStep segments pair) < countCrossings segments := by
  obtain ⟨axis, i, j⟩ := pair
  simp only [sweepStep]
  split
  next hpays => exact .inr (hpays.countCrossings_lt (BandPair.toPairs hpair) hpar)
  next => exact .inl rfl

theorem sweepSteps_count {pairs : List (Axis × Nat × Nat)} (hpar : ∀ s ∈ segments, s.AxisParallel)
    (hpairs : ∀ pair ∈ pairs, IsPair segments pair) :
    (∀ s ∈ pairs.foldl sweepStep segments, s.AxisParallel) ∧
      countCrossings (pairs.foldl sweepStep segments) ≤ countCrossings segments := by
  induction pairs generalizing segments with
  | nil => exact ⟨hpar, le_refl _⟩
  | cons pair rest ih =>
    have hpair := hpairs pair (by simp)
    have hstep := sweepStep_rechannels hpair
    obtain ⟨hlast, hcount⟩ := ih (sweepStep_parallel hpar hpair)
      (fun other hother => hstep.isPair (hpairs other (by simp [hother])))
    refine ⟨hlast, ?_⟩
    rcases sweepStep_count hpar hpair with hsame | hless
    · exact hcount.trans (le_of_eq (congrArg countCrossings hsame))
    · exact hcount.trans hless.le

/-- `reduceCrossings` never adds crossings, and only permutes the channels within the bands. -/
theorem reduceCrossings_adds_none {segments : List Segment}
    (h : ∀ s ∈ segments, s.AxisParallel) :
    countCrossings (reduceCrossings segments) ≤ countCrossings segments ∧
      (∀ s ∈ reduceCrossings segments, s.AxisParallel) ∧
      Rechannelled segments (reduceCrossings segments) := by
  rw [reduceCrossings_steps]
  obtain ⟨hpar, hcount⟩ := sweepSteps_count h (sweepOrder_pairs segments)
  exact ⟨hcount, hpar, sweepSteps_rechannel (sweepOrder_pairs segments)⟩

/-- Three horizontal segments of one band, across two vertical ones. -/
def threeLanes : List Segment :=
  [{ x1 := 1, y1 := 2, x2 := 5, y2 := 2 }, { x1 := 4, y1 := 0, x2 := 5, y2 := 0 },
    { x1 := 3, y1 := 3, x2 := 5, y2 := 3 }, { x1 := 4, y1 := 0, x2 := 4, y2 := 4 },
    { x1 := 3, y1 := 0, x2 := 3, y2 := 4 }]

theorem threeLanes_parallel : ∀ s ∈ threeLanes, s.AxisParallel := by
  intro s hs
  simp only [threeLanes, List.mem_cons, List.not_mem_nil, or_false] at hs
  rcases hs with rfl | rfl | rfl | rfl | rfl <;> simp [Segment.AxisParallel]

theorem threeLanes_adds_none :
    countCrossings (reduceCrossings threeLanes) ≤ countCrossings threeLanes ∧
      (∀ s ∈ reduceCrossings threeLanes, s.AxisParallel) ∧
      Rechannelled threeLanes (reduceCrossings threeLanes) :=
  reduceCrossings_adds_none threeLanes_parallel

end NovaVe
