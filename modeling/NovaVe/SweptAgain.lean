import NovaVe.Dict
import NovaVe.ReducedCrossings

namespace NovaVe

variable {segments out : List Segment} {axis : Axis}

/-- The exchange of a pair of neighbours would lower its crossings. -/
def PaysAt (segments : List Segment) : Axis × Nat × Nat → Prop
  | (axis, i, j) => ExchangePays axis segments i j

instance (segments : List Segment) : DecidablePred (PaysAt segments) := fun pair =>
  inferInstanceAs (Decidable (ExchangePays pair.1 segments pair.2.1 pair.2.2))

/-- The neighbours of each band of an axis. -/
def bandPairs (axis : Axis) (segments : List Segment) : List (List (Axis × Nat × Nat)) :=
  (laneBands axis segments).map (fun band => neighbours axis (sortGroup axis segments band.2))

/-- The exchange of a pair in one list where it pays in another. -/
def exchangeAs (segments out : List Segment) (pair : Axis × Nat × Nat) : List Segment :=
  if PaysAt segments pair then swapAt pair.1 out pair.2.1 pair.2.2 else out

/-- The segments with the first pair of each band exchanged, where that lowers its crossings. -/
def firstExchanged (axis : Axis) (segments : List Segment) : List Segment :=
  ((bandPairs axis segments).filterMap List.head?).foldl (exchangeAs segments) segments

/-- Only the first pair of a band may pay. -/
def OnlyFirst (axis : Axis) (segments : List Segment) : Prop :=
  ∀ pairs ∈ bandPairs axis segments, ∀ first ∈ pairs.head?, ∀ later ∈ pairs.tail,
    ¬ PaysAt (sweepStep segments first) later

instance (axis : Axis) (segments : List Segment) : Decidable (OnlyFirst axis segments) :=
  inferInstanceAs (Decidable (∀ pairs ∈ bandPairs axis segments, ∀ first ∈ pairs.head?,
    ∀ later ∈ pairs.tail, ¬ PaysAt (sweepStep segments first) later))

/-- A segment crosses as many of two others whether they have exchanged their channels or not. -/
def Unseen (segments : List Segment) (pair : Axis × Nat × Nat) (s : Segment) : Prop :=
  let moved := swapChannel (segmentAt segments pair.2.1) (segmentAt segments pair.2.2) pair.1
  [moved.1, moved.2].countP (segmentsCross s) =
    [segmentAt segments pair.2.1, segmentAt segments pair.2.2].countP (segmentsCross s)

instance (segments : List Segment) (pair : Axis × Nat × Nat) (s : Segment) :
    Decidable (Unseen segments pair s) :=
  inferInstanceAs (Decidable (List.countP _ _ = List.countP _ _))

/-- The segments of a pair, in their channels and in each other's. -/
def pairSegments (segments : List Segment) (pair : Axis × Nat × Nat) : List Segment :=
  let moved := swapChannel (segmentAt segments pair.2.1) (segmentAt segments pair.2.2) pair.1
  [segmentAt segments pair.2.1, segmentAt segments pair.2.2, moved.1, moved.2]

/-- No exchange comes near a pair that is passed: only the first pairs of the horizontal bands pay,
with these exchanged only the first pairs of the vertical ones, and no horizontal pair sees those
exchanged. -/
structure SettlesOnce (segments : List Segment) : Prop where
  horiz : OnlyFirst .horiz segments
  vert : OnlyFirst .vert (firstExchanged .horiz segments)
  unseen : ∀ pair ∈ (bandPairs .vert (firstExchanged .horiz segments)).filterMap List.head?,
    PaysAt (firstExchanged .horiz segments) pair →
      ∀ passed ∈ (bandPairs .horiz (firstExchanged .horiz segments)).flatten,
        ∀ s ∈ pairSegments (firstExchanged .horiz segments) passed,
          Unseen (firstExchanged .horiz segments) pair s

theorem Rechannelled.laneBands_eq (h : Rechannelled segments out) (axis : Axis) :
    laneBands axis out = laneBands axis segments := by
  unfold laneBands
  rw [h.lane_eq]
  exact List.foldl_ext _ _ _ (fun bands i hi => by rw [h.band axis i hi])

theorem Rechannelled.bandPairs_eq (h : Rechannelled segments out) (axis : Axis) :
    bandPairs axis out = bandPairs axis segments := by
  unfold bandPairs
  rw [h.laneBands_eq]
  refine List.map_congr_left fun band hband => ?_
  rw [h.sortGroup_eq fun k hk => ((laneBands_groups axis segments band hband).mem k hk).1]

theorem sweepOrder_bands (segments : List Segment) : sweepOrder segments =
    (bandPairs .horiz segments).flatten ++ (bandPairs .vert segments).flatten := rfl

theorem Rechannelled.sweepOrder_eq (h : Rechannelled segments out) :
    sweepOrder out = sweepOrder segments := by
  rw [sweepOrder_bands, sweepOrder_bands, h.bandPairs_eq, h.bandPairs_eq]

/-- The pair a step has looked at does not pay after it. -/
theorem sweepStep_settles {segments : List Segment} {pair : Axis × Nat × Nat}
    (hpair : IsPair segments pair) : ¬ PaysAt (sweepStep segments pair) pair := by
  obtain ⟨axis, i, j⟩ := pair
  have hpair : BandPair axis segments i j := hpair
  simp only [sweepStep]
  split
  next hpays =>
    intro hagain
    simp only [PaysAt, ExchangePays, hpair.swapAt_swapAt, hpair.swapAt_lane] at hagain
    unfold ExchangePays at hpays
    omega
  next hpays => exact hpays

theorem sweepStep_refused {segments : List Segment} {pair : Axis × Nat × Nat}
    (h : ¬ PaysAt segments pair) : sweepStep segments pair = segments :=
  if_neg h

theorem sweepStep_pays {segments : List Segment} {pair : Axis × Nat × Nat}
    (hpar : ∀ s ∈ segments, s.AxisParallel) (hpair : IsPair segments pair)
    (h : PaysAt segments pair) :
    countCrossings (sweepStep segments pair) < countCrossings segments := by
  obtain ⟨axis, i, j⟩ := pair
  have hstep : sweepStep segments (axis, i, j) = swapAt axis segments i j := if_pos h
  rw [hstep]
  exact ExchangePays.countCrossings_lt h (BandPair.toPairs hpair) hpar

theorem sweepSteps_fixed_iff {pairs : List (Axis × Nat × Nat)} {segments : List Segment}
    (hpar : ∀ s ∈ segments, s.AxisParallel) (hpairs : ∀ pair ∈ pairs, IsPair segments pair) :
    pairs.foldl sweepStep segments = segments ↔ ∀ pair ∈ pairs, ¬ PaysAt segments pair := by
  induction pairs with
  | nil => simp
  | cons pair rest ih =>
    have hpair := hpairs pair (by simp)
    have hrest : ∀ other ∈ rest, IsPair segments other :=
      fun other hother => hpairs other (by simp [hother])
    by_cases hpays : PaysAt segments pair
    · have hless := sweepStep_pays hpar hpair hpays
      have hstep := sweepStep_rechannels hpair
      obtain ⟨_, hcount⟩ := sweepSteps_count (sweepStep_parallel hpar hpair)
        (fun other hother => hstep.isPair (hrest other hother))
      constructor
      · intro hsame
        rw [List.foldl_cons] at hsame
        rw [hsame] at hcount
        omega
      · intro hnone
        exact absurd hpays (hnone pair (by simp))
    · rw [List.foldl_cons, sweepStep_refused hpays, ih hrest]
      simp [hpays]

/-- A second `reduceCrossings` finds nothing to do where no pair of neighbours pays after the first. -/
theorem reduceCrossings_twice_iff {segments : List Segment}
    (h : ∀ s ∈ segments, s.AxisParallel) :
    reduceCrossings (reduceCrossings segments) = reduceCrossings segments ↔
      ∀ pair ∈ sweepOrder segments, ¬ PaysAt (reduceCrossings segments) pair := by
  obtain ⟨_, hpar, hkept⟩ := reduceCrossings_adds_none h
  rw [reduceCrossings_steps (reduceCrossings segments), hkept.sweepOrder_eq]
  exact sweepSteps_fixed_iff hpar (fun pair hpair => hkept.isPair (sweepOrder_pairs segments pair hpair))

/-- The segments of a pair, and what they cross, tell whether it pays. -/
theorem paysAt_of_crossings {i j : Nat} (hlane : ∀ other, lane other out = lane other segments)
    (hpair : Pairs axis segments i j) (hcross : ∀ s ∈ pairSegments segments (axis, i, j),
      pairCrossings s (lane axis.other segments) out =
        pairCrossings s (lane axis.other segments) segments)
    (hi : segmentAt out i = segmentAt segments i) (hj : segmentAt out j = segmentAt segments j) :
    PaysAt out (axis, i, j) ↔ PaysAt segments (axis, i, j) := by
  have hpair' := hpair.of_lane (hlane axis)
  have hswapped := pairCrossings_swapAt hpair'
  rw [hlane] at hswapped
  have hmoved := swapChannel_eq (a := segmentAt segments i) (mem_lane.mp hpair.right).2
  simp only [pairSegments, hmoved, List.forall_mem_cons] at hcross
  obtain ⟨hown, hother, hleft, hright⟩ := hcross
  simp only [PaysAt, ExchangePays, crossingsOf, hlane, hswapped, pairCrossings_swapAt hpair,
    hpair'.segmentAt_swapAt, hpair.segmentAt_swapAt, hi, hj, if_true, if_neg hpair.apart.symm,
    hown, hother, hleft, hright]

theorem paysAt_congr {i j : Nat} (hlane : ∀ other, lane other out = lane other segments)
    (hpair : Pairs axis segments i j)
    (hacross : ∀ k ∈ lane axis.other segments, segmentAt out k = segmentAt segments k)
    (hi : segmentAt out i = segmentAt segments i) (hj : segmentAt out j = segmentAt segments j) :
    PaysAt out (axis, i, j) ↔ PaysAt segments (axis, i, j) := by
  refine paysAt_of_crossings hlane hpair ?_ hi hj
  intro s _
  refine List.countP_congr fun k hk => ?_
  rw [hacross k hk]

theorem sweepStep_frame {segments : List Segment} {pair : Axis × Nat × Nat}
    (hpair : IsPair segments pair) {k : Nat} (hi : k ≠ pair.2.1) (hj : k ≠ pair.2.2) :
    segmentAt (sweepStep segments pair) k = segmentAt segments k := by
  obtain ⟨axis, i, j⟩ := pair
  have hpair : BandPair axis segments i j := hpair
  simp only [sweepStep]
  split
  next => rw [hpair.segmentAt_swapAt, if_neg hi, if_neg hj]
  next => rfl

theorem sweepSteps_frame {pairs : List (Axis × Nat × Nat)} {segments : List Segment}
    (hpairs : ∀ pair ∈ pairs, IsPair segments pair) {k : Nat}
    (hk : ∀ pair ∈ pairs, k ≠ pair.2.1 ∧ k ≠ pair.2.2) :
    segmentAt (pairs.foldl sweepStep segments) k = segmentAt segments k := by
  induction pairs generalizing segments with
  | nil => rfl
  | cons pair rest ih =>
    obtain ⟨hpair, hrest⟩ := List.forall_mem_cons.mp hpairs
    obtain ⟨hfirst, hlater⟩ := List.forall_mem_cons.mp hk
    have hstep := sweepStep_rechannels hpair
    rw [List.foldl_cons, ih (fun other hother => hstep.isPair (hrest other hother)) hlater,
      sweepStep_frame hpair hfirst.1 hfirst.2]

theorem sweepSteps_refused {pairs : List (Axis × Nat × Nat)} {segments : List Segment}
    (h : ∀ pair ∈ pairs, ¬ PaysAt segments pair) : pairs.foldl sweepStep segments = segments :=
  foldl_fixed fun pair hpair => sweepStep_refused (h pair hpair)

/-- The lists that bands of an axis are swept over, as far as the bands can tell. -/
structure SeenAs (axis : Axis) (bands : List (List (Axis × Nat × Nat)))
    (segments out : List Segment) : Prop where
  rechannelled : Rechannelled segments out
  across : ∀ k ∈ lane axis.other segments, segmentAt out k = segmentAt segments k
  along : ∀ pairs ∈ bands, ∀ pair ∈ pairs, segmentAt out pair.2.1 = segmentAt segments pair.2.1 ∧
    segmentAt out pair.2.2 = segmentAt segments pair.2.2

/-- Bands of pairs of an axis that have no segment in common. -/
structure ApartBands (axis : Axis) (bands : List (List (Axis × Nat × Nat)))
    (segments : List Segment) : Prop where
  pairs : ∀ pairs ∈ bands, ∀ pair ∈ pairs, pair.1 = axis ∧ IsPair segments pair
  apart : bands.Pairwise fun pairs others => ∀ pair ∈ pairs, ∀ other ∈ others,
    (pair.2.1 ≠ other.2.1 ∧ pair.2.1 ≠ other.2.2) ∧ pair.2.2 ≠ other.2.1 ∧ pair.2.2 ≠ other.2.2

/-- A step at a pair of the first band goes as it would from the list that the bands know. -/
theorem SeenAs.step {first : Axis × Nat × Nat} {later : List (Axis × Nat × Nat)}
    {rest : List (List (Axis × Nat × Nat))}
    (hbands : ApartBands axis ((first :: later) :: rest) segments)
    (h : SeenAs axis ((first :: later) :: rest) segments out) :
    sweepStep out first = exchangeAs segments out first ∧
      SeenAs axis rest segments (sweepStep out first) ∧
      (∀ pair ∈ first :: later, PaysAt (sweepStep out first) pair ↔
        PaysAt (sweepStep segments first) pair) := by
  obtain ⟨haxis, hpair⟩ := hbands.pairs _ List.mem_cons_self first List.mem_cons_self
  obtain ⟨own, i, j⟩ := first
  obtain rfl : own = axis := haxis
  have hpair' : BandPair own segments i j := hpair
  have hout := h.rechannelled.bandPair hpair'
  obtain ⟨hi, hj⟩ := h.along _ List.mem_cons_self _ List.mem_cons_self
  have hi : segmentAt out i = segmentAt segments i := hi
  have hj : segmentAt out j = segmentAt segments j := hj
  have hpays := paysAt_congr h.rechannelled.lane_eq hpair'.toPairs h.across hi hj
  have hmoved : ∀ k, k ≠ i → k ≠ j → segmentAt (sweepStep out (own, i, j)) k = segmentAt out k :=
    fun k hki hkj => @sweepStep_frame out (own, i, j) hout k hki hkj
  have hstep : sweepStep out (own, i, j) = exchangeAs segments out (own, i, j) := by
    by_cases hyes : PaysAt segments (own, i, j)
    · exact (if_pos (hpays.mpr hyes)).trans (if_pos hyes).symm
    · exact (if_neg (fun hno => hyes (hpays.mp hno))).trans (if_neg hyes).symm
  have hrechannelled := h.rechannelled.trans (sweepStep_rechannels (h.rechannelled.isPair hpair))
  have hacross : ∀ k ∈ lane own.other segments,
      segmentAt (sweepStep out (own, i, j)) k = segmentAt segments k := by
    intro k hk
    obtain ⟨hki, hkj⟩ := hpair'.ne_of_other (lane_apart hk)
    rw [hmoved k hki hkj, h.across k hk]
  -- the two lists agree on the band of the pair, after the step too
  have hband : ∀ k, segmentAt out k = segmentAt segments k →
      segmentAt (sweepStep out (own, i, j)) k = segmentAt (sweepStep segments (own, i, j)) k := by
    intro k hk
    by_cases hyes : PaysAt segments (own, i, j)
    · have hleft : sweepStep out (own, i, j) = swapAt own out i j := if_pos (hpays.mpr hyes)
      have hright : sweepStep segments (own, i, j) = swapAt own segments i j := if_pos hyes
      rw [hleft, hright, hout.segmentAt_swapAt, hpair'.segmentAt_swapAt, hi, hj, hk]
    · rw [sweepStep_refused hyes, sweepStep_refused (fun hno => hyes (hpays.mp hno)), hk]
  refine ⟨hstep, ⟨hrechannelled, hacross, ?_⟩, ?_⟩
  · intro pairs hpairs other hother
    obtain ⟨hleft, hright⟩ := h.along pairs (List.mem_cons_of_mem _ hpairs) other hother
    obtain ⟨hii, hji⟩ := (List.pairwise_cons.mp hbands.apart).1 pairs hpairs _ List.mem_cons_self
      other hother
    exact ⟨(hmoved _ (Ne.symm hii.1) (Ne.symm hji.1)).trans hleft,
      (hmoved _ (Ne.symm hii.2) (Ne.symm hji.2)).trans hright⟩
  · intro pair hmem
    obtain ⟨hsame, hother⟩ := hbands.pairs _ List.mem_cons_self pair hmem
    obtain ⟨hleft, hright⟩ := h.along _ List.mem_cons_self pair hmem
    obtain ⟨own', a, b⟩ := pair
    obtain rfl : own' = own := hsame
    have hknown := sweepStep_rechannels hpair
    have hlane : ∀ axis, lane axis (sweepStep out (own', i, j)) =
        lane axis (sweepStep segments (own', i, j)) := fun axis =>
      (hrechannelled.lane_eq axis).trans (hknown.lane_eq axis).symm
    refine paysAt_congr hlane (hknown.bandPair hother).toPairs ?_ (hband a hleft) (hband b hright)
    intro k hk
    rw [hknown.lane_eq] at hk
    obtain ⟨hki, hkj⟩ := hpair'.ne_of_other (lane_apart hk)
    rw [hacross k hk, @sweepStep_frame segments (own', i, j) hpair' k hki hkj]

/-- The sweep of some bands leaves the segments of no pair of theirs as they are. -/
theorem ApartBands.frame {bands : List (List (Axis × Nat × Nat))}
    (hbands : ApartBands axis bands segments) (h : Rechannelled segments out) {k : Nat}
    (hk : ∀ pairs ∈ bands, ∀ pair ∈ pairs, k ≠ pair.2.1 ∧ k ≠ pair.2.2) :
    segmentAt (bands.flatten.foldl sweepStep out) k = segmentAt out k := by
  refine sweepSteps_frame ?_ ?_
  · intro pair hpair
    obtain ⟨pairs, hpairs, hmem⟩ := List.mem_flatten.mp hpair
    exact h.isPair (hbands.pairs pairs hpairs pair hmem).2
  · intro pair hpair
    obtain ⟨pairs, hpairs, hmem⟩ := List.mem_flatten.mp hpair
    exact hk pairs hpairs pair hmem

theorem ApartBands.across {bands : List (List (Axis × Nat × Nat))}
    (hbands : ApartBands axis bands segments) (h : Rechannelled segments out) {k : Nat}
    (hk : k ∈ lane axis.other segments) :
    segmentAt (bands.flatten.foldl sweepStep out) k = segmentAt out k := by
  refine hbands.frame h fun pairs hpairs pair hpair => ?_
  obtain ⟨hsame, hown⟩ := hbands.pairs pairs hpairs pair hpair
  obtain ⟨own, i, j⟩ := pair
  obtain rfl : own = axis := hsame
  have hown : BandPair own segments i j := hown
  exact hown.ne_of_other (lane_apart hk)

/-- The sweeps over bands in which only the first pairs pay: these are exchanged, and no pair pays
after them. -/
theorem ApartBands.swept {bands : List (List (Axis × Nat × Nat))}
    (hbands : ApartBands axis bands segments)
    (honly : ∀ pairs ∈ bands, ∀ first ∈ pairs.head?, ∀ later ∈ pairs.tail,
      ¬ PaysAt (sweepStep segments first) later) (h : SeenAs axis bands segments out) :
    bands.flatten.foldl sweepStep out =
        (bands.filterMap List.head?).foldl (exchangeAs segments) out ∧
      ∀ pairs ∈ bands, ∀ pair ∈ pairs, ¬ PaysAt (bands.flatten.foldl sweepStep out) pair := by
  induction bands generalizing out with
  | nil => exact ⟨rfl, fun pairs h => absurd h List.not_mem_nil⟩
  | cons pairs rest ih =>
    obtain ⟨hpairs, hpairsRest⟩ := List.forall_mem_cons.mp hbands.pairs
    obtain ⟨hapart, hapartRest⟩ := List.pairwise_cons.mp hbands.apart
    obtain ⟨hfirst, honlyRest⟩ := List.forall_mem_cons.mp honly
    have hrest : ApartBands axis rest segments := ⟨hpairsRest, hapartRest⟩
    cases pairs with
    | nil =>
      obtain ⟨hfold, hsettled⟩ := ih hrest honlyRest
        ⟨h.rechannelled, h.across, fun pairs hmem => h.along pairs (List.mem_cons_of_mem _ hmem)⟩
      refine ⟨hfold, List.forall_mem_cons.mpr ⟨?_, hsettled⟩⟩
      exact fun pair hpair => absurd hpair List.not_mem_nil
    | cons first later =>
      obtain ⟨hstep, hseen, hsame⟩ := h.step hbands
      obtain ⟨hfold, hsettled⟩ := ih hrest honlyRest hseen
      have hrefused : ∀ pair ∈ later, ¬ PaysAt (sweepStep out first) pair := fun pair hpair hpays =>
        hfirst first rfl pair hpair ((hsame pair (List.mem_cons_of_mem _ hpair)).mp hpays)
      have hlast : ((first :: later) :: rest).flatten.foldl sweepStep out =
          rest.flatten.foldl sweepStep (sweepStep out first) := by
        rw [List.flatten_cons, List.foldl_append, List.foldl_cons, sweepSteps_refused hrefused]
      rw [hlast]
      refine ⟨?_, List.forall_mem_cons.mpr ⟨?_, hsettled⟩⟩
      · rw [hfold, hstep]
        rfl
      · intro pair hpair
        have hnone : ¬ PaysAt (sweepStep out first) pair := by
          rcases List.mem_cons.mp hpair with rfl | hlater
          · exact sweepStep_settles (h.rechannelled.isPair (hpairs pair hpair).2)
          · exact hrefused pair hlater
        have hsteps : ∀ other ∈ rest.flatten, IsPair (sweepStep out first) other := by
          intro other hother
          obtain ⟨others, hothers, hmem⟩ := List.mem_flatten.mp hother
          exact hseen.rechannelled.isPair (hpairsRest others hothers other hmem).2
        obtain ⟨haxis, hown⟩ := hpairs pair hpair
        obtain ⟨own, i, j⟩ := pair
        obtain rfl : own = axis := haxis
        have hown : BandPair own segments i j := hown
        have hmid := hseen.rechannelled.bandPair hown
        have hlanes := (sweepSteps_rechannel hsteps).lane_eq
        refine fun hpays => hnone ((paysAt_congr hlanes hmid.toPairs ?_ ?_ ?_).mp hpays)
        · intro k hk
          rw [hseen.rechannelled.lane_eq] at hk
          exact hrest.across hseen.rechannelled hk
        · exact hrest.frame hseen.rechannelled fun others hothers other hmem =>
            (hapart others hothers _ hpair other hmem).1
        · exact hrest.frame hseen.rechannelled fun others hothers other hmem =>
            (hapart others hothers _ hpair other hmem).2

theorem mem_neighbours {group : List Nat} {pair : Axis × Nat × Nat}
    (h : pair ∈ neighbours axis group) :
    pair.1 = axis ∧ pair.2.1 ∈ group ∧ pair.2.2 ∈ group := by
  obtain ⟨⟨i, j⟩, hmem, rfl⟩ := List.mem_map.mp h
  obtain ⟨hi, hj⟩ := List.of_mem_zip hmem
  exact ⟨rfl, hi, List.mem_of_mem_tail hj⟩

theorem pushBand_keys (band : Int) (i : Nat) (bands : List (Int × List Nat)) :
    (pushBand band i bands).map Prod.fst = if band ∈ bands.map Prod.fst then bands.map Prod.fst
      else bands.map Prod.fst ++ [band] := by
  induction bands with
  | nil => rfl
  | cons head rest ih =>
    obtain ⟨other, arr⟩ := head
    rw [pushBand]
    by_cases heq : other = band
    · simp [heq]
    · have hne : band ≠ other := Ne.symm heq
      rw [if_neg heq, List.map_cons, ih]
      by_cases hmem : band ∈ rest.map Prod.fst
      · simp [hmem]
      · simp [hmem, hne]

theorem laneBands_keys (axis : Axis) (segments : List Segment) :
    ((laneBands axis segments).map Prod.fst).Nodup := by
  unfold laneBands
  generalize lane axis segments = indices
  suffices h : ∀ bands : List (Int × List Nat), (bands.map Prod.fst).Nodup →
      ((indices.foldl (fun bands i => pushBand (laneBand axis (segmentAt segments i)) i bands)
        bands).map Prod.fst).Nodup from h [] List.nodup_nil
  induction indices with
  | nil => exact fun bands h => h
  | cons i rest ih =>
    intro bands h
    refine ih _ ?_
    rw [pushBand_keys]
    split
    next => exact h
    next hnew => exact h.append (List.nodup_singleton _) (by simpa using hnew)

theorem bandPairs_apart (axis : Axis) (segments : List Segment) :
    ApartBands axis (bandPairs axis segments) segments := by
  have hgroups := laneBands_groups axis segments
  constructor
  · intro pairs hpairs pair hpair
    obtain ⟨band, hband, rfl⟩ := List.mem_map.mp hpairs
    exact ⟨(mem_neighbours hpair).1, (hgroups band hband).sorted.neighbours pair hpair⟩
  · refine List.pairwise_map.mpr ?_
    refine (List.pairwise_map.mp (laneBands_keys axis segments)).imp_of_mem ?_
    intro band other hband hother hne pair hpair held hheld
    obtain ⟨-, hi, hj⟩ := mem_neighbours hpair
    obtain ⟨-, hi', hj'⟩ := mem_neighbours hheld
    have hdiffer : ∀ k ∈ sortGroup axis segments band.2,
        ∀ k' ∈ sortGroup axis segments other.2, k ≠ k' := by
      rintro k hk k' hk' rfl
      exact hne (((hgroups band hband).sorted.mem k hk).2.symm.trans
        ((hgroups other hother).sorted.mem k hk').2)
    exact ⟨⟨hdiffer _ hi _ hi', hdiffer _ hi _ hj'⟩, hdiffer _ hj _ hi', hdiffer _ hj _ hj'⟩

/-- The sweeps over the bands of one axis where only the first pairs pay. -/
theorem OnlyFirst.swept {segments : List Segment} (h : OnlyFirst axis segments) :
    (bandPairs axis segments).flatten.foldl sweepStep segments = firstExchanged axis segments ∧
      ∀ pair ∈ (bandPairs axis segments).flatten, ¬ PaysAt (firstExchanged axis segments) pair := by
  obtain ⟨hfold, hsettled⟩ := (bandPairs_apart axis segments).swept h
    ⟨.refl segments, fun _ _ => rfl, fun _ _ _ _ => ⟨rfl, rfl⟩⟩
  refine ⟨hfold, fun pair hpair => ?_⟩
  obtain ⟨pairs, hpairs, hmem⟩ := List.mem_flatten.mp hpair
  have hnone := hsettled pairs hpairs pair hmem
  rwa [hfold] at hnone

theorem OnlyFirst.rechannels {segments : List Segment} (h : OnlyFirst axis segments) :
    Rechannelled segments (firstExchanged axis segments) := by
  rw [← h.swept.1]
  refine sweepSteps_rechannel fun pair hpair => ?_
  obtain ⟨pairs, hpairs, hmem⟩ := List.mem_flatten.mp hpair
  exact ((bandPairs_apart axis segments).pairs pairs hpairs pair hmem).2

/-- An exchange that a segment does not see leaves its crossings. -/
theorem Unseen.pairCrossings_swapAt {i j : Nat} {s : Segment} (h : Unseen segments (axis, i, j) s)
    (hpair : Pairs axis out i j) (hi : segmentAt out i = segmentAt segments i)
    (hj : segmentAt out j = segmentAt segments j) :
    pairCrossings s (lane axis out) (swapAt axis out i j) =
      pairCrossings s (lane axis out) out := by
  have hnodup := lane_nodup axis out
  have hmem : j ∈ (lane axis out).erase i := (List.mem_erase_of_ne hpair.apart.symm).mpr hpair.right
  have hperm : (lane axis out).Perm ([i, j] ++ ((lane axis out).erase i).erase j) :=
    (List.perm_cons_erase hpair.left).trans ((List.perm_cons_erase hmem).cons i)
  have hrest : (((lane axis out).erase i).erase j).countP
        (fun k => segmentsCross s (segmentAt (swapAt axis out i j) k)) =
      (((lane axis out).erase i).erase j).countP (fun k => segmentsCross s (segmentAt out k)) := by
    refine List.countP_congr fun k hk => ?_
    have hkj : k ≠ j := ((hnodup.erase i).mem_erase_iff.mp hk).1
    have hki : k ≠ i := (hnodup.mem_erase_iff.mp ((hnodup.erase i).mem_erase_iff.mp hk).2).1
    rw [hpair.segmentAt_swapAt, if_neg hki, if_neg hkj]
  have hleft : segmentAt (swapAt axis out i j) i =
      (segmentAt segments i).onChannel ((segmentAt segments j).channel axis) axis := by
    rw [hpair.segmentAt_swapAt, if_pos rfl, hi, hj]
  have hright : segmentAt (swapAt axis out i j) j =
      (segmentAt segments j).onChannel ((segmentAt segments i).channel axis) axis := by
    rw [hpair.segmentAt_swapAt, if_neg hpair.apart.symm, if_pos rfl, hi, hj]
  have hruns : (segmentAt segments j).runs axis := hj ▸ (mem_lane.mp hpair.right).2
  have hsame := h
  simp only [Unseen, swapChannel_eq hruns] at hsame
  unfold pairCrossings
  rw [hperm.countP_eq, hperm.countP_eq, List.countP_append, List.countP_append, hrest]
  congr 1
  simp only [List.countP_cons, List.countP_nil] at hsame ⊢
  rw [hleft, hright, hi, hj]
  exact hsame

/-- The exchanges of the first pairs leave the crossings of a segment that sees none of them. -/
theorem SeenAs.exchanges_unseen {bands : List (List (Axis × Nat × Nat))}
    (h : SeenAs axis bands segments out) (hbands : ApartBands axis bands segments) {s : Segment}
    (hs : ∀ pair ∈ bands.filterMap List.head?, PaysAt segments pair → Unseen segments pair s) :
    pairCrossings s (lane axis segments)
        ((bands.filterMap List.head?).foldl (exchangeAs segments) out) =
      pairCrossings s (lane axis segments) out := by
  induction bands generalizing out with
  | nil => rfl
  | cons pairs rest ih =>
    have hrest : ApartBands axis rest segments :=
      ⟨(List.forall_mem_cons.mp hbands.pairs).2, (List.pairwise_cons.mp hbands.apart).2⟩
    cases pairs with
    | nil =>
      exact ih ⟨h.rechannelled, h.across,
        fun pairs hmem => h.along pairs (List.mem_cons_of_mem _ hmem)⟩ hrest hs
    | cons first later =>
      have hsplit : ((first :: later) :: rest).filterMap List.head? =
          first :: rest.filterMap List.head? := rfl
      rw [hsplit] at hs ⊢
      obtain ⟨hstep, hseen, -⟩ := h.step hbands
      rw [hstep] at hseen
      obtain ⟨hfirst, hlater⟩ := List.forall_mem_cons.mp hs
      rw [List.foldl_cons, ih hseen hrest hlater]
      obtain ⟨haxis, hpair⟩ := hbands.pairs _ List.mem_cons_self first List.mem_cons_self
      obtain ⟨hi, hj⟩ := h.along _ List.mem_cons_self first List.mem_cons_self
      obtain ⟨own, i, j⟩ := first
      obtain rfl : own = axis := haxis
      unfold exchangeAs
      split
      next hpays =>
        have hsame := (hfirst hpays).pairCrossings_swapAt (h.rechannelled.bandPair hpair).toPairs hi hj
        rwa [h.rechannelled.lane_eq] at hsame
      next => rfl

/-- `reduceCrossings` is idempotent where no exchange comes near a pair that is passed. -/
theorem reduceCrossings_idempotent {segments : List Segment}
    (hpar : ∀ s ∈ segments, s.AxisParallel) (h : SettlesOnce segments) :
    reduceCrossings (reduceCrossings segments) = reduceCrossings segments := by
  obtain ⟨hhoriz, hsettled⟩ := h.horiz.swept
  obtain ⟨hvert, hlast⟩ := h.vert.swept
  have hfirst := h.horiz.rechannels
  have hsecond := h.vert.rechannels
  have hreduced : reduceCrossings segments =
      firstExchanged .vert (firstExchanged .horiz segments) := by
    rw [reduceCrossings_steps, sweepOrder_bands, List.foldl_append, hhoriz, ← hfirst.bandPairs_eq, hvert]
  rw [reduceCrossings_twice_iff hpar, hreduced]
  intro pair hpair
  rw [sweepOrder_bands] at hpair
  rcases List.mem_append.mp hpair with hpassed | hmem
  · have hapart := bandPairs_apart .vert (firstExchanged .horiz segments)
    obtain ⟨pairs, hpairs, hmem⟩ := List.mem_flatten.mp hpassed
    obtain ⟨haxis, hisPair⟩ := (bandPairs_apart .horiz segments).pairs pairs hpairs pair hmem
    obtain ⟨axis, i, j⟩ := pair
    obtain rfl : axis = .horiz := haxis
    have hisPair := hfirst.bandPair hisPair
    have hframe : ∀ k ∈ lane .horiz (firstExchanged .horiz segments),
        segmentAt (firstExchanged .vert (firstExchanged .horiz segments)) k =
          segmentAt (firstExchanged .horiz segments) k := by
      intro k hk
      rw [← hvert]
      exact hapart.across (.refl _) hk
    refine fun hpays => hsettled _ hpassed ((paysAt_of_crossings hsecond.lane_eq hisPair.toPairs ?_
      (hframe i hisPair.left) (hframe j hisPair.right)).mp hpays)
    intro s hs
    refine SeenAs.exchanges_unseen ⟨.refl _, fun _ _ => rfl, fun _ _ _ _ => ⟨rfl, rfl⟩⟩ hapart ?_
    intro other hother hpays
    exact h.unseen other hother hpays (.horiz, i, j) (by rwa [hfirst.bandPairs_eq]) s hs
  · rw [← hfirst.bandPairs_eq] at hmem
    exact hlast pair hmem

/-- Two horizontal neighbours that are better exchanged, and two vertical ones far from them. -/
def crossedLanes : List Segment :=
  [{ x1 := 0, y1 := 2, x2 := 6, y2 := 2 }, { x1 := 4, y1 := 8, x2 := 10, y2 := 8 },
    { x1 := 2, y1 := 0, x2 := 2, y2 := 4 }, { x1 := 8, y1 := 6, x2 := 8, y2 := 10 },
    { x1 := 100, y1 := 100, x2 := 100, y2 := 110 }, { x1 := 104, y1 := 115, x2 := 104, y2 := 120 },
    { x1 := 98, y1 := 105, x2 := 102, y2 := 105 }, { x1 := 102, y1 := 117, x2 := 106, y2 := 117 }]

theorem crossedLanes_parallel : ∀ s ∈ crossedLanes, s.AxisParallel := by
  intro s hs
  simp only [crossedLanes, List.mem_cons, List.not_mem_nil, or_false] at hs
  rcases hs with rfl | rfl | rfl | rfl | rfl | rfl | rfl | rfl <;> simp [Segment.AxisParallel]

/-- Both exchanges are made, and a second run makes none. -/
theorem crossed_lanes_reduced_once :
    (segmentAt (reduceCrossings crossedLanes) 0).y1 = 8 ∧
      (segmentAt (reduceCrossings crossedLanes) 4).x1 = 104 ∧
      reduceCrossings (reduceCrossings crossedLanes) = reduceCrossings crossedLanes :=
  ⟨by decide +kernel, by decide +kernel, reduceCrossings_idempotent crossedLanes_parallel
    ⟨by decide +kernel, by decide +kernel, by decide +kernel⟩⟩

/-- With `threeLanes` the second run exchanges the first two neighbours of the band. -/
theorem threeLanes_reduced_again : ¬ ∀ segments : List Segment,
    (∀ s ∈ segments, s.AxisParallel) →
      reduceCrossings (reduceCrossings segments) = reduceCrossings segments := by
  intro hall
  exact absurd (hall threeLanes threeLanes_parallel) (by decide +kernel)

end NovaVe
