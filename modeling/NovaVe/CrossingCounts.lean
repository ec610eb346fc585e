import Mathlib.Logic.Equiv.Basic
import NovaVe.LaneSweeps

namespace NovaVe

variable {axis : Axis} {segments : List Segment} {i j : Nat}

def Segment.AxisParallel (s : Segment) : Prop := s.y1 = s.y2 ∨ s.x1 = s.x2

/-- Both coordinates of a segment along `axis`. -/
def Segment.extent (s : Segment) : Axis → ℚ × ℚ
  | .horiz => (s.x1, s.x2)
  | .vert => (s.y1, s.y2)

/-- A segment moved to another channel. -/
def Segment.onChannel (s : Segment) (c : ℚ) : Axis → Segment
  | .horiz => { s with y1 := c, y2 := c }
  | .vert => { s with x1 := c, x2 := c }

theorem Segment.onChannel_channel (s : Segment) (c : ℚ) (axis : Axis) :
    (s.onChannel c axis).channel axis = c := by
  cases axis <;> rfl

theorem Segment.onChannel_extent (s : Segment) (c : ℚ) (axis : Axis) :
    (s.onChannel c axis).extent axis = s.extent axis := by
  cases axis <;> rfl

theorem Segment.onChannel_runs {s : Segment} (h : s.runs axis) (c : ℚ) (other : Axis) :
    (s.onChannel c axis).runs other = s.runs other := by
  cases axis <;> cases other <;> simp_all [Segment.runs, Segment.onChannel]

theorem Segment.onChannel_onChannel (s : Segment) (c d : ℚ) (axis : Axis) :
    (s.onChannel c axis).onChannel d axis = s.onChannel d axis := by
  cases axis <;> rfl

theorem Segment.onChannel_same {s : Segment} (h : s.runs axis) :
    s.onChannel (s.channel axis) axis = s := by
  obtain ⟨x1, y1, x2, y2⟩ := s
  cases axis
  · have hy : y1 = y2 := by simpa [Segment.runs] using h
    simp [Segment.onChannel, Segment.channel, hy]
  · have hx : x1 = x2 := (by simpa [Segment.runs] using h : _ ∧ _).2
    simp [Segment.onChannel, Segment.channel, hx]

theorem Segment.runs_unique {s : Segment} {axis other : Axis} (h : s.runs axis) (h' : s.runs other) :
    other = axis := by
  cases axis <;> cases other <;> simp_all [Segment.runs]

theorem Segment.axisParallel_iff (s : Segment) : s.AxisParallel ↔ ∃ axis, s.runs axis := by
  constructor
  · intro h
    by_cases hy : s.y1 = s.y2
    · exact ⟨.horiz, by simpa [Segment.runs] using hy⟩
    · exact ⟨.vert, by simpa [Segment.runs, hy] using h.resolve_left hy⟩
  · rintro ⟨axis, h⟩
    cases axis
    · exact .inl (by simpa [Segment.runs] using h)
    · simp only [Segment.runs, Bool.and_eq_true] at h
      exact .inr (of_decide_eq_true h.2)

theorem swapChannel_eq {a b : Segment} (hb : b.runs axis) :
    swapChannel a b axis = (a.onChannel (b.channel axis) axis, b.onChannel (a.channel axis) axis) := by
  cases axis
  · have hy : b.y1 = b.y2 := by simpa [Segment.runs] using hb
    simp [swapChannel, Segment.onChannel, Segment.channel, hy]
  · have hx : b.x1 = b.x2 := (by simpa [Segment.runs] using hb : _ ∧ _).2
    simp [swapChannel, Segment.onChannel, Segment.channel, hx]

theorem mem_lane {i : Nat} :
    i ∈ lane axis segments ↔ i < segments.length ∧ (segmentAt segments i).runs axis := by
  simp [lane]

theorem lane_nodup (axis : Axis) (segments : List Segment) : (lane axis segments).Nodup :=
  List.nodup_range.filter _

theorem segmentAt_set {i : Nat} (hi : i < segments.length) (s : Segment) (k : Nat) :
    segmentAt (segments.set i s) k = if k = i then s else segmentAt segments k := by
  unfold segmentAt
  rw [List.getD_eq_getElem?_getD, List.getD_eq_getElem?_getD, List.getElem?_set]
  by_cases hk : k = i
  · simp [hk, hi]
  · simp [hk, Ne.symm hk]

theorem segments_ext {a b : List Segment} (hlen : a.length = b.length)
    (h : ∀ k, segmentAt a k = segmentAt b k) : a = b := by
  apply List.ext_getElem hlen
  intro k hk hk'
  have hh := h k
  unfold segmentAt at hh
  rwa [List.getD_eq_getElem?_getD, List.getD_eq_getElem?_getD, List.getElem?_eq_getElem hk,
    List.getElem?_eq_getElem hk', Option.getD_some, Option.getD_some] at hh

/-- The exchange of channels by one pair. -/
structure Pairs (axis : Axis) (segments : List Segment) (i j : Nat) : Prop where
  left : i ∈ lane axis segments
  right : j ∈ lane axis segments
  apart : i ≠ j

theorem Pairs.segmentAt_swapAt (h : Pairs axis segments i j) (k : Nat) :
    segmentAt (swapAt axis segments i j) k =
      if k = i then (segmentAt segments i).onChannel ((segmentAt segments j).channel axis) axis
      else if k = j then (segmentAt segments j).onChannel ((segmentAt segments i).channel axis) axis
      else segmentAt segments k := by
  obtain ⟨hi, _⟩ := mem_lane.mp h.left
  obtain ⟨hj, hruns⟩ := mem_lane.mp h.right
  unfold swapAt
  rw [swapChannel_eq hruns, segmentAt_set (by simpa using hj), segmentAt_set hi]
  by_cases hki : k = i
  · rw [if_neg (by rw [hki]; exact h.apart), if_pos hki, if_pos hki]
  · rw [if_neg hki]
    by_cases hkj : k = j
    · rw [if_pos hkj, if_neg hki]
    · rw [if_neg hkj, if_neg hki]

theorem swapAt_length (axis : Axis) (segments : List Segment) (i j : Nat) :
    (swapAt axis segments i j).length = segments.length := by
  simp [swapAt]

/-- The channels of the swapped list are those of the list, at the swapped positions. -/
theorem Pairs.swapAt_channel (h : Pairs axis segments i j) (k : Nat) :
    (segmentAt (swapAt axis segments i j) k).channel axis =
      (segmentAt segments (Equiv.swap i j k)).channel axis := by
  rw [h.segmentAt_swapAt]
  by_cases hki : k = i
  · rw [if_pos hki, Segment.onChannel_channel, hki, Equiv.swap_apply_left]
  · rw [if_neg hki]
    by_cases hkj : k = j
    · rw [if_pos hkj, Segment.onChannel_channel, hkj, Equiv.swap_apply_right]
    · rw [if_neg hkj, Equiv.swap_apply_of_ne_of_ne hki hkj]

theorem Pairs.swapAt_runs (h : Pairs axis segments i j) (k : Nat) (other : Axis) :
    (segmentAt (swapAt axis segments i j) k).runs other = (segmentAt segments k).runs other := by
  rw [h.segmentAt_swapAt]
  by_cases hki : k = i
  · rw [if_pos hki, hki, Segment.onChannel_runs (mem_lane.mp h.left).2]
  · rw [if_neg hki]
    by_cases hkj : k = j
    · rw [if_pos hkj, hkj, Segment.onChannel_runs (mem_lane.mp h.right).2]
    · rw [if_neg hkj]

theorem Pairs.swapAt_lane (h : Pairs axis segments i j) (other : Axis) :
    lane other (swapAt axis segments i j) = lane other segments := by
  unfold lane
  rw [swapAt_length]
  exact List.filter_congr (fun k _ => h.swapAt_runs k other)

theorem Pairs.of_lane {segments out : List Segment} (h : Pairs axis segments i j)
    (hlane : lane axis out = lane axis segments) :
    Pairs axis out i j where
  left := hlane ▸ h.left
  right := hlane ▸ h.right
  apart := h.apart

/-- The reversal of a swap by the same swap. -/
theorem Pairs.swapAt_swapAt (h : Pairs axis segments i j) :
    swapAt axis (swapAt axis segments i j) i j = segments := by
  have hagain := h.of_lane (h.swapAt_lane axis)
  apply segments_ext
  · rw [swapAt_length, swapAt_length]
  · intro k
    have hleft := h.swapAt_channel i
    rw [Equiv.swap_apply_left] at hleft
    have hright := h.swapAt_channel j
    rw [Equiv.swap_apply_right] at hright
    rw [hagain.segmentAt_swapAt, hleft, hright]
    by_cases hki : k = i
    · rw [if_pos hki, h.segmentAt_swapAt, if_pos rfl, Segment.onChannel_onChannel,
        Segment.onChannel_same (mem_lane.mp h.left).2, hki]
    · rw [if_neg hki]
      by_cases hkj : k = j
      · rw [if_pos hkj, h.segmentAt_swapAt, if_neg h.apart.symm, if_pos rfl,
          Segment.onChannel_onChannel, Segment.onChannel_same (mem_lane.mp h.right).2, hkj]
      · rw [if_neg hkj, h.segmentAt_swapAt, if_neg hki, if_neg hkj]

theorem Pairs.ne_of_other (h : Pairs axis segments i j) {k : Nat} (hk : k ∉ lane axis segments) :
    k ≠ i ∧ k ≠ j := by
  constructor
  · rintro rfl
    exact hk h.left
  · rintro rfl
    exact hk h.right

/-- The segments that do not run along the axis are where they were. -/
theorem Pairs.swapAt_other (h : Pairs axis segments i j) {k : Nat} (hk : k ∉ lane axis segments) :
    segmentAt (swapAt axis segments i j) k = segmentAt segments k := by
  obtain ⟨hki, hkj⟩ := h.ne_of_other hk
  rw [h.segmentAt_swapAt, if_neg hki, if_neg hkj]

theorem Pairs.swapAt_extent (h : Pairs axis segments i j) {k : Nat} {other : Axis}
    (hk : k ∈ lane other segments) :
    (segmentAt (swapAt axis segments i j) k).extent other = (segmentAt segments k).extent other := by
  by_cases hmem : k ∈ lane axis segments
  · have hsame := Segment.runs_unique (mem_lane.mp hmem).2 (mem_lane.mp hk).2
    subst hsame
    rw [h.segmentAt_swapAt]
    by_cases hki : k = i
    · rw [if_pos hki, hki, Segment.onChannel_extent]
    · rw [if_neg hki]
      by_cases hkj : k = j
      · rw [if_pos hkj, hkj, Segment.onChannel_extent]
      · rw [if_neg hkj]
  · rw [h.swapAt_other hmem]

theorem lane_apart {k : Nat} (hk : k ∈ lane axis.other segments) : k ∉ lane axis segments := by
  intro hmem
  have hsame := Segment.runs_unique (mem_lane.mp hmem).2 (mem_lane.mp hk).2
  cases axis <;> exact absurd hsame (by decide)

theorem sum_countP_comm {α β : Type} (r : α → β → Bool) (as : List α) (bs : List β) :
    (as.map (fun a => bs.countP (r a))).sum = (bs.map (fun b => as.countP (r · b))).sum := by
  induction as with
  | nil => simp
  | cons a as ih =>
    have hhead : (bs.map (fun b => (a :: as).countP (r · b))).sum =
        bs.countP (r a) + (bs.map (fun b => as.countP (r · b))).sum := by
      clear ih
      induction bs with
      | nil => rfl
      | cons b bs ih =>
        rw [List.map_cons, List.sum_cons, ih, List.countP_cons, List.countP_cons, List.map_cons,
          List.sum_cons]
        omega
    rw [List.map_cons, List.sum_cons, ih, hhead]

theorem segmentsCross_comm (a b : Segment) : segmentsCross a b = segmentsCross b a := by
  unfold segmentsCross
  by_cases ha : a.y1 = a.y2 <;> by_cases hb : b.y1 = b.y2 <;> simp [ha, hb]

theorem segmentsCross_runs {a b : Segment} (ha : a.runs axis) (hb : b.runs axis) :
    segmentsCross a b = false := by
  unfold segmentsCross
  cases axis <;> simp_all [Segment.runs]

theorem countCrossings_twice (segments : List Segment) :
    (segments.map (fun a => segments.countP (segmentsCross a))).sum = 2 * countCrossings segments := by
  induction segments with
  | nil => rfl
  | cons s rest ih =>
    have hself : segmentsCross s s = false := by simp [segmentsCross]
    have hsplit : (rest.map (fun a => (s :: rest).countP (segmentsCross a))).sum =
        rest.countP (segmentsCross s) + (rest.map (fun a => rest.countP (segmentsCross a))).sum := by
      have hswap := sum_countP_comm segmentsCross rest (s :: rest)
      rw [hswap, List.map_cons, List.sum_cons, ← sum_countP_comm]
      congr 1
      exact List.countP_congr (fun a _ => by rw [segmentsCross_comm])
    rw [List.map_cons, List.sum_cons, hsplit, ih, List.countP_cons, hself, countCrossings]
    simp only [Bool.false_eq_true, if_false]
    omega

theorem segments_at (segments : List Segment) :
    (List.range segments.length).map (segmentAt segments) = segments := by
  apply List.ext_getElem
  · simp
  · intro k hk hk'
    rw [List.getElem_map, List.getElem_range, segmentAt, List.getD_eq_getElem?_getD,
      List.getElem?_eq_getElem hk', Option.getD_some]

theorem segmentAt_mem {k : Nat} (hk : k < segments.length) :
    segmentAt segments k ∈ segments := by
  rw [← segments_at segments]
  simpa using ⟨k, hk, by rw [segments_at]⟩

/-- Axis-parallel segments fall into the two lanes. -/
theorem lanes_perm (h : ∀ s ∈ segments, s.AxisParallel) (axis : Axis) :
    (lane axis segments ++ lane axis.other segments).Perm (List.range segments.length) := by
  have hother : lane axis.other segments =
      (List.range segments.length).filter (fun k => !(segmentAt segments k).runs axis) := by
    apply List.filter_congr
    intro k hk
    obtain ⟨own, hown⟩ :=
      (Segment.axisParallel_iff _).mp (h _ (segmentAt_mem (List.mem_range.mp hk)))
    by_cases hruns : (segmentAt segments k).runs axis
    · have hne : (segmentAt segments k).runs axis.other = false := by
        by_contra hcon
        have hsame := Segment.runs_unique hruns (by simpa using hcon)
        cases axis <;> exact absurd hsame (by decide)
      rw [hne, hruns]
      rfl
    · have howner : own = axis.other := by
        cases axis <;> cases own <;> first | rfl | exact absurd hown hruns
      rw [← howner, hown, Bool.not_eq_true _ |>.mp hruns]
      rfl
  rw [hother]
  exact List.filter_append_perm _ _

/-- The crossings of the segments of one axis with those of the other. -/
def laneCrossings (axis : Axis) (segments : List Segment) : Nat :=
  ((lane axis segments).map
    (fun i => pairCrossings (segmentAt segments i) (lane axis.other segments) segments)).sum

theorem countP_lane (h : ∀ s ∈ segments, s.AxisParallel) {i : Nat} (hi : i ∈ lane axis segments) :
    segments.countP (segmentsCross (segmentAt segments i)) =
      pairCrossings (segmentAt segments i) (lane axis.other segments) segments := by
  have hall : segments.countP (segmentsCross (segmentAt segments i)) =
      (List.range segments.length).countP
        (fun k => segmentsCross (segmentAt segments i) (segmentAt segments k)) := by
    conv_lhs => rw [← segments_at segments, List.countP_map]
    rw [segments_at]
    rfl
  have hown : (lane axis segments).countP
      (fun k => segmentsCross (segmentAt segments i) (segmentAt segments k)) = 0 := by
    rw [List.countP_eq_zero]
    intro k hk
    simp [segmentsCross_runs (mem_lane.mp hi).2 (mem_lane.mp hk).2]
  rw [hall, ← (lanes_perm h axis).countP_eq, List.countP_append, hown, Nat.zero_add]
  rfl

theorem laneCrossings_other (axis : Axis) (segments : List Segment) :
    laneCrossings axis.other segments = laneCrossings axis segments := by
  have htwice : axis.other.other = axis := by cases axis <;> rfl
  have hcomm := sum_countP_comm
    (fun i k => segmentsCross (segmentAt segments i) (segmentAt segments k))
    (lane axis segments) (lane axis.other segments)
  unfold laneCrossings pairCrossings
  rw [hcomm, htwice]
  congr 1
  apply List.map_congr_left
  intro k _
  exact List.countP_congr (fun i _ => by rw [segmentsCross_comm])

theorem countCrossings_lanes (h : ∀ s ∈ segments, s.AxisParallel) (axis : Axis) :
    countCrossings segments = laneCrossings axis segments := by
  have htwice := countCrossings_twice segments
  have hsum : (segments.map (fun a => segments.countP (segmentsCross a))).sum =
      ((List.range segments.length).map
        (fun k => segments.countP (segmentsCross (segmentAt segments k)))).sum := by
    conv_lhs => rw [← segments_at segments, List.map_map]
    rw [segments_at]
    rfl
  have hlane : ∀ own, ((lane own segments).map
      (fun k => segments.countP (segmentsCross (segmentAt segments k)))).sum =
      laneCrossings own segments := by
    intro own
    unfold laneCrossings
    congr 1
    exact List.map_congr_left (fun k hk => countP_lane h hk)
  rw [hsum, ← ((lanes_perm h axis).map _).sum_eq, List.map_append, List.sum_append, hlane, hlane,
    laneCrossings_other] at htwice
  omega

/-- The test of `sweepGroup` for an exchange. -/
def ExchangePays (axis : Axis) (segments : List Segment) (i j : Nat) : Prop :=
  crossingsOf (swapAt axis segments i j) (lane axis.other segments) i j <
    crossingsOf segments (lane axis.other segments) i j

instance (axis : Axis) (segments : List Segment) (i j : Nat) :
    Decidable (ExchangePays axis segments i j) :=
  inferInstanceAs (Decidable (_ < _))

theorem pairCrossings_swapAt (h : Pairs axis segments i j) (s : Segment) :
    pairCrossings s (lane axis.other segments) (swapAt axis segments i j) =
      pairCrossings s (lane axis.other segments) segments := by
  unfold pairCrossings
  apply List.countP_congr
  intro k hk
  rw [h.swapAt_other (lane_apart hk)]

theorem swapAt_parallel (hpar : ∀ s ∈ segments, s.AxisParallel) (h : Pairs axis segments i j) :
    ∀ s ∈ swapAt axis segments i j, s.AxisParallel := by
  intro s hs
  rw [← segments_at (swapAt axis segments i j)] at hs
  obtain ⟨k, hk, rfl⟩ := List.mem_map.mp hs
  rw [List.mem_range, swapAt_length] at hk
  obtain ⟨own, hown⟩ := (Segment.axisParallel_iff _).mp (hpar _ (segmentAt_mem hk))
  exact (Segment.axisParallel_iff _).mpr ⟨own, by rw [h.swapAt_runs]; exact hown⟩

theorem sum_map_two {f : Nat → Nat} {l : List Nat} (hi : i ∈ l) (hj : j ∈ l) (hij : i ≠ j) :
    (l.map f).sum = f i + f j + (((l.erase i).erase j).map f).sum := by
  rw [← List.sum_map_erase f hi, ← List.sum_map_erase f ((List.mem_erase_of_ne hij.symm).mpr hj)]
  omega

/-- An exchange that lowers the crossings of its pair lowers the crossings of all. -/
theorem ExchangePays.countCrossings_lt (hpays : ExchangePays axis segments i j)
    (h : Pairs axis segments i j) (hpar : ∀ s ∈ segments, s.AxisParallel) :
    countCrossings (swapAt axis segments i j) < countCrossings segments := by
  rw [countCrossings_lanes (swapAt_parallel hpar h) axis, countCrossings_lanes hpar axis]
  unfold laneCrossings
  rw [h.swapAt_lane, h.swapAt_lane, sum_map_two h.left h.right h.apart,
    sum_map_two h.left h.right h.apart]
  have hrest : (((lane axis segments).erase i).erase j).map (fun k =>
        pairCrossings (segmentAt (swapAt axis segments i j) k) (lane axis.other segments)
          (swapAt axis segments i j)) =
      (((lane axis segments).erase i).erase j).map (fun k =>
        pairCrossings (segmentAt segments k) (lane axis.other segments) segments) := by
    apply List.map_congr_left
    intro k hk
    have hnodup := lane_nodup axis segments
    have hkj : k ≠ j := ((hnodup.erase i).mem_erase_iff.mp hk).1
    have hki : k ≠ i := (hnodup.mem_erase_iff.mp ((hnodup.erase i).mem_erase_iff.mp hk).2).1
    rw [pairCrossings_swapAt h, h.segmentAt_swapAt, if_neg hki, if_neg hkj]
  rw [hrest]
  unfold ExchangePays crossingsOf at hpays
  omega

end NovaVe
