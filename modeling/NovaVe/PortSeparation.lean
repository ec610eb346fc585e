import Mathlib.Data.List.Chain
import Mathlib.Data.List.Sort
import Mathlib.Data.Prod.Lex
import Mathlib.Tactic.Linarith
import Mathlib.Tactic.Ring
import NovaVe.OrthogonalGrid

namespace NovaVe

structure PortPosition where
  side : PortSide
  offset : ℚ
deriving DecidableEq, Repr

structure NodeBox where
  x : ℚ
  y : ℚ
  w : ℚ
  h : ℚ

def clamp01 (value : ℚ) : ℚ := if value < 0 then 0 else if 1 < value then 1 else value

def sideLengthPx (side : PortSide) (nodeBox : NodeBox) : ℚ :=
  if side = .top ∨ side = .bottom then if 0 < nodeBox.w then nodeBox.w else 1
  else if 0 < nodeBox.h then nodeBox.h else 1

def sides : List PortSide := [.top, .right, .bottom, .left]

def offsetAt (positions : List PortPosition) (i : Nat) : ℚ :=
  match positions[i]? with
  | some position => position.offset
  | none => 0

/-- What the entries of a side are sorted by: the offset, and the index where it ties. -/
def portKey (positions : List PortPosition) (i : Nat) : ℚ ×ₗ Nat := toLex (offsetAt positions i, i)

/-- The indices of the ports on a side. -/
def onSide (positions : List PortPosition) (side : PortSide) : List Nat :=
  (List.range positions.length).filter (fun i => (positions[i]?.map PortPosition.side) = some side)

def sideEntries (positions : List PortPosition) (side : PortSide) : List Nat :=
  (onSide positions side).insertionSort (fun a b => portKey positions a ≤ portKey positions b)

/-- The gap between `count` ports of a side that there is room for. -/
def effectiveDelta (count : Nat) (side : PortSide) (nodeBox : NodeBox) (minCenterGapPx : ℚ) : ℚ :=
  let minDelta := (minCenterGapPx + 1 / 1000000) / sideLengthPx side nodeBox
  if 1 < minDelta * (count - 1) then 1 / (count - 1) else minDelta

/-- The first loop over `adjusted`, behind the offset `prev`. -/
def pushFrom (delta prev : ℚ) : List ℚ → List ℚ
  | [] => []
  | x :: rest => max x (prev + delta) :: pushFrom delta (max x (prev + delta)) rest

def pushForward (delta : ℚ) : List ℚ → List ℚ
  | [] => []
  | x :: rest => x :: pushFrom delta x rest

/-- The loop from the end of `adjusted`. -/
def pullBack (delta : ℚ) : List ℚ → List ℚ
  | [] => []
  | x :: rest =>
    match pullBack delta rest with
    | [] => [x]
    | y :: pulled => min x (y - delta) :: y :: pulled

def shiftOverflow (adjusted : List ℚ) : List ℚ :=
  let overflow := adjusted.getLast?.getD 0 - 1
  if 0 < overflow then adjusted.map (· - overflow) else adjusted

def shiftUnderflow (adjusted : List ℚ) : List ℚ :=
  let underflow := 0 - adjusted.head?.getD 0
  if 0 < underflow then adjusted.map (· + underflow) else adjusted

/-- The offsets that a side gets, from those of its sorted entries. -/
def separateOffsets (delta : ℚ) (offsets : List ℚ) : List ℚ :=
  (shiftUnderflow (pullBack delta (shiftOverflow (pushForward delta offsets)))).map clamp01

/-- The turn of the loop of `separatePortPositions` for a side. -/
def separateSide (nodeBox : NodeBox) (minCenterGapPx : ℚ) (positions : List PortPosition)
    (side : PortSide) : List PortPosition :=
  let entries := sideEntries positions side
  if entries.length ≤ 1 then positions
  else
    let delta := effectiveDelta entries.length side nodeBox minCenterGapPx
    let adjusted := separateOffsets delta (entries.map (offsetAt positions))
    (entries.zip adjusted).foldl
      (fun result entry => result.set entry.1 { side := side, offset := entry.2 }) positions

def clampPositions (positions : List PortPosition) : List PortPosition :=
  positions.map (fun position => { position with offset := clamp01 position.offset })

/-- `separatePortPositions` up to `separateCornerCollisions`. -/
def separateSides (positions : List PortPosition) (nodeBox : NodeBox) (minCenterGapPx : ℚ) :
    List PortPosition :=
  sides.foldl (separateSide nodeBox minCenterGapPx) (clampPositions positions)

theorem clamp01_range (value : ℚ) : 0 ≤ clamp01 value ∧ clamp01 value ≤ 1 := by
  unfold clamp01
  split
  next => exact ⟨le_refl 0, by norm_num⟩
  next hlow =>
    split
    next => exact ⟨by norm_num, le_refl 1⟩
    next hhigh => exact ⟨not_lt.mp hlow, not_lt.mp hhigh⟩

theorem clamp01_inside {value : ℚ} (h : 0 ≤ value) (h' : value ≤ 1) : clamp01 value = value := by
  unfold clamp01
  rw [if_neg (not_lt.mpr h), if_neg (not_lt.mpr h')]

/-- Offsets each of which leaves room for the next. -/
def Spaced (delta : ℚ) (offsets : List ℚ) : Prop := offsets.IsChain (fun x y => x + delta ≤ y)

theorem pushFrom_spaced (delta prev : ℚ) (rest : List ℚ) :
    Spaced delta (prev :: pushFrom delta prev rest) := by
  induction rest generalizing prev with
  | nil => exact .singleton prev
  | cons x rest ih =>
    rw [pushFrom]
    exact List.isChain_cons_cons.mpr ⟨le_max_right _ _, ih _⟩

theorem pushFrom_of_spaced {delta prev : ℚ} {rest : List ℚ} (h : Spaced delta (prev :: rest)) :
    pushFrom delta prev rest = rest := by
  induction rest generalizing prev with
  | nil => rfl
  | cons x rest ih =>
    obtain ⟨hx, hrest⟩ := List.isChain_cons_cons.mp h
    rw [pushFrom, max_eq_left hx, ih hrest]

/-- The backward loop finds nothing to pull. -/
theorem pullBack_of_spaced {delta : ℚ} {offsets : List ℚ} (h : Spaced delta offsets) :
    pullBack delta offsets = offsets := by
  induction offsets with
  | nil => rfl
  | cons x rest ih =>
    rw [pullBack, ih (List.isChain_of_isChain_cons h)]
    cases rest with
    | nil => rfl
    | cons y rest =>
      have hxy := (List.isChain_cons_cons.mp h).1
      dsimp only
      rw [min_eq_left (by linarith)]

/-- Every offset with the room for those after it is within a bound. -/
def Fits (delta bound : ℚ) : List ℚ → Prop
  | [] => True
  | x :: rest => x + rest.length * delta ≤ bound ∧ Fits delta bound rest

/-- How far the forward loop gets. -/
theorem pushFrom_last_le (delta prev bound : ℚ) (rest : List ℚ) :
    (prev :: pushFrom delta prev rest).getLast?.getD 0 ≤ bound ↔
      prev + rest.length * delta ≤ bound ∧ Fits delta bound rest := by
  induction rest generalizing prev with
  | nil => simp [pushFrom, Fits]
  | cons x rest ih =>
    rw [pushFrom, List.getLast?_cons_cons, ih, Fits]
    have hsum : prev + ((x :: rest).length : ℚ) * delta = prev + delta + rest.length * delta := by
      rw [List.length_cons]
      push_cast
      ring
    rw [hsum, ← max_add_add_right, max_le_iff]
    tauto

theorem Spaced.map_add {delta : ℚ} {offsets : List ℚ} (h : Spaced delta offsets) (c : ℚ) :
    Spaced delta (offsets.map (· + c)) := by
  refine List.isChain_map_of_isChain _ ?_ h
  intro x y hxy
  linarith

theorem map_sub_eq (offsets : List ℚ) (c : ℚ) : offsets.map (· - c) = offsets.map (· + -c) :=
  List.map_congr_left (fun y _ => sub_eq_add_neg y c)

/-- The last element that the forward loop places, and the one before it. -/
theorem pushFrom_last_pair (delta prev : ℚ) {rest : List ℚ} (hrest : rest ≠ []) :
    ∃ front p x, prev :: pushFrom delta prev rest = front ++ [p, max x (p + delta)] ∧ x ∈ rest := by
  induction rest generalizing prev with
  | nil => exact absurd rfl hrest
  | cons x rest ih =>
    cases rest with
    | nil => exact ⟨[], prev, x, rfl, by simp⟩
    | cons y rest =>
      obtain ⟨front, p, z, heq, hz⟩ := ih (max x (prev + delta)) (by simp)
      refine ⟨prev :: front, p, z, ?_, List.mem_cons_of_mem _ hz⟩
      rw [pushFrom, heq, List.cons_append]

/-- Where the offsets are spaced already nothing is moved. -/
theorem separateOffsets_of_spaced {delta : ℚ} {offsets : List ℚ} (h : Spaced delta offsets)
    (hrange : ∀ x ∈ offsets, 0 ≤ x ∧ x ≤ 1) : separateOffsets delta offsets = offsets := by
  have hpush : pushForward delta offsets = offsets := by
    cases offsets with
    | nil => rfl
    | cons x rest => rw [pushForward, pushFrom_of_spaced h]
  have hover : shiftOverflow offsets = offsets := by
    unfold shiftOverflow
    rw [if_neg]
    rcases hlast : offsets.getLast? with _ | x
    · norm_num
    · have hx := (hrange x (List.mem_of_getLast? hlast)).2
      rw [Option.getD_some]
      linarith
  have hunder : shiftUnderflow offsets = offsets := by
    unfold shiftUnderflow
    rw [if_neg]
    rcases hhead : offsets.head? with _ | x
    · norm_num
    · have hx := (hrange x (List.mem_of_head? hhead)).1
      rw [Option.getD_some]
      linarith
  unfold separateOffsets
  rw [hpush, hover, pullBack_of_spaced h, hunder]
  conv_rhs => rw [← List.map_id offsets]
  exact List.map_congr_left (fun x hx => clamp01_inside (hrange x hx).1 (hrange x hx).2)

/-- Spaced offsets lie between the first and the last. -/
theorem Spaced.between {delta x : ℚ} {rest : List ℚ} (hdelta : 0 ≤ delta)
    (h : Spaced delta (x :: rest)) :
    ∀ y ∈ x :: rest, x ≤ y ∧ y ≤ (x :: rest).getLast?.getD 0 := by
  induction rest generalizing x with
  | nil =>
    intro y hy
    rw [List.mem_singleton.mp hy]
    exact ⟨le_refl x, le_refl x⟩
  | cons z rest ih =>
    obtain ⟨hxz, hrest⟩ := List.isChain_cons_cons.mp h
    have hall := ih hrest
    rw [List.getLast?_cons_cons]
    intro y hy
    rcases List.mem_cons.mp hy with rfl | hy
    · have hz := (hall z (by simp)).2
      exact ⟨le_refl y, by linarith⟩
    · obtain ⟨hlow, hhigh⟩ := hall y hy
      exact ⟨by linarith, hhigh⟩

/-- With room to spare the pushed offsets are shifted back by what they overflow. -/
theorem separateOffsets_of_room {delta x : ℚ} {rest : List ℚ} (hdelta : 0 ≤ delta) (hx : 0 ≤ x ∧ x ≤ 1)
    (hroom : (x :: pushFrom delta x rest).getLast?.getD 0 ≤ x + 1) :
    ∃ c, separateOffsets delta (x :: rest) = (x :: pushFrom delta x rest).map (· + c) := by
  have hspaced := pushFrom_spaced delta x rest
  have hbetween := hspaced.between hdelta
  unfold separateOffsets pushForward shiftOverflow
  dsimp only
  by_cases hover : 0 < (x :: pushFrom delta x rest).getLast?.getD 0 - 1
  · rw [if_pos hover]
    refine ⟨-((x :: pushFrom delta x rest).getLast?.getD 0 - 1), ?_⟩
    rw [map_sub_eq, pullBack_of_spaced (hspaced.map_add _)]
    have hunder : shiftUnderflow ((x :: pushFrom delta x rest).map
        (· + -((x :: pushFrom delta x rest).getLast?.getD 0 - 1))) =
        (x :: pushFrom delta x rest).map
          (· + -((x :: pushFrom delta x rest).getLast?.getD 0 - 1)) := by
      unfold shiftUnderflow
      rw [if_neg]
      rw [List.map_cons, List.head?_cons, Option.getD_some]
      linarith
    rw [hunder, List.map_map]
    apply List.map_congr_left
    intro y hy
    obtain ⟨hlow, hhigh⟩ := hbetween y hy
    exact clamp01_inside (by linarith) (by linarith)
  · rw [if_neg hover, pullBack_of_spaced hspaced]
    refine ⟨0, ?_⟩
    have hunder : shiftUnderflow (x :: pushFrom delta x rest) = x :: pushFrom delta x rest := by
      unfold shiftUnderflow
      rw [if_neg]
      rw [List.head?_cons, Option.getD_some]
      linarith [hx.1]
    rw [hunder]
    apply List.map_congr_left
    intro y hy
    obtain ⟨hlow, hhigh⟩ := hbetween y hy
    rw [add_zero]
    exact clamp01_inside (by linarith [hx.1]) (by linarith)

/-- Without room the last two offsets come closer than the gap. -/
theorem separateOffsets_of_no_room {delta x : ℚ} {rest : List ℚ} (hdelta : 0 < delta)
    (hrange : ∀ y ∈ x :: rest, 0 ≤ y ∧ y ≤ 1)
    (hroom : x + 1 < (x :: pushFrom delta x rest).getLast?.getD 0) :
    ∃ front y z, separateOffsets delta (x :: rest) = front ++ [y, z] ∧ |y - z| < delta := by
  have hx := hrange x (by simp)
  have hspaced := pushFrom_spaced delta x rest
  have hrest : rest ≠ [] := by
    rintro rfl
    rw [pushFrom, List.getLast?_singleton, Option.getD_some] at hroom
    linarith
  have hshape : separateOffsets delta (x :: rest) =
      (x :: pushFrom delta x rest).map (fun y => clamp01 (y - x)) := by
    unfold separateOffsets pushForward shiftOverflow
    dsimp only
    rw [if_pos (by linarith [hx.1])]
    rw [map_sub_eq, pullBack_of_spaced (hspaced.map_add _)]
    unfold shiftUnderflow
    rw [if_pos (by rw [List.map_cons, List.head?_cons, Option.getD_some]; linarith [hx.1]),
      List.map_map, List.map_map]
    apply List.map_congr_left
    intro y _
    rw [List.map_cons, List.head?_cons, Option.getD_some, Function.comp_apply, Function.comp_apply]
    congr 1
    ring
  obtain ⟨front, p, z, hpair, hz⟩ := pushFrom_last_pair delta x hrest
  have hlast : (x :: pushFrom delta x rest).getLast?.getD 0 = max z (p + delta) := by
    rw [hpair]
    simp
  rw [hlast] at hroom
  have hzle := (hrange z (List.mem_cons_of_mem _ hz)).2
  have hmax : max z (p + delta) = p + delta := by
    apply max_eq_right
    by_contra hlt
    rw [max_eq_left (by linarith)] at hroom
    linarith [hx.1]
  rw [hmax] at hroom hpair
  have hone : clamp01 (p + delta - x) = 1 := by
    unfold clamp01
    rw [if_neg (by linarith), if_pos (by linarith)]
  have hrangeY := clamp01_range (p - x)
  have hnear : 1 - delta < clamp01 (p - x) := by
    unfold clamp01
    split
    next hneg => linarith
    next =>
      split
      next => linarith
      next => linarith
  refine ⟨front.map (fun y => clamp01 (y - x)), clamp01 (p - x), 1, ?_, ?_⟩
  · rw [hshape, hpair, List.map_append, List.map_cons, List.map_cons, List.map_nil, hone]
  · rw [abs_lt]
    constructor <;> linarith

end NovaVe
