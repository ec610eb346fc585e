import NovaVe.PortSeparation

namespace NovaVe

variable {positions : List PortPosition} {side : PortSide} {nodeBox : NodeBox} {minCenterGapPx : ℚ}

/-- Of the ports of a side, those after one would have room behind it within a side's length. -/
def HasRoom (positions : List PortPosition) (nodeBox : NodeBox) (minCenterGapPx : ℚ) : Prop :=
  ∀ side, 2 ≤ (sideEntries positions side).length →
    let offsets := (sideEntries positions side).map (offsetAt positions)
    Fits (effectiveDelta offsets.length side nodeBox minCenterGapPx) (offsets.head?.getD 0 + 1) offsets

/-- Any two ports of a side are at least the gap apart. -/
def SideApart (positions : List PortPosition) (nodeBox : NodeBox) (minCenterGapPx : ℚ) (side : PortSide) :
    Prop :=
  ∀ i ∈ onSide positions side, ∀ j ∈ onSide positions side, i ≠ j →
    effectiveDelta (onSide positions side).length side nodeBox minCenterGapPx ≤
      |offsetAt positions i - offsetAt positions j|

/-- What `separatePortPositions` is to do with the ports of every side. -/
structure PortsSeparated (positions : List PortPosition) (nodeBox : NodeBox) (minCenterGapPx : ℚ)
    (out : List PortPosition) : Prop where
  length : out.length = positions.length
  keepsSide : ∀ i : Nat, out[i]?.map PortPosition.side = positions[i]?.map PortPosition.side
  inRange : ∀ position ∈ out, 0 ≤ position.offset ∧ position.offset ≤ 1
  apart : ∀ side, SideApart out nodeBox minCenterGapPx side
  inOrder : ∀ side, sideEntries out side = sideEntries (clampPositions positions) side
  unchanged : ∀ side, SideApart (clampPositions positions) nodeBox minCenterGapPx side →
    ∀ i ∈ onSide positions side, out[i]? = (clampPositions positions)[i]?

theorem mem_onSide {i : Nat} :
    i ∈ onSide positions side ↔ positions[i]?.map PortPosition.side = some side := by
  unfold onSide
  rw [List.mem_filter, List.mem_range, decide_eq_true_eq]
  constructor
  · exact And.right
  · intro h
    refine ⟨?_, h⟩
    by_contra hlong
    rw [List.getElem?_eq_none (by omega)] at h
    exact absurd h (by simp)

theorem sideEntries_perm (positions : List PortPosition) (side : PortSide) :
    (sideEntries positions side).Perm (onSide positions side) :=
  List.perm_insertionSort _ _

theorem mem_sideEntries {i : Nat} :
    i ∈ sideEntries positions side ↔ positions[i]?.map PortPosition.side = some side :=
  (sideEntries_perm positions side).mem_iff.trans mem_onSide

theorem sideEntries_nodup (positions : List PortPosition) (side : PortSide) :
    (sideEntries positions side).Nodup :=
  (sideEntries_perm positions side).nodup_iff.mpr (List.nodup_range.filter _)

theorem sideEntries_length (positions : List PortPosition) (side : PortSide) :
    (sideEntries positions side).length = (onSide positions side).length :=
  (sideEntries_perm positions side).length_eq

theorem sideEntries_sorted (positions : List PortPosition) (side : PortSide) :
    (sideEntries positions side).Pairwise (fun a b => portKey positions a ≤ portKey positions b) := by
  have htotal : Std.Total (fun a b => portKey positions a ≤ portKey positions b) :=
    ⟨fun a b => le_total _ _⟩
  have htrans : IsTrans Nat (fun a b => portKey positions a ≤ portKey positions b) :=
    ⟨fun _ _ _ hab hbc => le_trans hab hbc⟩
  exact List.pairwise_insertionSort _ _

/-- A sorted arrangement of the ports of a side is the one that is used. -/
theorem sideEntries_unique {entries : List Nat} (hperm : entries.Perm (onSide positions side))
    (hsorted : entries.Pairwise (fun a b => portKey positions a ≤ portKey positions b)) :
    sideEntries positions side = entries := by
  have hantisymm : Std.Antisymm (fun a b => portKey positions a ≤ portKey positions b) := by
    refine ⟨fun a b hab hba => ?_⟩
    have hkey := toLex.injective (le_antisymm hab hba)
    exact congrArg Prod.snd hkey
  exact List.Perm.eq_of_pairwise' (sideEntries_sorted positions side) hsorted
    ((sideEntries_perm positions side).trans hperm.symm)

theorem portKey_le_offset {a b : Nat} (h : portKey positions a ≤ portKey positions b) :
    offsetAt positions a ≤ offsetAt positions b := by
  unfold portKey at h
  rw [Prod.Lex.toLex_le_toLex] at h
  rcases h with h | ⟨h, _⟩
  · exact h.le
  · exact h.le

/-- Two states that agree on the ports of a side. -/
structure SameSide (before after : List PortPosition) (side : PortSide) : Prop where
  onSide : onSide after side = onSide before side
  offsets : ∀ i ∈ NovaVe.onSide before side, offsetAt after i = offsetAt before i

theorem SameSide.sideEntries {before after : List PortPosition} (h : SameSide before after side) :
    sideEntries after side = sideEntries before side := by
  refine sideEntries_unique ((sideEntries_perm before side).trans (by rw [h.onSide])) ?_
  refine (sideEntries_sorted before side).imp_of_mem ?_
  intro a b ha hb hab
  unfold portKey at hab ⊢
  rw [h.offsets a ((sideEntries_perm before side).mem_iff.mp ha),
    h.offsets b ((sideEntries_perm before side).mem_iff.mp hb)]
  exact hab

/-- The offsets that the entries of a side get. -/
def sideOffsets (nodeBox : NodeBox) (minCenterGapPx : ℚ) (positions : List PortPosition)
    (side : PortSide) : List ℚ :=
  let offsets := (sideEntries positions side).map (offsetAt positions)
  if offsets.length ≤ 1 then offsets
  else separateOffsets (effectiveDelta offsets.length side nodeBox minCenterGapPx) offsets

theorem separateOffsets_length (delta : ℚ) (offsets : List ℚ) :
    (separateOffsets delta offsets).length = offsets.length := by
  have hpushFrom : ∀ (prev : ℚ) (rest : List ℚ), (pushFrom delta prev rest).length = rest.length := by
    intro prev rest
    induction rest generalizing prev with
    | nil => rfl
    | cons x rest ih => rw [pushFrom, List.length_cons, ih, List.length_cons]
  have hpush : (pushForward delta offsets).length = offsets.length := by
    cases offsets with
    | nil => rfl
    | cons x rest => rw [pushForward, List.length_cons, hpushFrom, List.length_cons]
  have hpull : ∀ list : List ℚ, (pullBack delta list).length = list.length := by
    intro list
    induction list with
    | nil => rfl
    | cons x rest ih =>
      rw [pullBack]
      split
      next hempty =>
        rw [hempty, List.length_nil] at ih
        rw [List.length_singleton, List.length_cons, ← ih]
      next y pulled hpulled =>
        rw [hpulled] at ih
        rw [List.length_cons, ih, List.length_cons]
  have hover : ∀ list : List ℚ, (shiftOverflow list).length = list.length := by
    intro list
    unfold shiftOverflow
    dsimp only
    split
    next => rw [List.length_map]
    next => rfl
  have hunder : ∀ list : List ℚ, (shiftUnderflow list).length = list.length := by
    intro list
    unfold shiftUnderflow
    dsimp only
    split
    next => rw [List.length_map]
    next => rfl
  unfold separateOffsets
  rw [List.length_map, hunder, hpull, hover, hpush]

theorem sideOffsets_length (nodeBox : NodeBox) (minCenterGapPx : ℚ) (positions : List PortPosition)
    (side : PortSide) : (sideOffsets nodeBox minCenterGapPx positions side).length =
      (sideEntries positions side).length := by
  unfold sideOffsets
  dsimp only
  split
  · rw [List.length_map]
  · rw [separateOffsets_length, List.length_map]

/-- The writes of a side's entries. -/
theorem setEntries_spec (side : PortSide) (entries : List Nat) (values : List ℚ)
    (positions : List PortPosition) (hnodup : entries.Nodup)
    (hinside : ∀ i ∈ entries, i < positions.length) (hlen : values.length = entries.length) :
    let out := (entries.zip values).foldl
      (fun result entry => result.set entry.1 { side := side, offset := entry.2 }) positions
    out.length = positions.length ∧ entries.map (offsetAt out) = values ∧
      (∀ i ∉ entries, out[i]? = positions[i]?) ∧
      ∀ i ∈ entries, out[i]?.map PortPosition.side = some side := by
  induction entries generalizing values positions with
  | nil =>
    rw [List.length_nil, List.length_eq_zero_iff] at hlen
    subst hlen
    simp
  | cons i rest ih =>
    cases values with
    | nil => simp at hlen
    | cons value values =>
      obtain ⟨hi, hrest⟩ := List.nodup_cons.mp hnodup
      obtain ⟨hlength, hmap, hothers, hsides⟩ := ih values
        (positions.set i { side := side, offset := value }) hrest
        (fun j hj => by rw [List.length_set]; exact hinside j (by simp [hj]))
        (by simpa using hlen)
      rw [List.length_set] at hlength
      have hinside := hinside i (by simp)
      have hself : ((rest.zip values).foldl
          (fun result entry => result.set entry.1 { side := side, offset := entry.2 })
            (positions.set i { side := side, offset := value }))[i]? =
          some { side := side, offset := value } := by
        rw [hothers i hi, List.getElem?_set_self hinside]
      rw [List.zip_cons_cons, List.foldl_cons]
      refine ⟨hlength, ?_, ?_, ?_⟩
      · rw [List.map_cons, hmap]
        unfold offsetAt
        rw [hself]
      · intro j hj
        rw [List.mem_cons, not_or] at hj
        obtain ⟨hne, hj⟩ := hj
        rw [hothers j hj, List.getElem?_set_ne (Ne.symm hne)]
      · intro j hj
        rcases List.mem_cons.mp hj with rfl | hj
        · rw [hself]
          rfl
        · exact hsides j hj

/-- What the turn for a side does: its entries get their offsets, and nothing else changes. -/
structure SideTurn (nodeBox : NodeBox) (minCenterGapPx : ℚ) (positions out : List PortPosition)
    (side : PortSide) : Prop where
  length : out.length = positions.length
  keepsSide : ∀ i : Nat, out[i]?.map PortPosition.side = positions[i]?.map PortPosition.side
  others : ∀ i ∉ onSide positions side, out[i]? = positions[i]?
  offsets : (sideEntries positions side).map (offsetAt out) =
    sideOffsets nodeBox minCenterGapPx positions side

theorem separateSide_turn (nodeBox : NodeBox) (minCenterGapPx : ℚ) (positions : List PortPosition)
    (side : PortSide) : SideTurn nodeBox minCenterGapPx positions
      (separateSide nodeBox minCenterGapPx positions side) side := by
  have hmem : ∀ i, i ∈ sideEntries positions side ↔ i ∈ onSide positions side :=
    fun i => (sideEntries_perm positions side).mem_iff
  unfold separateSide
  dsimp only
  split
  next hshort =>
    refine ⟨rfl, fun _ => rfl, fun _ _ => rfl, ?_⟩
    unfold sideOffsets
    dsimp only
    rw [if_pos (by rw [List.length_map]; exact hshort)]
  next hlong =>
    have hvalues : sideOffsets nodeBox minCenterGapPx positions side =
        separateOffsets (effectiveDelta (sideEntries positions side).length side nodeBox minCenterGapPx)
          ((sideEntries positions side).map (offsetAt positions)) := by
      unfold sideOffsets
      dsimp only
      rw [List.length_map, if_neg hlong]
    rw [← hvalues]
    obtain ⟨hlength, hmap, hothers, hsides⟩ := setEntries_spec side (sideEntries positions side)
      (sideOffsets nodeBox minCenterGapPx positions side) positions (sideEntries_nodup positions side)
      (fun i hi => List.mem_range.mp (List.mem_of_mem_filter ((hmem i).mp hi)))
      (sideOffsets_length nodeBox minCenterGapPx positions side)
    refine ⟨hlength, ?_, fun i hi => hothers i (fun h => hi ((hmem i).mp h)), hmap⟩
    intro i
    by_cases hi : i ∈ sideEntries positions side
    · rw [hsides i hi, mem_sideEntries.mp hi]
    · rw [hothers i hi]

theorem onSide_congr {positions out : List PortPosition} (hlength : out.length = positions.length)
    (hsides : ∀ i : Nat, out[i]?.map PortPosition.side = positions[i]?.map PortPosition.side)
    (side : PortSide) : onSide out side = onSide positions side := by
  unfold onSide
  rw [hlength]
  exact List.filter_congr (fun i _ => by rw [hsides i])

theorem offsetAt_congr {positions out : List PortPosition} {i : Nat} (h : out[i]? = positions[i]?) :
    offsetAt out i = offsetAt positions i := by
  unfold offsetAt
  rw [h]

theorem entry_same {before after : List PortPosition} {i : Nat}
    (hside : after[i]?.map PortPosition.side = before[i]?.map PortPosition.side)
    (hoffset : offsetAt after i = offsetAt before i) : after[i]? = before[i]? := by
  unfold offsetAt at hoffset
  cases hafter : after[i]? with
  | none =>
    rw [hafter] at hside
    exact (Option.map_eq_none_iff.mp hside.symm).symm
  | some p =>
    cases hbefore : before[i]? with
    | none =>
      rw [hafter, hbefore] at hside
      exact absurd hside (by simp)
    | some q =>
      rw [hafter, hbefore] at hside hoffset
      obtain ⟨side, offset⟩ := p
      obtain ⟨side', offset'⟩ := q
      cases Option.some.inj hside
      cases hoffset
      rfl

theorem SideTurn.sameSide {positions out : List PortPosition} {side other : PortSide}
    (h : SideTurn nodeBox minCenterGapPx positions out side) (hne : other ≠ side) :
    SameSide positions out other where
  onSide := onSide_congr h.length h.keepsSide other
  offsets i hi := by
    refine offsetAt_congr (h.others i ?_)
    intro hmem
    rw [mem_onSide] at hi hmem
    rw [hi] at hmem
    exact hne (Option.some.inj hmem)

theorem SameSide.entryOffsets {before after : List PortPosition} (h : SameSide before after side) :
    (NovaVe.sideEntries after side).map (offsetAt after) =
      (NovaVe.sideEntries before side).map (offsetAt before) := by
  rw [h.sideEntries]
  exact List.map_congr_left
    (fun i hi => h.offsets i ((sideEntries_perm before side).mem_iff.mp hi))

/-- The turns of several sides do not touch each other's ports. -/
theorem separateSides_turns (nodeBox : NodeBox) (minCenterGapPx : ℚ) {todo : List PortSide}
    (hnodup : todo.Nodup) (positions : List PortPosition) :
    let out := todo.foldl (separateSide nodeBox minCenterGapPx) positions
    out.length = positions.length ∧
      (∀ i : Nat, out[i]?.map PortPosition.side = positions[i]?.map PortPosition.side) ∧
      (∀ i, (∀ side ∈ todo, i ∉ onSide positions side) → out[i]? = positions[i]?) ∧
      ∀ side ∈ todo, (sideEntries positions side).map (offsetAt out) =
        sideOffsets nodeBox minCenterGapPx positions side := by
  induction todo generalizing positions with
  | nil => simp
  | cons first rest ih =>
    obtain ⟨hfirst, hrest⟩ := List.nodup_cons.mp hnodup
    have hturn := separateSide_turn nodeBox minCenterGapPx positions first
    obtain ⟨hlength, hsides, hothers, hoffsets⟩ :=
      ih hrest (separateSide nodeBox minCenterGapPx positions first)
    have honSide := onSide_congr hturn.length hturn.keepsSide
    rw [List.foldl_cons]
    refine ⟨hlength.trans hturn.length, fun i => (hsides i).trans (hturn.keepsSide i), ?_, ?_⟩
    · intro i hi
      rw [hothers i (fun side hside => by rw [honSide]; exact hi side (by simp [hside]))]
      exact hturn.others i (hi first (by simp))
    · intro side hside
      rcases List.mem_cons.mp hside with rfl | hside
      · rw [← hturn.offsets]
        apply List.map_congr_left
        intro i hi
        refine offsetAt_congr (hothers i ?_)
        intro other hother hmem
        rw [honSide, mem_onSide, mem_sideEntries.mp hi] at hmem
        exact hfirst (Option.some.inj hmem ▸ hother)
      · have hsame : SameSide positions (separateSide nodeBox minCenterGapPx positions first) side :=
          hturn.sameSide (fun h => hfirst (h ▸ hside))
        have hmap := hoffsets side hside
        rw [hsame.sideEntries] at hmap
        rw [hmap]
        unfold sideOffsets
        rw [hsame.entryOffsets]

theorem sides_all (side : PortSide) : side ∈ sides := by
  cases side <;> decide

/-- The result of the loop over the sides. -/
theorem separateSides_spec (positions : List PortPosition) (nodeBox : NodeBox) (minCenterGapPx : ℚ) :
    (separateSides positions nodeBox minCenterGapPx).length = positions.length ∧
      (∀ i : Nat, (separateSides positions nodeBox minCenterGapPx)[i]?.map PortPosition.side =
        positions[i]?.map PortPosition.side) ∧
      ∀ side, (sideEntries (clampPositions positions) side).map
          (offsetAt (separateSides positions nodeBox minCenterGapPx)) =
        sideOffsets nodeBox minCenterGapPx (clampPositions positions) side := by
  obtain ⟨hlength, hsides, _, hoffsets⟩ :=
    separateSides_turns nodeBox minCenterGapPx (by decide : sides.Nodup) (clampPositions positions)
  refine ⟨hlength.trans (by simp [clampPositions]), ?_, fun side => hoffsets side (sides_all side)⟩
  intro i
  refine (hsides i).trans ?_
  unfold clampPositions
  rw [List.getElem?_map, Option.map_map]
  rfl

theorem clampPositions_range (positions : List PortPosition) (i : Nat) :
    0 ≤ offsetAt (clampPositions positions) i ∧ offsetAt (clampPositions positions) i ≤ 1 := by
  unfold offsetAt
  split
  next position hposition =>
    unfold clampPositions at hposition
    rw [List.getElem?_map, Option.map_eq_some_iff] at hposition
    obtain ⟨_, _, rfl⟩ := hposition
    exact clamp01_range _
  next => exact ⟨le_refl 0, by norm_num⟩

/-- The three ways in which the turn for a side goes. -/
inductive TurnCase (delta : ℚ) (offsets values : List ℚ) : Prop
  | kept (spaced : Spaced delta offsets) (same : values = offsets)
  | moved (gap : 0 < delta) (room : Fits delta (offsets.head?.getD 0 + 1) offsets)
      (spaced : Spaced delta values)
  | pressed (gap : 0 < delta) (noRoom : ¬ Fits delta (offsets.head?.getD 0 + 1) offsets)
      (close : ∃ front y z, values = front ++ [y, z] ∧ |y - z| < delta)

theorem separateOffsets_cases {delta x : ℚ} {rest : List ℚ}
    (hsorted : (x :: rest).Pairwise (· ≤ ·)) (hrange : ∀ y ∈ x :: rest, 0 ≤ y ∧ y ≤ 1) :
    TurnCase delta (x :: rest) (separateOffsets delta (x :: rest)) := by
  by_cases hgap : 0 < delta
  · have hroom := pushFrom_last_le delta x (x + 1) rest
    by_cases hfits : Fits delta (x + 1) (x :: rest)
    · obtain ⟨c, hshift⟩ := separateOffsets_of_room hgap.le (hrange x (by simp)) (hroom.mpr hfits)
      refine .moved hgap hfits ?_
      rw [hshift]
      exact (pushFrom_spaced delta x rest).map_add c
    · refine .pressed hgap hfits ?_
      exact separateOffsets_of_no_room hgap hrange (not_le.mp (fun h => hfits (hroom.mp h)))
  · have hspaced : Spaced delta (x :: rest) := by
      refine hsorted.isChain.imp ?_
      intro y z hyz
      linarith
    exact .kept hspaced (separateOffsets_of_spaced hspaced hrange)

theorem Spaced.fits {delta x : ℚ} {rest : List ℚ} (h : Spaced delta (x :: rest))
    (hrange : ∀ y ∈ x :: rest, 0 ≤ y ∧ y ≤ 1) : Fits delta (x + 1) (x :: rest) := by
  refine (pushFrom_last_le delta x (x + 1) rest).mp ?_
  rw [pushFrom_of_spaced h]
  have hlast := hrange _ (List.getLast_mem (List.cons_ne_nil x rest))
  rw [List.getLast?_eq_some_getLast (List.cons_ne_nil x rest), Option.getD_some]
  linarith [(hrange x (by simp)).1]

/-- The offsets of the entries of a side, in order. -/
theorem entryOffsets_sorted (positions : List PortPosition) (side : PortSide) :
    ((sideEntries positions side).map (offsetAt positions)).Pairwise (· ≤ ·) := by
  rw [List.pairwise_map]
  exact (sideEntries_sorted positions side).imp portKey_le_offset

theorem sideOffsets_case (positions : List PortPosition) (nodeBox : NodeBox) (minCenterGapPx : ℚ)
    (hlong : 2 ≤ (sideEntries (clampPositions positions) side).length) :
    TurnCase (effectiveDelta (sideEntries (clampPositions positions) side).length side nodeBox
        minCenterGapPx)
      ((sideEntries (clampPositions positions) side).map (offsetAt (clampPositions positions)))
      (sideOffsets nodeBox minCenterGapPx (clampPositions positions) side) := by
  have hsorted := entryOffsets_sorted (clampPositions positions) side
  have hrange : ∀ y ∈ (sideEntries (clampPositions positions) side).map
      (offsetAt (clampPositions positions)), 0 ≤ y ∧ y ≤ 1 := by
    intro y hy
    obtain ⟨i, _, rfl⟩ := List.mem_map.mp hy
    exact clampPositions_range positions i
  unfold sideOffsets
  dsimp only
  rw [if_neg (by rw [List.length_map]; omega), List.length_map]
  rcases hoffsets : (sideEntries (clampPositions positions) side).map
      (offsetAt (clampPositions positions)) with _ | ⟨x, rest⟩
  · rw [List.map_eq_nil_iff] at hoffsets
    rw [hoffsets] at hlong
    exact absurd hlong (by simp)
  · rw [hoffsets] at hsorted hrange
    exact separateOffsets_cases hsorted hrange

theorem sideApart_of_spaced {out : List PortPosition} {entries : List Nat}
    (hperm : entries.Perm (onSide out side)) (h : entries.Pairwise (fun i j =>
      effectiveDelta (onSide out side).length side nodeBox minCenterGapPx ≤
        |offsetAt out i - offsetAt out j|)) : SideApart out nodeBox minCenterGapPx side := by
  have hsymm : Std.Symm (fun i j =>
      effectiveDelta (onSide out side).length side nodeBox minCenterGapPx ≤
        |offsetAt out i - offsetAt out j|) := by
    refine ⟨fun i j hij => ?_⟩
    rwa [abs_sub_comm]
  intro i hi j hj hij
  exact List.Pairwise.forall h (hperm.mem_iff.mpr hi) (hperm.mem_iff.mpr hj) hij

theorem Spaced.pairwise {delta : ℚ} {offsets : List ℚ} (hdelta : 0 < delta) (h : Spaced delta offsets) :
    offsets.Pairwise (fun x y => x + delta ≤ y) := by
  induction offsets with
  | nil => exact .nil
  | cons x rest ih =>
    have hrest := ih (List.isChain_of_isChain_cons h)
    refine List.pairwise_cons.mpr ⟨?_, hrest⟩
    cases rest with
    | nil => simp
    | cons y rest =>
      have hxy := (List.isChain_cons_cons.mp h).1
      intro z hz
      rcases List.mem_cons.mp hz with rfl | hz
      · exact hxy
      · have hyz := (List.pairwise_cons.mp hrest).1 z hz
        linarith

/-- Entries whose offsets are spaced are apart. -/
theorem apart_of_spaced {out : List PortPosition} {delta : ℚ} {entries : List Nat}
    (h : Spaced delta (entries.map (offsetAt out))) :
    entries.Pairwise (fun i j => delta ≤ |offsetAt out i - offsetAt out j|) := by
  by_cases hgap : 0 < delta
  · have hpairs := h.pairwise hgap
    rw [List.pairwise_map] at hpairs
    refine hpairs.imp ?_
    intro i j hij
    rw [abs_sub_comm]
    exact le_trans (by linarith) (le_abs_self _)
  · refine List.pairwise_of_forall ?_
    intro i j
    exact le_trans (not_lt.mp hgap) (abs_nonneg _)

/-- Ports in order that are apart are spaced. -/
theorem spaced_of_apart (h : SideApart positions nodeBox minCenterGapPx side) :
    Spaced (effectiveDelta (sideEntries positions side).length side nodeBox minCenterGapPx)
      ((sideEntries positions side).map (offsetAt positions)) := by
  have hpairs : (sideEntries positions side).Pairwise (fun i j => offsetAt positions i +
      effectiveDelta (sideEntries positions side).length side nodeBox minCenterGapPx ≤
        offsetAt positions j) := by
    refine ((sideEntries_sorted positions side).and (sideEntries_nodup positions side)).imp_of_mem ?_
    intro i j hi hj hij
    have hgap := h i ((sideEntries_perm positions side).mem_iff.mp hi) j
      ((sideEntries_perm positions side).mem_iff.mp hj) hij.2
    rw [← sideEntries_length, abs_sub_comm,
      abs_of_nonneg (by linarith [portKey_le_offset hij.1])] at hgap
    linarith
  exact (List.pairwise_map.mpr hpairs).isChain

theorem sideOffsets_of_spaced
    (h : Spaced (effectiveDelta (sideEntries (clampPositions positions) side).length side nodeBox
      minCenterGapPx)
        ((sideEntries (clampPositions positions) side).map (offsetAt (clampPositions positions)))) :
    sideOffsets nodeBox minCenterGapPx (clampPositions positions) side =
      (sideEntries (clampPositions positions) side).map (offsetAt (clampPositions positions)) := by
  unfold sideOffsets
  dsimp only
  split
  next => rfl
  next =>
    rw [List.length_map]
    refine separateOffsets_of_spaced h ?_
    intro y hy
    obtain ⟨i, _, rfl⟩ := List.mem_map.mp hy
    exact clampPositions_range positions i

theorem sideOffsets_range (positions : List PortPosition) (nodeBox : NodeBox) (minCenterGapPx : ℚ)
    (side : PortSide) :
    ∀ y ∈ sideOffsets nodeBox minCenterGapPx (clampPositions positions) side, 0 ≤ y ∧ y ≤ 1 := by
  unfold sideOffsets
  dsimp only
  split
  next =>
    intro y hy
    obtain ⟨i, _, rfl⟩ := List.mem_map.mp hy
    exact clampPositions_range positions i
  next =>
    unfold separateOffsets
    intro y hy
    obtain ⟨z, _, rfl⟩ := List.mem_map.mp hy
    exact clamp01_range z

theorem clampPositions_side (positions : List PortPosition) (i : Nat) :
    (clampPositions positions)[i]?.map PortPosition.side = positions[i]?.map PortPosition.side := by
  unfold clampPositions
  rw [List.getElem?_map, Option.map_map]
  rfl

theorem onSide_clamp (positions : List PortPosition) (side : PortSide) :
    onSide (clampPositions positions) side = onSide positions side :=
  onSide_congr (by simp [clampPositions]) (clampPositions_side positions) side

theorem onSide_separated (positions : List PortPosition) (nodeBox : NodeBox) (minCenterGapPx : ℚ)
    (side : PortSide) : onSide (separateSides positions nodeBox minCenterGapPx) side =
      onSide (clampPositions positions) side := by
  obtain ⟨hlength, hsides, _⟩ := separateSides_spec positions nodeBox minCenterGapPx
  exact (onSide_congr hlength hsides side).trans (onSide_clamp positions side).symm

theorem entries_separated (positions : List PortPosition) (nodeBox : NodeBox) (minCenterGapPx : ℚ)
    (side : PortSide) : (sideEntries (clampPositions positions) side).Perm
      (onSide (separateSides positions nodeBox minCenterGapPx) side) := by
  rw [onSide_separated]
  exact sideEntries_perm _ _

/-- Two entries that are pressed together are not apart. -/
theorem not_apart_of_close {out : List PortPosition} {entries : List Nat}
    (hperm : entries.Perm (onSide out side)) (hnodup : entries.Nodup) {front : List ℚ} {y z : ℚ}
    (hvalues : entries.map (offsetAt out) = front ++ [y, z])
    (hclose : |y - z| < effectiveDelta entries.length side nodeBox minCenterGapPx) :
    ¬ SideApart out nodeBox minCenterGapPx side := by
  intro hapart
  obtain ⟨first, last, rfl, _, hlast⟩ := List.map_eq_append_iff.mp hvalues
  obtain ⟨i, rest, rfl, hi, hrest⟩ := List.map_eq_cons_iff.mp hlast
  obtain ⟨j, rest, rfl, hj, hnil⟩ := List.map_eq_cons_iff.mp hrest
  have hne : i ≠ j := by
    rintro rfl
    exact (List.nodup_cons.mp (List.nodup_append.mp hnodup).2.1).1 (by simp)
  have hgap := hapart i (hperm.mem_iff.mp (by simp)) j (hperm.mem_iff.mp (by simp)) hne
  rw [← hperm.length_eq, hi, hj] at hgap
  linarith

theorem hasRoom_of_separated (h : PortsSeparated positions nodeBox minCenterGapPx
      (separateSides positions nodeBox minCenterGapPx)) :
    HasRoom (clampPositions positions) nodeBox minCenterGapPx := by
  intro side hlong
  dsimp only
  rw [List.length_map]
  have hoffsets := (separateSides_spec positions nodeBox minCenterGapPx).2.2 side
  rcases sideOffsets_case positions nodeBox minCenterGapPx hlong with
    ⟨hspaced, _⟩ | ⟨_, hfits, _⟩ | ⟨_, _, front, y, z, hvalues, hclose⟩
  · rcases hlist : (sideEntries (clampPositions positions) side).map
        (offsetAt (clampPositions positions)) with _ | ⟨x, rest⟩
    · exact trivial
    · rw [hlist] at hspaced
      refine hspaced.fits ?_
      intro y hy
      rw [← hlist] at hy
      obtain ⟨i, _, rfl⟩ := List.mem_map.mp hy
      exact clampPositions_range positions i
  · exact hfits
  · rw [hvalues] at hoffsets
    exact absurd (h.apart side) (not_apart_of_close (entries_separated _ _ _ side)
      (sideEntries_nodup _ side) hoffsets hclose)

/-- What the turn for a side with room leaves behind. -/
theorem side_of_room (hroom : HasRoom (clampPositions positions) nodeBox minCenterGapPx)
    (side : PortSide) :
    Spaced (effectiveDelta (sideEntries (clampPositions positions) side).length side nodeBox
        minCenterGapPx) ((sideEntries (clampPositions positions) side).map
          (offsetAt (separateSides positions nodeBox minCenterGapPx))) ∧
      sideEntries (separateSides positions nodeBox minCenterGapPx) side =
        sideEntries (clampPositions positions) side := by
  have hoffsets := (separateSides_spec positions nodeBox minCenterGapPx).2.2 side
  have hkept : sideOffsets nodeBox minCenterGapPx (clampPositions positions) side =
      (sideEntries (clampPositions positions) side).map (offsetAt (clampPositions positions)) →
        sideEntries (separateSides positions nodeBox minCenterGapPx) side =
          sideEntries (clampPositions positions) side := by
    intro hsame
    refine SameSide.sideEntries ⟨onSide_separated _ _ _ side, ?_⟩
    intro i hi
    exact List.map_inj_left.mp (hoffsets.trans hsame) i
      ((sideEntries_perm _ side).mem_iff.mpr hi)
  by_cases hlong : 2 ≤ (sideEntries (clampPositions positions) side).length
  · rw [hoffsets]
    rcases sideOffsets_case positions nodeBox minCenterGapPx hlong with
      ⟨hspaced, hsame⟩ | ⟨hgap, _, hspaced⟩ | ⟨_, hfull, _⟩
    · exact ⟨hsame.symm ▸ hspaced, hkept hsame⟩
    · refine ⟨hspaced, sideEntries_unique (entries_separated _ _ _ side) ?_⟩
      have hpairs := hspaced.pairwise hgap
      rw [← hoffsets, List.pairwise_map] at hpairs
      refine hpairs.imp ?_
      intro i j hij
      unfold portKey
      rw [Prod.Lex.toLex_le_toLex]
      exact .inl (by linarith)
    · have hfits := hroom side hlong
      dsimp only at hfits
      rw [List.length_map] at hfits
      exact absurd hfits hfull
  · have hsame : sideOffsets nodeBox minCenterGapPx (clampPositions positions) side =
        (sideEntries (clampPositions positions) side).map (offsetAt (clampPositions positions)) := by
      unfold sideOffsets
      dsimp only
      rw [List.length_map, if_pos (by omega)]
    refine ⟨?_, hkept hsame⟩
    rcases hentries : sideEntries (clampPositions positions) side with _ | ⟨i, _ | ⟨j, rest⟩⟩
    · exact .nil
    · exact .singleton _
    · rw [hentries] at hlong
      simp at hlong

theorem separated_of_hasRoom (hroom : HasRoom (clampPositions positions) nodeBox minCenterGapPx) :
    PortsSeparated positions nodeBox minCenterGapPx
      (separateSides positions nodeBox minCenterGapPx) := by
  obtain ⟨hlength, hsides, hoffsets⟩ := separateSides_spec positions nodeBox minCenterGapPx
  refine ⟨hlength, hsides, ?_, ?_, fun side => (side_of_room hroom side).2, ?_⟩
  · intro position hposition
    obtain ⟨i, hi, rfl⟩ := List.mem_iff_getElem.mp hposition
    have hget := List.getElem?_eq_getElem hi
    have hmem : i ∈ sideEntries (clampPositions positions)
        (separateSides positions nodeBox minCenterGapPx)[i].side := by
      rw [mem_sideEntries, clampPositions_side, ← hsides i, hget]
      rfl
    have hvalue := List.mem_map_of_mem (f := offsetAt (separateSides positions nodeBox minCenterGapPx))
      hmem
    rw [hoffsets] at hvalue
    have hrange := sideOffsets_range positions nodeBox minCenterGapPx _ _ hvalue
    unfold offsetAt at hrange
    rwa [hget] at hrange
  · intro side
    refine sideApart_of_spaced (entries_separated _ _ _ side) ?_
    rw [← (entries_separated positions nodeBox minCenterGapPx side).length_eq]
    exact apart_of_spaced (side_of_room hroom side).1
  · intro side hapart i hi
    have hsame := sideOffsets_of_spaced (spaced_of_apart hapart)
    have hmem : i ∈ sideEntries (clampPositions positions) side := by
      rw [mem_sideEntries, clampPositions_side]
      exact mem_onSide.mp hi
    have hvalue := List.map_inj_left.mp ((hoffsets side).trans hsame) i hmem
    exact entry_same ((hsides i).trans (clampPositions_side positions i).symm) hvalue

/-- The ports are separated where every side has the room for its ports. -/
theorem separateSides_separates_iff (positions : List PortPosition) (nodeBox : NodeBox)
    (minCenterGapPx : ℚ) :
    PortsSeparated positions nodeBox minCenterGapPx (separateSides positions nodeBox minCenterGapPx) ↔
      HasRoom (clampPositions positions) nodeBox minCenterGapPx :=
  ⟨hasRoom_of_separated, separated_of_hasRoom⟩

/-- Four ports on the top of a box, three of them near its end. -/
def crowdedPorts : List PortPosition :=
  [{ side := .top, offset := 0 }, { side := .top, offset := 9 / 10 },
    { side := .top, offset := 19 / 20 }, { side := .top, offset := 1 }]

/-- The last two of them end up on one spot. -/
theorem crowdedPorts_pressed : ¬ ∀ (positions : List PortPosition) (nodeBox : NodeBox)
    (minCenterGapPx : ℚ), PortsSeparated positions nodeBox minCenterGapPx
      (separateSides positions nodeBox minCenterGapPx) := by
  intro hall
  have hapart := (hall crowdedPorts { x := 0, y := 0, w := 110, h := 60 } 11).apart .top
    2 (by decide +kernel) 3 (by decide +kernel) (by decide)
  exact absurd hapart (by decide +kernel)

end NovaVe
