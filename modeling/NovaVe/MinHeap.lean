import Mathlib.Data.List.Perm.Basic
import Mathlib.Order.Lattice

namespace NovaVe

variable {α β : Type} {key : α → β} {less : α → α → Bool} {data : Array α}

/-- `less` of the elements at two positions, false beyond the end. -/
def lessAt {α : Type} (less : α → α → Bool) (data : Array α) (i j : Nat) : Bool :=
  match data[i]?, data[j]? with
  | some a, some b => less a b
  | _, _ => false

/-- The loop of `siftUp`; `fuel` bounds its steps. -/
def siftUp {α : Type} (less : α → α → Bool) : Nat → Array α → Nat → Array α
  | 0, data, _ => data
  | fuel + 1, data, i =>
    if i = 0 then data
    else
      let parent := (i - 1) / 2
      if lessAt less data i parent then siftUp less fuel (data.swapIfInBounds i parent) parent
      else data

/-- The position that comes first among `i` and its children. -/
def smallestAt {α : Type} (less : α → α → Bool) (data : Array α) (i : Nat) : Nat :=
  let smallest := if lessAt less data (i * 2 + 1) i then i * 2 + 1 else i
  if lessAt less data (i * 2 + 2) smallest then i * 2 + 2 else smallest

/-- The loop of `siftDown`. -/
def siftDown {α : Type} (less : α → α → Bool) : Nat → Array α → Nat → Array α
  | 0, data, _ => data
  | fuel + 1, data, i =>
    let smallest := smallestAt less data i
    if smallest = i then data
    else siftDown less fuel (data.swapIfInBounds i smallest) smallest

/-- `MinHeap.push`. -/
def heapPush {α : Type} (less : α → α → Bool) (data : Array α) (item : α) : Array α :=
  siftUp less data.size (data.push item) data.size

/-- `MinHeap.pop`: the first element, and the elements that are left. -/
def heapPop {α : Type} (less : α → α → Bool) (data : Array α) : Option (α × Array α) :=
  match data[0]?, data.back? with
  | some top, some last =>
    if data.pop.size = 0 then some (top, data.pop)
    else some (top, siftDown less data.size (data.pop.setIfInBounds 0 last) 0)
  | _, _ => none

/-- The element at `p` comes no later than the one at `c`. -/
def OrderedAt {α β : Type} [LinearOrder β] (key : α → β) (data : Array α) (p c : Nat) : Prop :=
  ∀ (hp : p < data.size) (hc : c < data.size), key data[p] ≤ key data[c]

/-- No element comes before its parent. -/
def IsHeap {α β : Type} [LinearOrder β] (key : α → β) (data : Array α) : Prop :=
  ∀ c, 0 < c → OrderedAt key data ((c - 1) / 2) c

/-- A heap but for the element at `i`, which may come before its parent. -/
structure HeapUpTo {α β : Type} [LinearOrder β] (key : α → β) (data : Array α) (i : Nat) : Prop where
  elsewhere : ∀ c, 0 < c → c ≠ i → OrderedAt key data ((c - 1) / 2) c
  grand : ∀ c, 0 < c → (c - 1) / 2 = i → 0 < i → OrderedAt key data ((i - 1) / 2) c

/-- A heap but for the element at `i`, which may come after its children. -/
structure HeapBelow {α β : Type} [LinearOrder β] (key : α → β) (data : Array α) (i : Nat) : Prop where
  elsewhere : ∀ c, 0 < c → (c - 1) / 2 ≠ i → OrderedAt key data ((c - 1) / 2) c
  grand : ∀ c, 0 < c → (c - 1) / 2 = i → 0 < i → OrderedAt key data ((i - 1) / 2) c

theorem lessAt_iff [LinearOrder β] (hless : ∀ a b, less a b = true ↔ key a < key b) {i j : Nat} :
    lessAt less data i j = true ↔
      ∃ (hi : i < data.size) (hj : j < data.size), key data[i] < key data[j] := by
  unfold lessAt
  by_cases hi : i < data.size
  · by_cases hj : j < data.size
    · rw [Array.getElem?_eq_getElem hi, Array.getElem?_eq_getElem hj]
      exact ⟨fun h => ⟨hi, hj, (hless _ _).mp h⟩, fun ⟨_, _, h⟩ => (hless _ _).mpr h⟩
    · rw [Array.getElem?_eq_none (by omega : data.size ≤ j)]
      simp [hj]
  · rw [Array.getElem?_eq_none (by omega : data.size ≤ i)]
    simp [hi]

theorem swap_perm {α : Type} (data : Array α) (i j : Nat) :
    (data.swapIfInBounds i j).toList.Perm data.toList := by
  unfold Array.swapIfInBounds
  split
  next hi =>
    split
    next hj => exact (Array.swap_perm hi hj).toList
    next => exact List.Perm.refl _
  next => exact List.Perm.refl _

theorem siftUp_perm {α : Type} (less : α → α → Bool) (fuel : Nat) (data : Array α) (i : Nat) :
    (siftUp less fuel data i).toList.Perm data.toList := by
  induction fuel generalizing data i with
  | zero => exact List.Perm.refl _
  | succ fuel ih =>
    unfold siftUp
    split
    next => exact List.Perm.refl _
    next =>
      dsimp only
      split
      next => exact (ih _ _).trans (swap_perm data i _)
      next => exact List.Perm.refl _

theorem siftDown_perm {α : Type} (less : α → α → Bool) (fuel : Nat) (data : Array α) (i : Nat) :
    (siftDown less fuel data i).toList.Perm data.toList := by
  induction fuel generalizing data i with
  | zero => exact List.Perm.refl _
  | succ fuel ih =>
    unfold siftDown
    dsimp only
    split
    next => exact List.Perm.refl _
    next => exact (ih _ _).trans (swap_perm data i _)

/-- One step up keeps the heap but for the element that moved. -/
theorem HeapUpTo.swap [LinearOrder β] {i : Nat} (h : HeapUpTo key data i) (hpos : 0 < i)
    (hi : i < data.size) (hp : (i - 1) / 2 < data.size) (hlt : key data[i] < key data[(i - 1) / 2]) :
    HeapUpTo key (data.swapIfInBounds i ((i - 1) / 2)) ((i - 1) / 2) := by
  have hbefore : (i - 1) / 2 < i := by omega
  have hat : ∀ k (hk : k < (data.swapIfInBounds i ((i - 1) / 2)).size) (hk' : k < data.size),
      (data.swapIfInBounds i ((i - 1) / 2))[k] =
        if k = i then data[(i - 1) / 2] else if k = (i - 1) / 2 then data[i] else data[k] := by
    intro k hk hk'
    rw [Array.getElem_swapIfInBounds]
    grind
  constructor
  · intro c hc hne hcp hcc
    have hsize := @Array.size_swapIfInBounds _ data i ((i - 1) / 2)
    rw [hat _ hcp (by omega), hat _ hcc (by omega)]
    rw [hsize] at hcp hcc
    by_cases hci : c = i
    · subst hci
      rw [if_pos rfl, if_neg (by omega), if_pos rfl]
      exact hlt.le
    · have hold := h.elsewhere c hc hci hcp hcc
      rw [if_neg hci, if_neg hne]
      by_cases hpi : (c - 1) / 2 = i
      · rw [if_pos hpi]
        exact h.grand c hc hpi hpos hp hcc
      · rw [if_neg hpi]
        by_cases hpp : (c - 1) / 2 = (i - 1) / 2
        · rw [if_pos hpp]
          have hsame : key data[(i - 1) / 2] ≤ key data[c] := by
            simpa only [hpp] using hold
          exact hlt.le.trans hsame
        · rw [if_neg hpp]
          exact hold
  · intro c hc hcp hpos' hpp hcc
    have hsize := @Array.size_swapIfInBounds _ data i ((i - 1) / 2)
    rw [hat _ hpp (by omega), hat _ hcc (by omega)]
    rw [hsize] at hpp hcc
    have hup := h.elsewhere ((i - 1) / 2) hpos' (by omega) hpp hp
    rw [if_neg (by omega), if_neg (by omega)]
    by_cases hci : c = i
    · rw [if_pos hci]
      exact hup
    · have hold := h.elsewhere c hc hci (by omega) hcc
      rw [if_neg hci, if_neg (by omega)]
      have hsame : key data[(i - 1) / 2] ≤ key data[c] := by
        simpa only [hcp] using hold
      exact hup.trans hsame

theorem siftUp_isHeap [LinearOrder β] (hless : ∀ a b, less a b = true ↔ key a < key b) {fuel : Nat}
    {i : Nat} (h : HeapUpTo key data i) (hi : i < data.size) (hfuel : i ≤ fuel) :
    IsHeap key (siftUp less fuel data i) := by
  induction fuel generalizing data i with
  | zero =>
    intro c hc
    exact h.elsewhere c hc (by omega)
  | succ fuel ih =>
    unfold siftUp
    split
    next hzero =>
      intro c hc
      exact h.elsewhere c hc (by omega)
    next hne =>
      dsimp only
      split
      next hlt =>
        obtain ⟨_, hp, hlt⟩ := (lessAt_iff hless).mp hlt
        apply ih (h.swap (by omega) hi hp hlt)
        · rw [Array.size_swapIfInBounds]
          exact hp
        · omega
      next hge =>
        intro c hc
        by_cases hci : c = i
        · subst hci
          intro hp hcc
          by_contra hlt
          exact hge ((lessAt_iff hless).mpr ⟨hcc, hp, not_le.mp hlt⟩)
        · exact h.elsewhere c hc hci

/-- The smallest position is that of the element or of a child, and none of them comes before it. -/
theorem smallestAt_spec [LinearOrder β] (hless : ∀ a b, less a b = true ↔ key a < key b) {i : Nat}
    (hi : i < data.size) :
    ∃ hs : smallestAt less data i < data.size,
      (smallestAt less data i = i ∨
        0 < smallestAt less data i ∧ (smallestAt less data i - 1) / 2 = i ∧
          key data[smallestAt less data i] < key data[i]) ∧
      ∀ c (hc : c < data.size), 0 < c → (c - 1) / 2 = i →
        key data[smallestAt less data i] ≤ key data[c] := by
  have hfirst : ∀ s, s = (if lessAt less data (i * 2 + 1) i then i * 2 + 1 else i) →
      ∃ hs : s < data.size, (s = i ∨ s = i * 2 + 1 ∧ key data[s] < key data[i]) ∧
        key data[s] ≤ key data[i] ∧
          ∀ hc : i * 2 + 1 < data.size, key data[s] ≤ key data[i * 2 + 1] := by
    intro s hs
    by_cases hlt : lessAt less data (i * 2 + 1) i = true
    · rw [if_pos hlt] at hs
      subst hs
      obtain ⟨hl, _, hlt⟩ := (lessAt_iff hless).mp hlt
      exact ⟨hl, Or.inr ⟨rfl, hlt⟩, hlt.le, fun _ => le_rfl⟩
    · rw [if_neg hlt] at hs
      subst hs
      refine ⟨hi, Or.inl rfl, le_rfl, ?_⟩
      intro hl
      by_contra hgt
      exact hlt ((lessAt_iff hless).mpr ⟨hl, hi, not_le.mp hgt⟩)
  unfold smallestAt
  dsimp only
  generalize hs : (if lessAt less data (i * 2 + 1) i = true then i * 2 + 1 else i) = s
  obtain ⟨hsize, hcase, hself, hleft⟩ := hfirst s hs.symm
  have hchild : ∀ c, 0 < c → (c - 1) / 2 = i → c = i * 2 + 1 ∨ c = i * 2 + 2 := by
    intro c _ _
    omega
  by_cases hlt : lessAt less data (i * 2 + 2) s = true
  · obtain ⟨hr, _, hlt'⟩ := (lessAt_iff hless).mp hlt
    simp only [if_pos hlt]
    refine ⟨hr, Or.inr ⟨by omega, by omega, hlt'.trans_le hself⟩, ?_⟩
    intro c hc hpos hparent
    rcases hchild c hpos hparent with rfl | rfl
    · exact hlt'.le.trans (hleft hc)
    · exact le_rfl
  · simp only [if_neg hlt]
    refine ⟨hsize, ?_, ?_⟩
    · rcases hcase with rfl | ⟨rfl, hless'⟩
      · exact Or.inl rfl
      · exact Or.inr ⟨by omega, by omega, hless'⟩
    · intro c hc hpos hparent
      rcases hchild c hpos hparent with rfl | rfl
      · exact hleft hc
      · by_contra hgt
        exact hlt ((lessAt_iff hless).mpr ⟨hc, hsize, not_le.mp hgt⟩)

/-- One step down keeps the heap but for the element that moved. -/
theorem HeapBelow.swap [LinearOrder β] {i s : Nat} (h : HeapBelow key data i) (hi : i < data.size)
    (hs : s < data.size) (hpos : 0 < s) (hparent : (s - 1) / 2 = i)
    (hlt : key data[s] < key data[i])
    (hleast : ∀ c (hc : c < data.size), 0 < c → (c - 1) / 2 = i → key data[s] ≤ key data[c]) :
    HeapBelow key (data.swapIfInBounds i s) s := by
  have hbefore : i < s := by omega
  have hat : ∀ k (hk : k < (data.swapIfInBounds i s).size) (hk' : k < data.size),
      (data.swapIfInBounds i s)[k] =
        if k = i then data[s] else if k = s then data[i] else data[k] := by
    intro k hk hk'
    rw [Array.getElem_swapIfInBounds]
    grind
  constructor
  · intro c hc hne hcp hcc
    have hsize := @Array.size_swapIfInBounds _ data i s
    rw [hat _ hcp (by omega), hat _ hcc (by omega)]
    rw [hsize] at hcp hcc
    rw [if_neg hne]
    by_cases hci : c = i
    · rw [if_neg (by omega), if_pos hci]
      simp only [hci]
      exact h.grand s hpos hparent (by omega) (by omega) hs
    · rw [if_neg hci]
      by_cases hcs : c = s
      · subst hcs
        rw [if_pos hparent, if_pos rfl]
        exact hlt.le
      · rw [if_neg hcs]
        by_cases hpi : (c - 1) / 2 = i
        · rw [if_pos hpi]
          exact hleast c hcc hc hpi
        · rw [if_neg hpi]
          exact h.elsewhere c hc hpi hcp hcc
  · intro c hc hcp _ hpp hcc
    have hsize := @Array.size_swapIfInBounds _ data i s
    rw [hat _ hpp (by omega), hat _ hcc (by omega)]
    rw [hsize] at hpp hcc
    have hold := h.elsewhere c hc (by omega) (by omega) hcc
    rw [if_pos hparent, if_neg (by omega), if_neg (by omega)]
    simpa only [hcp] using hold

theorem siftDown_isHeap [LinearOrder β] (hless : ∀ a b, less a b = true ↔ key a < key b)
    {fuel : Nat} {i : Nat} (h : HeapBelow key data i) (hi : i < data.size)
    (hfuel : data.size ≤ i + fuel) :
    IsHeap key (siftDown less fuel data i) := by
  induction fuel generalizing data i with
  | zero => omega
  | succ fuel ih =>
    obtain ⟨hs, hcase, hleast⟩ := smallestAt_spec hless hi
    unfold siftDown
    dsimp only
    split
    next hsame =>
      intro c hc
      by_cases hci : (c - 1) / 2 = i
      · intro hp hcc
        have hchild := hleast c hcc hc hci
        simpa only [hsame, hci] using hchild
      · exact h.elsewhere c hc hci
    next hne =>
      obtain ⟨hpos, hparent, hlt⟩ := hcase.resolve_left hne
      apply ih (h.swap hi hs hpos hparent hlt hleast)
      · rw [Array.size_swapIfInBounds]
        exact hs
      · rw [Array.size_swapIfInBounds]
        omega

theorem heapPush_perm {α : Type} (less : α → α → Bool) (data : Array α) (item : α) :
    (heapPush less data item).toList.Perm (item :: data.toList) := by
  unfold heapPush
  refine (siftUp_perm less _ _ _).trans ?_
  rw [Array.toList_push]
  exact List.perm_append_comm

theorem heapPush_isHeap [LinearOrder β] (hless : ∀ a b, less a b = true ↔ key a < key b)
    (h : IsHeap key data) (item : α) : IsHeap key (heapPush less data item) := by
  unfold heapPush
  refine siftUp_isHeap hless ⟨?_, ?_⟩ (by simp) le_rfl
  · intro c hc hne hcp hcc
    rw [Array.size_push] at hcp hcc
    rw [Array.getElem_push_lt (by omega), Array.getElem_push_lt (by omega)]
    exact h c hc (by omega) (by omega)
  · intro c hc hcp _ hpp hcc
    rw [Array.size_push] at hcc
    omega

/-- The first element of a heap comes no later than any other. -/
theorem IsHeap.first_le [LinearOrder β] (h : IsHeap key data) (hzero : 0 < data.size) (i : Nat)
    (hi : i < data.size) :
    key data[0] ≤ key data[i] := by
  induction i using Nat.strong_induction_on with
  | _ i ih =>
    by_cases hfirst : i = 0
    · subst hfirst
      exact le_rfl
    · have hparent := ih ((i - 1) / 2) (by omega) (by omega)
      exact hparent.trans (h i (by omega) (by omega) hi)

/-- The elements before and after a pop, before the last one sinks. -/
theorem popped_perm {α : Type} {data : Array α} {top last : α} (htop : data[0]? = some top)
    (hlast : data.back? = some last) (hmore : data.pop.size ≠ 0) :
    data.toList.Perm (top :: (data.pop.setIfInBounds 0 last).toList) := by
  obtain ⟨before, rfl⟩ := Array.back?_eq_some_iff.mp hlast
  rw [Array.pop_push] at hmore ⊢
  obtain ⟨elems⟩ := before
  cases elems with
  | nil => exact absurd rfl hmore
  | cons first more =>
    have hfirst : first = top := by simpa using htop
    subst hfirst
    have hmoved : ((first :: more).toArray.setIfInBounds 0 last).toList = last :: more := by simp
    rw [hmoved, Array.toList_push]
    exact List.Perm.cons first List.perm_append_comm

/-- What a pop returns comes first, and the other elements are left, as a heap. -/
theorem heapPop_spec [LinearOrder β] (hless : ∀ a b, less a b = true ↔ key a < key b)
    {data rest : Array α} {top : α} (h : IsHeap key data)
    (hpop : heapPop less data = some (top, rest)) :
    data.toList.Perm (top :: rest.toList) ∧ IsHeap key rest ∧ ∀ item ∈ data, key top ≤ key item := by
  unfold heapPop at hpop
  split at hpop
  next first last hfirst hlast =>
    obtain ⟨hzero, hfirst'⟩ := Array.getElem?_eq_some_iff.mp hfirst
    have hleast : ∀ item ∈ data, key first ≤ key item := by
      intro item hitem
      obtain ⟨i, hi, rfl⟩ := Array.mem_iff_getElem.mp hitem
      rw [← hfirst']
      exact h.first_le hzero i hi
    split at hpop
    next hone =>
      cases hpop
      have hsize : data.size = 1 := by
        rw [Array.size_pop] at hone
        omega
      refine ⟨?_, ?_, hleast⟩
      · obtain ⟨elems⟩ := data
        obtain ⟨only, rfl⟩ := List.length_eq_one_iff.mp hsize
        simp at hfirst
        simp [hfirst]
      · intro c hc hp hcc
        omega
    next hmore =>
      cases hpop
      refine ⟨?_, ?_, hleast⟩
      · exact (popped_perm hfirst hlast hmore).trans
          (List.Perm.cons _ (siftDown_perm less _ _ _).symm)
      · apply siftDown_isHeap hless
        · constructor
          · intro c hc hne hcp hcc
            rw [Array.size_setIfInBounds] at hcc
            have hsize := @Array.size_pop _ data
            rw [Array.getElem_setIfInBounds_ne (by omega) (by omega),
              Array.getElem_setIfInBounds_ne (by omega) (by omega),
              Array.getElem_pop, Array.getElem_pop]
            exact h c hc (by omega) (by omega)
          · intro c _ _ hpos
            omega
        · rw [Array.size_setIfInBounds]
          omega
        · rw [Array.size_setIfInBounds, Array.size_pop]
          omega
  next => cases hpop

theorem heapPop_none {α : Type} {less : α → α → Bool} {data : Array α}
    (h : heapPop less data = none) : data = #[] := by
  unfold heapPop at h
  split at h
  next =>
    split at h
    next => cases h
    next => cases h
  next hnone =>
    by_contra hne
    have hpos : 0 < data.size := Array.size_pos_iff.mpr hne
    obtain ⟨last, hlast⟩ := Option.isSome_iff_exists.mp (Array.back?_isSome.mpr hne)
    exact hnone _ last (Array.getElem?_eq_getElem hpos) hlast

end NovaVe
