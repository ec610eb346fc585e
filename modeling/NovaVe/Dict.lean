import Mathlib.Data.List.Nodup
import Mathlib.Order.Lattice

namespace NovaVe

def assocGet {κ α : Type} [DecidableEq κ] : List (κ × α) → κ → Option α
  | [], _ => none
  | (key, value) :: rest, k => if key = k then some value else assocGet rest k

def assocSet {κ α : Type} [DecidableEq κ] : List (κ × α) → κ → α → List (κ × α)
  | [], k, v => [(k, v)]
  | (key, value) :: rest, k, v =>
    if key = k then (key, v) :: rest else (key, value) :: assocSet rest k v

def assocPop {κ α : Type} [DecidableEq κ] : List (κ × α) → κ → List (κ × α)
  | [], _ => []
  | (key, value) :: rest, k =>
    if key = k then assocPop rest k else (key, value) :: assocPop rest k

theorem assocPop_sublist {κ α : Type} [DecidableEq κ] (entries : List (κ × α)) (k : κ) :
    List.Sublist (assocPop entries k) entries := by
  induction entries with
  | nil => exact List.Sublist.slnil
  | cons entry rest ih =>
    by_cases hk : entry.1 = k
    · simpa [assocPop, hk] using ih.cons entry
    · simpa [assocPop, hk] using ih.cons_cons entry

theorem assocGet_isSome_iff {κ α : Type} [DecidableEq κ] {entries : List (κ × α)} {k : κ} :
    (assocGet entries k).isSome ↔ k ∈ entries.map Prod.fst := by
  induction entries with
  | nil => simp [assocGet]
  | cons entry rest ih =>
    obtain ⟨key, value⟩ := entry
    by_cases hk : key = k
    · simp [assocGet, hk]
    · simp [assocGet, hk, Ne.symm hk, ih]

theorem assocGet_of_mem {κ α : Type} [DecidableEq κ] {entries : List (κ × α)} {k : κ} {v : α}
    (hkeys : (entries.map Prod.fst).Nodup) (h : (k, v) ∈ entries) : assocGet entries k = some v := by
  induction entries with
  | nil => cases h
  | cons entry rest ih =>
    obtain ⟨key, value⟩ := entry
    obtain ⟨hnot, hrest⟩ := List.nodup_cons.mp hkeys
    rcases List.mem_cons.mp h with he | hm
    · cases he
      simp [assocGet]
    · have hk : key ≠ k := fun he => hnot (List.mem_map.mpr ⟨(k, v), hm, he.symm⟩)
      simp [assocGet, hk, ih hrest hm]

theorem mem_of_assocGet {κ α : Type} [DecidableEq κ] {entries : List (κ × α)} {k : κ} {v : α}
    (h : assocGet entries k = some v) : (k, v) ∈ entries := by
  induction entries with
  | nil => cases h
  | cons entry rest ih =>
    obtain ⟨key, value⟩ := entry
    by_cases hk : key = k
    · subst hk
      obtain rfl : value = v := by simpa [assocGet] using h
      exact List.mem_cons_self
    · exact List.mem_cons_of_mem _ (ih (by simpa [assocGet, hk] using h))

theorem assocSet_keys {κ α : Type} [DecidableEq κ] (entries : List (κ × α)) (k : κ) (v : α) :
    (assocSet entries k v).map Prod.fst =
      if k ∈ entries.map Prod.fst then entries.map Prod.fst else entries.map Prod.fst ++ [k] := by
  induction entries with
  | nil => simp [assocSet]
  | cons entry rest ih =>
    obtain ⟨key, value⟩ := entry
    by_cases hk : key = k
    · simp [assocSet, hk]
    · by_cases hm : k ∈ rest.map Prod.fst
      · rw [if_pos hm] at ih
        simp [assocSet, hk, ih, hm]
      · rw [if_neg hm] at ih
        simp [assocSet, hk, Ne.symm hk, ih, hm]

theorem assocGet_set {κ α : Type} [DecidableEq κ] (entries : List (κ × α)) (k j : κ) (v : α) :
    assocGet (assocSet entries k v) j = if k = j then some v else assocGet entries j := by
  induction entries with
  | nil => simp [assocSet, assocGet]
  | cons entry rest ih =>
    obtain ⟨key, value⟩ := entry
    by_cases hk : key = k
    · subst hk
      by_cases hj : key = j <;> simp [assocSet, assocGet, hj]
    · by_cases hj : key = j
      · subst hj
        simp [assocSet, assocGet, hk, Ne.symm hk]
      · simp [assocSet, assocGet, hk, hj, ih]

theorem assocGet_pop {κ α : Type} [DecidableEq κ] (entries : List (κ × α)) (k j : κ) :
    assocGet (assocPop entries k) j = if k = j then none else assocGet entries j := by
  induction entries with
  | nil => simp [assocPop, assocGet]
  | cons entry rest ih =>
    obtain ⟨key, value⟩ := entry
    by_cases hk : key = k
    · subst hk
      simp only [assocPop, if_true, ih]
      by_cases hj : key = j <;> simp [assocGet, hj]
    · by_cases hj : key = j
      · subst hj
        simp [assocPop, assocGet, hk, Ne.symm hk]
      · simp [assocPop, assocGet, hk, hj, ih]

theorem assocPop_set {κ α : Type} [DecidableEq κ] (entries : List (κ × α)) (k : κ) (v : α) :
    assocPop (assocSet entries k v) k = assocPop entries k := by
  induction entries with
  | nil => simp [assocSet, assocPop]
  | cons entry rest ih =>
    obtain ⟨key, value⟩ := entry
    by_cases hk : key = k
    · simp [assocSet, assocPop, hk]
    · simp [assocSet, assocPop, hk, ih]

theorem assocPop_fresh {κ α : Type} [DecidableEq κ] {entries : List (κ × α)} {k : κ}
    (h : assocGet entries k = none) : assocPop entries k = entries := by
  induction entries with
  | nil => rfl
  | cons entry rest ih =>
    obtain ⟨key, value⟩ := entry
    by_cases hk : key = k
    · simp [assocGet, hk] at h
    · have hrest : assocGet rest k = none := by simpa [assocGet, hk] using h
      simp [assocPop, hk, ih hrest]

theorem assocSet_set {κ α : Type} [DecidableEq κ] (entries : List (κ × α)) (k : κ) (v w : α) :
    assocSet (assocSet entries k v) k w = assocSet entries k w := by
  induction entries with
  | nil => simp [assocSet]
  | cons entry rest ih =>
    obtain ⟨key, value⟩ := entry
    by_cases hk : key = k <;> simp [assocSet, hk, ih]

theorem assocSet_get {κ α : Type} [DecidableEq κ] {entries : List (κ × α)} {k : κ} {v : α}
    (h : assocGet entries k = some v) : assocSet entries k v = entries := by
  induction entries with
  | nil => cases h
  | cons entry rest ih =>
    obtain ⟨key, value⟩ := entry
    by_cases hk : key = k
    · simp only [assocGet, hk, if_true, Option.some.injEq] at h
      simp [assocSet, hk, h]
    · simp only [assocGet, hk, if_false] at h
      simp [assocSet, hk, ih h]

/-- A dictionary that keeps insertion order: every key occurs once. -/
structure Dict (κ α : Type) where
  entries : List (κ × α)
  keysNodup : (entries.map Prod.fst).Nodup
deriving DecidableEq

variable {κ α : Type} {entries : List (κ × α)} {k : κ} {v : α} {d : Dict κ α}

def Dict.empty {κ α : Type} : Dict κ α := ⟨[], List.nodup_nil⟩

def Dict.keys {κ α : Type} (d : Dict κ α) : List κ := d.entries.map Prod.fst

def Dict.get? {κ α : Type} [DecidableEq κ] (d : Dict κ α) (k : κ) : Option α :=
  assocGet d.entries k

/-- `d[k] = v`: in place for a key that is there, at the end for a new one. -/
def Dict.set {κ α : Type} [DecidableEq κ] (d : Dict κ α) (k : κ) (v : α) : Dict κ α where
  entries := assocSet d.entries k v
  keysNodup := by
    rw [assocSet_keys]
    split
    next => exact d.keysNodup
    next h =>
      refine List.nodup_append.mpr ⟨d.keysNodup, List.nodup_singleton k, ?_⟩
      intro x hx y hy he
      obtain rfl := List.mem_singleton.mp hy
      exact h (he ▸ hx)

/-- `d.pop(k, None)`. -/
def Dict.pop {κ α : Type} [DecidableEq κ] (d : Dict κ α) (k : κ) : Dict κ α where
  entries := assocPop d.entries k
  keysNodup := d.keysNodup.sublist ((assocPop_sublist d.entries k).map _)

/-- Change the value of a key that is there. -/
def Dict.modify {κ α : Type} [DecidableEq κ] (d : Dict κ α) (k : κ) (f : α → α) : Dict κ α :=
  match d.get? k with
  | none => d
  | some v => d.set k (f v)

def Dict.mapValues {κ α : Type} (f : α → α) (d : Dict κ α) : Dict κ α where
  entries := d.entries.map (fun entry => (entry.1, f entry.2))
  keysNodup := by simpa [List.map_map, Function.comp_def] using d.keysNodup

def Dict.filterKeys {κ α : Type} (p : κ → Bool) (d : Dict κ α) : Dict κ α where
  entries := d.entries.filter (fun entry => p entry.1)
  keysNodup := d.keysNodup.sublist (List.filter_sublist.map _)

@[simp] theorem Dict.get?_empty {κ α : Type} [DecidableEq κ] (k : κ) :
    (Dict.empty : Dict κ α).get? k = none := rfl

theorem Dict.get?_set [DecidableEq κ] (d : Dict κ α) (k j : κ) (v : α) :
    (d.set k v).get? j = if k = j then some v else d.get? j :=
  assocGet_set d.entries k j v

@[simp] theorem Dict.get?_set_self {κ α : Type} [DecidableEq κ] (d : Dict κ α) (k : κ) (v : α) :
    (d.set k v).get? k = some v := by
  simp [Dict.get?_set]

theorem Dict.get?_set_ne [DecidableEq κ] (d : Dict κ α) {k j : κ} (v : α) (h : k ≠ j) :
    (d.set k v).get? j = d.get? j := by
  simp [Dict.get?_set, h]

/-- Writing back what was there undoes a write. -/
theorem Dict.set_set_get [DecidableEq κ] {v w : α} (h : d.get? k = some v) :
    (d.set k w).set k v = d := by
  have he : ((d.set k w).set k v).entries = d.entries := by
    change assocSet (assocSet d.entries k w) k v = d.entries
    rw [assocSet_set, assocSet_get h]
  cases d
  simpa [Dict.set] using he

theorem assocGet_map [DecidableEq κ] (f : α → α) (entries : List (κ × α)) (k : κ) :
    assocGet (entries.map (fun entry => (entry.1, f entry.2))) k = (assocGet entries k).map f := by
  induction entries with
  | nil => rfl
  | cons entry rest ih =>
    by_cases hk : entry.1 = k <;> simp [assocGet, hk, ih]

theorem assocGet_filter [DecidableEq κ] (p : κ → Bool) (entries : List (κ × α)) (k : κ) :
    assocGet (entries.filter (fun entry => p entry.1)) k = if p k then assocGet entries k else none := by
  induction entries with
  | nil => simp [assocGet]
  | cons entry rest ih =>
    obtain ⟨key, value⟩ := entry
    by_cases hk : key = k
    · subst hk
      by_cases hp : p key
      · simp [assocGet, hp]
      · simpa [List.filter_cons, hp] using ih
    · by_cases hp : p key <;> simp [assocGet, hp, hk, ih]

theorem Dict.get?_filterKeys [DecidableEq κ] (p : κ → Bool) (d : Dict κ α) (k : κ) :
    (d.filterKeys p).get? k = if p k then d.get? k else none :=
  assocGet_filter p d.entries k

theorem Dict.get?_mapValues [DecidableEq κ] (f : α → α) (d : Dict κ α) (k : κ) :
    (d.mapValues f).get? k = (d.get? k).map f :=
  assocGet_map f d.entries k

theorem Dict.get?_modify [DecidableEq κ] (d : Dict κ α) (k j : κ) (f : α → α) :
    (d.modify k f).get? j = if k = j then (d.get? j).map f else d.get? j := by
  unfold Dict.modify
  by_cases hk : k = j
  · subst hk
    cases h : d.get? k <;> simp [h]
  · cases h : d.get? k <;> simp [hk, Dict.get?_set_ne]

theorem Dict.set_get [DecidableEq κ] (h : d.get? k = some v) : d.set k v = d := by
  have he : (d.set k v).entries = d.entries := assocSet_get h
  cases d
  simpa [Dict.set] using he

theorem Dict.set_set [DecidableEq κ] (d : Dict κ α) (k : κ) (v w : α) :
    (d.set k v).set k w = d.set k w := by
  have he : ((d.set k v).set k w).entries = (d.set k w).entries := assocSet_set d.entries k v w
  rcases hl : (d.set k v).set k w with ⟨entries, nodup⟩
  rcases hr : d.set k w with ⟨entries', nodup'⟩
  simpa [hl, hr] using he

theorem Dict.modify_set [DecidableEq κ] (d : Dict κ α) (k : κ) (v : α) (f : α → α) :
    (d.set k v).modify k f = d.set k (f v) := by
  unfold Dict.modify
  rw [Dict.get?_set_self]
  exact Dict.set_set d k v (f v)

theorem Dict.modify_of_get? [DecidableEq κ] (h : d.get? k = some v) (f : α → α) :
    d.modify k f = d.set k (f v) := by
  unfold Dict.modify
  rw [h]

/-- Changing a value to what it is changes nothing. -/
theorem Dict.modify_eq_self [DecidableEq κ] {f : α → α} (h : ∀ v, d.get? k = some v → f v = v) :
    d.modify k f = d := by
  unfold Dict.modify
  split
  next => rfl
  next v hv => rw [h v hv, Dict.set_get hv]

theorem Dict.get?_pop [DecidableEq κ] (d : Dict κ α) (k j : κ) :
    (d.pop k).get? j = if k = j then none else d.get? j :=
  assocGet_pop d.entries k j

theorem Dict.get?_pop_ne [DecidableEq κ] (d : Dict κ α) {k j : κ} (h : k ≠ j) :
    (d.pop k).get? j = d.get? j := by
  simp [Dict.get?_pop, h]

/-- Taking a new entry out again undoes the write. -/
theorem Dict.pop_set_fresh [DecidableEq κ] (h : d.get? k = none) (v : α) :
    (d.set k v).pop k = d := by
  have he : ((d.set k v).pop k).entries = d.entries := by
    show assocPop (assocSet d.entries k v) k = d.entries
    rw [assocPop_set, assocPop_fresh h]
  cases d
  simpa [Dict.set, Dict.pop] using he

theorem Dict.mem_keys_iff [DecidableEq κ] :
    k ∈ d.keys ↔ (d.get? k).isSome :=
  assocGet_isSome_iff.symm

/-- `max((key for key in d), default=0) + 1` over integer keys. -/
def Dict.nextKey {α : Type} (d : Dict Int α) : Int :=
  d.keys.foldl max 0 + 1

theorem Dict.mem_entries_of_get? [DecidableEq κ] (h : d.get? k = some v) : (k, v) ∈ d.entries :=
  mem_of_assocGet h

theorem foldl_fixed {α β : Type} {f : β → α → β} {b : β} {xs : List α}
    (h : ∀ x ∈ xs, f b x = b) : xs.foldl f b = b := by
  induction xs with
  | nil => rfl
  | cons x rest ih =>
    rw [List.foldl_cons, h x List.mem_cons_self]
    exact ih (fun y hy => h y (List.mem_cons_of_mem x hy))

/-- What no step of a fold changes is what it was at the start. -/
theorem foldl_keeps {α β γ : Type} {f : β → α → β} (g : β → γ) (h : ∀ b x, g (f b x) = g b)
    (xs : List α) (b : β) : g (xs.foldl f b) = g b := by
  induction xs generalizing b with
  | nil => rfl
  | cons x rest ih => rw [List.foldl_cons, ih, h]

/-- A fold over the entries of a dictionary, seen at one key: only its own entry counts. -/
theorem foldl_keyed {σ κ α β : Type} [DecidableEq κ] (look : σ → κ → Option β) (g : κ → α → β)
    {f : σ → κ × α → σ}
    (h : ∀ s entry j, look (f s entry) j = if j = entry.1 then some (g j entry.2) else look s j)
    {entries : List (κ × α)} (hkeys : (entries.map Prod.fst).Nodup) (s : σ) (j : κ) :
    look (entries.foldl f s) j = ((assocGet entries j).map (g j)).or (look s j) := by
  induction entries generalizing s with
  | nil => rfl
  | cons entry rest ih =>
    obtain ⟨i, v⟩ := entry
    obtain ⟨hnot, hrest⟩ := List.nodup_cons.mp hkeys
    rw [List.foldl_cons, ih hrest, h]
    by_cases hi : i = j
    · subst hi
      have hnone : assocGet rest i = none := by
        rw [← Option.not_isSome_iff_eq_none, assocGet_isSome_iff]
        exact hnot
      simp [assocGet, hnone]
    · simp [assocGet, hi, Ne.symm hi]

/-- A fold that marks its elements, seen at one of them or at another. -/
theorem foldl_marked {σ κ β : Type} [DecidableEq κ] (look : σ → κ → β) {g : β → β} {f : σ → κ → σ}
    (hg : ∀ b, g (g b) = g b) (h : ∀ s i j, look (f s i) j = if j = i then g (look s j) else look s j)
    (xs : List κ) (s : σ) (j : κ) :
    look (xs.foldl f s) j = if j ∈ xs then g (look s j) else look s j := by
  induction xs generalizing s with
  | nil => simp
  | cons i rest ih =>
    rw [List.foldl_cons, ih, h]
    by_cases hi : j = i
    · by_cases hr : j ∈ rest <;> simp [hi, hg]
    · simp [hi]

theorem le_foldl_max {α : Type} [LinearOrder α] {xs : List α} {init x : α}
    (h : x ∈ xs ∨ x ≤ init) : x ≤ xs.foldl max init := by
  induction xs generalizing init with
  | nil => simpa using h
  | cons y ys ih =>
    apply ih
    rcases h with h | h
    · rcases List.mem_cons.mp h with rfl | h
      · exact Or.inr (le_max_right _ _)
      · exact Or.inl h
    · exact Or.inr (h.trans (le_max_left _ _))

theorem Dict.nextKey_pos {α : Type} (d : Dict Int α) : 0 < d.nextKey := by
  have h : (0 : Int) ≤ d.keys.foldl max 0 := le_foldl_max (Or.inr le_rfl)
  unfold Dict.nextKey
  omega

/-- The next key is fresh. -/
theorem Dict.get?_nextKey {α : Type} (d : Dict Int α) : d.get? d.nextKey = none := by
  by_contra h
  have hm : d.nextKey ∈ d.keys := Dict.mem_keys_iff.mpr (Option.isSome_iff_ne_none.mpr h)
  have hle : d.nextKey ≤ d.keys.foldl max 0 := le_foldl_max (Or.inl hm)
  unfold Dict.nextKey at hle
  omega

/-- A search through the entries does not see a write that leaves its answer at the key. -/
theorem findSome?_assocSet {κ α β : Type} [DecidableEq κ] {f : κ × α → Option β}
    {entries : List (κ × α)} {k : κ} {v : α}
    (h : f (k, v) = (assocGet entries k).bind (fun old => f (k, old))) :
    (assocSet entries k v).findSome? f = entries.findSome? f := by
  induction entries with
  | nil =>
    have hnone : f (k, v) = none := h
    simp [assocSet, hnone]
  | cons entry rest ih =>
    obtain ⟨key, value⟩ := entry
    by_cases hk : key = k
    · subst hk
      have hsame : f (key, v) = f (key, value) := by simpa [assocGet] using h
      rw [assocSet, if_pos rfl, List.findSome?_cons, List.findSome?_cons, hsame]
    · have hrest := ih (by simpa [assocGet, hk] using h)
      simp [assocSet, hk, List.findSome?_cons, hrest]

theorem findSome?_assocPop {κ α β : Type} [DecidableEq κ] {f : κ × α → Option β}
    {entries : List (κ × α)} {k : κ} (h : ∀ v, (k, v) ∈ entries → f (k, v) = none) :
    (assocPop entries k).findSome? f = entries.findSome? f := by
  induction entries with
  | nil => rfl
  | cons entry rest ih =>
    obtain ⟨key, value⟩ := entry
    have hrest := ih (fun v hv => h v (List.mem_cons_of_mem _ hv))
    by_cases hk : key = k
    · subst hk
      have hnone := h value List.mem_cons_self
      simp [assocPop, hrest, hnone]
    · simp [assocPop, hk, List.findSome?_cons, hrest]

theorem findSome?_filter_of_none {α β : Type} {f : α → Option β} {keep : α → Bool}
    {xs : List α} (h : ∀ x ∈ xs, keep x = false → f x = none) :
    (xs.filter keep).findSome? f = xs.findSome? f := by
  induction xs with
  | nil => rfl
  | cons x rest ih =>
    have hrest := ih (fun y hy => h y (List.mem_cons_of_mem x hy))
    rw [List.findSome?_cons]
    by_cases hkeep : keep x = true
    · rw [List.filter_cons_of_pos hkeep, List.findSome?_cons, hrest]
    · have hnone := h x List.mem_cons_self (by simpa using hkeep)
      rw [List.filter_cons_of_neg hkeep, hnone, hrest]

/-- What a search through a dictionary finds, in the order of insertion. -/
def Dict.search {κ α β : Type} (d : Dict κ α) (f : κ → α → Option β) : Option β :=
  d.entries.findSome? (fun entry => f entry.1 entry.2)

theorem Dict.search_set {κ α β : Type} [DecidableEq κ] {d : Dict κ α} {f : κ → α → Option β}
    {k : κ} {v : α} (h : f k v = (d.get? k).bind (f k)) : (d.set k v).search f = d.search f :=
  findSome?_assocSet h

theorem Dict.search_pop {κ α β : Type} [DecidableEq κ] {d : Dict κ α} {f : κ → α → Option β}
    {k : κ} (h : ∀ v, d.get? k = some v → f k v = none) : (d.pop k).search f = d.search f :=
  findSome?_assocPop (fun v hv => h v (assocGet_of_mem d.keysNodup hv))

theorem Dict.search_filterKeys {κ α β : Type} [DecidableEq κ] {d : Dict κ α}
    {f : κ → α → Option β} {keep : κ → Bool}
    (h : ∀ k v, d.get? k = some v → keep k = false → f k v = none) :
    (d.filterKeys keep).search f = d.search f := by
  apply findSome?_filter_of_none
  intro entry hentry hkeep
  exact h entry.1 entry.2 (assocGet_of_mem d.keysNodup hentry) hkeep

theorem Dict.search_eq_some {κ α β : Type} [DecidableEq κ] {d : Dict κ α}
    {f : κ → α → Option β} {b : β} (h : d.search f = some b) :
    ∃ k v, d.get? k = some v ∧ f k v = some b := by
  obtain ⟨⟨k, v⟩, hmem, hfound⟩ := List.exists_of_findSome?_eq_some h
  exact ⟨k, v, assocGet_of_mem d.keysNodup hmem, hfound⟩

theorem Dict.search_eq_none {κ α β : Type} [DecidableEq κ] {d : Dict κ α}
    {f : κ → α → Option β} (h : ∀ k v, d.get? k = some v → f k v = none) : d.search f = none := by
  cases hfound : d.search f with
  | none => rfl
  | some b =>
    obtain ⟨k, v, hget, hsome⟩ := Dict.search_eq_some hfound
    rw [h k v hget] at hsome
    cases hsome

theorem Dict.search_map {κ α β γ : Type} (d : Dict κ α) (f : κ → α → Option β) (g : β → γ) :
    (d.search f).map g = d.search (fun k v => (f k v).map g) := by
  unfold Dict.search
  rw [List.map_findSome?]
  rfl

end NovaVe
