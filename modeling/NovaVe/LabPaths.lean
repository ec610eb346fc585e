import NovaVe.Texts
import Mathlib.Data.List.Infix

namespace NovaVe

/-- The segments of a raw lab path, less the empty ones and the dots. -/
def labPathParts (rawPath : String) : List (List Char) :=
  let candidate := stripChars (fun c => c == '/')
    ((stripChars isPySpace rawPath.toList).map (fun c => if c == '\\' then '/' else c))
  (candidate.splitOn '/').filter (fun part => decide (part ≠ []) && decide (part ≠ ['.']))

/-- `_normalize_relative_lab_path`; `none` when it raises. -/
def normalizeRelativeLabPath (rawPath : String) : Option String :=
  let parts := labPathParts rawPath
  if parts = [] ∨ ['.', '.'] ∈ parts then none
  else some (String.ofList (List.intercalate ['/'] parts))

/-- `raw.strip().replace("\\", "/").strip("/")`. -/
def trimmedPath (rawPath : String) : List Char :=
  stripChars (fun c => c == '/')
    ((stripChars isPySpace rawPath.toList).map (fun c => if c == '\\' then '/' else c))

/-- `path == root or path.startswith(f"{root}/")`. -/
def atOrBelow (root path : String) : Bool :=
  decide (path = root) || (root.toList ++ ['/']).isPrefixOf path.toList

theorem labPathParts_eq (rawPath : String) :
    labPathParts rawPath = ((trimmedPath rawPath).splitOn '/').filter
      (fun part => decide (part ≠ []) && decide (part ≠ ['.'])) := rfl

theorem labPathParts_ne_nil_of_mem {rawPath : String} {part : List Char}
    (h : part ∈ labPathParts rawPath) : part ≠ [] := by
  have hf := (List.mem_filter.mp h).2
  simp only [Bool.and_eq_true, decide_eq_true_eq] at hf
  exact hf.1

theorem not_mem_of_mem_splitOn {x : Char} {xs part : List Char} (h : part ∈ xs.splitOn x) :
    x ∉ part := by
  induction xs generalizing part with
  | nil =>
    rw [List.splitOn_nil, List.mem_singleton] at h
    simp [h]
  | cons y rest ih =>
    rw [List.splitOn_cons_eq_if_modifyHead] at h
    by_cases hy : (y == x) = true
    · rw [if_pos hy] at h
      rcases List.mem_cons.mp h with rfl | h
      · exact List.not_mem_nil
      · exact ih h
    · rw [if_neg hy] at h
      obtain ⟨first, others, hs⟩ := List.exists_cons_of_ne_nil (List.splitOn_ne_nil x rest)
      rw [hs] at h ih
      rcases List.mem_cons.mp h with rfl | h
      · have hfirst := ih List.mem_cons_self
        intro hm
        rcases List.mem_cons.mp hm with rfl | hm
        · exact hy (beq_self_eq_true _)
        · exact hfirst hm
      · exact ih (List.mem_cons_of_mem _ h)

theorem slash_not_mem_labPathParts {rawPath : String} {part : List Char}
    (h : part ∈ labPathParts rawPath) : '/' ∉ part :=
  not_mem_of_mem_splitOn (List.mem_filter.mp h).1

/-- What the path normalizer returns. -/
theorem normalizeRelativeLabPath_eq_some {rawPath path : String}
    (h : normalizeRelativeLabPath rawPath = some path) :
    labPathParts rawPath ≠ [] ∧ ['.', '.'] ∉ labPathParts rawPath ∧
      path.toList = List.intercalate ['/'] (labPathParts rawPath) := by
  rw [normalizeRelativeLabPath] at h
  by_cases hc : labPathParts rawPath = [] ∨ ['.', '.'] ∈ labPathParts rawPath
  · rw [if_pos hc] at h
    exact absurd h (Option.some_ne_none path).symm
  · rw [if_neg hc] at h
    have hp := Option.some.inj h
    refine ⟨fun he => hc (Or.inl he), fun hm => hc (Or.inr hm), ?_⟩
    rw [← hp, String.toList_ofList]

theorem normalizeRelativeLabPath_splitOn {rawPath path : String}
    (h : normalizeRelativeLabPath rawPath = some path) :
    path.toList.splitOn '/' = labPathParts rawPath := by
  obtain ⟨hne, _, hpath⟩ := normalizeRelativeLabPath_eq_some h
  rw [hpath]
  exact List.splitOn_intercalate '/' (fun part hm => slash_not_mem_labPathParts hm) hne

theorem intercalate_append_of_ne_nil {sep : List Char} {xs ys : List (List Char)} (hx : xs ≠ [])
    (hy : ys ≠ []) :
    List.intercalate sep (xs ++ ys) = List.intercalate sep xs ++ sep ++ List.intercalate sep ys := by
  induction xs with
  | nil => exact absurd rfl hx
  | cons x rest ih =>
    cases rest with
    | nil =>
      rw [List.singleton_append, List.intercalate_cons_of_ne_nil hy, List.intercalate_singleton]
    | cons x' rest =>
      rw [List.cons_append, List.intercalate_cons_of_ne_nil (by simp), ih (List.cons_ne_nil _ _),
        List.intercalate_cons_of_ne_nil (List.cons_ne_nil x' rest)]
      simp only [List.append_assoc]

/-- A path is at or below a root exactly when its segments begin with those of the root. -/
theorem atOrBelow_iff_segments (root path : String) :
    atOrBelow root path = true ↔ root.toList.splitOn '/' <+: path.toList.splitOn '/' := by
  unfold atOrBelow
  rw [Bool.or_eq_true, decide_eq_true_eq, List.isPrefixOf_iff_prefix]
  constructor
  · rintro (rfl | ⟨rest, hrest⟩)
    · exact List.prefix_refl _
    · rw [← hrest, List.append_assoc, List.singleton_append, List.splitOn_append_cons_self]
      exact List.prefix_append _ _
  · rintro ⟨rest, hrest⟩
    have hpath : path.toList = List.intercalate ['/'] (root.toList.splitOn '/' ++ rest) := by
      rw [hrest, List.intercalate_splitOn]
    cases rest with
    | nil =>
      left
      rw [List.append_nil, List.intercalate_splitOn] at hpath
      exact String.toList_injective hpath
    | cons part rest =>
      right
      have hroot : List.intercalate ['/'] (root.toList.splitOn '/') = root.toList :=
        List.intercalate_splitOn '/'
      refine ⟨List.intercalate ['/'] (part :: rest), ?_⟩
      rw [hpath, intercalate_append_of_ne_nil (List.splitOn_ne_nil _ _) (List.cons_ne_nil _ _),
        hroot]

/-- A root text that is a lab path as it stands. -/
def PlainRoot (root : String) : Prop := normalizeRelativeLabPath root = some root

instance (root : String) : Decidable (PlainRoot root) := by
  unfold PlainRoot
  infer_instance

theorem length_intercalate_le_of_sublist {sep : List Char} {xs ys : List (List Char)}
    (h : List.Sublist xs ys) :
    (List.intercalate sep xs).length ≤ (List.intercalate sep ys).length := by
  induction h with
  | slnil => exact Nat.le_refl _
  | @cons xs ys y hs ih =>
    by_cases hy : ys = []
    · subst hy
      rw [List.sublist_nil.mp hs]
      simp
    · rw [List.intercalate_cons_of_ne_nil hy]
      simp only [List.length_append]
      omega
  | @cons_cons xs ys y hs ih =>
    by_cases hx : xs = []
    · subst hx
      by_cases hy : ys = []
      · rw [hy]
      · rw [List.intercalate_cons_of_ne_nil hy, List.intercalate_singleton]
        simp only [List.length_append]
        omega
    · have hy : ys ≠ [] := by
        intro hy
        subst hy
        exact hx (List.sublist_nil.mp hs)
      rw [List.intercalate_cons_of_ne_nil hx, List.intercalate_cons_of_ne_nil hy]
      simp only [List.length_append]
      omega

theorem stripChars_sublist (p : Char → Bool) (cs : List Char) :
    List.Sublist (stripChars p cs) cs := by
  have hleft := List.dropWhile_sublist p (l := cs)
  have hright := List.dropWhile_sublist p (l := (cs.dropWhile p).reverse)
  have hrev := hright.reverse
  rw [List.reverse_reverse] at hrev
  exact hrev.trans hleft

/-- A plain root has no whitespace around it. -/
theorem PlainRoot.stripChars_eq {root : String} (h : PlainRoot root) :
    stripChars isPySpace root.toList = root.toList := by
  obtain ⟨_, _, hroot⟩ := normalizeRelativeLabPath_eq_some h
  have hfilter := @length_intercalate_le_of_sublist ['/'] _ _
    (List.filter_sublist (p := fun part => decide (part ≠ []) && decide (part ≠ ['.']))
      (l := (trimmedPath root).splitOn '/'))
  rw [← labPathParts_eq, ← hroot, List.intercalate_splitOn] at hfilter
  have htrim := (stripChars_sublist (fun c => c == '/')
    ((stripChars isPySpace root.toList).map (fun c => if c == '\\' then '/' else c))).length_le
  rw [List.length_map] at htrim
  exact (stripChars_sublist isPySpace root.toList).eq_of_length_le (Nat.le_trans hfilter htrim)

theorem head_of_stripChars_eq {p : Char → Bool} {cs : List Char} (h : stripChars p cs = cs)
    {c : Char} (hc : cs.head? = some c) : p c = false := by
  cases cs with
  | nil => cases hc
  | cons d rest =>
    cases hc
    by_contra hp
    have hp : p c = true := by simpa using hp
    have hlen := (List.dropWhile_sublist p (l := rest)).length_le
    have hright := (List.dropWhile_sublist p (l := ((c :: rest).dropWhile p).reverse)).length_le
    have htotal := congrArg List.length h
    rw [stripChars, List.length_reverse] at htotal
    rw [List.dropWhile_cons_of_pos hp] at hright htotal
    simp only [List.length_reverse, List.length_cons] at hright htotal
    omega

theorem last_of_stripChars_eq {p : Char → Bool} {cs : List Char} (h : stripChars p cs = cs)
    {c : Char} (hc : cs.getLast? = some c) : p c = false := by
  have hlast : (stripChars p cs).getLast? = some c := by rw [h, hc]
  rw [stripChars, List.getLast?_reverse] at hlast
  exact head?_dropWhile hlast

theorem stripChars_append {p : Char → Bool} {left right : List Char} (hne : left ≠ [])
    (hhead : ∀ c, left.head? = some c → p c = false)
    (hlast : ∀ c, left.getLast? = some c → p c = false) :
    stripChars p (left ++ right) = left ++ right.rdropWhile p := by
  have hfront : (left ++ right).dropWhile p = left ++ right := by
    refine dropWhile_of_head (fun c hc => hhead c ?_)
    rwa [List.head?_append_of_ne_nil _ hne] at hc
  have hback : left.reverse.dropWhile p = left.reverse :=
    dropWhile_of_head (fun c hc => hlast c (by simpa using hc))
  unfold stripChars List.rdropWhile
  rw [hfront, List.reverse_append, List.dropWhile_append, hback]
  split
  next hempty =>
    rw [List.isEmpty_iff.mp hempty]
    simp
  next => simp

theorem eq_nil_or_cons_of_prefix {x : Char} {xs rest : List Char} (h : xs <+: x :: rest) :
    xs = [] ∨ ∃ ys, xs = x :: ys := by
  cases xs with
  | nil => exact Or.inl rfl
  | cons y ys =>
    have hy := (List.cons_prefix_cons.mp h).1
    exact Or.inr ⟨ys, by rw [hy]⟩

/-- Trimming a text below a root keeps the root. -/
theorem trimmedPath_below {root text : String} {rest : List Char}
    (hspace : stripChars isPySpace root.toList = root.toList)
    (hslash : stripChars (fun c => c == '/') root.toList = root.toList)
    (hback : '\\' ∉ root.toList) (hne : root.toList ≠ [])
    (htext : text.toList = root.toList ++ '/' :: rest) :
    trimmedPath text = root.toList ∨ ∃ below, trimmedPath text = root.toList ++ '/' :: below := by
  have hmap : root.toList.map (fun c => if c == '\\' then '/' else c) = root.toList := by
    refine (List.map_congr_left ?_).trans (List.map_id _)
    intro c hc
    have hcne : c ≠ '\\' := fun he => hback (he ▸ hc)
    simp [hcne]
  have hstrip : stripChars isPySpace text.toList =
      root.toList ++ '/' :: rest.rdropWhile isPySpace := by
    have hsplit : text.toList = (root.toList ++ ['/']) ++ rest := by rw [htext]; simp
    rw [hsplit, stripChars_append (by simp)]
    · simp
    · intro c hc
      rw [List.head?_append_of_ne_nil _ hne] at hc
      exact head_of_stripChars_eq hspace hc
    · intro c hc
      rw [List.getLast?_append] at hc
      cases hc
      decide
  have htrim : trimmedPath text = root.toList ++
      ('/' :: (rest.rdropWhile isPySpace).map (fun c => if c == '\\' then '/' else c)).rdropWhile
        (fun c => c == '/') := by
    unfold trimmedPath
    rw [hstrip, List.map_append, List.map_cons, hmap]
    exact stripChars_append hne (fun c hc => head_of_stripChars_eq hslash hc)
      (fun c hc => last_of_stripChars_eq hslash hc)
  rcases eq_nil_or_cons_of_prefix (List.rdropWhile_prefix (fun c => c == '/')
    ('/' :: (rest.rdropWhile isPySpace).map (fun c => if c == '\\' then '/' else c)))
    with hnil | ⟨below, hbelow⟩
  · left
    rw [htrim, hnil, List.append_nil]
  · right
    exact ⟨below, by rw [htrim, hbelow]⟩

/-- Below a plain root the segments of a text begin with those of the root. -/
theorem PlainRoot.segments_below {root text : String} (h : PlainRoot root)
    (hslash : stripChars (fun c => c == '/') root.toList = root.toList)
    (hback : '\\' ∉ root.toList)
    (htext : text = root ∨ (root.toList ++ ['/']) <+: text.toList) :
    root.toList.splitOn '/' <+: labPathParts text := by
  have hroot := normalizeRelativeLabPath_splitOn h
  have hne : root.toList ≠ [] := by
    intro he
    rw [he] at hroot
    have hmem : [] ∈ labPathParts root := by rw [← hroot]; simp
    exact labPathParts_ne_nil_of_mem hmem rfl
  rcases htext with rfl | ⟨rest, hrest⟩
  · rw [hroot]
  · have htext : text.toList = root.toList ++ '/' :: rest := by rw [← hrest]; simp
    have hkept : (root.toList.splitOn '/').filter
        (fun part => decide (part ≠ []) && decide (part ≠ ['.'])) = root.toList.splitOn '/' := by
      rw [hroot, labPathParts_eq, List.filter_filter]
      simp
    rcases trimmedPath_below h.stripChars_eq hslash hback hne htext with ht | ⟨below, ht⟩
    · rw [labPathParts_eq, ht, hkept]
    · rw [labPathParts_eq, ht, List.splitOn_append_cons_self, List.filter_append, hkept]
      exact List.prefix_append _ _

end NovaVe
