import Mathlib.Data.List.GetD
import NovaVe.InterfaceNaming

namespace NovaVe

/-- A placeholder stands somewhere in the text. -/
def HasToken (cs : List Char) : Prop := ∃ token ∈ [nToken, slotToken, portToken], token <:+: cs

theorem hasPlaceholder_iff {text : String} : hasPlaceholder text = true ↔ HasToken text.toList := by
  unfold hasPlaceholder HasToken
  rw [← namingPlaceholders_toList]
  simp only [List.any_eq_true, decide_eq_true_eq]
  constructor
  · rintro ⟨token, htoken, hin⟩
    exact ⟨token.toList, List.mem_map_of_mem htoken, hin⟩
  · rintro ⟨token, htoken, hin⟩
    obtain ⟨name, hname, rfl⟩ := List.mem_map.mp htoken
    exact ⟨name, hname, hin⟩

theorem hasPlaceholder_eq_false_iff {text : String} :
    hasPlaceholder text = false ↔ ¬ HasToken text.toList := by
  rw [← hasPlaceholder_iff, Bool.not_eq_true]

theorem HasToken.mono {cs ds : List Char} (h : HasToken cs) (hsub : cs <:+: ds) : HasToken ds := by
  obtain ⟨token, htoken, hin⟩ := h
  exact ⟨token, htoken, hin.trans hsub⟩

theorem not_hasToken_nil : ¬ HasToken [] := by
  rintro ⟨token, htoken, hin⟩
  simp only [List.mem_cons, List.not_mem_nil, or_false] at htoken
  rcases htoken with rfl | rfl | rfl <;> exact absurd hin (by decide)

theorem infix_stripChars_iff {p : Char → Bool} {token cs : List Char}
    (h : ∀ c ∈ token, p c = false) (hne : token ≠ []) :
    token <:+: stripChars p cs ↔ token <:+: cs := by
  have hreverse : ∀ c ∈ token.reverse, p c = false := fun c hc => h c (List.mem_reverse.mp hc)
  rw [stripChars, ← List.reverse_infix, List.reverse_reverse,
    infix_dropWhile_iff hreverse (by simpa using hne), List.reverse_infix,
    infix_dropWhile_iff h hne]

/-- The outer spaces of an item have no part in its placeholders. -/
theorem hasToken_strip {cs : List Char} : HasToken (stripChars isPySpace cs) ↔ HasToken cs := by
  unfold HasToken
  refine exists_congr fun token => and_congr_right fun htoken => ?_
  simp only [List.mem_cons, List.not_mem_nil, or_false] at htoken
  rcases htoken with rfl | rfl | rfl <;>
    exact infix_stripChars_iff (forall_mem_eq_false (by decide)) (by decide)

def PrintableAscii (text : String) : Prop := ∀ c ∈ text.toList, 32 ≤ c.toNat ∧ c.toNat ≤ 126

instance (text : String) : Decidable (PrintableAscii text) :=
  decidable_of_iff (text.toList.all (fun c => 32 ≤ c.toNat ∧ c.toNat ≤ 126))
    (by simp [PrintableAscii])

/-- Both sides strip the same of a printable text. -/
theorem isPySpace_printable {c : Char} (h : 32 ≤ c.toNat ∧ c.toNat ≤ 126) :
    isPySpace c = isJsSpace c := by
  obtain ⟨hlow, hhigh⟩ := h
  unfold isPySpace isJsSpace
  generalize c.toNat = n at hlow hhigh
  rw [Bool.eq_iff_iff]
  simp
  omega

theorem dropWhile_congr {α : Type} {p q : α → Bool} {cs : List α} (h : ∀ c ∈ cs, p c = q c) :
    cs.dropWhile p = cs.dropWhile q := by
  induction cs with
  | nil => rfl
  | cons c cs ih =>
    rw [List.dropWhile_cons, List.dropWhile_cons, h c List.mem_cons_self,
      ih fun d hd => h d (List.mem_cons_of_mem c hd)]

theorem stripChars_congr {p q : Char → Bool} {cs : List Char} (h : ∀ c ∈ cs, p c = q c) :
    stripChars p cs = stripChars q cs := by
  unfold stripChars
  rw [dropWhile_congr h, dropWhile_congr]
  intro c hc
  exact h c ((List.dropWhile_sublist q).subset (List.mem_reverse.mp hc))

/-- The items of a scheme without their outer spaces. -/
def strippedItems (scheme : String) : List (List Char) :=
  (scheme.toList.splitOn ',').map (stripChars isPySpace)

theorem strip_items_js {scheme : String} (h : PrintableAscii scheme) :
    (scheme.toList.splitOn ',').map (stripChars isJsSpace) = strippedItems scheme := by
  refine (List.map_congr_left ?_).symm
  intro item hitem
  refine stripChars_congr ?_
  intro c hc
  exact isPySpace_printable (h c ((infix_of_mem_splitOn hitem).subset hc))

theorem exists_last {α : Type} {xs : List α} (h : xs ≠ []) :
    ∃ fixed last, xs = fixed ++ [last] := by
  obtain ⟨fixed, last, he⟩ := (List.eq_nil_or_concat xs).resolve_left h
  exact ⟨fixed, last, by rw [he, List.concat_eq_append]⟩

theorem strippedItems_ne_nil (scheme : String) : strippedItems scheme ≠ [] := by
  simp [strippedItems, List.splitOn_ne_nil]

/-- No item is blank and the last alone has a placeholder. -/
structure SchemeFormed (items : List (List Char)) : Prop where
  nonblank : ∀ item ∈ items, item ≠ []
  fixed : ∀ item ∈ items.dropLast, ¬ HasToken item
  trailing : ∀ item ∈ items.getLast?, HasToken item

theorem schemeFormed_concat {fixed : List (List Char)} {last : List Char} :
    SchemeFormed (fixed ++ [last]) ↔
      (∀ item ∈ fixed ++ [last], item ≠ []) ∧ (∀ item ∈ fixed, ¬ HasToken item) ∧
        HasToken last := by
  constructor
  · rintro ⟨hnonblank, hfixed, htrailing⟩
    rw [List.dropLast_concat] at hfixed
    exact ⟨hnonblank, hfixed, htrailing last (by simp)⟩
  · rintro ⟨hnonblank, hfixed, htrailing⟩
    exact ⟨hnonblank, by rwa [List.dropLast_concat], by simpa using htrailing⟩

/-- The backend takes the scheme for a `format` string. -/
def AcceptsText (scheme : String) : Prop :=
  validateInterfaceNaming (.block { format := some (.text scheme) }) = none

/-- The items of a scheme as a `format` list, which the messages show as a text. -/
def itemList (scheme shown : String) : PairedFormat :=
  .list ((scheme.toList.splitOn ',').map (fun item => ⟨true, String.ofList item⟩)) shown

def AcceptsList (scheme shown : String) : Prop :=
  validateInterfaceNaming (.block { format := some (itemList scheme shown) }) = none

theorem acceptsText_iff {scheme : String} : AcceptsText scheme ↔ HasToken scheme.toList := by
  unfold AcceptsText validateInterfaceNaming formatProblem
  rw [← hasPlaceholder_iff]
  by_cases hblank : pyStrip scheme = ""
  · have hnone : ¬ HasToken scheme.toList := by
      rw [← hasToken_strip, ← String.toList_ofList (l := stripChars isPySpace scheme.toList)]
      change ¬ HasToken (pyStrip scheme).toList
      rw [hblank]
      exact not_hasToken_nil
    rw [← hasPlaceholder_iff] at hnone
    simp [hblank, hnone]
  · simp [hblank]

theorem formatEntryProblem_eq_none {items : List (List Char)} (start : Nat) :
    formatEntryProblem start (items.map (fun item => ⟨true, String.ofList item⟩)) = none ↔
      (∀ item ∈ items, stripChars isPySpace item ≠ []) ∧
        ∀ item ∈ items.dropLast, ¬ HasToken item := by
  induction items generalizing start with
  | nil => simp [formatEntryProblem]
  | cons item rest ih =>
    have hblank : pyStrip (String.ofList item) = "" ↔ stripChars isPySpace item = [] := by
      simp [pyStrip]
    have htoken : hasPlaceholder (String.ofList item) = true ↔ HasToken item := by
      rw [hasPlaceholder_iff, String.toList_ofList]
    rw [List.map_cons, formatEntryProblem]
    by_cases hb : stripChars isPySpace item = []
    · simp [hblank, hb]
    · cases rest with
      | nil => simp [hblank, hb, formatEntryProblem]
      | cons second rest =>
        have hrest := ih (start + 1)
        by_cases ht : HasToken item
        · simp [hblank, hb, htoken, ht]
        · simp only [hblank, hb, htoken, ht, Bool.not_true, Bool.false_or, decide_false, if_false,
            Bool.false_eq_true, and_false, hrest]
          simp [hb, ht]

theorem schemeFormed_strip {items : List (List Char)} :
    SchemeFormed (items.map (stripChars isPySpace)) ↔
      (∀ item ∈ items, stripChars isPySpace item ≠ []) ∧
        (∀ item ∈ items.dropLast, ¬ HasToken item) ∧ ∀ item ∈ items.getLast?, HasToken item := by
  constructor
  · rintro ⟨hnonblank, hfixed, htrailing⟩
    refine ⟨fun item h => hnonblank _ (List.mem_map_of_mem h), ?_, ?_⟩
    · intro item h
      rw [← hasToken_strip]
      refine hfixed _ ?_
      rw [← List.map_dropLast]
      exact List.mem_map_of_mem h
    · intro item h
      rw [← hasToken_strip]
      refine htrailing _ ?_
      rw [List.getLast?_map, Option.mem_def.mp h]
      rfl
  · rintro ⟨hnonblank, hfixed, htrailing⟩
    refine ⟨List.forall_mem_map.mpr hnonblank, ?_, ?_⟩
    · rw [← List.map_dropLast]
      refine List.forall_mem_map.mpr fun item h => ?_
      rw [hasToken_strip]
      exact hfixed item h
    · intro item h
      rw [List.getLast?_map] at h
      obtain ⟨raw, hraw, rfl⟩ := Option.mem_map.mp h
      rw [hasToken_strip]
      exact htrailing raw hraw

theorem acceptsList_iff {scheme : String} (shown : String) :
    AcceptsList scheme shown ↔ SchemeFormed (strippedItems scheme) := by
  unfold AcceptsList validateInterfaceNaming formatProblem itemList
  rw [strippedItems, schemeFormed_strip]
  obtain ⟨fixed, last, hitems⟩ : ∃ fixed last, scheme.toList.splitOn ',' = fixed ++ [last] :=
    exists_last (List.splitOn_ne_nil _ _)
  have hentries := @formatEntryProblem_eq_none (fixed ++ [last]) 0
  rw [hitems]
  cases hproblem : formatEntryProblem 0
      ((fixed ++ [last]).map (fun item => (⟨true, String.ofList item⟩ : FormatEntry))) with
  | some problem =>
    rw [hproblem] at hentries
    have hnot := fun h => Option.some_ne_none problem (hentries.mpr h)
    simp only [List.getLast?_map, List.getLast?_concat, Option.map_some, hproblem]
    exact ⟨fun h => (Option.some_ne_none problem h).elim, fun h => (hnot ⟨h.1, h.2.1⟩).elim⟩
  | none =>
    obtain ⟨hnonblank, hfixed⟩ := hentries.mp hproblem
    simp only [List.getLast?_map, List.getLast?_concat, Option.map_some, hproblem]
    have htoken : hasPlaceholder (String.ofList last) = true ↔ HasToken last := by
      rw [hasPlaceholder_iff, String.toList_ofList]
    by_cases ht : HasToken last
    · rw [if_pos (htoken.mpr ht)]
      exact ⟨fun _ => ⟨hnonblank, hfixed, by simpa using ht⟩, fun _ => rfl⟩
    · simp [htoken, ht]

/-- The canvas takes a scheme that is not blank under the same rules as the backend takes a list. -/
theorem validateInterfaceNamingScheme_iff {scheme : String} (hprintable : PrintableAscii scheme)
    (hblank : stripChars isJsSpace scheme.toList ≠ []) :
    validateInterfaceNamingScheme scheme = none ↔ SchemeFormed (strippedItems scheme) := by
  have hraw : (scheme.toList.splitOn ',').map (fun s => String.ofList (stripChars isJsSpace s)) =
      (strippedItems scheme).map String.ofList := by
    rw [← strip_items_js hprintable, List.map_map]
    rfl
  obtain ⟨fixed, last, hitems⟩ : ∃ fixed last, strippedItems scheme = fixed ++ [last] :=
    exists_last (strippedItems_ne_nil scheme)
  unfold validateInterfaceNamingScheme
  rw [if_neg hblank, hraw, hitems]
  have hany : ((fixed ++ [last]).map String.ofList).any (fun s => decide (s = "")) = true ↔
      ¬ ∀ item ∈ fixed ++ [last], item ≠ [] := by
    simp only [List.any_map, List.any_eq_true, Function.comp_apply, decide_eq_true_eq,
      String.ofList_eq_empty_iff, not_forall, not_not, exists_prop]
  have hfind : ((fixed ++ [last]).map String.ofList).dropLast.find? hasPlaceholder = none ↔
      ∀ item ∈ fixed, ¬ HasToken item := by
    rw [← List.map_dropLast, List.dropLast_concat, List.find?_eq_none]
    simp [hasPlaceholder_iff]
  have hlast : hasPlaceholder (String.ofList last) = true ↔ HasToken last := by
    rw [hasPlaceholder_iff, String.toList_ofList]
  rw [schemeFormed_concat]
  by_cases hnonblank : ∀ item ∈ fixed ++ [last], item ≠ []
  · rw [if_neg (fun h => hany.mp h hnonblank)]
    cases hfound : ((fixed ++ [last]).map String.ofList).dropLast.find? hasPlaceholder with
    | some item =>
      have hno : ¬ ∀ item ∈ fixed, ¬ HasToken item := by
        rw [← hfind, hfound]
        exact Option.some_ne_none item
      simp [hno]
    | none =>
      have hfixed := hfind.mp hfound
      have hget : (((fixed ++ [last]).map String.ofList).getLast?).getD "" =
          String.ofList last := by
        rw [List.getLast?_map, List.getLast?_concat]
        rfl
      simp only [hget]
      by_cases ht : HasToken last
      · rw [if_pos (hlast.mpr ht)]
        exact ⟨fun _ => ⟨hnonblank, hfixed, ht⟩, fun _ => rfl⟩
      · rw [if_neg (fun h => ht (hlast.mp h))]
        split <;> simp [ht]
  · rw [if_pos (hany.mpr hnonblank)]
    exact ⟨fun h => (Option.some_ne_none _ h).elim, fun h => (hnonblank h.1).elim⟩

/-- The canvas shows the name that the backend gives. -/
theorem formatInterfaceName_eq {scheme : String} (h : PrintableAscii scheme) (index : Nat) :
    formatInterfaceName scheme index = renderInterfaceName scheme index := by
  have hitems : splitItems scheme = (strippedItems scheme).filter (fun s => s ≠ []) := by
    rw [splitItems, strip_items_js h]
    refine List.filter_congr ?_
    intro item _
    simp [List.length_pos_iff]
  by_cases hempty : scheme = ""
  · subst hempty
    rfl
  · unfold formatInterfaceName
    rw [if_neg hempty, hitems]
    rfl

/-- The name a well-formed scheme gives to an index. -/
def nameAt (fixed : List (List Char)) (last : List Char) (index : Nat) : List Char :=
  if index < fixed.length then fixed.getD index []
  else applyPlaceholders last (index - fixed.length)

theorem renderInterfaceName_formed {scheme : String} {fixed : List (List Char)} {last : List Char}
    (hitems : strippedItems scheme = fixed ++ [last]) (hformed : SchemeFormed (fixed ++ [last]))
    (index : Nat) : renderInterfaceName scheme index = String.ofList (nameAt fixed last index) := by
  have hall : (strippedItems scheme).filter (fun s => s ≠ []) = fixed ++ [last] := by
    rw [hitems, List.filter_eq_self]
    intro item hitem
    simpa using hformed.nonblank item hitem
  rw [strippedItems] at hall
  unfold renderInterfaceName nameAt
  simp only [hall, List.getLast?_concat, List.length_append, List.length_singleton,
    Nat.add_sub_cancel]
  split
  next hlt => rw [List.getD_append _ _ _ _ hlt]
  next => rfl

theorem nameAt_ne_nil {fixed : List (List Char)} {last : List Char}
    (h : ∀ item ∈ fixed ++ [last], item ≠ []) (index : Nat) : nameAt fixed last index ≠ [] := by
  unfold nameAt
  split
  next hlt =>
    rw [List.getD_eq_getElem _ _ hlt]
    exact h _ (List.mem_append_left _ (List.getElem_mem hlt))
  next => exact applyPlaceholders_ne_nil (h last (by simp)) _

theorem nameAt_not_hasToken {fixed : List (List Char)} {last : List Char}
    (h : ∀ item ∈ fixed, ¬ HasToken item) (index : Nat) : ¬ HasToken (nameAt fixed last index) := by
  unfold nameAt
  split
  next hlt =>
    rw [List.getD_eq_getElem _ _ hlt]
    exact h _ (List.getElem_mem hlt)
  next =>
    rintro ⟨token, htoken, hin⟩
    exact not_infix_applyPlaceholders htoken last _ hin

/-- The fixed names differ and the last item gives none of them to an index of its own. -/
structure NamesApart (items : List (List Char)) : Prop where
  fixed : items.dropLast.Nodup
  trailing : ∀ last ∈ items.getLast?, ∀ item ∈ items.dropLast, ∀ rel,
    fillName rel (nameParts last) ≠ item

theorem namesApart_concat {fixed : List (List Char)} {last : List Char} :
    NamesApart (fixed ++ [last]) ↔
      fixed.Nodup ∧ ∀ item ∈ fixed, ∀ rel, applyPlaceholders last rel ≠ item := by
  simp only [applyPlaceholders_eq_fillName]
  constructor
  · rintro ⟨hfixed, htrailing⟩
    rw [List.dropLast_concat] at hfixed htrailing
    exact ⟨hfixed, htrailing last (by simp)⟩
  · rintro ⟨hfixed, htrailing⟩
    refine ⟨by rwa [List.dropLast_concat], ?_⟩
    rw [List.dropLast_concat]
    intro l hl
    rw [List.getLast?_concat, Option.mem_some_iff] at hl
    exact hl ▸ htrailing

/-- Different indices get different names exactly when the names are apart. -/
theorem nameAt_injective_iff {fixed : List (List Char)} {last : List Char} (hlast : HasToken last) :
    (∀ i j, nameAt fixed last i = nameAt fixed last j → i = j) ↔ NamesApart (fixed ++ [last]) := by
  obtain ⟨token, htoken, hin⟩ := hlast
  have hlow {i : Nat} (hi : i < fixed.length) : nameAt fixed last i = fixed[i] := by
    rw [nameAt, if_pos hi, List.getD_eq_getElem _ _ hi]
  have hhigh (rel : Nat) : nameAt fixed last (fixed.length + rel) = applyPlaceholders last rel := by
    rw [nameAt, if_neg (by omega), Nat.add_sub_cancel_left]
  rw [namesApart_concat]
  constructor
  · intro h
    constructor
    · rw [List.nodup_iff_injective_getElem]
      rintro ⟨i, hi⟩ ⟨j, hj⟩ hij
      have hname : nameAt fixed last i = nameAt fixed last j := by
        rw [hlow hi, hlow hj]
        exact hij
      exact Fin.ext (h i j hname)
    · intro item hitem rel he
      obtain ⟨i, hi, rfl⟩ := List.mem_iff_getElem.mp hitem
      have hsame := h (fixed.length + rel) i (by rw [hhigh, hlow hi, he])
      omega
  · rintro ⟨hfixed, htrailing⟩ i j h
    have hboth {m n : Nat} (hmn : m ≤ n)
        (he : nameAt fixed last (fixed.length + m) = nameAt fixed last (fixed.length + n)) :
        m = n := by
      rw [hhigh, hhigh] at he
      exact applyPlaceholders_injective htoken hin hmn he
    rcases Nat.lt_or_ge i fixed.length with hi | hi
    · rcases Nat.lt_or_ge j fixed.length with hj | hj
      · rw [hlow hi, hlow hj] at h
        exact (List.Nodup.getElem_inj_iff hfixed).mp h
      · obtain ⟨rel, rfl⟩ := Nat.exists_eq_add_of_le hj
        rw [hlow hi, hhigh] at h
        exact absurd h.symm (htrailing _ (List.getElem_mem hi) rel)
    · obtain ⟨m, rfl⟩ := Nat.exists_eq_add_of_le hi
      rcases Nat.lt_or_ge j fixed.length with hj | hj
      · rw [hlow hj, hhigh] at h
        exact absurd h (htrailing _ (List.getElem_mem hj) m)
      · obtain ⟨n, rfl⟩ := Nat.exists_eq_add_of_le hj
        rcases Nat.le_total m n with hmn | hmn
        · rw [hboth hmn h]
        · rw [hboth hmn h.symm]

/-- A node whose interfaces are the scheme's finds each of them under its name. -/
theorem resolveIfaceIndex_rendered {scheme : String} {node : Node} {type : NodeType}
    {ethernet : Int}
    (hnode : node.interfaces = defaultInterfaces type ethernet none (some scheme))
    (hapart : ∀ i j, renderInterfaceName scheme i = renderInterfaceName scheme j → i = j)
    {index : Nat} (hindex : index < ethernet.toNat) :
    resolveIfaceIndex node (renderInterfaceName scheme index) = some index := by
  unfold resolveIfaceIndex
  rw [hnode, defaultInterfaces, List.findIdx?_map, List.findIdx?_eq_some_iff_getElem]
  refine ⟨by simpa using hindex, by simp [interfaceName], ?_⟩
  intro j hj
  have hne : renderInterfaceName scheme j ≠ renderInterfaceName scheme index := by
    intro he
    have hsame := hapart j index he
    omega
  simpa [interfaceName] using hne

/-- The two sides and the two shapes of a scheme agree, and its names denote one interface each. -/
structure NamingAgrees (scheme : String) : Prop where
  list : ∀ shown, AcceptsText scheme ↔ AcceptsList scheme shown
  canvas : pyStrip scheme ≠ "" →
    (AcceptsText scheme ↔ validateInterfaceNamingScheme scheme = none)
  name : AcceptsText scheme → ∀ index,
    formatInterfaceName scheme index = renderInterfaceName scheme index ∧
      renderInterfaceName scheme index ≠ "" ∧
      hasPlaceholder (renderInterfaceName scheme index) = false
  apart : AcceptsText scheme → ∀ i j,
    renderInterfaceName scheme i = renderInterfaceName scheme j → i = j
  resolved : AcceptsText scheme → ∀ (node : Node) (type : NodeType) (ethernet : Int),
    node.interfaces = defaultInterfaces type ethernet none (some scheme) →
      ∀ index < ethernet.toNat,
        resolveIfaceIndex node (renderInterfaceName scheme index) = some index

/-- A printable scheme is read alike everywhere and names each interface once exactly when, if it
has a placeholder at all, it is well formed and its names are apart. -/
theorem naming_agrees_iff (scheme : String) (hprintable : PrintableAscii scheme) :
    NamingAgrees scheme ↔
      (hasPlaceholder scheme = true →
        SchemeFormed (strippedItems scheme) ∧ NamesApart (strippedItems scheme)) := by
  obtain ⟨fixed, last, hitems⟩ := exists_last (strippedItems_ne_nil scheme)
  have hrender {i j : Nat} (hformed : SchemeFormed (fixed ++ [last])) :
      renderInterfaceName scheme i = renderInterfaceName scheme j ↔
        nameAt fixed last i = nameAt fixed last j := by
    rw [renderInterfaceName_formed hitems hformed, renderInterfaceName_formed hitems hformed,
      String.ofList_inj]
  rw [hasPlaceholder_iff, ← acceptsText_iff]
  constructor
  · intro h haccepted
    have hformed := (acceptsList_iff "").mp ((h.list "").mp haccepted)
    refine ⟨hformed, ?_⟩
    rw [hitems] at hformed ⊢
    refine (nameAt_injective_iff (schemeFormed_concat.mp hformed).2.2).mp ?_
    intro i j he
    exact h.apart haccepted i j ((hrender hformed).mpr he)
  · intro h
    have hformed_iff : AcceptsText scheme ↔ SchemeFormed (strippedItems scheme) := by
      refine ⟨fun haccepted => (h haccepted).1, ?_⟩
      intro hformed
      rw [acceptsText_iff]
      rw [strippedItems, schemeFormed_strip] at hformed
      obtain ⟨raw, hraw⟩ := Option.isSome_iff_exists.mp
        (List.getLast?_isSome.mpr (List.splitOn_ne_nil ',' scheme.toList))
      exact (hformed.2.2 raw hraw).mono (infix_of_mem_splitOn (List.mem_of_getLast? hraw))
    have hapart (haccepted : AcceptsText scheme) (i j : Nat)
        (he : renderInterfaceName scheme i = renderInterfaceName scheme j) : i = j := by
      obtain ⟨hformed, hnames⟩ := h haccepted
      rw [hitems] at hformed hnames
      exact (nameAt_injective_iff (schemeFormed_concat.mp hformed).2.2).mpr hnames i j
        ((hrender hformed).mp he)
    refine ⟨fun shown => hformed_iff.trans (acceptsList_iff shown).symm, ?_, ?_, hapart, ?_⟩
    · intro hblank
      have hjs : stripChars isJsSpace scheme.toList ≠ [] := by
        rw [← stripChars_congr fun c hc => isPySpace_printable (hprintable c hc)]
        simpa [pyStrip] using hblank
      exact hformed_iff.trans (validateInterfaceNamingScheme_iff hprintable hjs).symm
    · intro haccepted index
      obtain ⟨hformed, -⟩ := h haccepted
      rw [hitems] at hformed
      obtain ⟨hnonblank, hfixed, -⟩ := schemeFormed_concat.mp hformed
      rw [formatInterfaceName_eq hprintable, renderInterfaceName_formed hitems hformed]
      refine ⟨rfl, ?_, ?_⟩
      · simpa using nameAt_ne_nil hnonblank index
      · rw [hasPlaceholder_eq_false_iff, String.toList_ofList]
        exact nameAt_not_hasToken hfixed index
    · intro haccepted node type ethernet hnode index hindex
      exact resolveIfaceIndex_rendered hnode (hapart haccepted) hindex

theorem junos_scheme_agrees : NamingAgrees "fxp0, ge-0/0/\x7bn\x7d" := by
  refine (naming_agrees_iff _ (by decide)).mpr fun _ => ?_
  have hitems : strippedItems "fxp0, ge-0/0/\x7bn\x7d" =
      ["fxp0".toList] ++ ["ge-0/0/\x7bn\x7d".toList] := by
    decide
  rw [hitems]
  refine ⟨schemeFormed_concat.mpr ⟨by decide, ?_, nToken, by simp, by decide⟩,
    namesApart_concat.mpr ⟨by decide, ?_⟩⟩
  · intro item hitem
    rw [List.mem_singleton.mp hitem, ← hasPlaceholder_iff]
    decide
  · intro item hitem rel he
    have hhead : (applyPlaceholders "ge-0/0/\x7bn\x7d".toList rel).head? = some 'g' := rfl
    rw [he, List.mem_singleton.mp hitem] at hhead
    cases hhead

/-- A stray comma passes as a string alone, and a fixed name can be one that the pattern gives. -/
theorem stray_comma_disagrees :
    PrintableAscii "eth\x7bn\x7d," ∧ ¬ NamingAgrees "eth\x7bn\x7d," ∧
      PrintableAscii "eth0,eth\x7bn\x7d" ∧ ¬ NamingAgrees "eth0,eth\x7bn\x7d" := by
  refine ⟨by decide, ?_, by decide, ?_⟩
  · intro h
    have haccepted : AcceptsText "eth\x7bn\x7d," := by
      unfold AcceptsText
      decide
    have hlist := (h.list "").mp haccepted
    revert hlist
    unfold AcceptsList
    decide
  · intro h
    have haccepted : AcceptsText "eth0,eth\x7bn\x7d" := by
      unfold AcceptsText
      decide
    have hsame := h.apart haccepted 0 1 (by decide)
    omega

end NovaVe
