import NovaVe.Dict
import NovaVe.LabPaths
import NovaVe.Texts

namespace NovaVe

/-- How far a component of a repository name is read. -/
inductive ReadState
  | start | word | dot | under | underTwo | dash | bad
deriving DecidableEq, Repr

def isNameLetter (c : Char) : Bool := c.isLower || c.isDigit

/-- Lower-case letters and digits, between them a dot, one or two underscores or any dashes. -/
def letterStep (s : ReadState) (c : Char) : ReadState :=
  if s = .bad then .bad
  else if isNameLetter c then .word
  else if s = .word ∧ c = '.' then .dot
  else if s = .word ∧ c = '_' then .under
  else if s = .under ∧ c = '_' then .underTwo
  else if (s = .word ∨ s = .dash) ∧ c = '-' then .dash
  else .bad

def validComponent (cs : List Char) : Bool := decide (cs.foldl letterStep .start = .word)

/-- Letters of both cases and digits, between them a dot or any dashes. -/
def hostLetterStep (s : ReadState) (c : Char) : ReadState :=
  if s = .bad then .bad
  else if c.isAlphanum then .word
  else if s = .word ∧ c = '.' then .dot
  else if (s = .word ∨ s = .dash) ∧ c = '-' then .dash
  else .bad

/-- `text.partition(sep)`, without the separator. -/
def partitionAt (sep : Char) (cs : List Char) : List Char × List Char :=
  (cs.takeWhile (· ≠ sep), (cs.dropWhile (· ≠ sep)).drop 1)

/-- A registry host, with its port if there is a colon. -/
def validHost (cs : List Char) : Bool :=
  let (host, port) := partitionAt ':' cs
  decide (host.foldl hostLetterStep .start = .word) &&
    (decide (':' ∉ cs) || (decide (port ≠ []) && port.all Char.isDigit))

/-- The first component is a host and not a part of the path. -/
def isHostPart (cs : List Char) : Bool :=
  cs.contains '.' || cs.contains ':' || cs.any Char.isUpper || decide (cs = "localhost".toList)

def isTagLetter (c : Char) : Bool := c.isAlphanum || c == '_'

def validTag : List Char → Bool
  | [] => false
  | c :: cs => isTagLetter c && cs.all (fun c => isTagLetter c || c == '.' || c == '-') &&
      decide (cs.length ≤ 127)

def referenceTag (reference : List Char) : Option (List Char) :=
  let last := ((reference.splitOn '/').getLast?).getD []
  if ':' ∈ last then some (partitionAt ':' last).2 else none

def referenceComponents (reference : List Char) : List (List Char) :=
  let parts := reference.splitOn '/'
  parts.dropLast ++ [(partitionAt ':' ((parts.getLast?).getD [])).1]

def referenceName (reference : List Char) : List Char :=
  ['/'].intercalate (referenceComponents reference)

/-- The host of a name of several components, and its path. -/
def splitHost : List (List Char) → Option (List Char) × List (List Char)
  | first :: second :: rest =>
    if isHostPart first then (some first, second :: rest) else (none, first :: second :: rest)
  | path => (none, path)

/-- An entry of the host's list of images that has a tag. -/
structure RepoTag where
  repository : List Char
  tag : List Char
  repositoryOk : repository ≠ [] ∧ repository ≠ "<none>".toList
  tagOk : validTag tag = true
deriving DecidableEq

/-- What the `docker` of the host makes of references: whether it takes a name of a host and a
path of some length, and the entry of its list that a reference names. -/
structure Docker where
  fits : Option (List Char) → Nat → Bool
  listed : List Char → RepoTag

/-- The grammar of image references: an optional host, a path and an optional tag. -/
def validReference (docker : Docker) (reference : List Char) : Bool :=
  let (host, path) := splitHost (referenceComponents reference)
  host.all validHost && path.all validComponent &&
    (referenceTag reference).all validTag && docker.fits host (['/'].intercalate path).length

def markerNamespace : List Char := "nova-ve-lab".toList

def markerPrefix : List Char := markerNamespace ++ ['/']

def isMarkerChar (c : Char) : Bool := isNameLetter c || c == '_' || c == '.' || c == '-'

/-- `_SANITIZE_RE.sub("_", text)`: a run of other characters becomes one underscore. -/
def sanitizeFrom : Bool → List Char → List Char
  | _, [] => []
  | inRun, c :: cs =>
    if isMarkerChar c then c :: sanitizeFrom false cs
    else if inRun then sanitizeFrom true cs
    else '_' :: sanitizeFrom true cs

/-- `_sanitize_repo_for_marker`, of an ASCII name. -/
def sanitizeRepoForMarker (repo : List Char) : List Char :=
  let lowered := (stripChars isPySpace repo).map Char.toLower
  let flat := lowered.map (fun c => if c = '/' ∨ c = ':' then '_' else c)
  let sanitized := stripChars (· == '_') (sanitizeFrom false flat)
  if sanitized = [] then "untitled".toList else sanitized

def markerFor (reference : List Char) : List Char :=
  let (repo, tag) := partitionAt ':' reference
  markerPrefix ++ sanitizeRepoForMarker repo ++ ':' :: (if tag = [] then "latest".toList else tag)

def isMarkerTag (reference : List Char) : Bool := markerPrefix.isPrefixOf reference

/-- A valid reference of one path segment below the marker namespace. -/
def OneSegmentMarker (docker : Docker) (marker : List Char) : Prop :=
  validReference docker marker = true ∧
    ∃ segment tag, referenceComponents marker = [markerNamespace, segment] ∧
      referenceTag marker = some tag

/-- A letter of a reference in its marker. -/
def markerLetter (c : Char) : Char := if c = '/' ∨ c = ':' then '_' else c.toLower

theorem ascii_cases {P : Char → Prop} (h : ∀ n : Fin 128, P (Char.ofNat n)) {c : Char}
    (hc : c.toNat < 128) : P c := by
  have hofNat := h ⟨c.toNat, hc⟩
  rwa [Char.ofNat_toNat] at hofNat

theorem isAlphanum_iff {c : Char} :
    c.isAlphanum = true ↔ (c.isUpper = true ∨ c.isLower = true) ∨ c.isDigit = true := by
  change ((c.isUpper || c.isLower) || c.isDigit) = true ↔ _
  simp only [Bool.or_eq_true]

theorem toNat_lt_of_isAlphanum {c : Char} (h : c.isAlphanum = true) : c.toNat < 128 := by
  change ((decide (65 ≤ c.val ∧ c.val ≤ 90) || (decide (97 ≤ c.val) && decide (c.val ≤ 122))) ||
    (decide (48 ≤ c.val) && decide (c.val ≤ 57))) = true at h
  simp only [Bool.or_eq_true, Bool.and_eq_true, decide_eq_true_eq, UInt32.le_iff_toNat_le] at h
  change ((65 ≤ c.toNat ∧ c.toNat ≤ 90) ∨ (97 ≤ c.toNat ∧ c.toNat ≤ 122)) ∨
    (48 ≤ c.toNat ∧ c.toNat ≤ 57) at h
  omega

theorem toNat_lt_of_isMarkerChar {c : Char} (h : isMarkerChar c = true) : c.toNat < 128 := by
  simp only [isMarkerChar, isNameLetter, Bool.or_eq_true, beq_iff_eq] at h
  rcases h with (((h | h) | rfl) | rfl) | rfl
  · exact toNat_lt_of_isAlphanum (isAlphanum_iff.mpr (Or.inl (Or.inr h)))
  · exact toNat_lt_of_isAlphanum (isAlphanum_iff.mpr (Or.inr h))
  all_goals decide

/-- A letter that may stand in a marker stands for itself. -/
theorem markerLetter_of_isMarkerChar {c : Char} (h : isMarkerChar c = true) :
    markerLetter c = c :=
  @ascii_cases (fun c => isMarkerChar c = true → markerLetter c = c) (by decide) c
    (toNat_lt_of_isMarkerChar h) h

theorem markerLetter_of_isAlphanum {c : Char} (h : c.isAlphanum = true) :
    isNameLetter (markerLetter c) = true :=
  @ascii_cases (fun c => c.isAlphanum = true → isNameLetter (markerLetter c) = true) (by decide) c
    (toNat_lt_of_isAlphanum h) h

theorem letterStep_bad (c : Char) : letterStep .bad c = .bad := rfl

theorem hostLetterStep_bad (c : Char) : hostLetterStep .bad c = .bad := rfl

theorem letterStep_isMarkerChar {s : ReadState} {c : Char} (h : letterStep s c ≠ .bad) :
    isMarkerChar c = true := by
  by_contra hc
  simp only [isMarkerChar, Bool.or_eq_true, beq_iff_eq, not_or] at hc
  exact h (by simp [letterStep, hc])

theorem letterStep_markerLetter {s : ReadState} {c : Char} (h : letterStep s c ≠ .bad) :
    letterStep s (markerLetter c) = letterStep s c := by
  rw [markerLetter_of_isMarkerChar (letterStep_isMarkerChar h)]

/-- A host is read in lower case as a component is. -/
theorem hostLetterStep_markerLetter {s : ReadState} {c : Char} (h : hostLetterStep s c ≠ .bad) :
    letterStep s (markerLetter c) = hostLetterStep s c := by
  unfold hostLetterStep at h ⊢
  by_cases hs : s = .bad
  · exact absurd (if_pos hs) h
  · rw [if_neg hs] at h ⊢
    by_cases hc : c.isAlphanum = true
    · simp [letterStep, hs, hc, markerLetter_of_isAlphanum hc]
    · simp only [hc, Bool.false_eq_true, if_false] at h ⊢
      by_cases hdot : s = .word ∧ c = '.'
      · obtain ⟨rfl, rfl⟩ := hdot
        decide
      · rw [if_neg hdot] at h ⊢
        by_cases hdash : (s = .word ∨ s = .dash) ∧ c = '-'
        · obtain ⟨rfl | rfl, rfl⟩ := hdash <;> decide
        · exact absurd (if_neg hdash) h

theorem foldl_bad {step : ReadState → Char → ReadState} (hbad : ∀ c, step .bad c = .bad)
    (cs : List Char) : cs.foldl step .bad = .bad := by
  induction cs with
  | nil => rfl
  | cons c cs ih => rw [List.foldl_cons, hbad, ih]

/-- What is read without a mistake is read alike letter by letter in the marker. -/
theorem foldl_markerLetter {step : ReadState → Char → ReadState} (hbad : ∀ c, step .bad c = .bad)
    (hstep : ∀ s c, step s c ≠ .bad → letterStep s (markerLetter c) = step s c) {s : ReadState}
    {cs : List Char} (h : cs.foldl step s ≠ .bad) :
    (cs.map markerLetter).foldl letterStep s = cs.foldl step s := by
  induction cs generalizing s with
  | nil => rfl
  | cons c cs ih =>
    have hc : step s c ≠ .bad := by
      intro he
      rw [List.foldl_cons, he] at h
      exact h (foldl_bad hbad cs)
    rw [List.map_cons, List.foldl_cons, List.foldl_cons, hstep s c hc]
    exact ih h

theorem foldl_letterStep_isMarkerChar {s : ReadState} {cs : List Char}
    (h : cs.foldl letterStep s ≠ .bad) : ∀ c ∈ cs, isMarkerChar c = true := by
  induction cs generalizing s with
  | nil => exact fun c hc => absurd hc List.not_mem_nil
  | cons c cs ih =>
    have hc : letterStep s c ≠ .bad := by
      intro he
      rw [List.foldl_cons, he] at h
      exact h (foldl_bad letterStep_bad cs)
    intro d hd
    rcases List.mem_cons.mp hd with rfl | hd
    · exact letterStep_isMarkerChar hc
    · exact ih h d hd

theorem letterStep_eq_word {s : ReadState} {c : Char} (h : letterStep s c = .word) :
    isNameLetter c = true := by
  by_contra hc
  unfold letterStep at h
  simp only [hc, if_false] at h
  repeat' split at h
  all_goals cases h

/-- A component starts and ends with a letter or a digit. -/
theorem validComponent_ends {cs : List Char} (h : cs.foldl letterStep .start = .word) :
    (∀ c, cs.head? = some c → isNameLetter c = true) ∧
      ∀ c, cs.getLast? = some c → isNameLetter c = true := by
  constructor
  · intro c hc
    obtain ⟨rest, rfl⟩ := List.head?_eq_some_iff.mp hc
    by_contra hl
    have hbad : letterStep .start c = .bad := by simp [letterStep, hl]
    rw [List.foldl_cons, hbad, foldl_bad letterStep_bad] at h
    cases h
  · intro c hc
    obtain ⟨init, rfl⟩ := List.getLast?_eq_some_iff.mp hc
    rw [List.foldl_append] at h
    exact letterStep_eq_word h

/-- After one underscore a component is read as from its start. -/
theorem foldl_letterStep_under {cs : List Char} (h : cs.foldl letterStep .start = .word) :
    cs.foldl letterStep .under = .word := by
  cases cs with
  | nil => cases h
  | cons c cs =>
    have hc := (validComponent_ends h).1 c rfl
    have hword (s : ReadState) (hs : s ≠ .bad) : letterStep s c = .word := by
      simp [letterStep, hs, hc]
    rw [List.foldl_cons, hword _ (by decide)] at h ⊢
    exact h

/-- Components that are read well are read well when they are flattened. -/
theorem foldl_letterStep_flatten {parts : List (List Char)} (hne : parts ≠ [])
    (h : ∀ part ∈ parts, (part.map markerLetter).foldl letterStep .start = .word) :
    ((['/'].intercalate parts).map markerLetter).foldl letterStep .start = .word := by
  induction parts with
  | nil => exact absurd rfl hne
  | cons first rest ih =>
    have hfirst := h first List.mem_cons_self
    cases rest with
    | nil => rwa [List.intercalate_singleton]
    | cons second rest =>
      have hrest := ih (List.cons_ne_nil _ _) (fun part hpart => h part (List.mem_cons_of_mem _ hpart))
      rw [List.intercalate_cons_cons, List.map_append, List.map_append, List.foldl_append,
        List.foldl_append, hfirst]
      exact foldl_letterStep_under hrest

theorem partitionAt_sep (sep : Char) (cs : List Char) : partitionAt sep (sep :: cs) = ([], cs) := by
  simp [partitionAt]

theorem partitionAt_cons {sep c : Char} (h : sep ≠ c) (cs : List Char) :
    partitionAt sep (c :: cs) = (c :: (partitionAt sep cs).1, (partitionAt sep cs).2) := by
  simp [partitionAt, Ne.symm h]

theorem partitionAt_eq (sep : Char) (cs : List Char) :
    cs = (partitionAt sep cs).1 ++ if sep ∈ cs then sep :: (partitionAt sep cs).2 else [] := by
  induction cs with
  | nil => rfl
  | cons c cs ih =>
    by_cases hc : sep = c
    · subst hc
      simp [partitionAt_sep]
    · have hmem : sep ∈ c :: cs ↔ sep ∈ cs := by simp [hc]
      simp only [partitionAt_cons hc, hmem, List.cons_append]
      exact congrArg (c :: ·) ih

theorem partitionAt_append {sep : Char} {xs : List Char} (h : sep ∉ xs) (ys : List Char) :
    partitionAt sep (xs ++ sep :: ys) = (xs, ys) := by
  induction xs with
  | nil => exact partitionAt_sep sep ys
  | cons x xs ih =>
    obtain ⟨hx, hxs⟩ : sep ≠ x ∧ sep ∉ xs := by simpa using h
    rw [List.cons_append, partitionAt_cons hx, ih hxs]

theorem partitionAt_of_notMem {sep : Char} {xs : List Char} (h : sep ∉ xs) :
    partitionAt sep xs = (xs, []) := by
  induction xs with
  | nil => rfl
  | cons x xs ih =>
    obtain ⟨hx, hxs⟩ : sep ≠ x ∧ sep ∉ xs := by simpa using h
    rw [partitionAt_cons hx, ih hxs]

theorem not_mem_partitionAt (sep : Char) (cs : List Char) : sep ∉ (partitionAt sep cs).1 := by
  intro h
  have hne := List.mem_takeWhile_imp h
  simp at hne

theorem intercalate_concat_append {sep x y : List Char} (init : List (List Char)) :
    sep.intercalate (init ++ [x ++ y]) = sep.intercalate (init ++ [x]) ++ y := by
  induction init with
  | nil => rw [List.nil_append, List.nil_append, List.intercalate_singleton, List.intercalate_singleton]
  | cons first rest ih =>
    have hne (z : List Char) : rest ++ [z] ≠ [] := by simp
    rw [List.cons_append, List.cons_append, List.intercalate_cons_of_ne_nil (hne _),
      List.intercalate_cons_of_ne_nil (hne _), ih, List.append_assoc, List.append_assoc,
      List.append_assoc]

def tagText : Option (List Char) → List Char
  | none => []
  | some tag => ':' :: tag

/-- A reference is its name and its tag. -/
theorem reference_eq (reference : List Char) :
    reference = referenceName reference ++ tagText (referenceTag reference) := by
  obtain ⟨init, last, hparts⟩ : ∃ init last, reference.splitOn '/' = init ++ [last] := by
    obtain ⟨init, last, he⟩ :=
      (List.eq_nil_or_concat (reference.splitOn '/')).resolve_left (List.splitOn_ne_nil _ _)
    exact ⟨init, last, by rw [he, List.concat_eq_append]⟩
  have htag : tagText (referenceTag reference) =
      if ':' ∈ last then ':' :: (partitionAt ':' last).2 else [] := by
    unfold referenceTag
    rw [hparts, List.getLast?_concat]
    simp only [Option.getD_some]
    split <;> rfl
  have hname : referenceName reference = ['/'].intercalate (init ++ [(partitionAt ':' last).1]) := by
    rw [referenceName, referenceComponents, hparts, List.dropLast_concat, List.getLast?_concat]
    rfl
  calc reference = ['/'].intercalate (init ++ [last]) := by rw [← hparts, List.intercalate_splitOn]
    _ = ['/'].intercalate (init ++ [(partitionAt ':' last).1 ++
          if ':' ∈ last then ':' :: (partitionAt ':' last).2 else []]) := by
        rw [← partitionAt_eq]
    _ = referenceName reference ++ tagText (referenceTag reference) := by
        rw [intercalate_concat_append, ← hname, ← htag]

/-- Where no host has a port, the first colon is that of the tag. -/
theorem partitionAt_reference {reference : List Char} (h : ':' ∉ referenceName reference) :
    partitionAt ':' reference = (referenceName reference, (referenceTag reference).getD []) := by
  have href := reference_eq reference
  cases htag : referenceTag reference with
  | none =>
    rw [htag, tagText, List.append_nil] at href
    rw [← href] at h ⊢
    exact partitionAt_of_notMem h
  | some tag =>
    rw [htag, tagText] at href
    calc partitionAt ':' reference = partitionAt ':' (referenceName reference ++ ':' :: tag) := by
          rw [← href]
      _ = (referenceName reference, (some tag).getD []) := partitionAt_append h tag

theorem validTag_ne_nil {tag : List Char} (h : validTag tag = true) : tag ≠ [] := by
  rintro rfl
  cases h

/-- A tag has neither of the two separators. -/
theorem validTag_plain {tag : List Char} (h : validTag tag = true) : '/' ∉ tag ∧ ':' ∉ tag := by
  have hletters : ∀ c ∈ tag, (isTagLetter c || c == '.' || c == '-') = true := by
    cases tag with
    | nil => cases h
    | cons c cs =>
      simp only [validTag, Bool.and_eq_true, List.all_eq_true] at h
      intro d hd
      rcases List.mem_cons.mp hd with rfl | hd
      · simp [h.1.1]
      · exact h.1.2 d hd
  exact ⟨fun hm => absurd (hletters _ hm) (by decide), fun hm => absurd (hletters _ hm) (by decide)⟩

/-- The parts of a text that is a namespace, a segment and a tag. -/
theorem reference_parts {first segment tag : List Char} (hfirst : '/' ∉ first)
    (hsegment : '/' ∉ segment) (hcolon : ':' ∉ segment) (htag : '/' ∉ tag) :
    referenceComponents (first ++ '/' :: (segment ++ ':' :: tag)) = [first, segment] ∧
      referenceTag (first ++ '/' :: (segment ++ ':' :: tag)) = some tag := by
  have hlast : '/' ∉ segment ++ ':' :: tag := by simp [hsegment, htag]
  have hsplit : (first ++ '/' :: (segment ++ ':' :: tag)).splitOn '/' =
      [first, segment ++ ':' :: tag] := by
    rw [List.splitOn_append_cons_self_of_not_mem hfirst, List.splitOn_eq_singleton hlast]
  have hpart := partitionAt_append hcolon tag
  constructor
  · simp [referenceComponents, hsplit, hpart]
  · simp [referenceTag, hsplit, hpart]

/-- Nothing of a name that is flattened well is sanitized away. -/
theorem sanitizeFrom_eq {cs : List Char} (h : ∀ c ∈ cs, isMarkerChar c = true) (inRun : Bool) :
    sanitizeFrom inRun cs = cs := by
  induction cs generalizing inRun with
  | nil => rfl
  | cons c cs ih =>
    rw [sanitizeFrom, if_pos (h c List.mem_cons_self),
      ih (fun d hd => h d (List.mem_cons_of_mem c hd))]

theorem toLower_of_not_isUpper {c : Char} (h : ¬ c.isUpper = true) : c.toLower = c := by
  unfold Char.toLower
  split
  next hc => exact absurd (decide_eq_true hc) h
  next => rfl

theorem toNat_lt_of_markerLetter {c : Char} (h : isMarkerChar (markerLetter c) = true) :
    c.toNat < 128 := by
  unfold markerLetter at h
  split at h
  next hc => rcases hc with rfl | rfl <;> decide
  next =>
    by_cases hup : c.isUpper = true
    · exact toNat_lt_of_isAlphanum (isAlphanum_iff.mpr (Or.inl (Or.inl hup)))
    · rw [toLower_of_not_isUpper hup] at h
      exact toNat_lt_of_isMarkerChar h

theorem isPySpace_of_isMarkerChar {c : Char} (h : isMarkerChar (markerLetter c) = true) :
    isPySpace c = false :=
  @ascii_cases (fun c => isMarkerChar (markerLetter c) = true → isPySpace c = false) (by decide) c
    (toNat_lt_of_markerLetter h) h

theorem sanitizeRepoForMarker_eq {name : List Char}
    (h : (name.map markerLetter).foldl letterStep .start = .word) :
    sanitizeRepoForMarker name = name.map markerLetter := by
  have hnotbad : (name.map markerLetter).foldl letterStep .start ≠ .bad := by
    rw [h]
    decide
  have hmarker := foldl_letterStep_isMarkerChar hnotbad
  have hspace : stripChars isPySpace name = name := by
    refine stripChars_of_forall ?_
    intro c hc
    exact isPySpace_of_isMarkerChar (hmarker _ (List.mem_map_of_mem hc))
  have hflat : (name.map Char.toLower).map (fun c => if c = '/' ∨ c = ':' then '_' else c) =
      name.map markerLetter := by
    rw [List.map_map]
    refine List.map_congr_left ?_
    intro c hc
    exact @ascii_cases
      (fun c => (if c.toLower = '/' ∨ c.toLower = ':' then '_' else c.toLower) = markerLetter c)
      (by decide) c (toNat_lt_of_markerLetter (hmarker _ (List.mem_map_of_mem hc)))
  have hletter {c : Char} (hc : isNameLetter c = true) : (c == '_') = false := by
    by_contra hne
    obtain rfl : c = '_' := by simpa using hne
    exact absurd hc (by decide)
  have hstrip : stripChars (· == '_') (name.map markerLetter) = name.map markerLetter :=
    stripChars_eq_self (fun c hc => hletter ((validComponent_ends h).1 c hc))
      (fun c hc => hletter ((validComponent_ends h).2 c hc))
  have hne : name.map markerLetter ≠ [] := by
    intro hnil
    rw [hnil] at h
    cases h
  unfold sanitizeRepoForMarker
  simp only [hspace, hflat, sanitizeFrom_eq hmarker, hstrip, if_neg hne]

theorem mem_splitHost {parts : List (List Char)} {part : List Char} (h : part ∈ parts) :
    (splitHost parts).1 = some part ∨ part ∈ (splitHost parts).2 := by
  unfold splitHost
  split
  next first second rest =>
    split
    next =>
      rcases List.mem_cons.mp h with rfl | h
      · exact Or.inl rfl
      · exact Or.inr h
    next => exact Or.inr h
  next => exact Or.inr h

/-- The parts of a valid reference. -/
structure ReferenceParts (docker : Docker) (reference : List Char) : Prop where
  host : ∀ host, (splitHost (referenceComponents reference)).1 = some host → validHost host = true
  path : ∀ part ∈ (splitHost (referenceComponents reference)).2, validComponent part = true
  tag : ∀ tag, referenceTag reference = some tag → validTag tag = true
  fits : docker.fits (splitHost (referenceComponents reference)).1
    (['/'].intercalate (splitHost (referenceComponents reference)).2).length = true

theorem validReference_iff {docker : Docker} {reference : List Char} :
    validReference docker reference = true ↔ ReferenceParts docker reference := by
  unfold validReference
  simp only [Bool.and_eq_true, Option.all_eq_true, List.all_eq_true]
  constructor
  · rintro ⟨⟨⟨hhost, hpath⟩, htag⟩, hfits⟩
    exact ⟨hhost, hpath, htag, hfits⟩
  · rintro ⟨hhost, hpath, htag, hfits⟩
    exact ⟨⟨⟨hhost, hpath⟩, htag⟩, hfits⟩

/-- Without a port each component is read well in the marker. -/
theorem ReferenceParts.flattens {docker : Docker} {reference : List Char}
    (h : ReferenceParts docker reference) (hcolon : ':' ∉ referenceName reference) :
    ((referenceName reference).map markerLetter).foldl letterStep .start = .word := by
  refine foldl_letterStep_flatten (by simp [referenceComponents]) ?_
  intro part hpart
  rcases mem_splitHost hpart with hhost | hpath
  · have hplain : ':' ∉ part := fun hm =>
      hcolon ((infix_of_mem_intercalate hpart).subset hm)
    have hvalid := h.host part hhost
    unfold validHost at hvalid
    rw [partitionAt_of_notMem hplain] at hvalid
    have hword : part.foldl hostLetterStep .start = .word := by simpa [hplain] using hvalid
    rw [foldl_markerLetter hostLetterStep_bad (fun s c => hostLetterStep_markerLetter) (by simp [hword]), hword]
  · have hword : part.foldl letterStep .start = .word := by
      simpa [validComponent] using h.path part hpath
    rw [foldl_markerLetter letterStep_bad (fun s c => letterStep_markerLetter) (by simp [hword]), hword]

/-- The tag of a marker. -/
def markerTagOf (reference : List Char) : List Char := (referenceTag reference).getD "latest".toList

/-- The marker of a reference without a port. -/
theorem ReferenceParts.markerFor_eq {docker : Docker} {reference : List Char}
    (h : ReferenceParts docker reference) (hcolon : ':' ∉ referenceName reference) :
    markerFor reference = markerNamespace ++
      '/' :: ((referenceName reference).map markerLetter ++ ':' :: markerTagOf reference) := by
  have htag : (if (referenceTag reference).getD [] = [] then "latest".toList
      else (referenceTag reference).getD []) = markerTagOf reference := by
    unfold markerTagOf
    cases hs : referenceTag reference with
    | none => rfl
    | some tag => simp [validTag_ne_nil (h.tag tag hs)]
  unfold markerFor
  rw [partitionAt_reference hcolon]
  simp only [htag, sanitizeRepoForMarker_eq (h.flattens hcolon), markerPrefix, List.append_assoc]
  rfl

theorem ReferenceParts.markerTag_valid {docker : Docker} {reference : List Char}
    (h : ReferenceParts docker reference) : validTag (markerTagOf reference) = true := by
  unfold markerTagOf
  cases hs : referenceTag reference with
  | none => decide
  | some tag => exact h.tag tag hs

theorem not_mem_of_validComponent {cs : List Char} (h : cs.foldl letterStep .start = .word) :
    '/' ∉ cs ∧ ':' ∉ cs := by
  have hmarker := @foldl_letterStep_isMarkerChar .start cs (by simp [h])
  exact ⟨fun hm => absurd (hmarker _ hm) (by decide), fun hm => absurd (hmarker _ hm) (by decide)⟩

theorem ReferenceParts.marker_parts {docker : Docker} {reference : List Char}
    (h : ReferenceParts docker reference) (hcolon : ':' ∉ referenceName reference) :
    referenceComponents (markerFor reference) =
        [markerNamespace, (referenceName reference).map markerLetter] ∧
      referenceTag (markerFor reference) = some (markerTagOf reference) := by
  obtain ⟨hslash, hplain⟩ := not_mem_of_validComponent (h.flattens hcolon)
  rw [h.markerFor_eq hcolon]
  exact reference_parts (by decide) hslash hplain (validTag_plain h.markerTag_valid).1

theorem splitHost_marker (segment : List Char) :
    splitHost [markerNamespace, segment] = (none, [markerNamespace, segment]) := by
  have hhost : isHostPart markerNamespace = false := by decide
  simp [splitHost, hhost]

theorem ReferenceParts.marker_valid_iff {docker : Docker} {reference : List Char}
    (h : ReferenceParts docker reference) (hcolon : ':' ∉ referenceName reference) :
    validReference docker (markerFor reference) = true ↔
      docker.fits none (12 + (referenceName reference).length) = true := by
  obtain ⟨hcomponents, htag⟩ := h.marker_parts hcolon
  have hlength : (['/'].intercalate
      [markerNamespace, (referenceName reference).map markerLetter]).length =
        12 + (referenceName reference).length := by
    rw [List.intercalate_cons_cons, List.intercalate_singleton, List.length_append,
      List.length_append, List.length_map]
    rfl
  have hpath : [markerNamespace, (referenceName reference).map markerLetter].all
      validComponent = true := by
    have hnamespace : validComponent markerNamespace = true := by decide
    have hflat : validComponent ((referenceName reference).map markerLetter) = true :=
      decide_eq_true (h.flattens hcolon)
    rw [List.all_cons, List.all_cons, hnamespace, hflat]
    rfl
  unfold validReference
  rw [hcomponents, htag, splitHost_marker]
  simp only [hpath, hlength, h.markerTag_valid, Option.all_none, Option.all_some, Bool.true_and,
    Bool.and_true]

/-- A component that is added to is still the last one. -/
theorem referenceName_of_plain {name tag : List Char} (hname : ':' ∉ name) (htag : '/' ∉ tag) :
    referenceName (name ++ ':' :: tag) = name := by
  obtain ⟨init, last, he⟩ :=
    (List.eq_nil_or_concat (name.splitOn '/')).resolve_left (List.splitOn_ne_nil _ _)
  rw [List.concat_eq_append] at he
  have hparts : ∀ part ∈ init ++ [last], '/' ∉ part := fun part hpart =>
    not_mem_of_mem_splitOn (he ▸ hpart)
  have hjoin : name = ['/'].intercalate (init ++ [last]) := by rw [← he, List.intercalate_splitOn]
  have hsplit : (name ++ ':' :: tag).splitOn '/' = init ++ [last ++ ':' :: tag] := by
    have hall : ∀ part ∈ init ++ [last ++ ':' :: tag], '/' ∉ part := by
      intro part hpart
      rcases List.mem_append.mp hpart with hi | hl
      · exact hparts part (List.mem_append_left _ hi)
      · have hlast := hparts last (by simp)
        rw [List.mem_singleton.mp hl]
        simp [hlast, htag]
    rw [hjoin, ← intercalate_concat_append, List.splitOn_intercalate '/' hall (by simp)]
  have hlast : ':' ∉ last := fun hm =>
    hname (hjoin ▸ (infix_of_mem_intercalate (by simp : last ∈ init ++ [last])).subset hm)
  rw [referenceName, referenceComponents, hsplit, List.dropLast_concat, List.getLast?_concat,
    Option.getD_some, partitionAt_append hlast, ← hjoin]

/-- A reference with a port is split at the port. -/
theorem slash_of_port {reference : List Char} (h : ':' ∈ referenceName reference) :
    ':' ∈ reference ∧ '/' ∈ (partitionAt ':' reference).2 := by
  have hin : ':' ∈ reference := by
    rw [reference_eq reference]
    exact List.mem_append_left _ h
  refine ⟨hin, ?_⟩
  by_contra hslash
  have hsplit := partitionAt_eq ':' reference
  rw [if_pos hin] at hsplit
  have hname := referenceName_of_plain (not_mem_partitionAt ':' reference) hslash
  rw [← hsplit] at hname
  rw [hname] at h
  exact not_mem_partitionAt ':' reference h

/-- The marker of a valid reference is a valid reference of one segment below the namespace
exactly when no registry port stands in the name and docker takes the longer name. -/
theorem oneSegmentMarker_iff {docker : Docker} {reference : List Char}
    (h : validReference docker reference = true) :
    OneSegmentMarker docker (markerFor reference) ↔
      ':' ∉ referenceName reference ∧
        docker.fits none (12 + (referenceName reference).length) = true := by
  have hparts := validReference_iff.mp h
  constructor
  · rintro ⟨hvalid, segment, tag, hcomponents, htag⟩
    have hcolon : ':' ∉ referenceName reference := by
      intro hm
      obtain ⟨hin, hslash⟩ := slash_of_port hm
      have hmarker := validReference_iff.mp hvalid
      have htagOk := validTag_plain (hmarker.tag tag htag)
      have hsegment : validComponent segment = true := by
        refine hmarker.path segment ?_
        rw [hcomponents, splitHost_marker]
        simp
      have heq := reference_eq (markerFor reference)
      rw [htag, referenceName, hcomponents, List.intercalate_cons_cons,
        List.intercalate_singleton] at heq
      have hrest : (partitionAt ':' reference).2 ≠ [] := List.ne_nil_of_mem hslash
      simp only [markerFor, if_neg hrest, markerPrefix, tagText, List.append_assoc,
        List.append_cancel_left_eq] at heq
      have hmem : '/' ∈ segment ++ ':' :: tag := by
        rw [← heq]
        simp [hslash]
      have hplain := (not_mem_of_validComponent (by simpa [validComponent] using hsegment)).1
      simp [hplain, htagOk.1] at hmem
    exact ⟨hcolon, (hparts.marker_valid_iff hcolon).mp hvalid⟩
  · rintro ⟨hcolon, hfits⟩
    obtain ⟨hcomponents, htag⟩ := hparts.marker_parts hcolon
    exact ⟨(hparts.marker_valid_iff hcolon).mpr hfits, _, _, hcomponents, htag⟩

end NovaVe
