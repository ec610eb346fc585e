import Mathlib.Data.List.Basic

namespace NovaVe

/-- A part of a pattern: a text, or a run of characters of a class with bounds on its length. -/
inductive PatternPart
  | text (chars : List Char)
  | run (allowed : Char → Bool) (least : Nat) (most : Option Nat)

/-- The words of a pattern. -/
def PatternFits : List PatternPart → List Char → Prop
  | [], w => w = []
  | .text chars :: parts, w => ∃ rest, w = chars ++ rest ∧ PatternFits parts rest
  | .run allowed least most :: parts, w =>
    ∃ chars rest, w = chars ++ rest ∧ (∀ c ∈ chars, allowed c = true) ∧ least ≤ chars.length ∧
      (∀ m, most = some m → chars.length ≤ m) ∧ PatternFits parts rest

/-- What a match at the start of a text can leave of it. -/
def leftovers : List PatternPart → List Char → List (List Char)
  | [], s => [s]
  | .text chars :: parts, s =>
    if chars.isPrefixOf s then leftovers parts (s.drop chars.length) else []
  | .run allowed least most :: parts, s =>
    ((List.range (s.length + 1)).filter (fun k =>
      decide (least ≤ k) && most.all (fun m => decide (k ≤ m)) && (s.take k).all allowed)).flatMap
      (fun k => leftovers parts (s.drop k))

/-- A match of a pattern between `^` and `$`: a newline may follow it. -/
def matchesDollar (parts : List PatternPart) (s : List Char) : Bool :=
  (leftovers parts s).any (fun rest => decide (rest = []) || decide (rest = ['\n']))

/-- A match of a pattern between `\A` and `\Z`. -/
def matchesEnd (parts : List PatternPart) (s : List Char) : Bool :=
  (leftovers parts s).any (fun rest => decide (rest = []))

theorem mem_leftovers_iff (parts : List PatternPart) (s rest : List Char) :
    rest ∈ leftovers parts s ↔ ∃ w, s = w ++ rest ∧ PatternFits parts w := by
  induction parts generalizing s with
  | nil =>
    unfold leftovers PatternFits
    constructor
    · intro h
      exact ⟨[], (List.mem_singleton.mp h).symm, rfl⟩
    · intro h
      obtain ⟨w, hs, hw⟩ := h
      rw [hs, hw]
      exact List.mem_singleton.mpr rfl
  | cons part parts ih =>
    cases part with
    | text chars =>
      unfold leftovers PatternFits
      constructor
      · intro h
        split at h
        next hpre =>
          obtain ⟨t, ht⟩ := List.isPrefixOf_iff_prefix.mp hpre
          rw [← ht, List.drop_left] at h
          obtain ⟨w, hw, hfits⟩ := (ih t).mp h
          refine ⟨chars ++ w, ?_, w, rfl, hfits⟩
          rw [← ht, hw, List.append_assoc]
        next => cases h
      · intro h
        obtain ⟨w, hs, t, hw, hfits⟩ := h
        have hpre : chars.isPrefixOf s = true := by
          apply List.isPrefixOf_iff_prefix.mpr
          rw [hs, hw, List.append_assoc]
          exact List.prefix_append _ _
        rw [if_pos hpre, hs, hw, List.append_assoc, List.drop_left]
        exact (ih (t ++ rest)).mpr ⟨t, rfl, hfits⟩
    | run allowed least most =>
      unfold leftovers PatternFits
      rw [List.mem_flatMap]
      constructor
      · intro h
        obtain ⟨k, hk, hrest⟩ := h
        obtain ⟨hrange, hbounds⟩ := List.mem_filter.mp hk
        have hle : k ≤ s.length := by
          have hlt := List.mem_range.mp hrange
          omega
        rw [Bool.and_eq_true, Bool.and_eq_true] at hbounds
        obtain ⟨⟨hleast, hmost⟩, hall⟩ := hbounds
        obtain ⟨w, hw, hfits⟩ := (ih (s.drop k)).mp hrest
        have hlength : (s.take k).length = k := by
          rw [List.length_take]
          omega
        refine ⟨s.take k ++ w, ?_, s.take k, w, rfl, List.all_eq_true.mp hall, ?_, ?_, hfits⟩
        · rw [List.append_assoc, ← hw, List.take_append_drop]
        · rw [hlength]
          exact of_decide_eq_true hleast
        · intro m hm
          rw [hm] at hmost
          rw [hlength]
          exact of_decide_eq_true hmost
      · intro h
        obtain ⟨w, hs, chars, t, hw, hall, hleast, hmost, hfits⟩ := h
        have hsplit : s = chars ++ (t ++ rest) := by
          rw [hs, hw, List.append_assoc]
        refine ⟨chars.length, ?_, ?_⟩
        · rw [List.mem_filter]
          refine ⟨?_, ?_⟩
          · rw [List.mem_range, hsplit, List.length_append]
            omega
          · rw [Bool.and_eq_true, Bool.and_eq_true]
            refine ⟨⟨decide_eq_true hleast, ?_⟩, ?_⟩
            · cases most with
              | none => rfl
              | some m => exact decide_eq_true (hmost m rfl)
            · rw [hsplit, List.take_left]
              exact List.all_eq_true.mpr hall
        · rw [hsplit, List.drop_left]
          exact (ih (t ++ rest)).mpr ⟨t, rfl, hfits⟩

theorem patternFits_append (parts more : List PatternPart) (w : List Char) :
    PatternFits (parts ++ more) w ↔
      ∃ a b, w = a ++ b ∧ PatternFits parts a ∧ PatternFits more b := by
  induction parts generalizing w with
  | nil =>
    constructor
    · intro h
      exact ⟨[], w, rfl, rfl, h⟩
    · intro h
      obtain ⟨a, b, hw, ha, hb⟩ := h
      rw [hw, show a = [] from ha]
      exact hb
  | cons part parts ih =>
    cases part with
    | text chars =>
      constructor
      · intro h
        obtain ⟨t, hw, ht⟩ := h
        obtain ⟨a, b, hab, ha, hb⟩ := (ih t).mp ht
        refine ⟨chars ++ a, b, ?_, ⟨a, rfl, ha⟩, hb⟩
        rw [hw, hab, List.append_assoc]
      · intro h
        obtain ⟨a, b, hw, ⟨t, ha, ht⟩, hb⟩ := h
        refine ⟨t ++ b, ?_, (ih (t ++ b)).mpr ⟨t, b, rfl, ht, hb⟩⟩
        rw [hw, ha, List.append_assoc]
    | run allowed least most =>
      constructor
      · intro h
        obtain ⟨chars, t, hw, hall, hleast, hmost, ht⟩ := h
        obtain ⟨a, b, hab, ha, hb⟩ := (ih t).mp ht
        refine ⟨chars ++ a, b, ?_, ⟨chars, a, rfl, hall, hleast, hmost, ha⟩, hb⟩
        rw [hw, hab, List.append_assoc]
      · intro h
        obtain ⟨a, b, hw, ⟨chars, t, ha, hall, hleast, hmost, ht⟩, hb⟩ := h
        refine ⟨chars, t ++ b, ?_, hall, hleast, hmost, (ih (t ++ b)).mpr ⟨t, b, rfl, ht, hb⟩⟩
        rw [hw, ha, List.append_assoc]

/-- Between `\A` and `\Z` the whole text is a word of the pattern. -/
theorem matchesEnd_iff (parts : List PatternPart) (s : List Char) :
    matchesEnd parts s = true ↔ PatternFits parts s := by
  unfold matchesEnd
  rw [List.any_eq_true]
  constructor
  · intro h
    obtain ⟨rest, hmem, hrest⟩ := h
    obtain ⟨w, hs, hfits⟩ := (mem_leftovers_iff parts s rest).mp hmem
    rw [of_decide_eq_true hrest, List.append_nil] at hs
    rw [hs]
    exact hfits
  · intro h
    exact ⟨[], (mem_leftovers_iff parts s []).mpr ⟨s, (List.append_nil s).symm, h⟩, rfl⟩

/-- Between `^` and `$` the text is a word of the pattern, or one with a newline after it. -/
theorem matchesDollar_iff (parts : List PatternPart) (s : List Char) :
    matchesDollar parts s = true ↔
      PatternFits parts s ∨ ∃ w, s = w ++ ['\n'] ∧ PatternFits parts w := by
  unfold matchesDollar
  rw [List.any_eq_true]
  constructor
  · intro h
    obtain ⟨rest, hmem, hrest⟩ := h
    obtain ⟨w, hs, hfits⟩ := (mem_leftovers_iff parts s rest).mp hmem
    rw [Bool.or_eq_true] at hrest
    rcases hrest with hnil | hline
    · left
      rw [of_decide_eq_true hnil, List.append_nil] at hs
      rw [hs]
      exact hfits
    · right
      rw [of_decide_eq_true hline] at hs
      exact ⟨w, hs, hfits⟩
  · intro h
    rcases h with hfits | ⟨w, hs, hfits⟩
    · exact ⟨[], (mem_leftovers_iff parts s []).mpr ⟨s, (List.append_nil s).symm, hfits⟩, rfl⟩
    · exact ⟨['\n'], (mem_leftovers_iff parts s ['\n']).mpr ⟨w, hs, hfits⟩, rfl⟩

def PatternPart.admits (c : Char) : PatternPart → Bool
  | .text chars => chars.contains c
  | .run allowed _ _ => allowed c

/-- No word of a pattern has a character that none of its parts admits. -/
theorem PatternFits.not_mem {parts : List PatternPart} {c : Char}
    (hnone : ∀ part ∈ parts, part.admits c = false) {w : List Char} (h : PatternFits parts w) :
    c ∉ w := by
  induction parts generalizing w with
  | nil =>
    rw [show w = [] from h]
    exact List.not_mem_nil
  | cons part parts ih =>
    have hfirst := hnone part List.mem_cons_self
    have hrest := fun {t : List Char} =>
      @ih (fun other hother => hnone other (List.mem_cons_of_mem part hother)) t
    cases part with
    | text chars =>
      obtain ⟨t, hw, hfits⟩ := h
      rw [hw, List.mem_append, not_or]
      refine ⟨?_, hrest hfits⟩
      intro hmem
      have hcontains : chars.contains c = true := List.contains_iff_mem.mpr hmem
      rw [show PatternPart.admits c (.text chars) = chars.contains c from rfl, hcontains] at hfirst
      cases hfirst
    | run allowed least most =>
      obtain ⟨chars, t, hw, hall, _, _, hfits⟩ := h
      rw [hw, List.mem_append, not_or]
      refine ⟨?_, hrest hfits⟩
      intro hmem
      rw [show PatternPart.admits c (.run allowed least most) = allowed c from rfl,
        hall c hmem] at hfirst
      cases hfirst

end NovaVe
