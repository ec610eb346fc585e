import NovaVe.IfaceNames
import NovaVe.PairedNodes

namespace NovaVe

/-- `splitItems` of the canvas. -/
def splitItems (scheme : String) : List (List Char) :=
  ((scheme.toList.splitOn ',').map (stripChars isJsSpace)).filter (fun s => s.length > 0)

def applyPlaceholders (fmt : List Char) (relIndex : Nat) : List Char :=
  replaceText "\x7bport\x7d".toList (Nat.toDigits 10 (relIndex + 1))
    (replaceText "\x7bslot\x7d".toList (Nat.toDigits 10 relIndex)
      (replaceText "\x7bn\x7d".toList (Nat.toDigits 10 relIndex) fmt))

/-- `formatInterfaceName`. -/
def formatInterfaceName (scheme : String) (index : Nat) : String :=
  if scheme = "" then ""
  else
    let items := splitItems scheme
    match items.getLast? with
    | none => ""
    | some last =>
      let fixedCount := items.length - 1
      if index < fixedCount then String.ofList (items.getD index [])
      else String.ofList (applyPlaceholders last (index - fixedCount))

/-- `validateInterfaceNamingScheme`: the message of the first rule that is broken. -/
def validateInterfaceNamingScheme (scheme : String) : Option String :=
  if stripChars isJsSpace scheme.toList = [] then none
  else
    let raw := (scheme.toList.splitOn ',').map (fun s => String.ofList (stripChars isJsSpace s))
    if raw.any (fun s => decide (s = "")) then
      some "Empty entry in list. Remove stray commas or fill in the name."
    else match raw.dropLast.find? hasPlaceholder with
      | some item =>
        some ("\"" ++ item ++ "\" must be a fixed name; only the last entry may use " ++
          "\x7bn\x7d, \x7bslot\x7d, or \x7bport\x7d.")
      | none =>
        let last := (raw.getLast?).getD ""
        if hasPlaceholder last then none
        else if raw.length = 1 then some "Must contain \x7bn\x7d, \x7bslot\x7d, or \x7bport\x7d."
        else some ("Last entry \"" ++ last ++
          "\" must contain \x7bn\x7d, \x7bslot\x7d, or \x7bport\x7d.")

/-- A part of a name: a character of its own, or a number that counts from zero or from one. -/
inductive NamePart
  | char (c : Char)
  | fromZero
  | fromOne
deriving DecidableEq, Repr

def nameParts : List Char → List NamePart
  | '{' :: 'n' :: '}' :: cs => .fromZero :: nameParts cs
  | '{' :: 's' :: 'l' :: 'o' :: 't' :: '}' :: cs => .fromZero :: nameParts cs
  | '{' :: 'p' :: 'o' :: 'r' :: 't' :: '}' :: cs => .fromOne :: nameParts cs
  | c :: cs => .char c :: nameParts cs
  | [] => []

def NamePart.fill (rel : Nat) : NamePart → List Char
  | .char c => [c]
  | .fromZero => Nat.toDigits 10 rel
  | .fromOne => Nat.toDigits 10 (rel + 1)

/-- The name that a pattern gives to a relative index. -/
def fillName (rel : Nat) (parts : List NamePart) : List Char := parts.flatMap (NamePart.fill rel)

def nToken : List Char := ['{', 'n', '}']

def slotToken : List Char := ['{', 's', 'l', 'o', 't', '}']

def portToken : List Char := ['{', 'p', 'o', 'r', 't', '}']

theorem namingPlaceholders_toList :
    namingPlaceholders.map String.toList = [nToken, slotToken, portToken] := by
  decide

def NoToken (cs : List Char) : Prop := ∀ token ∈ [nToken, slotToken, portToken], ¬ token <+: cs

/-- Every character that starts no token is a part of its own. -/
theorem nameParts_cons {c : Char} {cs : List Char} (h : NoToken (c :: cs)) :
    nameParts (c :: cs) = .char c :: nameParts cs := by
  refine nameParts.eq_4 c cs ?_ ?_ ?_
  · rintro rest rfl rfl
    exact h nToken (by simp) (List.prefix_append nToken rest)
  · rintro rest rfl rfl
    exact h slotToken (by simp) (List.prefix_append slotToken rest)
  · rintro rest rfl rfl
    exact h portToken (by simp) (List.prefix_append portToken rest)

/-- A pattern is read a token or a character at a time. -/
theorem pattern_induction {motive : List Char → Prop} (nil : motive [])
    (token : ∀ t ∈ [nToken, slotToken, portToken], ∀ cs, motive cs → motive (t ++ cs))
    (char : ∀ c cs, NoToken (c :: cs) → motive cs → motive (c :: cs)) (cs : List Char) :
    motive cs := by
  induction cs using nameParts.induct with
  | case1 cs ih => exact token nToken (by simp) cs ih
  | case2 cs ih => exact token slotToken (by simp) cs ih
  | case3 cs ih => exact token portToken (by simp) cs ih
  | case4 c cs hn hslot hport ih =>
    refine char c cs ?_ ih
    intro t ht hp
    obtain ⟨rest, hrest⟩ := hp
    simp only [List.mem_cons, List.not_mem_nil, or_false] at ht
    rcases ht with rfl | rfl | rfl
    · exact hn rest (List.cons.inj hrest).1.symm (List.cons.inj hrest).2.symm
    · exact hslot rest (List.cons.inj hrest).1.symm (List.cons.inj hrest).2.symm
    · exact hport rest (List.cons.inj hrest).1.symm (List.cons.inj hrest).2.symm
  | case5 => exact nil

theorem brace_not_mem_toDigits (n : Nat) : '{' ∉ Nat.toDigits 10 n := by
  intro h
  have hdigit : Char.isDigit '{' := Nat.isDigit_of_mem_toDigits (by omega) (by omega) h
  revert hdigit
  decide

theorem letters_not_mem_toDigits {word : List Char} (h : ∀ c ∈ word, c.isDigit = false) (n : Nat) :
    ∀ c ∈ word, c ∉ Nat.toDigits 10 n := by
  intro c hc hmem
  have hdigit : c.isDigit := Nat.isDigit_of_mem_toDigits (by omega) (by omega) hmem
  rw [h c hc] at hdigit
  cases hdigit

/-- A word without digits starts the pattern if it starts the name. -/
theorem word_prefix_of_applyPlaceholders {word cs : List Char} {rel : Nat}
    (hword : ∀ c ∈ word, c.isDigit = false) (h : word <+: applyPlaceholders cs rel) :
    word <+: cs := by
  have hport := prefix_of_prefix_replaceText Nat.toDigits_ne_nil
    (letters_not_mem_toDigits hword (rel + 1)) h
  have hslot := prefix_of_prefix_replaceText Nat.toDigits_ne_nil
    (letters_not_mem_toDigits hword rel) hport
  exact prefix_of_prefix_replaceText Nat.toDigits_ne_nil (letters_not_mem_toDigits hword rel) hslot

theorem replaceText_other {t : Char} {ts value word : List Char} (hword : t ∉ word)
    (hne : ¬ (t :: ts <+: t :: word ∨ t :: word <+: t :: ts)) (cs : List Char) :
    replaceText (t :: ts) value (t :: (word ++ cs)) =
      t :: (word ++ replaceText (t :: ts) value cs) := by
  have hno : ¬ t :: ts <+: t :: (word ++ cs) := by
    intro hp
    exact hne (List.prefix_or_prefix_of_prefix hp (List.prefix_append (t :: word) cs))
  rw [replaceText_cons hno, replaceText_append hword]

/-- What has no brace is kept. -/
theorem replaceText_plain {token value xs : List Char} (h : token ∈ [nToken, slotToken, portToken])
    (hxs : '{' ∉ xs) (cs : List Char) :
    replaceText token value (xs ++ cs) = xs ++ replaceText token value cs := by
  simp only [List.mem_cons, List.not_mem_nil, or_false] at h
  rcases h with rfl | rfl | rfl <;> exact replaceText_append hxs cs

/-- A token that is not the one replaced is kept. -/
theorem replaceText_tokens {token value t : List Char} (h : token ∈ [nToken, slotToken, portToken])
    (ht : t ∈ [nToken, slotToken, portToken]) (hne : token ≠ t) (cs : List Char) :
    replaceText token value (t ++ cs) = t ++ replaceText token value cs := by
  simp only [List.mem_cons, List.not_mem_nil, or_false] at h ht
  rcases h with rfl | rfl | rfl <;> rcases ht with rfl | rfl | rfl <;>
    first
    | exact absurd rfl hne
    | exact replaceText_other (by decide) (by decide) cs

theorem applyPlaceholders_eq (cs : List Char) (rel : Nat) :
    applyPlaceholders cs rel =
      replaceText portToken (Nat.toDigits 10 (rel + 1))
        (replaceText slotToken (Nat.toDigits 10 rel)
          (replaceText nToken (Nat.toDigits 10 rel) cs)) := rfl

theorem applyPlaceholders_n (cs : List Char) (rel : Nat) :
    applyPlaceholders (nToken ++ cs) rel = Nat.toDigits 10 rel ++ applyPlaceholders cs rel := by
  have hrel := brace_not_mem_toDigits rel
  rw [applyPlaceholders_eq, applyPlaceholders_eq, replaceText_token (by decide),
    replaceText_plain (by simp) hrel, replaceText_plain (by simp) hrel]

theorem applyPlaceholders_slot (cs : List Char) (rel : Nat) :
    applyPlaceholders (slotToken ++ cs) rel = Nat.toDigits 10 rel ++ applyPlaceholders cs rel := by
  have hrel := brace_not_mem_toDigits rel
  rw [applyPlaceholders_eq, applyPlaceholders_eq,
    replaceText_tokens (by simp) (by simp) (by decide), replaceText_token (by decide),
    replaceText_plain (by simp) hrel]

theorem applyPlaceholders_port (cs : List Char) (rel : Nat) :
    applyPlaceholders (portToken ++ cs) rel =
      Nat.toDigits 10 (rel + 1) ++ applyPlaceholders cs rel := by
  rw [applyPlaceholders_eq, applyPlaceholders_eq,
    replaceText_tokens (by simp) (by simp) (by decide),
    replaceText_tokens (by simp) (by simp) (by decide), replaceText_token (by decide)]

/-- The number that stands for a token. -/
def tokenNumber (token : List Char) (rel : Nat) : Nat := if token = portToken then rel + 1 else rel

theorem applyPlaceholders_token {token : List Char} (h : token ∈ [nToken, slotToken, portToken])
    (cs : List Char) (rel : Nat) :
    applyPlaceholders (token ++ cs) rel =
      Nat.toDigits 10 (tokenNumber token rel) ++ applyPlaceholders cs rel := by
  simp only [List.mem_cons, List.not_mem_nil, or_false] at h
  rcases h with rfl | rfl | rfl
  · exact applyPlaceholders_n cs rel
  · exact applyPlaceholders_slot cs rel
  · exact applyPlaceholders_port cs rel

/-- No replacement makes a token start at a character that starts none. -/
theorem noToken_cons {c : Char} {cs rest : List Char} (h : NoToken (c :: cs))
    (hwords : ∀ word : List Char, (∀ c ∈ word, c.isDigit = false) → word <+: rest → word <+: cs) :
    NoToken (c :: rest) := by
  intro token htoken hp
  refine h token htoken ?_
  simp only [List.mem_cons, List.not_mem_nil, or_false] at htoken
  rcases htoken with rfl | rfl | rfl
  all_goals
    obtain ⟨hc, hrest⟩ := List.cons_prefix_cons.mp hp
    exact List.cons_prefix_cons.mpr ⟨hc, hwords _ (forall_mem_eq_false (by decide)) hrest⟩

theorem applyPlaceholders_char {c : Char} {cs : List Char} (h : NoToken (c :: cs)) (rel : Nat) :
    applyPlaceholders (c :: cs) rel = c :: applyPlaceholders cs rel := by
  have hstep (token : List Char) (n : Nat) {rest : List Char} (hrest : NoToken (c :: rest)) :
      NoToken (c :: replaceText token (Nat.toDigits 10 n) rest) := by
    refine noToken_cons hrest ?_
    intro word hword hp
    exact prefix_of_prefix_replaceText Nat.toDigits_ne_nil (letters_not_mem_toDigits hword n) hp
  have hslot := hstep nToken rel h
  have hport := hstep slotToken rel hslot
  rw [applyPlaceholders_eq, replaceText_cons (h nToken (by simp)),
    replaceText_cons (hslot slotToken (by simp)), replaceText_cons (hport portToken (by simp))]
  rfl

theorem fillName_token {token : List Char} (h : token ∈ [nToken, slotToken, portToken])
    (cs : List Char) (rel : Nat) :
    fillName rel (nameParts (token ++ cs)) =
      Nat.toDigits 10 (tokenNumber token rel) ++ fillName rel (nameParts cs) := by
  simp only [List.mem_cons, List.not_mem_nil, or_false] at h
  rcases h with rfl | rfl | rfl <;> rfl

/-- The replacements one after the other fill the pattern. -/
theorem applyPlaceholders_eq_fillName (cs : List Char) (rel : Nat) :
    applyPlaceholders cs rel = fillName rel (nameParts cs) := by
  induction cs using pattern_induction with
  | nil => rfl
  | token t ht cs ih => rw [applyPlaceholders_token ht, fillName_token ht, ih]
  | char c cs hc ih =>
    rw [applyPlaceholders_char hc, nameParts_cons hc, ih]
    rfl

/-- No placeholder is left in a name. -/
theorem not_infix_applyPlaceholders {token : List Char}
    (h : token ∈ [nToken, slotToken, portToken]) (cs : List Char) (rel : Nat) :
    ¬ token <:+: applyPlaceholders cs rel := by
  have hnil : ¬ token <:+: [] := by
    simp only [List.mem_cons, List.not_mem_nil, or_false] at h
    rcases h with rfl | rfl | rfl <;> decide
  induction cs using pattern_induction with
  | nil => exact hnil
  | token t ht cs ih =>
    rw [applyPlaceholders_token ht]
    simp only [List.mem_cons, List.not_mem_nil, or_false] at h
    rcases h with rfl | rfl | rfl <;>
      exact not_infix_append (brace_not_mem_toDigits _) ih
  | char c cs hc ih =>
    rw [applyPlaceholders_char hc, List.infix_cons_iff]
    rintro (hp | hi)
    · exact noToken_cons hc (fun word hword hp => word_prefix_of_applyPlaceholders hword hp)
        token h hp
    · exact ih hi

theorem applyPlaceholders_ne_nil {cs : List Char} (h : cs ≠ []) (rel : Nat) :
    applyPlaceholders cs rel ≠ [] := by
  induction cs using pattern_induction with
  | nil => exact absurd rfl h
  | token t ht cs ih =>
    rw [applyPlaceholders_token ht]
    exact List.append_ne_nil_of_left_ne_nil Nat.toDigits_ne_nil _
  | char c cs hc ih =>
    rw [applyPlaceholders_char hc]
    exact List.cons_ne_nil _ _

theorem length_toDigits_mono {m n : Nat} (h : m ≤ n) :
    (Nat.toDigits 10 m).length ≤ (Nat.toDigits 10 n).length := by
  have hpos : 0 < (Nat.toDigits 10 n).length := Nat.length_toDigits_pos
  rw [Nat.length_toDigits_le_iff (by omega) hpos]
  have hn := (Nat.length_toDigits_le_iff (by omega) hpos).mp (le_refl (Nat.toDigits 10 n).length)
  omega

theorem length_applyPlaceholders_mono (cs : List Char) {m n : Nat} (h : m ≤ n) :
    (applyPlaceholders cs m).length ≤ (applyPlaceholders cs n).length := by
  induction cs using pattern_induction with
  | nil => exact le_refl _
  | token t ht cs ih =>
    rw [applyPlaceholders_token ht, applyPlaceholders_token ht, List.length_append,
      List.length_append]
    have hle : tokenNumber t m ≤ tokenNumber t n := by
      unfold tokenNumber
      split <;> omega
    have hdigits := length_toDigits_mono hle
    omega
  | char c cs hc ih =>
    rw [applyPlaceholders_char hc, applyPlaceholders_char hc, List.length_cons, List.length_cons]
    omega

/-- A pattern with a placeholder gives different names to different indices. -/
theorem applyPlaceholders_injective {token cs : List Char}
    (htoken : token ∈ [nToken, slotToken, portToken]) (hin : token <:+: cs) {m n : Nat}
    (hle : m ≤ n) (h : applyPlaceholders cs m = applyPlaceholders cs n) : m = n := by
  induction cs using pattern_induction with
  | nil =>
    simp only [List.mem_cons, List.not_mem_nil, or_false] at htoken
    rcases htoken with rfl | rfl | rfl <;> exact absurd hin (by decide)
  | token t ht cs ih =>
    rw [applyPlaceholders_token ht, applyPlaceholders_token ht] at h
    have hnumber : tokenNumber t m ≤ tokenNumber t n := by
      unfold tokenNumber
      split <;> omega
    have hdigits := length_toDigits_mono hnumber
    have hrest := length_applyPlaceholders_mono cs hle
    have hlength := congrArg List.length h
    rw [List.length_append, List.length_append] at hlength
    have hsame := toDigits_injective (List.append_inj_left h (by omega))
    unfold tokenNumber at hsame
    split at hsame <;> omega
  | char c cs hc ih =>
    rw [applyPlaceholders_char hc, applyPlaceholders_char hc] at h
    refine ih ?_ (List.cons.inj h).2
    rcases List.infix_cons_iff.mp hin with hp | hi
    · exact absurd hp (hc token htoken)
    · exact hi

end NovaVe
