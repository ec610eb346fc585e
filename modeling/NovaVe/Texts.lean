import Mathlib.Data.List.Basic
import Mathlib.Data.List.DropRight
import Mathlib.Data.List.Infix

namespace NovaVe

/-- The characters `str.strip` removes. -/
def isPySpace (c : Char) : Bool :=
  let n := c.toNat
  (9 ≤ n && n ≤ 13) || (28 ≤ n && n ≤ 32) || n == 133 || n == 160 || n == 5760 ||
    (8192 ≤ n && n ≤ 8202) || n == 8232 || n == 8233 || n == 8239 || n == 8287 || n == 12288

/-- The characters `String.prototype.trim` removes. -/
def isJsSpace (c : Char) : Bool :=
  [9, 10, 11, 12, 13, 32, 0xa0, 0x1680, 0x2028, 0x2029, 0x202f, 0x205f, 0x3000, 0xfeff].contains
    c.toNat || (0x2000 ≤ c.toNat && c.toNat ≤ 0x200a)

def stripChars (p : Char → Bool) (cs : List Char) : List Char :=
  ((cs.dropWhile p).reverse.dropWhile p).reverse

def pyStrip (s : String) : String := String.ofList (stripChars isPySpace s.toList)

theorem dropWhile_of_head {α : Type} {p : α → Bool} {xs : List α}
    (h : ∀ x, xs.head? = some x → p x = false) : xs.dropWhile p = xs := by
  cases xs with
  | nil => rfl
  | cons x rest => simp [h x rfl]

/-- A text that starts and ends with other characters is stripped to itself. -/
theorem stripChars_eq_self {p : Char → Bool} {cs : List Char}
    (hhead : ∀ c, cs.head? = some c → p c = false)
    (hlast : ∀ c, cs.getLast? = some c → p c = false) : stripChars p cs = cs := by
  have hrev : ∀ c, cs.reverse.head? = some c → p c = false := by
    intro c hc
    exact hlast c (by simpa using hc)
  unfold stripChars
  rw [dropWhile_of_head hhead, dropWhile_of_head hrev, List.reverse_reverse]

theorem stripChars_of_forall {p : Char → Bool} {cs : List Char} (h : ∀ c ∈ cs, p c = false) :
    stripChars p cs = cs :=
  stripChars_eq_self (fun c hc => h c (List.mem_of_mem_head? hc))
    (fun c hc => h c (List.mem_of_getLast? hc))

theorem pyStrip_eq_self {text : String} (h : ∀ c ∈ text.toList, isPySpace c = false) :
    pyStrip text = text := by
  unfold pyStrip
  rw [stripChars_of_forall h, String.ofList_toList]

theorem head?_dropWhile {p : Char → Bool} {cs : List Char} {c : Char}
    (h : (cs.dropWhile p).head? = some c) : p c = false := by
  have hnot := List.head?_dropWhile_not p cs
  rw [h] at hnot
  exact hnot

theorem getLast?_dropWhile {p : Char → Bool} {cs : List Char} {c : Char}
    (h : (cs.dropWhile p).getLast? = some c) : cs.getLast? = some c := by
  obtain ⟨pre, hpre⟩ := List.dropWhile_suffix p (l := cs)
  rw [← hpre, List.getLast?_append, h]
  rfl

/-- Stripping what was stripped changes nothing. -/
theorem stripChars_idem (p : Char → Bool) (cs : List Char) :
    stripChars p (stripChars p cs) = stripChars p cs := by
  refine stripChars_eq_self ?_ ?_
  · intro c hc
    have hlast : (((cs.dropWhile p).reverse).dropWhile p).getLast? = some c := by
      simpa [stripChars] using hc
    have hhead := getLast?_dropWhile hlast
    exact head?_dropWhile (by simpa using hhead)
  · intro c hc
    have hhead : (((cs.dropWhile p).reverse).dropWhile p).head? = some c := by
      simpa [stripChars] using hc
    exact head?_dropWhile hhead

theorem pyStrip_idem (text : String) : pyStrip (pyStrip text) = pyStrip text := by
  unfold pyStrip
  rw [String.toList_ofList, stripChars_idem]

theorem isPySpace_digit {c : Char} (h : c.isDigit) : isPySpace c = false := by
  have hlow : 48 ≤ c.toNat := by
    have := h
    simp only [Char.isDigit, Bool.and_eq_true, decide_eq_true_eq] at this
    exact UInt32.le_iff_toNat_le.mp this.1
  have hhigh : c.toNat ≤ 57 := by
    have := h
    simp only [Char.isDigit, Bool.and_eq_true, decide_eq_true_eq] at this
    exact UInt32.le_iff_toNat_le.mp this.2
  simp [isPySpace]
  omega

/-- The zeros of the decimal digits of Unicode. -/
def decimalZeros : List Nat :=
  [0x30, 0x660, 0x6f0, 0x7c0, 0x966, 0x9e6, 0xa66, 0xae6, 0xb66, 0xbe6, 0xc66, 0xce6, 0xd66,
   0xde6, 0xe50, 0xed0, 0xf20, 0x1040, 0x1090, 0x17e0, 0x1810, 0x1946, 0x19d0, 0x1a80, 0x1a90,
   0x1b50, 0x1bb0, 0x1c40, 0x1c50, 0xa620, 0xa8d0, 0xa900, 0xa9d0, 0xa9f0, 0xaa50, 0xabf0,
   0xff10, 0x104a0, 0x10d30, 0x11066, 0x110f0, 0x11136, 0x111d0, 0x112f0, 0x11450, 0x114d0,
   0x11650, 0x116c0, 0x11730, 0x118e0, 0x11950, 0x11c50, 0x11d50, 0x11da0, 0x11f50, 0x16a60,
   0x16ac0, 0x16b50, 0x1d7ce, 0x1d7d8, 0x1d7e2, 0x1d7ec, 0x1d7f6, 0x1e140, 0x1e2f0, 0x1e4f0,
   0x1e950, 0x1fbf0]

/-- A decimal digit as its ASCII digit; any other character stays. -/
def asciiDecimal (c : Char) : Char :=
  match decimalZeros.find? (fun first => decide (first ≤ c.toNat ∧ c.toNat < first + 10)) with
  | some first => Nat.digitChar (c.toNat - first)
  | none => c

/-- The characters that `int` strips: those of `str.strip` but for the four separators. -/
def isIntSpace (c : Char) : Bool := isPySpace c && !decide (28 ≤ c.toNat ∧ c.toNat ≤ 31)

/-- A text as `int` goes through it. -/
def intChars (text : List Char) : List Char := (stripChars isIntSpace text).map asciiDecimal

/-- The value of digits with single underscores between them. -/
def decimalDigits (digits : List Char) : Option Nat :=
  let groups := digits.splitOn '_'
  if groups.all (fun group => !group.isEmpty && group.all Char.isDigit) then
    some (Nat.ofDigitChars 10 groups.flatten 0)
  else none

/-- `int` of a text. -/
def intOfChars (text : List Char) : Option Int :=
  match intChars text with
  | '-' :: digits => (decimalDigits digits).map (fun (n : Nat) => -(n : Int))
  | '+' :: digits => (decimalDigits digits).map (fun (n : Nat) => (n : Int))
  | digits => (decimalDigits digits).map (fun (n : Nat) => (n : Int))

def pyInt (text : String) : Option Int := intOfChars text.toList

theorem asciiDecimal_ascii {c : Char} (h : c.toNat < 128) : asciiDecimal c = c := by
  have hall : ∀ n < 128, asciiDecimal (Char.ofNat n) = Char.ofNat n := by decide
  have hc := hall c.toNat h
  rwa [Char.ofNat_toNat] at hc

theorem isIntSpace_plain {c : Char} (h : isPySpace c = false) : isIntSpace c = false := by
  unfold isIntSpace
  rw [h, Bool.false_and]

theorem intChars_plain {text : List Char}
    (h : ∀ c ∈ text, c.toNat < 128 ∧ isPySpace c = false) : intChars text = text := by
  unfold intChars
  rw [stripChars_of_forall fun c hc => isIntSpace_plain (h c hc).2]
  conv_rhs => rw [← List.map_id text]
  exact List.map_congr_left fun c hc => asciiDecimal_ascii (h c hc).1

theorem ascii_digit {c : Char} (h : c.isDigit = true) : c.toNat < 128 := by
  simp only [Char.isDigit, Bool.and_eq_true, decide_eq_true_eq] at h
  have hhigh : c.toNat ≤ 57 := UInt32.le_iff_toNat_le.mp h.2
  omega

/-- `int` of a text that `str.isdigit` takes, its digits being decimal. -/
def digitsNumber (tail : List Char) : Option Nat :=
  let digits := tail.map asciiDecimal
  if digits ≠ [] ∧ digits.all Char.isDigit then some (Nat.ofDigitChars 10 digits 0) else none

theorem digitsNumber_ascii {tail : List Char} (hne : tail ≠ []) (hdigits : tail.all Char.isDigit) :
    digitsNumber tail = some (Nat.ofDigitChars 10 tail 0) := by
  have hsame : tail.map asciiDecimal = tail := by
    conv_rhs => rw [← List.map_id tail]
    exact List.map_congr_left fun c hc =>
      asciiDecimal_ascii (ascii_digit (List.all_eq_true.mp hdigits c hc))
  unfold digitsNumber
  rw [hsame]
  exact if_pos ⟨hne, hdigits⟩

theorem digitsNumber_sign (rest : List Char) : digitsNumber ('-' :: rest) = none := by
  unfold digitsNumber
  apply if_neg
  rintro ⟨_, hdigits⟩
  rw [List.map_cons, List.all_cons, asciiDecimal_ascii (by decide)] at hdigits
  exact absurd (Bool.and_eq_true_iff.mp hdigits).1 (by decide)

theorem digitsNumber_toDigits (n : Nat) : digitsNumber (Nat.toDigits 10 n) = some n := by
  rw [digitsNumber_ascii Nat.toDigits_ne_nil, Nat.ofDigitChars_ten_toDigits]
  exact List.all_eq_true.mpr fun c hc => Nat.isDigit_of_mem_toDigits (by decide) (by decide) hc

/-- Replace the occurrences of a token from left to right, past the characters still skipped. -/
def replaceFrom {α : Type} [DecidableEq α] (token value : List α) : Nat → List α → List α
  | _, [] => []
  | skip + 1, _ :: cs => replaceFrom token value skip cs
  | 0, c :: cs =>
    if token.isPrefixOf (c :: cs) then value ++ replaceFrom token value (token.length - 1) cs
    else c :: replaceFrom token value 0 cs

/-- `text.replace(token, value)`. -/
def replaceText {α : Type} [DecidableEq α] (token value cs : List α) : List α :=
  replaceFrom token value 0 cs

theorem replaceFrom_eq_drop {α : Type} [DecidableEq α] (token value : List α) (skip : Nat)
    (cs : List α) :
    replaceFrom token value skip cs = replaceText token value (cs.drop skip) := by
  induction cs generalizing skip with
  | nil => cases skip <;> rfl
  | cons c cs ih =>
    cases skip with
    | zero => rfl
    | succ skip => exact ih skip

theorem replaceText_token {α : Type} [DecidableEq α] {token value : List α} (h : token ≠ [])
    (cs : List α) :
    replaceText token value (token ++ cs) = value ++ replaceText token value cs := by
  cases token with
  | nil => exact absurd rfl h
  | cons t ts =>
    have hprefix : (t :: ts).isPrefixOf (t :: (ts ++ cs)) = true :=
      List.isPrefixOf_iff_prefix.mpr (List.prefix_append (t :: ts) cs)
    rw [replaceText, List.cons_append, replaceFrom, if_pos hprefix, replaceFrom_eq_drop]
    simp

theorem replaceText_cons {α : Type} [DecidableEq α] {token value : List α} {c : α} {cs : List α}
    (h : ¬ token <+: c :: cs) :
    replaceText token value (c :: cs) = c :: replaceText token value cs := by
  have hprefix : ¬ token.isPrefixOf (c :: cs) = true :=
    fun hp => h (List.isPrefixOf_iff_prefix.mp hp)
  rw [replaceText, replaceFrom, if_neg hprefix]
  rfl

/-- What a token cannot start in is left as it is. -/
theorem replaceText_append {α : Type} [DecidableEq α] {t : α} {ts value xs : List α} (h : t ∉ xs)
    (cs : List α) :
    replaceText (t :: ts) value (xs ++ cs) = xs ++ replaceText (t :: ts) value cs := by
  induction xs with
  | nil => rfl
  | cons x xs ih =>
    obtain ⟨hx, hxs⟩ : t ≠ x ∧ t ∉ xs := by simpa using h
    have hno : ¬ t :: ts <+: x :: (xs ++ cs) := fun hp => hx (List.cons_prefix_cons.mp hp).1
    rw [List.cons_append, replaceText_cons hno, ih hxs, List.cons_append]

/-- A word without the letters of the value starts the text before the replacements, if it does
after them. -/
theorem prefix_of_prefix_replaceText {α : Type} [DecidableEq α] {token value word cs : List α}
    (hvalue : value ≠ []) (hword : ∀ c ∈ word, c ∉ value)
    (h : word <+: replaceText token value cs) :
    word <+: cs := by
  induction word generalizing cs with
  | nil => exact List.nil_prefix
  | cons w word ih =>
    cases cs with
    | nil => exact absurd (List.prefix_nil.mp h) (List.cons_ne_nil w word)
    | cons c cs =>
      by_cases hp : token.isPrefixOf (c :: cs) = true
      · rw [replaceText, replaceFrom, if_pos hp] at h
        cases value with
        | nil => exact absurd rfl hvalue
        | cons v value =>
          have hv : w = v := (List.cons_prefix_cons.mp h).1
          exact absurd (hv ▸ List.mem_cons_self) (hword w List.mem_cons_self)
      · rw [replaceText_cons (fun h => hp (List.isPrefixOf_iff_prefix.mpr h)),
          List.cons_prefix_cons] at h
        exact List.cons_prefix_cons.mpr
          ⟨h.1, ih (fun c hc => hword c (List.mem_cons_of_mem w hc)) h.2⟩

theorem not_infix_append {α : Type} {t : α} {ts xs cs : List α} (hxs : t ∉ xs)
    (h : ¬ t :: ts <:+: cs) :
    ¬ t :: ts <:+: xs ++ cs := by
  induction xs with
  | nil => exact h
  | cons x xs ih =>
    obtain ⟨hx, hxs⟩ : t ≠ x ∧ t ∉ xs := by simpa using hxs
    rw [List.cons_append, List.infix_cons_iff]
    rintro (hp | hi)
    · exact hx (List.cons_prefix_cons.mp hp).1
    · exact ih hxs hi

theorem forall_mem_eq_false {α : Type} {p : α → Bool} {l : List α} (h : l.any p = false) :
    ∀ a ∈ l, p a = false := by
  simpa using h

/-- A token without spaces is found in the text exactly when it is found between the outer ones. -/
theorem infix_dropWhile_iff {α : Type} {p : α → Bool} {token cs : List α}
    (h : ∀ c ∈ token, p c = false) (hne : token ≠ []) :
    token <:+: cs.dropWhile p ↔ token <:+: cs := by
  induction cs with
  | nil => simp
  | cons c cs ih =>
    cases hc : p c with
    | false => simp [hc]
    | true =>
      rw [List.dropWhile_cons_of_pos hc, ih, List.infix_cons_iff]
      refine ⟨Or.inr, ?_⟩
      rintro (hp | hi)
      · cases token with
        | nil => exact absurd rfl hne
        | cons t ts =>
          rw [← (List.cons_prefix_cons.mp hp).1, h t List.mem_cons_self] at hc
          cases hc
      · exact hi

theorem infix_of_mem_intercalate {α : Type} {sep item : List α} {items : List (List α)}
    (h : item ∈ items) : item <:+: sep.intercalate items := by
  induction items with
  | nil => cases h
  | cons first rest ih =>
    cases rest with
    | nil =>
      rw [List.intercalate_singleton, List.mem_singleton.mp h]
    | cons second rest =>
      rw [List.intercalate_cons_cons]
      rcases List.mem_cons.mp h with rfl | h
      · rw [List.append_assoc]
        exact (List.prefix_append _ _).isInfix
      · exact (ih h).trans (List.suffix_append _ _).isInfix

theorem infix_of_mem_splitOn {x : Char} {xs part : List Char} (h : part ∈ xs.splitOn x) :
    part <:+: xs := by
  have hin := @infix_of_mem_intercalate _ [x] _ _ h
  rwa [List.intercalate_splitOn] at hin

end NovaVe
