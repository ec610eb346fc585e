import Mathlib.Data.List.Basic
import Mathlib.Tactic.Common

namespace NovaVe

/-- What a JSON scanner expects next. -/
inductive Mode
  | value | firstItem | firstKey | key | colon | after
  | str (isKey : Bool) | escape (isKey : Bool) | hex (isKey : Bool) (left : Nat)
  | minus | zero | digits | point | fraction | expMark | expSign | expDigits
  | lit (rest : List Char)
  | bad
deriving DecidableEq, Repr

/-- A scanner of JSON texts: its mode and the open brackets, `true` for an object. -/
structure Scanner where
  mode : Mode
  stack : List Bool
deriving DecidableEq, Repr

def isJsonSpace (c : Char) : Bool := c == ' ' || c == '\n' || c == '\t' || c == '\r'

def isJsonHex (c : Char) : Bool :=
  c.isDigit || ('a' ≤ c && c ≤ 'f') || ('A' ≤ c && c ≤ 'F')

/-- A character after a value. -/
def afterStep (stack : List Bool) (c : Char) : Scanner :=
  if isJsonSpace c then ⟨.after, stack⟩
  else
    match stack, c with
    | true :: _, ',' => ⟨.key, stack⟩
    | true :: outer, '}' => ⟨.after, outer⟩
    | false :: _, ',' => ⟨.value, stack⟩
    | false :: outer, ']' => ⟨.after, outer⟩
    | _, _ => ⟨.bad, stack⟩

/-- The first character of a value. -/
def valueStep (stack : List Bool) (c : Char) : Scanner :=
  match c with
  | '"' => ⟨.str false, stack⟩
  | '{' => ⟨.firstKey, true :: stack⟩
  | '[' => ⟨.firstItem, false :: stack⟩
  | '-' => ⟨.minus, stack⟩
  | '0' => ⟨.zero, stack⟩
  | 't' => ⟨.lit "rue".toList, stack⟩
  | 'f' => ⟨.lit "alse".toList, stack⟩
  | 'n' => ⟨.lit "ull".toList, stack⟩
  | 'N' => ⟨.lit "aN".toList, stack⟩
  | 'I' => ⟨.lit "nfinity".toList, stack⟩
  | c => if c.isDigit then ⟨.digits, stack⟩ else ⟨.bad, stack⟩

/-- What `json.loads` does with one more character. -/
def Scanner.step (scanner : Scanner) (c : Char) : Scanner :=
  let stack := scanner.stack
  match scanner.mode with
  | .value => if isJsonSpace c then ⟨.value, stack⟩ else valueStep stack c
  | .firstItem =>
    if isJsonSpace c then ⟨.firstItem, stack⟩
    else if c = ']' then ⟨.after, stack.tail⟩
    else valueStep stack c
  | .firstKey =>
    if isJsonSpace c then ⟨.firstKey, stack⟩
    else if c = '"' then ⟨.str true, stack⟩
    else if c = '}' then ⟨.after, stack.tail⟩
    else ⟨.bad, stack⟩
  | .key =>
    if isJsonSpace c then ⟨.key, stack⟩
    else if c = '"' then ⟨.str true, stack⟩
    else ⟨.bad, stack⟩
  | .colon =>
    if isJsonSpace c then ⟨.colon, stack⟩
    else if c = ':' then ⟨.value, stack⟩
    else ⟨.bad, stack⟩
  | .after => afterStep stack c
  | .str isKey =>
    if c = '"' then ⟨if isKey then .colon else .after, stack⟩
    else if c = '\\' then ⟨.escape isKey, stack⟩
    else if c.toNat < 32 then ⟨.bad, stack⟩
    else ⟨.str isKey, stack⟩
  | .escape isKey =>
    if c = 'u' then ⟨.hex isKey 4, stack⟩
    else if c ∈ "\"\\/bfnrt".toList then ⟨.str isKey, stack⟩
    else ⟨.bad, stack⟩
  | .hex isKey left =>
    if isJsonHex c then ⟨if left ≤ 1 then .str isKey else .hex isKey (left - 1), stack⟩
    else ⟨.bad, stack⟩
  | .minus =>
    if c = '0' then ⟨.zero, stack⟩
    else if c = 'I' then ⟨.lit "nfinity".toList, stack⟩
    else if c.isDigit then ⟨.digits, stack⟩
    else ⟨.bad, stack⟩
  | .zero =>
    if c = '.' then ⟨.point, stack⟩
    else if c = 'e' ∨ c = 'E' then ⟨.expMark, stack⟩
    else afterStep stack c
  | .digits =>
    if c.isDigit then ⟨.digits, stack⟩
    else if c = '.' then ⟨.point, stack⟩
    else if c = 'e' ∨ c = 'E' then ⟨.expMark, stack⟩
    else afterStep stack c
  | .point => if c.isDigit then ⟨.fraction, stack⟩ else ⟨.bad, stack⟩
  | .fraction =>
    if c.isDigit then ⟨.fraction, stack⟩
    else if c = 'e' ∨ c = 'E' then ⟨.expMark, stack⟩
    else afterStep stack c
  | .expMark =>
    if c = '+' ∨ c = '-' then ⟨.expSign, stack⟩
    else if c.isDigit then ⟨.expDigits, stack⟩
    else ⟨.bad, stack⟩
  | .expSign => if c.isDigit then ⟨.expDigits, stack⟩ else ⟨.bad, stack⟩
  | .expDigits => if c.isDigit then ⟨.expDigits, stack⟩ else afterStep stack c
  | .lit [] => ⟨.bad, stack⟩
  | .lit (d :: rest) =>
    if c = d then ⟨if rest = [] then .after else .lit rest, stack⟩ else ⟨.bad, stack⟩
  | .bad => ⟨.bad, stack⟩

def Scanner.run (scanner : Scanner) (text : List Char) : Scanner := text.foldl Scanner.step scanner

/-- `json.loads` returns a dict for the text. -/
def loadsDict (text : List Char) : Bool :=
  (text.dropWhile isJsonSpace).head? == some '{' &&
    decide (Scanner.run ⟨.value, []⟩ text = ⟨.after, []⟩)

@[simp]
theorem Scanner.run_nil (scanner : Scanner) : scanner.run [] = scanner := rfl

@[simp]
theorem Scanner.run_cons (scanner : Scanner) (c : Char) (text : List Char) :
    scanner.run (c :: text) = (scanner.step c).run text := rfl

@[simp]
theorem Scanner.run_append (scanner : Scanner) (xs ys : List Char) :
    scanner.run (xs ++ ys) = (scanner.run xs).run ys := List.foldl_append

/-- Nothing mends a text that went wrong. -/
theorem Scanner.run_bad (stack : List Bool) (text : List Char) :
    Scanner.run ⟨.bad, stack⟩ text = ⟨.bad, stack⟩ := by
  induction text with
  | nil => rfl
  | cons c rest ih => exact ih

/-- After a whole value only whitespace may follow. -/
theorem Scanner.run_after (text : List Char) :
    Scanner.run ⟨.after, []⟩ text =
      if text.all isJsonSpace then ⟨.after, []⟩ else ⟨.bad, []⟩ := by
  induction text with
  | nil => rfl
  | cons c rest ih =>
    by_cases hc : isJsonSpace c = true
    · have hstep : Scanner.step ⟨.after, []⟩ c = ⟨.after, []⟩ := by
        simp [Scanner.step, afterStep, hc]
      rw [Scanner.run_cons, hstep, ih]
      simp [hc]
    · have hstep : Scanner.step ⟨.after, []⟩ c = ⟨.bad, []⟩ := by
        simp [Scanner.step, afterStep, hc]
      rw [Scanner.run_cons, hstep, Scanner.run_bad]
      simp [hc]

/-- No text read as a dict begins another that ends in something else than whitespace. -/
theorem loadsDict_prefix {text more : List Char} (h : loadsDict text = true)
    (hdone : (Scanner.run ⟨.value, []⟩ (text ++ more)).mode ≠ .bad) :
    (∀ c ∈ more, isJsonSpace c = true) ∧
      Scanner.run ⟨.value, []⟩ (text ++ more) = ⟨.after, []⟩ := by
  unfold loadsDict at h
  rw [Bool.and_eq_true, decide_eq_true_eq] at h
  rw [Scanner.run_append, h.2, Scanner.run_after] at hdone ⊢
  by_cases hmore : more.all isJsonSpace = true
  · rw [if_pos hmore]
    exact ⟨List.all_eq_true.mp hmore, rfl⟩
  · rw [if_neg hmore] at hdone
    exact absurd rfl hdone

/-- The text of a number, which the scanner reads to its end wherever a value may stand. -/
structure NumberText where
  chars : List Char
  starts : ∃ c rest, chars = c :: rest ∧ isJsonSpace c = false ∧ c ≠ ']'
  scanned : ∀ stack, ∃ mode ∈ [Mode.after, .zero, .digits, .fraction, .expDigits],
    Scanner.run ⟨.value, stack⟩ chars = ⟨mode, stack⟩

/-- A value handed to `json.dump`; `foreign` is one it cannot serialize. -/
inductive Json
  | null
  | bool (b : Bool)
  | num (n : NumberText)
  | str (s : String)
  | arr (items : List Json)
  | obj (fields : List (String × Json))
  | foreign

def hexDigits4 (n : Nat) : List Char :=
  [Nat.digitChar (n / 4096 % 16), Nat.digitChar (n / 256 % 16), Nat.digitChar (n / 16 % 16),
    Nat.digitChar (n % 16)]

/-- A character of a string under `ensure_ascii`. -/
def escapeChar (c : Char) : List Char :=
  if c = '"' then ['\\', '"']
  else if c = '\\' then ['\\', '\\']
  else if c = '\n' then ['\\', 'n']
  else if c = '\r' then ['\\', 'r']
  else if c = '\t' then ['\\', 't']
  else if c.toNat = 12 then ['\\', 'f']
  else if c.toNat = 8 then ['\\', 'b']
  else if 32 ≤ c.toNat ∧ c.toNat ≤ 126 then [c]
  else if c.toNat < 65536 then '\\' :: 'u' :: hexDigits4 c.toNat
  else
    let v := c.toNat - 65536
    '\\' :: 'u' :: (hexDigits4 (55296 + v / 1024) ++ '\\' :: 'u' :: hexDigits4 (56320 + v % 1024))

def strText (s : String) : List Char := '"' :: (s.toList.flatMap escapeChar ++ ['"'])

/-- A new line at a nesting level of `indent=2`. -/
def newlineIndent (level : Nat) : List Char := '\n' :: List.replicate (2 * level) ' '

/-- What a serialization has written, and whether it came to its end. -/
structure Dumped where
  text : List Char
  done : Bool
deriving DecidableEq, Repr

def Dumped.write (text : List Char) : Dumped := ⟨text, true⟩

def Dumped.andThen (first second : Dumped) : Dumped :=
  if first.done then ⟨first.text ++ second.text, second.done⟩ else first

mutual

/-- `json.dump(value, f, indent=2)` at a nesting level. -/
def dump (level : Nat) : Json → Dumped
  | .null => .write "null".toList
  | .bool b => .write (if b then "true".toList else "false".toList)
  | .num n => .write n.chars
  | .str s => .write (strText s)
  | .arr [] => .write "[]".toList
  | .arr (v :: items) =>
    (Dumped.write ('[' :: newlineIndent (level + 1))).andThen
      ((dump (level + 1) v).andThen
        ((dumpItems (level + 1) items).andThen (.write (newlineIndent level ++ [']']))))
  | .obj [] => .write "{}".toList
  | .obj ((k, v) :: fields) =>
    (Dumped.write ('{' :: (newlineIndent (level + 1) ++ (strText k ++ [':', ' '])))).andThen
      ((dump (level + 1) v).andThen
        ((dumpFields (level + 1) fields).andThen (.write (newlineIndent level ++ ['}']))))
  | .foreign => ⟨[], false⟩

def dumpItems (level : Nat) : List Json → Dumped
  | [] => .write []
  | v :: items =>
    (Dumped.write (',' :: newlineIndent level)).andThen
      ((dump level v).andThen (dumpItems level items))

def dumpFields (level : Nat) : List (String × Json) → Dumped
  | [] => .write []
  | (k, v) :: fields =>
    (Dumped.write (',' :: (newlineIndent level ++ (strText k ++ [':', ' '])))).andThen
      ((dump level v).andThen (dumpFields level fields))

end

def endModes : List Mode := [.after, .zero, .digits, .fraction, .expDigits]

/-- A value was read to its end, inside these brackets. -/
def Settled (stack : List Bool) (scanner : Scanner) : Prop :=
  ∃ mode ∈ endModes, scanner = ⟨mode, stack⟩

/-- A value is still to come. -/
def Awaits (scanner : Scanner) : Prop := scanner.mode = .value ∨ scanner.mode = .firstItem

theorem step_endMode {mode : Mode} (h : mode ∈ endModes) (stack : List Bool) {c : Char}
    (hc : c = ',' ∨ c = '\n' ∨ c = ']' ∨ c = '}') :
    Scanner.step ⟨mode, stack⟩ c = afterStep stack c := by
  simp only [endModes, List.mem_cons, List.not_mem_nil, or_false] at h
  rcases hc with rfl | rfl | rfl | rfl <;> rcases h with rfl | rfl | rfl | rfl | rfl <;> rfl

theorem run_spaces {mode : Mode} (h : mode ∈ [Mode.value, .firstItem, .firstKey, .key, .after])
    (stack : List Bool) {text : List Char} (htext : ∀ c ∈ text, isJsonSpace c = true) :
    Scanner.run ⟨mode, stack⟩ text = ⟨mode, stack⟩ := by
  induction text with
  | nil => rfl
  | cons c rest ih =>
    have hc := htext c List.mem_cons_self
    have hstep : Scanner.step ⟨mode, stack⟩ c = ⟨mode, stack⟩ := by
      simp only [List.mem_cons, List.not_mem_nil, or_false] at h
      rcases h with rfl | rfl | rfl | rfl | rfl <;> simp [Scanner.step, afterStep, hc]
    rw [Scanner.run_cons, hstep]
    exact ih (fun d hd => htext d (List.mem_cons_of_mem _ hd))

theorem newlineIndent_spaces (level : Nat) : ∀ c ∈ newlineIndent level, isJsonSpace c = true := by
  intro c hc
  rcases List.mem_cons.mp hc with rfl | hc
  · rfl
  · rw [List.eq_of_mem_replicate hc]
    rfl

theorem digitChar_isJsonHex (n : Nat) : isJsonHex (Nat.digitChar (n % 16)) = true := by
  have hall : ∀ d < 16, isJsonHex (Nat.digitChar d) = true := by decide
  exact hall (n % 16) (Nat.mod_lt n (by omega))

theorem run_hexDigits4 (isKey : Bool) (stack : List Bool) (n : Nat) :
    Scanner.run ⟨.hex isKey 4, stack⟩ (hexDigits4 n) = ⟨.str isKey, stack⟩ := by
  simp [hexDigits4, Scanner.step, digitChar_isJsonHex]

theorem run_unicode (isKey : Bool) (stack : List Bool) (n : Nat) (more : List Char) :
    Scanner.run ⟨.str isKey, stack⟩ ('\\' :: 'u' :: (hexDigits4 n ++ more)) =
      Scanner.run ⟨.str isKey, stack⟩ more := by
  have hopen : ((Scanner.mk (.str isKey) stack).step '\\').step 'u' = ⟨.hex isKey 4, stack⟩ := rfl
  rw [Scanner.run_cons, Scanner.run_cons, hopen, Scanner.run_append, run_hexDigits4]

theorem run_escapeChar (isKey : Bool) (stack : List Bool) (c : Char) :
    Scanner.run ⟨.str isKey, stack⟩ (escapeChar c) = ⟨.str isKey, stack⟩ := by
  unfold escapeChar
  split
  next => simp [Scanner.step]
  split
  next => simp [Scanner.step]
  split
  next => simp [Scanner.step]
  split
  next => simp [Scanner.step]
  split
  next => simp [Scanner.step]
  split
  next => simp [Scanner.step]
  split
  next => simp [Scanner.step]
  split
  next hquote hback _ _ _ _ _ hplain =>
    have hlow : ¬ c.toNat < 32 := by omega
    simp [Scanner.step, hquote, hback, hlow]
  split
  next =>
    have hrun := run_unicode isKey stack c.toNat []
    rwa [List.append_nil] at hrun
  next =>
    have hlow := run_unicode isKey stack (56320 + (c.toNat - 65536) % 1024) []
    rw [List.append_nil] at hlow
    exact (run_unicode isKey stack _ _).trans hlow

theorem run_escaped (isKey : Bool) (stack : List Bool) (text : List Char) :
    Scanner.run ⟨.str isKey, stack⟩ (text.flatMap escapeChar) = ⟨.str isKey, stack⟩ := by
  induction text with
  | nil => rfl
  | cons c rest ih => rw [List.flatMap_cons, Scanner.run_append, run_escapeChar, ih]

theorem run_strText_value {scanner : Scanner} (h : Awaits scanner) (s : String) :
    scanner.run (strText s) = ⟨.after, scanner.stack⟩ := by
  obtain ⟨mode, stack⟩ := scanner
  have hopen : Scanner.step ⟨mode, stack⟩ '"' = ⟨.str false, stack⟩ := by
    rcases h with h | h <;> cases h <;> rfl
  rw [strText, Scanner.run_cons, hopen, Scanner.run_append, run_escaped]
  rfl

theorem run_strText_key {mode : Mode} (h : mode = .firstKey ∨ mode = .key) (stack : List Bool)
    (s : String) :
    Scanner.run ⟨mode, stack⟩ (strText s ++ [':', ' ']) = ⟨.value, stack⟩ := by
  have hopen : Scanner.step ⟨mode, stack⟩ '"' = ⟨.str true, stack⟩ := by
    rcases h with rfl | rfl <;> rfl
  rw [strText, List.cons_append, Scanner.run_cons, hopen, List.append_assoc, Scanner.run_append,
    run_escaped]
  rfl

/-- From a scanner, a dump that comes to its end leads to a good one; else a value is awaited. -/
def Reads (scanner : Scanner) (dumped : Dumped) (good : Scanner → Prop) : Prop :=
  if dumped.done then good (scanner.run dumped.text) else Awaits (scanner.run dumped.text)

theorem Reads.write {scanner : Scanner} {text : List Char} {good : Scanner → Prop}
    (h : good (scanner.run text)) : Reads scanner (.write text) good := h

theorem Reads.andThen {scanner : Scanner} {first second : Dumped} {mid good : Scanner → Prop}
    (hfirst : Reads scanner first mid) (hsecond : ∀ next, mid next → Reads next second good) :
    Reads scanner (first.andThen second) good := by
  unfold Dumped.andThen
  by_cases hdone : first.done = true
  · rw [if_pos hdone]
    rw [Reads, if_pos hdone] at hfirst
    have hnext := hsecond _ hfirst
    unfold Reads at hnext ⊢
    rw [Scanner.run_append]
    exact hnext
  · rw [if_neg hdone]
    rw [Reads, if_neg hdone] at hfirst
    rw [Reads, if_neg hdone]
    exact hfirst

theorem Reads.mono {scanner : Scanner} {dumped : Dumped} {good better : Scanner → Prop}
    (h : Reads scanner dumped good) (hmono : ∀ next, good next → better next) :
    Reads scanner dumped better := by
  unfold Reads at h ⊢
  split at h
  next hdone =>
    rw [if_pos hdone]
    exact hmono _ h
  next hdone =>
    rw [if_neg hdone]
    exact h

theorem settled_after (stack : List Bool) : Settled stack ⟨.after, stack⟩ :=
  ⟨.after, List.mem_cons_self, rfl⟩

theorem step_settled {stack : List Bool} {scanner : Scanner} (h : Settled stack scanner) {c : Char}
    (hc : c = ',' ∨ c = '\n' ∨ c = ']' ∨ c = '}') : scanner.step c = afterStep stack c := by
  obtain ⟨mode, hmode, rfl⟩ := h
  exact step_endMode hmode stack hc

theorem run_newlineIndent_settled {stack : List Bool} {scanner : Scanner}
    (h : Settled stack scanner) (level : Nat) :
    scanner.run (newlineIndent level) = ⟨.after, stack⟩ := by
  rw [newlineIndent, Scanner.run_cons, step_settled h (by simp)]
  refine run_spaces (by simp) stack ?_
  intro c hc
  rw [List.eq_of_mem_replicate hc]
  rfl

theorem run_number {scanner : Scanner} (h : Awaits scanner) (n : NumberText) :
    Settled scanner.stack (scanner.run n.chars) := by
  obtain ⟨mode, stack⟩ := scanner
  obtain ⟨c, rest, hchars, hspace, hclose⟩ := n.starts
  obtain ⟨last, hlast, hrun⟩ := n.scanned stack
  have hsame : Scanner.run ⟨mode, stack⟩ n.chars = Scanner.run ⟨.value, stack⟩ n.chars := by
    rcases h with h | h
    · cases h
      rfl
    · cases h
      rw [hchars, Scanner.run_cons, Scanner.run_cons]
      simp [Scanner.step, hspace, hclose]
  exact ⟨last, hlast, hsame.trans hrun⟩

mutual

theorem dump_reads (level : Nat) (stack : List Bool) : ∀ (v : Json) (scanner : Scanner),
    Awaits scanner → scanner.stack = stack → Reads scanner (dump level v) (Settled stack)
  | .null, ⟨mode, _⟩, h, rfl => by
    rcases h with h | h <;> cases h <;> exact Reads.write (settled_after _)
  | .bool b, ⟨mode, _⟩, h, rfl => by
    cases b <;> rcases h with h | h <;> cases h <;> exact Reads.write (settled_after _)
  | .num n, scanner, h, rfl => Reads.write (run_number h n)
  | .str s, scanner, h, rfl => by
    refine Reads.write ?_
    rw [run_strText_value h]
    exact settled_after _
  | .arr [], ⟨mode, _⟩, h, rfl => by
    rcases h with h | h <;> cases h <;> exact Reads.write (settled_after _)
  | .arr (v :: items), ⟨mode, stack⟩, h, rfl => by
    have hopen : Scanner.run ⟨mode, stack⟩ ('[' :: newlineIndent (level + 1)) =
        ⟨.firstItem, false :: stack⟩ := by
      have hbracket : Scanner.step ⟨mode, stack⟩ '[' = ⟨.firstItem, false :: stack⟩ := by
        rcases h with h | h <;> cases h <;> rfl
      rw [Scanner.run_cons, hbracket]
      exact run_spaces (by simp) _ (newlineIndent_spaces _)
    refine @Reads.andThen _ _ _ (fun next => next = ⟨.firstItem, false :: stack⟩) _
      (Reads.write hopen) ?_
    rintro next rfl
    refine Reads.andThen (dump_reads (level + 1) (false :: stack) v _ (Or.inr rfl) rfl) ?_
    intro next hnext
    refine Reads.andThen (dumpItems_reads (level + 1) stack items next hnext) ?_
    intro next hnext
    refine Reads.write ?_
    rw [Scanner.run_append, run_newlineIndent_settled hnext]
    exact settled_after stack
  | .obj fields, scanner, h, hstack =>
    (dumpObject_reads level stack fields scanner h hstack).mono
      (fun _ hnext => hnext ▸ settled_after stack)
  | .foreign, scanner, h, _ => h

theorem dumpObject_reads (level : Nat) (stack : List Bool) : ∀ (fields : List (String × Json))
    (scanner : Scanner), Awaits scanner → scanner.stack = stack →
      Reads scanner (dump level (.obj fields)) (fun next => next = ⟨.after, stack⟩)
  | [], ⟨mode, _⟩, h, rfl => by
    rcases h with h | h <;> cases h <;> exact Reads.write rfl
  | (k, v) :: fields, ⟨mode, stack⟩, h, rfl => by
    have hopen : Scanner.run ⟨mode, stack⟩
        ('{' :: (newlineIndent (level + 1) ++ (strText k ++ [':', ' ']))) =
        ⟨.value, true :: stack⟩ := by
      have hbracket : Scanner.step ⟨mode, stack⟩ '{' = ⟨.firstKey, true :: stack⟩ := by
        rcases h with h | h <;> cases h <;> rfl
      rw [Scanner.run_cons, hbracket, Scanner.run_append,
        run_spaces (by simp) _ (newlineIndent_spaces _)]
      exact run_strText_key (Or.inl rfl) _ k
    refine @Reads.andThen _ _ _ (fun next => next = ⟨.value, true :: stack⟩) _
      (Reads.write hopen) ?_
    rintro next rfl
    refine Reads.andThen (dump_reads (level + 1) (true :: stack) v _ (Or.inl rfl) rfl) ?_
    intro next hnext
    refine Reads.andThen (dumpFields_reads (level + 1) stack fields next hnext) ?_
    intro next hnext
    refine Reads.write ?_
    rw [Scanner.run_append, run_newlineIndent_settled hnext]
    rfl

theorem dumpItems_reads (level : Nat) (stack : List Bool) : ∀ (items : List Json)
    (scanner : Scanner), Settled (false :: stack) scanner →
      Reads scanner (dumpItems level items) (Settled (false :: stack))
  | [], scanner, h => Reads.write h
  | v :: items, scanner, h => by
    have hcomma : scanner.run (',' :: newlineIndent level) = ⟨.value, false :: stack⟩ := by
      rw [Scanner.run_cons, step_settled h (by simp)]
      exact run_spaces (by simp) _ (newlineIndent_spaces _)
    refine @Reads.andThen _ _ _ (fun next => next = ⟨.value, false :: stack⟩) _
      (Reads.write hcomma) ?_
    rintro next rfl
    refine Reads.andThen (dump_reads level (false :: stack) v _ (Or.inl rfl) rfl) ?_
    intro next hnext
    exact dumpItems_reads level stack items next hnext

theorem dumpFields_reads (level : Nat) (stack : List Bool) : ∀ (fields : List (String × Json))
    (scanner : Scanner), Settled (true :: stack) scanner →
      Reads scanner (dumpFields level fields) (Settled (true :: stack))
  | [], scanner, h => Reads.write h
  | (k, v) :: fields, scanner, h => by
    have hcomma : scanner.run (',' :: (newlineIndent level ++ (strText k ++ [':', ' ']))) =
        ⟨.value, true :: stack⟩ := by
      rw [Scanner.run_cons, step_settled h (by simp), Scanner.run_append]
      have hspaces := @run_spaces .key (by simp) (true :: stack) _
        (newlineIndent_spaces level)
      have hkey : afterStep (true :: stack) ',' = ⟨.key, true :: stack⟩ := rfl
      rw [hkey, hspaces]
      exact run_strText_key (Or.inr rfl) _ k
    refine @Reads.andThen _ _ _ (fun next => next = ⟨.value, true :: stack⟩) _
      (Reads.write hcomma) ?_
    rintro next rfl
    refine Reads.andThen (dump_reads level (true :: stack) v _ (Or.inl rfl) rfl) ?_
    intro next hnext
    exact dumpFields_reads level stack fields next hnext

end

theorem Dumped.andThen_done {first second : Dumped} (h : (first.andThen second).done = true) :
    first.done = true ∧ second.done = true ∧
      (first.andThen second).text = first.text ++ second.text := by
  unfold Dumped.andThen at h ⊢
  by_cases hfirst : first.done = true
  · rw [if_pos hfirst] at h ⊢
    exact ⟨hfirst, h, rfl⟩
  · rw [if_neg hfirst] at h
    exact absurd h hfirst

theorem Dumped.andThen_done_eq (first second : Dumped) :
    (first.andThen second).done = (first.done && second.done) := by
  unfold Dumped.andThen
  cases hfirst : first.done with
  | true => rfl
  | false => exact hfirst

mutual

/-- A value that `json.dump` can serialize: nothing in it is foreign. -/
def Json.serializable : Json → Bool
  | .null => true
  | .bool _ => true
  | .num _ => true
  | .str _ => true
  | .arr items => itemsSerializable items
  | .obj fields => fieldsSerializable fields
  | .foreign => false

def itemsSerializable : List Json → Bool
  | [] => true
  | v :: items => v.serializable && itemsSerializable items

def fieldsSerializable : List (String × Json) → Bool
  | [] => true
  | (_, v) :: fields => v.serializable && fieldsSerializable fields

end

mutual

/-- A dump comes to its end exactly when nothing in the value is foreign. -/
theorem dump_done (level : Nat) : ∀ v : Json, (dump level v).done = v.serializable
  | .null => rfl
  | .bool _ => rfl
  | .num _ => rfl
  | .str _ => rfl
  | .arr [] => rfl
  | .arr (v :: items) => by
    rw [dump, Dumped.andThen_done_eq, Dumped.andThen_done_eq, Dumped.andThen_done_eq,
      dump_done (level + 1) v, dumpItems_done (level + 1) items]
    simp [Dumped.write, Json.serializable, itemsSerializable]
  | .obj [] => rfl
  | .obj ((k, v) :: fields) => by
    rw [dump, Dumped.andThen_done_eq, Dumped.andThen_done_eq, Dumped.andThen_done_eq,
      dump_done (level + 1) v, dumpFields_done (level + 1) fields]
    simp [Dumped.write, Json.serializable, fieldsSerializable]
  | .foreign => rfl

theorem dumpItems_done (level : Nat) : ∀ items : List Json,
    (dumpItems level items).done = itemsSerializable items
  | [] => rfl
  | v :: items => by
    rw [dumpItems, Dumped.andThen_done_eq, Dumped.andThen_done_eq, dump_done level v,
      dumpItems_done level items]
    rfl

theorem dumpFields_done (level : Nat) : ∀ fields : List (String × Json),
    (dumpFields level fields).done = fieldsSerializable fields
  | [] => rfl
  | (k, v) :: fields => by
    rw [dumpFields, Dumped.andThen_done_eq, Dumped.andThen_done_eq, dump_done level v,
      dumpFields_done level fields]
    rfl

end

/-- An object that was dumped to its end ends in a brace. -/
theorem dumpObject_last {level : Nat} {fields : List (String × Json)}
    (h : (dump level (.obj fields)).done = true) :
    ['}'] <:+ (dump level (.obj fields)).text := by
  cases fields with
  | nil => exact ⟨['{'], rfl⟩
  | cons field fields =>
    obtain ⟨k, v⟩ := field
    rw [dump] at h ⊢
    obtain ⟨_, hvalue, htext⟩ := Dumped.andThen_done h
    obtain ⟨_, hrest, htext'⟩ := Dumped.andThen_done hvalue
    obtain ⟨_, _, htext''⟩ := Dumped.andThen_done hrest
    rw [htext, htext', htext'']
    have hbrace : ['}'] <:+ newlineIndent level ++ ['}'] := List.suffix_append _ _
    exact ((hbrace.trans (List.suffix_append _ _)).trans (List.suffix_append _ _)).trans
      (List.suffix_append _ _)

theorem dumpObject_first (level : Nat) (fields : List (String × Json)) :
    ∃ rest, (dump level (.obj fields)).text = '{' :: rest := by
  cases fields with
  | nil => exact ⟨['}'], rfl⟩
  | cons field fields => exact ⟨_, rfl⟩

/-- An object that was dumped to its end is read as a dict. -/
theorem loadsDict_dumpObject {fields : List (String × Json)}
    (h : (dump 0 (.obj fields)).done = true) : loadsDict (dump 0 (.obj fields)).text = true := by
  obtain ⟨rest, hrest⟩ := dumpObject_first 0 fields
  have hrun := dumpObject_reads 0 [] fields ⟨.value, []⟩ (Or.inl rfl) rfl
  rw [Reads, if_pos h] at hrun
  unfold loadsDict
  rw [hrun, hrest]
  rfl

/-- Of what a dump has written at any time only the whole object is read as a dict. -/
theorem loadsDict_of_prefix {fields : List (String × Json)} {text : List Char}
    (hwritten : text <+: (dump 0 (.obj fields)).text) (hloads : loadsDict text = true) :
    (dump 0 (.obj fields)).done = true ∧ text = (dump 0 (.obj fields)).text := by
  obtain ⟨more, hmore⟩ := hwritten
  have hrun := dumpObject_reads 0 [] fields ⟨.value, []⟩ (Or.inl rfl) rfl
  rw [Reads, ← hmore] at hrun
  by_cases hdone : (dump 0 (.obj fields)).done = true
  · rw [if_pos hdone] at hrun
    obtain ⟨hspaces, _⟩ := loadsDict_prefix hloads (by rw [hrun]; decide)
    obtain ⟨body, hbody⟩ := dumpObject_last hdone
    refine ⟨hdone, ?_⟩
    have hnil : more = [] := by
      by_contra hne
      have hlast : (text ++ more).getLast? = some '}' := by rw [hmore, ← hbody]; simp
      rw [List.getLast?_append_of_ne_nil _ hne] at hlast
      exact absurd (hspaces '}' (List.mem_of_getLast? hlast)) (by decide)
    rw [← hmore, hnil, List.append_nil]
  · rw [if_neg hdone] at hrun
    have hmode : (Scanner.run ⟨.value, []⟩ (text ++ more)).mode ≠ .bad := by
      rcases hrun with h | h <;> rw [h] <;> decide
    obtain ⟨_, hafter⟩ := loadsDict_prefix hloads hmode
    rw [hafter] at hrun
    rcases hrun with h | h <;> cases h

end NovaVe
