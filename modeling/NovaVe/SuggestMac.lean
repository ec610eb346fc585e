import NovaVe.DefaultMacs
import NovaVe.LabPaths
import NovaVe.MacRegistry
import NovaVe.NamingRuns
import Mathlib.Data.Int.Bitwise

namespace NovaVe

/-- `str.lower`; `other` is what it does to a text that is not all ASCII. -/
def pyLower (other : String → String) (text : String) : String :=
  if text.toList.all (fun c => decide (c.toNat < 128)) then asciiLower text else other text

/-- The address whose last three octets are the low 24 bits of the candidate. -/
def tailMac (candidate : Int) : String :=
  "50:00:00:" ++ String.ofList (hexPadded 2 (candidate / 65536 % 256)) ++ ":" ++
    String.ofList (hexPadded 2 (candidate / 256 % 256)) ++ ":" ++
    String.ofList (hexPadded 2 (candidate % 256))

/-- Where `suggest_mac` starts. -/
def baseTail (lower : String → String) (baseMac : Option String) : Int :=
  match baseMac with
  | none => 0
  | some base =>
    if base = "" then 0
    else
      let tail := (normalizeMac lower base).toList.splitOn ':'
      if 6 ≤ tail.length then
        ((hexInt (tail.getD 3 [])).bind fun a => (hexInt (tail.getD 4 [])).bind fun b =>
          (hexInt (tail.getD 5 [])).map fun c => Int.lor (Int.lor (a * 65536) (b * 256)) c).getD 0
      else 0

def suggestLoop (entries : MacEntries) (networkId : Int) : Nat → Int → String
  | 0, _ => "50:00:00:00:00:00"
  | steps + 1, candidate =>
    if (entries (networkId, tailMac candidate)).isNone then tailMac candidate
    else suggestLoop entries networkId steps ((candidate + 1) % 16777216)

def suggestMac (lower : String → String) (entries : MacEntries) (networkId : Int)
    (baseMac : Option String) : String :=
  suggestLoop entries networkId 0x1000000 (baseTail lower baseMac)

/-- The fourth to sixth part of the base are hexadecimal numbers. -/
def ReadsTail (lower : String → String) (baseMac : Option String) (a b c : Int) : Prop :=
  ∃ base first second third four five six rest, baseMac = some base ∧
    base ≠ "" ∧ (normalizeMac lower base).toList =
      List.intercalate [':'] (first :: second :: third :: four :: five :: six :: rest) ∧
    (∀ part ∈ first :: second :: third :: four :: five :: six :: rest, ':' ∉ part) ∧
    hexInt four = some a ∧ hexInt five = some b ∧ hexInt six = some c

/-- The tail of a base: the number that its last three octets are, and 0 where they are none. -/
structure TailOf (lower : String → String) (baseMac : Option String) (start : Int) : Prop where
  joined : ∀ a b c, ReadsTail lower baseMac a b c →
    start = Int.lor (Int.lor (a * 65536) (b * 256)) c
  octets : ∀ a b c : Nat, b < 256 → c < 256 → ReadsTail lower baseMac a b c →
    start = ((a * 65536 + b * 256 + c : Nat) : Int)
  none : (∀ a b c, ¬ ReadsTail lower baseMac a b c) → start = 0

/-- The address is free on the network and the first such one from the start on. -/
structure FreshMac (lower : String → String) (entries : MacEntries) (networkId start : Int)
    (mac : String) : Prop where
  octets : SixOctets mac
  vendor : ∃ tail, mac = "50:00:00:" ++ tail
  free : ∀ ownerKey, checkCollision lower entries networkId (some mac) ownerKey = none
  first : ∃ d < 16777216, mac = tailMac ((start + (d : Nat)) % 16777216) ∧
    entries (networkId, mac) = none ∧
      ∀ e < d, entries (networkId, tailMac ((start + (e : Nat)) % 16777216)) ≠ none

theorem tailMac_emod (candidate : Int) : tailMac (candidate % 16777216) = tailMac candidate := by
  have hfour : candidate % 16777216 / 65536 % 256 = candidate / 65536 % 256 := by omega
  have hfive : candidate % 16777216 / 256 % 256 = candidate / 256 % 256 := by omega
  have hsix : candidate % 16777216 % 256 = candidate % 256 := by omega
  unfold tailMac
  rw [hfour, hfive, hsix]

/-- A byte is written with two digits. -/
theorem length_hexPadded_byte {n : Nat} (h : n < 256) : (hexPadded 2 n).length = 2 := by
  have hle := (Nat.length_toDigits_le_iff (b := 16) (n := n) (k := 2) (by decide)
    (by decide)).mpr (by omega)
  rw [length_hexPadded]
  omega

theorem toList_tailMac (candidate : Int) :
    ∃ a < 256, ∃ b < 256, ∃ c < 256,
      candidate % 16777216 = ((a * 65536 + b * 256 + c : Nat) : Int) ∧
        (tailMac candidate).toList = List.intercalate [':']
          [['5', '0'], ['0', '0'], ['0', '0'], hexPadded 2 (a : Nat), hexPadded 2 (b : Nat),
            hexPadded 2 (c : Nat)] := by
  refine ⟨(candidate / 65536 % 256).toNat, by omega, (candidate / 256 % 256).toNat, by omega,
    (candidate % 256).toNat, by omega, by omega, ?_⟩
  have hfour : ((candidate / 65536 % 256).toNat : Int) = candidate / 65536 % 256 := by omega
  have hfive : ((candidate / 256 % 256).toNat : Int) = candidate / 256 % 256 := by omega
  have hsix : ((candidate % 256).toNat : Int) = candidate % 256 := by omega
  rw [hfour, hfive, hsix]
  unfold tailMac
  simp [List.intercalate, List.intersperse]

theorem tailMac_vendor (candidate : Int) : ∃ tail, tailMac candidate = "50:00:00:" ++ tail := by
  refine ⟨String.ofList (hexPadded 2 (candidate / 65536 % 256)) ++ (":" ++
    (String.ofList (hexPadded 2 (candidate / 256 % 256)) ++ (":" ++
      String.ofList (hexPadded 2 (candidate % 256))))), ?_⟩
  unfold tailMac
  rw [String.append_assoc, String.append_assoc, String.append_assoc, String.append_assoc]

theorem sixOctets_tailMac (candidate : Int) : SixOctets (tailMac candidate) := by
  obtain ⟨a, ha, b, hb, c, hc, _, hlist⟩ := toList_tailMac candidate
  have hdigits : ∀ {n : Nat}, n < 256 → (hexPadded 2 (n : Nat)).length = 2 ∧
      ∀ ch ∈ hexPadded 2 (n : Nat), ∃ d < 16, ch = Nat.digitChar d := by
    intro n hn
    refine ⟨length_hexPadded_byte hn, ?_⟩
    intro ch hch
    obtain ⟨digits, hlt, htext, _⟩ := spells_hexPadded 2 n
    rw [htext] at hch
    obtain ⟨d, hd, rfl⟩ := List.mem_map.mp hch
    exact ⟨d, hlt d hd, rfl⟩
  refine ⟨_, rfl, hlist, ?_⟩
  intro octet hoctet
  simp only [List.mem_cons, List.not_mem_nil, or_false] at hoctet
  rcases hoctet with rfl | rfl | rfl | rfl | rfl | rfl
  · exact hdigits (n := 80) (by omega)
  · exact hdigits (n := 0) (by omega)
  · exact hdigits (n := 0) (by omega)
  · exact hdigits ha
  · exact hdigits hb
  · exact hdigits hc

/-- Every character of six octets is a colon or a digit. -/
theorem SixOctets.mem {mac : String} (h : SixOctets mac) {c : Char} (hc : c ∈ mac.toList) :
    c = ':' ∨ ∃ d < 16, c = Nat.digitChar d := by
  obtain ⟨octets, hlength, hlist, hdigits⟩ := h
  rw [hlist] at hc
  obtain ⟨part, hpart, hmem⟩ := List.mem_flatten.mp hc
  have hcases : part = [':'] ∨ part ∈ octets := by
    clear hlength hlist hdigits hc hmem
    induction octets with
    | nil => exact absurd hpart (by simp)
    | cons first rest ih =>
      cases rest with
      | nil => exact Or.inr (by simpa using hpart)
      | cons second more =>
        rw [List.intersperse_cons_cons, List.mem_cons, List.mem_cons] at hpart
        rcases hpart with rfl | rfl | hpart
        · exact Or.inr List.mem_cons_self
        · exact Or.inl rfl
        · rcases ih hpart with hcolon | hin
          · exact Or.inl hcolon
          · exact Or.inr (List.mem_cons_of_mem _ hin)
  rcases hcases with rfl | hin
  · exact Or.inl (List.mem_singleton.mp hmem)
  · exact Or.inr ((hdigits part hin).2 c hmem)

/-- An address that is written so is registered under the same text. -/
theorem SixOctets.normalizeMac_eq {mac : String} (h : SixOctets mac) (other : String → String) :
    normalizeMac (pyLower other) mac = mac := by
  have hplain : ∀ c ∈ mac.toList, isPySpace c = false ∧ c.toNat < 128 ∧ c.toLower = c := by
    intro c hc
    have hall : ∀ d < 16, isPySpace (Nat.digitChar d) = false ∧ (Nat.digitChar d).toNat < 128 ∧
        (Nat.digitChar d).toLower = Nat.digitChar d := by decide
    rcases h.mem hc with rfl | ⟨d, hd, rfl⟩
    · decide
    · exact hall d hd
  have hascii : mac.toList.all (fun c => decide (c.toNat < 128)) = true := by
    rw [List.all_eq_true]
    intro c hc
    exact decide_eq_true (hplain c hc).2.1
  have hlower : mac.toList.map Char.toLower = mac.toList := by
    conv_rhs => rw [← List.map_id mac.toList]
    exact List.map_congr_left fun c hc => (hplain c hc).2.2
  unfold normalizeMac pyLower asciiLower
  rw [pyStrip_eq_self fun c hc => (hplain c hc).1, if_pos hascii, hlower, String.ofList_toList]

/-- The octets of a tail do not overlap. -/
theorem lor_octets (a : Nat) {b c : Nat} (hb : b < 256) (hc : c < 256) :
    Int.lor (Int.lor ((a : Int) * 65536) ((b : Int) * 256)) (c : Int) =
      ((a * 65536 + b * 256 + c : Nat) : Int) := by
  have hlow : a * 256 ||| b = a * 256 + b := by
    have h := Nat.shiftLeft_add_eq_or_of_lt (i := 8) (b := b) (by omega) a
    rw [Nat.shiftLeft_eq] at h
    exact h.symm
  have hhigh : (a * 256 + b) * 256 ||| c = (a * 256 + b) * 256 + c := by
    have h := Nat.shiftLeft_add_eq_or_of_lt (i := 8) (b := c) (by omega) (a * 256 + b)
    rw [Nat.shiftLeft_eq] at h
    exact h.symm
  have hpair : a * 65536 ||| b * 256 = (a * 256 + b) * 256 := by
    have hup : a * 65536 = (a * 256) <<< 8 := by
      rw [Nat.shiftLeft_eq]
      omega
    have hright : b * 256 = b <<< 8 := (Nat.shiftLeft_eq b 8).symm
    rw [hup, hright, ← Nat.shiftLeft_or_distrib, hlow, Nat.shiftLeft_eq]
  have hcast : ∀ m n : Nat, Int.lor (m : Int) (n : Int) = ((m ||| n : Nat) : Int) :=
    fun m n => rfl
  have hfour : (a : Int) * 65536 = ((a * 65536 : Nat) : Int) := by omega
  have hfive : (b : Int) * 256 = ((b * 256 : Nat) : Int) := by omega
  rw [hfour, hfive, hcast, hcast, hpair, hhigh]
  omega

theorem baseTail_reads {lower : String → String} {baseMac : Option String} {a b c : Int}
    (h : ReadsTail lower baseMac a b c) :
    baseTail lower baseMac = Int.lor (Int.lor (a * 65536) (b * 256)) c := by
  obtain ⟨base, first, second, third, four, five, six, rest, rfl, hne, hlist, hparts, ha, hb, hc⟩ :=
    h
  have hsplit := List.splitOn_intercalate ':' hparts (List.cons_ne_nil _ _)
  unfold baseTail
  dsimp only
  rw [if_neg hne, hlist, hsplit, if_pos (by simp)]
  simp [ha, hb, hc]

theorem baseTail_silent {lower : String → String} {baseMac : Option String}
    (h : ∀ a b c, ¬ ReadsTail lower baseMac a b c) : baseTail lower baseMac = 0 := by
  unfold baseTail
  split
  next => rfl
  next base =>
    split
    next => rfl
    next hne =>
      dsimp only
      split
      next hlong =>
        -- with six parts that are numbers the base would read
        generalize hparts : (normalizeMac lower base).toList.splitOn ':' = parts at hlong ⊢
        have hnone : ∀ a b c, ¬ (hexInt (parts.getD 3 []) = some a ∧
            hexInt (parts.getD 4 []) = some b ∧ hexInt (parts.getD 5 []) = some c) := by
          rintro a b c ⟨ha, hb, hc⟩
          rcases parts with _ | ⟨first, _ | ⟨second, _ | ⟨third, _ | ⟨four, _ | ⟨five, _ |
            ⟨six, rest⟩⟩⟩⟩⟩⟩
          case cons.cons.cons.cons.cons.cons =>
            refine h a b c ⟨base, first, second, third, four, five, six, rest, rfl, hne, ?_, ?_,
              ha, hb, hc⟩
            · rw [← hparts, List.intercalate_splitOn]
            · exact fun part hpart => not_mem_of_mem_splitOn (hparts ▸ hpart)
          all_goals simp at hlong
        cases ha : hexInt (parts.getD 3 []) with
        | none => rfl
        | some a =>
          cases hb : hexInt (parts.getD 4 []) with
          | none => rfl
          | some b =>
            cases hc : hexInt (parts.getD 5 []) with
            | none => rfl
            | some c => exact absurd ⟨ha, hb, hc⟩ (hnone a b c)
      next => rfl

theorem baseTail_tailOf (lower : String → String) (baseMac : Option String) :
    TailOf lower baseMac (baseTail lower baseMac) where
  joined _ _ _ h := baseTail_reads h
  octets a _ _ hb hc h := (baseTail_reads h).trans (lor_octets a hb hc)
  none h := baseTail_silent h

theorem suggestLoop_first {entries : MacEntries} {networkId : Int} {steps : Nat} {candidate : Int}
    (h : ∃ d < steps, entries (networkId, tailMac (candidate + (d : Nat))) = none) :
    ∃ d < steps, suggestLoop entries networkId steps candidate = tailMac (candidate + (d : Nat)) ∧
      entries (networkId, tailMac (candidate + (d : Nat))) = none ∧
        ∀ e < d, entries (networkId, tailMac (candidate + (e : Nat))) ≠ none := by
  induction steps generalizing candidate with
  | zero =>
    obtain ⟨d, hd, _⟩ := h
    omega
  | succ steps ih =>
    by_cases hfree : entries (networkId, tailMac candidate) = none
    · refine ⟨0, by omega, ?_, ?_, ?_⟩
      · unfold suggestLoop
        rw [hfree, Int.natCast_zero, Int.add_zero]
        rfl
      · rw [Int.natCast_zero, Int.add_zero]
        exact hfree
      · intro e he
        omega
    · -- the candidates from here on are the same up to whole turns
      have hturn : ∀ k : Nat, tailMac ((candidate + 1) % 16777216 + (k : Nat)) =
          tailMac (candidate + ((k + 1 : Nat) : Int)) := by
        intro k
        rw [← tailMac_emod, ← tailMac_emod (candidate + ((k + 1 : Nat) : Int))]
        congr 1
        omega
      obtain ⟨d, hd, hnone⟩ := h
      have hpos : d ≠ 0 := by
        intro hzero
        subst hzero
        rw [Int.natCast_zero, Int.add_zero] at hnone
        exact hfree hnone
      have hback : d - 1 + 1 = d := by omega
      have hnext : ∃ k < steps,
          entries (networkId, tailMac ((candidate + 1) % 16777216 + (k : Nat))) = none := by
        refine ⟨d - 1, by omega, ?_⟩
        rw [hturn, hback]
        exact hnone
      obtain ⟨k, hk, hloop, hfirst, hbefore⟩ := ih hnext
      refine ⟨k + 1, by omega, ?_, ?_, ?_⟩
      · unfold suggestLoop
        rw [if_neg (by simpa using hfree), hloop, hturn]
      · rw [← hturn]
        exact hfirst
      · intro e he
        by_cases hzero : e = 0
        · subst hzero
          rw [Int.natCast_zero, Int.add_zero]
          exact hfree
        · have hprev : e - 1 + 1 = e := by omega
          have hbusy := hbefore (e - 1) (by omega)
          rw [hturn, hprev] at hbusy
          exact hbusy

/-- The suggestion is the first free address from the tail of the base on. -/
theorem suggest_mac_fresh (other : String → String) (entries : MacEntries) (networkId : Int)
    (baseMac : Option String)
    (hfree : ∃ k < 16777216, entries (networkId, tailMac (k : Nat)) = none) :
    ∃ start, TailOf (pyLower other) baseMac start ∧
      FreshMac (pyLower other) entries networkId start
        (suggestMac (pyLower other) entries networkId baseMac) := by
  refine ⟨baseTail (pyLower other) baseMac, baseTail_tailOf _ _, ?_⟩
  generalize hstart : baseTail (pyLower other) baseMac = start
  obtain ⟨k, hk, hnone⟩ := hfree
  have hreach : ∃ d < 0x1000000, entries (networkId, tailMac (start + (d : Nat))) = none := by
    refine ⟨((k - start) % 16777216).toNat, by omega, ?_⟩
    rw [← tailMac_emod]
    have hsame : (start + (((k - start) % 16777216).toNat : Nat)) % 16777216 = (k : Int) := by omega
    rw [hsame]
    exact hnone
  obtain ⟨d, hd, hloop, hempty, hbefore⟩ := suggestLoop_first hreach
  unfold suggestMac
  rw [hstart, hloop]
  refine ⟨sixOctets_tailMac _, tailMac_vendor _, ?_, ?_⟩
  · intro ownerKey
    have hsix := sixOctets_tailMac (start + (d : Nat))
    unfold checkCollision
    dsimp only
    rw [hsix.normalizeMac_eq, hempty]
    split
    · rfl
    · rfl
  · refine ⟨d, hd, ?_, hempty, ?_⟩
    · rw [tailMac_emod]
    · intro e he
      rw [tailMac_emod]
      exact hbefore e he

/-- A registry that holds the last address of the range. -/
def lastTaken : MacEntries := fun key =>
  if key = (4, "50:00:00:ff:ff:ff") then some ⟨"lab", 1, 0⟩ else none

/-- From the last address on the search goes on with the first. -/
theorem suggest_mac_fresh_wraps :
    suggestMac (pyLower id) lastTaken 4 (some "50:00:00:FF:FF:FF") = "50:00:00:00:00:00" ∧
    ∃ start, TailOf (pyLower id) (some "50:00:00:FF:FF:FF") start ∧
      FreshMac (pyLower id) lastTaken 4 start
        (suggestMac (pyLower id) lastTaken 4 (some "50:00:00:FF:FF:FF")) :=
  ⟨by rfl, suggest_mac_fresh id lastTaken 4 (some "50:00:00:FF:FF:FF")
    ⟨0, by decide, by decide⟩⟩

end NovaVe
