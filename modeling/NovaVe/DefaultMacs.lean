import Mathlib.Tactic.Ring
import NovaVe.NicIdentity
import NovaVe.Nodes

namespace NovaVe

/-- Hexadecimal digits in lower case, and the number that they spell. -/
def Spells (text : List Char) (n : Nat) : Prop :=
  ∃ digits : List Nat, (∀ d ∈ digits, d < 16) ∧ text = digits.map Nat.digitChar ∧
    digits.foldl (fun value d => 16 * value + d) 0 = n

theorem hexDigitValue_digitChar {d : Nat} (h : d < 16) : hexDigitValue d.digitChar = some d := by
  have hall : ∀ k < 16, hexDigitValue (Nat.digitChar k) = some k := by decide
  exact hall d h

theorem digitChar_plain {d : Nat} (h : d < 16) :
    isPySpace d.digitChar = false ∧ d.digitChar ≠ '_' ∧ d.digitChar ≠ '-' ∧ d.digitChar ≠ '+' ∧
      d.digitChar ≠ 'x' ∧ d.digitChar ≠ 'X' ∧ d.digitChar ≠ ':' := by
  have hall : ∀ k < 16, isPySpace (Nat.digitChar k) = false ∧ Nat.digitChar k ≠ '_' ∧
      Nat.digitChar k ≠ '-' ∧ Nat.digitChar k ≠ '+' ∧ Nat.digitChar k ≠ 'x' ∧
      Nat.digitChar k ≠ 'X' ∧ Nat.digitChar k ≠ ':' := by decide
  exact hall d h

theorem digitChar_ascii {d : Nat} (h : d < 16) : d.digitChar.toNat < 128 := by
  have hall : ∀ k < 16, (Nat.digitChar k).toNat < 128 := by decide
  exact hall d h

theorem foldl_hex_from (digits : List Nat) (v : Nat) :
    digits.foldl (fun value d => 16 * value + d) v =
      v * 16 ^ digits.length + digits.foldl (fun value d => 16 * value + d) 0 := by
  induction digits generalizing v with
  | nil => simp
  | cons d rest ih =>
    rw [List.foldl_cons, List.foldl_cons, ih, ih (16 * 0 + d), List.length_cons, Nat.pow_succ]
    ring

theorem Spells.append {a b : List Char} {m n : Nat} (h : Spells a m) (h' : Spells b n) :
    Spells (a ++ b) (m * 16 ^ b.length + n) := by
  obtain ⟨ds, hds, rfl, hm⟩ := h
  obtain ⟨es, hes, rfl, hn⟩ := h'
  refine ⟨ds ++ es, ?_, List.map_append.symm, ?_⟩
  · intro d hd
    rcases List.mem_append.mp hd with hd | hd
    · exact hds d hd
    · exact hes d hd
  · rw [List.foldl_append, hm, foldl_hex_from, hn, List.length_map]

theorem spells_zeros (k : Nat) : Spells (List.replicate k '0') 0 := by
  refine ⟨List.replicate k 0, ?_, ?_, ?_⟩
  · intro d hd
    rw [(List.mem_replicate.mp hd).2]
    decide
  · rw [List.map_replicate]
    rfl
  · induction k with
    | zero => rfl
    | succ k ih => exact ih

theorem spells_digit {d : Nat} (h : d < 16) : Spells [d.digitChar] d := by
  refine ⟨[d], ?_, rfl, ?_⟩
  · intro e he
    rw [List.mem_singleton.mp he]
    exact h
  · simp

theorem spells_toDigits (n : Nat) : Spells (Nat.toDigits 16 n) n := by
  induction n using Nat.strong_induction_on with
  | _ n ih =>
    by_cases hn : n < 16
    · rw [Nat.toDigits_of_lt_base hn]
      exact spells_digit hn
    · rw [Nat.toDigits_of_base_le (by decide) (by omega)]
      have hquot := ih (n / 16) (by omega)
      have hlast := spells_digit (show n % 16 < 16 by omega)
      have happ := hquot.append hlast
      have hvalue : n / 16 * 16 ^ [(n % 16).digitChar].length + n % 16 = n := by
        rw [List.length_singleton, Nat.pow_one]
        omega
      rw [hvalue] at happ
      exact happ

theorem hexPadded_natCast (width n : Nat) :
    hexPadded width n =
      List.replicate (width - (Nat.toDigits 16 n).length) '0' ++ Nat.toDigits 16 n := by
  have hsign : ¬ (n : Int) < 0 := by omega
  unfold hexPadded
  rw [if_neg hsign]
  simp

theorem spells_hexPadded (width n : Nat) : Spells (hexPadded width n) n := by
  rw [hexPadded_natCast]
  have happ := (spells_zeros (width - (Nat.toDigits 16 n).length)).append (spells_toDigits n)
  rw [Nat.zero_mul, Nat.zero_add] at happ
  exact happ

theorem Spells.not_mem {text : List Char} {n : Nat} (h : Spells text n) {c : Char}
    (hc : ∀ d < 16, Nat.digitChar d ≠ c) : c ∉ text := by
  obtain ⟨digits, hdigits, rfl, _⟩ := h
  intro hmem
  obtain ⟨d, hd, heq⟩ := List.mem_map.mp hmem
  exact hc d (hdigits d hd) heq

theorem hexDigitsValue_spells {text : List Char} {n : Nat} (h : Spells text n) (hne : text ≠ []) :
    hexDigitsValue text = some n := by
  have hscore : '_' ∉ text := h.not_mem (fun d hd => (digitChar_plain hd).2.1)
  obtain ⟨digits, hdigits, rfl, hn⟩ := h
  have hsplit := List.splitOn_eq_singleton hscore
  have hfold : ∀ (ds : List Nat) (v : Nat), (∀ d ∈ ds, d < 16) →
      (ds.map Nat.digitChar).foldl
        (fun value c => (value.bind (fun n => (hexDigitValue c).map (fun d => 16 * n + d)))) (some v) =
      some (ds.foldl (fun value d => 16 * value + d) v) := by
    intro ds
    induction ds with
    | nil =>
      intro v _
      rfl
    | cons d rest ih =>
      intro v hds
      rw [List.map_cons, List.foldl_cons, List.foldl_cons, Option.bind_some,
        hexDigitValue_digitChar (hds d List.mem_cons_self), Option.map_some]
      exact ih _ (fun e he => hds e (List.mem_cons_of_mem d he))
  unfold hexDigitsValue
  rw [hsplit]
  have hany : List.any [digits.map Nat.digitChar] List.isEmpty = false := by
    rw [List.any_cons, List.any_nil, Bool.or_false]
    cases hmap : digits.map Nat.digitChar with
    | nil => exact absurd hmap hne
    | cons c rest => rfl
  simp only [hany, Bool.false_eq_true, if_false, List.flatten_cons, List.flatten_nil, List.append_nil]
  rw [hfold digits 0 hdigits, hn]

/-- Reading back the digits gives the number. -/
theorem hexInt_spells {text : List Char} {n : Nat} (h : Spells text n) (hne : text ≠ []) :
    hexInt text = some (n : Int) := by
  have hvalue := hexDigitsValue_spells h hne
  have hplain : ∀ c ∈ text, c.toNat < 128 ∧ isPySpace c = false := by
    obtain ⟨digits, hdigits, rfl, _⟩ := h
    intro c hc
    obtain ⟨d, hd, rfl⟩ := List.mem_map.mp hc
    exact ⟨digitChar_ascii (hdigits d hd), (digitChar_plain (hdigits d hd)).1⟩
  have hminus : '-' ∉ text := h.not_mem (fun d hd => (digitChar_plain hd).2.2.1)
  have hplus : '+' ∉ text := h.not_mem (fun d hd => (digitChar_plain hd).2.2.2.1)
  have hx : 'x' ∉ text := h.not_mem (fun d hd => (digitChar_plain hd).2.2.2.2.1)
  have hX : 'X' ∉ text := h.not_mem (fun d hd => (digitChar_plain hd).2.2.2.2.2.1)
  have hmagnitude : hexMagnitude text = some n := by
    unfold hexMagnitude
    split
    next => simp at hx
    next => simp at hX
    next => simp at hx
    next => simp at hX
    next => exact hvalue
  unfold hexInt
  rw [intChars_plain hplain]
  split
  next => simp at hminus
  next => simp at hplus
  next =>
    rw [hmagnitude]
    rfl

theorem hexPadded_ne_nil (width n : Nat) : hexPadded width n ≠ [] := by
  rw [hexPadded_natCast]
  intro h
  exact Nat.toDigits_ne_nil (List.append_eq_nil_iff.mp h).2

theorem hexPadded_injective {width m n : Nat} (h : hexPadded width m = hexPadded width n) : m = n := by
  have hm := hexInt_spells (spells_hexPadded width m) (hexPadded_ne_nil width m)
  rw [h, hexInt_spells (spells_hexPadded width n) (hexPadded_ne_nil width n)] at hm
  have hcast := Option.some.inj hm
  omega

/-- The first twelve hexadecimal digits of a number, as a number; all of them when it has fewer. -/
def shownMac (n : Nat) : Nat := if n < 281474976710656 then n else shownMac (n / 16)
termination_by n

/-- The number whose digits the MAC of an interface is cut from. -/
def macSerial (nodeId index : Nat) : Nat :=
  (5242880 * 16 ^ (max 2 (Nat.toDigits 16 nodeId).length) + nodeId) * 65536 + index

/-- Six pairs of hexadecimal digits with colons between them. -/
def SixOctets (mac : String) : Prop :=
  ∃ octets : List (List Char), octets.length = 6 ∧ mac.toList = List.intercalate [':'] octets ∧
    ∀ octet ∈ octets, octet.length = 2 ∧ ∀ c ∈ octet, ∃ d < 16, c = Nat.digitChar d

theorem shownMac_of_lt {n : Nat} (h : n < 281474976710656) : shownMac n = n := by
  unfold shownMac
  rw [if_pos h]

theorem shownMac_div {n : Nat} (h : 281474976710656 ≤ n) : shownMac n = shownMac (n / 16) := by
  conv_lhs => unfold shownMac
  rw [if_neg (by omega)]

/-- The digits that are left over are the last ones. -/
theorem shownMac_of_range {n k : Nat} (hlow : 17592186044416 ≤ n / 16 ^ k)
    (hhigh : n / 16 ^ k < 281474976710656) : shownMac n = n / 16 ^ k := by
  induction k generalizing n with
  | zero =>
    rw [Nat.pow_zero, Nat.div_one] at hhigh ⊢
    exact shownMac_of_lt hhigh
  | succ k ih =>
    have hdiv : n / 16 ^ (k + 1) = n / 16 / 16 ^ k := by
      rw [Nat.div_div_eq_div_mul, Nat.pow_succ, Nat.mul_comm]
    rw [hdiv] at hlow hhigh ⊢
    have hle : n / 16 / 16 ^ k ≤ n / 16 := Nat.div_le_self _ _
    rw [shownMac_div (by omega)]
    exact ih hlow hhigh

/-- The twelve digits that make the pairs are those of the number that is shown. -/
theorem take_hexPadded (n : Nat) : (hexPadded 12 n).take 12 = hexPadded 12 (shownMac n : Nat) := by
  induction n using Nat.strong_induction_on with
  | _ n ih =>
    by_cases hn : n < 281474976710656
    · rw [shownMac_of_lt hn]
      apply List.take_of_length_le
      rw [hexPadded_natCast, List.length_append, List.length_replicate]
      have hle := (Nat.length_toDigits_le_iff (b := 16) (n := n) (k := 12) (by decide)
        (by decide)).mpr (by omega)
      omega
    · rw [shownMac_div (by omega), ← ih (n / 16) (by omega)]
      have hlong : ∀ m, 17592186044416 ≤ m → 12 ≤ (Nat.toDigits 16 m).length := by
        intro m hm
        by_contra hshort
        have hlt := (Nat.length_toDigits_le_iff (b := 16) (n := m) (k := 11) (by decide)
          (by decide)).mp (by omega)
        omega
      have hquot := hlong (n / 16) (by omega)
      rw [hexPadded_natCast, hexPadded_natCast,
        Nat.toDigits_of_base_le (b := 16) (n := n) (by decide) (by omega)]
      have hz : 12 - (Nat.toDigits 16 (n / 16)).length = 0 := by omega
      have hz' : 12 - (Nat.toDigits 16 (n / 16) ++ [(n % 16).digitChar]).length = 0 := by
        rw [List.length_append]
        omega
      rw [hz, hz', List.replicate_zero, List.nil_append, List.nil_append]
      exact List.take_append_of_le_length hquot

theorem length_hexPadded (width n : Nat) :
    (hexPadded width n).length = max width (Nat.toDigits 16 n).length := by
  rw [hexPadded_natCast, List.length_append, List.length_replicate]
  omega

theorem toList_firstMacForNode (n : Nat) :
    (firstMacForNode n).toList = List.intercalate [':']
      [['5', '0'], ['0', '0'], ['0', '0'], hexPadded 2 n, ['0', '0'], ['0', '0']] := by
  unfold firstMacForNode
  rw [String.toList_append, String.toList_append, String.toList_ofList, hexPadded_natCast,
    Int.toNat_natCast]
  simp [List.intercalate, List.intersperse]

theorem colon_not_mem_hexPadded (width n : Nat) : ':' ∉ hexPadded width n :=
  (spells_hexPadded width n).not_mem (fun _ hd => (digitChar_plain hd).2.2.2.2.2.2)

/-- The default MAC of an interface is cut from the digits of its number. -/
theorem macForIndex_default (n i : Nat) :
    macForIndex (some (firstMacForNode n)) i = some (macPairs (hexPadded 12 (macSerial n i : Nat))) := by
  have hne : firstMacForNode n ≠ "" := by
    intro h
    have hlist := congrArg String.toList h
    rw [toList_firstMacForNode] at hlist
    simp [List.intercalate, List.intersperse] at hlist
  have hcolon := colon_not_mem_hexPadded 2 n
  have hsplit : (firstMacForNode n).toList.splitOn ':' =
      [['5', '0'], ['0', '0'], ['0', '0'], hexPadded 2 n, ['0', '0'], ['0', '0']] := by
    rw [toList_firstMacForNode]
    refine List.splitOn_intercalate ':' ?_ (by simp)
    intro part hpart
    simp only [List.mem_cons, List.not_mem_nil, or_false] at hpart
    rcases hpart with h | h | h | h | h | h
    · rw [h]
      decide
    · rw [h]
      decide
    · rw [h]
      decide
    · rw [h]
      exact hcolon
    · rw [h]
      decide
    · rw [h]
      decide
  have hfive : hexInt ['5', '0'] = some 80 := by decide
  have hzero : hexInt ['0', '0'] = some 0 := by decide
  have hnode := hexInt_spells (spells_hexPadded 2 n) (hexPadded_ne_nil 2 n)
  have hparts : [['5', '0'], ['0', '0'], ['0', '0'], hexPadded 2 n, ['0', '0'], ['0', '0']].mapM
      hexInt = some [80, 0, 0, (n : Int), 0, 0] := by
    simp only [List.mapM_cons, List.mapM_nil, hfive, hzero, hnode]
    rfl
  have hspells : Spells ([80, 0, 0, (n : Int), 0, 0].flatMap (hexPadded 2))
      ((5242880 * 16 ^ (max 2 (Nat.toDigits 16 n).length) + n) * 65536) := by
    have hhead := spells_hexPadded 2 80
    have hblank := spells_hexPadded 2 0
    have hlong : (hexPadded 2 (0 : Nat)).length = 2 := by decide
    have hall := ((((hhead.append hblank).append hblank).append (spells_hexPadded 2 n)).append
      hblank).append hblank
    rw [length_hexPadded 2 n, hlong] at hall
    have hvalue : ((((80 * 16 ^ 2 + 0) * 16 ^ 2 + 0) * 16 ^ max 2 (Nat.toDigits 16 n).length + n) *
        16 ^ 2 + 0) * 16 ^ 2 + 0 = (5242880 * 16 ^ (max 2 (Nat.toDigits 16 n).length) + n) * 65536 := by
      ring
    rw [hvalue] at hall
    simpa [List.flatMap_cons] using hall
  have hread := hexInt_spells hspells (by
    rw [List.flatMap_cons]
    intro hnil
    exact hexPadded_ne_nil 2 80 (List.append_eq_nil_iff.mp hnil).1)
  unfold macForIndex
  rw [Option.getD_some, if_neg hne, hsplit, hparts]
  show ((hexInt ([80, 0, 0, (n : Int), 0, 0].flatMap (hexPadded 2))).bind fun value =>
    some (macPairs (hexPadded 12 (value + i)))) = _
  rw [hread, Option.bind_some]
  congr 3

theorem pairs_flatten (digits : List Char) :
    ((List.range 6).map (fun i => (digits.drop (2 * i)).take 2)).flatten = digits.take 12 := by
  have hsplit : ∀ a b : Nat, digits.take (a + b) = digits.take a ++ (digits.drop a).take b :=
    fun a b => List.take_add
  rw [hsplit 10 2, hsplit 8 2, hsplit 6 2, hsplit 4 2, hsplit 2 2]
  simp [List.range, List.range.loop]

theorem macPairs_take (digits : List Char) : macPairs (digits.take 12) = macPairs digits := by
  unfold macPairs
  congr 2
  apply List.map_congr_left
  intro i hi
  have hlt := List.mem_range.mp hi
  rw [List.drop_take, List.take_take]
  congr 1
  omega

theorem macPairs_injective {a b : List Char} (ha : ':' ∉ a) (hb : ':' ∉ b)
    (h : macPairs a = macPairs b) : a.take 12 = b.take 12 := by
  have hlist : List.intercalate [':'] ((List.range 6).map (fun i => (a.drop (2 * i)).take 2)) =
      List.intercalate [':'] ((List.range 6).map (fun i => (b.drop (2 * i)).take 2)) := by
    have hmac := congrArg String.toList h
    unfold macPairs at hmac
    rw [String.toList_ofList, String.toList_ofList] at hmac
    exact hmac
  have hclean : ∀ {digits : List Char}, ':' ∉ digits →
      ∀ part ∈ (List.range 6).map (fun i => (digits.drop (2 * i)).take 2), ':' ∉ part := by
    intro digits hdigits part hpart hmem
    obtain ⟨i, _, rfl⟩ := List.mem_map.mp hpart
    exact hdigits (List.mem_of_mem_drop (List.mem_of_mem_take hmem))
  have hsplit := congrArg (List.splitOn ':') hlist
  rw [List.splitOn_intercalate ':' (hclean ha) (by simp),
    List.splitOn_intercalate ':' (hclean hb) (by simp)] at hsplit
  rw [← pairs_flatten a, ← pairs_flatten b, hsplit]

/-- Two default MACs are the same just when the same twelve digits are shown. -/
theorem default_mac_eq_iff (n i m j : Nat) :
    macForIndex (some (firstMacForNode n)) i = macForIndex (some (firstMacForNode m)) j ↔
      shownMac (macSerial n i) = shownMac (macSerial m j) := by
  rw [macForIndex_default, macForIndex_default]
  constructor
  · intro h
    have htake := macPairs_injective (colon_not_mem_hexPadded 12 _) (colon_not_mem_hexPadded 12 _)
      (Option.some.inj h)
    rw [take_hexPadded, take_hexPadded] at htake
    exact hexPadded_injective htake
  · intro h
    rw [← macPairs_take (hexPadded 12 (macSerial n i : Nat)),
      ← macPairs_take (hexPadded 12 (macSerial m j : Nat)), take_hexPadded, take_hexPadded, h]

/-- A default MAC is well formed. -/
theorem default_mac_sixOctets (n i : Nat) :
    ∃ mac, macForIndex (some (firstMacForNode n)) i = some mac ∧ SixOctets mac := by
  refine ⟨_, macForIndex_default n i, (List.range 6).map
    (fun k => ((hexPadded 12 (macSerial n i : Nat)).drop (2 * k)).take 2), by simp, ?_, ?_⟩
  · unfold macPairs
    exact String.toList_ofList
  · intro octet hoctet
    obtain ⟨k, hk, rfl⟩ := List.mem_map.mp hoctet
    have hlt := List.mem_range.mp hk
    refine ⟨?_, ?_⟩
    · rw [List.length_take, List.length_drop, length_hexPadded]
      omega
    · intro c hc
      have hmem := List.mem_of_mem_drop (List.mem_of_mem_take hc)
      obtain ⟨digits, hdigits, heq, _⟩ := spells_hexPadded 12 (macSerial n i)
      rw [heq] at hmem
      obtain ⟨d, hd, rfl⟩ := List.mem_map.mp hmem
      exact ⟨d, hdigits d hd, rfl⟩

end NovaVe
