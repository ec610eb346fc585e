import Mathlib.Data.Fin.Basic
import NovaVe.Ipv4

namespace NovaVe

/-- `str(n)` of an integer. -/
def intText (n : Int) : List Char :=
  if n < 0 then '-' :: Nat.toDigits 10 n.natAbs else Nat.toDigits 10 n.natAbs

theorem decimalDigits_toDigits (n : Nat) : decimalDigits (Nat.toDigits 10 n) = some n := by
  have hsplit : (Nat.toDigits 10 n).splitOn '_' = [Nat.toDigits 10 n] :=
    List.splitOn_eq_singleton (not_mem_toDigits (by decide))
  have hdigits : (Nat.toDigits 10 n).all Char.isDigit = true := by
    apply List.all_eq_true.mpr
    intro c hc
    exact Nat.isDigit_of_mem_toDigits (by decide) (by decide) hc
  have hnil : (Nat.toDigits 10 n).isEmpty = false := by
    apply eq_false_of_ne_true
    intro h
    exact Nat.toDigits_ne_nil (List.isEmpty_iff.mp h)
  unfold decimalDigits
  rw [hsplit]
  simp [hdigits, hnil, Nat.ofDigitChars_ten_toDigits]

/-- Digits alone have no sign. -/
theorem intOfChars_digits {digits : List Char} (h : ∀ c ∈ digits, c.isDigit = true) :
    intOfChars digits = (decimalDigits digits).map (fun (n : Nat) => (n : Int)) := by
  unfold intOfChars
  rw [intChars_plain fun c hc => ⟨ascii_digit (h c hc), isPySpace_digit (h c hc)⟩]
  split
  next => exact absurd (h '-' List.mem_cons_self) (by decide)
  next => exact absurd (h '+' List.mem_cons_self) (by decide)
  next => rfl

theorem intOfChars_toDigits (n : Nat) : intOfChars (Nat.toDigits 10 n) = some (n : Int) := by
  have hdigits : ∀ c ∈ Nat.toDigits 10 n, c.isDigit = true := by
    intro c hc
    exact Nat.isDigit_of_mem_toDigits (by decide) (by decide) hc
  rw [intOfChars_digits hdigits, decimalDigits_toDigits]
  rfl

/-- Reading an integer's text gives the integer. -/
theorem intOfChars_intText (n : Int) : intOfChars (intText n) = some n := by
  unfold intText
  split
  next hneg =>
    have hplain : ∀ c ∈ '-' :: Nat.toDigits 10 n.natAbs,
        c.toNat < 128 ∧ isPySpace c = false := by
      intro c hc
      rcases List.mem_cons.mp hc with rfl | hmem
      · decide
      · have hdigit := Nat.isDigit_of_mem_toDigits (by decide) (by decide) hmem
        exact ⟨ascii_digit hdigit, isPySpace_digit hdigit⟩
    unfold intOfChars
    rw [intChars_plain hplain]
    simp only [decimalDigits_toDigits, Option.map_some]
    have habs : -((n.natAbs : Nat) : Int) = n := by omega
    rw [habs]
  next hpos =>
    rw [intOfChars_toDigits]
    have habs : ((n.natAbs : Nat) : Int) = n := by omega
    rw [habs]

/-- `f"{h:04x}"` of a 16-bit hash. -/
def hex4 (h : Fin 65536) : List Char :=
  [Nat.digitChar (h.val / 4096), Nat.digitChar (h.val / 256 % 16),
    Nat.digitChar (h.val / 16 % 16), Nat.digitChar (h.val % 16)]

def bridgeNameText (h : Fin 65536) (networkId : Int) : List Char :=
  'n' :: 'o' :: 'v' :: 'e' :: (hex4 h ++ 'n' :: intText networkId)

/-- The three interfaces that are named after a node interface. -/
inductive IfaceKind
  | tap | vethHost | vethPeer
deriving DecidableEq, Repr

def IfaceKind.suffix : IfaceKind → List Char
  | .tap => []
  | .vethHost => ['h']
  | .vethPeer => ['p']

/-- `tap_name`, `veth_host_name` and `veth_peer_name`, before the length is asserted. -/
def ifaceNameText (kind : IfaceKind) (h : Fin 65536) (nodeId iface : Int) : List Char :=
  'n' :: 'v' :: 'e' ::
    (hex4 h ++ 'd' :: (intText nodeId ++ 'i' :: (intText iface ++ kind.suffix)))

/-- A built name; the builders assert that it is at most 14 characters long. -/
def asserted (name : List Char) : Option (List Char) := if name.length ≤ 14 then some name else none

theorem digitChar_injective {m n : Nat} (hm : m < 16) (hn : n < 16)
    (h : m.digitChar = n.digitChar) : m = n := by
  have hall : ∀ a < 16, ∀ b < 16, Nat.digitChar a = Nat.digitChar b → a = b := by decide
  exact hall m hm n hn h

theorem hex4_injective {g h : Fin 65536} (heq : hex4 g = hex4 h) : g = h := by
  have hg := g.isLt
  have hh := h.isLt
  simp only [hex4, List.cons.injEq, and_true] at heq
  obtain ⟨h1, h2, h3, h4⟩ := heq
  have e1 := digitChar_injective (by omega) (by omega) h1
  have e2 := digitChar_injective (by omega) (by omega) h2
  have e3 := digitChar_injective (by omega) (by omega) h3
  have e4 := digitChar_injective (by omega) (by omega) h4
  exact Fin.ext (by omega)

theorem hex4_length (h : Fin 65536) : (hex4 h).length = 4 := rfl

theorem toDigits_injective {m n : Nat} (h : Nat.toDigits 10 m = Nat.toDigits 10 n) : m = n := by
  have hm : Nat.ofDigitChars 10 (Nat.toDigits 10 m) 0 = m := Nat.ofDigitChars_ten_toDigits
  have hn : Nat.ofDigitChars 10 (Nat.toDigits 10 n) 0 = n := Nat.ofDigitChars_ten_toDigits
  rw [h, hn] at hm
  exact hm.symm

theorem intText_injective {m n : Int} (h : intText m = intText n) : m = n := by
  have hminus : ∀ k : Nat, '-' ∉ Nat.toDigits 10 k := fun k => not_mem_toDigits (by decide)
  unfold intText at h
  split at h
  next hm =>
    split at h
    next hn =>
      have hdigits := toDigits_injective (List.cons.inj h).2
      omega
    next =>
      have hmem : '-' ∈ Nat.toDigits 10 n.natAbs := by
        rw [← h]
        exact List.mem_cons_self
      exact absurd hmem (hminus _)
  next hm =>
    split at h
    next =>
      have hmem : '-' ∈ Nat.toDigits 10 m.natAbs := by
        rw [h]
        exact List.mem_cons_self
      exact absurd hmem (hminus _)
    next hn =>
      have hdigits := toDigits_injective h
      omega

/-- A letter is no part of a number's text. -/
theorem not_mem_intText {n : Int} {c : Char} (hdigit : c.isDigit = false) (hminus : c ≠ '-') :
    c ∉ intText n := by
  intro h
  unfold intText at h
  split at h
  next =>
    rcases List.mem_cons.mp h with he | hm
    · exact hminus he
    · exact not_mem_toDigits hdigit hm
  next => exact not_mem_toDigits hdigit h

/-- Two texts that do not hold a separator agree when they agree up to it. -/
theorem append_cons_injective {sep : Char} {xs ys us vs : List Char} (hx : sep ∉ xs)
    (hy : sep ∉ ys) (h : xs ++ sep :: us = ys ++ sep :: vs) : xs = ys ∧ us = vs := by
  induction xs generalizing ys with
  | nil =>
    cases ys with
    | nil => exact ⟨rfl, (List.cons.inj h).2⟩
    | cons y ys =>
      have he := (List.cons.inj h).1
      exact absurd (by rw [he]; exact List.mem_cons_self) hy
  | cons x xs ih =>
    cases ys with
    | nil =>
      have he := (List.cons.inj h).1
      exact absurd (by rw [← he]; exact List.mem_cons_self) hx
    | cons y ys =>
      obtain ⟨he, hrest⟩ := List.cons.inj h
      obtain ⟨hxs, hus⟩ := ih (fun hm => hx (List.mem_cons_of_mem x hm))
        (fun hm => hy (List.mem_cons_of_mem y hm)) hrest
      exact ⟨by rw [he, hxs], hus⟩

theorem hex4_append_injective {g h : Fin 65536} {us vs : List Char}
    (heq : hex4 g ++ us = hex4 h ++ vs) : g = h ∧ us = vs := by
  obtain ⟨hhex, hrest⟩ := List.append_inj heq (by rw [hex4_length, hex4_length])
  exact ⟨hex4_injective hhex, hrest⟩

/-- Bridges of different labs have one name only when their hashes agree. -/
theorem bridgeNameText_injective {g h : Fin 65536} {m n : Int}
    (heq : bridgeNameText g m = bridgeNameText h n) : g = h ∧ m = n := by
  simp only [bridgeNameText, List.cons.injEq, true_and] at heq
  obtain ⟨hhash, hrest⟩ := hex4_append_injective heq
  exact ⟨hhash, intText_injective (List.cons.inj hrest).2⟩

end NovaVe
