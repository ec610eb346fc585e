import Mathlib.Algebra.Order.Ring.Nat
import Mathlib.Data.List.Basic
import Mathlib.Tactic.NormNum
import NovaVe.Texts

namespace NovaVe

def isDecimal (cs : List Char) : Bool := !cs.isEmpty && cs.all Char.isDigit

/-- One octet of a dotted quad: at most three digits, no leading zero, at most 255. -/
def parseOctet (cs : List Char) : Option Nat :=
  if isDecimal cs ∧ cs.length ≤ 3 ∧ (cs = ['0'] ∨ cs.head? ≠ some '0') then
    let n := Nat.ofDigitChars 10 cs 0
    if n ≤ 255 then some n else none
  else none

def joinOctets (a b c d : Nat) : Nat := ((a * 256 + b) * 256 + c) * 256 + d

def parseIPv4Chars (cs : List Char) : Option Nat :=
  match (cs.splitOn '.').map parseOctet with
  | [some a, some b, some c, some d] => some (joinOctets a b c d)
  | _ => none

/-- `ipaddress.IPv4Address(text)`, as its integer. -/
def parseIPv4 (text : String) : Option Nat := parseIPv4Chars text.toList

def octets (n : Nat) : List Nat := [n / 16777216 % 256, n / 65536 % 256, n / 256 % 256, n % 256]

def ipv4Chars (n : Nat) : List Char :=
  ['.'].intercalate ((octets n).map (Nat.toDigits 10))

/-- `str(ipaddress.IPv4Address(n))`. -/
def ipv4Text (n : Nat) : String := String.ofList (ipv4Chars n)

theorem isDecimal_toDigits (n : Nat) : isDecimal (Nat.toDigits 10 n) = true := by
  have hne : Nat.toDigits 10 n ≠ [] := Nat.toDigits_ne_nil
  have hall : (Nat.toDigits 10 n).all Char.isDigit = true :=
    List.all_eq_true.mpr (fun c hc => Nat.isDigit_of_mem_toDigits (by decide) (by decide) hc)
  simp [isDecimal, hne, hall]

theorem head_toDigits_ne_zero {n : Nat} (h : 0 < n) : (Nat.toDigits 10 n).head? ≠ some '0' := by
  induction n using Nat.strongRecOn with
  | ind n ih =>
    by_cases hn : n < 10
    · rw [Nat.toDigits_of_lt_base hn]
      have hvalue : n.digitChar.toNat = 48 + n := Nat.toNat_digitChar_of_lt_ten hn
      have hc : n.digitChar ≠ '0' := by
        intro he
        rw [he] at hvalue
        have hzero : '0'.toNat = 48 := rfl
        omega
      simpa using hc
    · rw [Nat.toDigits_of_base_le (by decide) (by omega)]
      have hpos : 0 < n / 10 := by omega
      have hih := ih (n / 10) (by omega) hpos
      have hne : Nat.toDigits 10 (n / 10) ≠ [] := Nat.toDigits_ne_nil
      rw [List.head?_append_of_ne_nil _ hne]
      exact hih

theorem parseOctet_toDigits {n : Nat} (h : n < 256) : parseOctet (Nat.toDigits 10 n) = some n := by
  have hlen : (Nat.toDigits 10 n).length ≤ 3 :=
    (Nat.length_toDigits_le_iff (by decide) (by decide)).mpr (by omega)
  have hzero : Nat.toDigits 10 n = ['0'] ∨ (Nat.toDigits 10 n).head? ≠ some '0' := by
    rcases Nat.eq_zero_or_pos n with hn | hn
    · subst hn
      exact Or.inl (Nat.toDigits_zero 10)
    · exact Or.inr (head_toDigits_ne_zero hn)
  have hvalue : Nat.ofDigitChars 10 (Nat.toDigits 10 n) 0 = n := Nat.ofDigitChars_ten_toDigits
  unfold parseOctet
  rw [if_pos ⟨isDecimal_toDigits n, hlen, hzero⟩]
  simp only [hvalue]
  rw [if_pos (by omega)]

theorem not_mem_toDigits {n : Nat} {c : Char} (hc : c.isDigit = false) : c ∉ Nat.toDigits 10 n := by
  intro h
  have hd := Nat.isDigit_of_mem_toDigits (by decide) (by decide) h
  rw [hc] at hd
  cases hd

theorem octets_lt {n k : Nat} (h : k ∈ octets n) : k < 256 := by
  simp only [octets, List.mem_cons, List.not_mem_nil, or_false] at h
  omega

theorem joinOctets_octets {n : Nat} (h : n < 4294967296) :
    joinOctets (n / 16777216 % 256) (n / 65536 % 256) (n / 256 % 256) (n % 256) = n := by
  unfold joinOctets
  omega

theorem splitOn_ipv4Chars (n : Nat) :
    (ipv4Chars n).splitOn '.' = (octets n).map (Nat.toDigits 10) := by
  unfold ipv4Chars
  refine List.splitOn_intercalate '.' ?_ ?_
  · intro cs hcs
    obtain ⟨k, _, rfl⟩ := List.mem_map.mp hcs
    exact not_mem_toDigits (by decide)
  · simp [octets]

/-- Reading back an address that was written gives the address. -/
theorem parseIPv4Chars_ipv4Chars {n : Nat} (h : n < 4294967296) :
    parseIPv4Chars (ipv4Chars n) = some n := by
  have hoctets : ((ipv4Chars n).splitOn '.').map parseOctet = (octets n).map some := by
    rw [splitOn_ipv4Chars, List.map_map]
    refine List.map_congr_left ?_
    intro k hk
    exact parseOctet_toDigits (octets_lt hk)
  unfold parseIPv4Chars
  rw [hoctets]
  simp only [octets, List.map_cons, List.map_nil]
  rw [joinOctets_octets h]

theorem parseIPv4_ipv4Text {n : Nat} (h : n < 4294967296) : parseIPv4 (ipv4Text n) = some n := by
  unfold parseIPv4 ipv4Text
  rw [String.toList_ofList]
  exact parseIPv4Chars_ipv4Chars h

theorem ipv4Text_injective {m n : Nat} (hm : m < 4294967296) (hn : n < 4294967296)
    (h : ipv4Text m = ipv4Text n) : m = n := by
  have hp := parseIPv4_ipv4Text hm
  rw [h, parseIPv4_ipv4Text hn] at hp
  exact (Option.some.inj hp).symm

theorem mem_ipv4Chars {n : Nat} {c : Char} (h : c ∈ ipv4Chars n) : c.isDigit ∨ c = '.' := by
  by_cases hc : c = '.'
  · exact Or.inr hc
  · refine Or.inl ?_
    simp only [ipv4Chars, octets, List.map_cons, List.map_nil, List.intercalate, List.intersperse,
      List.flatten_cons, List.flatten_nil, List.append_nil, List.mem_append, List.mem_singleton, hc,
      false_or] at h
    rcases h with h | h | h | h <;>
      exact Nat.isDigit_of_mem_toDigits (by decide) (by decide) h

/-- `ipaddress.IPv4Network`: the address has no host bit set. -/
structure IPv4Network where
  networkAddress : Nat
  prefixlen : Nat
  prefixlenLe : prefixlen ≤ 32
  bound : networkAddress < 4294967296
  aligned : networkAddress % 2 ^ (32 - prefixlen) = 0
deriving DecidableEq

def IPv4Network.size (net : IPv4Network) : Nat := 2 ^ (32 - net.prefixlen)

def IPv4Network.broadcastAddress (net : IPv4Network) : Nat := net.networkAddress + net.size - 1

/-- `address in network`. -/
def IPv4Network.contains (net : IPv4Network) (address : Nat) : Bool :=
  decide (net.networkAddress ≤ address) && decide (address ≤ net.broadcastAddress)

def IPv4Network.overlaps (net other : IPv4Network) : Bool :=
  other.contains net.networkAddress || other.contains net.broadcastAddress ||
    net.contains other.networkAddress || net.contains other.broadcastAddress

def IPv4Network.text (net : IPv4Network) : String :=
  String.ofList (ipv4Chars net.networkAddress ++ '/' :: Nat.toDigits 10 net.prefixlen)

/-- The network of an address and a prefix length, refused when host bits are set. -/
def ipv4Network? (address prefixlen : Nat) : Option IPv4Network :=
  if h : prefixlen ≤ 32 ∧ address < 4294967296 ∧ address % 2 ^ (32 - prefixlen) = 0 then
    some ⟨address, prefixlen, h.1, h.2.1, h.2.2⟩
  else none

/-- `_prefix_from_ip_int`: ones, then zeros. -/
def prefixOfMask (mask : Nat) : Option Nat :=
  (List.range 33).find? (fun p => decide (4294967296 - 2 ^ (32 - p) = mask))

/-- A prefix length, a netmask or a host mask. -/
def parseMask (cs : List Char) : Option Nat :=
  if isDecimal cs ∧ Nat.ofDigitChars 10 cs 0 ≤ 32 then some (Nat.ofDigitChars 10 cs 0)
  else match parseIPv4Chars cs with
    | none => none
    | some mask => (prefixOfMask mask).or (prefixOfMask (4294967295 - mask))

/-- `ipaddress.ip_network(text, strict=True)`; IPv6 networks are not read. -/
def ipNetwork (text : String) : Option IPv4Network :=
  match text.toList.splitOn '/' with
  | [address] => (parseIPv4Chars address).bind (ipv4Network? · 32)
  | [address, mask] =>
    (parseIPv4Chars address).bind (fun a => (parseMask mask).bind (ipv4Network? a))
  | _ => none

/-- `network.subnets(new_prefix=24)`, for a network of prefix at most 24. -/
def IPv4Network.slash24s (net : IPv4Network) : List IPv4Network :=
  (List.range (net.size / 256)).filterMap (fun k => ipv4Network? (net.networkAddress + 256 * k) 24)

theorem IPv4Network.ipv4Network?_self (net : IPv4Network) :
    ipv4Network? net.networkAddress net.prefixlen = some net := by
  have h := net.aligned
  unfold ipv4Network?
  rw [dif_pos ⟨net.prefixlenLe, net.bound, h⟩]

theorem IPv4Network.splitOn_text (net : IPv4Network) :
    net.text.toList.splitOn '/' = [ipv4Chars net.networkAddress, Nat.toDigits 10 net.prefixlen] := by
  have hleft : '/' ∉ ipv4Chars net.networkAddress := by
    intro h
    rcases mem_ipv4Chars h with hd | hd
    · cases hd
    · cases hd
  have hright : '/' ∉ Nat.toDigits 10 net.prefixlen := not_mem_toDigits (by decide)
  unfold IPv4Network.text
  rw [String.toList_ofList, List.splitOn_append_cons_self_of_not_mem hleft,
    List.splitOn_eq_singleton hright]

/-- Reading back a network that was written gives the network. -/
theorem ipNetwork_text (net : IPv4Network) : ipNetwork net.text = some net := by
  have hmask : parseMask (Nat.toDigits 10 net.prefixlen) = some net.prefixlen := by
    have hvalue : Nat.ofDigitChars 10 (Nat.toDigits 10 net.prefixlen) 0 = net.prefixlen :=
      Nat.ofDigitChars_ten_toDigits
    have hle := net.prefixlenLe
    unfold parseMask
    rw [hvalue, if_pos ⟨isDecimal_toDigits net.prefixlen, hle⟩]
  unfold ipNetwork
  rw [net.splitOn_text]
  simp only [parseIPv4Chars_ipv4Chars net.bound, Option.bind_some, hmask]
  exact net.ipv4Network?_self

theorem IPv4Network.text_no_space (net : IPv4Network) : ∀ c ∈ net.text.toList, isPySpace c = false := by
  intro c hc
  unfold IPv4Network.text at hc
  rw [String.toList_ofList] at hc
  rcases List.mem_append.mp hc with h | h
  · rcases mem_ipv4Chars h with hd | hd
    · exact isPySpace_digit hd
    · subst hd
      rfl
  · rcases List.mem_cons.mp h with hd | hd
    · subst hd
      rfl
    · exact isPySpace_digit (Nat.isDigit_of_mem_toDigits (by decide) (by decide) hd)

theorem IPv4Network.size_pos (net : IPv4Network) : 0 < net.size := Nat.two_pow_pos _

/-- The last address of a network is an address. -/
theorem IPv4Network.broadcast_lt (net : IPv4Network) : net.broadcastAddress < 4294967296 := by
  have hdvd : net.size ∣ net.networkAddress := Nat.dvd_of_mod_eq_zero net.aligned
  have hsize : net.size ∣ 4294967296 := by
    have hpow : (4294967296 : Nat) = 2 ^ 32 := by norm_num
    rw [hpow]
    exact pow_dvd_pow 2 (Nat.sub_le 32 net.prefixlen)
  obtain ⟨k, hk⟩ := hdvd
  obtain ⟨m, hm⟩ := hsize
  have hpos := net.size_pos
  have hlt : net.size * k < net.size * m := by
    have hb := net.bound
    omega
  have hkm : k + 1 ≤ m := Nat.lt_of_mul_lt_mul_left hlt
  have hmul : net.size * (k + 1) ≤ net.size * m := Nat.mul_le_mul_left net.size hkm
  have hexpand : net.size * (k + 1) = net.size * k + net.size := Nat.mul_succ _ _
  unfold IPv4Network.broadcastAddress
  omega

/-- A network of prefix at most 24 has at least 256 addresses. -/
theorem IPv4Network.size_ge (net : IPv4Network) (h : net.prefixlen ≤ 24) : 256 ≤ net.size := by
  have hpow : 2 ^ 8 ≤ net.size := Nat.pow_le_pow_right (by decide) (by omega)
  omega

end NovaVe
