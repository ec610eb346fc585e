import Mathlib.Algebra.Ring.Int.Defs
import NovaVe.IfaceNames

namespace NovaVe

/-- What a host interface was made for. -/
structure IfaceOwner where
  labId : String
  nodeId : Int
  iface : Int
  kind : IfaceKind
deriving DecidableEq, Repr

/-- A host interface; one that was made for a lab carries the built name. -/
structure HostIface (labHash : String → Fin 65536) where
  name : List Char
  owner : Option IfaceOwner
  named : ∀ o, owner = some o →
    asserted (ifaceNameText o.kind (labHash o.labId) o.nodeId o.iface) = some name

structure HostBridge (labHash : String → Fin 65536) where
  name : List Char
  owner : Option (String × Int)
  named : ∀ o, owner = some o → asserted (bridgeNameText (labHash o.1) o.2) = some name

def isHexDigit (c : Char) : Bool := c.isDigit || (decide ('a' ≤ c) && decide (c ≤ 'f'))

/-- `\d{1,most}`, up to the first character that is no digit; what follows it. -/
def afterDigits (most : Nat) (cs : List Char) : Option (List Char) :=
  let digits := cs.takeWhile Char.isDigit
  if 1 ≤ digits.length ∧ digits.length ≤ most then some (cs.dropWhile Char.isDigit) else none

/-- `\d{1,2}[hp]?$`. -/
def matchesIfacePart (cs : List Char) : Bool :=
  match afterDigits 2 cs with
  | some tail => decide (tail = []) || decide (tail = ['h']) || decide (tail = ['p'])
  | none => false

/-- `\d{1,3}i\d{1,2}[hp]?$`. -/
def matchesNodePart (cs : List Char) : Bool :=
  match afterDigits 3 cs with
  | some ('i' :: rest) => matchesIfacePart rest
  | _ => false

/-- `_RE_NVE_IFACE`. -/
def matchesNveIface : List Char → Bool
  | 'n' :: 'v' :: 'e' :: a :: b :: c :: d :: 'd' :: rest =>
    [a, b, c, d].all isHexDigit && matchesNodePart rest
  | _ => false

/-- `_RE_BRIDGE`. -/
def matchesBridge : List Char → Bool
  | 'n' :: 'o' :: 'v' :: 'e' :: a :: b :: c :: d :: 'n' :: rest =>
    [a, b, c, d].all isHexDigit && decide (afterDigits 5 rest = some [])
  | _ => false

def labPrefix (h : Fin 65536) : List Char := 'n' :: 'v' :: 'e' :: hex4 h

def nodePrefix (h : Fin 65536) (nodeId : Int) : List Char :=
  'n' :: 'v' :: 'e' :: (hex4 h ++ 'd' :: (intText nodeId ++ ['i']))

/-- The interfaces with a prefix and a generated name, less those the helper failed to delete. -/
def sweepPrefixed {labHash : String → Fin 65536} (pre : List Char) (linkDel : List Char → Bool)
    (ifaces : List (HostIface labHash)) : List (HostIface labHash) :=
  ((ifaces.filter (fun i => pre.isPrefixOf i.name)).filter
    (fun i => matchesNveIface i.name)).filter (fun i => linkDel i.name)

/-- `sweep_node_host_ifaces`: the interfaces it deletes. -/
def sweepNodeHostIfaces (labHash : String → Fin 65536) (labId : String) (nodeId : Int)
    (linkDel : List Char → Bool) (ifaces : List (HostIface labHash)) : List (HostIface labHash) :=
  sweepPrefixed (nodePrefix (labHash labId) nodeId) linkDel ifaces

/-- `sweep_lab_host_ifaces`. -/
def sweepLabHostIfaces (labHash : String → Fin 65536) (labId : String)
    (linkDel : List Char → Bool) (ifaces : List (HostIface labHash)) : List (HostIface labHash) :=
  sweepPrefixed (labPrefix (labHash labId)) linkDel ifaces

def knownHashes (labHash : String → Fin 65536) (known : List String) : List (List Char) :=
  known.map (fun labId => hex4 (labHash labId))

/-- `sweep_orphan_ifaces`. -/
def sweepOrphanIfaces (labHash : String → Fin 65536) (known : List String)
    (linkDel : List Char → Bool) (ifaces : List (HostIface labHash)) : List (HostIface labHash) :=
  (((ifaces.filter (fun i => ['n', 'v', 'e'].isPrefixOf i.name)).filter
    (fun i => matchesNveIface i.name)).filter
    (fun i => !(knownHashes labHash known).contains ((i.name.drop 3).take 4))).filter
    (fun i => linkDel i.name)

/-- `sweep_orphan_bridges`. -/
def sweepOrphanBridges (labHash : String → Fin 65536) (known : List String)
    (bridgeDel : List Char → Bool) (bridges : List (HostBridge labHash)) :
    List (HostBridge labHash) :=
  (((bridges.filter (fun b => ['n', 'o', 'v', 'e'].isPrefixOf b.name)).filter
    (fun b => matchesBridge b.name)).filter
    (fun b => !(knownHashes labHash known).contains ((b.name.drop 4).take 4))).filter
    (fun b => bridgeDel b.name)

theorem asserted_eq {name built : List Char} (h : asserted built = some name) : built = name := by
  unfold asserted at h
  split at h
  next => exact Option.some.inj h
  next => cases h

theorem labPrefix_isPrefix {g : Fin 65536} {o : IfaceOwner} {h : Fin 65536} :
    (labPrefix g).isPrefixOf (ifaceNameText o.kind h o.nodeId o.iface) = true ↔ g = h := by
  rw [List.isPrefixOf_iff_prefix]
  constructor
  · intro ⟨tail, htail⟩
    simp only [labPrefix, ifaceNameText, List.cons_append, List.cons.injEq, true_and] at htail
    exact (hex4_append_injective htail).1
  · intro he
    subst he
    refine ⟨'d' :: (intText o.nodeId ++ 'i' :: (intText o.iface ++ o.kind.suffix)), ?_⟩
    simp [labPrefix, ifaceNameText]

theorem nodePrefix_isPrefix {g h : Fin 65536} {m : Int} {o : IfaceOwner} :
    (nodePrefix g m).isPrefixOf (ifaceNameText o.kind h o.nodeId o.iface) = true ↔
      g = h ∧ m = o.nodeId := by
  have hfree : ∀ n, 'i' ∉ intText n := fun n => not_mem_intText (by decide) (by decide)
  rw [List.isPrefixOf_iff_prefix]
  constructor
  · intro ⟨tail, htail⟩
    simp only [nodePrefix, ifaceNameText, List.cons_append, List.cons.injEq, true_and,
      List.append_assoc] at htail
    obtain ⟨hhash, hrest⟩ := hex4_append_injective htail
    have hnode := (List.cons.inj hrest).2
    exact ⟨hhash, intText_injective (append_cons_injective (hfree m) (hfree o.nodeId) hnode).1⟩
  · intro ⟨hhash, hnode⟩
    subst hhash
    subst hnode
    refine ⟨intText o.iface ++ o.kind.suffix, ?_⟩
    simp [nodePrefix, ifaceNameText]

theorem takeWhile_intText {n : Int} {rest : List Char} (hn : 0 ≤ n)
    (hrest : ∀ c, rest.head? = some c → c.isDigit = false) :
    (intText n ++ rest).takeWhile Char.isDigit = Nat.toDigits 10 n.natAbs ∧
      (intText n ++ rest).dropWhile Char.isDigit = rest := by
  have htext : intText n = Nat.toDigits 10 n.natAbs := by
    unfold intText
    rw [if_neg (by omega)]
  have hall : ∀ c ∈ Nat.toDigits 10 n.natAbs, c.isDigit = true :=
    fun c hc => Nat.isDigit_of_mem_toDigits (by decide) (by decide) hc
  have hnil : rest.takeWhile Char.isDigit = [] ∧ rest.dropWhile Char.isDigit = rest := by
    cases rest with
    | nil => exact ⟨rfl, rfl⟩
    | cons c tail =>
      have hc := hrest c rfl
      simp [hc]
  rw [htext, List.takeWhile_append_of_pos hall, List.dropWhile_append_of_pos hall, hnil.1, hnil.2,
    List.append_nil]
  exact ⟨rfl, rfl⟩

theorem afterDigits_intText {n : Int} {most : Nat} {rest : List Char} (hmost : 0 < most)
    (hrest : ∀ c, rest.head? = some c → c.isDigit = false) :
    afterDigits most (intText n ++ rest) =
      if 0 ≤ n ∧ n < 10 ^ most then some rest else none := by
  by_cases hn : 0 ≤ n
  · obtain ⟨htake, hdrop⟩ := takeWhile_intText hn hrest
    have hpos : 1 ≤ (Nat.toDigits 10 n.natAbs).length := Nat.length_toDigits_pos
    have hlen : (Nat.toDigits 10 n.natAbs).length ≤ most ↔ n < 10 ^ most := by
      rw [Nat.length_toDigits_le_iff (by decide) hmost]
      have hcast : ((n.natAbs : Nat) : Int) = n := Int.natAbs_of_nonneg hn
      constructor
      · intro h
        rw [← hcast]
        exact_mod_cast h
      · intro h
        rw [← hcast] at h
        exact_mod_cast h
    unfold afterDigits
    simp only [htake, hdrop, hpos, true_and, hlen, hn]
  · have htext : intText n = '-' :: Nat.toDigits 10 n.natAbs := by
      unfold intText
      rw [if_pos (by omega)]
    have hdash : '-'.isDigit = false := by decide
    unfold afterDigits
    rw [htext, if_neg (show ¬ (0 ≤ n ∧ n < 10 ^ most) by omega)]
    simp [hdash]

theorem isHexDigit_digitChar {n : Nat} (h : n < 16) : isHexDigit n.digitChar = true := by
  have hall : ∀ k < 16, isHexDigit (Nat.digitChar k) = true := by decide
  exact hall n h

theorem hex4_isHexDigit (h : Fin 65536) : (hex4 h).all isHexDigit = true := by
  have hlt := h.isLt
  have h1 := isHexDigit_digitChar (show h.val / 4096 < 16 by omega)
  have h2 := isHexDigit_digitChar (show h.val / 256 % 16 < 16 by omega)
  have h3 := isHexDigit_digitChar (show h.val / 16 % 16 < 16 by omega)
  have h4 := isHexDigit_digitChar (show h.val % 16 < 16 by omega)
  simp [hex4, h1, h2, h3, h4]

/-- The numbers that the sweep's pattern has room for. -/
def IfaceOwner.Sweepable (o : IfaceOwner) : Prop :=
  (0 ≤ o.nodeId ∧ o.nodeId ≤ 999) ∧ (0 ≤ o.iface ∧ o.iface ≤ 99)

theorem matchesIfacePart_iff (iface : Int) (kind : IfaceKind) :
    matchesIfacePart (intText iface ++ kind.suffix) = true ↔ 0 ≤ iface ∧ iface ≤ 99 := by
  have hrest : ∀ c, kind.suffix.head? = some c → c.isDigit = false := by
    intro c hc
    cases kind with
    | tap => cases hc
    | vethHost =>
      cases hc
      decide
    | vethPeer =>
      cases hc
      decide
  have hkind : (decide (kind.suffix = []) || decide (kind.suffix = ['h']) ||
      decide (kind.suffix = ['p'])) = true := by
    cases kind <;> decide
  have hafter := @afterDigits_intText iface 2 kind.suffix (by omega) hrest
  unfold matchesIfacePart
  rw [hafter]
  by_cases h : 0 ≤ iface ∧ iface < 10 ^ 2
  · rw [if_pos h]
    simp only [hkind, true_iff]
    omega
  · rw [if_neg h]
    simp only [Bool.false_eq_true, false_iff]
    omega

/-- The pattern accepts a generated name exactly when its numbers are short enough. -/
theorem matchesNveIface_iff (h : Fin 65536) (o : IfaceOwner) :
    matchesNveIface (ifaceNameText o.kind h o.nodeId o.iface) = true ↔ o.Sweepable := by
  have hafter := @afterDigits_intText o.nodeId 3 ('i' :: (intText o.iface ++ o.kind.suffix))
    (by omega) (fun c hc => by cases hc; decide)
  have hpart : matchesNodePart (intText o.nodeId ++ 'i' :: (intText o.iface ++ o.kind.suffix)) =
      true ↔ o.Sweepable := by
    unfold matchesNodePart
    rw [hafter]
    by_cases hn : 0 ≤ o.nodeId ∧ o.nodeId < 10 ^ 3
    · rw [if_pos hn]
      show matchesIfacePart (intText o.iface ++ o.kind.suffix) = true ↔ o.Sweepable
      rw [matchesIfacePart_iff]
      constructor
      · exact fun hi => ⟨⟨hn.1, by omega⟩, hi⟩
      · exact fun hs => hs.2
    · rw [if_neg hn]
      simp only [Bool.false_eq_true, false_iff]
      intro hs
      exact hn ⟨hs.1.1, by have := hs.1.2; omega⟩
  have hhex := hex4_isHexDigit h
  simp only [hex4] at hhex
  simp only [ifaceNameText, hex4, List.cons_append, List.nil_append, matchesNveIface, hhex,
    Bool.true_and]
  exact hpart

theorem HostIface.name_eq {labHash : String → Fin 65536} (i : HostIface labHash) {o : IfaceOwner}
    (h : i.owner = some o) : ifaceNameText o.kind (labHash o.labId) o.nodeId o.iface = i.name :=
  asserted_eq (i.named o h)

theorem mem_sweepPrefixed {labHash : String → Fin 65536} {pre : List Char}
    {linkDel : List Char → Bool} {ifaces : List (HostIface labHash)} {i : HostIface labHash} :
    i ∈ sweepPrefixed pre linkDel ifaces ↔ i ∈ ifaces ∧ pre.isPrefixOf i.name = true ∧
      matchesNveIface i.name = true ∧ linkDel i.name = true := by
  simp only [sweepPrefixed, List.mem_filter]
  tauto

/-- The sweeps for one lab keep to it, and the orphan sweeps keep away from every known lab. -/
structure SweepsIsolated (labHash : String → Fin 65536) (known : List String)
    (ifaces : List (HostIface labHash)) (bridges : List (HostBridge labHash)) (labId : String) :
    Prop where
  lab : ∀ linkDel, ∀ i ∈ sweepLabHostIfaces labHash labId linkDel ifaces,
    ∃ o, i.owner = some o ∧ o.labId = labId
  node : ∀ nodeId linkDel, ∀ i ∈ sweepNodeHostIfaces labHash labId nodeId linkDel ifaces,
    ∃ o, i.owner = some o ∧ o.labId = labId ∧ o.nodeId = nodeId
  orphans : ∀ linkDel, ∀ i ∈ sweepOrphanIfaces labHash known linkDel ifaces,
    ∀ o, i.owner = some o → o.labId ∉ known
  orphanBridges : ∀ bridgeDel, ∀ b ∈ sweepOrphanBridges labHash known bridgeDel bridges,
    ∀ o, b.owner = some o → o.1 ∉ known

/-- No interface on the host comes from a lab of the same hash, or from elsewhere with a name of
that hash, save one whose numbers are too long for the pattern. -/
def NoHashNeighbour (labHash : String → Fin 65536) (ifaces : List (HostIface labHash))
    (labId : String) : Prop :=
  ∀ i ∈ ifaces, match i.owner with
    | some o => o.labId ≠ labId → labHash o.labId = labHash labId → ¬ o.Sweepable
    | none => matchesNveIface i.name = true → ¬ (labPrefix (labHash labId)).isPrefixOf i.name = true

theorem nodePrefix_labPrefix {h : Fin 65536} {nodeId : Int} {name : List Char}
    (hnode : (nodePrefix h nodeId).isPrefixOf name = true) :
    (labPrefix h).isPrefixOf name = true := by
  rw [List.isPrefixOf_iff_prefix] at hnode ⊢
  refine List.IsPrefix.trans ?_ hnode
  exact ⟨'d' :: (intText nodeId ++ ['i']), by simp [labPrefix, nodePrefix]⟩

theorem NoHashNeighbour.owner {labHash : String → Fin 65536} {ifaces : List (HostIface labHash)}
    {labId : String} (h : NoHashNeighbour labHash ifaces labId) {i : HostIface labHash}
    (hi : i ∈ ifaces) (hpre : (labPrefix (labHash labId)).isPrefixOf i.name = true)
    (hmatch : matchesNveIface i.name = true) : ∃ o, i.owner = some o ∧ o.labId = labId := by
  have hcase := h i hi
  cases howner : i.owner with
  | none =>
    rw [howner] at hcase
    exact absurd hpre (hcase hmatch)
  | some o =>
    rw [howner] at hcase
    refine ⟨o, rfl, ?_⟩
    by_contra hne
    have hname := i.name_eq howner
    rw [← hname] at hpre hmatch
    have hhash := labPrefix_isPrefix.mp hpre
    exact hcase hne hhash.symm ((matchesNveIface_iff _ o).mp hmatch)

/-- The orphan sweep of interfaces spares every known lab, whatever the hashes are. -/
theorem orphanIfaces_spare_known {labHash : String → Fin 65536} {known : List String}
    {linkDel : List Char → Bool} {ifaces : List (HostIface labHash)} {i : HostIface labHash}
    (hi : i ∈ sweepOrphanIfaces labHash known linkDel ifaces) {o : IfaceOwner}
    (ho : i.owner = some o) : o.labId ∉ known := by
  intro hknown
  simp only [sweepOrphanIfaces, List.mem_filter, Bool.not_eq_true'] at hi
  have hhash : (i.name.drop 3).take 4 = hex4 (labHash o.labId) := by
    rw [← i.name_eq ho]
    rfl
  have hmem : hex4 (labHash o.labId) ∈ knownHashes labHash known :=
    List.mem_map.mpr ⟨o.labId, hknown, rfl⟩
  have hnot := hi.1.2
  rw [hhash] at hnot
  exact absurd (List.contains_iff_mem.mpr hmem) (by rw [hnot]; decide)

theorem orphanBridges_spare_known {labHash : String → Fin 65536} {known : List String}
    {bridgeDel : List Char → Bool} {bridges : List (HostBridge labHash)} {b : HostBridge labHash}
    (hb : b ∈ sweepOrphanBridges labHash known bridgeDel bridges) {o : String × Int}
    (ho : b.owner = some o) : o.1 ∉ known := by
  intro hknown
  simp only [sweepOrphanBridges, List.mem_filter, Bool.not_eq_true'] at hb
  have hhash : (b.name.drop 4).take 4 = hex4 (labHash o.1) := by
    rw [← asserted_eq (b.named o ho)]
    rfl
  have hmem : hex4 (labHash o.1) ∈ knownHashes labHash known :=
    List.mem_map.mpr ⟨o.1, hknown, rfl⟩
  have hnot := hb.1.2
  rw [hhash] at hnot
  exact absurd (List.contains_iff_mem.mpr hmem) (by rw [hnot]; decide)

/-- The sweeps of a lab are isolated exactly when it has no hash neighbour on the host. -/
theorem sweeps_isolated_iff (labHash : String → Fin 65536) (known : List String)
    (ifaces : List (HostIface labHash)) (bridges : List (HostBridge labHash)) (labId : String) :
    SweepsIsolated labHash known ifaces bridges labId ↔ NoHashNeighbour labHash ifaces labId := by
  constructor
  · intro h i hi
    cases howner : i.owner with
    | none =>
      intro hmatch hpre
      have hswept : i ∈ sweepLabHostIfaces labHash labId (fun _ => true) ifaces :=
        mem_sweepPrefixed.mpr ⟨hi, hpre, hmatch, rfl⟩
      obtain ⟨o, ho, _⟩ := h.lab _ i hswept
      rw [howner] at ho
      cases ho
    | some o =>
      intro hne hhash hsweep
      have hname := i.name_eq howner
      have hpre : (labPrefix (labHash labId)).isPrefixOf i.name = true := by
        rw [← hname]
        exact labPrefix_isPrefix.mpr hhash.symm
      have hmatch : matchesNveIface i.name = true := by
        rw [← hname]
        exact (matchesNveIface_iff _ o).mpr hsweep
      have hswept : i ∈ sweepLabHostIfaces labHash labId (fun _ => true) ifaces :=
        mem_sweepPrefixed.mpr ⟨hi, hpre, hmatch, rfl⟩
      obtain ⟨o', ho', hlab⟩ := h.lab _ i hswept
      rw [howner] at ho'
      cases ho'
      exact hne hlab
  · intro h
    refine ⟨?_, ?_, ?_, ?_⟩
    · intro linkDel i hi
      obtain ⟨hmem, hpre, hmatch, _⟩ := mem_sweepPrefixed.mp hi
      exact h.owner hmem hpre hmatch
    · intro nodeId linkDel i hi
      obtain ⟨hmem, hpre, hmatch, _⟩ := mem_sweepPrefixed.mp hi
      obtain ⟨o, ho, hlab⟩ := h.owner hmem (nodePrefix_labPrefix hpre) hmatch
      rw [← i.name_eq ho] at hpre
      exact ⟨o, ho, hlab, (nodePrefix_isPrefix.mp hpre).2.symm⟩
    · exact fun linkDel i hi o ho => orphanIfaces_spare_known hi ho
    · exact fun bridgeDel b hb o ho => orphanBridges_spare_known hb ho

/-- Two labs of one hash: the sweep for the first deletes the TAP of the second. -/
theorem sweep_deletes_tap_of_colliding_lab :
    ∃ i : HostIface (fun _ => 0), i.owner = some ⟨"b", 1, 0, .tap⟩ ∧
      i ∈ sweepLabHostIfaces (fun _ => 0) "a" (fun _ => true) [i] ∧
      ¬ SweepsIsolated (fun _ => 0) ["a", "b"] [i] [] "a" := by
  have hnamed : ∀ o : IfaceOwner, some ⟨"b", 1, 0, .tap⟩ = some o →
      asserted (ifaceNameText o.kind 0 o.nodeId o.iface) = some "nve0000d1i0".toList := by
    intro o ho
    cases ho
    decide +kernel
  have hpre : (labPrefix 0).isPrefixOf "nve0000d1i0".toList = true := by decide +kernel
  have hmatch : matchesNveIface "nve0000d1i0".toList = true := by decide +kernel
  have hswept : (⟨_, _, hnamed⟩ : HostIface (fun _ => 0)) ∈
      sweepLabHostIfaces (fun _ => 0) "a" (fun _ => true) [⟨_, _, hnamed⟩] :=
    mem_sweepPrefixed.mpr ⟨List.mem_cons_self, hpre, hmatch, rfl⟩
  refine ⟨⟨_, _, hnamed⟩, rfl, hswept, ?_⟩
  intro h
  obtain ⟨o, ho, hlab⟩ := h.lab _ _ hswept
  cases ho
  revert hlab
  decide

end NovaVe
