import NovaVe.NameCodec

namespace NovaVe

/-- The names of the host ends of a node interface: the veth of a container, the TAP of a VM. -/
def vethHostName (h : Fin 65536) (nodeId iface : Int) : List Char :=
  ifaceNameText .vethHost h nodeId iface

def tapName (h : Fin 65536) (nodeId iface : Int) : List Char := ifaceNameText .tap h nodeId iface

/-- The names `_declared_iface_set` takes from the `from` end of a link: none when the builder of
the veth name refuses, both otherwise. -/
def declaredNames (h : Fin 65536) : Endpoint → List (List Char)
  | .network _ => []
  | .node nodeId iface =>
    match asserted (vethHostName h nodeId iface) with
    | none => []
    | some veth => veth :: (asserted (tapName h nodeId iface)).toList

/-- `_declared_iface_set`. -/
def declaredIfaceSet (h : Fin 65536) (data : Lab) : List (List Char) :=
  data.links.flatMap (fun l => declaredNames h l.from_)

/-- The bridge of a network: the stored one, or the derived one where none is stored. -/
def discoveredBridge (h : Fin 65536) (networkId : Int) (network : Network) : Option String :=
  let stored := network.runtime.bridgeName.getD ""
  if stored = "" then (asserted (bridgeNameText h networkId)).map String.ofList else some stored

/-- The networks whose bridges a cycle goes over. -/
def scannedBridges (h : Fin 65536) (data : Lab) : List (Int × String) :=
  data.networks.entries.filterMap (fun entry =>
    (discoveredBridge h entry.1 entry.2).map (fun bridge => (entry.1, bridge)))

/-- An event of a cycle; that of a divergent link names it by its id. -/
inductive DiscoveryEvent
  | discoveredLink (networkId : Int) (bridge : String) (iface : List Char)
      (peerNodeId : Option Int) (generation : Nat)
  | linkDivergent (link : Link) (generation : Nat)
deriving DecidableEq, Repr

/-- The events for the members of one bridge. -/
def discoveredOn (declared : List (List Char)) (members : String → List (List Char))
    (generation : Nat) (scanned : Int × String) : List DiscoveryEvent :=
  ((members scanned.2).filter (fun iface => !declared.contains iface)).map (fun iface =>
    .discoveredLink scanned.1 scanned.2 iface (parseIfaceNodeId iface) generation)

/-- One round of `_publish_divergent_links`, which looks at the `from` end only. -/
def divergentEvent (h : Fin 65536) (kernelMembers : List (List Char)) (generation : Nat)
    (l : Link) : Option DiscoveryEvent :=
  if l.id = "" then none
  else
    match l.from_ with
    | .network _ => none
    | .node nodeId iface =>
      match asserted (vethHostName h nodeId iface), asserted (tapName h nodeId iface) with
      | some veth, some tap =>
        if kernelMembers.contains veth || kernelMembers.contains tap then none
        else some (.linkDivergent l generation)
      | _, _ => none

/-- The members of all the bridges of a lab. -/
def kernelMembers (h : Fin 65536) (members : String → List (List Char)) (data : Lab) :
    List (List Char) :=
  (scannedBridges h data).flatMap (fun scanned => members scanned.2)

/-- The events of `_discover_lab` in the order they are published; `members` is what
`_bridge_members_sync` returns for a bridge. -/
def discoverLab (h : Fin 65536) (members : String → List (List Char)) (generation : Nat)
    (data : Lab) : List DiscoveryEvent :=
  if data.networks.entries.isEmpty then []
  else
    (scannedBridges h data).flatMap (discoveredOn (declaredIfaceSet h data) members generation) ++
      data.links.filterMap (divergentEvent h (kernelMembers h members data) generation)

/-- A link with an end on the node interface that the name belongs to. -/
def WiresName (h : Fin 65536) (data : Lab) (iface : List Char) : Prop :=
  ∃ l ∈ data.links, ∃ nodeId index, Endpoint.node nodeId index ∈ l.endpoints ∧
    (iface = tapName h nodeId index ∨ iface = vethHostName h nodeId index)

/-- Neither the TAP nor the veth of a node interface is on a bridge of the lab. -/
def NamesAbsent (h : Fin 65536) (members : String → List (List Char)) (data : Lab)
    (nodeId index : Int) : Prop :=
  tapName h nodeId index ∉ kernelMembers h members data ∧
    vethHostName h nodeId index ∉ kernelMembers h members data

/-- A link with a node end whose names are absent. -/
def Diverges (h : Fin 65536) (members : String → List (List Char)) (data : Lab) (l : Link) : Prop :=
  ∃ nodeId index, Endpoint.node nodeId index ∈ l.endpoints ∧
    NamesAbsent h members data nodeId index

/-- A cycle reports the members no link wires and the links that diverge, and no others. -/
structure DiscoveryExact (h : Fin 65536) (members : String → List (List Char)) (generation : Nat)
    (data : Lab) : Prop where
  discovered : ∀ scanned ∈ scannedBridges h data, ∀ iface ∈ members scanned.2,
    ((∃ peer, .discoveredLink scanned.1 scanned.2 iface peer generation ∈
      discoverLab h members generation data) ↔ ¬WiresName h data iface)
  divergent : ∀ l ∈ data.links,
    (.linkDivergent l generation ∈ discoverLab h members generation data ↔
      Diverges h members data l)

/-- Both names of the interface can be built. -/
def NamesFit (h : Fin 65536) (nodeId index : Int) : Prop := (vethHostName h nodeId index).length ≤ 14

/-- A wired interface that is on a bridge is the `from` end of a link and has names that can be
built; a link with an absent end has a `from` end that is absent and has such names, and an id, in
a lab with networks. -/
structure FromEndsTell (h : Fin 65536) (members : String → List (List Char)) (data : Lab) : Prop where
  wired : ∀ l ∈ data.links, ∀ nodeId index, Endpoint.node nodeId index ∈ l.endpoints →
    ¬NamesAbsent h members data nodeId index →
      NamesFit h nodeId index ∧ ∃ other ∈ data.links, other.from_ = .node nodeId index
  absent : ∀ l ∈ data.links, Diverges h members data l →
    data.networks.entries ≠ [] ∧ l.id ≠ "" ∧
      ∃ nodeId index, l.from_ = .node nodeId index ∧ NamesFit h nodeId index ∧
        NamesAbsent h members data nodeId index

theorem length_vethHostName (h : Fin 65536) (nodeId index : Int) :
    (vethHostName h nodeId index).length = (tapName h nodeId index).length + 1 := by
  unfold vethHostName tapName
  rw [length_ifaceNameText, length_ifaceNameText]
  rfl

theorem asserted_fit {name : List Char} (h : name.length ≤ 14) : asserted name = some name := by
  unfold asserted
  exact if_pos h

theorem asserted_long {name : List Char} (h : ¬name.length ≤ 14) : asserted name = none := by
  unfold asserted
  exact if_neg h

theorem NamesFit.asserted {h : Fin 65536} {nodeId index : Int} (hfit : NamesFit h nodeId index) :
    asserted (vethHostName h nodeId index) = some (vethHostName h nodeId index) ∧
      asserted (tapName h nodeId index) = some (tapName h nodeId index) := by
  have hlength := length_vethHostName h nodeId index
  unfold NamesFit at hfit
  exact ⟨asserted_fit hfit, asserted_fit (by omega)⟩

/-- The names of a `from` end are declared when they can be built. -/
theorem mem_declaredNames_iff (h : Fin 65536) (e : Endpoint) (iface : List Char) :
    iface ∈ declaredNames h e ↔ ∃ nodeId index, e = .node nodeId index ∧ NamesFit h nodeId index ∧
      (iface = tapName h nodeId index ∨ iface = vethHostName h nodeId index) := by
  cases e with
  | network networkId =>
    constructor
    · intro hmem
      cases hmem
    · intro hmade
      obtain ⟨nodeId, index, heq, _⟩ := hmade
      cases heq
  | node nodeId index =>
    unfold declaredNames
    dsimp only
    by_cases hfit : NamesFit h nodeId index
    · obtain ⟨hveth, htap⟩ := hfit.asserted
      rw [hveth, htap]
      simp only [Option.toList_some, List.mem_cons, List.not_mem_nil, or_false]
      constructor
      · intro hmem
        exact ⟨nodeId, index, rfl, hfit, hmem.symm⟩
      · intro hmade
        obtain ⟨_, _, heq, _, hname⟩ := hmade
        cases heq
        exact hname.symm
    · rw [asserted_long hfit]
      constructor
      · intro hmem
        cases hmem
      · intro hmade
        obtain ⟨_, _, heq, hfits, _⟩ := hmade
        cases heq
        exact absurd hfits hfit

theorem mem_declaredIfaceSet_iff (h : Fin 65536) (data : Lab) (iface : List Char) :
    iface ∈ declaredIfaceSet h data ↔ ∃ l ∈ data.links, ∃ nodeId index,
      l.from_ = .node nodeId index ∧ NamesFit h nodeId index ∧
        (iface = tapName h nodeId index ∨ iface = vethHostName h nodeId index) := by
  unfold declaredIfaceSet
  rw [List.mem_flatMap]
  constructor
  · intro hmem
    obtain ⟨l, hl, hname⟩ := hmem
    exact ⟨l, hl, (mem_declaredNames_iff h l.from_ iface).mp hname⟩
  · intro hmade
    obtain ⟨l, hl, hname⟩ := hmade
    exact ⟨l, hl, (mem_declaredNames_iff h l.from_ iface).mpr hname⟩

/-- A name belongs to one node interface. -/
theorem name_owner {h : Fin 65536} {nodeId index otherNode otherIndex : Int} {iface : List Char}
    (hname : iface = tapName h nodeId index ∨ iface = vethHostName h nodeId index)
    (hother : iface = tapName h otherNode otherIndex ∨
      iface = vethHostName h otherNode otherIndex) : nodeId = otherNode ∧ index = otherIndex := by
  have hsame : ∃ kind otherKind, ifaceNameText kind h nodeId index =
      ifaceNameText otherKind h otherNode otherIndex := by
    rcases hname with heq | heq
    · rcases hother with heq' | heq'
      · exact ⟨.tap, .tap, heq.symm.trans heq'⟩
      · exact ⟨.tap, .vethHost, heq.symm.trans heq'⟩
    · rcases hother with heq' | heq'
      · exact ⟨.vethHost, .tap, heq.symm.trans heq'⟩
      · exact ⟨.vethHost, .vethHost, heq.symm.trans heq'⟩
  obtain ⟨kind, otherKind, htext⟩ := hsame
  exact (ifaceNameText_distinct htext).2

theorem mem_discoveredOn_iff {declared : List (List Char)} {members : String → List (List Char)}
    {generation : Nat} {scanned : Int × String} {event : DiscoveryEvent} :
    event ∈ discoveredOn declared members generation scanned ↔
      ∃ iface ∈ members scanned.2, iface ∉ declared ∧
        event = .discoveredLink scanned.1 scanned.2 iface (parseIfaceNodeId iface) generation := by
  unfold discoveredOn
  rw [List.mem_map]
  constructor
  · intro hmem
    obtain ⟨iface, hfilter, heq⟩ := hmem
    obtain ⟨hmember, hnot⟩ := List.mem_filter.mp hfilter
    refine ⟨iface, hmember, ?_, heq.symm⟩
    intro hdeclared
    rw [List.contains_iff_mem.mpr hdeclared] at hnot
    cases hnot
  · intro hmade
    obtain ⟨iface, hmember, hnot, heq⟩ := hmade
    refine ⟨iface, List.mem_filter.mpr ⟨hmember, ?_⟩, heq.symm⟩
    cases hcontains : declared.contains iface with
    | true => exact absurd (List.contains_iff_mem.mp hcontains) hnot
    | false => rfl

theorem divergentEvent_iff {h : Fin 65536} {names : List (List Char)} {generation : Nat} {l : Link} :
    divergentEvent h names generation l = some (.linkDivergent l generation) ↔
      l.id ≠ "" ∧ ∃ nodeId index, l.from_ = .node nodeId index ∧ NamesFit h nodeId index ∧
        tapName h nodeId index ∉ names ∧ vethHostName h nodeId index ∉ names := by
  unfold divergentEvent
  by_cases hid : l.id = ""
  · rw [if_pos hid]
    constructor
    · intro hsome
      cases hsome
    · intro hmade
      exact absurd hid hmade.1
  · rw [if_neg hid]
    cases hfrom : l.from_ with
    | network networkId =>
      constructor
      · intro hsome
        cases hsome
      · intro hmade
        obtain ⟨_, _, _, heq, _⟩ := hmade
        cases heq
    | node nodeId index =>
      by_cases hfit : NamesFit h nodeId index
      · obtain ⟨hveth, htap⟩ := hfit.asserted
        dsimp only
        rw [hveth, htap]
        dsimp only
        by_cases hthere : (names.contains (vethHostName h nodeId index) ||
            names.contains (tapName h nodeId index)) = true
        · rw [if_pos hthere]
          constructor
          · intro hsome
            cases hsome
          · intro hmade
            obtain ⟨_, _, _, heq, _, hnotTap, hnotVeth⟩ := hmade
            cases heq
            rcases Bool.or_eq_true_iff.mp hthere with hin | hin
            · exact absurd (List.contains_iff_mem.mp hin) hnotVeth
            · exact absurd (List.contains_iff_mem.mp hin) hnotTap
        · rw [if_neg hthere]
          constructor
          · intro _
            refine ⟨hid, nodeId, index, rfl, hfit, ?_, ?_⟩
            · intro hin
              exact hthere (Bool.or_eq_true_iff.mpr (Or.inr (List.contains_iff_mem.mpr hin)))
            · intro hin
              exact hthere (Bool.or_eq_true_iff.mpr (Or.inl (List.contains_iff_mem.mpr hin)))
          · intro _
            rfl
      · dsimp only
        rw [asserted_long hfit]
        constructor
        · intro hsome
          cases hsome
        · intro hmade
          obtain ⟨_, _, _, heq, hfits, _⟩ := hmade
          cases heq
          exact absurd hfits hfit

theorem divergentEvent_cases {h : Fin 65536} {names : List (List Char)} {generation : Nat}
    {l : Link} {event : DiscoveryEvent} (hevent : divergentEvent h names generation l = some event) :
    event = .linkDivergent l generation := by
  unfold divergentEvent at hevent
  split at hevent
  next => cases hevent
  next =>
    split at hevent
    next => cases hevent
    next =>
      split at hevent
      next =>
        split at hevent
        next => cases hevent
        next =>
          cases hevent
          rfl
      next => cases hevent

end NovaVe
