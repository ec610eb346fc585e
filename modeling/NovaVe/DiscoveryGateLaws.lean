import NovaVe.Discovery
import NovaVe.DiscoveryGate

namespace NovaVe

variable {h : Fin 65536} {data : Lab} {started : List String} {lab : String}

theorem mem_kernelMembers_iff {members : String → List (List Char)} {iface : List Char} :
    iface ∈ kernelMembers h members data ↔
      ∃ scanned ∈ scannedBridges h data, iface ∈ members scanned.2 := by
  unfold kernelMembers
  rw [List.mem_flatMap]

theorem networks_of_scanned {scanned : Int × String} (hscanned : scanned ∈ scannedBridges h data) :
    data.networks.entries ≠ [] := by
  intro hnil
  unfold scannedBridges at hscanned
  rw [hnil] at hscanned
  cases hscanned

theorem discoverLab_of_networks {members : String → List (List Char)} {generation : Nat}
    (hnetworks : data.networks.entries ≠ []) :
    discoverLab h members generation data =
      (scannedBridges h data).flatMap
          (discoveredOn (declaredIfaceSet h data) members generation) ++
        data.links.filterMap (divergentEvent h (kernelMembers h members data) generation) := by
  have hempty : ¬data.networks.entries.isEmpty = true := by
    intro hnil
    exact hnetworks (List.isEmpty_iff.mp hnil)
  unfold discoverLab
  rw [if_neg hempty]

/-- A member of a bridge is reported exactly when it is not declared. -/
theorem discovered_iff {members : String → List (List Char)} {generation : Nat}
    {scanned : Int × String} (hscanned : scanned ∈ scannedBridges h data) {iface : List Char}
    (hmember : iface ∈ members scanned.2) :
    (∃ peer, .discoveredLink scanned.1 scanned.2 iface peer generation ∈
      discoverLab h members generation data) ↔ iface ∉ declaredIfaceSet h data := by
  rw [discoverLab_of_networks (networks_of_scanned hscanned)]
  constructor
  · intro hevent
    obtain ⟨peer, hmem⟩ := hevent
    rcases List.mem_append.mp hmem with hbridges | hlinks
    · obtain ⟨other, _, hon⟩ := List.mem_flatMap.mp hbridges
      obtain ⟨name, _, hnot, heq⟩ := mem_discoveredOn_iff.mp hon
      obtain ⟨_, _, hiface, _, _⟩ := DiscoveryEvent.discoveredLink.inj heq
      rw [hiface]
      exact hnot
    · obtain ⟨l, _, hl⟩ := List.mem_filterMap.mp hlinks
      have heq := divergentEvent_cases hl
      cases heq
  · intro hnot
    refine ⟨parseIfaceNodeId iface, List.mem_append.mpr (Or.inl ?_)⟩
    apply List.mem_flatMap.mpr
    exact ⟨scanned, hscanned, mem_discoveredOn_iff.mpr ⟨iface, hmember, hnot, rfl⟩⟩

/-- A link is reported exactly when its `from` end is absent and can be named. -/
theorem divergent_iff {members : String → List (List Char)} {generation : Nat} {l : Link}
    (hl : l ∈ data.links) :
    .linkDivergent l generation ∈ discoverLab h members generation data ↔
      data.networks.entries ≠ [] ∧ l.id ≠ "" ∧
        ∃ nodeId index, l.from_ = .node nodeId index ∧ NamesFit h nodeId index ∧
          NamesAbsent h members data nodeId index := by
  by_cases hnetworks : data.networks.entries = []
  · constructor
    · intro hevent
      unfold discoverLab at hevent
      rw [hnetworks] at hevent
      cases hevent
    · intro hmade
      exact absurd hnetworks hmade.1
  · rw [discoverLab_of_networks hnetworks]
    constructor
    · intro hevent
      rcases List.mem_append.mp hevent with hbridges | hlinks
      · obtain ⟨scanned, _, hon⟩ := List.mem_flatMap.mp hbridges
        obtain ⟨_, _, _, heq⟩ := mem_discoveredOn_iff.mp hon
        cases heq
      · obtain ⟨other, _, hother⟩ := List.mem_filterMap.mp hlinks
        have heq := divergentEvent_cases hother
        cases heq
        obtain ⟨hid, hfrom⟩ := divergentEvent_iff.mp hother
        exact ⟨hnetworks, hid, hfrom⟩
    · intro hmade
      obtain ⟨_, hid, hfrom⟩ := hmade
      apply List.mem_append.mpr
      right
      exact List.mem_filterMap.mpr ⟨l, hl, divergentEvent_iff.mpr ⟨hid, hfrom⟩⟩

theorem WiresName.of_declared {iface : List Char} (hdeclared : iface ∈ declaredIfaceSet h data) :
    WiresName h data iface := by
  obtain ⟨l, hl, nodeId, index, hfrom, _, hname⟩ := (mem_declaredIfaceSet_iff h data iface).mp hdeclared
  refine ⟨l, hl, nodeId, index, ?_, hname⟩
  rw [← hfrom]
  exact List.mem_cons_self

/-- An interface that is not absent has a name on some bridge. -/
theorem member_of_not_absent {members : String → List (List Char)} {nodeId index : Int}
    (hthere : ¬NamesAbsent h members data nodeId index) :
    ∃ iface ∈ kernelMembers h members data,
      iface = tapName h nodeId index ∨ iface = vethHostName h nodeId index := by
  by_cases htap : tapName h nodeId index ∈ kernelMembers h members data
  · exact ⟨_, htap, Or.inl rfl⟩
  · by_cases hveth : vethHostName h nodeId index ∈ kernelMembers h members data
    · exact ⟨_, hveth, Or.inr rfl⟩
    · exact absurd ⟨htap, hveth⟩ hthere

/-- A cycle is exact exactly when the `from` ends tell: no wired interface on a bridge is wired by
`to` ends only or has too long a name, and no absence shows at a `to` end only, at a name that is
too long, at a link without an id or in a lab without networks. -/
theorem discovery_exact_iff (h : Fin 65536) (members : String → List (List Char))
    (generation : Nat) (data : Lab) :
    DiscoveryExact h members generation data ↔ FromEndsTell h members data := by
  constructor
  · intro hexact
    refine ⟨?_, ?_⟩
    · intro l hl nodeId index hend hthere
      obtain ⟨iface, hmember, hname⟩ := member_of_not_absent hthere
      obtain ⟨scanned, hscanned, hon⟩ := mem_kernelMembers_iff.mp hmember
      have hwires : WiresName h data iface := ⟨l, hl, nodeId, index, hend, hname⟩
      have hdeclared : iface ∈ declaredIfaceSet h data := by
        by_contra hnot
        exact (hexact.discovered scanned hscanned iface hon).mp
          ((discovered_iff hscanned hon).mpr hnot) hwires
      obtain ⟨other, hother, otherNode, otherIndex, hfrom, hfit, hnames⟩ :=
        (mem_declaredIfaceSet_iff h data iface).mp hdeclared
      obtain ⟨hnode, hindex⟩ := name_owner hname hnames
      subst hnode
      subst hindex
      exact ⟨hfit, other, hother, hfrom⟩
    · intro l hl hdiverges
      exact (divergent_iff hl).mp ((hexact.divergent l hl).mpr hdiverges)
  · intro htell
    refine ⟨?_, ?_⟩
    · intro scanned hscanned iface hon
      rw [discovered_iff hscanned hon]
      constructor
      · intro hnot hwires
        obtain ⟨l, hl, nodeId, index, hend, hname⟩ := hwires
        have hmember := mem_kernelMembers_iff.mpr ⟨scanned, hscanned, hon⟩
        have hthere : ¬NamesAbsent h members data nodeId index := by
          intro habsent
          rcases hname with heq | heq
          · rw [heq] at hmember
            exact habsent.1 hmember
          · rw [heq] at hmember
            exact habsent.2 hmember
        obtain ⟨hfit, other, hother, hfrom⟩ := htell.wired l hl nodeId index hend hthere
        exact hnot ((mem_declaredIfaceSet_iff h data iface).mpr
          ⟨other, hother, nodeId, index, hfrom, hfit, hname⟩)
      · intro hunwired hdeclared
        exact hunwired (WiresName.of_declared hdeclared)
    · intro l hl
      rw [divergent_iff hl]
      constructor
      · intro hreported
        obtain ⟨_, _, nodeId, index, hfrom, _, habsent⟩ := hreported
        refine ⟨nodeId, index, ?_, habsent⟩
        rw [← hfrom]
        exact List.mem_cons_self
      · intro hdiverges
        exact htell.absent l hl hdiverges

/-- Node 1 is linked to network 1, from the node's end. -/
def fromNodeLab : Lab :=
  { id := "lab", networks := Dict.empty.set 1 { id := 1, name := "lan" }
    links := [{ id := "lnk_001", from_ := .node 1 0, to_ := .network 1 }] }

/-- The same link from the network's end. -/
def fromNetworkLab : Lab :=
  { fromNodeLab with links := [{ id := "lnk_001", from_ := .network 1, to_ := .node 1 0 }] }

/-- With the link from the network's end, the TAP of the node is reported while it is there, and
the link is not reported while it is gone. -/
theorem network_end_misreported :
    ¬(∀ (h : Fin 65536) (members : String → List (List Char)) (generation : Nat) (data : Lab),
      ∀ scanned ∈ scannedBridges h data, ∀ iface ∈ members scanned.2,
        ((∃ peer, .discoveredLink scanned.1 scanned.2 iface peer generation ∈
          discoverLab h members generation data) ↔ ¬WiresName h data iface)) ∧
    ¬(∀ (h : Fin 65536) (members : String → List (List Char)) (generation : Nat) (data : Lab),
      ∀ l ∈ data.links, (.linkDivergent l generation ∈ discoverLab h members generation data ↔
        Diverges h members data l)) := by
  constructor
  · intro hall
    have hiff := hall 0x12ab (fun _ => [tapName 0x12ab 1 0]) 1 fromNetworkLab (1, "nove12abn1")
      (by decide) (tapName 0x12ab 1 0) List.mem_cons_self
    refine hiff.mp ⟨some 1, by decide⟩ ?_
    exact ⟨_, List.mem_cons_self, 1, 0, by decide, Or.inl rfl⟩
  · intro hall
    have hiff := hall 0x12ab (fun _ => []) 1 fromNetworkLab _ List.mem_cons_self
    have hreported := hiff.mpr ⟨1, 0, by decide, by decide, by decide⟩
    exact absurd hreported (by decide)

/-- The occurrences of `x` up to its place `n` are among the first `taken` just when `n` is. -/
theorem count_take_le_iff {α : Type} [DecidableEq α] {xs : List α} {n taken : Nat} {x : α}
    (h : xs[n]? = some x) :
    (xs.take (n + 1)).count x ≤ (xs.take taken).count x ↔ n < taken := by
  have hnext : (xs.take (n + 1)).count x = (xs.take n).count x + 1 := by
    rw [List.take_add_one, h, List.count_append]
    simp
  constructor
  · intro hle
    by_cases hlt : n < taken
    · exact hlt
    · have hsub : (xs.take taken).count x ≤ (xs.take n).count x :=
        (List.take_prefix_take_left (by omega)).sublist.count_le x
      omega
  · intro hlt
    exact (List.take_prefix_take_left (by omega)).sublist.count_le x

/-- An event of a cycle of the lab `key` carries the count of the cycles of the lab so far. -/
def LabPayload.Lawful (started : List String) (key : String) : LabPayload → Prop
  | .discovery number event =>
    started[number]? = some key ∧
      event.generation = (started.take (number + 1)).count key ∧ event.Named
  | .other => True

/-- A snapshot carries the count of the cycles of the lab that had started. -/
def GateFrame.Lawful (started : List String) (lab : String) : GateFrame → Prop
  | .event e => e.payload.Lawful started lab
  | .topology _ generation taken =>
    taken ≤ started.length ∧ generation = (started.take taken).count lab
  | _ => True

structure GateConn.Lawful (started : List String) (lab : String) (c : GateConn) : Prop where
  replayed : ∀ events, c.phase = .replaying events → ∀ e ∈ events, e.payload.Lawful started lab
  pending : ∀ e ∈ c.pending, e.payload.Lawful started lab
  wire : ∀ frame ∈ c.wire, frame.Lawful started lab

/-- What the client keeps of the snapshot it applied last, and of the events after it. -/
structure LabWsStores.Lawful (started : List String) (lab : String) (client : LabWsStores) :
    Prop where
  bound : ∀ taken, client.taken = some taken → taken ≤ started.length
  gate : ∀ taken, client.taken = some taken →
    client.lastTopologyGeneration = (started.take taken).count lab
  fresh : ∀ taken, client.taken = some taken → ∀ key record number,
    client.linkReconciliation.get? key = some (record, number) →
      started[number]? = some lab ∧ taken ≤ number

theorem LabPayload.Lawful.append {key : String} {payload : LabPayload}
    (h : payload.Lawful started key) (more : List String) :
    payload.Lawful (started ++ more) key := by
  cases payload with
  | other => trivial
  | discovery number event =>
    obtain ⟨hget, hgeneration, hnamed⟩ := h
    have hlt : number < started.length := (List.getElem?_eq_some_iff.mp hget).1
    refine ⟨?_, ?_, hnamed⟩
    · rw [List.getElem?_append_left hlt]
      exact hget
    · rw [List.take_append_of_le_length (by omega)]
      exact hgeneration

theorem GateFrame.Lawful.append {frame : GateFrame} (h : frame.Lawful started lab)
    (more : List String) : frame.Lawful (started ++ more) lab := by
  cases frame with
  | hello seq => trivial
  | forceResnapshot => trivial
  | event e => exact LabPayload.Lawful.append h more
  | topology seq generation taken =>
    obtain ⟨hle, hgeneration⟩ := h
    refine ⟨?_, ?_⟩
    · rw [List.length_append]
      omega
    · rw [List.take_append_of_le_length hle]
      exact hgeneration

theorem GateConn.Lawful.append {c : GateConn} (h : c.Lawful started lab) (more : List String) :
    c.Lawful (started ++ more) lab where
  replayed events hphase e he := (h.replayed events hphase e he).append more
  pending e he := (h.pending e he).append more
  wire frame hframe := (h.wire frame hframe).append more

theorem LabWsStores.Lawful.append {client : LabWsStores} (h : client.Lawful started lab)
    (more : List String) :
    client.Lawful (started ++ more) lab where
  bound taken htaken := by
    have hle := h.bound taken htaken
    rw [List.length_append]
    omega
  gate taken htaken := by
    rw [List.take_append_of_le_length (h.bound taken htaken)]
    exact h.gate taken htaken
  fresh taken htaken key record number hget := by
    obtain ⟨hstarted, hle⟩ := h.fresh taken htaken key record number hget
    have hlt : number < started.length := (List.getElem?_eq_some_iff.mp hstarted).1
    refine ⟨?_, hle⟩
    rw [List.getElem?_append_left hlt]
    exact hstarted

/-- An event that names something is stored unless the gate stops it. -/
theorem LabWsStores.reconcile_eq {event : DiscoveryEvent} (hnamed : event.Named)
    (client : LabWsStores) (cycle : Nat) :
    client.reconcile cycle event =
      client.storeReconciliation event.generation event.key (event.record, cycle) := by
  cases event with
  | discoveredLink networkId bridge iface peerNodeId generation => exact if_neg hnamed
  | linkDivergent l generation => exact if_neg hnamed

theorem LabWsStores.Lawful.storeReconciliation {client : LabWsStores}
    (h : client.Lawful started lab) {number generation : Nat}
    (hstarted : started[number]? = some lab)
    (hgeneration : generation = (started.take (number + 1)).count lab) (key : String)
    (record : LinkReconciliation) :
    (client.storeReconciliation generation key (record, number)).Lawful started lab := by
  unfold LabWsStores.storeReconciliation
  split
  next => exact h
  next hpass =>
    refine { bound := h.bound, gate := h.gate, fresh := ?_ }
    intro taken htaken key' record' number' hget
    dsimp only at htaken hget
    rw [Dict.get?_set] at hget
    split at hget
    next =>
      cases hget
      refine ⟨hstarted, ?_⟩
      have hgate := h.gate taken htaken
      have hiff := @count_take_le_iff String _ started number taken lab hstarted
      omega
    next => exact h.fresh taken htaken key' record' number' hget

theorem LabWsStores.Lawful.handleMessage {client : LabWsStores} {frame : GateFrame}
    (h : client.Lawful started lab) (hframe : frame.Lawful started lab) :
    (client.handleMessage frame).Lawful started lab := by
  have hseen : ∀ seq, ({ client with lastSeq := seq } : LabWsStores).Lawful started lab := by
    intro seq
    exact { bound := h.bound, gate := h.gate, fresh := h.fresh }
  cases frame with
  | hello seq => exact hseen seq
  | forceResnapshot => exact h
  | event e =>
    unfold LabWsStores.handleMessage
    dsimp only
    have hlaw : e.payload.Lawful started lab := hframe
    cases hpayload : e.payload with
    | other => exact hseen e.seq
    | discovery number event =>
      rw [hpayload] at hlaw
      obtain ⟨hstarted, hgeneration, hnamed⟩ := hlaw
      dsimp only
      rw [LabWsStores.reconcile_eq hnamed]
      exact (hseen e.seq).storeReconciliation hstarted hgeneration _ _
  | topology seq generation taken =>
    obtain ⟨hle, hgeneration⟩ := hframe
    refine { bound := ?_, gate := ?_, fresh := ?_ }
    · intro taken' htaken
      cases htaken
      exact hle
    · intro taken' htaken
      cases htaken
      show (generation : Int) = _
      rw [hgeneration]
    · intro taken' htaken key record number hget
      cases hget

theorem LabWsStores.Lawful.deleteReconciliation {client : LabWsStores}
    (h : client.Lawful started lab) (key : String) :
    (client.deleteReconciliation key).Lawful started lab := by
  refine { bound := h.bound, gate := h.gate, fresh := ?_ }
  intro taken htaken key' record number hget
  unfold LabWsStores.deleteReconciliation at hget
  dsimp only at hget
  rw [Dict.get?_pop] at hget
  split at hget
  next => cases hget
  next => exact h.fresh taken htaken key' record number hget

theorem GateConn.Lawful.owe {c : GateConn} {event : WsEvent LabPayload} (h : c.Lawful started lab)
    (hevent : event.payload.Lawful started lab) : (c.owe event).Lawful started lab := by
  unfold GateConn.owe
  split
  next =>
    refine { replayed := h.replayed, pending := ?_, wire := h.wire }
    intro e he
    rcases List.mem_append.mp he with hold | hnew
    · exact h.pending e hold
    · rw [List.mem_singleton.mp hnew]
      exact hevent
  next => exact h

end NovaVe
