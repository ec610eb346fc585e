import NovaVe.Texts
import NovaVe.Topology

namespace NovaVe

/-- An interface of a lab document; a v2 document has no `network_id`. -/
structure RawInterface where
  index : Option Int := none
  name : Option String := none
  networkId : Option Int := none
  plannedMac : Option String := none
  portPosition : Option String := none
deriving DecidableEq, Repr

/-- A node of a lab document; none is an interface that is no mapping. -/
structure RawNode where
  fields : Dict String String := Dict.empty
  interfaces : List (Option RawInterface) := []
deriving DecidableEq

structure RawNetwork where
  fields : Dict String String := Dict.empty
  type : String := ""
  visibility : Option Bool := none
  implicit : Option Bool := none
  config : Option NetworkConfig := none
  count : Option Int := none
deriving DecidableEq

/-- A `lab.json` of either schema, less the canvas data; none is an entry that is no mapping. -/
structure LabDocument where
  schema : Option Int := none
  id : String := ""
  labMeta : Dict String String := Dict.empty
  nodes : List (Int × Option RawNode) := []
  networks : List (Int × Option RawNetwork) := []
  topology : List (Option TopologyEntry) := []
  links : List Link := []
deriving DecidableEq

/-- `_migrate_network`. -/
def migrateNetwork (raw : RawNetwork) : RawNetwork :=
  { raw with
    type := if pyStrip raw.type = "bridge" then "linux_bridge" else raw.type
    visibility := some (raw.visibility.getD true)
    implicit := some (raw.implicit.getD false)
    config := some (raw.config.getD {})
    count := none }

/-- `_migrate_interfaces`: the index counts the interfaces that are skipped. -/
def migrateInterfaces (interfaces : List (Option RawInterface)) : List (Option RawInterface) :=
  interfaces.zipIdx.filterMap (fun entry => entry.1.map (fun interface =>
    some { index := some (entry.2 : Int), name := some (interface.name.getD ("eth" ++ toString entry.2)) }))

/-- `str(width or "1")`. -/
def defaultWidth (width : String) : String := if width = "" then "1" else width

/-- One round of `_topology_to_links`; the id counts the entries that are skipped. -/
def migratedLink (index : Nat) (entry : TopologyEntry) : Except RouteError (Option Link) := do
  let networkId ← intOrZero entry.networkId
  let metrics ← topologyMetrics entry
  match ← topologyEndpoints entry networkId with
  | none => .ok none
  | some (from_, to_) =>
    .ok (some { id := linkIdOf (index + 1), from_, to_, label := entry.label, color := entry.color
                width := defaultWidth entry.width, metrics })

/-- `_topology_to_links`, from the entry at the given index on. -/
def topologyToLinks (index : Nat) : List (Option TopologyEntry) → Except RouteError (List Link)
  | [] => .ok []
  | none :: rest => topologyToLinks (index + 1) rest
  | some entry :: rest => do
    let link ← migratedLink index entry
    let links ← topologyToLinks (index + 1) rest
    .ok (link.toList ++ links)

def migrateNode (node : RawNode) : RawNode :=
  { node with interfaces := migrateInterfaces node.interfaces }

/-- `migrate`. -/
def migrateLab (doc : LabDocument) : Except RouteError LabDocument :=
  if doc.schema = some 2 then .ok doc
  else do
    let links ← topologyToLinks 0 doc.topology
    .ok { schema := some 2, id := doc.id, labMeta := doc.labMeta, links := links
          nodes := doc.nodes.filterMap (fun entry => entry.2.map (fun node =>
            (entry.1, some (migrateNode node))))
          networks := doc.networks.filterMap (fun entry => entry.2.map (fun network =>
            (entry.1, some (migrateNetwork network)))) }

/-- The `topology` that `read_lab_json_static` derives from a document. -/
def legacyView (doc : LabDocument) : List TopologyEntry := doc.links.filterMap derivedEntry

/-- A link less its id. -/
def Link.withoutId (l : Link) : Link := { l with id := "" }

/-- The network id in `network<digits>`. -/
def topologyNetworkId (value : String) : Option Int :=
  match value.toList with
  | 'n' :: 'e' :: 't' :: 'w' :: 'o' :: 'r' :: 'k' :: tail =>
    (digitsNumber tail).map (fun (n : Nat) => (n : Int))
  | _ => none

/-- The endpoint that one side of an entry names; a side that names none is the entry's network. -/
def namedSide (text : String) (iface networkId : Int) : Option Endpoint :=
  match topologyNodeId text with
  | some nodeId => some (.node nodeId iface)
  | none => (topologyNetworkId text).elim
    (if networkId = 0 then none else some (.network networkId)) (fun n => some (.network n))

/-- What an entry of a legacy topology attaches. -/
structure Wiring where
  a : Endpoint
  b : Endpoint
  networkId : Int
  label : String
  color : String
  width : String
deriving DecidableEq, Repr

def Wiring.swap (x : Wiring) : Wiring :=
  { x with a := x.b, b := x.a }

/-- The same attachment, whichever end comes first. -/
def Wiring.Same (x y : Wiring) : Prop := x = y ∨ x = y.swap

/-- The attachment joins an interface and a network. -/
def Wiring.Joins (x : Wiring) (nodeId index networkId : Int) : Prop :=
  (x.a = .node nodeId index ∧ x.b = .network networkId) ∨
    (x.b = .node nodeId index ∧ x.a = .network networkId)

/-- `int(value or 0)`, or 0 when that raises. -/
def orZero (value : Option Scalar) : Int :=
  match intOrZero value with
  | .ok n => n
  | .error _ => 0

/-- The attachment in an entry with two ends, one of them a node at least. -/
def TopologyEntry.wiring (entry : TopologyEntry) : Option Wiring :=
  let networkId := orZero entry.networkId
  match namedSide entry.source (orZero entry.sourceInterfaceId) networkId,
      namedSide entry.destination (intElseZero entry.destinationInterfaceId) networkId with
  | some a, some b =>
    if a.network?.isSome ∧ b.network?.isSome then none
    else some { a, b, networkId, label := entry.label, color := entry.color
                width := defaultWidth entry.width }
  | _, _ => none

/-- The interfaces of a document that name a network. -/
def LabDocument.ifaceAttachments (doc : LabDocument) : List (Int × Int × Int) :=
  doc.nodes.flatMap (fun entry => (entry.2.map RawNode.interfaces).elim [] (fun interfaces =>
    interfaces.zipIdx.filterMap (fun found => (found.1.bind RawInterface.networkId).bind (fun networkId =>
      if networkId = 0 then none else some (entry.1, (found.2 : Int), networkId)))))

/-- A legacy view has what a v1 document attaches, and nothing else. -/
structure TopologyKept (doc : LabDocument) (view : List TopologyEntry) : Prop where
  entries : ∀ entry x, some entry ∈ doc.topology → entry.wiring = some x →
    ∃ seen ∈ view, ∃ y, seen.wiring = some y ∧ y.Same x
  interfaces : ∀ nodeId index networkId, (nodeId, index, networkId) ∈ doc.ifaceAttachments →
    ∃ seen ∈ view, ∃ y, seen.wiring = some y ∧ y.Joins nodeId index networkId
  nothingElse : ∀ seen ∈ view, ∃ y, seen.wiring = some y ∧
    ((∃ entry x, some entry ∈ doc.topology ∧ entry.wiring = some x ∧ y.Same x) ∨
      ∃ nodeId index networkId, (nodeId, index, networkId) ∈ doc.ifaceAttachments ∧
        y.Joins nodeId index networkId)

/-- Two nodes without a network, or a node on the network of the entry. -/
def Wiring.Consistent (x : Wiring) : Prop :=
  (x.a.network? = none ∧ x.b.network? = none ∧ x.networkId = 0) ∨
    (x.networkId ≠ 0 ∧ ((x.a.network? = none ∧ x.b = .network x.networkId) ∨
      (x.a = .network x.networkId ∧ x.b.network? = none)))

/-- The casts of a migration go through on an entry. -/
def EntryCasts (entry : TopologyEntry) : Prop :=
  ∃ networkId, intOrZero entry.networkId = .ok networkId ∧
    (∃ metrics, topologyMetrics entry = .ok metrics) ∧
      ∃ ends, topologyEndpoints entry networkId = .ok ends

/-- A document that a migration carries over whole. -/
structure Migratable (doc : LabDocument) : Prop where
  casts : ∀ entry, some entry ∈ doc.topology → EntryCasts entry
  consistent : ∀ entry x, some entry ∈ doc.topology → entry.wiring = some x → x.Consistent
  covered : ∀ nodeId index networkId, (nodeId, index, networkId) ∈ doc.ifaceAttachments →
    ∃ entry x, some entry ∈ doc.topology ∧ entry.wiring = some x ∧ x.Joins nodeId index networkId

theorem toList_toString_nat (n : Nat) : (toString (n : Int)).toList = Nat.toDigits 10 n := by
  have htext : toString (n : Int) = toString n := rfl
  rw [htext, Nat.toString_eq_repr, Nat.toList_repr]

/-- The label of a node is read back. -/
theorem topologyNodeId_nodeLabel {nodeId : Int} (h : 0 ≤ nodeId) :
    topologyNodeId (nodeLabel nodeId) = some nodeId := by
  obtain ⟨n, rfl⟩ := Int.eq_ofNat_of_zero_le h
  have hlist : (nodeLabel (n : Int)).toList = 'n' :: 'o' :: 'd' :: 'e' :: Nat.toDigits 10 n := by
    unfold nodeLabel
    rw [String.toList_append, toList_toString_nat]
    rfl
  unfold topologyNodeId
  rw [hlist]
  show (digitsNumber (Nat.toDigits 10 n)).map (fun (m : Nat) => (m : Int)) = some (n : Int)
  rw [digitsNumber_toDigits]
  rfl

theorem topologyNodeId_nonneg {value : String} {nodeId : Int} (h : topologyNodeId value = some nodeId) :
    0 ≤ nodeId := by
  unfold topologyNodeId at h
  split at h
  next =>
    obtain ⟨n, _, hn⟩ := Option.map_eq_some_iff.mp h
    omega
  next => cases h

theorem networkLabel_toList (networkId : Int) : ("network" ++ toString networkId).toList =
    'n' :: 'e' :: 't' :: 'w' :: 'o' :: 'r' :: 'k' :: (toString networkId).toList := by
  rw [String.toList_append]
  rfl

/-- The side that names the network of its entry. -/
theorem namedSide_networkLabel {networkId : Int} (h : networkId ≠ 0) (iface : Int) :
    namedSide ("network" ++ toString networkId) iface networkId = some (.network networkId) := by
  have hnode : topologyNodeId ("network" ++ toString networkId) = none := by
    unfold topologyNodeId
    rw [networkLabel_toList]
    rfl
  have hnetwork : topologyNetworkId ("network" ++ toString networkId) = none ∨
      topologyNetworkId ("network" ++ toString networkId) = some networkId := by
    unfold topologyNetworkId
    rw [networkLabel_toList]
    cases networkId with
    | ofNat n =>
      right
      have hlist := toList_toString_nat n
      have hcast : Int.ofNat n = (n : Int) := rfl
      rw [hcast, hlist]
      show (digitsNumber (Nat.toDigits 10 n)).map (fun (m : Nat) => (m : Int)) = some (n : Int)
      rw [digitsNumber_toDigits]
      rfl
    | negSucc n =>
      left
      have hhead : (toString (Int.negSucc n)).toList = '-' :: (toString (n + 1)).toList := by
        have htext : toString (Int.negSucc n) = "-" ++ toString (n + 1) := rfl
        rw [htext, String.toList_append]
        rfl
      rw [hhead]
      show (digitsNumber ('-' :: (toString (n + 1)).toList)).map (fun (m : Nat) => (m : Int)) = none
      rw [digitsNumber_sign]
      rfl
  unfold namedSide
  rw [hnode]
  rcases hnetwork with hnone | hsome
  · rw [hnone]
    dsimp only [Option.elim]
    rw [if_neg h]
  · rw [hsome]
    rfl

theorem defaultWidth_idem (width : String) : defaultWidth (defaultWidth width) = defaultWidth width := by
  unfold defaultWidth
  by_cases h : width = ""
  · rw [if_pos h]
    rfl
  · rw [if_neg h, if_neg h]

/-- The view entry of a link between two nodes. -/
theorem wiring_nodes {l : Link} {source sourceIface destination destinationIface : Int}
    (hfrom : l.from_ = .node source sourceIface) (hto : l.to_ = .node destination destinationIface)
    (hsource : 0 ≤ source) (hdestination : 0 ≤ destination) :
    ∃ seen, derivedEntry l = some seen ∧ seen.wiring =
      some ⟨.node source sourceIface, .node destination destinationIface, 0, l.label, l.color,
        defaultWidth l.width⟩ := by
  refine ⟨_, by unfold derivedEntry; rw [hfrom, hto], ?_⟩
  unfold TopologyEntry.wiring namedSide
  simp only [topologyNodeId_nodeLabel hsource, topologyNodeId_nodeLabel hdestination]
  rfl

/-- The view entry of a link from a node to a network. -/
theorem wiring_network {l : Link} {source sourceIface networkId : Int}
    (hfrom : l.from_ = .node source sourceIface) (hto : l.to_ = .network networkId)
    (hsource : 0 ≤ source) (hnetwork : networkId ≠ 0) :
    ∃ seen, derivedEntry l = some seen ∧ seen.wiring =
      some ⟨.node source sourceIface, .network networkId, networkId, l.label, l.color,
        defaultWidth l.width⟩ := by
  refine ⟨_, by unfold derivedEntry; rw [hfrom, hto], ?_⟩
  unfold TopologyEntry.wiring
  have hside : namedSide (nodeLabel source) (orZero (some (.num sourceIface)))
      (orZero (some (.num networkId))) = some (.node source sourceIface) := by
    unfold namedSide
    rw [topologyNodeId_nodeLabel hsource]
    rfl
  have hother : namedSide ("network" ++ toString networkId) (intElseZero (some (.text "network")))
      (orZero (some (.num networkId))) = some (.network networkId) :=
    namedSide_networkLabel hnetwork _
  simp only [hside, hother]
  rfl

end NovaVe
