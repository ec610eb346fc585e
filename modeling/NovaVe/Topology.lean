import NovaVe.Nodes

namespace NovaVe

/-- A JSON value where the code expects an integer. -/
inductive Scalar
  | num (n : Int)
  | text (s : String)
deriving DecidableEq, Repr

/-- `int(value or 0)`. -/
def intOrZero : Option Scalar → Except RouteError Int
  | none => .ok 0
  | some (.num n) => .ok n
  | some (.text s) =>
    if s = "" then .ok 0
    else match pyInt s with
      | none => .error .raised
      | some n => .ok n

/-- `int(value)`, or 0 when that raises. -/
def intElseZero : Option Scalar → Int
  | none => 0
  | some (.num n) => n
  | some (.text s) => (pyInt s).getD 0

structure TopologyEntry where
  id : Option String := none
  source : String := ""
  destination : String := ""
  sourceInterfaceId : Option Scalar := none
  destinationInterfaceId : Option Scalar := none
  networkId : Option Scalar := none
  label : String := ""
  color : String := ""
  width : String := "1"
  sourceDelay : Option Scalar := none
  sourceLoss : Option Scalar := none
  sourceBandwidth : Option Scalar := none
  sourceJitter : Option Scalar := none
deriving DecidableEq, Repr

/-- The node id in `node<digits>`. -/
def topologyNodeId (value : String) : Option Int :=
  match value.toList with
  | 'n' :: 'o' :: 'd' :: 'e' :: tail => (digitsNumber tail).map (fun (n : Nat) => (n : Int))
  | _ => none

def nodeLabel (nodeId : Int) : String := "node" ++ toString nodeId

def topologyMetrics (entry : TopologyEntry) : Except RouteError LinkMetrics := do
  let delayMs ← intOrZero entry.sourceDelay
  let lossPct ← intOrZero entry.sourceLoss
  let bandwidthKbps ← intOrZero entry.sourceBandwidth
  let jitterMs ← intOrZero entry.sourceJitter
  .ok { delayMs, lossPct, bandwidthKbps, jitterMs }

/-- The endpoints of one legacy entry, if it has any. -/
def topologyEndpoints (entry : TopologyEntry) (networkId : Int) :
    Except RouteError (Option (Endpoint × Endpoint)) := do
  match topologyNodeId entry.source, topologyNodeId entry.destination with
  | some source, some destination =>
    let sourceIface ← intOrZero entry.sourceInterfaceId
    if networkId = 0 then
      .ok (some (.node source sourceIface,
        .node destination (intElseZero entry.destinationInterfaceId)))
    else .ok (some (.node source sourceIface, .network networkId))
  | some source, none =>
    if networkId = 0 then .ok none
    else
      let sourceIface ← intOrZero entry.sourceInterfaceId
      .ok (some (.node source sourceIface, .network networkId))
  | none, some destination =>
    if networkId = 0 then .ok none
    else .ok (some (.node destination (intElseZero entry.destinationInterfaceId),
      .network networkId))
  | none, none => .ok none

def topologyLink (index : Nat) (entry : TopologyEntry) : Except RouteError (Option Link) := do
  let networkId ← intOrZero entry.networkId
  let metrics ← topologyMetrics entry
  match ← topologyEndpoints entry networkId with
  | none => .ok none
  | some (from_, to_) =>
    let id := match entry.id with
      | none => linkIdOf (index + 1)
      | some id => if id = "" then linkIdOf (index + 1) else id
    .ok (some { id, from_, to_, label := entry.label, color := entry.color
                width := if entry.width = "" then "1" else entry.width, metrics })

/-- `_legacy_topology_to_links`, from the entry at the given index on. -/
def legacyTopologyToLinks (index : Nat) : List TopologyEntry → Except RouteError (List Link)
  | [] => .ok []
  | entry :: rest => do
    let link ← topologyLink index entry
    let links ← legacyTopologyToLinks (index + 1) rest
    .ok (link.toList ++ links)

/-- `write_lab_json_static`: links are made from `topology` only where there are none. -/
def writeLabJson (data : Lab) (topology : Option (List TopologyEntry)) : Except RouteError Lab :=
  match topology, data.links with
  | some entries, [] => do
    let links ← legacyTopologyToLinks 0 entries
    .ok { data with links := links }
  | _, _ => .ok data

/-- One entry of `_derive_legacy_topology`; a link between two networks has none. -/
def derivedEntry (l : Link) : Option TopologyEntry :=
  match l.from_, l.to_ with
  | .node source sourceIface, .node destination destinationIface =>
    some { source := nodeLabel source, destination := nodeLabel destination
           sourceInterfaceId := some (.num sourceIface)
           destinationInterfaceId := some (.num destinationIface), networkId := some (.num 0)
           label := l.label, color := l.color, width := l.width }
  | .node source sourceIface, .network networkId
  | .network networkId, .node source sourceIface =>
    some { source := nodeLabel source, destination := "network" ++ toString networkId
           sourceInterfaceId := some (.num sourceIface)
           destinationInterfaceId := some (.text "network"), networkId := some (.num networkId)
           label := l.label, color := l.color, width := l.width }
  | .network _, .network _ => none

/-- The `topology` that `read_lab_json_static` adds to what it returns. -/
def deriveLegacyTopology (data : Lab) : List TopologyEntry :=
  data.links.filterMap derivedEntry

structure NodePatch where
  id : Option Int := none
  name : Option String := none
  type : Option NodeType := none
  template : Option String := none
  image : Option String := none
  console : Option String := none
  status : Option Int := none
  delay : Option Int := none
  cpu : Option Int := none
  ram : Option Int := none
  ethernet : Option Int := none
  firstmac : Option String := none
  left : Option Int := none
  top : Option Int := none
  icon : Option String := none
  config : Option String := none
  extras : Option (Dict String String) := none
  interfaceNamingScheme : Option String := none
  interfaces : Option (List Iface) := none
deriving DecidableEq

/-- The layout fields `PUT /topology` may set on a network. -/
structure NetworkPatch where
  name : Option String := none
  left : Option Int := none
  top : Option Int := none
  icon : Option String := none
  visibility : Option Bool := none
deriving DecidableEq, Repr

/-- The body of `PUT /topology`; a bare list is a body with only `topology`. -/
structure TopologyPayload where
  topology : Option (List TopologyEntry) := none
  nodes : List (Int × NodePatch) := []
  networks : List (Int × NetworkPatch) := []
deriving DecidableEq

def applyNodePatch (node : Node) (patch : NodePatch) : Node :=
  { node with
    id := patch.id.getD node.id
    name := patch.name.getD node.name
    type := patch.type.getD node.type
    template := patch.template.getD node.template
    image := patch.image.getD node.image
    console := patch.console.getD node.console
    status := patch.status.getD node.status
    delay := patch.delay.getD node.delay
    cpu := patch.cpu.getD node.cpu
    ram := patch.ram.getD node.ram
    ethernet := patch.ethernet.getD node.ethernet
    firstmac := patch.firstmac <|> node.firstmac
    left := patch.left.getD node.left
    top := patch.top.getD node.top
    icon := patch.icon.getD node.icon
    config := patch.config <|> node.config
    extras := patch.extras.getD node.extras
    interfaceNamingScheme := patch.interfaceNamingScheme <|> node.interfaceNamingScheme
    interfaces := patch.interfaces.getD node.interfaces }

def applyNetworkLayout (network : Network) (patch : NetworkPatch) : Network :=
  { network with
    name := patch.name.getD network.name
    left := patch.left.getD network.left
    top := patch.top.getD network.top
    icon := patch.icon.getD network.icon
    visibility := patch.visibility.getD network.visibility }

/-- One patch for a key that is there; a key that is not there is skipped. -/
def patchEntry {α β : Type} (apply : α → β → α) (records : Dict Int α) (patch : Int × β) :
    Dict Int α :=
  match records.get? patch.1 with
  | none => records
  | some record => records.set patch.1 (apply record patch.2)

def updateTopology (data : Lab) (payload : TopologyPayload) : Except RouteError Lab :=
  writeLabJson
    { data with
      nodes := payload.nodes.foldl (patchEntry applyNodePatch) data.nodes
      networks := payload.networks.foldl (patchEntry applyNetworkLayout) data.networks }
    (some (payload.topology.getD (deriveLegacyTopology data)))

theorem patchEntry_get? {α β : Type} (apply : α → β → α) (records : Dict Int α) (patch : Int × β)
    (k : Int) :
    (patchEntry apply records patch).get? k =
      if patch.1 = k then (records.get? k).map (fun record => apply record patch.2)
      else records.get? k := by
  unfold patchEntry
  by_cases hk : patch.1 = k
  · subst hk
    cases hr : records.get? patch.1 <;> simp [hr]
  · cases hr : records.get? patch.1 <;> simp [hk, Dict.get?_set_ne]

end NovaVe
