import NovaVe.JsonValues

namespace NovaVe

/-- `data.get("links", []) or []`, each of which is read as a dictionary. -/
def linkRecords (py : PyValues) (data : Fields) : Option (List Fields) := do
  let items ← (fieldOrElse py data "links" (.arr [])).items?
  items.mapM JsonValue.fields?

/-- `link.get("from") or {}`. -/
def linkEnd (py : PyValues) (link : Fields) (side : String) : JsonValue :=
  (fieldOr link side .null).orElse py (.obj [])

/-- `nodes.get(str(endpoint.get("node_id"))) or {}`, read as a dictionary. -/
def nodeAt (py : PyValues) (nodes : JsonValue) (endpoint : Fields) : Option Fields := do
  let records ← nodes.fields?
  let key := (fieldOr endpoint "node_id" .null).shown py
  ((fieldOr records key .null).orElse py (.obj [])).fields?

/-- `int(fields.get(key, default))`. -/
def castField (py : PyValues) (fields : Fields) (key : String) (default : Int) : Option Int :=
  ((fieldOr fields key (.int default)).cast py).get?

/-- `str(fields.get(key, default) or default)`. -/
def textField (py : PyValues) (fields : Fields) (key default : String) : JsonValue :=
  .str ((fieldOrElse py fields key (.str default)).shown py)

/-- The entry of a link between two nodes in `_derive_legacy_topology`. -/
def nodeNodeEntry (py : PyValues) (nodes : JsonValue) (link source destination : Fields) :
    Option JsonValue := do
  let sourceNode ← nodeAt py nodes source
  let destinationNode ← nodeAt py nodes destination
  let sourceIface ← castField py source "interface_index" 0
  let destinationIface ← castField py destination "interface_index" 0
  some (.obj [("type", .str "ethernet"),
    ("source", .str ("node" ++ (fieldOr source "node_id" .null).shown py)),
    ("source_node_name", .str ((fieldOr sourceNode "name" (.str "")).shown py)),
    ("source_type", .str "node"), ("source_label", .str ""),
    ("source_interfaceId", .int sourceIface),
    ("destination", .str ("node" ++ (fieldOr destination "node_id" .null).shown py)),
    ("destination_node_name", .str ((fieldOr destinationNode "name" (.str "")).shown py)),
    ("destination_type", .str "node"), ("destination_label", .str ""),
    ("destination_interfaceId", .int destinationIface), ("network_id", .int 0),
    ("label", textField py link "label" ""), ("color", textField py link "color" ""),
    ("width", textField py link "width" "1")])

/-- The entry of a link between a node and a network. -/
def nodeNetworkEntry (py : PyValues) (nodes : JsonValue) (link node network : Fields) :
    Option JsonValue := do
  let sourceNode ← nodeAt py nodes node
  let networkId ← castField py network "network_id" 0
  let sourceIface ← castField py node "interface_index" 0
  some (.obj [("type", .str "ethernet"),
    ("source", .str ("node" ++ (fieldOr node "node_id" .null).shown py)),
    ("source_node_name", .str ((fieldOr sourceNode "name" (.str "")).shown py)),
    ("source_type", .str "node"), ("source_label", .str ""),
    ("source_interfaceId", .int sourceIface),
    ("destination", .str ("network" ++ toString networkId)),
    ("destination_node_name", .str ""), ("destination_type", .str "network"),
    ("destination_label", .str ""), ("destination_interfaceId", .str "network"),
    ("network_id", .int networkId),
    ("label", textField py link "label" ""), ("color", textField py link "color" ""),
    ("width", textField py link "width" "1")])

/-- One round of `_derive_legacy_topology`; a link of another shape has no entry. -/
def topologyEntry (py : PyValues) (nodes : JsonValue) (link : Fields) :
    Option (Option JsonValue) := do
  let a := linkEnd py link "from"
  let b := linkEnd py link "to"
  let aNode ← a.holds "node_id"
  let bNode ← if aNode then b.holds "node_id" else some false
  if bNode then
    let source ← a.fields?
    let destination ← b.fields?
    let entry ← nodeNodeEntry py nodes link source destination
    some (some entry)
  else
    let nodeEnd := if aNode then a else b
    let bNetwork ← b.holds "network_id"
    let networkEnd := if bNetwork then b else a
    let hasNode ← nodeEnd.holds "node_id"
    let hasNetwork ← if hasNode then networkEnd.holds "network_id" else some false
    if hasNetwork then
      let node ← nodeEnd.fields?
      let network ← networkEnd.fields?
      let entry ← nodeNetworkEntry py nodes link node network
      some (some entry)
    else some none

/-- `_derive_legacy_topology`. -/
def deriveTopology (py : PyValues) (data : Fields) : Option (List JsonValue) := do
  let links ← linkRecords py data
  let entries ← links.mapM (topologyEntry py (fieldOrElse py data "nodes" (.obj [])))
  some (entries.filterMap id)

/-- `interface["network_id"] = network_id`, where the interface is a dictionary. -/
def setNetworkId (networkId : Int) : JsonValue → JsonValue
  | .obj fields => .obj (assocSet fields "network_id" (.int networkId))
  | value => value

/-- The interface list of a node, changed in place. -/
def mapInterfaces (f : JsonValue → JsonValue) : JsonValue → JsonValue
  | .obj fields => .obj (mapField "interfaces" f fields)
  | value => value

/-- The zeroing of one node; its interfaces must be something a `for` can go over. -/
def zeroNode (py : PyValues) (node : JsonValue) : Option JsonValue := do
  let fields ← node.fields?
  let _ ← (fieldOrElse py fields "interfaces" (.arr [])).items?
  some (mapInterfaces (mapItems (setNetworkId 0)) node)

def zeroNodes (py : PyValues) (nodes : Fields) : Option Fields :=
  nodes.mapM (fun entry => (zeroNode py entry.2).map (fun node => (entry.1, node)))

/-- `len(value)`. -/
def JsonValue.length? : JsonValue → Option Nat
  | .arr items => some items.length
  | .str text => some text.length
  | .obj fields => some fields.length
  | _ => none

def setItem (index : Nat) (networkId : Int) : JsonValue → JsonValue
  | .arr items => .arr (items.modify index (setNetworkId networkId))
  | value => value

/-- The network of a link is set on one of its node endpoints. -/
def setEndpointNetwork (py : PyValues) (networkId : Int) (nodes : Fields) (endpoint : JsonValue) :
    Option Fields := do
  let fields ← endpoint.fields?
  let key := (fieldOr fields "node_id" .null).shown py
  let node ← ((fieldOr nodes key .null).orElse py (.obj [])).fields?
  let interfaces := (fieldOr node "interfaces" .null).orElse py (.arr [])
  let index ← castField py fields "interface_index" (-1)
  if index < 0 then some nodes
  else
    let count ← interfaces.length?
    if (count : Int) ≤ index then some nodes
    else
      match interfaces with
      | .obj _ => none
      | _ => some (mapField key (mapInterfaces (setItem index.toNat networkId)) nodes)

/-- The node endpoints of a link, and its last network endpoint. -/
def splitEnds : List JsonValue → Option (List JsonValue × Option JsonValue)
  | [] => some ([], none)
  | endpoint :: rest => do
    let isNode ← endpoint.holds "node_id"
    let isNetwork ← if isNode then some false else endpoint.holds "network_id"
    let (nodes, network) ← splitEnds rest
    if isNode then some (endpoint :: nodes, network)
    else if isNetwork then some (nodes, some (network.getD endpoint))
    else some (nodes, network)

/-- One round of the second loop of `_derive_legacy_interface_network_ids`. -/
def setLinkNetwork (py : PyValues) (nodes link : Fields) : Option Fields := do
  let (nodeEnds, networkEnd) ← splitEnds [linkEnd py link "from", linkEnd py link "to"]
  match networkEnd with
  | none => some nodes
  | some endpoint =>
    let fields ← endpoint.fields?
    let networkId ← castField py fields "network_id" 0
    if networkId = 0 then some nodes
    else nodeEnds.foldlM (setEndpointNetwork py networkId) nodes

/-- The dictionary at a key is changed in place; an empty or missing one stays what it was. -/
def replaceField (py : PyValues) (data : Fields) (key : String) (fields : Fields) : Fields :=
  match assocGet data key with
  | none => data
  | some value => if value.truthy py then assocSet data key (.obj fields) else data

/-- `_derive_legacy_interface_network_ids`. -/
def deriveInterfaceNetworkIds (py : PyValues) (data : Fields) : Option Fields := do
  let nodes ← (fieldOrElse py data "nodes" (.obj [])).fields?
  let zeroed ← zeroNodes py nodes
  let links ← linkRecords py data
  let injected ← links.foldlM (setLinkNetwork py) zeroed
  some (replaceField py data "nodes" injected)

/-- `int(value)`, or 0 where that is refused. -/
def castElseZero (py : PyValues) (value : JsonValue) : Option Int :=
  match value.cast py with
  | .value n => some n
  | .refused => some 0
  | .overflow => none

/-- The network id of a network endpoint; 0 for anything else. -/
def endpointNetwork (py : PyValues) : JsonValue → Option Int
  | .obj fields =>
    if (assocGet fields "network_id").isSome then castField py fields "network_id" 0 else some 0
  | _ => some 0

/-- The network ids a link counts for. -/
def countedNetworks (py : PyValues) (link : Fields) : Option (List Int) := do
  let ids ← [linkEnd py link "from", linkEnd py link "to"].mapM (endpointNetwork py)
  some (ids.filter (fun networkId => decide (networkId ≠ 0)))

/-- The count of one network; an id that is no integer counts as 0. -/
def countNetwork (py : PyValues) (ids : List Int) (key : String) :
    JsonValue → Option JsonValue
  | .obj fields => do
    let networkId ← castElseZero py (fieldOr fields "id" (.str key))
    some (.obj (assocSet fields "count" (.int (ids.count networkId))))
  | value => some value

/-- `_derive_network_counts`. -/
def deriveNetworkCounts (py : PyValues) (data : Fields) : Option Fields := do
  let links ← linkRecords py data
  let ids ← links.mapM (countedNetworks py)
  let networks ← ((fieldOr data "networks" .null).orElse py (.obj [])).fields?
  let counted ← networks.mapM (fun entry =>
    (countNetwork py ids.flatten entry.1 entry.2).map (fun network => (entry.1, network)))
  some (replaceField py data "networks" counted)

/-- `read_lab_json_static` on the parsed file; none when it raises. -/
def readLabJsonDocument (py : PyValues) (document : Fields) : Option Fields := do
  if (fieldOr document "schema" .null).equalsInt py 2 then
    let topology ← deriveTopology py document
    let attached ← deriveInterfaceNetworkIds py (assocSet document "topology" (.arr topology))
    deriveNetworkCounts py attached
  else none

/-- `int(entry.get(key, 0) or 0)`. -/
def castOrZero (py : PyValues) (entry : Fields) (key : String) : Option Int :=
  ((fieldOrElse py entry key (.int 0)).cast py).get?

def shownField (py : PyValues) (entry : Fields) (key : String) : String :=
  (fieldOrElse py entry key (.str "")).shown py

/-- The endpoints `_legacy_topology_to_links` makes of an entry, if it makes a link. -/
def legacyEnds (py : PyValues) (entry : Fields) (networkId : Int) :
    Option (Option (Fields × Fields)) := do
  let sourceIface := fieldOrElse py entry "source_interfaceId" (.int 0)
  let destinationIface := fieldOr entry "destination_interfaceId" (.int 0)
  match topologyNodeId (shownField py entry "source"),
      topologyNodeId (shownField py entry "destination") with
  | some source, some destination => do
    let index ← (sourceIface.cast py).get?
    if networkId = 0 then
      let destinationIndex ← castElseZero py destinationIface
      some (some ([("node_id", .int source), ("interface_index", .int index)],
        [("node_id", .int destination), ("interface_index", .int destinationIndex)]))
    else
      some (some ([("node_id", .int source), ("interface_index", .int index)],
        [("network_id", .int networkId)]))
  | some source, none =>
    if networkId = 0 then some none
    else do
      let index ← (sourceIface.cast py).get?
      some (some ([("node_id", .int source), ("interface_index", .int index)],
        [("network_id", .int networkId)]))
  | none, some destination =>
    if networkId = 0 then some none
    else do
      let index ← castElseZero py destinationIface
      some (some ([("node_id", .int destination), ("interface_index", .int index)],
        [("network_id", .int networkId)]))
  | none, none => some none

/-- One round of `_legacy_topology_to_links`. -/
def legacyLink (py : PyValues) (index : Nat) (entry : Fields) : Option (Option JsonValue) := do
  let networkId ← castOrZero py entry "network_id"
  let delay ← castOrZero py entry "source_delay"
  let loss ← castOrZero py entry "source_loss"
  let bandwidth ← castOrZero py entry "source_bandwidth"
  let jitter ← castOrZero py entry "source_jitter"
  let ends ← legacyEnds py entry networkId
  some (ends.map (fun sides => .obj [
    ("id", (fieldOr entry "id" .null).orElse py (.str (linkIdOf (index + 1)))),
    ("style_override", .null), ("label", textField py entry "label" ""),
    ("color", textField py entry "color" ""), ("width", textField py entry "width" "1"),
    ("metrics", .obj [("delay_ms", .int delay), ("loss_pct", .int loss),
      ("bandwidth_kbps", .int bandwidth), ("jitter_ms", .int jitter)]),
    ("from", .obj sides.1), ("to", .obj sides.2)]))

/-- The entries from an index on; those that are no dictionaries are skipped. -/
def legacyLinks (py : PyValues) (index : Nat) : List JsonValue → Option (List JsonValue)
  | [] => some []
  | .obj entry :: rest => do
    let link ← legacyLink py index entry
    let links ← legacyLinks py (index + 1) rest
    some (link.toList ++ links)
  | _ :: rest => legacyLinks py (index + 1) rest

/-- `_legacy_topology_to_links`. -/
def topologyToLinksStatic (py : PyValues) (data : Fields) : Option (List JsonValue) := do
  let entries ← (fieldOrElse py data "topology" (.arr [])).items?
  legacyLinks py 0 entries

def stripInterface : JsonValue → JsonValue
  | .obj fields => .obj (assocPop fields "network_id")
  | value => value

def stripNode : JsonValue → JsonValue := mapInterfaces (mapItems stripInterface)

def stripNetwork : JsonValue → JsonValue
  | .obj fields => .obj (assocPop fields "count")
  | value => value

/-- `_strip_legacy_fields`. -/
def stripLegacyFields (data : Fields) : Fields :=
  mapField "networks" (mapValues stripNetwork)
    (mapField "nodes" (mapValues stripNode) (assocPop data "topology"))

/-- `_has_v2_shape`. -/
def hasV2Shape (data : Fields) : Bool :=
  (assocGet data "links").isSome || ((fieldOr data "networks" .null).fields?).isSome

def setDefaults (data : Fields) : Fields :=
  setDefault "defaults" (.obj [("link_style", .str "orthogonal")])
    (setDefault "viewport" (.obj [("x", .int 0), ("y", .int 0), ("zoom", .float "1.0")])
      (setDefault "links" (.arr []) (setDefault "schema" (.int 2) data)))

def setSchemaVersion (py : PyValues) (data : Fields) : Fields :=
  if hasV2Shape data && !(fieldOr data "schema_version" .null).equalsInt py 2 then
    assocSet data "schema_version" (.int 2)
  else data

/-- Links are made from `topology` where there are none. -/
def withLinks (py : PyValues) (data : Fields) : Option Fields :=
  if (assocGet data "topology").isSome && !(fieldOr data "links" .null).truthy py then do
    let made ← topologyToLinksStatic py data
    some (assocSet data "links" (.arr made))
  else some data

/-- `write_lab_json_static`: the document it dumps; none when it raises. -/
def writeLabJsonDocument (py : PyValues) (data : Fields) : Option Fields := do
  let linked ← withLinks py data
  some (setSchemaVersion py (setDefaults (stripLegacyFields linked)))

end NovaVe
