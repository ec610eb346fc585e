import NovaVe.Lab
import NovaVe.QemuInterface

namespace NovaVe

/-- The NICs with a TAP of a QEMU node: those that are no SLIRP uplink. -/
def tapIndices (node : Node) : List Int :=
  ((List.range node.ethernet.toNat).map (fun (i : Nat) => (i : Int))).filter (fun i =>
    match node.interfaces.find? (fun interface => decide (interface.index = i)) with
    | some interface => !interface.uplink
    | none => true)

def bridgesPresent (attachments : List BootAttachment) : HostM Unit :=
  attachments.forM (fun attachment => do
    if ← bridgeExists attachment.bridgeName then pure ()
    else throw (.runtime ("Bridge " ++ attachment.bridgeName ++ " for network_id=" ++
      toString attachment.networkId ++ " is not present on the host; provision it via " ++
      "create_network (US-202) before starting the node.")))

/-- A boot TAP goes on the bridge of its attachment, or off any bridge when it has none. -/
def connectTap (tap : Port) (attachment : Option BootAttachment) : HostM Unit :=
  match attachment with
  | some attachment => do
    linkMasterAny tap attachment.bridgeName attachment.driver
    run (.linkUp tap)
  | none =>
    tryCatch (run (.linkNomaster tap)) (fun e => if e.isHostNet then pure () else throw e)

/-- The boot loop of `_start_qemu_node_locked`: the TAPs made so far, and what stopped it. -/
def provisionTaps (nodeId : Int) (byIndex : Dict Int BootAttachment) (provisioned : List Port) :
    List Int → HostM (List Port × Option Exc)
  | [] => pure (provisioned, none)
  | i :: rest => do
    let tap := Port.tap nodeId i
    match ← attempt (do
        let there ← tapExists tap
        if there then pure provisioned
        else do
          run (.tapAdd tap)
          pure (provisioned ++ [tap])) with
    | .error e => pure (provisioned, some e)
    | .ok provisioned =>
      match ← attempt (connectTap tap (byIndex.get? i)) with
      | .error e => pure (provisioned, some e)
      | .ok () => provisionTaps nodeId byIndex provisioned rest

/-- The record of a started QEMU node; its entries have neither flag nor generation. -/
def startedQemuRuntime (node : Node) (attachments : List BootAttachment) (maxNics : Int)
    (hotplugCapable : Bool) : NodeRuntime :=
  { kind := .qemu, maxNics := maxNics, hotplugCapable := hotplugCapable
    bootEthernet := node.ethernet
    tapNames := (tapIndices node).map (Port.tap node.id)
    attachments := attachments.map (fun a =>
      { interfaceIndex := a.interfaceIndex, networkId := a.networkId, bridgeName := a.bridgeName
        port := if a.interfaceIndex ∈ tapIndices node then some (.tap node.id a.interfaceIndex)
          else none }) }

def startedDockerRuntime (nodeId : Int) (attachments : List BootAttachment) : NodeRuntime :=
  { kind := .docker
    vethHostEnds := attachments.map (fun a => Port.veth nodeId a.interfaceIndex)
    attachments := attachments.map (fun a =>
      { interfaceIndex := a.interfaceIndex, networkId := a.networkId, bridgeName := a.bridgeName
        port := some (.veth nodeId a.interfaceIndex) }) }

/-- A launch that fails, for its arguments, in the process or on registering its PID, takes the new
TAPs with it. -/
def launchQemuNode (node : Node) (attachments : List BootAttachment) : HostM Unit := do
  bridgesPresent attachments
  let byIndex := attachmentByIndex attachments
  match ← provisionTaps node.id byIndex [] (tapIndices node) with
  | (provisioned, some e) => do
    provisioned.forM tryLinkDel
    throw e
  | (provisioned, none) => do
    onRaise (run (.spawn node.id)) (provisioned.forM tryLinkDel)
    ((tapIndices node).filter (fun i => (byIndex.get? i).isNone)).forM (fun i =>
      tryCatch (run (.setLink node.id i false)) (fun _ => swallow (run (.setLink node.id i false))))
    tryCatch (run (.registerPid node.id)) (fun _ => do
      run (.halt node.id)
      provisioned.forM tryLinkDel
      throw (.runtime "Failed to register QEMU PID in runtime registry"))

/-- The veth pairs of a starting container; the host ends begun so far, and what stopped it. -/
def provisionVeths (nodeId : Int) (provisioned : List Port) :
    List BootAttachment → HostM (List Port × Option Exc)
  | [] => pure (provisioned, none)
  | a :: rest => do
    let begun := provisioned ++ [Port.veth nodeId a.interfaceIndex]
    match ← attempt (attachDockerInterfaceInitial nodeId a.interfaceIndex a.bridgeName a.driver) with
    | .error e => pure (begun, some e)
    | .ok () => provisionVeths nodeId begun rest

def launchDockerNode (node : Node) (attachments : List BootAttachment) : HostM Unit := do
  bridgesPresent attachments
  run (.spawn node.id)
  tryCatch (run (.registerPid node.id)) (fun _ => do
    run (.halt node.id)
    throw (.runtime "Failed to register container PID in runtime registry"))
  match ← provisionVeths node.id [] attachments with
  | (begun, some e) => do
    begun.forM tryLinkDel
    run (.halt node.id)
    throw e
  | (_, none) => pure ()

/-- The container of a node, found by its name. -/
inductive Container
  | absent | stopped | running
deriving DecidableEq, Repr

/-- What a start reads besides the lab file: the machine of the node's template and its container. -/
structure StartEnv where
  bridgeName : String → Int → String
  maxNics : Int
  hotplugCapable : Bool
  container : Container

/-- `_reconcile_docker_node_runtime`, which adopts a running container, and `_start_docker_node`; or
`_start_qemu_node`. -/
def launchNode (env : StartEnv) (lab : Lab) (nodeKey : Int) (node : Node) : HostM Unit :=
  if node.type = .docker then
    if env.container = .running then run (.registerPid node.id)
    else do
      if env.container = .stopped then run (.sweepNode node.id)
      launchDockerNode node (dockerAttachments env.bridgeName lab nodeKey node)
  else do
    run (.nodeMutex node.id)
    launchQemuNode node (qemuAttachments env.bridgeName lab nodeKey node)

/-- The record that a start makes. -/
def startedRecord (env : StartEnv) (lab : Lab) (nodeKey : Int) (node : Node) : NodeRuntime :=
  if node.type = .docker then
    startedDockerRuntime node.id (dockerAttachments env.bridgeName lab nodeKey node)
  else startedQemuRuntime node (qemuAttachments env.bridgeName lab nodeKey node) env.maxNics
    env.hotplugCapable

/-- `start_node` for a QEMU or a docker node: a node that is running is left alone. -/
def startNode (env : StartEnv) (lab : Lab) (nodeKey : Int) (node : Node) : HostM Unit := do
  match ← runtimeRecord node.id false with
  | some _ => pure ()
  | none => do
    launchNode env lab nodeKey node
    modify (fun w =>
      { w with runtimes := w.runtimes.set node.id (startedRecord env lab nodeKey node) })

/-- `stop_node`: the process, the host ends of the record, whatever is left of the node, and the
record. -/
def stopNode (nodeId : Int) : HostM Unit := do
  match ← runtimeRecord nodeId false with
  | none => pure ()
  | some runtime => do
    if runtime.kind = .qemu then run (.nodeMutex nodeId)
    run (.halt nodeId)
    (if runtime.kind = .qemu then runtime.tapNames else runtime.vethHostEnds).forM tryLinkDel
    run (.sweepNode nodeId)
    modify (fun w => { w with runtimes := w.runtimes.pop nodeId })

end NovaVe
