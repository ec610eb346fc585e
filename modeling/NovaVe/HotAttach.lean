import NovaVe.LinkService
import NovaVe.Lab
import NovaVe.Reconcile

namespace NovaVe

/-- One running end of a new link, and the bridge it goes on. -/
structure Target where
  nodeId : Int
  interfaceIndex : Int
  networkId : Int
  bridge : String
  kind : RuntimeKind
deriving DecidableEq, Repr

/-- `_resolve_bridge_name`. -/
def resolveBridgeName (bridgeName : String → Int → String) (lab : Lab) (implicitNetwork : Option Int)
    (networkId : Int) : String :=
  if implicitNetwork = some networkId then bridgeName lab.id networkId
  else networkBridge bridgeName lab networkId

/-- The pre-pass of `_hot_attach_running_endpoints`: the links whose node is running here. -/
def pendingTargets (bridgeName : String → Int → String) (lab : Lab) (implicitNetwork : Option Int) :
    List Link → HostM (List Target)
  | [] => pure []
  | l :: rest =>
    match l.attachment? with
    | none => pendingTargets bridgeName lab implicitNetwork rest
    | some (nodeId, interfaceIndex, networkId) => do
      let record ← runtimeRecord nodeId false
      let targets ← pendingTargets bridgeName lab implicitNetwork rest
      match record with
      | none => pure targets
      | some runtime =>
        if runtime.kind = .other then pure targets
        else pure ({ nodeId := nodeId, interfaceIndex := interfaceIndex, networkId := networkId
                     bridge := resolveBridgeName bridgeName lab implicitNetwork networkId
                     kind := runtime.kind } :: targets)

/-- A bridge that is missing is added; the result is what was provisioned. -/
def ensureBridge (bridge : String) (fingerprint : Bool) : HostM (List String) := do
  if ← bridgeExists bridge then pure []
  else do
    run (.bridgeAdd bridge)
    if fingerprint then
      tryCatch (run (.fingerprintWrite bridge)) (fun e => if e.isHostNet then pure () else throw e)
    pure [bridge]

/-- A bridge of an explicit network; a host-owned one is never made here. -/
def ensureExplicitBridge (lab : Lab) (target : Target) : HostM (List String) :=
  if networkDriver? lab target.networkId = some "bridge_cloud" then do
    if ← bridgeExists target.bridge then pure [] else throw .hostNet
  else ensureBridge target.bridge true

/-- The explicit bridges, each once. -/
def ensureExplicitBridges (lab : Lab) (implicitNetwork : Option Int) (seen : List String) :
    List Target → HostM (List String)
  | [] => pure []
  | target :: rest =>
    if implicitNetwork = some target.networkId ∨ target.bridge ∈ seen then
      ensureExplicitBridges lab implicitNetwork seen rest
    else do
      let provisioned ← ensureExplicitBridge lab target
      let more ← ensureExplicitBridges lab implicitNetwork (target.bridge :: seen) rest
      pure (provisioned ++ more)

/-- The missing bridges of the targets, the implicit one first; nothing undoes them if a later one
fails here. -/
def provisionBridges (lab : Lab) (implicitNetwork : Option Int) (targets : List Target) :
    HostM (List String) := do
  let implicitBridges ←
    match targets.find? (fun target => decide (implicitNetwork = some target.networkId)) with
    | some target => ensureBridge target.bridge false
    | none => pure []
  let explicitBridges ← ensureExplicitBridges lab implicitNetwork [] targets
  pure (implicitBridges ++ explicitBridges)

/-- `_link_references_endpoint`. -/
def linkReferencesEndpoint (lab : Lab) (nodeId interfaceIndex networkId : Int) : Bool :=
  lab.links.any (fun l =>
    decide (Endpoint.node nodeId interfaceIndex ∈ l.endpoints) &&
      decide (Endpoint.network networkId ∈ l.endpoints))

/-- `_attach_docker_interface_locked` or `_attach_qemu_interface_locked`. -/
def attachInterface (source : NicSource) (kind : RuntimeKind) (nodeId networkId interfaceIndex : Int)
    (bridge : String) : HostM (Option Int) :=
  if kind = .docker then attachDockerInterface source nodeId networkId interfaceIndex bridge
  else attachQemuInterface source nodeId networkId interfaceIndex bridge

/-- `_detach_docker_interface_locked` or `_detach_qemu_interface_locked`. -/
def detachInterface (kind : RuntimeKind) (nodeId interfaceIndex : Int)
    (expectedGeneration : Option Int) : HostM DetachState :=
  if kind = .docker then detachDockerInterface nodeId interfaceIndex expectedGeneration
  else detachQemuInterface nodeId interfaceIndex expectedGeneration

/-- Detach the entries of the target's interface on a network that no link wires it to. -/
def healTarget (lab : Lab) (target : Target) : HostM Unit := do
  match ← runtimeRecord target.nodeId true with
  | none => pure ()
  | some runtime =>
    let orphans := runtime.attachments.filter (fun entry =>
      onInterface target.interfaceIndex entry && decide (entry.networkId ≠ target.networkId) &&
        !linkReferencesEndpoint lab target.nodeId target.interfaceIndex entry.networkId)
    orphans.forM (fun _ =>
      tryCatch (do
        let _ ← detachInterface target.kind target.nodeId target.interfaceIndex none
        pure ())
        (fun e => if e.isRuntime || e.isHostNet then pure () else throw e))

/-- The attach loop: what is attached so far, with its generation, and what stopped it. -/
def attachTargets (source : NicSource) (attached : List (Target × Int)) :
    List Target → HostM (List (Target × Int) × Option Exc)
  | [] => pure (attached, none)
  | target :: rest => do
    match ← attempt (attachInterface source target.kind target.nodeId target.networkId
        target.interfaceIndex target.bridge) with
    | .error e => pure (attached, some e)
    | .ok generation =>
      let attached := attached ++ [(target, generation.getD 0)]
      let up ←
        if target.kind = .qemu then attempt (setQemuNicLink target.nodeId target.interfaceIndex true)
        else pure (.ok ())
      match up with
      | .error e => pure (attached, some e)
      | .ok () => attachTargets source attached rest

def NodeRuntime.rolledBackDocker (runtime : NodeRuntime) (nodeId interfaceIndex : Int) : NodeRuntime :=
  { runtime.withoutInterface interfaceIndex with
    vethHostEnds := runtime.vethHostEnds.filter
      (fun p => decide (p ≠ .veth nodeId interfaceIndex)) }

def NodeRuntime.rolledBackQemu (runtime : NodeRuntime) (nodeId interfaceIndex : Int) : NodeRuntime :=
  { runtime.withoutInterface interfaceIndex with
    tapNames := runtime.tapNames.filter (fun p => decide (p ≠ .tap nodeId interfaceIndex)) }

/-- The device, the netdev and the TAP of a NIC that is rolled back, best-effort; whether it is a boot
NIC is not asked. -/
def rollbackNic (runtime : NodeRuntime) (nodeId interfaceIndex : Int) : HostM Unit := do
  if runtime.qmpSocket then
    swallow (run (.deviceDel nodeId interfaceIndex))
    swallow (run (.netdevDel nodeId interfaceIndex))
  swallow (run (.linkNomaster (.tap nodeId interfaceIndex)))
  tryLinkDel (.tap nodeId interfaceIndex)

/-- The rollback of an endpoint attached before the one that failed. -/
def rollbackTarget (kind : RuntimeKind) (nodeId interfaceIndex : Int) : HostM Unit :=
  if kind = .docker then do
    tryLinkDel (.veth nodeId interfaceIndex)
    match ← runtimeRecord nodeId false with
    | none => pure ()
    | some _ => editRuntime nodeId (fun r => r.rolledBackDocker nodeId interfaceIndex)
  else do
    match ← runtimeRecord nodeId false with
    | none => pure ()
    | some runtime =>
      rollbackNic runtime nodeId interfaceIndex
      editRuntime nodeId (fun r => r.rolledBackQemu nodeId interfaceIndex)

/-- The `except` clause of the attach loop: only the typed errors reach it. -/
def rollbackAttached (attached : List (Target × Int)) (provisioned : List String) (e : Exc) :
    HostM Unit :=
  if e.isRuntime || e.isHostNet then do
    attached.forM (fun done =>
      rollbackTarget done.1.kind done.1.nodeId done.1.interfaceIndex)
    provisioned.forM (fun bridge =>
      tryCatch (bridgeDel bridge) (fun e => if e.isHostNet then pure () else throw e))
  else pure ()

def stampOf (done : Target × Int) : Stamp :=
  { nodeId := done.1.nodeId, interfaceIndex := done.1.interfaceIndex
    networkId := done.1.networkId, attachGeneration := done.2 }

/-- `_hot_attach_running_endpoints`: the stamps of the links it attached. -/
def hotAttachRunningEndpoints (source : NicSource) (bridgeName : String → Int → String) (lab : Lab)
    (implicitNetwork : Option Int) (concrete : List Link) : HostM (List Stamp) := do
  let targets ← pendingTargets bridgeName lab implicitNetwork concrete
  let provisioned ← provisionBridges lab implicitNetwork targets
  targets.forM (healTarget lab)
  let (attached, failed) ← attachTargets source [] targets
  match failed with
  | some e => do
    rollbackAttached attached provisioned e
    throw e
  | none => do
    (attached.map (fun done => done.1.bridge)).eraseDups.forM (fun bridge =>
      tryCatch (run (.bridgeUp bridge)) (fun e => if e.isHostNet then pure () else throw e))
    pure (attached.map stampOf)

end NovaVe
