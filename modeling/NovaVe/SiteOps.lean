import NovaVe.Reconcile
import NovaVe.Sites
import NovaVe.StartStop

namespace NovaVe

/-- The settings of the service that the network operations read. -/
structure SiteEnv where
  labHash : String → Fin 65536
  natCloudPool : String
  lower : String → String

def SiteEnv.bridgeName (env : SiteEnv) : String → Int → String := bridgeNameOf env.labHash

/-- What `create_network` asks of the host before it provisions. -/
def SiteEnv.cloud (env : SiteEnv) (site : Site) : CloudEnv :=
  { natCloudPool := env.natCloudPool, lower := env.lower, bridgeName := env.bridgeName
    bridgeExists := fun bridge => decide (bridge ∈ site.bridges)
    provisionFails := fun _ => none }

def ignoreHostNet (m : HostM Unit) : HostM Unit :=
  tryCatch m (fun e => if e.isHostNet then pure () else throw e)

/-- `_ensure_nat_cloud_runtime` on the host: its link-up stands for the gateway address, the
forwarding rules and the DHCP server too. -/
def ensureNatCloudRuntime (bridge : String) : HostM Unit := run (.bridgeUp bridge)

/-- A bridge that is there must carry the fingerprint of the new network; one that is not is added,
and taken away again when the fingerprint cannot be written. -/
def provisionBridge (fingerprint : Option Fingerprint) (labId : String) (networkId : Int)
    (bridge : String) : HostM Unit := do
  if ← bridgeExists bridge then
    if fingerprint = some { labId := labId, networkId := networkId } then pure ()
    else throw .hostNet
  else do
    run (.bridgeAdd bridge)
    onRaise (run (.fingerprintWrite bridge)) (ignoreHostNet (bridgeDel bridge))

/-- The provisioning of `create_network`; a host bridge and the bridge of a shared cloud are not
its own. -/
def provisionNetwork (fingerprints : Dict String Fingerprint) (labId : String) (network : Network) :
    HostM Unit :=
  let bridge := network.runtime.bridgeName.getD ""
  if network.type = .bridgeCloud ∨
      network.type = .natCloud ∧ sharedCloudIdOf network.config ≠ "" then pure ()
  else do
    provisionBridge (fingerprints.get? bridge) labId network.id bridge
    if network.type = .natCloud then ensureNatCloudRuntime bridge

/-- `create_network`; the stored lab is as it was when the provisioning raises. -/
def siteCreateNetwork (env : SiteEnv) (labPath : String) (request : NetworkCreate) : SiteM Unit := do
  let site ← get
  match site.labs.get? labPath, createNetworkIn (env.cloud site) site.labs labPath request with
  | some lab, .ok labs =>
    match (labs.get? labPath).bind (fun lab' => lab'.networks.get? lab.networks.nextKey) with
    | none => throw .other
    | some network => do
      onHost env.labHash lab.id network.id (provisionNetwork site.fingerprints lab.id network)
      modify (fun site => { site with labs := labs })
  | _, _ => throw .other

def qemuNodes (lab : Lab) : List Node :=
  (lab.nodes.entries.map Prod.snd).filter (fun node => decide (node.type = .qemu))

/-- The reconcile after a new link: the first node that fails ends it. -/
def reconcileAfterLink (env : SiteEnv) (source : NicSource) (lab : Lab) : HostM Unit :=
  swallow ((qemuNodes lab).forM (fun node =>
    reconcileQemuNodeLinks source env.bridgeName lab node.id))

/-- `create_link`: when the hot-attach raises the stored lab is as it was. -/
def siteCreateLink (env : SiteEnv) (source : NicSource) (labPath : String) (a b : Endpoint)
    (style : Option String) : SiteM Unit := do
  let site ← get
  match site.labs.get? labPath with
  | none => throw .other
  | some lab =>
    match createLinkData lab a b style with
    | .error _ => throw .other
    | .ok created => do
      let networkId := match created.concrete.findSome? Link.attachment? with
        | some (_, _, networkId) => networkId
        | none => 0
      let stamps ← onHost env.labHash lab.id networkId (hotAttachRunningEndpoints source
        env.bridgeName created.data created.implicitNetwork created.concrete)
      let data := stamps.foldl stampLinkAttachGeneration created.data
      modify (fun site => { site with labs := site.labs.set labPath data })
      onHost env.labHash lab.id 0 (reconcileAfterLink env source data)

/-- The bridge of a network record: the stamped name, or else the generated one. -/
def recordBridge (bridgeName : String → Int → String) (labId : String) (network : Network) : String :=
  let stored := network.runtime.bridgeName.getD ""
  if stored = "" then bridgeName labId network.id else stored

/-- What `bridge_fingerprint_check` answers. -/
inductive FingerprintStatus
  | same | mismatch | absent
deriving DecidableEq, Repr

def fingerprintStatus (fingerprints : Dict String Fingerprint) (bridge labId : String)
    (networkId : Int) : FingerprintStatus :=
  match fingerprints.get? bridge with
  | none => .absent
  | some found => if found = { labId := labId, networkId := networkId } then .same else .mismatch

/-- The bridge of a lab's own network in `ensure_lab_bridges`; `false` when it is skipped. -/
def ensureOwnBridge (bridge : String) (status : FingerprintStatus) : HostM Bool :=
  tryCatch (do
    if ← bridgeExists bridge then
      match status with
      | .mismatch => pure false
      | .absent => do
        ignoreHostNet (run (.fingerprintWrite bridge))
        pure true
      | .same => pure true
    else do
      run (.bridgeAdd bridge)
      ignoreHostNet (run (.fingerprintWrite bridge))
      pure true)
    (fun e => if e.isHostNet then pure false else throw e)

def stampBridge (bridge : String) (network : Network) : Network :=
  { network with runtime := { network.runtime with bridgeName := some bridge } }

/-- The fields that `_ensure_nat_cloud_runtime` writes once the host is set up. -/
def stampCloud (bridge : String) (network : Network) : Network :=
  { network with
    runtime := { network.runtime with bridgeName := some bridge, driver := some "nat_cloud" } }

def Lab.editNetwork (lab : Lab) (networkId : Int) (f : Network → Network) : Lab :=
  { lab with networks := lab.networks.modify networkId f }

def Site.editLab (site : Site) (labPath : String) (f : Lab → Lab) : Site :=
  { site with labs := site.labs.modify labPath f }

/-- The owner of a shared cloud: its record is in the lab at hand, or in another stored lab that is
written at once. -/
def ensureCloudOwner (env : SiteEnv) (labPath : String) (data : Lab) (owner : CloudNetworkRef)
    (ownerLabId : String) : SiteM Lab := do
  let bridge := recordBridge env.bridgeName ownerLabId owner.network
  match ← attempt (onHost env.labHash data.id owner.networkId (ensureNatCloudRuntime bridge)) with
  | .error _ => pure data
  | .ok () =>
    if owner.labPath = labPath then pure (data.editNetwork owner.networkId (stampCloud bridge))
    else do
      modify (fun site => site.editLab owner.labPath
        (fun lab => lab.editNetwork owner.networkId (stampCloud bridge)))
      pure data

/-- A lab's own network: its bridge, then the link-up, the stamp and the NAT cloud. -/
def ensureOwnNetwork (env : SiteEnv) (data : Lab) (network : Network) : SiteM Lab := do
  let site ← get
  let bridge := recordBridge env.bridgeName data.id network
  let ready ← onHost env.labHash data.id network.id (ensureOwnBridge bridge
    (fingerprintStatus site.fingerprints bridge data.id network.id))
  if !ready then pure data
  else do
    onHost env.labHash data.id network.id
      (if 0 < references data.links network.id then ignoreHostNet (run (.bridgeUp bridge))
      else pure ())
    let stamped := data.editNetwork network.id (stampBridge bridge)
    if network.type = .natCloud then
      match ← attempt (onHost env.labHash data.id network.id (ensureNatCloudRuntime bridge)) with
      | .error _ => pure stamped
      | .ok () => pure (stamped.editNetwork network.id (stampCloud bridge))
    else pure stamped

/-- One network of `ensure_lab_bridges`: a reference to a shared cloud, a host-owned bridge, or the
lab's own. -/
def ensureNetwork (env : SiteEnv) (labPath : String) (data : Lab) (network : Network) : SiteM Lab := do
  let site ← get
  if network.type = .natCloud ∧ sharedCloudIdOf network.config ≠ "" then
    match findNatCloudOwner site.labs (sharedCloudIdOf network.config) with
    | none => pure data
    | some owner =>
      let ownerLabId := ((site.labs.get? owner.labPath).map (cloudLabId owner.labPath)).getD ""
      ensureCloudOwner env labPath data owner ownerLabId
  else if network.runtime.driver = some "bridge_cloud" ∨ network.type = .bridgeCloud then do
    onHost env.labHash data.id network.id (ignoreHostNet (run
      (.bridgeExists (recordBridge env.bridgeName data.id network))))
    pure data
  else ensureOwnNetwork env data network

def ensureNetworks (env : SiteEnv) (labPath : String) (data : Lab) : List Int → SiteM Lab
  | [] => pure data
  | networkId :: rest =>
    match data.networks.get? networkId with
    | none => ensureNetworks env labPath data rest
    | some network => do
      let data ← ensureNetwork env labPath data network
      ensureNetworks env labPath data rest

/-- `_reconcile_qemu_nic_link_state`. -/
def reconcileQemuNicLinkState (env : SiteEnv) (source : NicSource) (lab : Lab) : HostM Unit :=
  (qemuNodes lab).forM (fun node => do
    if node.ethernet ≤ 0 then pure ()
    else do
      match ← runtimeRecord node.id false with
      | none => pure ()
      | some _ => do
        swallow (reconcileQemuNodeLinks source env.bridgeName lab node.id)
        ((List.range node.ethernet.toNat).map (fun (i : Nat) => (i : Int))).forM (fun i =>
          setQemuNicLink node.id i (lab.links.any (fun l => l.ifaces.contains (node.id, i)))))

/-- `ensure_lab_bridges`. -/
def siteEnsureLabBridges (env : SiteEnv) (source : NicSource) (labPath : String) : SiteM Unit := do
  let site ← get
  match site.labs.get? labPath with
  | none => throw .other
  | some lab => do
    let data ← ensureNetworks env labPath lab lab.networks.keys
    modify (fun site => { site with labs := site.labs.set labPath data })
    onHost env.labHash lab.id 0 (reconcileQemuNicLinkState env source data)

/-- `_start_iol_node` and `_start_dynamips_node`: a TAP on its bridge for every attachment, made
between the commands of the launcher; a failure takes the new TAPs away. -/
def launchProcessNode (node : Node) (attachments : List BootAttachment) : HostM Unit := do
  bridgesPresent attachments
  let indices := attachments.map BootAttachment.interfaceIndex
  match ← provisionTaps node.id (attachmentByIndex attachments) [] indices with
  | (provisioned, some e) => do
    provisioned.forM tryLinkDel
    throw e
  | (provisioned, none) => do
    onRaise (run (.spawn node.id)) (provisioned.forM tryLinkDel)
    if node.type = .iol then
      tryCatch (run (.registerPid node.id)) (fun _ => do
        swallow (run (.halt node.id))
        (indices.map (Port.tap node.id)).forM tryLinkDel
        run (.sweepNode node.id)
        throw (.runtime "Failed to register IOL PID in runtime registry"))

def startedProcessRuntime (nodeId : Int) (attachments : List BootAttachment) : NodeRuntime :=
  { kind := .other
    tapNames := attachments.map (fun a => Port.tap nodeId a.interfaceIndex) }

/-- `start_node`, for every kind of node. -/
def startAnyNode (start : StartEnv) (lab : Lab) (nodeKey : Int) (node : Node) : HostM Unit := do
  if node.type = .qemu ∨ node.type = .docker then startNode start lab nodeKey node
  else do
    match ← runtimeRecord node.id false with
    | some _ => pure ()
    | none => do
      let attachments := qemuAttachments start.bridgeName lab nodeKey node
      launchProcessNode node attachments
      modify (fun w =>
        { w with runtimes := w.runtimes.set node.id (startedProcessRuntime node.id attachments) })

def siteStartNode (env : SiteEnv) (maxNics : Int) (hotplugCapable : Bool) (container : Container)
    (labPath : String) (nodeKey : Int) : SiteM Unit := do
  let site ← get
  match site.labs.get? labPath with
  | none => throw .other
  | some lab =>
    match lab.nodes.get? nodeKey with
    | none => throw .other
    | some node => onHost env.labHash lab.id 0 (startAnyNode
        { bridgeName := env.bridgeName, maxNics := maxNics, hotplugCapable := hotplugCapable
          container := container } lab nodeKey node)

def siteReconcile (env : SiteEnv) (source : NicSource) (labPath : String) (nodeId : Int) :
    SiteM Unit := do
  let site ← get
  match site.labs.get? labPath with
  | none => throw .other
  | some lab => onHost env.labHash lab.id 0 (reconcileQemuNodeLinks source env.bridgeName lab nodeId)

/-- A call on one of the labs, with how the commands it gives will end. -/
inductive SiteCall
  | createNetwork (labPath : String) (request : NetworkCreate)
  | createLink (source : NicSource) (labPath : String) (a b : Endpoint) (style : Option String)
  | ensureLabBridges (source : NicSource) (labPath : String)
  | startNode (maxNics : Int) (hotplugCapable : Bool) (container : Container) (labPath : String)
    (nodeKey : Int)
  | reconcile (source : NicSource) (labPath : String) (nodeId : Int)

def SiteCall.program (env : SiteEnv) : SiteCall → SiteM Unit
  | .createNetwork labPath request => siteCreateNetwork env labPath request
  | .createLink source labPath a b style => siteCreateLink env source labPath a b style
  | .ensureLabBridges source labPath => siteEnsureLabBridges env source labPath
  | .startNode maxNics hotplugCapable container labPath nodeKey =>
    siteStartNode env maxNics hotplugCapable container labPath nodeKey
  | .reconcile source labPath nodeId => siteReconcile env source labPath nodeId

/-- The site after a call, whether it returned or raised. -/
def siteStep (env : SiteEnv) (site : Site) (call : SiteCall × List Reply) : Site :=
  match (call.1.program env).run { site with replies := call.2 } with
  | .ok _ after | .error _ after => after

end NovaVe
