import NovaVe.Lab
import NovaVe.Runs

namespace NovaVe

inductive NetworkError
  | service (code : Nat) (message : String)
  | bridgeOwnership (bridge : String)
deriving DecidableEq, Repr

structure NetworkCreate where
  name : String
  type : NetworkType := .linuxBridge
  left : Int := 0
  top : Int := 0
  config : NetworkConfig := {}
deriving DecidableEq, Repr

/-- The fields set in a `NetworkUpdate`; a field sent as `null` is `some none`. -/
structure NetworkUpdate where
  name : Option (Option String) := none
  type : Option NetworkType := none
  left : Option Int := none
  top : Option Int := none
  icon : Option String := none
  visibility : Option Bool := none
  config : Option (Option NetworkConfig) := none
deriving DecidableEq, Repr

/-- What the network operations ask of the text functions, of the other labs and of the host. -/
structure NetworkHost where
  strip : String → String
  lower : String → String
  bridgeName : String → Int → String
  bridgeExists : String → Bool
  validateCidr : String → Except NetworkError Unit
  /-- `_normalize_nat_cloud_config`, or the owner's record for a shared cloud. -/
  natCloud : NetworkConfig → Dict Int Network → Except NetworkError (NetworkConfig × Option String)
  /-- The provisioning after the first write; it may complete the runtime fields. -/
  provision : Network → Except NetworkError NetworkRuntime
  /-- Whether a cloud owned by the network is used by another lab. -/
  usedElsewhere : Network → Bool

/-- `^br-eth[0-9]+$`. -/
def isHostBridgeName (name : String) : Bool :=
  match name.toList with
  | 'b' :: 'r' :: '-' :: 'e' :: 't' :: 'h' :: tail => !tail.isEmpty && tail.all Char.isDigit
  | _ => false

/-- `_network_name_in_use`: implicit networks and the excluded id do not count. -/
def networkNameInUse (host : NetworkHost) (networks : Dict Int Network) (name : String)
    (excludeId : Option Int) : Bool :=
  let target := host.lower (host.strip name)
  if target = "" then false
  else networks.entries.any (fun entry =>
    !entry.2.implicit && decide (some entry.2.id ≠ excludeId) &&
      decide (host.lower (host.strip entry.2.name) = target))

def nameTaken (name : String) : String :=
  "A network named '" ++ name ++ "' already exists in this lab."

def normalizedConfig (host : NetworkHost) (networks : Dict Int Network)
    (request : NetworkCreate) : Except NetworkError (NetworkConfig × Option String) :=
  match request.type with
  | .natCloud => host.natCloud request.config networks
  | _ => .ok (request.config, none)

def checkHostBridge (host : NetworkHost) (type : NetworkType) (config : NetworkConfig) :
    Except NetworkError Unit :=
  match type, config.hostBridge with
  | .bridgeCloud, none => .error (.service 400 "config.host_bridge must match ^br-eth[0-9]+$")
  | .bridgeCloud, some bridge =>
    if !isHostBridgeName bridge then
      .error (.service 400 "config.host_bridge must match ^br-eth[0-9]+$")
    else if !host.bridgeExists bridge then
      .error (.service 404 ("Host bridge '" ++ bridge ++
        "' not found.  Run provision-ubuntu-2604.sh on the host first."))
    else .ok ()
  | _, _ => .ok ()

def networkDriver : NetworkType → String
  | .natCloud => "nat_cloud"
  | .bridgeCloud => "bridge_cloud"
  | _ => "linux_bridge"

def buildNetwork (host : NetworkHost) (labId : String) (networkId : Int) (name : String)
    (request : NetworkCreate) (config : NetworkConfig) (ownerBridge : Option String) : Network :=
  let bridge := match request.type with
    | .bridgeCloud => config.hostBridge.getD ""
    | _ => ownerBridge.getD (host.bridgeName labId networkId)
  { id := networkId, name := name, type := request.type, left := request.left, top := request.top
    config := config
    runtime := { bridgeName := some bridge, driver := some (networkDriver request.type) } }

def checkCidr (host : NetworkHost) (request : NetworkCreate) : Except NetworkError Unit :=
  match request.type, request.config.cidr with
  | .natCloud, _ => .ok ()
  | _, none => .ok ()
  | _, some cidr => if cidr = "" then .ok () else host.validateCidr cidr

def checkName (host : NetworkHost) (networks : Dict Int Network) (name : String) :
    Except NetworkError Unit :=
  if name = "" then .error (.service 422 "Network name must be non-empty.")
  else if networkNameInUse host networks name none then .error (.service 409 (nameTaken name))
  else .ok ()

/-- The checks of `create_network`, and the record it writes. -/
def prepareNetwork (host : NetworkHost) (data : Lab) (request : NetworkCreate) :
    Except NetworkError Network := do
  checkCidr host request
  let name := host.strip request.name
  checkName host data.networks name
  let normalized ← normalizedConfig host data.networks request
  checkHostBridge host request.type normalized.1
  .ok (buildNetwork host data.id data.networks.nextKey name request normalized.1 normalized.2)

/-- `create_network`: the network is written first and removed again when provisioning raises. -/
def createNetwork (host : NetworkHost) (data : Lab) (request : NetworkCreate) :
    Except NetworkError Lab := do
  checkCidr host request
  let name := host.strip request.name
  checkName host data.networks name
  let normalized ← normalizedConfig host data.networks request
  checkHostBridge host request.type normalized.1
  let networkId := data.networks.nextKey
  let network := buildNetwork host data.id networkId name request normalized.1 normalized.2
  let runtime ← host.provision network
  .ok { data with networks := data.networks.set networkId { network with runtime := runtime } }

theorem createNetwork_eq_prepared (host : NetworkHost) (data : Lab) (request : NetworkCreate) :
    createNetwork host data request =
      (prepareNetwork host data request >>= fun network =>
        host.provision network >>= fun runtime =>
          .ok { data with
            networks := data.networks.set network.id { network with runtime := runtime } }) := by
  unfold createNetwork prepareNetwork
  simp only [bind_assoc]
  rfl

/-- What a prepared network has passed, and what it is. -/
theorem prepareNetwork_ok {host : NetworkHost} {data : Lab} {request : NetworkCreate}
    {network : Network} (h : prepareNetwork host data request = .ok network) :
    checkName host data.networks (host.strip request.name) = .ok () ∧
      ∃ config bridge, normalizedConfig host data.networks request = .ok (config, bridge) ∧
        checkHostBridge host request.type config = .ok () ∧
        network = buildNetwork host data.id data.networks.nextKey (host.strip request.name) request
          config bridge := by
  unfold prepareNetwork at h
  obtain ⟨_, _, h⟩ := bind_eq_ok.mp h
  obtain ⟨_, hname, h⟩ := bind_eq_ok.mp h
  obtain ⟨⟨config, bridge⟩, hconfig, h⟩ := bind_eq_ok.mp h
  obtain ⟨_, hhost, h⟩ := bind_eq_ok.mp h
  cases h
  exact ⟨hname, config, bridge, hconfig, hhost, rfl⟩

/-- A created network is a prepared one, with the runtime that its provisioning gives it. -/
theorem createNetwork_prepared {host : NetworkHost} {data data' : Lab} {request : NetworkCreate}
    (h : createNetwork host data request = .ok data') :
    ∃ network runtime, prepareNetwork host data request = .ok network ∧
      host.provision network = .ok runtime ∧ data' = { data with
        networks := data.networks.set network.id { network with runtime := runtime } } := by
  rw [createNetwork_eq_prepared] at h
  obtain ⟨network, hprepare, h⟩ := bind_eq_ok.mp h
  obtain ⟨runtime, hprovision, h⟩ := bind_eq_ok.mp h
  cases h
  exact ⟨network, runtime, hprepare, hprovision, rfl⟩

def deleteNetwork (host : NetworkHost) (data : Lab) (networkId : Int) : Except NetworkError Lab :=
  match data.networks.get? networkId with
  | none => .error (.service 404 "Network does not exist.")
  | some network =>
    if network.implicit then .error (.service 404 "Network does not exist.")
    else if 0 < refcount data.links networkId then
      .error (.service 409 "Cannot delete network with active attachments.")
    else if network.type = .natCloud ∧ network.config.sharedCloudId.getD "" = "" ∧
        host.usedElsewhere network then
      .error (.service 409 "Cannot delete NAT-Cloud owner while it is used by another lab.")
    else .ok { data with networks := data.networks.pop networkId }

/-- The naming step of `patch_network`: naming an implicit network promotes it. -/
def renameNetwork (host : NetworkHost) (networks : Dict Int Network) (networkId : Int)
    (network : Network) : Option (Option String) → Except NetworkError Network
  | none => .ok network
  | some none =>
    if network.implicit then .ok network
    else .error (.service 422 "cannot un-name a promoted bridge")
  | some (some raw) =>
    let name := host.strip raw
    if name ≠ "" ∧ networkNameInUse host networks name (some networkId) then
      .error (.service 409 (nameTaken name))
    else if name ≠ "" ∧ network.implicit then
      .ok { network with name := name, implicit := false, visibility := true }
    else .ok { network with name := name }

def checkNetworkType (via : String) (network : Network) : Option NetworkType →
    Except NetworkError Unit
  | none => .ok ()
  | some new =>
    if new ≠ network.type ∧ (new = .bridgeCloud ∨ network.type = .bridgeCloud) then
      .error (.service 422 ("Cannot mutate network type to/from 'bridge_cloud' via " ++ via ++
        "; delete and recreate the network instead."))
    else .ok ()

def checkNetworkConfig (network : Network) : Option (Option NetworkConfig) →
    Except NetworkError Unit
  | none => .ok ()
  | some sent =>
    if (sent.bind NetworkConfig.hostBridge).isSome ∧ network.type ≠ .bridgeCloud then
      .error (.service 422 ("config.host_bridge is only valid on bridge_cloud networks; " ++
        "cannot set it on a non-bridge_cloud record."))
    else if network.type = .bridgeCloud then
      .error (.service 422 ("Cannot mutate config on a bridge_cloud network; " ++
        "delete and recreate to retarget the host bridge."))
    else .ok ()

/-- The bridge-cloud guards that `patch_network` and the older `update_network` share. -/
def checkNetworkPatch (via : String) (network : Network) (patch : NetworkUpdate) :
    Except NetworkError Unit := do
  checkNetworkType via network patch.type
  checkNetworkConfig network patch.config

def applyNetworkPatch (network : Network) (patch : NetworkUpdate) : Network :=
  { network with
    type := patch.type.getD network.type
    left := patch.left.getD network.left
    top := patch.top.getD network.top
    icon := patch.icon.getD network.icon
    visibility := patch.visibility.getD network.visibility
    config := (patch.config.getD none).getD network.config }

def patchNetwork (host : NetworkHost) (data : Lab) (networkId : Int) (patch : NetworkUpdate) :
    Except NetworkError Lab :=
  match data.networks.get? networkId with
  | none => .error (.service 404 "Network does not exist.")
  | some network => do
    let renamed ← renameNetwork host data.networks networkId network patch.name
    checkNetworkPatch "PATCH" network patch
    .ok { data with networks := data.networks.set networkId (applyNetworkPatch renamed patch) }

/-- `update_network` of the older router: it neither promotes nor looks at the other names. -/
def updateNetwork (data : Lab) (networkId : Int) (patch : NetworkUpdate) :
    Except NetworkError Lab :=
  match data.networks.get? networkId with
  | none => .error (.service 404 "Network does not exist.")
  | some network => do
    checkNetworkPatch "update" network patch
    let named := { network with name := (patch.name.getD none).getD network.name }
    .ok { data with networks := data.networks.set networkId (applyNetworkPatch named patch) }

end NovaVe
