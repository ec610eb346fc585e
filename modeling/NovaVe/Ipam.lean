import Mathlib.Data.List.Dedup
import Mathlib.Data.List.Sort
import NovaVe.Ipv4
import NovaVe.LinkService
import NovaVe.NetworkService

namespace NovaVe

def natCloudStaticLastOffset : Nat := 99

def natCloudDhcpFirstOffset : Nat := 100

/-- A text that is set: neither absent nor empty. -/
def given (text : Option String) : Option String := text.filter (fun t => decide (t ≠ ""))

/-- `_validate_cidr`; the message leaves out the library's own words. -/
def validateCidr (cidr : Option String) : Except NetworkError IPv4Network :=
  let text := pyStrip (cidr.getD "")
  if text = "" then .error (.service 422 "config.cidr must be a non-empty string")
  else match ipNetwork text with
    | none => .error (.service 422 "config.cidr is not a valid CIDR")
    | some net => .ok net

def validateIpv4 (value : Option String) (field : String) : Except NetworkError Nat :=
  let text := pyStrip (value.getD "")
  if text = "" then .error (.service 422 (field ++ " must be a non-empty IPv4 address"))
  else match parseIPv4 text with
    | none => .error (.service 422 (field ++ " is not a valid IPv4 address"))
    | some address => .ok address

def settingsNatCloudPool (raw : String) : Except NetworkError IPv4Network :=
  match ipNetwork (pyStrip raw) with
  | none => .error (.service 500 "NAT-Cloud pool is invalid")
  | some pool =>
    if 24 < pool.prefixlen then
      .error (.service 500 "NAT-Cloud pool must be at least large enough to allocate /24 networks")
    else .ok pool

def existingNetworkCidrs (networks : Dict Int Network) : List IPv4Network :=
  networks.entries.filterMap (fun entry =>
    match given entry.2.config.cidr with
    | none => none
    | some cidr => (validateCidr (some cidr)).toOption)

def allocateNatCloudCidr (poolText : String) (networks : Dict Int Network)
    (extraUsed : List IPv4Network) : Except NetworkError IPv4Network := do
  let pool ← settingsNatCloudPool poolText
  let used := existingNetworkCidrs networks ++ extraUsed
  match pool.slash24s.find? (fun candidate => !used.any candidate.overlaps) with
  | some candidate => .ok candidate
  | none => .error (.service 409
      "NAT-Cloud subnet pool exhausted; configure a larger NOVA_VE_NAT_CLOUD_POOL.")

/-- The addresses of an accepted NAT cloud, with what its validation establishes. -/
structure NatCloudRange where
  net : IPv4Network
  gateway : Nat
  dhcpStart : Nat
  dhcpEnd : Nat
  wide : net.prefixlen ≤ 24
  gatewayIn : net.contains gateway = true
  gatewayHost : gateway ≠ net.networkAddress ∧ gateway ≠ net.broadcastAddress
  dhcpIn : net.contains dhcpStart = true ∧ net.contains dhcpEnd = true
  dhcpOrder : dhcpStart ≤ dhcpEnd
  dhcpAfterStatic : net.networkAddress + natCloudStaticLastOffset < dhcpStart

/-- The subnet of a new cloud: the one asked for, or the first free one of the pool. -/
def requestedCidr (pool : String) (raw : NetworkConfig) (networks : Dict Int Network)
    (hostUsed : List IPv4Network) : Except NetworkError IPv4Network :=
  match given raw.cidr with
  | some cidr => validateCidr (some cidr)
  | none => allocateNatCloudCidr pool networks hostUsed

def checkedCidr (networks : Dict Int Network) (hostUsed : List IPv4Network) (cidr : IPv4Network) :
    Except NetworkError {net : IPv4Network // net = cidr ∧ net.prefixlen ≤ 24} :=
  if h : 24 < cidr.prefixlen then .error (.service 422 "NAT-Cloud CIDR must be /24 or larger")
  else match (existingNetworkCidrs networks ++ hostUsed).find? cidr.overlaps with
    | some existing => .error (.service 409 ("NAT-Cloud CIDR " ++ cidr.text ++
        " overlaps existing network CIDR " ++ existing.text ++ "."))
    | none => .ok ⟨cidr, rfl, Nat.le_of_not_lt h⟩

def requestedGateway (raw : NetworkConfig) (net : IPv4Network) : Except NetworkError Nat :=
  match given raw.gateway with
  | some gateway => validateIpv4 (some gateway) "config.gateway"
  | none => .ok (net.networkAddress + 1)

def checkedGateway (net : IPv4Network) (gateway : Nat) :
    Except NetworkError {g : Nat // g = gateway ∧ net.contains g = true ∧
      g ≠ net.networkAddress ∧ g ≠ net.broadcastAddress} :=
  if hin : net.contains gateway = true then
    if hhost : gateway ≠ net.networkAddress ∧ gateway ≠ net.broadcastAddress then
      .ok ⟨gateway, rfl, hin, hhost⟩
    else .error (.service 422 "config.gateway cannot be the network or broadcast address")
  else .error (.service 422 "config.gateway must be inside config.cidr")

def requestedAddress (value : Option String) (field : String) (default : Nat) :
    Except NetworkError Nat :=
  match given value with
  | some address => validateIpv4 (some address) field
  | none => .ok default

def checkedDhcp (net : IPv4Network) (dhcpStart dhcpEnd : Nat) :
    Except NetworkError {r : Nat × Nat // (net.contains r.1 = true ∧ net.contains r.2 = true) ∧
      r.1 ≤ r.2 ∧ net.networkAddress + natCloudStaticLastOffset < r.1} :=
  if hin : net.contains dhcpStart = true ∧ net.contains dhcpEnd = true then
    if horder : dhcpStart ≤ dhcpEnd then
      if hstatic : net.networkAddress + natCloudStaticLastOffset < dhcpStart then
        .ok ⟨(dhcpStart, dhcpEnd), hin, horder, hstatic⟩
      else .error (.service 422
        "NAT-Cloud DHCP range must start after the reserved static range ending at offset .99")
    else .error (.service 422 "config.dhcp_start must be <= config.dhcp_end")
  else .error (.service 422 "DHCP range must be inside config.cidr")

def natCloudRange (pool : String) (raw : NetworkConfig) (networks : Dict Int Network)
    (hostUsed : List IPv4Network) : Except NetworkError NatCloudRange := do
  let cidr ← requestedCidr pool raw networks hostUsed
  let net ← checkedCidr networks hostUsed cidr
  let wanted ← requestedGateway raw net.1
  let gateway ← checkedGateway net.1 wanted
  let dhcpStart ← requestedAddress raw.dhcpStart "config.dhcp_start"
    (net.1.networkAddress + natCloudDhcpFirstOffset)
  let dhcpEnd ← requestedAddress raw.dhcpEnd "config.dhcp_end" (net.1.broadcastAddress - 1)
  let dhcp ← checkedDhcp net.1 dhcpStart dhcpEnd
  .ok { net := net.1, gateway := gateway.1, dhcpStart := dhcp.1.1, dhcpEnd := dhcp.1.2
        wide := net.2.2, gatewayIn := gateway.2.2.1, gatewayHost := gateway.2.2.2
        dhcpIn := dhcp.2.1, dhcpOrder := dhcp.2.2.1, dhcpAfterStatic := dhcp.2.2.2 }

/-- The config that is stored: the request's, with the addresses written out. -/
def NatCloudRange.config (range : NatCloudRange) (raw : NetworkConfig) : NetworkConfig :=
  { raw with
    cidr := some range.net.text
    gateway := some (ipv4Text range.gateway)
    dhcpStart := some (ipv4Text range.dhcpStart)
    dhcpEnd := some (ipv4Text range.dhcpEnd)
    egressInterface := match given raw.egressInterface with
      | some egress => some (pyStrip egress)
      | none => raw.egressInterface }

/-- `_normalize_nat_cloud_config`. -/
def normalizeNatCloudConfig (pool : String) (raw : NetworkConfig) (networks : Dict Int Network)
    (hostUsed : List IPv4Network) : Except NetworkError NetworkConfig := do
  let range ← natCloudRange pool raw networks hostUsed
  .ok (range.config raw)

/-- A NAT cloud as the scan of the stored labs finds it. -/
structure CloudNetworkRef where
  cloudId : String
  labPath : String
  networkId : Int
  network : Network
  isReference : Bool

def cloudLabId (labPath : String) (lab : Lab) : String := if lab.id = "" then labPath else lab.id

def natCloudId (labId : String) (networkId : Int) : String :=
  "nat-cloud:" ++ labId ++ ":" ++ toString networkId

def cloudRef (labPath : String) (lab : Lab) (network : Network) : CloudNetworkRef :=
  let shared := given network.config.sharedCloudId
  { cloudId := shared.getD (natCloudId (cloudLabId labPath lab) network.id)
    labPath := labPath, networkId := network.id, network := network
    isReference := shared.isSome }

def labCloudRefs (labPath : String) (lab : Lab) : List CloudNetworkRef :=
  (lab.networks.entries.filter (fun entry => decide (entry.2.type = .natCloud))).map
    (fun entry => cloudRef labPath lab entry.2)

/-- `_cloud_refs`, over the labs in the order of the scan. -/
def cloudRefs (labs : Dict String Lab) : List CloudNetworkRef :=
  labs.entries.flatMap (fun entry => labCloudRefs entry.1 entry.2)

def findNatCloudOwner (labs : Dict String Lab) (sharedCloudId : String) : Option CloudNetworkRef :=
  (cloudRefs labs).find? (fun ref => !ref.isReference && decide (ref.cloudId = sharedCloudId))

/-- One owner in the search for colliding subnets; the subnets seen so far and the colliding ids. -/
def addOwnerCidr (seen : Dict String IPv4Network × List String) (owner : CloudNetworkRef) :
    Dict String IPv4Network × List String :=
  match given owner.network.config.cidr with
  | none => seen
  | some cidr => match ipNetwork cidr with
    | none => (seen.1, owner.cloudId :: seen.2)
    | some net =>
      let hits := (seen.1.entries.filter (fun entry => net.overlaps entry.2)).map Prod.fst
      (seen.1.set owner.cloudId net, if hits = [] then seen.2 else owner.cloudId :: hits ++ seen.2)

def collidingClouds (labs : Dict String Lab) : List String :=
  (((cloudRefs labs).filter (fun ref => !ref.isReference)).foldl addOwnerCidr (Dict.empty, [])).2

/-- `safe_for_reuse` of `list_nat_clouds`: no reference is. -/
def safeForReuse (labs : Dict String Lab) (ref : CloudNetworkRef) : Bool :=
  !ref.isReference && !(collidingClouds labs).contains ref.cloudId

def ownerCidrs (labs : Dict String Lab) : List IPv4Network :=
  ((cloudRefs labs).filter (fun ref => !ref.isReference)).filterMap
    (fun ref => (given ref.network.config.cidr).bind ipNetwork)

def sharedCloudIdOf (config : NetworkConfig) : String := pyStrip (config.sharedCloudId.getD "")

/-- `_normalize_shared_nat_cloud_config`: the owner's config, and its bridge. -/
def normalizeSharedNatCloudConfig (labs : Dict String Lab) (sharedCloudId : String) :
    Except NetworkError (NetworkConfig × Option String) :=
  match findNatCloudOwner labs sharedCloudId with
  | none => .error (.service 404 "NAT-Cloud shared_cloud_id does not reference an existing owner.")
  | some owner =>
    if (cloudRefs labs).any
        (fun ref => decide (ref.cloudId = sharedCloudId) && !safeForReuse labs ref) then
      .error (.service 409
        "NAT-Cloud owner is not safe to reuse because its CIDR collides with another owner.")
    else if (given owner.network.config.cidr).isNone then
      .error (.service 409 "NAT-Cloud owner is missing reusable configuration.")
    else .ok ({ owner.network.config with sharedCloudId := some sharedCloudId },
      given owner.network.runtime.bridgeName)

def natCloudConfig (pool : String) (labs : Dict String Lab) (raw : NetworkConfig)
    (networks : Dict Int Network) : Except NetworkError (NetworkConfig × Option String) :=
  if sharedCloudIdOf raw ≠ "" then normalizeSharedNatCloudConfig labs (sharedCloudIdOf raw)
  else match normalizeNatCloudConfig pool raw networks (ownerCidrs labs) with
    | .error e => .error e
    | .ok config => .ok (config, none)

/-- What the network operations ask of the settings and of the host. -/
structure CloudEnv where
  natCloudPool : String
  lower : String → String
  bridgeName : String → Int → String
  bridgeExists : String → Bool
  /-- How the provisioning of a network fails, if it does. -/
  provisionFails : Network → Option NetworkError

def CloudEnv.host (env : CloudEnv) (labs : Dict String Lab) (labPath : String) (lab : Lab) :
    NetworkHost :=
  { strip := pyStrip, lower := env.lower, bridgeName := env.bridgeName
    bridgeExists := env.bridgeExists
    validateCidr := fun cidr => (validateCidr (some cidr)).map (fun _ => ())
    natCloud := fun raw networks => natCloudConfig env.natCloudPool labs raw networks
    provision := fun network => match env.provisionFails network with
      | some e => .error e
      | none => .ok network.runtime
    usedElsewhere := fun network => (cloudRefs labs).any (fun ref => ref.isReference &&
      decide (ref.cloudId = natCloudId (cloudLabId labPath lab) network.id)) }

/-- The config of a new network, when it is a NAT cloud. -/
theorem normalizedConfig_natCloud {env : CloudEnv} {labs : Dict String Lab} {labPath : String}
    {lab : Lab} {networks : Dict Int Network} {request : NetworkCreate}
    (htype : request.type = .natCloud) :
    normalizedConfig (env.host labs labPath lab) networks request =
      natCloudConfig env.natCloudPool labs request.config networks := by
  unfold normalizedConfig CloudEnv.host
  rw [htype]

theorem normalizedConfig_other {host : NetworkHost} {networks : Dict Int Network}
    {request : NetworkCreate} (htype : request.type ≠ .natCloud) :
    normalizedConfig host networks request = .ok (request.config, none) := by
  unfold normalizedConfig
  split
  next hnat => exact absurd hnat htype
  next => rfl

def labDoesNotExist : NetworkError := .service 404 "Lab does not exist (60038)."

/-- `create_network` of one of the stored labs. -/
def createNetworkIn (env : CloudEnv) (labs : Dict String Lab) (labPath : String)
    (request : NetworkCreate) : Except NetworkError (Dict String Lab) :=
  match labs.get? labPath with
  | none => .error labDoesNotExist
  | some lab =>
    match createNetwork (env.host labs labPath lab) lab request with
    | .error e => .error e
    | .ok lab' => .ok (labs.set labPath lab')

/-- `_ipam_target`: the lab and network whose record holds the addresses. -/
def NetworkService.ipamTarget (labs : Dict String Lab) (labPath : String) (networkId : Int) :
    Except NetworkError (String × Int) :=
  match labs.get? labPath with
  | none => .error labDoesNotExist
  | some lab => match lab.networks.get? networkId with
    | none => .error (.service 404 "Network does not exist.")
    | some network =>
      let shared := sharedCloudIdOf network.config
      if shared = "" then .ok (labPath, networkId)
      else match findNatCloudOwner labs shared with
        | none => .error (.service 409
            "NAT-Cloud owner is missing; cannot allocate from shared cloud.")
        | some owner => .ok (owner.labPath, owner.networkId)

/-- The stored texts that are addresses of the subnet, as a set. -/
def usedAddresses (net : IPv4Network) (usedIps : List String) : List Nat :=
  ((usedIps.filterMap parseIPv4).filter net.contains).dedup

/-- `int(runtime.get("first_offset") or 2)`, at least 1. -/
def firstOffset (runtime : NetworkRuntime) : Nat :=
  let offset := if runtime.firstOffset = 0 then 2 else runtime.firstOffset
  (max 1 offset).toNat

def lastCandidate (type : NetworkType) (net : IPv4Network) : Nat :=
  match type with
  | .natCloud => min (net.broadcastAddress - 1) (net.networkAddress + natCloudStaticLastOffset)
  | _ => net.broadcastAddress - 1

/-- The lowest candidate that is not used. -/
def chooseAddress (first last : Nat) (used : List Nat) : Option Nat :=
  (List.range' first (last + 1 - first)).find? (fun candidate => decide (candidate ∉ used))

def recordUsed (network : Network) (used : List Nat) : Network :=
  { network with runtime :=
      { network.runtime with usedIps := (used.insertionSort (· ≤ ·)).map ipv4Text } }

/-- The allocation from an owner's record. -/
def allocateFrom (network : Network) : Except NetworkError (Network × String) :=
  match given network.config.cidr with
  | none => .error (.service 422 "Network has no config.cidr; allocate_ip not applicable.")
  | some cidr => match validateCidr (some cidr) with
    | .error e => .error e
    | .ok net =>
      let used := usedAddresses net network.runtime.usedIps
      match chooseAddress (net.networkAddress + firstOffset network.runtime)
          (lastCandidate network.type net) used with
      | none => .error (.service 409 "subnet exhausted, please widen CIDR")
      | some chosen => .ok (recordUsed network (chosen :: used), ipv4Text chosen)

/-- `_allocate_ip`. -/
def NetworkService.allocateIp (labs : Dict String Lab) (labPath : String) (networkId : Int) :
    Except NetworkError (Dict String Lab × String) := do
  let target ← ipamTarget labs labPath networkId
  match labs.get? target.1 with
  | none => .error labDoesNotExist
  | some lab => match lab.networks.get? target.2 with
    | none => .error (.service 404 "Network does not exist.")
    | some network => do
      let allocated ← allocateFrom network
      .ok (labs.set target.1 { lab with networks := lab.networks.set target.2 allocated.1 },
        allocated.2)

/-- `_release_ip_from_owner` of a stored lab; the flag says whether the address was there. -/
def releaseIn (labs : Dict String Lab) (target : String × Int) (ip : String) :
    Except NetworkError (Dict String Lab × Bool) :=
  match labs.get? target.1 with
  | none => .error labDoesNotExist
  | some lab => match lab.networks.get? target.2 with
    | none => .ok (labs, false)
    | some network =>
      if ip ∉ network.runtime.usedIps then .ok (labs, false)
      else .ok (labs.set target.1 (releaseIpFromOwner lab target.2 ip), true)

/-- The record a release goes to; a caller that holds the lab's lock is answered `False` where
the other one is refused. -/
def NetworkService.releaseTarget (lockHeld : Bool) (labs : Dict String Lab) (labPath : String) (networkId : Int) :
    Except NetworkError (Option (String × Int)) :=
  match labs.get? labPath, lockHeld, ipamTarget labs labPath networkId with
  | none, _, _ => .error labDoesNotExist
  | some _, _, .ok target => .ok (some target)
  | some _, true, .error _ => .ok none
  | some _, false, .error e => .error e

/-- `_release_ip`. -/
def NetworkService.releaseIp (lockHeld : Bool) (labs : Dict String Lab) (labPath : String) (networkId : Int)
    (ip : String) : Except NetworkError (Dict String Lab × Bool) := do
  match ← releaseTarget lockHeld labs labPath networkId with
  | none => .ok (labs, false)
  | some target => releaseIn labs target ip

end NovaVe
