import Mathlib.Data.Finset.Union
import NovaVe.MacRegistry
import NovaVe.SiteOps

namespace NovaVe

/-- What a call can set up on the host for its bridge. -/
inductive BridgePart
  | bridge | natRule | forwardRule | dhcpServer
deriving DecidableEq, Repr

/-- The steps after the record is written: those on the host, those of the clean-up, and the writes
of `lab.json`. -/
inductive NetStep
  | bridgeExists | fingerprintCheck | bridgeAdd | fingerprintWrite | bridgeDel
  | defaultEgressIface | bridgeAddrAdd | linkUp | ipv4ForwardEnable | natApply | forwardApply
  | dnsmasqStart | dnsmasqStop
  | cleanupDnsmasqStop | cleanupForwardRemove | cleanupNatRemove
  | rollbackWrite | finalWrite
deriving DecidableEq, Repr

/-- What a step can raise: a `HostNetError`, an `OSError`, or something else. -/
inductive StepError
  | hostNet | os | other
deriving DecidableEq, Repr

/-- How a step ends; one that raises may still have had its effect. -/
structure StepEnd where
  raises : Option StepError := none
  took : Bool := true
deriving DecidableEq, Repr

/-- How each step of a call ends, whether `ip` is there, and the interface of the default route. -/
structure NetScript where
  step : NetStep → StepEnd := fun _ => {}
  ipMissing : Bool := false
  egress : String := "eth0"

/-- A bridge of the service and the fingerprint that belongs to it. -/
structure OwnBridge where
  name : String
  mark : Fingerprint

/-- The lab file, `none` when it cannot be read, the registry, and the host, with the parts of
bridges that the call has set up. -/
structure NetCall where
  labJson : Option Lab
  registry : MacEntries := fun _ => none
  fingerprints : Dict String Fingerprint := Dict.empty
  present : Finset (String × BridgePart) := ∅
  made : Finset (String × BridgePart) := ∅

inductive ProvisionError
  | network (e : NetworkError)
  | step (e : StepError)
deriving DecidableEq, Repr

abbrev NetM : Type → Type := EStateM ProvisionError NetCall

/-- The part of the bridge that a step sets up. -/
def NetStep.makes : NetStep → Option BridgePart
  | .bridgeAdd => some .bridge
  | .natApply => some .natRule
  | .forwardApply => some .forwardRule
  | .dnsmasqStart => some .dhcpServer
  | _ => none

/-- The part of the bridge that a step takes away. -/
def NetStep.removes : NetStep → Option BridgePart
  | .bridgeDel => some .bridge
  | .cleanupNatRemove => some .natRule
  | .cleanupForwardRemove => some .forwardRule
  | .dnsmasqStop | .cleanupDnsmasqStop => some .dhcpServer
  | _ => none

def NetCall.make (own : OwnBridge) (s : NetCall) (part : BridgePart) : NetCall :=
  { s with
    present := insert (own.name, part) s.present
    made := insert (own.name, part) s.made }

def NetCall.remove (own : OwnBridge) (s : NetCall) (part : BridgePart) : NetCall :=
  { s with present := s.present.erase (own.name, part) }

/-- The fingerprints after a step; `bridge_del` removes that of the bridge. -/
def NetStep.fingerprintsAfter (own : OwnBridge) (step : NetStep)
    (fingerprints : Dict String Fingerprint) : Dict String Fingerprint :=
  match step with
  | .fingerprintWrite => fingerprints.set own.name own.mark
  | .bridgeDel => fingerprints.pop own.name
  | _ => fingerprints

def NetCall.effect (own : OwnBridge) (s : NetCall) (step : NetStep) : NetCall :=
  let marked := { s with fingerprints := step.fingerprintsAfter own s.fingerprints }
  match step.makes, step.removes with
  | some part, _ => marked.make own part
  | none, some part => marked.remove own part
  | none, none => marked

/-- The state after a step, whether it raises or not. -/
def NetCall.stepped (script : NetScript) (own : OwnBridge) (s : NetCall) (step : NetStep) : NetCall :=
  if (script.step step).took then s.effect own step else s

/-- A step on the host. -/
def hostStep (script : NetScript) (own : OwnBridge) (step : NetStep) : NetM Unit := fun s =>
  match (script.step step).raises with
  | none => .ok () (s.stepped script own step)
  | some e => .error (.step e) (s.stepped script own step)

/-- `write_lab_json_static`; a write that raises leaves the file as it was, or cut. -/
def writeLabStep (script : NetScript) (step : NetStep) (data : Lab) : NetM Unit := fun s =>
  match (script.step step).raises with
  | none => .ok () { s with labJson := some data }
  | some e => .error (.step e) (if (script.step step).took then { s with labJson := none } else s)

/-- `except HostNetError`, with a line in the log. -/
def ignoreHostNetStep (m : NetM Unit) : NetM Unit :=
  tryCatch m (fun e => if e = .step .hostNet then pure () else throw e)

/-- `bridge_exists`: without `ip` there is no bridge. -/
def bridgeFound (script : NetScript) (own : OwnBridge) : NetM Bool := do
  hostStep script own .bridgeExists
  let s ← get
  pure (!script.ipMissing && decide ((own.name, .bridge) ∈ s.present))

/-- `bridge_add`: the kernel has no two bridges of one name. -/
def addBridge (script : NetScript) (own : OwnBridge) : NetM Unit := do
  let s ← get
  if (own.name, .bridge) ∈ s.present then throw (.step .hostNet)
  else hostStep script own .bridgeAdd

/-- A bridge that is there must carry the fingerprint of the new network. -/
def checkOwnBridge (script : NetScript) (own : OwnBridge) : NetM Unit := do
  hostStep script own .fingerprintCheck
  let s ← get
  if fingerprintStatus s.fingerprints own.name own.mark.labId own.mark.networkId = .same then pure ()
  else throw (.network (.bridgeOwnership own.name))

/-- One that is not is added, and taken away again when the fingerprint cannot be written. -/
def makeOwnBridge (script : NetScript) (own : OwnBridge) : NetM Unit := do
  addBridge script own
  onRaise (hostStep script own .fingerprintWrite)
    (ignoreHostNetStep (hostStep script own .bridgeDel))

def provisionOwnBridge (script : NetScript) (own : OwnBridge) : NetM Unit := do
  let found ← bridgeFound script own
  if found then checkOwnBridge script own else makeOwnBridge script own

/-- `_bridge_gateway_cidr`. -/
def bridgeGatewayCidr (config : NetworkConfig) : Except NetworkError String := do
  let cidr ← validateCidr config.cidr
  let gateway ← validateIpv4 config.gateway "config.gateway"
  .ok (ipv4Text gateway ++ "/" ++ toString cidr.prefixlen)

/-- The interface to the outside: the stored one, or that of the default route. -/
def egressInterface (script : NetScript) (own : OwnBridge) (config : NetworkConfig) :
    NetM Unit := do
  if pyStrip (config.egressInterface.getD "") = "" then do
    hostStep script own .defaultEgressIface
    if pyStrip script.egress = "" then
      throw (.network
        (.service 409 "Host has no default-route interface for NAT-Cloud egress."))

/-- `_ensure_nat_cloud_runtime`, less the fields of the record that it fills in. -/
def ensureNatCloud (script : NetScript) (own : OwnBridge) (config : NetworkConfig) :
    NetM Unit := do
  match bridgeGatewayCidr config with
  | .error e => throw (.network e)
  | .ok _ => do
    egressInterface script own config
    hostStep script own .bridgeAddrAdd
    hostStep script own .linkUp
    hostStep script own .ipv4ForwardEnable
    hostStep script own .natApply
    hostStep script own .forwardApply
    if config.dhcp then hostStep script own .dnsmasqStart
    else hostStep script own .dnsmasqStop

/-- `_cleanup_nat_cloud_runtime`. -/
def cleanupNatCloud (script : NetScript) (own : OwnBridge) : NetM Unit := do
  ignoreHostNetStep (hostStep script own .cleanupDnsmasqStop)
  ignoreHostNetStep (hostStep script own .cleanupForwardRemove)
  ignoreHostNetStep (hostStep script own .cleanupNatRemove)

/-- The network has a bridge of its own, and not the host's or that of the cloud it refers to. -/
def Network.ownsBridge (network : Network) : Bool :=
  !(network.type = .bridgeCloud) &&
    !(network.type = .natCloud && !(sharedCloudIdOf network.config = ""))

/-- `network_type == NAT_CLOUD_TYPE and not shared_cloud_id`. -/
def Network.ownsCloud (network : Network) : Bool :=
  network.type = .natCloud && sharedCloudIdOf network.config = ""

/-- The body of the `try` of `create_network`. -/
def provision (script : NetScript) (own : OwnBridge) (network : Network) : NetM Unit := do
  if network.ownsBridge then provisionOwnBridge script own
  if network.ownsCloud then ensureNatCloud script own network.config

def Lab.withoutNetwork (lab : Lab) (networkId : Int) : Lab :=
  { lab with networks := lab.networks.pop networkId }

/-- What the handlers of `NetworkServiceError` and of host errors do before they raise. -/
def rollBack (script : NetScript) (own : OwnBridge) (network : Network) (data : Lab) :
    NetM Unit := do
  writeLabStep script .rollbackWrite (data.withoutNetwork network.id)
  if network.ownsCloud then cleanupNatCloud script own

/-- The handlers of `create_network`. -/
def provisionFailed (script : NetScript) (own : OwnBridge) (network : Network) (data : Lab) :
    ProvisionError → NetM Unit
  | .network (.bridgeOwnership bridge) => do
    writeLabStep script .rollbackWrite (data.withoutNetwork network.id)
    throw (.network (.bridgeOwnership bridge))
  | .network (.service code message) => do
    rollBack script own network data
    throw (.network (.service code message))
  | .step .hostNet | .step .os => do
    rollBack script own network data
    throw (.network (.service 409 ("Failed to provision bridge " ++ own.name)))
  | .step .other => throw (.step .other)

/-- What a call of `create_network` finds beside the lab file and the host: the other labs, the
settings, and how its steps end. -/
structure NetEnv where
  labHash : String → Fin 65536
  natCloudPool : String
  lower : String → String
  labs : Dict String Lab
  labPath : String
  script : NetScript

def NetEnv.cloud (env : NetEnv) (s : NetCall) : CloudEnv :=
  { natCloudPool := env.natCloudPool, lower := env.lower, bridgeName := bridgeNameOf env.labHash
    bridgeExists := fun bridge =>
      !env.script.ipMissing && decide ((bridge, BridgePart.bridge) ∈ s.present)
    provisionFails := fun _ => none }

def NetEnv.host (env : NetEnv) (s : NetCall) (lab : Lab) : NetworkHost :=
  (env.cloud s).host (env.labs.set env.labPath lab) env.labPath lab

def Lab.ownBridge (lab : Lab) (network : Network) : OwnBridge :=
  { name := network.runtime.bridgeName.getD "", mark := { labId := lab.id, networkId := network.id } }

/-- What `create_network` does when its provisioning went through. -/
def NetEnv.finish (env : NetEnv) (network : Network) (data : Lab) : NetM Network := do
  if network.ownsCloud then writeLabStep env.script .finalWrite data
  modify (fun s => { s with
    registry := recomputeForLab env.lower s.registry env.labPath data })
  pure network

/-- `create_network` from the reading of the lab file on; its first write goes through. -/
def NetEnv.createNetwork (env : NetEnv) (request : NetworkCreate) : NetM Network := do
  let s ← get
  set { s with made := ∅ }
  match s.labJson with
  | none => throw (.network labDoesNotExist)
  | some lab =>
    match prepareNetwork (env.host s lab) lab request with
    | .error e => throw (.network e)
    | .ok network => do
      let own := lab.ownBridge network
      let data := { lab with networks := lab.networks.set network.id network }
      set { s with labJson := some data, made := ∅ }
      tryCatch (provision env.script own network)
        (provisionFailed env.script own network data)
      env.finish network data

end NovaVe
