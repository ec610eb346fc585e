import NovaVe.BridgeOwners
import NovaVe.SharedClouds
import NovaVe.SiteFrames
import NovaVe.Topology

namespace NovaVe

/-- `br-eth*`. -/
def isHostOwned (name : String) : Bool := "br-eth".toList.isPrefixOf name.toList

/-- The verbs of `host_net` that change a bridge or what is on it. -/
inductive BridgeVerb
  | bridgeAdd | bridgeDel | linkMaster | linkMasterHost
deriving DecidableEq, Repr

/-- The verb that a command becomes, with its bridge; `link_master_any` looks at the name. -/
def HostCall.bridgeVerb? : HostCall → Option (BridgeVerb × String)
  | .bridgeAdd bridge => some (.bridgeAdd, bridge)
  | .bridgeDel bridge => some (.bridgeDel, bridge)
  | .linkMaster _ bridge =>
    some (if isHostBridgeName bridge then .linkMasterHost else .linkMaster, bridge)
  | _ => none

theorem isHostOwned_bridgeNameOf (labHash : String → Fin 65536) (labId : String) (networkId : Int) :
    isHostOwned (bridgeNameOf labHash labId networkId) = false := by
  have hname : (bridgeNameOf labHash labId networkId).toList =
      bridgeNameText (labHash labId) networkId := String.toList_ofList
  unfold isHostOwned
  rw [hname]
  rfl

/-- The record names a host-owned bridge. -/
structure Network.OnHostBridge (network : Network) (bridge : String) : Prop where
  stored : network.runtime.bridgeName = some bridge
  owned : isHostOwned bridge = true

/-- The record is a bridge cloud, by everything that the code looks at. -/
structure Network.IsBridgeCloud (network : Network) (bridge : String) : Prop where
  type : network.type = .bridgeCloud
  driver : network.runtime.driver = some "bridge_cloud"
  name : isHostBridgeName bridge = true

/-- Which interface of which node is joined to which network. -/
abbrev Joining : Type := Int → Int → Int → Prop

variable {joins : Joining}

/-- Only bridge clouds name a host-owned bridge, and the interfaces are joined as allowed. -/
structure Lab.HostSound (joins : Joining) (lab : Lab) : Prop where
  hosted : ∀ key network bridge, lab.networks.get? key = some network →
    network.OnHostBridge bridge → network.IsBridgeCloud bridge
  within : ∀ nodeId interfaceIndex key, lab.Joins nodeId interfaceIndex key →
    joins nodeId interfaceIndex key

/-- The interface is joined to a bridge cloud of the lab on the bridge. -/
def Lab.HasBridgeCloud (lab : Lab) (joins : Joining) (port : Port) (bridge : String) : Prop :=
  ∃ key network, lab.networks.get? key = some network ∧ network.type = .bridgeCloud ∧
    network.runtime.bridgeName = some bridge ∧ joins port.interface.1 port.interface.2 key

/-- A command that leaves the host-owned bridges alone, but for an interface on its bridge cloud. -/
def Lab.Spares (lab : Lab) (joins : Joining) (c : HostCall) : Prop :=
  ∀ verb bridge, c.bridgeVerb? = some (verb, bridge) → isHostOwned bridge = true →
    verb = .linkMasterHost ∧ ∃ port, c = .linkMaster port bridge ∧
      lab.HasBridgeCloud joins port bridge

theorem plain_spares (lab : Lab) : Plain (lab.Spares joins) := by
  intro c hnone verb bridge hverb
  cases c <;> simp only [HostCall.bridge?, HostCall.bridgeVerb?, reduceCtorEq] at hnone hverb

theorem reshapes_spares (lab : Lab) {bridge : String} (h : isHostOwned bridge = false) :
    Reshapes (lab.Spares joins) bridge := by
  refine ⟨fun verb other hverb howned => ?_, fun verb other hverb howned => ?_⟩
  · obtain ⟨_, rfl⟩ := Prod.mk.inj (Option.some.inj hverb)
    rw [h] at howned
    cases howned
  · obtain ⟨_, rfl⟩ := Prod.mk.inj (Option.some.inj hverb)
    rw [h] at howned
    cases howned

/-- A record's bridge that the host owns is stored in the record. -/
theorem networkBridge_owned {labHash : String → Fin 65536} {lab : Lab} {networkId : Int}
    (h : isHostOwned (networkBridge (bridgeNameOf labHash) lab networkId) = true) :
    ∃ network, lab.networks.get? networkId = some network ∧
      network.OnHostBridge (networkBridge (bridgeNameOf labHash) lab networkId) := by
  have hstored : ((lab.networks.get? networkId).bind
      (fun network => network.runtime.bridgeName)).getD "" ≠ "" := by
    intro hempty
    unfold networkBridge at h
    dsimp only at h
    rw [if_pos hempty, isHostOwned_bridgeNameOf] at h
    cases h
  have hbridge : networkBridge (bridgeNameOf labHash) lab networkId =
      ((lab.networks.get? networkId).bind (fun network => network.runtime.bridgeName)).getD "" := by
    unfold networkBridge
    dsimp only
    rw [if_neg hstored]
  cases hnet : lab.networks.get? networkId with
  | none =>
    rw [hnet] at hstored
    exact absurd rfl hstored
  | some network =>
    refine ⟨network, rfl, ?_, h⟩
    rw [hbridge, hnet, Option.bind_some]
    rw [hnet, Option.bind_some] at hstored
    cases hname : network.runtime.bridgeName with
    | none =>
      rw [hname] at hstored
      exact absurd rfl hstored
    | some name => rfl

theorem networkBridge_not_owned {labHash : String → Fin 65536} {lab : Lab}
    (hsound : lab.HostSound joins) {networkId : Int} (hdriver : networkDriver? lab networkId ≠ some "bridge_cloud") :
    isHostOwned (networkBridge (bridgeNameOf labHash) lab networkId) = false := by
  rw [← Bool.not_eq_true]
  intro howned
  obtain ⟨network, hnet, hon⟩ := networkBridge_owned howned
  apply hdriver
  unfold networkDriver?
  rw [hnet, Option.bind_some]
  exact (hsound.hosted networkId network _ hnet hon).driver

/-- The interfaces of a lab may go on the bridges of their networks: those the host owns are bridge
clouds'. -/
theorem givesOnNetworks_spares {labHash : String → Fin 65536} {lab : Lab}
    (hsound : lab.HostSound joins) :
    GivesOnNetworks (bridgeNameOf labHash) lab (lab.Spares joins) := by
  intro networkId port hjoined verb bridge hverb howned
  obtain ⟨hname, rfl⟩ := Prod.mk.inj (Option.some.inj hverb)
  obtain ⟨network, hnet, hon⟩ := networkBridge_owned howned
  have hcloud := hsound.hosted networkId network _ hnet hon
  rw [if_pos hcloud.name] at hname
  exact ⟨hname.symm, port, rfl, networkId, network, hnet, hcloud.type, hon.stored,
    hsound.within _ _ _ hjoined⟩

/-- The later record is on the bridge that the earlier one was on, as the same kind of network. -/
structure SameHost (before after : Network) : Prop where
  type : after.type = before.type
  driver : after.runtime.driver = before.runtime.driver
  bridge : after.runtime.bridgeName = before.runtime.bridgeName

theorem SameHost.refl (network : Network) : SameHost network network := ⟨rfl, rfl, rfl⟩

/-- Every record of the later lab that names a host-owned bridge is one of the earlier lab's, and its
interfaces are joined as allowed if those of the earlier one were. -/
structure HostedFrom (joins : Joining) (lab lab' : Lab) : Prop where
  id : lab'.id = lab.id
  records : ∀ key network bridge, lab'.networks.get? key = some network →
    network.OnHostBridge bridge →
    ∃ before, lab.networks.get? key = some before ∧ SameHost before network
  within : (∀ nodeId interfaceIndex key, lab.Joins nodeId interfaceIndex key →
      joins nodeId interfaceIndex key) →
    ∀ nodeId interfaceIndex key, lab'.Joins nodeId interfaceIndex key →
      joins nodeId interfaceIndex key

theorem HostedFrom.refl (lab : Lab) : HostedFrom joins lab lab :=
  ⟨rfl, fun _ network _ hget _ => ⟨network, hget, SameHost.refl network⟩, fun h => h⟩

theorem HostedFrom.trans {first second third : Lab} (h : HostedFrom joins first second)
    (h' : HostedFrom joins second third) : HostedFrom joins first third := by
  refine ⟨h'.id.trans h.id, fun key network bridge hget hon => ?_, fun hw => h'.within (h.within hw)⟩
  obtain ⟨middle, hmiddle, hsame⟩ := h'.records key network bridge hget hon
  have honMiddle : middle.OnHostBridge bridge := ⟨hsame.bridge ▸ hon.stored, hon.owned⟩
  obtain ⟨before, hbefore, hsame'⟩ := h.records key middle bridge hmiddle honMiddle
  exact ⟨before, hbefore, hsame.type.trans hsame'.type, hsame.driver.trans hsame'.driver,
    hsame.bridge.trans hsame'.bridge⟩

theorem HostedFrom.sound {lab lab' : Lab} (h : HostedFrom joins lab lab')
    (hsound : lab.HostSound joins) : lab'.HostSound joins := by
  refine ⟨fun key network bridge hget hon => ?_, h.within hsound.within⟩
  obtain ⟨before, hbefore, hsame⟩ := h.records key network bridge hget hon
  have hcloud := hsound.hosted key before bridge hbefore ⟨hsame.bridge ▸ hon.stored, hon.owned⟩
  exact ⟨hsame.type.trans hcloud.type, hsame.driver.trans hcloud.driver, hcloud.name⟩

/-- What is right for the later lab was right for the earlier one. -/
theorem HostedFrom.spares {lab lab' : Lab} (h : HostedFrom joins lab lab') {c : HostCall}
    (hc : lab'.Spares joins c) : lab.Spares joins c := by
  intro verb bridge hverb howned
  obtain ⟨hhost, port, hcall, key, network, hget, htype, hstored, hjoined⟩ := hc verb bridge hverb howned
  obtain ⟨before, hbefore, hsame⟩ := h.records key network bridge hget ⟨hstored, howned⟩
  exact ⟨hhost, port, hcall, key, before, hbefore, hsame.type ▸ htype, hsame.bridge ▸ hstored,
    hjoined⟩

/-- The later lab joins only what the earlier one did. -/
structure WiredFrom (lab lab' : Lab) : Prop where
  links : ∀ l' ∈ lab'.links, ∃ l ∈ lab.links, l.attachment? = l'.attachment?
  nodes : ∀ key node', lab'.nodes.get? key = some node' → ∃ node,
    lab.nodes.get? key = some node ∧ node.id = node'.id ∧
      node.interfaces.map Iface.index = node'.interfaces.map Iface.index

theorem joins_of_wiredFrom {lab lab' : Lab} (h : WiredFrom lab lab') {nodeId interfaceIndex key : Int}
    (hjoins : lab'.Joins nodeId interfaceIndex key) : lab.Joins nodeId interfaceIndex key := by
  obtain ⟨l', hl', nodeKey, place, hwired, hat⟩ := hjoins
  obtain ⟨l, hl, hsame⟩ := h.links l' hl'
  refine ⟨l, hl, nodeKey, place, hsame.trans hwired, hat.imp id (fun hplace => ?_)⟩
  obtain ⟨node', hnode', hid, position, hposition, hindex⟩ := hplace
  obtain ⟨node, hnode, hid', hindices⟩ := h.nodes nodeKey node' hnode'
  exact ⟨node, hnode, hid'.trans hid, position, hposition, by rw [hindices, hindex]⟩

theorem hostedFrom_same {lab lab' : Lab} (hid : lab'.id = lab.id)
    (hnets : lab'.networks = lab.networks) (hwired : WiredFrom lab lab') :
    HostedFrom joins lab lab' :=
  ⟨hid, fun _ network _ hget _ => ⟨network, hnets ▸ hget, SameHost.refl network⟩,
    fun h nodeId interfaceIndex key hjoins =>
      h nodeId interfaceIndex key (joins_of_wiredFrom hwired hjoins)⟩

/-- One record is written: it stays on its bridge, or is on one that the host does not own. -/
theorem hostedFrom_set {lab : Lab} {key : Int} {network : Network}
    (hnew : ∀ bridge, network.OnHostBridge bridge →
      ∃ before, lab.networks.get? key = some before ∧ SameHost before network) :
    HostedFrom joins lab { lab with networks := lab.networks.set key network } := by
  refine ⟨rfl, fun other found bridge hget hon => ?_, fun h => h⟩
  dsimp only at hget
  rw [Dict.get?_set] at hget
  split at hget
  next hkey =>
    subst hkey
    obtain rfl := Option.some.inj hget
    exact hnew bridge hon
  next => exact ⟨found, hget, SameHost.refl found⟩

theorem hostedFrom_pop (lab : Lab) (key : Int) :
    HostedFrom joins lab { lab with networks := lab.networks.pop key } := by
  refine ⟨rfl, fun other found bridge hget _ => ⟨found, ?_, SameHost.refl found⟩, fun h => h⟩
  have hpop : (if key = other then none else lab.networks.get? other) = some found := by
    rw [← Dict.get?_pop]
    exact hget
  split at hpop
  next => cases hpop
  next => exact hpop

/-- One record is edited, and was not on a host-owned bridge unless it stays there. -/
theorem hostedFrom_edit {lab : Lab} {networkId : Int} {f : Network → Network}
    (hf : ∀ network bridge, lab.networks.get? networkId = some network →
      (f network).OnHostBridge bridge → SameHost network (f network)) :
    HostedFrom joins lab (lab.editNetwork networkId f) := by
  refine ⟨rfl, fun key found bridge hget hon => ?_, fun h => h⟩
  unfold Lab.editNetwork at hget
  dsimp only at hget
  rw [Dict.get?_modify] at hget
  split at hget
  next hkey =>
    obtain ⟨network, hnetwork, hfound⟩ := Option.map_eq_some_iff.mp hget
    subst hkey
    subst hfound
    exact ⟨network, hnetwork, hf network bridge hnetwork hon⟩
  next => exact ⟨found, hget, SameHost.refl found⟩

/-- A write of the stored labs that the host has no part in. -/
def storeLabs (result : Except NetworkError (Dict String Lab)) : SiteM Unit :=
  match result with
  | .error _ => throw .other
  | .ok labs => modify (fun site => { site with labs := labs })

def siteCreateLab (labPath labId : String) (labMeta : Dict String String) : SiteM Unit := do
  let site ← get
  storeLabs (match site.labs.get? labPath with
    | some _ => .error (.service 409 "Lab file already exists")
    | none => .ok (site.labs.set labPath (emptyLabJson labId labMeta)))

def sitePatchNetwork (env : SiteEnv) (labPath : String) (networkId : Int) (patch : NetworkUpdate) :
    SiteM Unit := do
  let site ← get
  storeLabs (patchNetworkIn (env.cloud site) site.labs labPath networkId patch)

def siteUpdateNetwork (labPath : String) (networkId : Int) (patch : NetworkUpdate) :
    SiteM Unit := do
  let site ← get
  storeLabs (updateNetworkIn site.labs labPath networkId patch)

/-- The bridge of a record goes with it, unless the host or the owner of a shared cloud has it. -/
def ownsBridge (network : Network) (sharedCloudId : String) : Bool :=
  decide (network.type ≠ .bridgeCloud) &&
    decide (network.runtime.driver ≠ some "bridge_cloud") &&
    !(decide (network.type = .natCloud) && decide (sharedCloudId ≠ ""))

/-- `delete_network`: the record goes first, then its bridge. -/
def siteDeleteNetwork (env : SiteEnv) (labPath : String) (networkId : Int) : SiteM Unit := do
  let site ← get
  match site.labs.get? labPath, deleteNetworkIn (env.cloud site) site.labs labPath networkId with
  | some lab, .ok labs => do
    modify (fun site => { site with labs := labs })
    match lab.networks.get? networkId with
    | none => pure ()
    | some network =>
      onHost env.labHash lab.id networkId
        (if ownsBridge network (sharedCloudIdOf network.config) then
          ignoreHostNet (bridgeDel (networkBridge env.bridgeName lab networkId))
        else pure ())
  | _, _ => throw .other

/-- `update_topology`; a failure of the reconcile is not told. -/
def siteUpdateTopology (env : SiteEnv) (source : NicSource) (labPath : String)
    (payload : TopologyPayload) : SiteM Unit := do
  let site ← get
  match site.labs.get? labPath with
  | none => throw .other
  | some lab =>
    match updateTopology lab payload with
    | .error _ => throw .other
    | .ok data => do
      modify (fun site => { site with labs := site.labs.set labPath data })
      onHost env.labHash lab.id 0 (reconcileAfterLink env source data)

/-- Phase 2 of `_delete_link_locked`: every endpoint with a runtime record is detached, and the first
failure is raised after the last of them. -/
def detachEndpoints (expectedGeneration : Option Int) (primaryError : Option Exc) :
    List (Int × Int) → HostM Unit
  | [] => match primaryError with
    | some e => throw e
    | none => pure ()
  | (nodeId, interfaceIndex) :: rest => do
    match ← runtimeRecord nodeId true with
    | none => detachEndpoints expectedGeneration primaryError rest
    | some runtime =>
      if runtime.kind = .other then detachEndpoints expectedGeneration primaryError rest
      else do
        if runtime.kind = .qemu then setQemuNicLink nodeId interfaceIndex false
        match ← attempt (detachInterface runtime.kind nodeId interfaceIndex expectedGeneration) with
        | .ok _ => detachEndpoints expectedGeneration primaryError rest
        | .error e =>
          if e.isRuntime || e.isHostNet then
            detachEndpoints expectedGeneration (primaryError <|> some e) rest
          else throw e

/-- Phase 3: the address of the link is released where its network keeps its addresses. -/
def releaseLinkIp (labs : Dict String Lab) (labPath : String) (target : Link) :
    Except NetworkError (Dict String Lab) :=
  match target.runtime.ip, target.networks.head?, target.ifaces.isEmpty with
  | some ip, some networkId, false =>
    if ip = "" then .ok labs
    else (NetworkService.releaseIp false labs labPath networkId ip).map Prod.fst
  | _, _, _ => .ok labs

/-- `delete_link`. -/
def siteDeleteLink (env : SiteEnv) (source : NicSource) (labPath linkId : String) : SiteM Unit := do
  let site ← get
  match site.labs.get? labPath with
  | none => throw .other
  | some lab =>
    match findLink lab linkId with
    | none => pure ()
    | some target => do
      let stamp := target.runtime.attachGeneration.getD 0
      onHost env.labHash lab.id 0
        (detachEndpoints (if stamp = 0 then none else some stamp) none target.ifaces)
      storeLabs (releaseLinkIp site.labs labPath target)
      let released ← get
      match released.labs.get? labPath with
      | none => throw .other
      | some lab' => do
        let data := removeLink lab' target linkId
        modify (fun site => { site with labs := site.labs.set labPath data })
        onHost env.labHash lab.id 0 (reconcileAfterLink env source data)

def siteStopNode (env : SiteEnv) (labPath : String) (nodeId : Int) : SiteM Unit := do
  let site ← get
  match site.labs.get? labPath with
  | none => throw .other
  | some lab => onHost env.labHash lab.id 0 (stopNode nodeId)

/-- One network of `_cleanup_lab_network_runtime`; a host-owned name that gets this far stops it. -/
def cleanupNetwork (env : SiteEnv) (lab : Lab) (entry : Int × Network) : HostM Unit :=
  let bridge := networkBridge env.bridgeName lab entry.1
  if !ownsBridge entry.2 (entry.2.config.sharedCloudId.getD "") then pure ()
  else if isHostOwned bridge then throw .other
  else ignoreHostNet (bridgeDel bridge)

/-- `delete_lab`; for a lab file without a database row nothing is asked of the host. -/
def siteDeleteLab (env : SiteEnv) (labPath : String) (row : Bool) : SiteM Unit := do
  let site ← get
  match site.labs.get? labPath, deleteLabIn site.labs labPath with
  | some lab, .ok labs => do
    onHost env.labHash lab.id 0
      (if row then lab.networks.entries.forM (cleanupNetwork env lab) else pure ())
    modify (fun site => { site with labs := labs })
  | _, _ => throw .other

/-- The calls of the API that write networks or have the host work on bridges and interfaces. -/
inductive ApiCall
  | site (call : SiteCall)
  | createLab (labPath labId : String) (labMeta : Dict String String)
  | patchNetwork (labPath : String) (networkId : Int) (patch : NetworkUpdate)
  | updateNetwork (labPath : String) (networkId : Int) (patch : NetworkUpdate)
  | deleteNetwork (labPath : String) (networkId : Int)
  | updateTopology (source : NicSource) (labPath : String) (payload : TopologyPayload)
  | deleteLink (source : NicSource) (labPath linkId : String)
  | stopNode (labPath : String) (nodeId : Int)
  | deleteLab (labPath : String) (row : Bool)

def ApiCall.program (env : SiteEnv) : ApiCall → SiteM Unit
  | .site call => call.program env
  | .createLab labPath labId labMeta => siteCreateLab labPath labId labMeta
  | .patchNetwork labPath networkId patch => sitePatchNetwork env labPath networkId patch
  | .updateNetwork labPath networkId patch => siteUpdateNetwork labPath networkId patch
  | .deleteNetwork labPath networkId => siteDeleteNetwork env labPath networkId
  | .updateTopology source labPath payload => siteUpdateTopology env source labPath payload
  | .deleteLink source labPath linkId => siteDeleteLink env source labPath linkId
  | .stopNode labPath nodeId => siteStopNode env labPath nodeId
  | .deleteLab labPath row => siteDeleteLab env labPath row

/-- The lab as a call that asks for links writes it. -/
def ApiCall.wired? (labPath : String) (lab : Lab) : ApiCall → Option Lab
  | .site (.createLink _ path a b style) =>
    if path = labPath then (createLinkData lab a b style).toOption.map CreatedLink.data else none
  | .updateTopology _ path payload =>
    if path = labPath then (NovaVe.updateTopology lab payload).toOption else none
  | _ => none

/-- The interface is joined to the network, by the stored lab or by the links that the call asks
for. -/
def ApiCall.Joined (call : ApiCall) (labs : Dict String Lab) (labPath : String) : Joining :=
  fun nodeId interfaceIndex networkId => ∃ lab, labs.get? labPath = some lab ∧
    (lab.Joins nodeId interfaceIndex networkId ∨
      ∃ wired, call.wired? labPath lab = some wired ∧
        wired.Joins nodeId interfaceIndex networkId)

/-- The bridge clouds that `create_network` has made: the lab, the network and the
`config.host_bridge` that was asked for. -/
abbrev BridgeClouds : Type := List (String × Int × String)

/-- The bridge cloud that a call makes if it returns. -/
def ApiCall.madeCloud (site : Site) : ApiCall → BridgeClouds
  | .site (.createNetwork labPath request) =>
    match site.labs.get? labPath, request.type, request.config.hostBridge with
    | some lab, .bridgeCloud, some bridge => [(lab.id, lab.networks.nextKey, bridge)]
    | _, _, _ => []
  | _ => []

/-- A site with the bridge clouds that were created on it. -/
structure CloudSite where
  site : Site
  created : BridgeClouds := []

/-- The site after a call; `given` are the commands of this call. -/
def apiStep (env : SiteEnv) (s : CloudSite) (call : ApiCall × List Reply) : CloudSite :=
  match (call.1.program env).run { s.site with replies := call.2, given := [] } with
  | .ok _ after => { site := after, created := s.created ++ call.1.madeCloud s.site }
  | .error _ after => { s with site := after }

end NovaVe
