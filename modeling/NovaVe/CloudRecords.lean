import NovaVe.Dict
import NovaVe.IpamSteps

namespace NovaVe

variable {labs labs' : Dict String Lab} {labPath : String}

theorem natCloudRange_ok {pool : String} {raw : NetworkConfig} {networks : Dict Int Network}
    {hostUsed : List IPv4Network} {range : NatCloudRange}
    (h : natCloudRange pool raw networks hostUsed = .ok range) :
    requestedCidr pool raw networks hostUsed = .ok range.net ∧
      requestedGateway raw range.net = .ok range.gateway ∧
      ∀ net ∈ existingNetworkCidrs networks ++ hostUsed, range.net.overlaps net = false := by
  unfold natCloudRange at h
  obtain ⟨cidr, hcidr, h⟩ := bind_eq_ok.mp h
  obtain ⟨⟨net, hnet, hwide⟩, hchecked, h⟩ := bind_eq_ok.mp h
  obtain ⟨wanted, hwanted, h⟩ := bind_eq_ok.mp h
  obtain ⟨⟨gateway, hgateway, hin, hhost⟩, _, h⟩ := bind_eq_ok.mp h
  obtain ⟨dhcpStart, _, h⟩ := bind_eq_ok.mp h
  obtain ⟨dhcpEnd, _, h⟩ := bind_eq_ok.mp h
  obtain ⟨dhcp, _, h⟩ := bind_eq_ok.mp h
  cases h
  subst hnet
  subst hgateway
  refine ⟨hcidr, hwanted, ?_⟩
  intro other hother
  unfold checkedCidr at hchecked
  split at hchecked
  next => cases hchecked
  next =>
    split at hchecked
    next => cases hchecked
    next hfree => simpa using List.find?_eq_none.mp hfree other hother

/-- An owner that is found is a stored network of its own cloud. -/
theorem cloudOwner_found {labs : Dict String Lab} {cloud : String} {owner : CloudNetworkRef}
    (h : findNatCloudOwner labs cloud = some owner) :
    ∃ lab key network, labs.get? owner.labPath = some lab ∧
      lab.networks.get? key = some network ∧ network.type = .natCloud ∧
      cloudRef owner.labPath lab network = owner ∧ owner.isReference = false ∧
      owner.cloudId = cloud := by
  unfold findNatCloudOwner at h
  have htest := List.find?_some h
  rw [Bool.and_eq_true, Bool.not_eq_true', decide_eq_true_eq] at htest
  obtain ⟨path, lab, key, network, hlab, hnet, htype, howner⟩ :=
    mem_cloudRefs_iff.mp (List.mem_of_find?_eq_some h)
  have hpath : path = owner.labPath := by
    rw [← howner]
    rfl
  subst hpath
  exact ⟨lab, key, network, hlab, hnet, htype, howner, htest.1, htest.2⟩

/-- What the config of a new NAT cloud is: a range of its own, or its owner's with the owner's
bridge. -/
theorem natCloudConfig_cases {pool : String} {labs : Dict String Lab} {raw config : NetworkConfig}
    {networks : Dict Int Network} {bridge : Option String}
    (h : natCloudConfig pool labs raw networks = .ok (config, bridge)) :
    (sharedCloudIdOf raw = "" ∧ bridge = none ∧ ∃ range,
      natCloudRange pool raw networks (ownerCidrs labs) = .ok range ∧ config = range.config raw) ∨
    (sharedCloudIdOf raw ≠ "" ∧ ∃ owner,
      findNatCloudOwner labs (sharedCloudIdOf raw) = some owner ∧
      config = { owner.network.config with sharedCloudId := some (sharedCloudIdOf raw) } ∧
      bridge = given owner.network.runtime.bridgeName) := by
  unfold natCloudConfig at h
  split at h
  next hshared =>
    refine Or.inr ⟨hshared, ?_⟩
    unfold normalizeSharedNatCloudConfig at h
    split at h
    next => cases h
    next owner howner =>
      split at h
      next => cases h
      next =>
        split at h
        next => cases h
        next =>
          obtain ⟨hconfig, hbridge⟩ := Prod.mk.inj (Except.ok.inj h)
          exact ⟨owner, howner, hconfig.symm, hbridge.symm⟩
  next hshared =>
    have hempty : sharedCloudIdOf raw = "" := by
      by_contra hne
      exact hshared hne
    refine Or.inl ⟨hempty, ?_⟩
    unfold normalizeNatCloudConfig at h
    cases hrange : natCloudRange pool raw networks (ownerCidrs labs) with
    | error e =>
      rw [hrange] at h
      cases h
    | ok range =>
      rw [hrange] at h
      cases h
      exact ⟨rfl, range, rfl, rfl⟩

theorem natCloudConfig_ok {pool : String} {labs : Dict String Lab} {raw config : NetworkConfig}
    {networks : Dict Int Network} {bridge : Option String}
    (h : natCloudConfig pool labs raw networks = .ok (config, bridge)) :
    (sharedCloudIdOf raw = "" ∧ ∃ range, natCloudRange pool raw networks (ownerCidrs labs) =
      .ok range ∧ config = range.config raw) ∨
    (sharedCloudIdOf config = sharedCloudIdOf raw ∧ sharedCloudIdOf raw ≠ "" ∧
      (findNatCloudOwner labs (sharedCloudIdOf raw)).isSome) := by
  rcases natCloudConfig_cases h with ⟨hempty, _, range, hrange, hconfig⟩ | ⟨hne, owner, hfind, hconfig, _⟩
  · exact Or.inl ⟨hempty, range, hrange, hconfig⟩
  · refine Or.inr ⟨?_, hne, by rw [hfind]; rfl⟩
    rw [hconfig]
    exact pyStrip_idem _

theorem given_eq_some_iff {text : Option String} {t : String} :
    given text = some t ↔ text = some t ∧ t ≠ "" := by
  unfold given
  rw [Option.filter_eq_some_iff, decide_eq_true_eq]

/-- A new NAT cloud that comes with a bridge is a reference, and the bridge its owner's. -/
theorem natCloudConfig_bridge {pool bridge : String} {labs : Dict String Lab}
    {raw config : NetworkConfig} {networks : Dict Int Network}
    (h : natCloudConfig pool labs raw networks = .ok (config, some bridge)) :
    ∃ cloud owner, cloud ≠ "" ∧ findNatCloudOwner labs cloud = some owner ∧
      config.sharedCloudId = some cloud ∧ owner.network.runtime.bridgeName = some bridge := by
  rcases natCloudConfig_cases h with ⟨_, hnone, _⟩ | ⟨hne, owner, hfind, hconfig, hbridge⟩
  · cases hnone
  · refine ⟨_, owner, hne, hfind, ?_, (given_eq_some_iff.mp hbridge.symm).1⟩
    rw [hconfig]

def Lab.withNetwork (lab : Lab) (network : Network) : Lab :=
  { lab with networks := lab.networks.set lab.networks.nextKey network }

/-- A created network is the one that is built, in the lab it was asked for. -/
theorem createNetworkIn_built {env : CloudEnv} {lab : Lab} {request : NetworkCreate}
    (hlab : labs.get? labPath = some lab) (h : createNetworkIn env labs labPath request = .ok labs') :
    ∃ config bridge,
      normalizedConfig (env.host labs labPath lab) lab.networks request = .ok (config, bridge) ∧
      checkHostBridge (env.host labs labPath lab) request.type config = .ok () ∧
      labs' = labs.set labPath (lab.withNetwork (buildNetwork (env.host labs labPath lab) lab.id
        lab.networks.nextKey (pyStrip request.name) request config bridge)) := by
  unfold createNetworkIn at h
  rw [hlab] at h
  dsimp only at h
  split at h
  next => cases h
  next lab' hcreate =>
    cases h
    obtain ⟨network, runtime, hprepare, hruntime, rfl⟩ := createNetwork_prepared hcreate
    obtain ⟨-, config, bridge, hconfig, hhost, rfl⟩ := prepareNetwork_ok hprepare
    simp only [CloudEnv.host] at hruntime
    split at hruntime
    next => cases hruntime
    next =>
      cases hruntime
      exact ⟨config, bridge, hconfig, hhost, rfl⟩

theorem createNetworkIn_lab {env : CloudEnv} {request : NetworkCreate}
    (h : createNetworkIn env labs labPath request = .ok labs') :
    ∃ lab, labs.get? labPath = some lab := by
  unfold createNetworkIn at h
  split at h
  next => cases h
  next lab hlab => exact ⟨lab, hlab⟩

/-- The record `create_network` writes. -/
theorem createNetworkIn_ok {env : CloudEnv} {request : NetworkCreate}
    (h : createNetworkIn env labs labPath request = .ok labs') :
    ∃ lab network bridge, labs.get? labPath = some lab ∧
      PutNetwork labs labs' (labPath, lab.networks.nextKey) network ∧
      network.id = lab.networks.nextKey ∧ network.type = request.type ∧
      network.runtime.usedIps = [] ∧ network.runtime.firstOffset = 2 ∧
      normalizedConfig (env.host labs labPath lab) lab.networks request =
        .ok (network.config, bridge) := by
  obtain ⟨lab, hlab⟩ := createNetworkIn_lab h
  obtain ⟨config, bridge, hconfig, _, hlabs⟩ := createNetworkIn_built hlab h
  exact ⟨lab, _, bridge, hlab, ⟨lab, hlab, hlabs⟩, rfl, rfl, rfl, rfl, hconfig⟩

/-- An operation on one of the stored labs, written back when it succeeds. -/
def inLab (labs : Dict String Lab) (labPath : String) (op : Lab → Except NetworkError Lab) :
    Except NetworkError (Dict String Lab) :=
  match labs.get? labPath with
  | none => .error labDoesNotExist
  | some lab => match op lab with
    | .error e => .error e
    | .ok lab' => .ok (labs.set labPath lab')

def patchNetworkIn (env : CloudEnv) (labs : Dict String Lab) (labPath : String) (networkId : Int)
    (patch : NetworkUpdate) : Except NetworkError (Dict String Lab) :=
  inLab labs labPath (fun lab => patchNetwork (env.host labs labPath lab) lab networkId patch)

def updateNetworkIn (labs : Dict String Lab) (labPath : String) (networkId : Int)
    (patch : NetworkUpdate) : Except NetworkError (Dict String Lab) :=
  inLab labs labPath (fun lab => updateNetwork lab networkId patch)

def deleteNetworkIn (env : CloudEnv) (labs : Dict String Lab) (labPath : String)
    (networkId : Int) : Except NetworkError (Dict String Lab) :=
  inLab labs labPath (fun lab => deleteNetwork (env.host labs labPath lab) lab networkId)

/-- The calls of the network service that change the stored networks. -/
inductive CloudEdit
  | createNetwork (env : CloudEnv) (labPath : String) (request : NetworkCreate)
  | patchNetwork (env : CloudEnv) (labPath : String) (networkId : Int) (patch : NetworkUpdate)
  | deleteNetwork (env : CloudEnv) (labPath : String) (networkId : Int)

def CloudEdit.result (labs : Dict String Lab) : CloudEdit →
    Except NetworkError (Dict String Lab)
  | .createNetwork env labPath request => createNetworkIn env labs labPath request
  | .patchNetwork env labPath networkId patch => patchNetworkIn env labs labPath networkId patch
  | .deleteNetwork env labPath networkId => deleteNetworkIn env labs labPath networkId

def cloudEdit (labs : Dict String Lab) (edit : CloudEdit) : Dict String Lab :=
  afterwards labs (edit.result labs)

theorem inLab_ok {op : Lab → Except NetworkError Lab} (h : inLab labs labPath op = .ok labs') :
    ∃ lab lab', labs.get? labPath = some lab ∧ op lab = .ok lab' ∧
      labs' = labs.set labPath lab' := by
  unfold inLab at h
  split at h
  next => cases h
  next lab hlab =>
    split at h
    next => cases h
    next lab' hop =>
      cases h
      exact ⟨lab, lab', hlab, hop, rfl⟩

/-- The type and the config that a request asks a record to have. -/
def askedRecord (network : Network) (patch : NetworkUpdate) : Network :=
  { network with
    type := patch.type.getD network.type
    config := (patch.config.getD none).getD network.config }

/-- The fields a cloud is known by. -/
structure SameCloud (network network' : Network) : Prop where
  id : network'.id = network.id
  type : network'.type = network.type
  config : network'.config = network.config
  runtime : network'.runtime = network.runtime

theorem renameNetwork_same {host : NetworkHost} {networks : Dict Int Network} {networkId : Int}
    {network renamed : Network} {name : Option (Option String)}
    (h : renameNetwork host networks networkId network name = .ok renamed) :
    SameCloud network renamed := by
  unfold renameNetwork at h
  split at h
  next =>
    cases h
    exact ⟨rfl, rfl, rfl, rfl⟩
  next =>
    split at h
    next =>
      cases h
      exact ⟨rfl, rfl, rfl, rfl⟩
    next => cases h
  next =>
    dsimp only at h
    split at h
    next => cases h
    next =>
      split at h
      next =>
        cases h
        exact ⟨rfl, rfl, rfl, rfl⟩
      next =>
        cases h
        exact ⟨rfl, rfl, rfl, rfl⟩

/-- A patch writes the type and the config that it asks for, unchecked against the clouds. -/
theorem patchNetworkIn_ok {env : CloudEnv} {networkId : Int} {patch : NetworkUpdate}
    (h : patchNetworkIn env labs labPath networkId patch = .ok labs') :
    ∃ network network', networkAt labs (labPath, networkId) = some network ∧
      checkNetworkPatch "PATCH" network patch = .ok () ∧
      PutNetwork labs labs' (labPath, networkId) network' ∧
      SameCloud (askedRecord network patch) network' := by
  obtain ⟨lab, lab', hlab, hop, hlabs⟩ := inLab_ok h
  unfold patchNetwork at hop
  split at hop
  next => cases hop
  next network hget =>
    obtain ⟨renamed, hrenamed, hop⟩ := bind_eq_ok.mp hop
    obtain ⟨_, hcheck, hop⟩ := bind_eq_ok.mp hop
    cases hop
    have hsame := renameNetwork_same hrenamed
    refine ⟨network, applyNetworkPatch renamed patch, networkAt_eq_some_iff.mpr ⟨lab, hlab, hget⟩,
      hcheck, ⟨lab, hlab, hlabs⟩, hsame.id, ?_, ?_, hsame.runtime⟩
    · show patch.type.getD renamed.type = patch.type.getD network.type
      rw [hsame.type]
    · show (patch.config.getD none).getD renamed.config = (patch.config.getD none).getD network.config
      rw [hsame.config]

theorem updateNetworkIn_ok {networkId : Int} {patch : NetworkUpdate}
    (h : updateNetworkIn labs labPath networkId patch = .ok labs') :
    ∃ network network', networkAt labs (labPath, networkId) = some network ∧
      checkNetworkPatch "update" network patch = .ok () ∧
      PutNetwork labs labs' (labPath, networkId) network' ∧
      SameCloud (askedRecord network patch) network' := by
  obtain ⟨lab, lab', hlab, hop, hlabs⟩ := inLab_ok h
  unfold updateNetwork at hop
  split at hop
  next => cases hop
  next network hget =>
    obtain ⟨_, hcheck, hop⟩ := bind_eq_ok.mp hop
    cases hop
    exact ⟨network, _, networkAt_eq_some_iff.mpr ⟨lab, hlab, hget⟩, hcheck, ⟨lab, hlab, hlabs⟩,
      rfl, rfl, rfl, rfl⟩

def Network.IsOwner (network : Network) : Prop :=
  network.type = .natCloud ∧ given network.config.sharedCloudId = none

def Network.IsReference (network : Network) (cloudId : String) : Prop :=
  network.type = .natCloud ∧ given network.config.sharedCloudId = some cloudId

instance (network : Network) : Decidable network.IsOwner :=
  inferInstanceAs (Decidable (_ ∧ _))

theorem Network.IsReference.not_owner {network : Network} {cloudId : String}
    (h : network.IsReference cloudId) : ¬ network.IsOwner := by
  rintro ⟨_, hnone⟩
  have hsome := h.2
  rw [hnone] at hsome
  cases hsome

theorem SameCloud.isOwner_iff {network network' : Network} (h : SameCloud network network') :
    network'.IsOwner ↔ network.IsOwner := by
  unfold Network.IsOwner
  rw [h.type, h.config]

theorem SameCloud.isReference_iff {network network' : Network} (h : SameCloud network network')
    {cloudId : String} : network'.IsReference cloudId ↔ network.IsReference cloudId := by
  unfold Network.IsReference
  rw [h.type, h.config]

/-- Some record other than the one at `target` refers to the cloud. -/
def Referenced (labs : Dict String Lab) (target : String × Int) (cloudId : String) : Prop :=
  ∃ other network, other ≠ target ∧ networkAt labs other = some network ∧
    network.IsReference cloudId

/-- The step took one network record out of one lab. -/
structure PopNetwork (labs labs' : Dict String Lab) (target : String × Int) : Prop where
  removed : ∃ lab, labs.get? target.1 = some lab ∧
    labs' = labs.set target.1 { lab with networks := lab.networks.pop target.2 }

theorem PopNetwork.lookup {target : String × Int} (pop : PopNetwork labs labs' target)
    (other : String × Int) :
    networkAt labs' other = if target = other then none else networkAt labs other := by
  obtain ⟨lab, hlab, hlabs⟩ := pop.removed
  obtain ⟨path, id⟩ := target
  obtain ⟨otherPath, otherId⟩ := other
  subst hlabs
  by_cases hp : path = otherPath
  · subst hp
    have hget : networkAt labs (path, otherId) = lab.networks.get? otherId := by
      unfold networkAt
      rw [hlab, Option.bind_some]
    rw [hget]
    unfold networkAt
    rw [Dict.get?_set_self, Option.bind_some, Dict.get?_pop]
    simp
  · unfold networkAt
    rw [Dict.get?_set_ne _ _ hp]
    simp [hp]

/-- A deleted owner had no reference left. -/
theorem deleteNetworkIn_ok {env : CloudEnv} {networkId : Int}
    (h : deleteNetworkIn env labs labPath networkId = .ok labs') :
    ∃ lab network, labs.get? labPath = some lab ∧ lab.networks.get? networkId = some network ∧
      PopNetwork labs labs' (labPath, networkId) ∧
      (network.IsOwner → ∀ other record, networkAt labs other = some record →
        ¬ record.IsReference (natCloudId (cloudLabId labPath lab) network.id)) := by
  obtain ⟨lab, lab', hlab, hop, hlabs⟩ := inLab_ok h
  unfold deleteNetwork at hop
  split at hop
  next => cases hop
  next network hget =>
    split at hop
    next => cases hop
    next =>
      split at hop
      next => cases hop
      next =>
        split at hop
        next => cases hop
        next hfree =>
          cases hop
          refine ⟨lab, network, hlab, hget, ⟨lab, hlab, hlabs⟩, ?_⟩
          rintro ⟨htype, hshared⟩ other record hat ⟨hrtype, hrshared⟩
          refine hfree ⟨htype, ?_, ?_⟩
          · have hnone := hshared
            unfold given at hnone
            cases hs : network.config.sharedCloudId with
            | none => rfl
            | some text =>
              rw [hs, Option.filter_some] at hnone
              split at hnone
              next => cases hnone
              next hempty => simpa using hempty
          · obtain ⟨refLab, hrefLab, hrefGet⟩ := networkAt_eq_some_iff.mp hat
            have hmem : cloudRef other.1 refLab record ∈ cloudRefs labs :=
              mem_cloudRefs_iff.mpr ⟨_, _, _, _, hrefLab, hrefGet, hrtype, rfl⟩
            refine List.any_eq_true.mpr ⟨_, hmem, ?_⟩
            simp [cloudRef, hrshared]

end NovaVe
