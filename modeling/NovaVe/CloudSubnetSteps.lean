import NovaVe.SharedClouds
import NovaVe.IpamSteps

namespace NovaVe

variable {labs labs' : Dict String Lab}

/-- The subnet of a config, as the scan of a lab's networks reads it. -/
def NetworkConfig.subnet (config : NetworkConfig) : Option IPv4Network :=
  (given config.cidr).bind (fun cidr => (validateCidr (some cidr)).toOption)

def Network.subnet (network : Network) : Option IPv4Network := network.config.subnet

/-- What a reference copies from its owner. -/
def Network.terms (network : Network) : Option String × Option String × Option String :=
  (network.config.cidr, network.config.gateway, network.runtime.bridgeName)

def Apart (subnet other : Option IPv4Network) : Prop :=
  ∀ net ∈ subnet, ∀ net' ∈ other, net.overlaps net' = false

theorem IPv4Network.overlaps_comm (net other : IPv4Network) :
    net.overlaps other = other.overlaps net := by
  unfold IPv4Network.overlaps
  cases other.contains net.networkAddress <;> cases other.contains net.broadcastAddress <;>
    cases net.contains other.networkAddress <;> cases net.contains other.broadcastAddress <;> rfl

theorem Apart.symm {subnet other : Option IPv4Network} (h : Apart subnet other) :
    Apart other subnet := by
  intro net hnet net' hnet'
  rw [IPv4Network.overlaps_comm]
  exact h net' hnet' net hnet

/-- No owner of a NAT cloud shares an address with another owner or with a network of its own lab,
and every reference has its owner's terms. -/
structure SubnetsSound (labs : Dict String Lab) : Prop where
  owners : ∀ target target' owner owner', target ≠ target' →
    networkAt labs target = some owner → networkAt labs target' = some owner' →
    owner.IsOwner → owner'.IsOwner → Apart owner.subnet owner'.subnet
  ownLab : ∀ labPath id id' owner network, id ≠ id' →
    networkAt labs (labPath, id) = some owner → networkAt labs (labPath, id') = some network →
    owner.IsOwner → Apart owner.subnet network.subnet
  references : ∀ target network cloudId, networkAt labs target = some network →
    network.IsReference cloudId → ∃ owner, findNatCloudOwner labs cloudId = some owner ∧
      owner.network.terms = network.terms

/-- No owner in the lab, but for the record itself, shares an address with the subnet. -/
def ClearOfOwners (labs : Dict String Lab) (target : String × Int)
    (subnet : Option IPv4Network) : Prop :=
  ∀ id owner, id ≠ target.2 → networkAt labs (target.1, id) = some owner → owner.IsOwner →
    Apart subnet owner.subnet

/-- A record that may be written beside the others. -/
structure FitsSubnets (labs labs' : Dict String Lab) (target : String × Int) (network : Network) :
    Prop where
  owners : network.IsOwner → ∀ other owner, other ≠ target → networkAt labs other = some owner →
    owner.IsOwner → Apart network.subnet owner.subnet
  ownLab : network.IsOwner → ∀ id other, id ≠ target.2 →
    networkAt labs (target.1, id) = some other → Apart network.subnet other.subnet
  clear : ClearOfOwners labs target network.subnet
  reference : ∀ cloudId, network.IsReference cloudId → ∃ owner,
    findNatCloudOwner labs' cloudId = some owner ∧ owner.network.terms = network.terms
  referenced : ∀ cloudId, Referenced labs target cloudId →
    (findNatCloudOwner labs' cloudId).map (fun owner => owner.network.terms) =
      (findNatCloudOwner labs cloudId).map (fun owner => owner.network.terms)

/-- An owner with the same terms is found where one was found. -/
theorem found_terms {cloudId : String} {network : Network}
    (hmap : (findNatCloudOwner labs' cloudId).map (fun owner => owner.network.terms) =
      (findNatCloudOwner labs cloudId).map (fun owner => owner.network.terms))
    (h : ∃ owner, findNatCloudOwner labs cloudId = some owner ∧
      owner.network.terms = network.terms) :
    ∃ owner, findNatCloudOwner labs' cloudId = some owner ∧
      owner.network.terms = network.terms := by
  obtain ⟨owner, hfind, hterms⟩ := h
  rw [hfind, Option.map_some] at hmap
  obtain ⟨owner', hfind', hterms'⟩ := Option.map_eq_some_iff.mp hmap
  exact ⟨owner', hfind', hterms'.trans hterms⟩

theorem SubnetsSound.put {target : String × Int} {network : Network} (h : SubnetsSound labs)
    (put : PutNetwork labs labs' target network) (fits : FitsSubnets labs labs' target network) :
    SubnetsSound labs' := by
  constructor
  · intro first second owner owner' hne hat hat' howner howner'
    rw [put.lookup] at hat hat'
    split at hat
    next hfirst =>
      subst hfirst
      cases hat
      rw [if_neg hne] at hat'
      exact fits.owners howner second owner' (Ne.symm hne) hat' howner'
    next hfirst =>
      split at hat'
      next hsecond =>
        subst hsecond
        cases hat'
        exact (fits.owners howner' first owner (Ne.symm hfirst) hat howner).symm
      next => exact h.owners first second owner owner' hne hat hat' howner howner'
  · intro labPath id id' owner other hne hat hat' howner
    rw [put.lookup] at hat hat'
    split at hat
    next hfirst =>
      subst hfirst
      cases hat
      have hsecond : ¬ (labPath, id) = (labPath, id') := fun he => hne (congrArg Prod.snd he)
      rw [if_neg hsecond] at hat'
      exact fits.ownLab howner id' other (Ne.symm hne) hat'
    next =>
      split at hat'
      next hsecond =>
        subst hsecond
        cases hat'
        exact (fits.clear id owner hne hat howner).symm
      next => exact h.ownLab labPath id id' owner other hne hat hat' howner
  · intro other record cloudId hat href
    rw [put.lookup] at hat
    split at hat
    next =>
      cases hat
      exact fits.reference cloudId href
    next hother =>
      have hnamed : Referenced labs target cloudId := ⟨other, record, Ne.symm hother, hat, href⟩
      exact found_terms (fits.referenced cloudId hnamed) (h.references other record cloudId hat href)

/-- Removing a record that no reference resolves to keeps the subnets sound. -/
theorem SubnetsSound.pop {target : String × Int} (h : SubnetsSound labs)
    (pop : PopNetwork labs labs' target)
    (hfree : ∀ other record cloudId, networkAt labs other = some record →
      record.IsReference cloudId → findNatCloudOwner labs' cloudId = findNatCloudOwner labs cloudId) :
    SubnetsSound labs' := by
  have hat : ∀ other record, networkAt labs' other = some record →
      networkAt labs other = some record := by
    intro other record hrecord
    rw [pop.lookup] at hrecord
    split at hrecord
    next => cases hrecord
    next => exact hrecord
  constructor
  · intro first second owner owner' hne hfirst hsecond
    exact h.owners first second owner owner' hne (hat _ _ hfirst) (hat _ _ hsecond)
  · intro labPath id id' owner other hne hfirst hsecond
    exact h.ownLab labPath id id' owner other hne (hat _ _ hfirst) (hat _ _ hsecond)
  · intro other record cloudId hrecord href
    rw [hfree other record cloudId (hat _ _ hrecord) href]
    exact h.references other record cloudId (hat _ _ hrecord) href

/-- What keeps a new network's subnet clear of the NAT clouds: the checks that `create_network`
makes for a NAT cloud of its own, asked of the other networks too. -/
structure CreateKeepsSubnets (env : CloudEnv) (labs : Dict String Lab) (labPath : String)
    (lab : Lab) (request : NetworkCreate) : Prop where
  other : request.type ≠ .natCloud →
    ClearOfOwners labs (labPath, lab.networks.nextKey) request.config.subnet
  owner : request.type = .natCloud → sharedCloudIdOf request.config = "" →
    given request.config.sharedCloudId = none ∧
    ¬ Referenced labs (labPath, lab.networks.nextKey)
      (natCloudId (cloudLabId labPath lab) lab.networks.nextKey) ∧
    ∀ net target owner, networkAt labs target = some owner → owner.IsOwner →
      requestedCidr env.natCloudPool request.config lab.networks (ownerCidrs labs) = .ok net →
      ∀ subnet ∈ owner.subnet, net.overlaps subnet = true → subnet ∈ ownerCidrs labs
  reference : request.type = .natCloud → sharedCloudIdOf request.config ≠ "" →
    ∀ owner, findNatCloudOwner labs (sharedCloudIdOf request.config) = some owner →
      given owner.network.runtime.bridgeName ≠ none ∧
      ClearOfOwners labs (labPath, lab.networks.nextKey) owner.network.subnet

/-- What keeps the subnets sound when a patch gives a record another type or config. -/
structure PatchKeepsSubnets (labs : Dict String Lab) (target : String × Int)
    (network asked : Network) : Prop where
  owners : asked.IsOwner → ∀ other owner, other ≠ target → networkAt labs other = some owner →
    owner.IsOwner → Apart asked.subnet owner.subnet
  ownLab : asked.IsOwner → ∀ id other, id ≠ target.2 →
    networkAt labs (target.1, id) = some other → Apart asked.subnet other.subnet
  clear : ClearOfOwners labs target asked.subnet
  reference : ∀ cloudId lab, asked.IsReference cloudId → labs.get? target.1 = some lab →
    ownerIn cloudId target.1 lab network = none ∧ ∃ owner,
      findNatCloudOwner labs cloudId = some owner ∧ owner.network.terms = asked.terms
  referenced : ∀ lab, labs.get? target.1 = some lab →
    Referenced labs target (natCloudId (cloudLabId target.1 lab) network.id) →
    (network.IsOwner ↔ asked.IsOwner) ∧ (asked.IsOwner → asked.terms = network.terms)

/-- The condition under which a call keeps the subnets sound. -/
def KeepsSubnets (labs : Dict String Lab) : CloudEdit → Prop
  | .createNetwork env labPath request => ∀ lab, labs.get? labPath = some lab →
    CreateKeepsSubnets env labs labPath lab request
  | .patchNetwork _ labPath networkId patch => ∀ network,
    networkAt labs (labPath, networkId) = some network →
    checkNetworkPatch "PATCH" network patch = .ok () →
      PatchKeepsSubnets labs (labPath, networkId) network (askedRecord network patch)
  | .deleteNetwork _ _ _ => True

theorem subnet_mem_existing {networks : Dict Int Network} {id : Int} {network : Network}
    {net : IPv4Network} (hget : networks.get? id = some network)
    (hsubnet : network.subnet = some net) : net ∈ existingNetworkCidrs networks := by
  obtain ⟨cidr, hcidr, hnet⟩ := Option.bind_eq_some_iff.mp hsubnet
  refine List.mem_filterMap.mpr ⟨(id, network), Dict.mem_entries_of_get? hget, ?_⟩
  dsimp only
  rw [hcidr]
  exact hnet

theorem NatCloudRange.config_subnet (range : NatCloudRange) (raw : NetworkConfig) :
    (range.config raw).subnet = some range.net := by
  show (given (some range.net.text)).bind _ = _
  rw [given_text, Option.bind_some, validateCidr_text]
  rfl

/-- A network that is no NAT cloud fits when it is clear of the owners in its lab. -/
theorem fits_other {labPath : String} {lab : Lab} {network : Network}
    (hlab : labs.get? labPath = some lab)
    (put : PutNetwork labs labs' (labPath, lab.networks.nextKey) network)
    (htype : network.type ≠ .natCloud)
    (hclear : ClearOfOwners labs (labPath, lab.networks.nextKey) network.subnet) :
    FitsSubnets labs labs' (labPath, lab.networks.nextKey) network := by
  have hnot : ¬ network.IsOwner := fun howner => htype howner.1
  refine ⟨fun howner => absurd howner hnot, fun howner => absurd howner hnot, hclear, ?_, ?_⟩
  · exact fun cloudId href => absurd href.1 htype
  · intro cloudId _
    rw [find_fresh hlab put (ownerIn_none_of_not_owner hnot)]

/-- A NAT cloud of its own fits: its subnet was checked against its lab and the owners read. -/
theorem fits_owner {env : CloudEnv} {labPath : String} {lab : Lab} {request : NetworkCreate}
    {network : Network} {range : NatCloudRange}
    (hok : CreateKeepsSubnets env labs labPath lab request) (hlab : labs.get? labPath = some lab)
    (put : PutNetwork labs labs' (labPath, lab.networks.nextKey) network)
    (hrequest : request.type = .natCloud) (hshared : sharedCloudIdOf request.config = "")
    (hrange : natCloudRange env.natCloudPool request.config lab.networks (ownerCidrs labs) =
      .ok range) (hid : network.id = lab.networks.nextKey)
    (hconfig : network.config = range.config request.config) :
    FitsSubnets labs labs' (labPath, lab.networks.nextKey) network := by
  obtain ⟨hnone, hnamed, hread⟩ := hok.owner hrequest hshared
  obtain ⟨hcidr, _, hfree⟩ := natCloudRange_ok hrange
  have hsubnet : network.subnet = some range.net := by
    show network.config.subnet = some range.net
    rw [hconfig]
    exact range.config_subnet request.config
  have hgiven : given network.config.sharedCloudId = none := by
    rw [hconfig]
    exact hnone
  have hlabApart : ∀ id other, id ≠ lab.networks.nextKey →
      networkAt labs (labPath, id) = some other → Apart network.subnet other.subnet := by
    intro id other _ hat net hnet net' hnet'
    obtain ⟨lab', hlab', hget⟩ := networkAt_eq_some_iff.mp hat
    obtain rfl : lab = lab' := Option.some.inj (hlab.symm.trans hlab')
    obtain rfl : range.net = net := Option.some.inj (hsubnet.symm.trans hnet)
    exact hfree net' (List.mem_append_left _ (subnet_mem_existing hget hnet'))
  refine ⟨?_, fun _ => hlabApart, fun id owner hne hat _ => hlabApart id owner hne hat, ?_, ?_⟩
  · intro _ other owner _ hat howner net hnet net' hnet'
    obtain rfl : range.net = net := Option.some.inj (hsubnet.symm.trans hnet)
    cases hover : range.net.overlaps net' with
    | false => rfl
    | true =>
      have hmem := hread range.net other owner hat howner hcidr net' hnet' hover
      have hno := hfree net' (List.mem_append_right _ hmem)
      rw [hover] at hno
      exact hno
  · intro cloudId href
    have hsome := href.2
    rw [hgiven] at hsome
    cases hsome
  · intro cloudId hreferenced
    have hne : natCloudId (cloudLabId labPath lab) network.id ≠ cloudId := by
      intro he
      rw [hid] at he
      rw [he] at hnamed
      exact hnamed hreferenced
    rw [find_fresh hlab put (ownerIn_none_of_ne hne)]

/-- A reference fits: it has the owner's terms, and its owner is found as before. -/
theorem fits_reference {env : CloudEnv} {labPath : String} {lab : Lab} {request : NetworkCreate}
    {network : Network} {owner : CloudNetworkRef}
    (hok : CreateKeepsSubnets env labs labPath lab request) (hlab : labs.get? labPath = some lab)
    (put : PutNetwork labs labs' (labPath, lab.networks.nextKey) network)
    (hrequest : request.type = .natCloud) (hshared : sharedCloudIdOf request.config ≠ "")
    (hfind : findNatCloudOwner labs (sharedCloudIdOf request.config) = some owner)
    (hconfig : network.config =
      { owner.network.config with sharedCloudId := some (sharedCloudIdOf request.config) })
    (hbridge : ∀ bridge, given owner.network.runtime.bridgeName = some bridge →
      network.runtime.bridgeName = some bridge) :
    FitsSubnets labs labs' (labPath, lab.networks.nextKey) network := by
  obtain ⟨hstored, hclear⟩ := hok.reference hrequest hshared owner hfind
  have hgiven : given network.config.sharedCloudId = some (sharedCloudIdOf request.config) := by
    rw [hconfig]
    exact given_eq_some_iff.mpr ⟨rfl, hshared⟩
  have hnot : ¬ network.IsOwner := by
    rintro ⟨_, hnone⟩
    rw [hgiven] at hnone
    cases hnone
  have hsame : ∀ cloudId, findNatCloudOwner labs' cloudId = findNatCloudOwner labs cloudId :=
    fun cloudId => find_fresh hlab put (ownerIn_none_of_not_owner hnot)
  have hsubnet : network.subnet = owner.network.subnet := by
    show network.config.subnet = owner.network.config.subnet
    rw [hconfig]
    rfl
  refine ⟨fun howner => absurd howner hnot, fun howner => absurd howner hnot, ?_, ?_, ?_⟩
  · rw [hsubnet]
    exact hclear
  · intro cloudId href
    obtain rfl : sharedCloudIdOf request.config = cloudId :=
      Option.some.inj (hgiven.symm.trans href.2)
    refine ⟨owner, by rw [hsame, hfind], ?_⟩
    obtain ⟨bridge, hgivenBridge⟩ := Option.ne_none_iff_exists'.mp hstored
    have hown := (given_eq_some_iff.mp hgivenBridge).1
    unfold Network.terms
    rw [hbridge bridge hgivenBridge, hown, hconfig]
  · intro cloudId _
    rw [hsame]

theorem createNetworkIn_keeps {env : CloudEnv} {labPath : String} {request : NetworkCreate}
    (h : SubnetsSound labs)
    (hok : ∀ lab, labs.get? labPath = some lab → CreateKeepsSubnets env labs labPath lab request)
    (hcreate : createNetworkIn env labs labPath request = .ok labs') : SubnetsSound labs' := by
  obtain ⟨lab, hlab⟩ := createNetworkIn_lab hcreate
  obtain ⟨config, bridge, hconfig, _, hlabs⟩ := createNetworkIn_built hlab hcreate
  have put : PutNetwork labs labs' (labPath, lab.networks.nextKey) _ := ⟨lab, hlab, hlabs⟩
  refine h.put put ?_
  by_cases htype : request.type = .natCloud
  · have hnat : natCloudConfig env.natCloudPool labs request.config lab.networks =
        .ok (config, bridge) := by
      rw [← hconfig, normalizedConfig_natCloud htype]
    rcases natCloudConfig_cases hnat with
      ⟨hshared, _, range, hrange, hconf⟩ | ⟨hshared, owner, hfind, hconf, hbridge⟩
    · exact fits_owner (hok lab hlab) hlab put htype hshared hrange rfl hconf
    · refine fits_reference (hok lab hlab) hlab put htype hshared hfind hconf ?_
      intro stored hstored
      rw [hstored] at hbridge
      subst hbridge
      unfold buildNetwork
      simp only [htype, Option.getD_some]
  · have hsame : config = request.config := by
      unfold normalizedConfig at hconfig
      split at hconfig
      next hnat => exact absurd hnat htype
      next =>
        cases hconfig
        rfl
    subst hsame
    exact fits_other hlab put htype ((hok lab hlab).other htype)

theorem patchNetworkIn_keeps {env : CloudEnv} {labPath : String} {networkId : Int}
    {patch : NetworkUpdate} (h : SubnetsSound labs)
    (hok : KeepsSubnets labs (.patchNetwork env labPath networkId patch))
    (hpatch : patchNetworkIn env labs labPath networkId patch = .ok labs') :
    SubnetsSound labs' := by
  obtain ⟨network, network', hat, hcheck, put, same⟩ := patchNetworkIn_ok hpatch
  have keeps := hok network hat hcheck
  obtain ⟨lab, hlab, hget⟩ := networkAt_eq_some_iff.mp hat
  have hsubnet : network'.subnet = (askedRecord network patch).subnet := by
    unfold Network.subnet
    rw [same.config]
  have hterms : network'.terms = (askedRecord network patch).terms := by
    unfold Network.terms
    rw [same.config, same.runtime]
  have hid : network'.id = network.id := same.id
  refine h.put put ⟨?_, ?_, ?_, ?_, ?_⟩
  · intro howner
    rw [hsubnet]
    exact keeps.owners (same.isOwner_iff.mp howner)
  · intro howner
    rw [hsubnet]
    exact keeps.ownLab (same.isOwner_iff.mp howner)
  · rw [hsubnet]
    exact keeps.clear
  · intro cloudId href
    obtain ⟨hold, owner, hfind, howner⟩ :=
      keeps.reference cloudId lab (same.isReference_iff.mp href) hlab
    have hsame : findNatCloudOwner labs' cloudId = findNatCloudOwner labs cloudId := by
      apply put.find_eq
      · exact fun _ _ => ownerIn_none_of_not_owner href.not_owner
      · intro lab' old hlab' hget'
        obtain rfl : lab = lab' := Option.some.inj (hlab.symm.trans hlab')
        obtain rfl : network = old := Option.some.inj (hget.symm.trans hget')
        exact hold
    exact ⟨owner, hsame.trans hfind, howner.trans hterms.symm⟩
  · intro cloudId href
    apply put.find_map (fun owner => owner.network.terms)
    intro lab' hlab'
    obtain rfl : lab = lab' := Option.some.inj (hlab.symm.trans hlab')
    rw [hget, Option.bind_some]
    by_cases hcloud : natCloudId (cloudLabId labPath lab) network.id = cloudId
    · subst hcloud
      obtain ⟨hiff, hkept⟩ := keeps.referenced lab hlab href
      by_cases howner : network.IsOwner
      · have howner' := same.isOwner_iff.mpr (hiff.mp howner)
        unfold ownerIn
        rw [if_pos ⟨howner', by rw [hid]⟩, if_pos ⟨howner, rfl⟩]
        show some network'.terms = some network.terms
        rw [hterms, hkept (hiff.mp howner)]
      · have hnot : ¬ network'.IsOwner := fun h' => howner (hiff.mpr (same.isOwner_iff.mp h'))
        rw [ownerIn_none_of_not_owner hnot, ownerIn_none_of_not_owner howner]
    · have hne : natCloudId (cloudLabId labPath lab) network'.id ≠ cloudId := by
        rw [hid]
        exact hcloud
      rw [ownerIn_none_of_ne hne, ownerIn_none_of_ne hcloud]

/-- A deletion needs no condition: an owner with references is refused. -/
theorem deleteNetworkIn_keeps {env : CloudEnv} {labPath : String} {networkId : Int}
    (h : SubnetsSound labs) (hdelete : deleteNetworkIn env labs labPath networkId = .ok labs') :
    SubnetsSound labs' := by
  obtain ⟨_, _, _, _, pop, _⟩ := deleteNetworkIn_ok hdelete
  exact h.pop pop (deleteNetworkIn_find hdelete)

theorem cloudEdit_keeps {labs : Dict String Lab} {edit : CloudEdit} (h : SubnetsSound labs)
    (hok : KeepsSubnets labs edit) : SubnetsSound (cloudEdit labs edit) := by
  refine afterwards_inv h ?_
  intro labs' hresult
  cases edit with
  | createNetwork env labPath request => exact createNetworkIn_keeps h hok hresult
  | patchNetwork env labPath networkId patch => exact patchNetworkIn_keeps h hok hresult
  | deleteNetwork env labPath networkId => exact deleteNetworkIn_keeps h hresult

end NovaVe
