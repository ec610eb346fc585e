import NovaVe.IpamSteps
import NovaVe.Runs

namespace NovaVe

/-- The stored labs, and the addresses handed out and not given back, each with the record it was
taken from. -/
structure CloudState where
  labs : Dict String Lab
  leases : List ((String × Int) × String) := []

inductive CloudCall
  | createNetwork (env : CloudEnv) (labPath : String) (request : NetworkCreate)
  | allocateIp (labPath : String) (networkId : Int)
  | releaseIp (lockHeld : Bool) (labPath : String) (networkId : Int) (ip : String)

def allocateStep (s : CloudState) (labPath : String) (networkId : Int) : CloudState :=
  match NetworkService.ipamTarget s.labs labPath networkId,
      NetworkService.allocateIp s.labs labPath networkId with
  | .ok target, .ok (labs, ip) => { labs := labs, leases := (target, ip) :: s.leases }
  | _, _ => s

def releaseStep (s : CloudState) (lockHeld : Bool) (labPath : String) (networkId : Int)
    (ip : String) : CloudState :=
  match NetworkService.releaseTarget lockHeld s.labs labPath networkId,
      NetworkService.releaseIp lockHeld s.labs labPath networkId ip with
  | .ok (some target), .ok (labs, true) => { labs := labs, leases := s.leases.erase (target, ip) }
  | _, _ => s

def cloudStep (s : CloudState) : CloudCall → CloudState
  | .createNetwork env labPath request =>
    { s with labs := afterwards s.labs (createNetworkIn env s.labs labPath request) }
  | .allocateIp labPath networkId => allocateStep s labPath networkId
  | .releaseIp lockHeld labPath networkId ip => releaseStep s lockHeld labPath networkId ip

def leasesOf (s : CloudState) (target : String × Int) : List String :=
  (s.leases.filter (fun lease => decide (lease.1 = target))).map Prod.snd

/-- A new cloud asks for no gateway, or for the first address of its subnet. -/
def ReservesGateway (s : CloudState) : CloudCall → Prop
  | .createNetwork env labPath request =>
    request.type = .natCloud → sharedCloudIdOf request.config = "" →
      ∀ lab net gateway, s.labs.get? labPath = some lab →
        requestedCidr env.natCloudPool request.config lab.networks (ownerCidrs s.labs) = .ok net →
        requestedGateway request.config net = .ok gateway → gateway = net.networkAddress + 1
  | .allocateIp _ _ => True
  | .releaseIp _ _ _ _ => True

/-- Every NAT cloud, through its owner or a reference to it: its leases are different usable
addresses, and an allocation fails only when all of them are leased. -/
def CloudsSafe (s : CloudState) : Prop :=
  ∀ labPath networkId network, networkAt s.labs (labPath, networkId) = some network →
    network.type = .natCloud → ∃ target owner range,
      NetworkService.ipamTarget s.labs labPath networkId = .ok target ∧
      networkAt s.labs target = some owner ∧ owner.Ranged range ∧
      ((leasesOf s target).map parseIPv4).Nodup ∧
      (∀ ip ∈ leasesOf s target, ∃ a, parseIPv4 ip = some a ∧ range.Usable a) ∧
      ∀ e, NetworkService.allocateIp s.labs labPath networkId = .error e →
        ∀ a, range.Usable a → ipv4Text a ∈ leasesOf s target

structure CloudInv (s : CloudState) : Prop where
  numbered : ∀ target network, networkAt s.labs target = some network →
    network.type = .natCloud → network.id = target.2
  owned : ∀ target network, networkAt s.labs target = some network → network.type = .natCloud →
    sharedCloudIdOf network.config = "" → ∃ range addresses, network.Holds range addresses ∧
      (leasesOf s target).Perm network.runtime.usedIps
  shared : ∀ target network, networkAt s.labs target = some network → network.type = .natCloud →
    sharedCloudIdOf network.config ≠ "" →
      (findNatCloudOwner s.labs (sharedCloudIdOf network.config)).isSome
  stored : ∀ lease ∈ s.leases, (networkAt s.labs lease.1).isSome

/-- The owner a reference resolves to holds the addresses of its cloud. -/
theorem CloudInv.owner {s : CloudState} (h : CloudInv s) {cloudId : String}
    {ref : CloudNetworkRef} (hfind : findNatCloudOwner s.labs cloudId = some ref) :
    ∃ network, networkAt s.labs (ref.labPath, ref.networkId) = some network ∧
      network.type = .natCloud ∧ sharedCloudIdOf network.config = "" := by
  obtain ⟨lab, id, network, hlab, hget, htype, hshared, _, hid⟩ := findNatCloudOwner_spec hfind
  have hat : networkAt s.labs (ref.labPath, id) = some network :=
    networkAt_eq_some_iff.mpr ⟨lab, hlab, hget⟩
  have hnum : network.id = id := h.numbered _ _ hat htype
  refine ⟨network, ?_, htype, sharedCloudIdOf_of_given hshared⟩
  rw [hid, hnum]
  exact hat

theorem ipamTarget_self {labs : Dict String Lab} {labPath : String} {networkId : Int}
    {network : Network} (hat : networkAt labs (labPath, networkId) = some network)
    (hshared : sharedCloudIdOf network.config = "") :
    NetworkService.ipamTarget labs labPath networkId = .ok (labPath, networkId) := by
  obtain ⟨lab, hlab, hget⟩ := networkAt_eq_some_iff.mp hat
  dsimp only at hlab hget
  unfold NetworkService.ipamTarget
  rw [hlab]
  dsimp only
  rw [hget]
  simp only [hshared, if_true]

theorem ipamTarget_shared {labs : Dict String Lab} {labPath : String} {networkId : Int}
    {network : Network} {owner : CloudNetworkRef}
    (hat : networkAt labs (labPath, networkId) = some network)
    (hshared : sharedCloudIdOf network.config ≠ "")
    (howner : findNatCloudOwner labs (sharedCloudIdOf network.config) = some owner) :
    NetworkService.ipamTarget labs labPath networkId = .ok (owner.labPath, owner.networkId) := by
  obtain ⟨lab, hlab, hget⟩ := networkAt_eq_some_iff.mp hat
  dsimp only at hlab hget
  unfold NetworkService.ipamTarget
  rw [hlab]
  dsimp only
  rw [hget]
  simp only [hshared, if_false, howner]

/-- Every NAT cloud resolves to a record that holds its addresses. -/
theorem CloudInv.target {s : CloudState} (h : CloudInv s) {labPath : String} {networkId : Int}
    {network : Network} (hat : networkAt s.labs (labPath, networkId) = some network)
    (htype : network.type = .natCloud) :
    ∃ target owner, NetworkService.ipamTarget s.labs labPath networkId = .ok target ∧
      networkAt s.labs target = some owner ∧ owner.type = .natCloud ∧
      sharedCloudIdOf owner.config = "" := by
  by_cases hshared : sharedCloudIdOf network.config = ""
  · exact ⟨_, network, ipamTarget_self hat hshared, hat, htype, hshared⟩
  · obtain ⟨ref, href⟩ := Option.isSome_iff_exists.mp (h.shared _ _ hat htype hshared)
    obtain ⟨owner, howner, hotype, hoshared⟩ := h.owner href
    exact ⟨_, owner, ipamTarget_shared hat hshared href, howner, hotype, hoshared⟩

theorem allocateIp_of_target {labs : Dict String Lab} {labPath : String} {networkId : Int}
    {target : String × Int} {owner : Network}
    (htarget : NetworkService.ipamTarget labs labPath networkId = .ok target)
    (hat : networkAt labs target = some owner) :
    (∀ e, allocateFrom owner = .error e →
      NetworkService.allocateIp labs labPath networkId = .error e) ∧
    ∀ network ip, allocateFrom owner = .ok (network, ip) → ∃ labs',
      NetworkService.allocateIp labs labPath networkId = .ok (labs', ip) ∧
        PutNetwork labs labs' target network := by
  obtain ⟨lab, hlab, hget⟩ := networkAt_eq_some_iff.mp hat
  constructor
  · intro e he
    simp only [NetworkService.allocateIp, htarget, bind, Except.bind, hlab, hget, he]
  · intro network ip hok
    refine ⟨_, ?_, ⟨lab, hlab, rfl⟩⟩
    simp only [NetworkService.allocateIp, htarget, bind, Except.bind, hlab, hget, hok]

theorem CloudInv.safe {s : CloudState} (h : CloudInv s) : CloudsSafe s := by
  intro labPath networkId network hat htype
  obtain ⟨target, owner, htarget, hoat, hotype, hoshared⟩ := h.target hat htype
  obtain ⟨range, addresses, hholds, hperm⟩ := h.owned _ _ hoat hotype hoshared
  have hmem : ∀ ip, ip ∈ leasesOf s target ↔ ip ∈ addresses.map ipv4Text := by
    intro ip
    rw [hperm.mem_iff, hholds.used]
  refine ⟨target, owner, range, htarget, hoat, hholds.ranged, ?_, ?_, ?_⟩
  · have hparse : ((addresses.map ipv4Text).map parseIPv4) = addresses.map some := by
      rw [List.map_map]
      refine List.map_congr_left ?_
      intro a ha
      exact parseIPv4_ipv4Text (NatCloudRange.lt_of_le (hholds.inRange a ha).2)
    have hnodup : (addresses.map some).Nodup :=
      hholds.distinct.map (Option.some_injective Nat)
    rw [← hparse, ← hholds.used] at hnodup
    exact (hperm.map parseIPv4).nodup_iff.mpr hnodup
  · intro ip hip
    obtain ⟨a, ha, he⟩ := List.mem_map.mp ((hmem ip).mp hip)
    have hr := hholds.inRange a ha
    refine ⟨a, ?_, (range.usable_iff hholds.firstGateway).mpr hr⟩
    rw [← he]
    exact parseIPv4_ipv4Text (NatCloudRange.lt_of_le hr.2)
  · intro e he a ha
    have hrange := (range.usable_iff hholds.firstGateway).mp ha
    rcases allocateFrom_holds hholds with ⟨b, _, _, _, hok⟩ | ⟨hfull, _⟩
    · obtain ⟨labs', hok', _⟩ := (allocateIp_of_target htarget hoat).2 _ _ hok
      rw [hok'] at he
      cases he
    · exact (hmem _).mpr (List.mem_map.mpr ⟨a, hfull a hrange.1 hrange.2, rfl⟩)

/-- Writing a record keeps every cloud id owned, as long as the record keeps its own. -/
theorem PutNetwork.owners {labs labs' : Dict String Lab} {target : String × Int}
    {network : Network} (put : PutNetwork labs labs' target network)
    (hkeep : ∀ old, networkAt labs target = some old →
      network.id = old.id ∧ network.type = old.type ∧ network.config = old.config)
    {cloudId : String} (h : (findNatCloudOwner labs cloudId).isSome) :
    (findNatCloudOwner labs' cloudId).isSome := by
  obtain ⟨ref, href⟩ := Option.isSome_iff_exists.mp h
  obtain ⟨lab, id, old, hlab, hget, htype, hshared, hcloud, _⟩ := findNatCloudOwner_spec href
  have hat : networkAt labs (ref.labPath, id) = some old :=
    networkAt_eq_some_iff.mpr ⟨lab, hlab, hget⟩
  have hnew : ∃ new, networkAt labs' (ref.labPath, id) = some new ∧
      new.id = old.id ∧ new.type = old.type ∧ new.config = old.config := by
    by_cases ht : target = (ref.labPath, id)
    · subst ht
      exact ⟨network, by rw [put.lookup, if_pos rfl], hkeep old hat⟩
    · exact ⟨old, by rw [put.lookup, if_neg ht]; exact hat, rfl, rfl, rfl⟩
  obtain ⟨new, hnewAt, hnewId, hnewType, hnewConfig⟩ := hnew
  obtain ⟨lab', hlab', hget'⟩ := networkAt_eq_some_iff.mp hnewAt
  obtain ⟨lab'', hlab'', hlabId⟩ := put.lab hlab
  obtain rfl : lab'' = lab' := by
    have he := hlab''.symm.trans hlab'
    exact Option.some.inj he
  have hpath : cloudLabId ref.labPath lab'' = cloudLabId ref.labPath lab := by
    unfold cloudLabId
    rw [hlabId]
  refine findNatCloudOwner_isSome (show OwnsCloudId labs' cloudId (ref.labPath, id) from ⟨lab'', new, hlab', hget', ?_, ?_, ?_⟩)
  · rw [hnewType, htype]
  · rw [hnewConfig, hshared]
  · rw [hpath, hnewId]
    exact hcloud

/-- The invariant after one record is written and the leases of that record change with it. -/
theorem CloudInv.put {s s' : CloudState} (h : CloudInv s) {target : String × Int}
    {network : Network} (put : PutNetwork s.labs s'.labs target network)
    (hkeep : ∀ old, networkAt s.labs target = some old →
      network.id = old.id ∧ network.type = old.type ∧ network.config = old.config)
    (hid : network.type = .natCloud → network.id = target.2)
    (howned : network.type = .natCloud → sharedCloudIdOf network.config = "" →
      ∃ range addresses, network.Holds range addresses ∧
        (leasesOf s' target).Perm network.runtime.usedIps)
    (hshared : network.type = .natCloud → sharedCloudIdOf network.config ≠ "" →
      (findNatCloudOwner s.labs (sharedCloudIdOf network.config)).isSome)
    (hother : ∀ other, other ≠ target → leasesOf s' other = leasesOf s other)
    (hstored : ∀ lease ∈ s'.leases, lease.1 = target ∨ (networkAt s.labs lease.1).isSome) :
    CloudInv s' := by
  constructor
  · intro other record hat htype
    rw [put.lookup] at hat
    split at hat
    next ht =>
      cases hat
      rw [← ht]
      exact hid htype
    next => exact h.numbered other record hat htype
  · intro other record hat htype hempty
    rw [put.lookup] at hat
    split at hat
    next ht =>
      cases hat
      rw [← ht]
      exact howned htype hempty
    next ht =>
      rw [hother other (Ne.symm ht)]
      exact h.owned other record hat htype hempty
  · intro other record hat htype hset
    rw [put.lookup] at hat
    split at hat
    next ht =>
      cases hat
      exact put.owners hkeep (hshared htype hset)
    next => exact put.owners hkeep (h.shared other record hat htype hset)
  · intro lease hlease
    rw [put.lookup]
    split
    next => rfl
    next ht =>
      rcases hstored lease hlease with he | hat
      · exact absurd he.symm ht
      · exact hat

end NovaVe
