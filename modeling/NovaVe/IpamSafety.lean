import NovaVe.CloudRecords
import NovaVe.IpamRuns

namespace NovaVe

theorem leasesOf_eq_nil {s : CloudState} {target : String × Int}
    (h : ∀ lease ∈ s.leases, lease.1 ≠ target) : leasesOf s target = [] := by
  have hfilter : s.leases.filter (fun lease => decide (lease.1 = target)) = [] := by
    refine List.filter_eq_nil_iff.mpr ?_
    intro lease hlease hkey
    exact h lease hlease (of_decide_eq_true hkey)
  unfold leasesOf
  rw [hfilter, List.map_nil]

theorem createNetwork_cloudInv {s : CloudState} {env : CloudEnv} {labPath : String}
    {request : NetworkCreate} {labs : Dict String Lab} (h : CloudInv s)
    (hok : ReservesGateway s (.createNetwork env labPath request))
    (hcreate : createNetworkIn env s.labs labPath request = .ok labs) :
    CloudInv { s with labs := labs } := by
  obtain ⟨lab, network, bridge, hlab, put, hid, htype, hused, hoffset, hconfig⟩ :=
    createNetworkIn_ok hcreate
  have hfresh : networkAt s.labs (labPath, lab.networks.nextKey) = none := by
    unfold networkAt
    rw [hlab, Option.bind_some]
    exact lab.networks.get?_nextKey
  have hnatCloud : network.type = .natCloud →
      natCloudConfig env.natCloudPool s.labs request.config lab.networks =
        .ok (network.config, bridge) := by
    intro hnat
    rw [htype] at hnat
    rw [← hconfig, normalizedConfig_natCloud hnat]
  have hleases : leasesOf { s with labs := labs } (labPath, lab.networks.nextKey) = [] := by
    refine leasesOf_eq_nil ?_
    intro lease hlease he
    have hstored := h.stored lease hlease
    rw [he, hfresh] at hstored
    cases hstored
  refine @CloudInv.put s { s with labs := labs } h _ network put ?_ (fun _ => hid) ?_ ?_
    (fun _ _ => rfl) (fun lease hlease => Or.inr (h.stored lease hlease))
  · intro old hold
    rw [hfresh] at hold
    cases hold
  · intro hnat hempty
    rcases natCloudConfig_ok (hnatCloud hnat) with ⟨hshared, range, hrange, hconf⟩ | ⟨hsame, hne, _⟩
    · obtain ⟨hcidr, hgateway, _⟩ := natCloudRange_ok hrange
      have hfirst := hok (by rw [← htype]; exact hnat) hshared lab range.net range.gateway hlab
        hcidr hgateway
      refine ⟨range, [], ⟨hnat, ?_, hfirst, hoffset, hused, List.nodup_nil, by simp⟩, ?_⟩
      · refine ⟨?_, ?_, ?_, ?_⟩ <;> rw [hconf] <;> rfl
      · rw [hleases, hused]
    · rw [hsame] at hempty
      exact absurd hempty hne
  · intro hnat hset
    rcases natCloudConfig_ok (hnatCloud hnat) with ⟨hshared, range, _, hconf⟩ | ⟨hsame, _, hsome⟩
    · rw [hconf] at hset
      exact absurd hshared hset
    · rw [hsame]
      exact hsome

theorem leasesOf_cons {labs : Dict String Lab} {target other : String × Int} {ip : String}
    {leases : List ((String × Int) × String)} :
    leasesOf ⟨labs, (target, ip) :: leases⟩ other =
      if target = other then ip :: leasesOf ⟨labs, leases⟩ other
      else leasesOf ⟨labs, leases⟩ other := by
  unfold leasesOf
  by_cases h : target = other <;> simp [h]

/-- What `_allocate_ip` does, whatever record it resolves to. -/
theorem allocateIp_ok {labs labs' : Dict String Lab} {labPath : String} {networkId : Int}
    {target : String × Int} {ip : String}
    (htarget : NetworkService.ipamTarget labs labPath networkId = .ok target)
    (h : NetworkService.allocateIp labs labPath networkId = .ok (labs', ip)) :
    ∃ owner network, networkAt labs target = some owner ∧
      allocateFrom owner = .ok (network, ip) ∧ PutNetwork labs labs' target network := by
  unfold NetworkService.allocateIp at h
  obtain ⟨target', htarget', h⟩ := bind_eq_ok.mp h
  obtain rfl : target = target' := by
    rw [htarget] at htarget'
    exact Except.ok.inj htarget'
  split at h
  next => cases h
  next lab hlab =>
    split at h
    next => cases h
    next owner howner =>
      obtain ⟨⟨network, text⟩, hallocated, h⟩ := bind_eq_ok.mp h
      cases h
      exact ⟨owner, network, networkAt_eq_some_iff.mpr ⟨lab, hlab, howner⟩, hallocated,
        ⟨lab, hlab, rfl⟩⟩

/-- An allocation changes only the addresses of the record. -/
theorem allocateFrom_keeps {owner network : Network} {ip : String}
    (h : allocateFrom owner = .ok (network, ip)) :
    network.id = owner.id ∧ network.type = owner.type ∧ network.config = owner.config := by
  unfold allocateFrom at h
  split at h
  next => cases h
  next =>
    split at h
    next => cases h
    next =>
      dsimp only at h
      split at h
      next => cases h
      next =>
        cases h
        exact ⟨rfl, rfl, rfl⟩

theorem allocate_cloudInv {s : CloudState} {labPath : String} {networkId : Int}
    (h : CloudInv s) : CloudInv (allocateStep s labPath networkId) := by
  unfold allocateStep
  split
  next target labs ip htarget hallocate =>
    obtain ⟨owner, network, hat, hfrom, put⟩ := allocateIp_ok htarget hallocate
    obtain ⟨hid, htype, hconfig⟩ := allocateFrom_keeps hfrom
    refine @CloudInv.put s ⟨labs, (target, ip) :: s.leases⟩ h target network put ?_ ?_ ?_ ?_ ?_ ?_
    · intro old hold
      rw [hat] at hold
      cases hold
      exact ⟨hid, htype, hconfig⟩
    · intro hnat
      rw [hid]
      exact h.numbered _ _ hat (by rw [← htype]; exact hnat)
    · intro hnat hempty
      obtain ⟨range, addresses, hholds, hperm⟩ := h.owned _ _ hat (by rw [← htype]; exact hnat)
        (by rw [← hconfig]; exact hempty)
      rcases allocateFrom_holds hholds with ⟨a, hfree, hlow, hhigh, hrun⟩ | ⟨_, e, herror⟩
      · rw [hrun] at hfrom
        cases hfrom
        refine ⟨range, _, recordUsed_holds hholds hfree hlow hhigh, ?_⟩
        have hsorted := (List.perm_insertionSort (· ≤ ·) (a :: addresses)).map ipv4Text
        rw [leasesOf_cons, if_pos rfl]
        refine List.Perm.trans ?_ hsorted.symm
        rw [List.map_cons, ← hholds.used]
        exact hperm.cons (ipv4Text a)
      · rw [herror] at hfrom
        cases hfrom
    · intro hnat hset
      rw [hconfig] at hset ⊢
      exact h.shared _ _ hat (by rw [← htype]; exact hnat) hset
    · intro other hother
      rw [leasesOf_cons, if_neg (Ne.symm hother)]
      rfl
    · intro lease hlease
      rcases List.mem_cons.mp hlease with he | hm
      · exact Or.inl (by rw [he])
      · exact Or.inr (h.stored lease hm)
  next => exact h

theorem leasesOf_erase {labs : Dict String Lab} {target other : String × Int} {ip : String}
    {leases : List ((String × Int) × String)} :
    leasesOf ⟨labs, leases.erase (target, ip)⟩ other =
      if target = other then (leasesOf ⟨labs, leases⟩ other).erase ip
      else leasesOf ⟨labs, leases⟩ other := by
  induction leases with
  | nil => simp [leasesOf]
  | cons lease rest ih =>
    obtain ⟨key, text⟩ := lease
    by_cases hsame : (key, text) = (target, ip)
    · cases hsame
      rw [List.erase_cons_head, leasesOf_cons]
      by_cases ht : target = other <;> simp [ht]
    · rw [List.erase_cons_tail (by simpa using hsame), leasesOf_cons, leasesOf_cons, ih]
      by_cases hk : key = other
      · subst hk
        by_cases ht : target = key
        · subst ht
          have htext : text ≠ ip := fun he => hsame (by rw [he])
          have herase : (text :: leasesOf ⟨labs, rest⟩ target).erase ip =
              text :: (leasesOf ⟨labs, rest⟩ target).erase ip :=
            List.erase_cons_tail (by simpa using htext)
          rw [if_pos rfl, if_pos rfl, if_pos rfl, if_pos rfl, herase]
        · rw [if_pos rfl, if_pos rfl, if_neg ht, if_neg ht]
      · rw [if_neg hk, if_neg hk]

theorem releaseIn_ok {labs labs' : Dict String Lab} {target : String × Int} {ip : String}
    (h : releaseIn labs target ip = .ok (labs', true)) :
    ∃ owner used, networkAt labs target = some owner ∧ ip ∈ owner.runtime.usedIps ∧
      used.Perm (owner.runtime.usedIps.erase ip) ∧
      PutNetwork labs labs' target (owner.withUsedIps used) := by
  unfold releaseIn at h
  split at h
  next => cases h
  next lab hlab =>
    split at h
    next => cases h
    next owner howner =>
      split at h
      next => cases h
      next hip =>
        cases h
        have hmem : ip ∈ owner.runtime.usedIps := by
          by_contra hnot
          exact hip hnot
        obtain ⟨used, hperm, heq⟩ := releaseIpFromOwner_eq howner hmem
        refine ⟨owner, used, networkAt_eq_some_iff.mpr ⟨lab, hlab, howner⟩, hmem, hperm, ?_⟩
        exact ⟨lab, hlab, by rw [heq]⟩

theorem releaseIp_target {lockHeld flag : Bool} {labs labs' : Dict String Lab} {labPath ip : String}
    {networkId : Int} {target : String × Int}
    (htarget : NetworkService.releaseTarget lockHeld labs labPath networkId = .ok (some target))
    (h : NetworkService.releaseIp lockHeld labs labPath networkId ip = .ok (labs', flag)) :
    releaseIn labs target ip = .ok (labs', flag) := by
  simpa only [NetworkService.releaseIp, htarget, bind, Except.bind] using h

theorem release_cloudInv {s : CloudState} {lockHeld : Bool} {labPath ip : String}
    {networkId : Int} (h : CloudInv s) :
    CloudInv (releaseStep s lockHeld labPath networkId ip) := by
  unfold releaseStep
  split
  next target labs htarget hrelease =>
    obtain ⟨owner, used, hat, hip, hused, put⟩ := releaseIn_ok (releaseIp_target htarget hrelease)
    refine @CloudInv.put s ⟨labs, s.leases.erase (target, ip)⟩ h target _ put ?_ ?_ ?_ ?_ ?_ ?_
    · intro old hold
      rw [hat] at hold
      cases hold
      exact ⟨rfl, rfl, rfl⟩
    · exact fun hnat => h.numbered target owner hat hnat
    · intro hnat hempty
      obtain ⟨range, addresses, hholds, hperm⟩ := h.owned _ _ hat hnat hempty
      have hnodup : used.Nodup := hused.nodup_iff.mpr (hholds.texts_nodup.erase ip)
      obtain ⟨addresses', hkept⟩ := hholds.keep hnodup
        (fun text htext => List.mem_of_mem_erase (hused.mem_iff.mp htext))
      refine ⟨range, addresses', hkept, ?_⟩
      rw [leasesOf_erase, if_pos rfl]
      exact (hperm.erase ip).trans hused.symm
    · exact fun hnat hset => h.shared target owner hat hnat hset
    · intro other hother
      rw [leasesOf_erase, if_neg (Ne.symm hother)]
      rfl
    · exact fun lease hlease => Or.inr (h.stored lease (List.mem_of_mem_erase hlease))
  next => exact h

theorem cloudStep_inv {s : CloudState} {call : CloudCall} (h : CloudInv s)
    (hok : ReservesGateway s call) : CloudInv (cloudStep s call) := by
  cases call with
  | createNetwork env labPath request =>
    refine @afterwards_inv _ _ (fun labs => CloudInv { s with labs := labs }) _ _ h ?_
    exact fun labs hcreate => createNetwork_cloudInv h hok hcreate
  | allocateIp labPath networkId => exact allocate_cloudInv h
  | releaseIp lockHeld labPath networkId ip => exact release_cloudInv h

/-- Labs without a NAT cloud, and no address handed out yet. -/
def NoClouds (s : CloudState) : Prop :=
  s.leases = [] ∧ ∀ target network, networkAt s.labs target = some network →
    network.type ≠ .natCloud

theorem NoClouds.inv {s : CloudState} (h : NoClouds s) : CloudInv s := by
  obtain ⟨hleases, hnone⟩ := h
  refine ⟨?_, ?_, ?_, ?_⟩
  · exact fun target network hat hnat => absurd hnat (hnone target network hat)
  · exact fun target network hat hnat _ => absurd hnat (hnone target network hat)
  · exact fun target network hat hnat _ => absurd hnat (hnone target network hat)
  · intro lease hlease
    rw [hleases] at hlease
    cases hlease

/-- While every new cloud has its gateway at the first address of its subnet, the addresses handed
out and not given back are safe, and an allocation fails only when none is left. -/
theorem nat_clouds_safe_of_run {start s : CloudState} {calls : List CloudCall}
    (hstart : NoClouds start) (run : Run (Guarded (stepOf cloudStep) ReservesGateway) start calls s) :
    CloudsSafe s := by
  have hinv : CloudInv s :=
    run.guarded_invariant (fun _ _ h hok => cloudStep_inv h hok) hstart.inv
  exact hinv.safe

def cloudEnv : CloudEnv where
  natCloudPool := "10.255.0.0/16"
  lower := id
  bridgeName := fun _ _ => "nove00ffn1"
  bridgeExists := fun _ => true
  provisionFails := fun _ => none

def emptyCloudState : CloudState := { labs := Dict.empty.set "lab.json" { id := "lab" } }

def newCloud (gateway : Option String) : CloudCall :=
  .createNetwork cloudEnv "lab.json"
    { name := "cloud", type := .natCloud
      config := { cidr := some "10.255.0.0/24", gateway := gateway, dhcp := true } }

/-- A cloud of one lab that another lab takes part in, and two addresses, of which the reference
gives the first back. -/
def sharingLabs : CloudState :=
  { labs := emptyCloudState.labs.set "other.json" { id := "other" } }

def sharedCloudCalls : List CloudCall :=
  [newCloud none,
    .createNetwork cloudEnv "other.json"
      { name := "shared", type := .natCloud
        config := { sharedCloudId := some (natCloudId "lab" 1) } },
    .allocateIp "lab.json" 1, .allocateIp "other.json" 1,
    .releaseIp false "other.json" 1 "10.255.0.2", .allocateIp "lab.json" 1]

def sharedCloud (calls : Nat) : CloudState := (sharedCloudCalls.take calls).foldl cloudStep sharingLabs

theorem sharingLabs_noClouds : NoClouds sharingLabs := by
  refine ⟨rfl, ?_⟩
  intro target network hat
  obtain ⟨lab, hlab, hget⟩ := networkAt_eq_some_iff.mp hat
  have hnone : lab.networks = Dict.empty := by
    have hentry := hlab
    unfold sharingLabs emptyCloudState at hentry
    rw [Dict.get?_set, Dict.get?_set] at hentry
    split at hentry
    next =>
      cases hentry
      rfl
    next =>
      split at hentry
      next =>
        cases hentry
        rfl
      next => cases hentry
  rw [hnone] at hget
  cases hget

/-- Two labs hold addresses of one cloud, and the one given back is handed out again. -/
theorem nat_clouds_safe_with_first_gateway :
    (sharedCloud 4).leases = [(("lab.json", 1), "10.255.0.3"), (("lab.json", 1), "10.255.0.2")] ∧
      (sharedCloud 5).leases = [(("lab.json", 1), "10.255.0.3")] ∧
      (sharedCloud 6).leases =
        [(("lab.json", 1), "10.255.0.2"), (("lab.json", 1), "10.255.0.3")] ∧
      CloudsSafe (sharedCloud 6) := by
  refine ⟨by decide +kernel, by decide +kernel, by decide +kernel, ?_⟩
  have hfirst : ReservesGateway (sharedCloud 0) (newCloud none) := by
    intro _ _ lab net gateway _ _ hgateway
    cases hgateway
    rfl
  have hshared : ReservesGateway (sharedCloud 1)
      (.createNetwork cloudEnv "other.json"
        { name := "shared", type := .natCloud
          config := { sharedCloudId := some (natCloudId "lab" 1) } }) := by
    intro _ hown
    exact absurd hown (by decide)
  have run : Run (Guarded (stepOf cloudStep) ReservesGateway) sharingLabs sharedCloudCalls
      (sharedCloud 6) :=
    Run.cons ⟨hfirst, rfl⟩ (Run.cons ⟨hshared, rfl⟩ (Run.cons ⟨trivial, rfl⟩
      (Run.cons ⟨trivial, rfl⟩ (Run.cons ⟨trivial, rfl⟩ (Run.single ⟨trivial, rfl⟩)))))
  exact nat_clouds_safe_of_run sharingLabs_noClouds run

/-- A gateway in the static range is handed out. -/
theorem configured_gateway_is_allocated :
    ¬ CloudsSafe (cloudStep (cloudStep emptyCloudState (newCloud (some "10.255.0.2")))
      (.allocateIp "lab.json" 1)) := by
  intro h
  have hlease : leasesOf (cloudStep (cloudStep emptyCloudState (newCloud (some "10.255.0.2")))
      (.allocateIp "lab.json" 1)) ("lab.json", 1) = ["10.255.0.2"] := by decide +kernel
  have htarget : NetworkService.ipamTarget (cloudStep (cloudStep emptyCloudState
      (newCloud (some "10.255.0.2"))) (.allocateIp "lab.json" 1)).labs "lab.json" 1 =
        .ok ("lab.json", 1) := by decide +kernel
  have hsome : ∃ network, networkAt (cloudStep (cloudStep emptyCloudState
      (newCloud (some "10.255.0.2"))) (.allocateIp "lab.json" 1)).labs ("lab.json", 1) =
        some network ∧ network.type = .natCloud ∧ network.config.gateway = some "10.255.0.2" := by
    refine ⟨_, rfl, ?_, ?_⟩ <;> decide +kernel
  obtain ⟨network, hat, htype, hgateway⟩ := hsome
  obtain ⟨target, owner, range, hresolved, hoat, hranged, _, husable, _⟩ :=
    h "lab.json" 1 network hat htype
  rw [htarget] at hresolved
  cases hresolved
  rw [hat] at hoat
  cases hoat
  rw [hlease] at husable
  obtain ⟨a, hparse, ha⟩ := husable "10.255.0.2" List.mem_cons_self
  have hlt : range.gateway < 4294967296 := by
    have hin := (range.contains_iff range.gateway).mp range.gatewayIn
    have hbroadcast := range.net.broadcast_lt
    omega
  have hgw : some (ipv4Text range.gateway) = some "10.255.0.2" := by
    rw [← hranged.gateway, hgateway]
  have hparsed := parseIPv4_ipv4Text hlt
  rw [Option.some.inj hgw, hparse] at hparsed
  exact ha.notGateway (Option.some.inj hparsed)

end NovaVe
