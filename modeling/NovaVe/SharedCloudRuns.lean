import NovaVe.CloudSubnetSteps
import NovaVe.IpamSafety
import NovaVe.SharedCloudCalls

namespace NovaVe

/-- Labs without a NAT cloud. -/
def NoNatClouds (labs : Dict String Lab) : Prop :=
  ∀ target network, networkAt labs target = some network → network.type ≠ .natCloud

theorem NoNatClouds.sound {labs : Dict String Lab} (h : NoNatClouds labs) : SubnetsSound labs := by
  constructor
  · intro target _ owner _ _ hat _ howner
    exact absurd howner.1 (h target owner hat)
  · intro labPath id _ owner _ _ hat _ howner
    exact absurd howner.1 (h (labPath, id) owner hat)
  · intro target network _ hat href
    exact absurd href.1 (h target network hat)

/-- While every call keeps its hands off the subnets of the clouds that are there, the subnets are
sound in every state a run reaches. -/
theorem nat_cloud_subnets_sound_of_run {start labs : Dict String Lab} {edits : List CloudEdit}
    (hstart : NoNatClouds start) (run : Run (Guarded (stepOf cloudEdit) KeepsSubnets) start edits labs) :
    SubnetsSound labs := by
  exact run.guarded_invariant (fun _ _ h hok => cloudEdit_keeps h hok) hstart.sound

def cloudLabs : Dict String Lab :=
  (Dict.empty.set "a.json" { id := "a" }).set "b.json" { id := "b" }

def newOwner : CloudEdit :=
  .createNetwork cloudEnv "a.json"
    { name := "cloud", type := .natCloud, config := { cidr := some "10.255.0.0/24" } }

def newReference : CloudEdit :=
  .createNetwork cloudEnv "b.json"
    { name := "cloud", type := .natCloud, config := { sharedCloudId := some "nat-cloud:a:1" } }

theorem networkAt_no_networks {labs : Dict String Lab} {labPath : String}
    (h : (labs.get? labPath).all (fun lab => lab.networks.entries.isEmpty) = true) (id : Int) :
    networkAt labs (labPath, id) = none := by
  cases hat : networkAt labs (labPath, id) with
  | none => rfl
  | some network =>
    obtain ⟨lab, hlab, hget⟩ := networkAt_eq_some_iff.mp hat
    rw [hlab] at h
    have hmem := Dict.mem_entries_of_get? hget
    have hempty : lab.networks.entries = [] := by simpa using h
    rw [hempty] at hmem
    cases hmem

theorem cloudLabs_networkAt (target : String × Int) : networkAt cloudLabs target = none := by
  obtain ⟨path, id⟩ := target
  by_cases hpath : path = "a.json" ∨ path = "b.json"
  · rcases hpath with rfl | rfl
    · exact networkAt_no_networks (by decide) id
    · exact networkAt_no_networks (by decide) id
  · obtain ⟨ha, hb⟩ := not_or.mp hpath
    unfold networkAt cloudLabs
    rw [Dict.get?_set_ne _ _ (Ne.symm hb), Dict.get?_set_ne _ _ (Ne.symm ha)]
    rfl

theorem newOwner_keeps : KeepsSubnets cloudLabs newOwner := by
  intro lab _
  refine ⟨fun htype => absurd rfl htype, fun _ _ => ⟨rfl, ?_, ?_⟩, fun _ hshared => absurd ?_ hshared⟩
  · rintro ⟨other, network, _, hat, _⟩
    rw [cloudLabs_networkAt] at hat
    cases hat
  · intro _ target owner hat
    rw [cloudLabs_networkAt] at hat
    cases hat
  · decide

theorem newReference_keeps : KeepsSubnets (cloudEdit cloudLabs newOwner) newReference := by
  intro lab _
  refine ⟨fun htype => absurd rfl htype, fun _ hshared => absurd hshared (by decide), ?_⟩
  intro _ _ owner hfind
  constructor
  · have hbridge : (findNatCloudOwner (cloudEdit cloudLabs newOwner) "nat-cloud:a:1").map
        (fun owner => given owner.network.runtime.bridgeName) = some (some "nove00ffn1") := by
      decide +kernel
    have hshared : sharedCloudIdOf { sharedCloudId := some "nat-cloud:a:1" } = "nat-cloud:a:1" := by
      decide +kernel
    rw [hshared] at hfind
    rw [hfind, Option.map_some] at hbridge
    have hgiven := Option.some.inj hbridge
    rw [hgiven]
    exact Option.some_ne_none _
  · intro id other _ hat
    have hempty : ((cloudEdit cloudLabs newOwner).get? "b.json").all
        (fun lab => lab.networks.entries.isEmpty) = true := by decide +kernel
    rw [networkAt_no_networks hempty id] at hat
    cases hat

theorem shared_cloud_subnets_sound :
    SubnetsSound (cloudEdit (cloudEdit cloudLabs newOwner) newReference) :=
  nat_cloud_subnets_sound_of_run
    (fun target network hat => by rw [cloudLabs_networkAt] at hat; cases hat)
    (Run.cons ⟨newOwner_keeps, rfl⟩ (Run.single ⟨newReference_keeps, rfl⟩))

def overlappingBridge : CloudEdit :=
  .createNetwork cloudEnv "a.json" { name := "lan", config := { cidr := some "10.255.0.0/25" } }

theorem not_apart_of_overlap {subnet other : Option IPv4Network}
    (h : subnet.any (fun net => other.any net.overlaps) = true) : ¬ Apart subnet other := by
  intro hapart
  obtain ⟨net, rfl, hnet⟩ := (Option.any_eq_true _ _).mp h
  obtain ⟨net', rfl, hover⟩ := (Option.any_eq_true _ _).mp hnet
  have hno := hapart net rfl net' rfl
  rw [hover] at hno
  cases hno

/-- A Linux bridge is not checked against the NAT cloud of its lab. -/
theorem bridge_overlaps_nat_cloud :
    ¬ SubnetsSound (cloudEdit (cloudEdit cloudLabs newOwner) overlappingBridge) := by
  intro h
  have hstored : ∃ owner bridge,
      networkAt (cloudEdit (cloudEdit cloudLabs newOwner) overlappingBridge) ("a.json", 1) =
        some owner ∧
      networkAt (cloudEdit (cloudEdit cloudLabs newOwner) overlappingBridge) ("a.json", 2) =
        some bridge ∧ owner.IsOwner ∧
      owner.subnet.any (fun net => bridge.subnet.any net.overlaps) = true := by
    refine ⟨_, _, rfl, rfl, ?_, ?_⟩ <;> decide +kernel
  obtain ⟨owner, bridge, hat, hat', howner, hover⟩ := hstored
  exact not_apart_of_overlap hover (h.ownLab "a.json" 1 2 owner bridge (by decide) hat hat' howner)

/-- Labs without a NAT cloud, every network stored under its id, and no reference made yet. -/
structure BeforeClouds (s : SharedClouds) : Prop where
  noClouds : NoNatClouds s.labs
  numbered : ∀ target network, networkAt s.labs target = some network → network.id = target.2
  unmade : ∀ target, s.madeFor target = none

theorem BeforeClouds.kept {s : SharedClouds} (h : BeforeClouds s) : CloudsKept s := by
  have hnone : ∀ target, ownerAt s.labs target ≠ true := by
    intro target howner
    obtain ⟨network, hat, hown⟩ := ownerAt_iff.mp howner
    exact h.noClouds target network hat hown.1
  refine ⟨⟨?_, ?_⟩, h.numbered, fun target _ => h.unmade target, ?_⟩
  · intro target network cloudId hat href
    exact absurd href.1 (h.noClouds target network hat)
  · intro target _ howner
    exact absurd howner (hnone target)
  · intro target howner
    exact absurd howner (hnone target)

/-- While no call takes an owner from its references, or gives them another one, every reference
of every state a run reaches resolves to the cloud it was made for. -/
theorem shared_references_sound_of_run {start s : SharedClouds} {changes : List CloudChange}
    (hstart : BeforeClouds start)
    (run : Run (Guarded (stepOf cloudChange) KeepsReferences) start changes s) :
    ReferencesSound s := by
  have hkept : CloudsKept s :=
    run.guarded_invariant (fun _ _ h hok => cloudChange_kept h hok) hstart.kept
  exact hkept.sound

def noSharedClouds : SharedClouds := { labs := cloudLabs }

def sharedOnce : SharedClouds :=
  cloudChange (cloudChange noSharedClouds (.edit newOwner)) (.edit newReference)

theorem noSharedClouds_before : BeforeClouds noSharedClouds := by
  refine ⟨?_, ?_, fun _ => rfl⟩
  · intro target network hat
    rw [show networkAt noSharedClouds.labs target = none from cloudLabs_networkAt target] at hat
    cases hat
  · intro target network hat
    rw [show networkAt noSharedClouds.labs target = none from cloudLabs_networkAt target] at hat
    cases hat

/-- Deleting the owner's lab is refused while the other lab refers to it. -/
theorem referenced_lab_is_kept :
    ReferencesSound (cloudChange sharedOnce (.deleteLab "a.json")) := by
  have howner : KeepsReferences noSharedClouds (.edit newOwner) := by
    intro lab _ _ _
    refine ⟨rfl, ?_⟩
    rintro ⟨other, network, _, hat, _⟩
    rw [show networkAt noSharedClouds.labs other = none from cloudLabs_networkAt other] at hat
    cases hat
  have hreference : KeepsReferences (cloudChange noSharedClouds (.edit newOwner))
      (.edit newReference) := by
    intro lab _ _ hshared
    exact absurd hshared (by decide +kernel)
  have hdelete : KeepsReferences sharedOnce (.deleteLab "a.json") := by
    intro path hin hstored
    by_cases hpath : path = "a.json" ∨ path = "b.json"
    · rcases hpath with rfl | rfl
      · rfl
      · exact absurd hin (by decide +kernel)
    · obtain ⟨ha, hb⟩ := not_or.mp hpath
      have hkeys : sharedOnce.labs.keys = ["a.json", "b.json"] := by decide +kernel
      have hmem : path ∈ sharedOnce.labs.keys := Dict.mem_keys_iff.mpr hstored
      rw [hkeys] at hmem
      simp [ha, hb] at hmem
  exact shared_references_sound_of_run noSharedClouds_before
    (Run.cons ⟨howner, rfl⟩ (Run.cons ⟨hreference, rfl⟩ (Run.single ⟨hdelete, rfl⟩)))

def retypedOwner : CloudChange :=
  .edit (.patchNetwork cloudEnv "a.json" 1 { type := some .linuxBridge })

/-- A patch of the type takes the owner from its reference. -/
theorem retyped_owner_leaves_reference : ¬ ReferencesSound (cloudChange sharedOnce retypedOwner) := by
  intro h
  have hstored : ∃ network,
      networkAt (cloudChange sharedOnce retypedOwner).labs ("b.json", 1) = some network ∧
        network.namedCloud = some "nat-cloud:a:1" := by
    refine ⟨_, rfl, ?_⟩
    decide +kernel
  obtain ⟨network, hat, hnamed⟩ := hstored
  obtain ⟨owner, hresolved, _⟩ :=
    h.resolved ("b.json", 1) network _ hat (namedCloud_eq_some_iff.mp hnamed)
  have hnone : resolvedAt (cloudChange sharedOnce retypedOwner).labs "nat-cloud:a:1" = none := by
    decide +kernel
  rw [hnone] at hresolved
  cases hresolved

end NovaVe
