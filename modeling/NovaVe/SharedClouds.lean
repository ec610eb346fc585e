import NovaVe.CloudRecords

namespace NovaVe

/-- A record, where it owns the cloud id. -/
def ownerIn (cloudId path : String) (lab : Lab) (network : Network) : Option CloudNetworkRef :=
  if network.IsOwner ∧ natCloudId (cloudLabId path lab) network.id = cloudId then
    some (cloudRef path lab network)
  else none

theorem ownerIn_none_of_not_owner {cloudId path : String} {lab : Lab} {network : Network}
    (h : ¬ network.IsOwner) : ownerIn cloudId path lab network = none :=
  if_neg (fun howner => h howner.1)

theorem ownerIn_none_of_ne {cloudId path : String} {lab : Lab} {network : Network}
    (h : natCloudId (cloudLabId path lab) network.id ≠ cloudId) :
    ownerIn cloudId path lab network = none :=
  if_neg (fun howner => h howner.2)

theorem labCloudRefs_find? (path : String) (lab : Lab) (cloudId : String) :
    (labCloudRefs path lab).find?
        (fun ref => !ref.isReference && decide (ref.cloudId = cloudId)) =
      lab.networks.search (fun _ network => ownerIn cloudId path lab network) := by
  unfold labCloudRefs Dict.search
  induction lab.networks.entries with
  | nil => rfl
  | cons entry rest ih =>
    obtain ⟨id, network⟩ := entry
    rw [List.findSome?_cons]
    dsimp only at ih ⊢
    by_cases htype : network.type = .natCloud
    · rw [List.filter_cons_of_pos (by simpa using htype), List.map_cons]
      dsimp only
      cases hshared : given network.config.sharedCloudId with
      | some shared =>
        have hnot : ¬ network.IsOwner := by
          rintro ⟨_, hnone⟩
          rw [hshared] at hnone
          cases hnone
        rw [ownerIn_none_of_not_owner hnot, List.find?_cons_of_neg (by simp [cloudRef, hshared])]
        exact ih
      | none =>
        by_cases hid : natCloudId (cloudLabId path lab) network.id = cloudId
        · rw [List.find?_cons_of_pos (by simp [cloudRef, hshared, hid])]
          simp [ownerIn, Network.IsOwner, htype, hshared, hid]
        · rw [ownerIn_none_of_ne hid, List.find?_cons_of_neg (by simp [cloudRef, hshared, hid])]
          exact ih
    · rw [List.filter_cons_of_neg (by simpa using htype),
        ownerIn_none_of_not_owner (fun howner => htype howner.1)]
      exact ih

/-- The first owner of the id, lab by lab. -/
theorem findNatCloudOwner_eq_search (labs : Dict String Lab) (cloudId : String) :
    findNatCloudOwner labs cloudId = labs.search (fun path lab =>
      lab.networks.search (fun _ network => ownerIn cloudId path lab network)) := by
  unfold findNatCloudOwner cloudRefs
  rw [List.find?_flatMap]
  unfold Dict.search
  congr 1
  funext entry
  exact labCloudRefs_find? entry.1 entry.2 cloudId

/-- A write that a reader of the owner does not see at the record is not seen at all. -/
theorem PutNetwork.find_map {β : Type} {labs labs' : Dict String Lab} {target : String × Int}
    {network : Network} (put : PutNetwork labs labs' target network) {cloudId : String}
    (g : CloudNetworkRef → β)
    (hkeep : ∀ lab, labs.get? target.1 = some lab →
      (ownerIn cloudId target.1 lab network).map g =
        (lab.networks.get? target.2).bind (fun old => (ownerIn cloudId target.1 lab old).map g)) :
    (findNatCloudOwner labs' cloudId).map g = (findNatCloudOwner labs cloudId).map g := by
  obtain ⟨lab, hlab, hlabs⟩ := put.written
  subst hlabs
  rw [findNatCloudOwner_eq_search, findNatCloudOwner_eq_search, Dict.search_map, Dict.search_map]
  apply Dict.search_set
  rw [hlab, Option.bind_some, Dict.search_map, Dict.search_map]
  apply Dict.search_set
  exact hkeep lab hlab

theorem PutNetwork.find_eq {labs labs' : Dict String Lab} {target : String × Int}
    {network : Network} (put : PutNetwork labs labs' target network) {cloudId : String}
    (hnew : ∀ lab, labs.get? target.1 = some lab → ownerIn cloudId target.1 lab network = none)
    (hold : ∀ lab old, labs.get? target.1 = some lab → lab.networks.get? target.2 = some old →
      ownerIn cloudId target.1 lab old = none) :
    findNatCloudOwner labs' cloudId = findNatCloudOwner labs cloudId := by
  have hsame := @PutNetwork.find_map CloudNetworkRef _ _ _ _ put cloudId id ?_
  · simpa using hsame
  · intro lab hlab
    rw [hnew lab hlab]
    cases hget : lab.networks.get? target.2 with
    | none => rfl
    | some old =>
      rw [Option.bind_some, hold lab old hlab hget]

theorem PopNetwork.find_eq {labs labs' : Dict String Lab} {target : String × Int}
    (pop : PopNetwork labs labs' target) {cloudId : String}
    (hold : ∀ lab old, labs.get? target.1 = some lab → lab.networks.get? target.2 = some old →
      ownerIn cloudId target.1 lab old = none) :
    findNatCloudOwner labs' cloudId = findNatCloudOwner labs cloudId := by
  obtain ⟨lab, hlab, hlabs⟩ := pop.removed
  subst hlabs
  rw [findNatCloudOwner_eq_search, findNatCloudOwner_eq_search]
  apply Dict.search_set
  rw [hlab, Option.bind_some]
  apply Dict.search_pop
  exact fun old hget => hold lab old hlab hget

/-- A new record under a fresh id is not found under an id it does not own. -/
theorem find_fresh {labs labs' : Dict String Lab} {labPath cloudId : String} {lab : Lab}
    {network : Network} (hlab : labs.get? labPath = some lab)
    (put : PutNetwork labs labs' (labPath, lab.networks.nextKey) network)
    (hnew : ownerIn cloudId labPath lab network = none) :
    findNatCloudOwner labs' cloudId = findNatCloudOwner labs cloudId := by
  apply put.find_eq
  · intro lab' hlab'
    obtain rfl : lab = lab' := Option.some.inj (hlab.symm.trans hlab')
    exact hnew
  · intro lab' old hlab' hget
    obtain rfl : lab = lab' := Option.some.inj (hlab.symm.trans hlab')
    rw [lab.networks.get?_nextKey] at hget
    cases hget

/-- A deletion does not change what the references that stay resolve to. -/
theorem deleteNetworkIn_find {env : CloudEnv} {labs labs' : Dict String Lab} {labPath : String}
    {networkId : Int} (h : deleteNetworkIn env labs labPath networkId = .ok labs')
    (other : String × Int) (record : Network) (cloudId : String)
    (hat : networkAt labs other = some record) (href : record.IsReference cloudId) :
    findNatCloudOwner labs' cloudId = findNatCloudOwner labs cloudId := by
  obtain ⟨lab, network, hlab, hget, pop, hfree⟩ := deleteNetworkIn_ok h
  apply pop.find_eq
  intro lab' old hlab' hget'
  obtain rfl : lab = lab' := Option.some.inj (hlab.symm.trans hlab')
  obtain rfl : network = old := Option.some.inj (hget.symm.trans hget')
  by_cases howner : network.IsOwner
  · apply ownerIn_none_of_ne
    intro he
    apply hfree howner other record hat
    rw [he]
    exact href
  · exact ownerIn_none_of_not_owner howner

/-- The scope of a deletion: the path itself, or what lies below it. -/
def inScope (scope path : String) : Bool :=
  decide (path = scope) || (scope ++ "/").toList.isPrefixOf path.toList

/-- `external_reference_summaries_for_scope`. -/
def externalReferences (labs : Dict String Lab) (scope : String) : List CloudNetworkRef :=
  let ownerIds := ((cloudRefs labs).filter
    (fun ref => !ref.isReference && inScope scope ref.labPath)).map CloudNetworkRef.cloudId
  (cloudRefs labs).filter (fun ref =>
    ref.isReference && ownerIds.contains ref.cloudId && !inScope scope ref.labPath)

def sharedCloudInUse : NetworkError :=
  .service 409 "Cannot delete NAT-Cloud owner while it is used by another lab."

/-- `delete_lab`, as far as the stored labs go. -/
def deleteLabIn (labs : Dict String Lab) (labPath : String) :
    Except NetworkError (Dict String Lab) :=
  if externalReferences labs labPath ≠ [] then .error sharedCloudInUse
  else .ok (labs.pop labPath)

/-- `delete_folder`; `left` are the labs that a removal which stops midway has not reached. -/
def deleteFolderIn (labs : Dict String Lab) (folder : String) (left : String → Bool) :
    Except NetworkError (Dict String Lab) :=
  if externalReferences labs folder ≠ [] then .error sharedCloudInUse
  else .ok (labs.filterKeys (fun path => !inScope folder path || left path))

/-- The calls that change or remove the stored networks. Each of them reads, checks and writes
without giving up the event loop in between. -/
inductive CloudChange
  | edit (call : CloudEdit)
  | updateNetwork (labPath : String) (networkId : Int) (patch : NetworkUpdate)
  | deleteLab (labPath : String)
  | deleteFolder (folder : String) (left : String → Bool)

def CloudChange.result (labs : Dict String Lab) : CloudChange →
    Except NetworkError (Dict String Lab)
  | .edit call => call.result labs
  | .updateNetwork labPath networkId patch => updateNetworkIn labs labPath networkId patch
  | .deleteLab labPath => deleteLabIn labs labPath
  | .deleteFolder folder left => deleteFolderIn labs folder left

/-- The stored labs, with a number for every cloud there has been and, for every reference, the
cloud it was made for. -/
structure SharedClouds where
  labs : Dict String Lab
  clock : Nat := 0
  cloudAt : String × Int → Nat := fun _ => 0
  madeFor : String × Int → Option (String × Nat) := fun _ => none

def ownerAt (labs : Dict String Lab) (target : String × Int) : Bool :=
  (networkAt labs target).any (fun network => decide network.IsOwner)

/-- The record that a cloud id stands for. -/
def resolvedAt (labs : Dict String Lab) (cloudId : String) : Option (String × Int) :=
  (findNatCloudOwner labs cloudId).map (fun owner => (owner.labPath, owner.networkId))

/-- The cloud that a NAT cloud refers to. -/
def Network.namedCloud (network : Network) : Option String :=
  if network.type = .natCloud then given network.config.sharedCloudId else none

/-- A record that becomes an owner is a new cloud. -/
def SharedClouds.cloudAfter (s : SharedClouds) (labs : Dict String Lab) (target : String × Int) :
    Nat :=
  if ownerAt labs target && !ownerAt s.labs target then s.clock else s.cloudAt target

/-- A record that comes to name a cloud is made for what the name stands for then; it remembers
that for as long as it is stored. -/
def SharedClouds.madeForAfter (s : SharedClouds) (labs : Dict String Lab)
    (target : String × Int) : Option (String × Nat) :=
  match networkAt labs target with
  | none => none
  | some network => match network.namedCloud with
    | none => s.madeFor target
    | some cloudId =>
      if (s.madeFor target).map Prod.fst = some cloudId then s.madeFor target
      else (resolvedAt labs cloudId).map (fun owner => (cloudId, s.cloudAfter labs owner))

def SharedClouds.note (s : SharedClouds) (labs : Dict String Lab) : SharedClouds where
  labs := labs
  clock := s.clock + 1
  cloudAt := s.cloudAfter labs
  madeFor := s.madeForAfter labs

def cloudChange (s : SharedClouds) (change : CloudChange) : SharedClouds :=
  match change.result s.labs with
  | .ok labs => s.note labs
  | .error _ => s

/-- Every reference resolves, and to the cloud it was made for; no two clouds are confused. -/
structure ReferencesSound (s : SharedClouds) : Prop where
  resolved : ∀ target network cloudId, networkAt s.labs target = some network →
    network.IsReference cloudId → ∃ owner, resolvedAt s.labs cloudId = some owner ∧
      s.madeFor target = some (cloudId, s.cloudAt owner)
  numbers : ∀ target target', ownerAt s.labs target = true → ownerAt s.labs target' = true →
    s.cloudAt target = s.cloudAt target' → target = target'

/-- What keeps the references sound when a record is given another type or config. -/
structure PatchKeepsReferences (s : SharedClouds) (target : String × Int)
    (network asked : Network) : Prop where
  named : ∀ cloudId lab, asked.IsReference cloudId → s.labs.get? target.1 = some lab →
    ownerIn cloudId target.1 lab network = none ∧ ∃ owner,
      resolvedAt s.labs cloudId = some owner ∧
      ∀ cloud, s.madeFor target = some (cloudId, cloud) → cloud = s.cloudAt owner
  referenced : ∀ lab, s.labs.get? target.1 = some lab →
    Referenced s.labs target (natCloudId (cloudLabId target.1 lab) network.id) →
    (network.IsOwner ↔ asked.IsOwner)

/-- The condition under which a call keeps the references sound. -/
def KeepsReferences (s : SharedClouds) : CloudChange → Prop
  | .edit (.createNetwork _ labPath request) => ∀ lab, s.labs.get? labPath = some lab →
    request.type = .natCloud → sharedCloudIdOf request.config = "" →
      given request.config.sharedCloudId = none ∧
      ¬ Referenced s.labs (labPath, lab.networks.nextKey)
        (natCloudId (cloudLabId labPath lab) lab.networks.nextKey)
  | .edit (.patchNetwork _ labPath networkId patch) => ∀ network,
    networkAt s.labs (labPath, networkId) = some network →
    checkNetworkPatch "PATCH" network patch = .ok () →
      PatchKeepsReferences s (labPath, networkId) network (askedRecord network patch)
  | .edit (.deleteNetwork _ _ _) => True
  | .updateNetwork labPath networkId patch => ∀ network,
    networkAt s.labs (labPath, networkId) = some network →
    checkNetworkPatch "update" network patch = .ok () →
      PatchKeepsReferences s (labPath, networkId) network (askedRecord network patch)
  | .deleteLab labPath => ∀ path, inScope labPath path = true → (s.labs.get? path).isSome →
    path = labPath
  | .deleteFolder folder left => ∀ target network cloudId,
    networkAt s.labs target = some network → network.IsReference cloudId →
    inScope folder target.1 = true → left target.1 = true →
      ∀ path lab id owner, inScope folder path = true → left path = false →
        s.labs.get? path = some lab → lab.networks.get? id = some owner →
        ownerIn cloudId path lab owner = none

end NovaVe
