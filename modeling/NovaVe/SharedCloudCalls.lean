import NovaVe.SharedClouds

namespace NovaVe

variable {labs : Dict String Lab} {target : String × Int} {s : SharedClouds}

/-- What the changes keep beside the references: every record is stored under its id, a removed
record is forgotten, and the numbers of the clouds are old. -/
structure CloudsKept (s : SharedClouds) : Prop where
  sound : ReferencesSound s
  numbered : ∀ target network, networkAt s.labs target = some network → network.id = target.2
  forgotten : ∀ target, networkAt s.labs target = none → s.madeFor target = none
  older : ∀ target, ownerAt s.labs target = true → s.cloudAt target < s.clock

theorem ownerAt_iff :
    ownerAt labs target = true ↔ ∃ network, networkAt labs target = some network ∧
      network.IsOwner := by
  unfold ownerAt
  rw [Option.any_eq_true]
  simp only [decide_eq_true_eq]

theorem namedCloud_eq_some_iff {network : Network} {cloudId : String} :
    network.namedCloud = some cloudId ↔ network.IsReference cloudId := by
  unfold Network.namedCloud Network.IsReference
  split
  next htype => simp [htype]
  next htype => simp [htype]

/-- What a cloud id resolves to is an owner. -/
theorem resolvedAt_owner
    (hnumbered : ∀ target network, networkAt labs target = some network → network.id = target.2)
    {cloudId : String} {owner : String × Int} (h : resolvedAt labs cloudId = some owner) :
    ownerAt labs owner = true := by
  obtain ⟨ref, hfind, rfl⟩ := Option.map_eq_some_iff.mp h
  obtain ⟨lab, id, network, hlab, hget, htype, hshared, _, hid⟩ := findNatCloudOwner_spec hfind
  have hat : networkAt labs (ref.labPath, id) = some network :=
    networkAt_eq_some_iff.mpr ⟨lab, hlab, hget⟩
  have hnum := hnumbered _ _ hat
  rw [hid, hnum]
  exact ownerAt_iff.mpr ⟨network, hat, htype, hshared⟩

theorem SharedClouds.cloudAfter_of_owner (h : ownerAt s.labs target = true) :
    s.cloudAfter labs target = s.cloudAt target := by
  unfold SharedClouds.cloudAfter
  rw [h]
  simp

/-- A step that leaves every reference with a cloud that was there, and the one it was made for
if it was made before, keeps the clouds. -/
theorem CloudsKept.note (h : CloudsKept s)
    (hnumbered : ∀ target network, networkAt labs target = some network → network.id = target.2)
    (href : ∀ target network cloudId, networkAt labs target = some network →
      network.IsReference cloudId → ∃ owner, resolvedAt labs cloudId = some owner ∧
        ownerAt s.labs owner = true ∧
        ∀ cloud, s.madeFor target = some (cloudId, cloud) → cloud = s.cloudAt owner)
    (hnew : ∀ target target', ownerAt labs target = true → ownerAt labs target' = true →
      ownerAt s.labs target = false → ownerAt s.labs target' = false → target = target') :
    CloudsKept (s.note labs) := by
  have hlt : ∀ target, ownerAt s.labs target = true → s.cloudAfter labs target < s.clock := by
    intro target howner
    rw [SharedClouds.cloudAfter_of_owner howner]
    exact h.older target howner
  have hclock : ∀ target, ownerAt labs target = true → ownerAt s.labs target = false →
      s.cloudAfter labs target = s.clock := by
    intro target howner hbefore
    unfold SharedClouds.cloudAfter
    rw [howner, hbefore]
    rfl
  refine ⟨⟨?_, ?_⟩, hnumbered, ?_, ?_⟩
  · intro target network cloudId hat hreference
    obtain ⟨owner, hresolved, howner, hmade⟩ := href target network cloudId hat hreference
    refine ⟨owner, hresolved, ?_⟩
    show s.madeForAfter labs target = some (cloudId, s.cloudAfter labs owner)
    have hnamed := namedCloud_eq_some_iff.mpr hreference
    unfold SharedClouds.madeForAfter
    rw [show networkAt labs target = some network from hat]
    dsimp only
    rw [hnamed]
    dsimp only
    split
    next hsame =>
      obtain ⟨⟨name, cloud⟩, hmadeFor, hname⟩ := Option.map_eq_some_iff.mp hsame
      dsimp only at hname
      subst hname
      rw [hmadeFor, hmade cloud hmadeFor, SharedClouds.cloudAfter_of_owner howner]
    next => rw [hresolved, Option.map_some]
  · intro target target' howner howner' hsame
    have hcloud : s.cloudAfter labs target = s.cloudAfter labs target' := hsame
    cases hbefore : ownerAt s.labs target with
    | true =>
      cases hbefore' : ownerAt s.labs target' with
      | true =>
        rw [SharedClouds.cloudAfter_of_owner hbefore,
          SharedClouds.cloudAfter_of_owner hbefore'] at hcloud
        exact h.sound.numbers target target' hbefore hbefore' hcloud
      | false =>
        have hold := hlt target hbefore
        have hfresh := hclock target' howner' hbefore'
        omega
    | false =>
      cases hbefore' : ownerAt s.labs target' with
      | true =>
        have hold := hlt target' hbefore'
        have hfresh := hclock target howner hbefore
        omega
      | false => exact hnew target target' howner howner' hbefore hbefore'
  · intro target hnone
    show s.madeForAfter labs target = none
    unfold SharedClouds.madeForAfter
    rw [show networkAt labs target = none from hnone]
  · intro target howner
    show s.cloudAfter labs target < s.clock + 1
    cases hbefore : ownerAt s.labs target with
    | true =>
      have hold := hlt target hbefore
      omega
    | false =>
      have hfresh := hclock target howner hbefore
      omega

/-- Records that go away leave the references sound when no reference that stays resolves to
one of them. -/
theorem CloudsKept.remove (h : CloudsKept s)
    (hstay : ∀ target network, networkAt labs target = some network →
      networkAt s.labs target = some network)
    (hfind : ∀ target network cloudId, networkAt labs target = some network →
      network.IsReference cloudId → findNatCloudOwner labs cloudId = findNatCloudOwner s.labs cloudId) :
    CloudsKept (s.note labs) := by
  refine h.note (fun target network hat => h.numbered target network (hstay _ _ hat)) ?_ ?_
  · intro target network cloudId hat href
    obtain ⟨owner, hresolved, hmade⟩ :=
      h.sound.resolved target network cloudId (hstay _ _ hat) href
    refine ⟨owner, ?_, resolvedAt_owner h.numbered hresolved, ?_⟩
    · unfold resolvedAt
      rw [hfind target network cloudId hat href]
      exact hresolved
    · intro cloud hcloud
      rw [hmade] at hcloud
      exact (congrArg Prod.snd (Option.some.inj hcloud)).symm
  · intro target target' howner _ hbefore _
    obtain ⟨network, hat, hown⟩ := ownerAt_iff.mp howner
    rw [ownerAt_iff.mpr ⟨network, hstay _ _ hat, hown⟩] at hbefore
    cases hbefore

/-- One record written. -/
theorem CloudsKept.put {network : Network} (h : CloudsKept s)
    (put : PutNetwork s.labs labs target network) (hid : network.id = target.2)
    (hreferenced : ∀ cloudId, Referenced s.labs target cloudId →
      resolvedAt labs cloudId = resolvedAt s.labs cloudId)
    (hnamed : ∀ cloudId, network.IsReference cloudId → ∃ owner,
      resolvedAt labs cloudId = some owner ∧ ownerAt s.labs owner = true ∧
        ∀ cloud, s.madeFor target = some (cloudId, cloud) → cloud = s.cloudAt owner) :
    CloudsKept (s.note labs) := by
  refine h.note ?_ ?_ ?_
  · intro other record hat
    rw [put.lookup] at hat
    split at hat
    next hother =>
      cases hat
      rw [← hother]
      exact hid
    next => exact h.numbered other record hat
  · intro other record cloudId hat href
    rw [put.lookup] at hat
    split at hat
    next hother =>
      cases hat
      subst hother
      exact hnamed cloudId href
    next hother =>
      obtain ⟨owner, hresolved, hmade⟩ := h.sound.resolved other record cloudId hat href
      have hnames : Referenced s.labs target cloudId := ⟨other, record, Ne.symm hother, hat, href⟩
      refine ⟨owner, (hreferenced cloudId hnames).trans hresolved,
        resolvedAt_owner h.numbered hresolved, ?_⟩
      intro cloud hcloud
      rw [hmade] at hcloud
      exact (congrArg Prod.snd (Option.some.inj hcloud)).symm
  · have honly : ∀ other, ownerAt labs other = true → ownerAt s.labs other = false →
        other = target := by
      intro other howner hbefore
      obtain ⟨record, hat, hown⟩ := ownerAt_iff.mp howner
      rw [put.lookup] at hat
      split at hat
      next hother => exact hother.symm
      next =>
        rw [ownerAt_iff.mpr ⟨record, hat, hown⟩] at hbefore
        cases hbefore
    intro other other' howner howner' hbefore hbefore'
    rw [honly other howner hbefore, honly other' howner' hbefore']

theorem createNetworkIn_clouds {env : CloudEnv} {labPath : String} {request : NetworkCreate}
    (h : CloudsKept s) (hok : KeepsReferences s (.edit (.createNetwork env labPath request)))
    (hcreate : createNetworkIn env s.labs labPath request = .ok labs) :
    CloudsKept (s.note labs) := by
  obtain ⟨lab, hlab⟩ := createNetworkIn_lab hcreate
  obtain ⟨config, bridge, hconfig, _, hlabs⟩ := createNetworkIn_built hlab hcreate
  have put : PutNetwork s.labs labs (labPath, lab.networks.nextKey) _ := ⟨lab, hlab, hlabs⟩
  have hnone : networkAt s.labs (labPath, lab.networks.nextKey) = none := by
    unfold networkAt
    rw [hlab, Option.bind_some]
    exact lab.networks.get?_nextKey
  have hmade := h.forgotten _ hnone
  by_cases htype : request.type = .natCloud
  · have hnat : natCloudConfig env.natCloudPool s.labs request.config lab.networks =
        .ok (config, bridge) := by
      rw [← hconfig, normalizedConfig_natCloud htype]
    rcases natCloudConfig_cases hnat with
      ⟨hshared, _, range, _, hconf⟩ | ⟨hshared, owner, hfind, hconf, _⟩
    · obtain ⟨hgiven, hunnamed⟩ := hok lab hlab htype hshared
      refine h.put put rfl ?_ ?_
      · intro cloudId hreferenced
        have hne : natCloudId (cloudLabId labPath lab) lab.networks.nextKey ≠ cloudId := by
          intro he
          rw [he] at hunnamed
          exact hunnamed hreferenced
        unfold resolvedAt
        rw [find_fresh hlab put (ownerIn_none_of_ne hne)]
      · intro cloudId href
        have hsome : given config.sharedCloudId = some cloudId := href.2
        rw [hconf] at hsome
        have hclash := hgiven.symm.trans hsome
        cases hclash
    · have hgiven : given config.sharedCloudId = some (sharedCloudIdOf request.config) := by
        rw [hconf]
        exact given_eq_some_iff.mpr ⟨rfl, hshared⟩
      have hsame : ∀ cloudId, resolvedAt labs cloudId = resolvedAt s.labs cloudId := by
        intro cloudId
        unfold resolvedAt
        rw [find_fresh hlab put (ownerIn_none_of_not_owner ?_)]
        rintro ⟨_, hno⟩
        have hclash := hno.symm.trans hgiven
        cases hclash
      refine h.put put rfl (fun cloudId _ => hsame cloudId) ?_
      intro cloudId href
      obtain rfl : sharedCloudIdOf request.config = cloudId :=
        Option.some.inj (hgiven.symm.trans href.2)
      have hresolved : resolvedAt s.labs (sharedCloudIdOf request.config) =
          some (owner.labPath, owner.networkId) := by
        unfold resolvedAt
        rw [hfind, Option.map_some]
      refine ⟨_, (hsame _).trans hresolved, resolvedAt_owner h.numbered hresolved, ?_⟩
      intro cloud hcloud
      rw [hmade] at hcloud
      cases hcloud
  · refine h.put put rfl ?_ ?_
    · intro cloudId _
      unfold resolvedAt
      rw [find_fresh hlab put (ownerIn_none_of_not_owner (fun howner => htype howner.1))]
    · exact fun cloudId href => absurd href.1 htype

/-- A record given another type or config, by either of the two handlers. -/
theorem CloudsKept.patched {network network' : Network} {patch : NetworkUpdate} (h : CloudsKept s)
    (hat : networkAt s.labs target = some network)
    (keeps : PatchKeepsReferences s target network (askedRecord network patch))
    (put : PutNetwork s.labs labs target network')
    (same : SameCloud (askedRecord network patch) network') : CloudsKept (s.note labs) := by
  obtain ⟨lab, hlab, hget⟩ := networkAt_eq_some_iff.mp hat
  have hid : network'.id = network.id := same.id
  refine h.put put (hid.trans (h.numbered target network hat)) ?_ ?_
  · intro cloudId hreferenced
    apply put.find_map
    intro lab' hlab'
    obtain rfl : lab = lab' := Option.some.inj (hlab.symm.trans hlab')
    rw [hget, Option.bind_some]
    by_cases hcloud : natCloudId (cloudLabId target.1 lab) network.id = cloudId
    · subst hcloud
      have hiff := keeps.referenced lab hlab hreferenced
      by_cases howner : network.IsOwner
      · have howner' := same.isOwner_iff.mpr (hiff.mp howner)
        unfold ownerIn
        rw [if_pos ⟨howner', by rw [hid]⟩, if_pos ⟨howner, rfl⟩]
        show some (target.1, network'.id) = some (target.1, network.id)
        rw [hid]
      · have hnot : ¬ network'.IsOwner := fun h' => howner (hiff.mpr (same.isOwner_iff.mp h'))
        rw [ownerIn_none_of_not_owner hnot, ownerIn_none_of_not_owner howner]
    · have hne : natCloudId (cloudLabId target.1 lab) network'.id ≠ cloudId := by
        rw [hid]
        exact hcloud
      rw [ownerIn_none_of_ne hne, ownerIn_none_of_ne hcloud]
  · intro cloudId href
    obtain ⟨hold, owner, hresolved, hmade⟩ :=
      keeps.named cloudId lab (same.isReference_iff.mp href) hlab
    refine ⟨owner, ?_, resolvedAt_owner h.numbered hresolved, hmade⟩
    have hsame : findNatCloudOwner labs cloudId = findNatCloudOwner s.labs cloudId := by
      apply put.find_eq
      · exact fun _ _ => ownerIn_none_of_not_owner href.not_owner
      · intro lab' old hlab' hget'
        obtain rfl : lab = lab' := Option.some.inj (hlab.symm.trans hlab')
        obtain rfl : network = old := Option.some.inj (hget.symm.trans hget')
        exact hold
    unfold resolvedAt
    rw [hsame]
    exact hresolved

theorem deleteNetworkIn_clouds {env : CloudEnv} {labPath : String} {networkId : Int}
    (h : CloudsKept s) (hdelete : deleteNetworkIn env s.labs labPath networkId = .ok labs) :
    CloudsKept (s.note labs) := by
  obtain ⟨_, _, _, _, pop, _⟩ := deleteNetworkIn_ok hdelete
  have hstay : ∀ target network, networkAt labs target = some network →
      networkAt s.labs target = some network := by
    intro target network hat
    rw [pop.lookup] at hat
    split at hat
    next => cases hat
    next => exact hat
  refine h.remove hstay ?_
  intro target network cloudId hat href
  exact deleteNetworkIn_find hdelete target network cloudId (hstay _ _ hat) href

/-- A scope without external references owns no cloud that a reference outside of it names. -/
theorem externalReferences_nil {scope : String} (h : externalReferences labs scope = [])
    {network : Network} {cloudId path : String} {lab : Lab} {id : Int} {owner : Network}
    (hat : networkAt labs target = some network) (href : network.IsReference cloudId)
    (hout : inScope scope target.1 = false) (hin : inScope scope path = true)
    (hlab : labs.get? path = some lab) (hget : lab.networks.get? id = some owner) :
    ownerIn cloudId path lab owner = none := by
  unfold ownerIn
  rw [if_neg]
  rintro ⟨howner, hid⟩
  obtain ⟨refLab, hrefLab, hrefGet⟩ := networkAt_eq_some_iff.mp hat
  have hmem : cloudRef target.1 refLab network ∈ cloudRefs labs :=
    mem_cloudRefs_iff.mpr ⟨_, _, _, _, hrefLab, hrefGet, href.1, rfl⟩
  have hownerMem : cloudRef path lab owner ∈ cloudRefs labs :=
    mem_cloudRefs_iff.mpr ⟨_, _, _, _, hlab, hget, howner.1, rfl⟩
  have hcloud : (cloudRef path lab owner).cloudId = cloudId := by
    unfold cloudRef
    dsimp only
    rw [howner.2, Option.getD_none]
    exact hid
  have hcontains : (((cloudRefs labs).filter
      (fun ref => !ref.isReference && inScope scope ref.labPath)).map
        CloudNetworkRef.cloudId).contains cloudId = true := by
    rw [List.contains_iff_mem]
    refine List.mem_map.mpr ⟨_, List.mem_filter.mpr ⟨hownerMem, ?_⟩, hcloud⟩
    simp [cloudRef, howner.2, hin]
  have hlisted : cloudRef target.1 refLab network ∈ externalReferences labs scope := by
    refine List.mem_filter.mpr ⟨hmem, ?_⟩
    simp only [cloudRef, href.2, Option.isSome_some, Option.getD_some, Bool.true_and]
    rw [hcontains, hout]
    rfl
  rw [h] at hlisted
  cases hlisted

theorem networkAt_pop {labPath : String} {network : Network}
    (h : networkAt (labs.pop labPath) target = some network) :
    target.1 ≠ labPath ∧ networkAt labs target = some network := by
  obtain ⟨lab, hlab, hget⟩ := networkAt_eq_some_iff.mp h
  rw [Dict.get?_pop] at hlab
  split at hlab
  next => cases hlab
  next hne => exact ⟨Ne.symm hne, networkAt_eq_some_iff.mpr ⟨lab, hlab, hget⟩⟩

theorem networkAt_filterKeys {keep : String → Bool} {network : Network}
    (h : networkAt (labs.filterKeys keep) target = some network) :
    keep target.1 = true ∧ networkAt labs target = some network := by
  obtain ⟨lab, hlab, hget⟩ := networkAt_eq_some_iff.mp h
  rw [Dict.get?_filterKeys] at hlab
  split at hlab
  next hkeep => exact ⟨hkeep, networkAt_eq_some_iff.mpr ⟨lab, hlab, hget⟩⟩
  next => cases hlab

theorem deleteLabIn_clouds {labPath : String} (h : CloudsKept s)
    (hok : KeepsReferences s (.deleteLab labPath)) (hdelete : deleteLabIn s.labs labPath = .ok labs) :
    CloudsKept (s.note labs) := by
  unfold deleteLabIn at hdelete
  split at hdelete
  next => cases hdelete
  next hnone =>
    cases hdelete
    have hnil : externalReferences s.labs labPath = [] := not_ne_iff.mp hnone
    refine h.remove (fun target network hat => (networkAt_pop hat).2) ?_
    intro target network cloudId hat href
    obtain ⟨hother, hbefore⟩ := networkAt_pop hat
    obtain ⟨refLab, hrefLab, _⟩ := networkAt_eq_some_iff.mp hbefore
    have hout : inScope labPath target.1 = false := by
      cases hin : inScope labPath target.1 with
      | false => rfl
      | true => exact absurd (hok target.1 hin (by rw [hrefLab]; rfl)) hother
    have hself : inScope labPath labPath = true := by simp [inScope]
    rw [findNatCloudOwner_eq_search, findNatCloudOwner_eq_search]
    apply Dict.search_pop
    intro lab hlab
    apply Dict.search_eq_none
    intro id owner hget
    exact externalReferences_nil hnil hbefore href hout hself hlab hget

theorem deleteFolderIn_clouds {folder : String} {left : String → Bool} (h : CloudsKept s)
    (hok : KeepsReferences s (.deleteFolder folder left))
    (hdelete : deleteFolderIn s.labs folder left = .ok labs) : CloudsKept (s.note labs) := by
  unfold deleteFolderIn at hdelete
  split at hdelete
  next => cases hdelete
  next hnone =>
    cases hdelete
    have hnil : externalReferences s.labs folder = [] := not_ne_iff.mp hnone
    refine h.remove (fun target network hat => (networkAt_filterKeys hat).2) ?_
    intro target network cloudId hat href
    obtain ⟨hkeep, hbefore⟩ := networkAt_filterKeys hat
    rw [findNatCloudOwner_eq_search, findNatCloudOwner_eq_search]
    apply Dict.search_filterKeys
    intro path lab hlab hgone
    obtain ⟨hscope, hleft⟩ := Bool.or_eq_false_iff.mp hgone
    have hin : inScope folder path = true := by simpa using hscope
    apply Dict.search_eq_none
    intro id owner hget
    cases hout : inScope folder target.1 with
    | false => exact externalReferences_nil hnil hbefore href hout hin hlab hget
    | true =>
      have hstays : left target.1 = true := by
        rw [hout] at hkeep
        simpa using hkeep
      exact hok target network cloudId hbefore href hout hstays path lab id owner hin hleft hlab hget

theorem cloudChange_kept {change : CloudChange} (h : CloudsKept s) (hok : KeepsReferences s change) :
    CloudsKept (cloudChange s change) := by
  unfold cloudChange
  split
  next labs hresult =>
    cases change with
    | edit call =>
      cases call with
      | createNetwork env labPath request => exact createNetworkIn_clouds h hok hresult
      | patchNetwork env labPath networkId patch =>
        obtain ⟨network, network', hat, hcheck, put, same⟩ := patchNetworkIn_ok hresult
        exact h.patched hat (hok network hat hcheck) put same
      | deleteNetwork env labPath networkId => exact deleteNetworkIn_clouds h hresult
    | updateNetwork labPath networkId patch =>
      obtain ⟨network, network', hat, hcheck, put, same⟩ := updateNetworkIn_ok hresult
      exact h.patched hat (hok network hat hcheck) put same
    | deleteLab labPath => exact deleteLabIn_clouds h hok hresult
    | deleteFolder folder left => exact deleteFolderIn_clouds h hok hresult
  next => exact h

end NovaVe
