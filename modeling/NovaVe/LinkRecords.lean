import NovaVe.LinkRequests
import NovaVe.LinkSteps

namespace NovaVe

variable {linkId : String} {a b : Endpoint} {style : Option String} {data lab : Lab}
  {hotAttach : Option (List Stamp)} {entry : CachedLink} {owner : String → Option IpamTarget}
  {detached : Bool} {deleted : DeletedLink}

/-- What the link with an id wires. -/
def Lab.endpointsOf (lab : Lab) (linkId : String) : Option (List Endpoint) :=
  (findLink lab linkId).map Link.endpoints

theorem Lab.endpointsOf_eq (lab : Lab) (linkId : String) :
    lab.endpointsOf linkId =
      (lab.wires.find? (fun wire => decide (wire.1 = linkId))).map Prod.snd := by
  unfold Lab.endpointsOf findLink Lab.wires
  rw [List.find?_map, Option.map_map]
  rfl

theorem findLink_id {lab : Lab} {l : Link} (h : findLink lab linkId = some l) :
    l.id = linkId := by
  simpa using List.find?_some h

theorem endpointsOf_of_findLink {lab : Lab} {l : Link} (h : findLink lab linkId = some l) :
    lab.endpointsOf linkId = some l.endpoints := by
  unfold Lab.endpointsOf
  rw [h]
  rfl

theorem stampLink_wires (data : Lab) (stamp : Stamp) :
    (stampLinkAttachGeneration data stamp).wires = data.wires := by
  unfold stampLinkAttachGeneration
  dsimp only
  split <;> exact map_modifyFirst _ (stampLink stamp.attachGeneration) _ (fun _ => rfl) _

theorem stamps_wires (stamps : List Stamp) (data : Lab) :
    (stamps.foldl stampLinkAttachGeneration data).wires = data.wires :=
  foldl_keeps Lab.wires stampLink_wires stamps data

/-- What `create_link` adds: its links, under fresh ids, after the links that were there. -/
theorem createLinkData_links {data : Lab} {created : CreatedLink}
    (h : createLinkData data a b style = .ok created) :
    created.data.links = data.links ++ created.concrete ∧ created.concrete ≠ [] ∧
      (data.linkIds.Nodup → created.data.linkIds.Nodup) ∧
      ∀ l ∈ created.concrete, l.id ∉ data.linkIds := by
  have hmixed : ∀ {targetNetworkId : Int},
      createMixedLink data a b style targetNetworkId = .ok created →
      created.data.links = data.links ++ created.concrete ∧ created.concrete ≠ [] ∧
        (data.linkIds.Nodup → created.data.linkIds.Nodup) ∧
        ∀ l ∈ created.concrete, l.id ∉ data.linkIds := by
    intro targetNetworkId hm
    unfold createMixedLink at hm
    split at hm
    next => cases hm
    next =>
      cases hm
      have hfresh := nextLinkId_notMem data.linkIds
      refine ⟨promoteAtThree_links _ _, List.cons_ne_nil _ _, ?_, ?_⟩
      · intro hids
        unfold Lab.linkIds
        rw [promoteAtThree_links, List.map_append]
        exact ids_append_fresh hids hfresh
      · intro l hl
        obtain rfl := List.mem_singleton.mp hl
        exact hfresh
  unfold createLinkData at h
  obtain ⟨_, _, h⟩ := bind_eq_ok.mp h
  obtain ⟨_, _, h⟩ := bind_eq_ok.mp h
  split at h
  next =>
    cases h
    have hfirst := nextLinkId_notMem data.linkIds
    have hsecond := nextLinkId_notMem (data.linkIds ++ [nextLinkId data.linkIds])
    refine ⟨rfl, List.cons_ne_nil _ _, ?_, ?_⟩
    · intro hids
      have hboth := ids_append_fresh (ids_append_fresh hids hfirst) hsecond
      rw [List.append_assoc] at hboth
      simpa [createImplicitBridge, Lab.linkIds] using hboth
    · intro l hl
      simp only [createImplicitBridge, List.mem_cons, List.not_mem_nil, or_false] at hl
      rcases hl with rfl | rfl
      · exact hfirst
      · intro hm
        exact hsecond (List.mem_append_left _ hm)
  next => exact hmixed h
  next => exact hmixed h

theorem createLinkLocked_ok (h : createLinkLocked data a b style hotAttach = .ok (lab, entry)) :
    ∃ created stamps first rest, createLinkData data a b style = .ok created ∧
      hotAttach = some stamps ∧ created.concrete = first :: rest ∧
      lab = stamps.foldl stampLinkAttachGeneration created.data ∧
      entry = createdPayload created lab (!stamps.isEmpty) first := by
  unfold createLinkLocked at h
  split at h
  next => cases h
  next created hcreated =>
    split at h
    next => cases h
    next => cases h
    next stamps first rest hconcrete =>
      obtain ⟨rfl, rfl⟩ := Prod.mk.inj (Except.ok.inj h)
      exact ⟨created, stamps, first, rest, hcreated, rfl, hconcrete, rfl, rfl⟩

theorem createLinkLocked_wires (h : createLinkLocked data a b style hotAttach = .ok (lab, entry)) :
    ∃ created, createLinkData data a b style = .ok created ∧
      lab.wires = data.wires ++ created.concrete.map (fun l => (l.id, l.endpoints)) := by
  obtain ⟨created, stamps, first, rest, hcreated, _, _, rfl, _⟩ := createLinkLocked_ok h
  refine ⟨created, hcreated, ?_⟩
  rw [stamps_wires]
  unfold Lab.wires
  rw [(createLinkData_links hcreated).1, List.map_append]

theorem createLinkLocked_nodup (hids : data.linkIds.Nodup)
    (h : createLinkLocked data a b style hotAttach = .ok (lab, entry)) : lab.linkIds.Nodup := by
  obtain ⟨created, stamps, _, _, hcreated, _, _, rfl, _⟩ := createLinkLocked_ok h
  have hnodup := (createLinkData_links hcreated).2.2.1 hids
  rw [Lab.linkIds_eq, stamps_wires, ← Lab.linkIds_eq]
  exact hnodup

/-- A link that is found before a creation is found after it. -/
theorem createLinkLocked_keeps (h : createLinkLocked data a b style hotAttach = .ok (lab, entry))
    {ends : List Endpoint} (hends : data.endpointsOf linkId = some ends) :
    lab.endpointsOf linkId = some ends := by
  obtain ⟨created, _, hwires⟩ := createLinkLocked_wires h
  rw [Lab.endpointsOf_eq] at hends ⊢
  obtain ⟨wire, hfind, hwire⟩ := Option.map_eq_some_iff.mp hends
  rw [hwires, List.find?_append, hfind]
  simpa using hwire

/-- What is found after a creation was found before, or is one of the new links. -/
theorem createLinkLocked_origin (h : createLinkLocked data a b style hotAttach = .ok (lab, entry))
    {ends : List Endpoint} (hends : lab.endpointsOf linkId = some ends) :
    data.endpointsOf linkId = some ends ∨
      ∃ created, createLinkData data a b style = .ok created ∧
        ∃ l ∈ created.concrete, l.id = linkId ∧ l.endpoints = ends := by
  obtain ⟨created, hcreated, hwires⟩ := createLinkLocked_wires h
  rw [Lab.endpointsOf_eq, hwires, List.find?_append] at hends
  cases hold : data.wires.find? (fun wire => decide (wire.1 = linkId)) with
  | some wire =>
    left
    rw [Lab.endpointsOf_eq, hold]
    simpa [hold] using hends
  | none =>
    right
    rw [hold, Option.none_or] at hends
    obtain ⟨wire, hfind, hwire⟩ := Option.map_eq_some_iff.mp hends
    obtain ⟨l, hl, rfl⟩ := List.mem_map.mp (List.mem_of_find?_eq_some hfind)
    refine ⟨created, hcreated, l, hl, ?_, hwire⟩
    simpa using List.find?_some hfind

/-- The payload of a creation denotes a link of the lab it leaves. -/
theorem createLinkLocked_payload (h : createLinkLocked data a b style hotAttach = .ok (lab, entry)) :
    entry.linkId = entry.linkPayload.id ∧
      lab.endpointsOf entry.linkId = some entry.linkPayload.endpoints := by
  obtain ⟨created, hcreated, hwires⟩ := createLinkLocked_wires h
  obtain ⟨created', stamps, first, rest, hcreated', _, hconcrete, _, rfl⟩ := createLinkLocked_ok h
  obtain rfl : created' = created := Except.ok.inj (hcreated'.symm.trans hcreated)
  have hfirst : lab.endpointsOf first.id = some first.endpoints := by
    have hfresh : first.id ∉ data.linkIds :=
      (createLinkData_links hcreated).2.2.2 first (by rw [hconcrete]; exact List.mem_cons_self)
    have hnone : data.wires.find? (fun wire => decide (wire.1 = first.id)) = none := by
      rw [List.find?_eq_none]
      intro wire hwire
      rw [Lab.linkIds_eq] at hfresh
      have hne : wire.1 ≠ first.id := fun he => hfresh (he ▸ List.mem_map_of_mem hwire)
      simpa using hne
    rw [Lab.endpointsOf_eq, hwires, List.find?_append, hnone, hconcrete]
    simp
  refine ⟨rfl, ?_⟩
  unfold createdPayload
  dsimp only
  split
  next =>
    obtain ⟨l, hl, hends⟩ := Option.map_eq_some_iff.mp hfirst
    rw [hl, Option.getD_some, findLink_id hl, hfirst, hends]
  next => exact hfirst

theorem releaseHere_links (data : Lab) (release : Option (IpamTarget × String)) :
    (releaseHere data release).links = data.links := by
  unfold releaseHere
  split
  next =>
    unfold releaseIpFromOwner
    split
    next => rfl
    next => split <;> rfl
  next => rfl

theorem findLink_releaseHere (data : Lab) (release : Option (IpamTarget × String)) (linkId : String) :
    findLink (releaseHere data release) linkId = findLink data linkId := by
  unfold findLink
  rw [releaseHere_links]

/-- A search is not changed by the removal of a link it does not look for. -/
theorem find?_eraseP {α : Type} {p q : α → Bool} {xs : List α}
    (h : ∀ y, xs.find? q = some y → p y = false) : (xs.eraseP q).find? p = xs.find? p := by
  induction xs with
  | nil => rfl
  | cons x rest ih =>
    by_cases hq : q x = true
    · have hp : p x = false := h x (by rw [List.find?_cons, hq])
      rw [List.eraseP_cons_of_pos hq, List.find?_cons, hp]
    · have hrest : (rest.eraseP q).find? p = rest.find? p := by
        apply ih
        intro y hy
        apply h
        rw [List.find?_cons_of_neg hq]
        exact hy
      rw [List.eraseP_cons_of_neg hq, List.find?_cons, List.find?_cons, hrest]

theorem cascadeOrphan_eq (networks : Dict Int Network) (links : List Link) (networkId : Int) :
    cascadeOrphan networks links networkId = links ∨
      (cascadeOrphan networks links networkId =
          links.eraseP (fun l => decide (networkId ∈ l.networks)) ∧
        orphanOf networks links networkId =
          links.find? (fun l => decide (networkId ∈ l.networks))) := by
  unfold cascadeOrphan orphanOf
  cases hget : networks.get? networkId with
  | none => exact Or.inl rfl
  | some record =>
    dsimp only
    by_cases horphan : record.implicit ∧ refcount links networkId = 1
    · rw [if_pos horphan, if_pos horphan]
      exact Or.inr ⟨rfl, rfl⟩
    · rw [if_neg horphan]
      exact Or.inl rfl

theorem cascade_sublist (networks : Dict Int Network) (networkIds : List Int) (links : List Link) :
    List.Sublist (networkIds.foldl (cascadeOrphan networks) links) links := by
  induction networkIds generalizing links with
  | nil => exact List.Sublist.refl links
  | cons networkId rest ih =>
    have hstep : List.Sublist (cascadeOrphan networks links networkId) links := by
      rcases cascadeOrphan_eq networks links networkId with h | ⟨h, _⟩
      · rw [h]
      · rw [h]
        exact List.eraseP_sublist
    exact (ih _).trans hstep

/-- A link whose id is not among the cascaded ones is still found. -/
theorem cascade_find? {networks : Dict Int Network} {networkIds : List Int} {links : List Link}
    (h : linkId ∉ cascadedIds networks links networkIds) :
    (networkIds.foldl (cascadeOrphan networks) links).find? (fun l => decide (l.id = linkId)) =
      links.find? (fun l => decide (l.id = linkId)) := by
  induction networkIds generalizing links with
  | nil => rfl
  | cons networkId rest ih =>
    unfold cascadedIds at h
    obtain ⟨hfirst, hrest⟩ := not_or.mp (fun hm => h (List.mem_append.mpr hm))
    rw [List.foldl_cons, ih hrest]
    rcases cascadeOrphan_eq networks links networkId with heq | ⟨heq, horphan⟩
    · rw [heq]
    · rw [heq]
      apply find?_eraseP
      intro y hy
      have hne : y.id ≠ linkId := by
        intro he
        apply hfirst
        rw [horphan, hy, ← he]
        exact List.mem_singleton.mpr rfl
      simpa using hne

theorem deleteLinkLocked_ok {data : Lab}
    (h : deleteLinkLocked owner data linkId detached = .ok (some deleted)) :
    findLink data linkId = some deleted.detached ∧ deleted.removed = deleted.detached ∧
      ∃ release, deleted.data =
          removeLink (releaseHere data release) deleted.removed linkId ∧
        deleted.announced = cascadedIds (releaseHere data release).networks
          (data.links.eraseP (fun l => decide (l.id = linkId))) deleted.removed.networks ++
            [linkId] := by
  unfold deleteLinkLocked at h
  split at h
  next => cases h
  next target hfind =>
    split at h
    next =>
      split at h
      next => cases h
      next release _ =>
        dsimp only at h
        rw [findLink_releaseHere, hfind] at h
        cases h
        refine ⟨hfind, rfl, release, rfl, ?_⟩
        dsimp only
        rw [releaseHere_links]
    next => cases h

/-- The critical section of `delete_link` writes what `delete_link` writes. -/
theorem deleteLinkLocked_lab {data : Lab}
    (h : deleteLinkLocked owner data linkId detached = .ok (some deleted)) :
    deleteLink owner data linkId detached = .ok deleted.data := by
  unfold deleteLinkLocked at h
  cases hfind : findLink data linkId with
  | none =>
    rw [hfind] at h
    cases h
  | some target =>
    rw [hfind] at h
    dsimp only at h
    unfold deleteLink
    rw [hfind]
    dsimp only
    split at h
    next hdetached =>
      rw [if_pos hdetached]
      cases hrelease : linkIpRelease owner data target with
      | none =>
        rw [hrelease] at h
        cases h
      | some release =>
        simp only [hrelease, findLink_releaseHere, hfind] at h
        cases h
        rfl
    next => cases h

theorem deleteLinkLocked_sublist {data : Lab}
    (h : deleteLinkLocked owner data linkId detached = .ok (some deleted)) :
    List.Sublist deleted.data.wires data.wires := by
  obtain ⟨_, _, release, hdata, _⟩ := deleteLinkLocked_ok h
  rw [hdata]
  refine List.Sublist.map _ ((cascade_sublist _ _ _).trans ?_)
  rw [releaseHere_links]
  exact List.eraseP_sublist

/-- A deletion keeps the links it does not announce. -/
theorem deleteLinkLocked_keeps {data : Lab}
    (h : deleteLinkLocked owner data linkId detached = .ok (some deleted)) {other : String}
    (hother : other ∉ deleted.announced) :
    deleted.data.endpointsOf other = data.endpointsOf other := by
  obtain ⟨_, _, release, hdata, hannounced⟩ := deleteLinkLocked_ok h
  rw [hannounced] at hother
  obtain ⟨hcascade, hne⟩ := not_or.mp (fun hm => hother (List.mem_append.mpr hm))
  have hids : linkId ≠ other := fun he => hne (List.mem_singleton.mpr he.symm)
  unfold Lab.endpointsOf findLink
  rw [hdata]
  unfold removeLink
  dsimp only
  rw [releaseHere_links, cascade_find? hcascade]
  congr 1
  apply find?_eraseP
  intro y hy
  have hid : y.id = linkId := by simpa using List.find?_some hy
  simpa [hid] using hids

/-- Where the ids are distinct, what a deletion leaves was found before. -/
theorem deleteLinkLocked_origin {data : Lab} (hids : data.linkIds.Nodup)
    (h : deleteLinkLocked owner data linkId detached = .ok (some deleted)) {other : String}
    {ends : List Endpoint} (hends : deleted.data.endpointsOf other = some ends) :
    data.endpointsOf other = some ends := by
  have hsub := deleteLinkLocked_sublist h
  rw [Lab.endpointsOf_eq] at hends ⊢
  obtain ⟨wire, hfind, hwire⟩ := Option.map_eq_some_iff.mp hends
  have hmem : wire ∈ data.wires := hsub.subset (List.mem_of_find?_eq_some hfind)
  have hid : wire.1 = other := by simpa using List.find?_some hfind
  rw [Lab.linkIds_eq] at hids
  cases hold : data.wires.find? (fun w => decide (w.1 = other)) with
  | none =>
    have hno := List.find?_eq_none.mp hold wire hmem
    simp [hid] at hno
  | some old =>
    have hold' : old.1 = other := by simpa using List.find?_some hold
    have hsame : old = wire := by
      refine List.inj_on_of_nodup_map hids (List.mem_of_find?_eq_some hold) hmem ?_
      rw [hold', hid]
    rw [hsame]
    simpa using hwire

theorem deleteLinkLocked_nodup {data : Lab} (hids : data.linkIds.Nodup)
    (h : deleteLinkLocked owner data linkId detached = .ok (some deleted)) :
    deleted.data.linkIds.Nodup := by
  rw [Lab.linkIds_eq] at hids ⊢
  exact hids.sublist ((deleteLinkLocked_sublist h).map _)

end NovaVe
