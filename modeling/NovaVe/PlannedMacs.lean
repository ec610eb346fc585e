import NovaVe.MacRegistry
import NovaVe.LinkRecords
import NovaVe.Writers

namespace NovaVe

/-- Why `patch_node_interface` is refused. -/
inductive IfacePatchError
  | nodeMissing
  | interfaceMissing
  | macCollision
deriving DecidableEq, Repr

/-- The body of a PATCH: a field that is absent, or given as a text or as null. -/
structure IfacePatch where
  plannedMac : Option (Option String) := none
  portPosition : Option (Option String) := none
deriving DecidableEq, Repr

def Lab.setInterface (lab : Lab) (nodeId : Int) (node : Node) (position : Nat) (f : Iface → Iface) :
    Lab :=
  { lab with
    nodes := lab.nodes.set nodeId { node with interfaces := node.interfaces.modify position f } }

/-- The planned address that a PATCH writes, or a collision. -/
def patchedMac (lower : String → String) (entries : MacEntries) (networkId : Int) (owner : MacOwner)
    (patch : IfacePatch) (current : Option String) : Except IfacePatchError (Option String) :=
  match patch.plannedMac with
  | none => .ok current
  | some none => .ok none
  | some (some given) =>
    if given = "" then .ok current
    else
      let mac := normalizeMac lower given
      if networkId ≠ 0 ∧ (checkCollision lower entries networkId (some mac) (some owner)).isSome then
        .error .macCollision
      else .ok (some mac)

/-- The locked body of `patch_node_interface` on the lab at a path. -/
def patchNodeInterface (lower : String → String) (labPath : String) (entries : MacEntries) (lab : Lab)
    (nodeId interfaceIndex : Int) (patch : IfacePatch) : Except IfacePatchError Lab :=
  match lab.nodes.get? nodeId with
  | none => .error .nodeMissing
  | some node =>
    if interfaceIndex < 0 ∨ node.interfaces.length ≤ interfaceIndex.toNat then
      .error .interfaceMissing
    else
      let current := (lab.interfaceAt nodeId interfaceIndex).bind Iface.plannedMac
      let networkId := derivedNetworkId lab.links nodeId interfaceIndex.toNat
      match patchedMac lower entries networkId ⟨labPath, nodeId, interfaceIndex⟩ patch current with
      | .error e => .error e
      | .ok mac =>
        .ok (lab.setInterface nodeId node interfaceIndex.toNat (fun iface =>
          { iface with
            plannedMac := mac
            portPosition := patch.portPosition.getD iface.portPosition }))

/-- The interface, and the network, of each link that `create_link` makes. -/
def newAttachments (lab : Lab) : Endpoint → Endpoint → List (Int × Int × Int)
  | .node n i, .node m j => [(n, i, lab.networks.nextKey), (m, j, lab.networks.nextKey)]
  | .node n i, .network k => [(n, i, k)]
  | .network k, .node n i => [(n, i, k)]
  | .network _, .network _ => []

theorem plansMac_iff {lower : String → String} {lab : Lab} {key : MacKey} {iface : Int × Int} :
    lab.PlansMac lower key iface ↔
      plannedAt lower lab iface.1 iface.2 = some key.2 ∧
        some (iface.1, iface.2, key.1) ∈ lab.links.map Link.attachment? := by
  unfold Lab.PlansMac
  rw [List.mem_map]

/-- The planned addresses of a node, by list position. -/
def Lab.plannedMacs (lab : Lab) (nodeId : Int) : Option (List (Option String)) :=
  (lab.nodes.get? nodeId).map (fun node => node.interfaces.map Iface.plannedMac)

theorem interfaceAt_plannedMac (lab : Lab) (nodeId interfaceIndex : Int) :
    (lab.interfaceAt nodeId interfaceIndex).bind Iface.plannedMac =
      if interfaceIndex < 0 then none
      else (lab.plannedMacs nodeId).bind (fun macs => (macs[interfaceIndex.toNat]?).bind id) := by
  unfold Lab.interfaceAt Lab.plannedMacs
  by_cases hneg : interfaceIndex < 0
  · rw [if_pos hneg, if_pos hneg]
    rfl
  · rw [if_neg hneg, if_neg hneg]
    cases lab.nodes.get? nodeId with
    | none => rfl
    | some node =>
      simp only [Option.bind_some, Option.map_some, List.getElem?_map]
      cases node.interfaces[interfaceIndex.toNat]? <;> rfl

theorem plannedAt_congr {lower : String → String} {lab lab' : Lab} {nodeId : Int}
    (h : lab'.plannedMacs nodeId = lab.plannedMacs nodeId) (interfaceIndex : Int) :
    plannedAt lower lab' nodeId interfaceIndex = plannedAt lower lab nodeId interfaceIndex := by
  unfold plannedAt
  rw [interfaceAt_plannedMac, interfaceAt_plannedMac, h]

theorem plannedMacs_of_nodes {lab lab' : Lab} (h : lab'.nodes = lab.nodes) (nodeId : Int) :
    lab'.plannedMacs nodeId = lab.plannedMacs nodeId := by
  unfold Lab.plannedMacs
  rw [h]

theorem stampLink_plannedMacs (stamp : Stamp) (data : Lab) (nodeId : Int) :
    (stampLinkAttachGeneration data stamp).plannedMacs nodeId = data.plannedMacs nodeId := by
  unfold stampLinkAttachGeneration
  dsimp only
  split
  next => rfl
  next node hget =>
    unfold Lab.plannedMacs
    dsimp only
    rw [Dict.get?_set]
    split
    next hn =>
      subst hn
      rw [hget, Option.map_some, Option.map_some]
      congr 1
      exact map_modifyFirst _ (stampIface stamp.attachGeneration) Iface.plannedMac (fun _ => rfl) _
    next => rfl

theorem stamps_plannedMacs (stamps : List Stamp) (data : Lab) (nodeId : Int) :
    (stamps.foldl stampLinkAttachGeneration data).plannedMacs nodeId = data.plannedMacs nodeId :=
  foldl_keeps (fun lab : Lab => lab.plannedMacs nodeId)
    (fun lab stamp => stampLink_plannedMacs stamp lab nodeId) stamps data

theorem stampLink_attachments (data : Lab) (stamp : Stamp) :
    (stampLinkAttachGeneration data stamp).links.map Link.attachment? =
      data.links.map Link.attachment? := by
  unfold stampLinkAttachGeneration
  dsimp only
  split <;> exact map_modifyFirst _ (stampLink stamp.attachGeneration) _ (fun _ => rfl) _

theorem stamps_attachments (stamps : List Stamp) (data : Lab) :
    (stamps.foldl stampLinkAttachGeneration data).links.map Link.attachment? =
      data.links.map Link.attachment? :=
  foldl_keeps (fun lab : Lab => lab.links.map Link.attachment?) stampLink_attachments stamps data

theorem createMixedLink_ok {data : Lab} {a b : Endpoint} {style : Option String} {k : Int}
    {created : CreatedLink} (h : createMixedLink data a b style k = .ok created) :
    (data.networks.get? k).isSome ∧ created.data.nodes = data.nodes ∧ ∃ id,
      created.concrete = [{ id := id, from_ := a, to_ := b, styleOverride := style }] := by
  unfold createMixedLink at h
  split at h
  next => cases h
  next record hget =>
    cases h
    refine ⟨?_, promoteAtThree_nodes _ _, nextLinkId data.linkIds, rfl⟩
    rw [hget]
    rfl

/-- An accepted `create_link` leaves the nodes as they are and adds its attachments. -/
theorem createLinkData_attachments {data : Lab} {a b : Endpoint} {style : Option String}
    {created : CreatedLink} (h : createLinkData data a b style = .ok created) :
    LinkAccepted data a b ∧ created.data.nodes = data.nodes ∧
      ∀ attached, some attached ∈ created.concrete.map Link.attachment? →
        attached ∈ newAttachments data a b := by
  unfold createLinkData at h
  obtain ⟨_, hmutex, h⟩ := bind_eq_ok.mp h
  obtain ⟨_, hconflicts, h⟩ := bind_eq_ok.mp h
  have hmixed : ∀ k, firstNetwork a b = some k → createMixedLink data a b style k = .ok created →
      LinkAccepted data a b := by
    intro k hk hm
    refine ⟨hmutex, hconflicts, ?_⟩
    intro j hj
    rw [hk] at hj
    cases hj
    exact (createMixedLink_ok hm).1
  cases a with
  | network k =>
    obtain ⟨_, hnodes, id, hconcrete⟩ := createMixedLink_ok h
    refine ⟨hmixed k rfl h, hnodes, ?_⟩
    intro attached hm
    rw [hconcrete] at hm
    cases b with
    | network j => exact absurd (List.mem_singleton.mp hm) (by intro he; cases he)
    | node m j =>
      cases List.mem_singleton.mp hm
      exact List.mem_singleton.mpr rfl
  | node n i =>
    cases b with
    | network k =>
      obtain ⟨_, hnodes, id, hconcrete⟩ := createMixedLink_ok h
      refine ⟨hmixed k rfl h, hnodes, ?_⟩
      intro attached hm
      rw [hconcrete] at hm
      cases List.mem_singleton.mp hm
      exact List.mem_singleton.mpr rfl
    | node m j =>
      cases h
      refine ⟨⟨hmutex, hconflicts, fun k hk => by cases hk⟩, rfl, ?_⟩
      intro attached hm
      rcases List.mem_cons.mp hm with hfirst | hsecond
      · cases hfirst
        exact List.mem_cons_self
      · cases List.mem_singleton.mp hsecond
        exact List.mem_cons_of_mem _ (List.mem_singleton.mpr rfl)

/-- What an interface plans after a `create_link` it planned before, on a network it was linked to
before or is linked to by the new link. -/
theorem createLink_plansMac {lower : String → String} {data lab : Lab} {a b : Endpoint}
    {style : Option String} {hotAttach : Option (List Stamp)}
    (h : createLink data a b style hotAttach = .ok lab) :
    LinkAccepted data a b ∧ ∀ key iface, lab.PlansMac lower key iface →
      data.PlansMac lower key iface ∨
        plannedAt lower data iface.1 iface.2 = some key.2 ∧
          (iface.1, iface.2, key.1) ∈ newAttachments data a b := by
  unfold createLink at h
  split at h
  next => cases h
  next created hcreated =>
    split at h
    next => cases h
    next stamps =>
      cases h
      obtain ⟨haccepted, hnodes, hnew⟩ := createLinkData_attachments hcreated
      refine ⟨haccepted, ?_⟩
      intro key iface hplans
      obtain ⟨hmac, hattached⟩ := plansMac_iff.mp hplans
      rw [plannedAt_congr (stamps_plannedMacs stamps created.data _),
        plannedAt_congr (plannedMacs_of_nodes hnodes _)] at hmac
      rw [stamps_attachments, (createLinkData_links hcreated).1, List.map_append] at hattached
      rcases List.mem_append.mp hattached with hold | hadded
      · exact Or.inl (plansMac_iff.mpr ⟨hmac, hold⟩)
      · exact Or.inr ⟨hmac, hnew _ hadded⟩

theorem releaseHere_nodes (data : Lab) (release : Option (IpamTarget × String)) :
    (releaseHere data release).nodes = data.nodes := by
  unfold releaseHere
  split
  next =>
    unfold releaseIpFromOwner
    split
    next => rfl
    next => split <;> rfl
  next => rfl

/-- A deletion plans nothing new. -/
theorem deleteLink_plansMac {lower : String → String} {owner : String → Option IpamTarget}
    {data lab : Lab} {linkId : String} {detached : Bool}
    (h : deleteLink owner data linkId detached = .ok lab) {key : MacKey} {iface : Int × Int}
    (hplans : lab.PlansMac lower key iface) : data.PlansMac lower key iface := by
  unfold deleteLink at h
  split at h
  next =>
    cases h
    exact hplans
  next target _ =>
    split at h
    next =>
      split at h
      next => cases h
      next release _ =>
        cases h
        obtain ⟨hmac, l, hl, hattached⟩ := hplans
        have hnodes : (removeLink (releaseHere data release) target linkId).nodes = data.nodes :=
          releaseHere_nodes data release
        rw [plannedAt_congr (plannedMacs_of_nodes hnodes _)] at hmac
        have hsub := (cascade_sublist (releaseHere data release).networks target.networks
          ((releaseHere data release).links.eraseP (fun l => decide (l.id = linkId)))).trans
            List.eraseP_sublist
        rw [releaseHere_links] at hsub
        have hold : l ∈ data.links := by
          apply hsub.subset
          simpa [removeLink, releaseHere_links] using hl
        exact ⟨hmac, l, hold, hattached⟩
    next => cases h

/-- Changing one interface changes what is planned there only. -/
theorem setInterface_plannedMac {lab : Lab} {nodeId : Int} {node : Node}
    (hget : lab.nodes.get? nodeId = some node) {position : Nat}
    (hposition : position < node.interfaces.length) {f : Iface → Iface} {planned : Option String}
    (hf : ∀ iface, (f iface).plannedMac = planned) (n i : Int) :
    ((lab.setInterface nodeId node position f).interfaceAt n i).bind Iface.plannedMac =
      if n = nodeId ∧ i = (position : Int) then planned
      else (lab.interfaceAt n i).bind Iface.plannedMac := by
  unfold Lab.setInterface Lab.interfaceAt
  dsimp only
  by_cases hneg : i < 0
  · rw [if_pos hneg, if_pos hneg, if_neg (by omega)]
  · rw [if_neg hneg, if_neg hneg, Dict.get?_set]
    by_cases hn : nodeId = n
    · subst hn
      rw [if_pos rfl, hget, Option.bind_some, Option.bind_some]
      by_cases hi : i = (position : Int)
      · subst hi
        rw [if_pos ⟨rfl, rfl⟩, Int.toNat_natCast, List.getElem?_modify,
          List.getElem?_eq_getElem hposition]
        simp [hf]
      · have hne : position ≠ i.toNat := by omega
        rw [if_neg (fun he => hi he.2), List.getElem?_modify]
        simp [hne]
    · rw [if_neg hn, if_neg (by intro he; exact hn he.1.symm)]

end NovaVe
