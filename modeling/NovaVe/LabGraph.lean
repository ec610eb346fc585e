import NovaVe.LinkService
import NovaVe.NetworkService
import NovaVe.Runs
import NovaVe.Topology

namespace NovaVe

/-- An endpoint names an existing node with enough interfaces, or an existing network. -/
def Endpoint.Exists (lab : Lab) : Endpoint → Prop
  | .node nodeId interfaceIndex =>
    ∃ node, lab.nodes.get? nodeId = some node ∧ interfaceIndex < node.interfaces.length
  | .network networkId => (lab.networks.get? networkId).isSome

def Lab.IsImplicit (lab : Lab) (networkId : Int) : Prop :=
  ∃ network, lab.networks.get? networkId = some network ∧ network.implicit = true

theorem Endpoint.Exists.mono {lab lab' : Lab} {e : Endpoint} (h : e.Exists lab)
    (hn : ∀ n node, lab.nodes.get? n = some node →
      ∃ node', lab'.nodes.get? n = some node' ∧ node.interfaces.length ≤ node'.interfaces.length)
    (hk : ∀ k, (lab.networks.get? k).isSome → (lab'.networks.get? k).isSome) : e.Exists lab' := by
  cases e with
  | node n i =>
    obtain ⟨node, hget, hlt⟩ := h
    obtain ⟨node', hget', hle⟩ := hn n node hget
    exact ⟨node', hget', by omega⟩
  | network k => exact hk k h

/-- The graph of a lab is well formed. -/
structure GraphOk (lab : Lab) : Prop where
  endpoints : ∀ l ∈ lab.links, ∀ e ∈ l.endpoints, e.Exists lab
  ifaces : (lab.links.flatMap Link.ifaces).Nodup
  ids : lab.linkIds.Nodup
  implicit : ∀ networkId, lab.IsImplicit networkId → references lab.links networkId = 2

/-- What the operations rely on besides: no network 0, and implicit networks only in links that
reference nothing else. -/
structure GraphInv (lab : Lab) : Prop extends GraphOk lab where
  positive : lab.networks.get? 0 = none
  mixed : ∀ l ∈ lab.links, ∀ k ∈ l.networks, lab.IsImplicit k → l.networks = [k]

theorem graphInv_empty (labId : String) (labMeta : Dict String String) :
    GraphInv (emptyLabJson labId labMeta) where
  endpoints l h := absurd h List.not_mem_nil
  ifaces := List.nodup_nil
  ids := List.nodup_nil
  implicit k h := by
    obtain ⟨network, hget, _⟩ := h
    cases hget
  positive := rfl
  mixed l h := absurd h List.not_mem_nil

/-- The ids and endpoints of the links, without their labels and runtime fields. -/
def Lab.wires (lab : Lab) : List (String × List Endpoint) :=
  lab.links.map (fun l => (l.id, l.endpoints))

theorem Lab.exists_of_wires {lab lab' : Lab} (h : lab'.wires = lab.wires) {l : Link}
    (hl : l ∈ lab'.links) : ∃ o ∈ lab.links, o.id = l.id ∧ o.endpoints = l.endpoints := by
  have hm : (l.id, l.endpoints) ∈ lab.wires := h ▸ List.mem_map.mpr ⟨l, hl, rfl⟩
  obtain ⟨o, ho, heq⟩ := List.mem_map.mp hm
  exact ⟨o, ho, congrArg Prod.fst heq, congrArg Prod.snd heq⟩

theorem Lab.linkIds_eq (lab : Lab) : lab.linkIds = lab.wires.map Prod.fst := by
  simp [Lab.linkIds, Lab.wires]

theorem Lab.ifaces_eq (lab : Lab) :
    lab.links.flatMap Link.ifaces =
      lab.wires.flatMap (fun w => w.2.filterMap Endpoint.iface?) := by
  simp only [Lab.wires, List.flatMap_map]
  rfl

theorem Lab.references_eq (lab : Lab) (networkId : Int) :
    references lab.links networkId =
      (lab.wires.flatMap (fun w => w.2.filterMap Endpoint.network?)).count networkId := by
  simp only [Lab.wires, List.flatMap_map]
  rfl

/-- A step that keeps the wires keeps the invariant, if the wired endpoints still exist and no
network becomes implicit. -/
theorem GraphInv.frame {lab lab' : Lab} (h : GraphInv lab) (hw : lab'.wires = lab.wires)
    (he : ∀ l ∈ lab.links, ∀ e ∈ l.endpoints, e.Exists lab → e.Exists lab')
    (hi : ∀ k, lab'.IsImplicit k → lab.IsImplicit k)
    (hz : lab'.networks.get? 0 = none) : GraphInv lab' where
  endpoints l hl e hle := by
    obtain ⟨o, ho, _, hends⟩ := Lab.exists_of_wires hw hl
    rw [← hends] at hle
    exact he o ho e hle (h.endpoints o ho e hle)
  ifaces := by
    rw [Lab.ifaces_eq, hw, ← Lab.ifaces_eq]
    exact h.ifaces
  ids := by
    rw [Lab.linkIds_eq, hw, ← Lab.linkIds_eq]
    exact h.ids
  implicit k hk := by
    rw [Lab.references_eq, hw, ← Lab.references_eq]
    exact h.implicit k (hi k hk)
  positive := hz
  mixed l hl k hk himp := by
    obtain ⟨o, ho, _, hends⟩ := Lab.exists_of_wires hw hl
    have hn : o.networks = l.networks := congrArg (List.filterMap Endpoint.network?) hends
    rw [← hn] at hk ⊢
    exact h.mixed o ho k hk (hi k himp)

/-- A network that does not exist is referenced by no link. -/
theorem GraphOk.references_missing {lab : Lab} (h : GraphOk lab) {networkId : Int}
    (hk : lab.networks.get? networkId = none) : references lab.links networkId = 0 := by
  by_contra hne
  obtain ⟨l, hl, hm⟩ := references_pos_iff.mp (Nat.pos_of_ne_zero hne)
  have he := h.endpoints l hl _ (Link.mem_networks_iff.mp hm)
  simp only [Endpoint.Exists, hk] at he
  cases he

theorem GraphInv.networkId_ne_zero {lab : Lab} (h : GraphInv lab) {networkId : Int}
    {network : Network} (hk : lab.networks.get? networkId = some network) : networkId ≠ 0 := by
  rintro rfl
  rw [h.positive] at hk
  cases hk

/-- Links are appended: the new ones are fresh, and no implicit network gets a third reference. -/
theorem GraphInv.append {lab lab' : Lab} (h : GraphInv lab) (new : List Link)
    (hl : lab'.links = lab.links ++ new)
    (he : ∀ e : Endpoint, e.Exists lab → e.Exists lab')
    (hne : ∀ l ∈ new, ∀ e ∈ l.endpoints, e.Exists lab')
    (hif : (new.flatMap Link.ifaces).Nodup)
    (hdisj : ∀ key ∈ new.flatMap Link.ifaces, key ∉ lab.links.flatMap Link.ifaces)
    (hids : (lab.linkIds ++ new.map Link.id).Nodup)
    (hi : ∀ k, lab'.IsImplicit k →
      references lab.links k + references new k = 2 ∧
        ∀ l ∈ lab.links ++ new, k ∈ l.networks → l.networks = [k])
    (hz : lab'.networks.get? 0 = none) : GraphInv lab' where
  endpoints l hm e hle := by
    rw [hl] at hm
    rcases List.mem_append.mp hm with hm | hm
    · exact he e (h.endpoints l hm e hle)
    · exact hne l hm e hle
  ifaces := by
    rw [hl, List.flatMap_append]
    refine List.nodup_append.mpr ⟨h.ifaces, hif, ?_⟩
    intro x hx y hy hxy
    exact hdisj y hy (hxy ▸ hx)
  ids := by
    simp only [Lab.linkIds, hl, List.map_append] at hids ⊢
    exact hids
  implicit k hk := by
    rw [hl, references_append]
    exact (hi k hk).1
  positive := hz
  mixed l hm k hk himp := by
    rw [hl] at hm
    exact (hi k himp).2 l hm hk

/-- Links are dropped, each implicit network keeping its two references. -/
theorem GraphInv.shrink {lab lab' : Lab} (h : GraphInv lab)
    (hl : List.Sublist lab'.links lab.links)
    (he : ∀ l ∈ lab'.links, ∀ e ∈ l.endpoints, e.Exists lab → e.Exists lab')
    (hi : ∀ k, lab'.IsImplicit k →
      lab.IsImplicit k ∧ references lab'.links k = references lab.links k)
    (hz : lab'.networks.get? 0 = none) : GraphInv lab' where
  endpoints l hm e hle := he l hm e hle (h.endpoints l (hl.subset hm) e hle)
  ifaces := h.ifaces.sublist (hl.flatMap Link.ifaces)
  ids := h.ids.sublist (hl.map Link.id)
  implicit k hk := by
    obtain ⟨himp, href⟩ := hi k hk
    rw [href]
    exact h.implicit k himp
  positive := hz
  mixed l hm k hk himp := h.mixed l (hl.subset hm) k hk (hi k himp).1

theorem exists_set_network {data : Lab} {links : List Link} (k : Int) (network : Network)
    {e : Endpoint} (h : e.Exists data) :
    e.Exists { data with networks := data.networks.set k network, links := links } := by
  refine h.mono (fun n node hget => ⟨node, hget, le_rfl⟩) ?_
  intro j hj
  simp only [Dict.get?_set]
  split
  next => rfl
  next => exact hj

/-- A network record is replaced by one that is not implicit unless the old one was. -/
theorem GraphInv.setNetwork {data : Lab} (h : GraphInv data) {k : Int} {network network' : Network}
    (hget : data.networks.get? k = some network)
    (himp : network'.implicit = true → network.implicit = true) :
    GraphInv { data with networks := data.networks.set k network' } := by
  refine h.frame rfl (fun _ _ e _ he => exists_set_network k network' he) ?_ ?_
  · rintro j ⟨record, hrec, hr⟩
    rw [Dict.get?_set] at hrec
    split at hrec
    next hj =>
      cases hrec
      exact ⟨network, hj ▸ hget, himp hr⟩
    next => exact ⟨record, hrec, hr⟩
  · rw [Dict.get?_set_ne _ _ (h.networkId_ne_zero hget)]
    exact h.positive

theorem createNetwork_ok {host : NetworkHost} {data data' : Lab} {request : NetworkCreate}
    (h : createNetwork host data request = .ok data') :
    ∃ network, network.implicit = false ∧
      data' = { data with networks := data.networks.set data.networks.nextKey network } := by
  obtain ⟨network, runtime, hprepare, -, rfl⟩ := createNetwork_prepared h
  obtain ⟨-, config, bridge, -, -, rfl⟩ := prepareNetwork_ok hprepare
  exact ⟨_, rfl, rfl⟩

theorem createNetwork_inv {host : NetworkHost} {data data' : Lab} {request : NetworkCreate}
    (h : GraphInv data) (hd : createNetwork host data request = .ok data') : GraphInv data' := by
  obtain ⟨network, himp, rfl⟩ := createNetwork_ok hd
  have hpos := data.networks.nextKey_pos
  refine h.frame rfl (fun _ _ e _ he => exists_set_network _ network he) ?_ ?_
  · rintro k ⟨record, hget, hr⟩
    rw [Dict.get?_set] at hget
    split at hget
    next =>
      cases hget
      rw [himp] at hr
      cases hr
    next => exact ⟨record, hget, hr⟩
  · rw [Dict.get?_set_ne _ _ (by omega)]
    exact h.positive

/-- `delete_network` only removes a network that nothing references. -/
theorem deleteNetwork_inv {host : NetworkHost} {data data' : Lab} {networkId : Int}
    (h : GraphInv data) (hd : deleteNetwork host data networkId = .ok data') : GraphInv data' := by
  unfold deleteNetwork at hd
  split at hd
  next => cases hd
  next network hget =>
    split at hd
    next => cases hd
    next =>
      split at hd
      next => cases hd
      next hcount =>
        split at hd
        next => cases hd
        next =>
          cases hd
          have hne := h.networkId_ne_zero hget
          rw [refcount_eq_references _ hne] at hcount
          refine h.shrink (List.Sublist.refl _) ?_ ?_ ?_
          · intro l hl e hle he
            cases e with
            | node n i => exact he
            | network j =>
              have hj : networkId ≠ j := by
                rintro rfl
                exact hcount (references_pos_iff.mpr ⟨l, hl, Link.mem_networks_iff.mpr hle⟩)
              simpa [Endpoint.Exists, Dict.get?_pop_ne _ hj] using he
          · rintro j ⟨record, hrec, hr⟩
            rw [Dict.get?_pop] at hrec
            split at hrec
            next => cases hrec
            next => exact ⟨⟨record, hrec, hr⟩, rfl⟩
          · rw [Dict.get?_pop, h.positive, ite_self]

theorem renameNetwork_implicit {host : NetworkHost} {networks : Dict Int Network} {k : Int}
    {network renamed : Network} {name : Option (Option String)}
    (h : renameNetwork host networks k network name = .ok renamed)
    (hr : renamed.implicit = true) : network.implicit = true := by
  unfold renameNetwork at h
  split at h
  next => cases h; exact hr
  next =>
    split at h
    next hn => exact hn
    next => cases h
  next =>
    dsimp only at h
    split at h
    next => cases h
    next =>
      split at h
      next => cases h; cases hr
      next => cases h; exact hr

theorem patchNetwork_inv {host : NetworkHost} {data data' : Lab} {networkId : Int}
    {patch : NetworkUpdate} (h : GraphInv data)
    (hd : patchNetwork host data networkId patch = .ok data') : GraphInv data' := by
  unfold patchNetwork at hd
  split at hd
  next => cases hd
  next network hget =>
    obtain ⟨renamed, hren, hd⟩ := bind_eq_ok.mp hd
    obtain ⟨_, _, hd⟩ := bind_eq_ok.mp hd
    cases hd
    exact h.setNetwork hget (fun hr => renameNetwork_implicit hren hr)

/-- Node records are replaced; the wired interfaces must still be there. -/
theorem GraphInv.setNodes {data : Lab} (h : GraphInv data) (nodes : Dict Int Node)
    (hn : ∀ l ∈ data.links, ∀ n i, Endpoint.node n i ∈ l.endpoints →
      ∀ node, data.nodes.get? n = some node → i < node.interfaces.length →
        ∃ node', nodes.get? n = some node' ∧ i < node'.interfaces.length) :
    GraphInv { data with nodes := nodes } := by
  refine h.frame rfl ?_ (fun k hk => hk) h.positive
  intro l hl e he hex
  cases e with
  | node n i =>
    obtain ⟨node, hget, hlt⟩ := hex
    exact hn l hl n i he node hget hlt
  | network k => exact hex

theorem createNode_inv {host : NodeHost} {data data' : Lab} {request : NodeCreate}
    (h : GraphInv data) (hd : createNode host data request = .ok data') : GraphInv data' := by
  unfold createNode at hd
  obtain ⟨template, _, hd⟩ := bind_eq_ok.mp hd
  cases hd
  refine h.setNodes _ ?_
  intro l _ n i _ node hget hlt
  have hne : data.nodes.nextKey ≠ n := by
    rintro rfl
    rw [data.nodes.get?_nextKey] at hget
    cases hget
  exact ⟨node, by rw [Dict.get?_set_ne _ _ hne]; exact hget, hlt⟩

/-- An update that goes through leaves the node enough interfaces for its links. -/
def UpdateKeepsWired (host : NodeHost) (data : Lab) (nodeId : Int) (request : NodeUpdate) : Prop :=
  ∀ node, data.nodes.get? nodeId = some node →
    validateNodeUpdateRequest host node request (host.running nodeId) = .ok () →
      Resizes node.interfaces.length (sentOr request.ethernet node.ethernet) → ∀ l ∈ data.links, ∀ i, Endpoint.node nodeId i ∈ l.endpoints →
        i < (sentOr request.ethernet node.ethernet).toNat

theorem updateNode_inv {host : NodeHost} {data data' : Lab} {nodeId : Int} {request : NodeUpdate}
    (h : GraphInv data) (hok : UpdateKeepsWired host data nodeId request)
    (hd : updateNode host data nodeId request = .ok data') : GraphInv data' := by
  unfold updateNode at hd
  split at hd
  next => cases hd
  next node₀ hget₀ =>
    split at hd
    next => cases hd
    next hv =>
      dsimp only at hd
      split at hd
      next => cases hd
      next interfaces hresized =>
        cases hd
        obtain ⟨hresizes, hlength⟩ := length_resizeInterfaces hresized
        refine h.setNodes _ ?_
        intro l hl n i hm node hget hlt
        by_cases hn : nodeId = n
        · subst hn
          refine ⟨_, Dict.get?_set_self _ _ _, ?_⟩
          rw [hlength]
          exact hok node₀ hget₀ hv hresizes l hl i hm
        · exact ⟨node, by rw [Dict.get?_set_ne _ _ hn]; exact hget, hlt⟩

theorem references_filter {links : List Link} {p : Link → Bool} {k : Int}
    (h : ∀ l ∈ links, p l = false → k ∉ l.networks) :
    references (links.filter p) k = references links k := by
  induction links with
  | nil => rfl
  | cons l rest ih =>
    have hrest := ih (fun x hx => h x (List.mem_cons_of_mem l hx))
    rw [references_cons]
    cases hp : p l with
    | true => rw [List.filter_cons_of_pos hp, references_cons, hrest]
    | false =>
      rw [List.filter_cons_of_neg (by simp [hp]), hrest,
        List.count_eq_zero_of_not_mem (h l List.mem_cons_self hp), Nat.zero_add]

/-- No link of the node is a half of an implicit bridge. -/
def NoImplicitLink (data : Lab) (nodeId : Int) : Prop :=
  ∀ l ∈ data.links, l.touchesNode nodeId → ∀ k ∈ l.networks, ¬data.IsImplicit k

theorem deleteNode_inv {data data' : Lab} {nodeId : Int} {wiped : Bool} (h : GraphInv data)
    (hok : wiped → NoImplicitLink data nodeId) (hd : deleteNode data nodeId wiped = .ok data') :
    GraphInv data' := by
  unfold deleteNode at hd
  split at hd
  next => cases hd
  next =>
    split at hd
    next hw =>
      cases hd
      refine h.shrink List.filter_sublist ?_ ?_ h.positive
      · intro l hl e hle he
        cases e with
        | network k => exact he
        | node n i =>
          have hn : nodeId ≠ n := by
            rintro rfl
            have ht : l.touchesNode nodeId :=
              List.any_eq_true.mpr ⟨_, Link.mem_ifaces_iff.mpr hle, decide_eq_true rfl⟩
            have hf := (List.mem_filter.mp hl).2
            rw [ht] at hf
            cases hf
          obtain ⟨node, hget, hlt⟩ := he
          exact ⟨node, by rw [Dict.get?_pop_ne _ hn]; exact hget, hlt⟩
      · intro k hk
        refine ⟨hk, references_filter ?_⟩
        intro l hl hp hm
        exact hok hw l hl (by simpa using hp) k hm hk
    next => cases hd

end NovaVe
