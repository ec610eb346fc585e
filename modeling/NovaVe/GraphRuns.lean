import NovaVe.LinkSteps
import NovaVe.LabGraph
import NovaVe.Runs

namespace NovaVe

theorem foldl_patchEntry_map {α β γ : Type} (apply : α → β → α) (g : α → γ)
    (h : ∀ record patch, g (apply record patch) = g record) (patches : List (Int × β))
    (records : Dict Int α) (k : Int) :
    ((patches.foldl (patchEntry apply) records).get? k).map g = (records.get? k).map g := by
  induction patches generalizing records with
  | nil => rfl
  | cons patch rest ih =>
    rw [List.foldl_cons, ih, patchEntry_get?]
    split
    next => simp [Option.map_map, Function.comp_def, h]
    next => rfl

/-- What a record satisfies and every patch for its key keeps, the patched record satisfies. -/
theorem foldl_patchEntry_keeps {α β : Type} {apply : α → β → α} (good : α → Prop)
    {patches : List (Int × β)} {records : Dict Int α} {k : Int} {record : α}
    (hget : records.get? k = some record) (hgood : good record)
    (h : ∀ patch ∈ patches, patch.1 = k → ∀ r, good r → good (apply r patch.2)) :
    ∃ r, (patches.foldl (patchEntry apply) records).get? k = some r ∧ good r := by
  induction patches generalizing records record with
  | nil => exact ⟨record, hget, hgood⟩
  | cons patch rest ih =>
    have hrest := fun p hp => h p (List.mem_cons_of_mem patch hp)
    have hget' := patchEntry_get? apply records patch k
    rw [hget] at hget'
    split at hget'
    next hk => exact ih hget' (h patch List.mem_cons_self hk record hgood) hrest
    next => exact ih hget' hgood hrest

/-- The nodes after the patches of a `PUT /topology`. -/
def patchedNodes (data : Lab) (payload : TopologyPayload) : Dict Int Node :=
  payload.nodes.foldl (patchEntry applyNodePatch) data.nodes

/-- The links a `PUT /topology` makes in a lab without links wire existing interfaces and
networks, with distinct interfaces and distinct ids. -/
structure MadeLinksOk (data : Lab) (nodes : Dict Int Node) (made : List Link) : Prop where
  nodes : ∀ l ∈ made, ∀ n i, Endpoint.node n i ∈ l.endpoints →
    ∃ node, nodes.get? n = some node ∧ i < node.interfaces.length
  networks : ∀ l ∈ made, ∀ k ∈ l.networks, (data.networks.get? k).isSome
  ifaces : (made.flatMap Link.ifaces).Nodup
  ids : (made.map Link.id).Nodup

/-- The body of a `PUT /topology` replaces no interface list by one too short for the links, and
in a lab without links its `topology` makes only sound links. -/
def TopologyOk (data : Lab) (payload : TopologyPayload) : Prop :=
  (∀ patch ∈ payload.nodes, ∀ interfaces, patch.2.interfaces = some interfaces →
    ∀ l ∈ data.links, ∀ i, Endpoint.node patch.1 i ∈ l.endpoints → i < interfaces.length) ∧
  (data.links = [] → ∀ made,
    legacyTopologyToLinks 0 (payload.topology.getD (deriveLegacyTopology data)) = .ok made →
      MadeLinksOk data (patchedNodes data payload) made)

theorem updateTopology_inv {data data' : Lab} {payload : TopologyPayload} (h : GraphInv data)
    (hok : TopologyOk data payload) (hd : updateTopology data payload = .ok data') :
    GraphInv data' := by
  let networks := payload.networks.foldl (patchEntry applyNetworkLayout) data.networks
  have himp : ∀ k, (networks.get? k).map Network.implicit =
      (data.networks.get? k).map Network.implicit :=
    foldl_patchEntry_map applyNetworkLayout Network.implicit (fun _ _ => rfl) payload.networks
      data.networks
  have hsome : ∀ k, (networks.get? k).isSome = (data.networks.get? k).isSome := by
    intro k
    have := congrArg Option.isSome (himp k)
    simpa using this
  have hback : ∀ k network, networks.get? k = some network → network.implicit = true →
      data.IsImplicit k := by
    intro k network hget hr
    have hk := himp k
    rw [hget, Option.map_some, hr] at hk
    obtain ⟨record, hrec, hi⟩ := Option.map_eq_some_iff.mp hk.symm
    exact ⟨record, hrec, hi⟩
  have hzero : networks.get? 0 = none := by
    have := hsome 0
    rw [h.positive] at this
    simpa using this
  unfold updateTopology writeLabJson at hd
  split at hd
  next entries hentries hnil =>
    cases hentries
    obtain ⟨made, hmade, hd⟩ := bind_eq_ok.mp hd
    cases hd
    have hm := hok.2 hnil made hmade
    have hno : ∀ k, ¬data.IsImplicit k := by
      intro k hk
      have := h.implicit k hk
      rw [show data.links = [] from hnil] at this
      cases this
    refine { endpoints := ?_, ifaces := hm.ifaces, ids := hm.ids, implicit := ?_,
             positive := hzero, mixed := ?_ }
    · intro l hl e he
      cases e with
      | node n i => exact hm.nodes l hl n i he
      | network k =>
        have hk := hm.networks l hl k (Link.mem_networks_iff.mpr he)
        rw [← hsome] at hk
        exact hk
    · rintro k ⟨network, hget, hr⟩
      exact absurd (hback k network hget hr) (hno k)
    · rintro l _ k _ ⟨network, hget, hr⟩
      exact absurd (hback k network hget hr) (hno k)
  next =>
    cases hd
    refine h.frame rfl ?_ (fun k hk => ?_) hzero
    · intro l hl e he hex
      cases e with
      | network k =>
        have hk : (data.networks.get? k).isSome := hex
        rw [← hsome] at hk
        exact hk
      | node n i =>
        obtain ⟨node, hget, hlt⟩ := hex
        refine foldl_patchEntry_keeps (fun node => i < node.interfaces.length) hget hlt ?_
        rintro patch hp rfl record hrec
        cases hpi : patch.2.interfaces with
        | none => simpa [applyNodePatch, hpi] using hrec
        | some interfaces =>
          have := hok.1 patch hp interfaces hpi l hl i he
          simpa [applyNodePatch, hpi] using this
    · obtain ⟨network, hget, hr⟩ := hk
      exact hback k network hget hr

/-- One call on a lab, with what it meets outside `lab.json`. -/
inductive LabAction
  | createLink (a b : Endpoint) (style : Option String) (hotAttach : Option (List Stamp))
  | deleteLink (owner : String → Option IpamTarget) (linkId : String) (detached : Bool)
  | createNetwork (host : NetworkHost) (request : NetworkCreate)
  | deleteNetwork (host : NetworkHost) (networkId : Int)
  | patchNetwork (host : NetworkHost) (networkId : Int) (patch : NetworkUpdate)
  | createNode (host : NodeHost) (request : NodeCreate)
  | updateNode (host : NodeHost) (nodeId : Int) (request : NodeUpdate)
  | deleteNode (nodeId : Int) (wiped : Bool)
  | updateTopology (payload : TopologyPayload)

def labStep (data : Lab) : LabAction → Lab
  | .createLink a b style hotAttach => afterwards data (createLink data a b style hotAttach)
  | .deleteLink owner linkId detached => afterwards data (deleteLink owner data linkId detached)
  | .createNetwork host request => afterwards data (createNetwork host data request)
  | .deleteNetwork host networkId => afterwards data (deleteNetwork host data networkId)
  | .patchNetwork host networkId patch => afterwards data (patchNetwork host data networkId patch)
  | .createNode host request => afterwards data (createNode host data request)
  | .updateNode host nodeId request => afterwards data (updateNode host data nodeId request)
  | .deleteNode nodeId wiped => afterwards data (deleteNode data nodeId wiped)
  | .updateTopology payload => afterwards data (updateTopology data payload)

/-- The calls that the code accepts and that keep the graph well formed. -/
def LabActionOk (data : Lab) : LabAction → Prop
  | .createLink a b _ hotAttach =>
    hotAttach.isSome → LinkAccepted data a b → EndpointsOk data a b
  | .updateNode host nodeId request => UpdateKeepsWired host data nodeId request
  | .deleteNode nodeId wiped => wiped → NoImplicitLink data nodeId
  | .updateTopology payload => TopologyOk data payload
  | .deleteLink _ _ _ | .createNetwork _ _ | .deleteNetwork _ _ | .patchNetwork _ _ _
  | .createNode _ _ => True

theorem labStep_inv {data : Lab} {action : LabAction} (h : GraphInv data)
    (hok : LabActionOk data action) : GraphInv (labStep data action) := by
  cases action with
  | createLink a b style hotAttach => exact afterwards_inv h (fun _ hd => createLink_inv h hok hd)
  | deleteLink owner linkId detached => exact afterwards_inv h (fun _ hd => deleteLink_inv h hd)
  | createNetwork host request => exact afterwards_inv h (fun _ hd => createNetwork_inv h hd)
  | deleteNetwork host networkId => exact afterwards_inv h (fun _ hd => deleteNetwork_inv h hd)
  | patchNetwork host networkId patch => exact afterwards_inv h (fun _ hd => patchNetwork_inv h hd)
  | createNode host request => exact afterwards_inv h (fun _ hd => createNode_inv h hd)
  | updateNode host nodeId request => exact afterwards_inv h (fun _ hd => updateNode_inv h hok hd)
  | deleteNode nodeId wiped => exact afterwards_inv h (fun _ hd => deleteNode_inv h hok hd)
  | updateTopology payload => exact afterwards_inv h (fun _ hd => updateTopology_inv h hok hd)

/-- Every lab reached from an empty one by calls that meet the condition is well formed. -/
theorem lab_graph_ok_of_run {labId : String} {labMeta : Dict String String}
    {actions : List LabAction} {lab : Lab}
    (run : Run (Guarded (stepOf labStep) LabActionOk) (emptyLabJson labId labMeta) actions lab) :
    GraphOk lab := by
  have hinv : GraphInv lab :=
    run.guarded_invariant (fun _ _ h hok => labStep_inv h hok) (graphInv_empty labId labMeta)
  exact hinv.toGraphOk

/-- A host on which every template is there, with one interface, and no node runs. -/
def plainNodeHost : NodeHost where
  template _ _ _ := .ok { ethernet := 1, cpu := 1, ram := 1024, consoleType := "telnet",
                          icon := "Router.png" }
  running _ := false
  newUuid := "uuid"

def plainNode (name : String) : NodeCreate :=
  { name := name, template := "vyos", image := "vyos-1" }

/-- Two nodes and the link between them. -/
def linkedPair : List LabAction :=
  [.createNode plainNodeHost (plainNode "a"), .createNode plainNodeHost (plainNode "b"),
   .createLink (.node 1 0) (.node 2 0) none (some [])]

theorem lab_graph_ok_of_linkedPair :
    ∃ lab, lab = linkedPair.foldl labStep (emptyLabJson "lab" Dict.empty) ∧
      lab.links.length = 2 ∧ GraphOk lab := by
  refine ⟨_, rfl, by decide, ?_⟩
  have hends : EndpointsOk
      ((linkedPair.take 2).foldl labStep (emptyLabJson "lab" Dict.empty)) (.node 1 0) (.node 2 0) := by
    refine ⟨?_, (fun j k h => by cases h)⟩
    intro n i hm
    rcases List.mem_pair.mp hm with h | h <;> cases h <;> exact ⟨_, rfl, by decide⟩
  refine @lab_graph_ok_of_run "lab" Dict.empty linkedPair _ ?_
  exact Run.next (Run.next (Run.next Run.start ⟨trivial, rfl⟩) ⟨trivial, rfl⟩)
    ⟨fun _ _ => hends, rfl⟩

/-- A link to nodes that do not exist is created, and deleting a node leaves the implicit network
of its link with one reference. -/
theorem lab_graph_broken_by_missing_node_and_by_delete_node :
    (∃ lab, Run (stepOf labStep) (emptyLabJson "lab" Dict.empty)
        [.createLink (.node 98 0) (.node 99 0) none (some [])] lab ∧ ¬GraphOk lab) ∧
    (∃ lab, Run (stepOf labStep) (emptyLabJson "lab" Dict.empty)
        (linkedPair ++ [.deleteNode 1 true]) lab ∧ ¬GraphOk lab) := by
  refine ⟨⟨_, run_stepOf_iff.mpr rfl, ?_⟩, ⟨_, run_stepOf_iff.mpr rfl, ?_⟩⟩
  · intro h
    obtain ⟨node, hget, _⟩ := h.endpoints _ List.mem_cons_self _ List.mem_cons_self
    cases hget
  · intro h
    have himp := h.implicit 1 ⟨_, rfl, rfl⟩
    revert himp
    decide

end NovaVe
