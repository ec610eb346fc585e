import NovaVe.HotAttachFrames
import NovaVe.ReconcileFrames
import NovaVe.SiteSafety

namespace NovaVe

/-- A link joins the interface to the network, which it names by its index or by its place in the
`interfaces[]` of its node. -/
def Lab.Joins (lab : Lab) (nodeId interfaceIndex networkId : Int) : Prop :=
  ∃ l ∈ lab.links, ∃ key place, l.attachment? = some (key, place, networkId) ∧
    ((key = nodeId ∧ place = interfaceIndex) ∨
      ∃ node, lab.nodes.get? key = some node ∧ node.id = nodeId ∧
        ∃ position : Nat, place = position ∧
          (node.interfaces.map Iface.index)[position]? = some interfaceIndex)

theorem derivedNetworkId_joined {links : List Link} {nodeKey : Int} {position : Nat}
    (h : derivedNetworkId links nodeKey position ≠ 0) :
    ∃ l ∈ links, l.attachment? =
      some (nodeKey, (position : Int), derivedNetworkId links nodeKey position) := by
  unfold derivedNetworkId at h ⊢
  revert h
  refine List.foldlRecOn (motive := fun last : Int => last ≠ 0 → ∃ l ∈ links,
    l.attachment? = some (nodeKey, (position : Int), last)) links _ (fun h => absurd rfl h) ?_
  intro last hlast l hl
  split
  next n i networkId hwired =>
    split
    next hat =>
      obtain ⟨rfl, rfl, _⟩ := hat
      exact fun _ => ⟨l, hl, hwired⟩
    next => exact hlast
  next => exact hlast

theorem linkMap_joined {links : List Link} {nodeId i networkId : Int}
    (h : (linkMap links nodeId).get? i = some networkId) :
    ∃ l ∈ links, l.attachment? = some (nodeId, i, networkId) := by
  unfold linkMap at h
  revert h
  refine List.foldlRecOn (motive := fun d : Dict Int Int => d.get? i = some networkId →
    ∃ l ∈ links, l.attachment? = some (nodeId, i, networkId)) links _ (fun h => by cases h) ?_
  intro d hd l hl
  split
  next n j k hwired =>
    split
    next hat =>
      obtain ⟨rfl, _⟩ := hat
      intro hget
      rw [Dict.get?_set] at hget
      split at hget
      next hj =>
        subst hj
        obtain rfl := Option.some.inj hget
        exact ⟨l, hl, hwired⟩
      next => exact hd hget
    next => exact hd
  next => exact hd

/-- Every attachment of a list is on the bridge of a network that its interface is joined to. -/
def OnNetworks (bridgeName : String → Int → String) (lab : Lab) (nodeId : Int)
    (attachments : List BootAttachment) : Prop :=
  ∀ a ∈ attachments, ∃ networkId, lab.Joins nodeId a.interfaceIndex networkId ∧
    a.bridgeName = networkBridge bridgeName lab networkId

theorem addAttachment_onNetworks {bridgeName : String → Int → String} {lab : Lab} {nodeId : Int}
    {found : List BootAttachment} (h : OnNetworks bridgeName lab nodeId found) {i networkId : Int}
    (hjoins : networkId ≠ 0 → lab.Joins nodeId i networkId) :
    OnNetworks bridgeName lab nodeId
      (addAttachment found i (bootAttachment? bridgeName lab i networkId)) := by
  unfold addAttachment
  split
  next => exact h
  next =>
    split
    next => exact h
    next new hnew =>
      intro a ha
      rcases List.mem_append.mp ha with hold | hone
      · exact h a hold
      · obtain rfl := List.mem_singleton.mp hone
        rw [bootAttachment?_eq] at hnew
        split at hnew
        next hboot =>
          obtain rfl := Option.some.inj hnew
          unfold Lab.bootable at hboot
          rw [Bool.and_eq_true, decide_eq_true_eq] at hboot
          exact ⟨networkId, hjoins hboot.1, rfl⟩
        next => cases hnew

theorem entryNetwork_joins {lab : Lab} {nodeKey : Int} {node : Node}
    (hnode : lab.nodes.get? nodeKey = some node) {entry : Iface × Nat}
    (hentry : entry ∈ node.interfaces.zipIdx) (h : entryNetwork lab nodeKey node entry ≠ 0) :
    lab.Joins node.id entry.1.index (entryNetwork lab nodeKey node entry) := by
  unfold entryNetwork at h ⊢
  dsimp only at h ⊢
  split
  next hderived =>
    obtain ⟨l, hl, hwired⟩ := derivedNetworkId_joined hderived
    have hat : (node.interfaces.map Iface.index)[entry.2]? = some entry.1.index := by
      rw [List.getElem?_map, List.mem_zipIdx_iff_getElem?.mp hentry]
      rfl
    exact ⟨l, hl, nodeKey, entry.2, hwired, Or.inr ⟨node, hnode, rfl, entry.2, rfl, hat⟩⟩
  next hderived =>
    rw [if_neg hderived] at h
    cases hmap : (linkMap lab.links node.id).get? entry.1.index with
    | none =>
      rw [hmap] at h
      exact absurd rfl h
    | some networkId =>
      obtain ⟨l, hl, hwired⟩ := linkMap_joined hmap
      exact ⟨l, hl, node.id, entry.1.index, hwired, Or.inl ⟨rfl, rfl⟩⟩

theorem interfaceAttachments_onNetworks (bridgeName : String → Int → String) {lab : Lab}
    {nodeKey : Int} {node : Node} (hnode : lab.nodes.get? nodeKey = some node) :
    OnNetworks bridgeName lab node.id (interfaceAttachments bridgeName lab nodeKey node) := by
  unfold interfaceAttachments
  refine List.foldlRecOn (motive := OnNetworks bridgeName lab node.id) node.interfaces.zipIdx _
    (fun a ha => by cases ha) (fun found hfound entry hentry => ?_)
  exact addAttachment_onNetworks hfound (entryNetwork_joins hnode hentry)

theorem qemuAttachments_onNetworks (bridgeName : String → Int → String) {lab : Lab} {nodeKey : Int}
    {node : Node} (hnode : lab.nodes.get? nodeKey = some node) :
    OnNetworks bridgeName lab node.id (qemuAttachments bridgeName lab nodeKey node) := by
  have hfold : OnNetworks bridgeName lab node.id ((linkMap lab.links node.id).entries.foldl
      (fun found entry => if node.ethernet ≤ entry.1 then found
        else addAttachment found entry.1 (bootAttachment? bridgeName lab entry.1 entry.2))
      (interfaceAttachments bridgeName lab nodeKey node)) := by
    refine List.foldlRecOn (motive := OnNetworks bridgeName lab node.id) _ _
      (interfaceAttachments_onNetworks bridgeName hnode) (fun found hfound entry hentry => ?_)
    have hget := assocGet_of_mem (linkMap lab.links node.id).keysNodup hentry
    obtain ⟨l, hl, hwired⟩ := linkMap_joined hget
    split
    next => exact hfound
    next =>
      exact addAttachment_onNetworks hfound
        (fun _ => ⟨l, hl, node.id, entry.1, hwired, Or.inl ⟨rfl, rfl⟩⟩)
  exact fun a ha => hfold a (List.mem_mergeSort.mp ha)

theorem bootAttachments_onNetworks (bridgeName : String → Int → String) {lab : Lab} {nodeKey : Int}
    {node : Node} (hnode : lab.nodes.get? nodeKey = some node) :
    OnNetworks bridgeName lab node.id (bootAttachments bridgeName lab nodeKey node) := by
  unfold bootAttachments
  split
  next =>
    exact fun a ha => interfaceAttachments_onNetworks bridgeName hnode a (List.mem_mergeSort.mp ha)
  next => exact qemuAttachments_onNetworks bridgeName hnode

theorem expectedAttachments_onNetworks {bridgeName : String → Int → String} {lab : Lab}
    {nodeId ethernet i : Int} {want : Expected}
    (h : (expectedAttachments bridgeName lab nodeId ethernet).get? i = some want) :
    ∃ networkId, lab.Joins nodeId i networkId ∧
      want.bridgeName = networkBridge bridgeName lab networkId := by
  have hall : ∀ j e, (expectedAttachments bridgeName lab nodeId ethernet).get? j = some e →
      ∃ k, lab.Joins nodeId j k ∧ e.bridgeName = networkBridge bridgeName lab k := by
    unfold expectedAttachments
    refine List.foldlRecOn (motive := fun d => ∀ j (e : Expected), Dict.get? d j = some e →
      ∃ k, lab.Joins nodeId j k ∧ e.bridgeName = networkBridge bridgeName lab k) lab.links _ ?_ ?_
    · intro j e hget
      cases hget
    · intro d hd l hl
      split
      next n i networkId hwired =>
        split
        next hat =>
          obtain ⟨rfl, _⟩ := hat
          intro j e hget
          rw [Dict.get?_set] at hget
          split at hget
          next hij =>
            subst hij
            obtain rfl := Option.some.inj hget
            exact ⟨networkId, ⟨l, hl, n, i, hwired, Or.inl ⟨rfl, rfl⟩⟩, rfl⟩
          next => exact hd j e hget
        next => exact hd
      next => exact hd
  exact hall i want h

/-- What the code of a sound lab may give holds of every interface on the bridge of a network that it
is joined to. -/
def GivesOnNetworks (bridgeName : String → Int → String) (lab : Lab) (ok : HostCall → Prop) :
    Prop :=
  ∀ networkId port, lab.Joins port.interface.1 port.interface.2 networkId →
    ok (.linkMaster port (networkBridge bridgeName lab networkId))

theorem frames_reconcileQemuNodeLinks {ok : HostCall → Prop} {rel : World → World → Prop}
    (h : Workings ok rel) (hall : Plain ok) {bridgeName : String → Int → String} {lab : Lab}
    (hon : GivesOnNetworks bridgeName lab ok) (source : NicSource) (nodeId : Int) :
    Frames rel (reconcileQemuNodeLinks source bridgeName lab nodeId) := by
  unfold reconcileQemuNodeLinks
  refine Frames.bind h.composes (frames_run h.toCommands (hall _ rfl)) (fun _ w => ?_)
  have hok : ReconcileOk ok bridgeName lab nodeId := by
    refine ⟨fun _ => hall _ rfl, fun _ => hall _ rfl, ?_⟩
    intro ethernet i want hwant
    obtain ⟨networkId, hjoins, hnet⟩ := expectedAttachments_onNetworks hwant
    refine ⟨hall _ rfl, hall _ rfl, ?_, hall _ rfl, hall _ rfl⟩
    rw [hnet]
    exact hon networkId _ hjoins
  exact (reconcileLocked_frames h source bridgeName lab nodeId w hok).mono
    (fun _ _ ht => ht.1) (fun _ _ ht => ht.1)

theorem frames_reconcileAfterLink {ok : HostCall → Prop} {rel : World → World → Prop}
    (h : Workings ok rel) (hall : Plain ok) {env : SiteEnv} {lab : Lab}
    (hon : GivesOnNetworks env.bridgeName lab ok) (source : NicSource) :
    Frames rel (reconcileAfterLink env source lab) :=
  Frames.swallow h.composes (Frames.forM h.composes
    (fun node _ => frames_reconcileQemuNodeLinks h hall hon source node.id))

theorem frames_reconcileQemuNicLinkState {ok : HostCall → Prop} {rel : World → World → Prop}
    (h : Workings ok rel) (hall : Plain ok) {env : SiteEnv} {lab : Lab}
    (hon : GivesOnNetworks env.bridgeName lab ok) (source : NicSource) :
    Frames rel (reconcileQemuNicLinkState env source lab) := by
  refine Frames.forM h.composes (fun node _ => ?_)
  split
  next => exact Frames.pure h.composes ()
  next =>
    refine Frames.bind h.composes (frames_runtimeRecord h _ _) (fun record => ?_)
    cases record with
    | none => exact Frames.pure h.composes ()
    | some runtime =>
      refine Frames.bind h.composes (Frames.swallow h.composes
        (frames_reconcileQemuNodeLinks h hall hon source node.id)) (fun _ => ?_)
      exact Frames.forM h.composes (fun i _ => frames_setQemuNicLink h hall node.id i _)

theorem frames_ignoreHostNet {ok : HostCall → Prop} {rel : World → World → Prop}
    (h : Commands ok rel) {m : HostM Unit} (hm : Frames rel m) : Frames rel (ignoreHostNet m) :=
  frames_absorb h hm Exc.isHostNet ()

theorem frames_provisionNetwork {ok : HostCall → Prop} {rel : World → World → Prop}
    (h : Commands ok rel) (hall : Plain ok) (fingerprints : Dict String Fingerprint)
    (labId : String) (network : Network)
    (hown : network.type ≠ .bridgeCloud → Reshapes ok (network.runtime.bridgeName.getD "")) :
    Frames rel (provisionNetwork fingerprints labId network) := by
  have hrun : ∀ c : HostCall, c.bridge? = none → Frames rel (run c) :=
    fun c hc => frames_run h (hall c hc)
  have hbridge : ∀ fingerprint bridge, Reshapes ok bridge →
      Frames rel (provisionBridge fingerprint labId network.id bridge) := by
    intro fingerprint bridge hshape
    unfold provisionBridge
    refine Frames.bind h.composes (frames_bridgeExists h (hall _ rfl)) (fun there => ?_)
    split
    next =>
      split
      next => exact Frames.pure h.composes ()
      next => exact Frames.throw h.composes _
    next =>
      refine Frames.bind h.composes (frames_run h hshape.1) (fun _ => ?_)
      exact Frames.onRaise h.composes (hrun _ rfl)
        (frames_ignoreHostNet h (frames_bridgeDel h hshape.2))
  unfold provisionNetwork
  dsimp only
  split
  next => exact Frames.pure h.composes ()
  next htype =>
    have hshape := hown (fun hcloud => htype (Or.inl hcloud))
    refine Frames.bind h.composes (hbridge _ _ hshape) (fun _ => ?_)
    split
    next => exact hrun _ rfl
    next => exact Frames.pure h.composes ()

theorem frames_ensureOwnBridge {ok : HostCall → Prop} {rel : World → World → Prop}
    (h : Commands ok rel) (hall : Plain ok) {bridge : String} (hadd : ok (.bridgeAdd bridge))
    (status : FingerprintStatus) : Frames rel (ensureOwnBridge bridge status) := by
  have hwrite : Frames rel (do
      ignoreHostNet (run (.fingerprintWrite bridge))
      pure true : HostM Bool) :=
    Frames.bind h.composes (frames_ignoreHostNet h (frames_run h (hall _ rfl)))
      (fun _ => Frames.pure h.composes true)
  unfold ensureOwnBridge
  refine frames_absorb h ?_ Exc.isHostNet false
  refine Frames.bind h.composes (frames_bridgeExists h (hall _ rfl)) (fun there => ?_)
  split
  next =>
    cases status with
    | mismatch => exact Frames.pure h.composes false
    | absent => exact hwrite
    | same => exact Frames.pure h.composes true
  next => exact Frames.bind h.composes (frames_run h hadd) (fun _ => hwrite)

theorem frames_launchProcessNode {ok : HostCall → Prop} {rel : World → World → Prop}
    (h : Commands ok rel) (hall : Plain ok) (node : Node) {attachments : List BootAttachment}
    (hon : Connects ok node.id attachments) :
    Frames rel (launchProcessNode node attachments) := by
  have hrun : ∀ c : HostCall, c.bridge? = none → Frames rel (run c) :=
    fun c hc => frames_run h (hall c hc)
  unfold launchProcessNode
  refine Frames.bind h.composes (frames_bridgesPresent h hall _) (fun _ => ?_)
  refine Frames.bind h.composes (frames_provisionTaps h hall
    (fun _ _ ha => hon.byIndex ha) _ _) (fun made => ?_)
  obtain ⟨provisioned, failed⟩ := made
  have hsweep := frames_sweepPorts h hall provisioned
  cases failed with
  | some e => exact Frames.bind h.composes hsweep (fun _ => Frames.throw h.composes e)
  | none =>
    refine Frames.bind h.composes (Frames.onRaise h.composes (hrun _ rfl) hsweep) (fun _ => ?_)
    split
    next =>
      refine Frames.tryCatch h.composes (hrun _ rfl) (fun _ => ?_)
      refine Frames.bind h.composes (Frames.swallow h.composes (hrun _ rfl)) (fun _ => ?_)
      refine Frames.bind h.composes (frames_sweepPorts h hall _) (fun _ => ?_)
      exact Frames.bind h.composes (hrun _ rfl) (fun _ => Frames.throw h.composes _)
    next => exact Frames.pure h.composes ()

/-- A start, of any kind of node, puts interfaces only on the bridges of the lab's networks. -/
theorem frames_startAnyNode {ok : HostCall → Prop} {rel : World → World → Prop}
    (h : Workings ok rel) (hall : Plain ok) {start : StartEnv} {lab : Lab}
    (hon : GivesOnNetworks start.bridgeName lab ok) {nodeKey : Int} {node : Node}
    (hnode : lab.nodes.get? nodeKey = some node) :
    Frames rel (startAnyNode start lab nodeKey node) := by
  have hboot : ∀ attachments : List BootAttachment,
      OnNetworks start.bridgeName lab node.id attachments → Connects ok node.id attachments := by
    intro attachments hnets a ha port hport
    obtain ⟨networkId, hjoins, hbridge⟩ := hnets a ha
    rw [hbridge]
    exact hon networkId port (by rwa [hport])
  unfold startAnyNode
  split
  next =>
    intro w
    exact (startNode_spec h hall
      (hboot _ (bootAttachments_onNetworks start.bridgeName hnode)) w).mono
      (fun _ _ ht => ht.1) (fun _ _ ht => ht.1)
  next =>
    refine Frames.bind h.composes (frames_runtimeRecord h _ _) (fun record => ?_)
    cases record with
    | some runtime => exact Frames.pure h.composes ()
    | none =>
      refine Frames.bind h.composes (frames_launchProcessNode h.toCommands hall node
        (hboot _ (qemuAttachments_onNetworks start.bridgeName hnode))) (fun _ => ?_)
      exact Frames.modify (fun w => h.record w _)

end NovaVe
