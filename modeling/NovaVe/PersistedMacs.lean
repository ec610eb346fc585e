import NovaVe.NicIdentity
import NovaVe.HotAttach
import NovaVe.PlannedMacs

namespace NovaVe

def Lab.storedMac (lab : Lab) (nodeId interfaceIndex : Int) : String :=
  ((lab.nodes.get? nodeId).map (fun node => node.storedMac interfaceIndex)).getD ""

/-- The reconcile of the QEMU nodes that ends `create_link`; a failure ends it. -/
def reconcileAfterCreate (source : NicSource) (bridgeName : String → Int → String) (lab : Lab) :
    HostM Unit :=
  swallow ((lab.nodes.entries.filter (fun entry => decide (entry.2.type = .qemu))).forM
    (fun entry => reconcileQemuNodeLinks source bridgeName lab entry.1))

/-- `create_link` with its attaches on the host, under the lock of its lab file: the lab files and
the host after it, when it succeeds. -/
def createLinkOnHost (source : NicSource) (bridgeName : String → Int → String) (path : String)
    (a b : Endpoint) (style : Option String) (labs : Labs) (w : World) : Option (Labs × World) :=
  match labs.get? path with
  | none => none
  | some original =>
    match createLinkData original a b style with
    | .error _ => none
    | .ok created =>
      match (hotAttachRunningEndpoints source bridgeName created.data created.implicitNetwork
          created.concrete).run { w with plannedMacs := [] } with
      | .error _ _ => none
      | .ok stamps t =>
        let planned := t.plannedMacs.map (fun asked => PlannedMac.mk asked.1 asked.2.1 asked.2.2)
        let labs' := (createLinkFile path a b style planned (some stamps) labs).1
        let lab := (labs'.get? path).getD original
        some (labs', endState (reconcileAfterCreate source bridgeName lab) t)

/-- The fields of an interface that the stored MAC is found by. -/
def Iface.macView (iface : Iface) : Int × Option String := (iface.index, iface.plannedMac)

theorem lookupInterface_congr {interfaces interfaces' : List Iface}
    (h : interfaces'.map Iface.macView = interfaces.map Iface.macView) (interfaceIndex : Int) :
    lookupInterface interfaces' interfaceIndex = lookupInterface interfaces interfaceIndex := by
  have hlength : interfaces'.length = interfaces.length := by
    have hmap := congrArg List.length h
    rw [List.length_map, List.length_map] at hmap
    exact hmap
  have hfind : ∀ l : List Iface, l.findIdx? (fun iface => decide (iface.index = interfaceIndex)) =
      (l.map Iface.macView).findIdx? (fun view => decide (view.1 = interfaceIndex)) := by
    intro l
    rw [List.findIdx?_map]
    rfl
  unfold lookupInterface
  rw [hlength, hfind interfaces', hfind interfaces, h]

theorem storedMac_congr {node node' : Node}
    (h : node'.interfaces.map Iface.macView = node.interfaces.map Iface.macView)
    (interfaceIndex : Int) : node'.storedMac interfaceIndex = node.storedMac interfaceIndex := by
  have hat : ∀ (n : Node) (position : Nat), n.interfaces[position]?.bind Iface.plannedMac =
      (n.interfaces.map Iface.macView)[position]?.bind Prod.snd := by
    intro n position
    rw [List.getElem?_map]
    cases n.interfaces[position]? with
    | none => rfl
    | some iface => rfl
  unfold Node.storedMac
  rw [lookupInterface_congr h]
  cases lookupInterface node.interfaces interfaceIndex with
  | none => rfl
  | some position => rw [Option.bind_some, Option.bind_some, hat node', hat node, h]

/-- A stamp leaves the stored MACs alone. -/
theorem stampLink_storedMac (data : Lab) (stamp : Stamp) (nodeId interfaceIndex : Int) :
    (stampLinkAttachGeneration data stamp).storedMac nodeId interfaceIndex =
      data.storedMac nodeId interfaceIndex := by
  unfold stampLinkAttachGeneration Lab.storedMac
  dsimp only
  split
  next => rfl
  next node hget =>
    dsimp only
    rw [Dict.get?_set]
    split
    next heq =>
      subst heq
      rw [hget, Option.map_some, Option.map_some]
      apply congrArg (fun mac => (some mac).getD "")
      apply storedMac_congr
      exact map_modifyFirst _ (stampIface stamp.attachGeneration) Iface.macView (fun _ => rfl) _
    next => rfl

theorem stamps_storedMac (stamps : List Stamp) (data : Lab) (nodeId interfaceIndex : Int) :
    (stamps.foldl stampLinkAttachGeneration data).storedMac nodeId interfaceIndex =
      data.storedMac nodeId interfaceIndex :=
  foldl_keeps (fun lab : Lab => lab.storedMac nodeId interfaceIndex)
    (fun lab stamp => stampLink_storedMac lab stamp nodeId interfaceIndex) stamps data

/-- An interface of a running QEMU node that was attached with a MAC, between two worlds. -/
def AttachedWith (w t : World) (nodeId interfaceIndex : Int) (mac : String) : Prop :=
  ∃ runtime, t.runtimes.get? nodeId = some runtime ∧ runtime.kind = .qemu ∧
    ∃ entry ∈ runtime.attachments, entry.interfaceIndex = interfaceIndex ∧
      entry.plannedMac.getD "" = mac ∧ mac ≠ "" ∧
      ∀ old, w.runtimes.get? nodeId = some old → entry ∉ old.attachments

/-- The MACs of the attaches are stored where none was, and no other MAC changes. -/
structure MacsPersisted (before after : Lab) (w t : World) : Prop where
  persisted : ∀ nodeId interfaceIndex mac, AttachedWith w t nodeId interfaceIndex mac →
    before.storedMac nodeId interfaceIndex = "" → after.storedMac nodeId interfaceIndex = mac
  kept : ∀ nodeId interfaceIndex, before.storedMac nodeId interfaceIndex ≠ "" →
    after.storedMac nodeId interfaceIndex = before.storedMac nodeId interfaceIndex

/-- The file that `create_link` leaves has the MACs that were stored before: the persist of an attach
finds the lock of the file taken, or does not find the file. -/
theorem createLinkOnHost_storedMac {source : NicSource} {bridgeName : String → Int → String}
    {path : String} {a b : Endpoint} {style : Option String} {labs labs' : Labs} {w t : World}
    {before after : Lab}
    (h : createLinkOnHost source bridgeName path a b style labs w = some (labs', t))
    (hbefore : labs.get? path = some before) (hafter : labs'.get? path = some after)
    (nodeId interfaceIndex : Int) :
    after.storedMac nodeId interfaceIndex = before.storedMac nodeId interfaceIndex := by
  unfold createLinkOnHost at h
  rw [hbefore] at h
  dsimp only at h
  cases hcreated : createLinkData before a b style with
  | error e =>
    rw [hcreated] at h
    cases h
  | ok created =>
    rw [hcreated] at h
    dsimp only at h
    cases hrun : (hotAttachRunningEndpoints source bridgeName created.data created.implicitNetwork
        created.concrete).run { w with plannedMacs := [] } with
    | error e u =>
      rw [hrun] at h
      cases h
    | ok stamps u =>
      rw [hrun] at h
      have hlabs := congrArg Prod.fst (Option.some.inj h)
      dsimp only at hlabs
      rw [← hlabs] at hafter
      unfold createLinkFile at hafter
      rw [hbefore] at hafter
      dsimp only at hafter
      rw [hcreated] at hafter
      dsimp only at hafter
      rw [Dict.get?_set_self] at hafter
      have hstamped := Option.some.inj hafter
      have hnodes := (createLinkData_attachments hcreated).2.1
      rw [← hstamped, stamps_storedMac]
      unfold Lab.storedMac
      rw [hnodes]

/-- No attach of a successful `create_link` has its MAC stored: every MAC is stored after a call
exactly when the call attaches no interface without one. -/
theorem macs_persisted_iff {source : NicSource} {bridgeName : String → Int → String}
    {path : String} {a b : Endpoint} {style : Option String} {labs labs' : Labs} {w t : World}
    {before after : Lab}
    (h : createLinkOnHost source bridgeName path a b style labs w = some (labs', t))
    (hbefore : labs.get? path = some before) (hafter : labs'.get? path = some after) :
    MacsPersisted before after w t ↔
      ∀ nodeId interfaceIndex mac, AttachedWith w t nodeId interfaceIndex mac →
        before.storedMac nodeId interfaceIndex ≠ "" := by
  have hsame := createLinkOnHost_storedMac h hbefore hafter
  constructor
  · intro hpersisted nodeId interfaceIndex mac hattached hempty
    have hmac := hpersisted.persisted nodeId interfaceIndex mac hattached hempty
    rw [hsame, hempty] at hmac
    obtain ⟨_, _, _, _, _, _, _, hne, _⟩ := hattached
    exact hne hmac.symm
  · intro hstored
    refine ⟨fun nodeId interfaceIndex mac hattached hempty => ?_, fun nodeId interfaceIndex _ => ?_⟩
    · exact absurd hempty (hstored nodeId interfaceIndex mac hattached)
    · exact hsame nodeId interfaceIndex

/-- Where the attach code looks its NIC up: the lab files. -/
def nicSource (labs : Labs) (labId : String) : NicSource where
  driver := fun _ => none
  nicModel := resolveQemuNicModel labs labId
  plannedMac := fun nodeId interfaceIndex =>
    (resolveQemuPlannedMac labs labId nodeId interfaceIndex).getD ""

def runningNode : Node :=
  { id := 1, name := "r", type := .qemu, firstmac := some "50:00:00:01:00:00"
    interfaces := [{ index := 0, name := "Gi0" }] }

def runningLab : Lab :=
  { id := "lab", nodes := Dict.empty.set 1 runningNode
    networks := Dict.empty.set 1 { id := 1, name := "lan" } }

def runningLabs : Labs := Dict.empty.set "lab.json" runningLab

/-- The node runs, and no interface of it is attached. -/
def runningWorld : World :=
  { runtimes := Dict.empty.set 1 { kind := .qemu, hotplugCapable := true, bootEthernet := 1 }
    host := { bridges := ["br"] } }

def linkedRun : Option (Labs × World) :=
  createLinkOnHost (nicSource runningLabs "lab") (fun _ _ => "br") "lab.json" (.node 1 0) (.network 1)
    none runningLabs runningWorld

/-- The link is made, and the interface has the MAC of the boot on the host. -/
theorem linkedRun_attached : ∃ labs' t after, linkedRun = some (labs', t) ∧
    labs'.get? "lab.json" = some after ∧
      AttachedWith runningWorld t 1 0 "50:00:00:01:00:00" := by
  have hfile : (linkedRun.bind (fun r => r.1.get? "lab.json")).isSome = true := by decide +kernel
  have hrecord : linkedRun.map (fun r => (r.2.runtimes.get? 1).map (fun runtime =>
      (runtime.kind, runtime.attachments.map (fun e => (e.interfaceIndex, e.plannedMac))))) =
        some (some (.qemu, [(0, some "50:00:00:01:00:00")])) := by decide +kernel
  have hold : (runningWorld.runtimes.get? 1).map NodeRuntime.attachments = some [] := by
    decide +kernel
  cases hrun : linkedRun with
  | none =>
    rw [hrun] at hrecord
    cases hrecord
  | some r =>
    obtain ⟨labs', t⟩ := r
    rw [hrun] at hfile hrecord
    obtain ⟨after, hafter⟩ := Option.isSome_iff_exists.mp hfile
    have hget := Option.some.inj hrecord
    obtain ⟨runtime, hruntime, hview⟩ := Option.map_eq_some_iff.mp hget
    have hkind : runtime.kind = .qemu := congrArg Prod.fst hview
    have hentries : runtime.attachments.map (fun e => (e.interfaceIndex, e.plannedMac)) =
        [(0, some "50:00:00:01:00:00")] := congrArg Prod.snd hview
    have hmem : ((0 : Int), some "50:00:00:01:00:00") ∈
        runtime.attachments.map (fun e => (e.interfaceIndex, e.plannedMac)) := by
      rw [hentries]
      exact List.mem_singleton.mpr rfl
    obtain ⟨entry, hentry, heq⟩ := List.mem_map.mp hmem
    have hindex : entry.interfaceIndex = 0 := congrArg Prod.fst heq
    have hmac : entry.plannedMac = some "50:00:00:01:00:00" := congrArg Prod.snd heq
    refine ⟨labs', t, after, rfl, hafter, runtime, hruntime, hkind, entry, hentry, hindex, ?_, ?_, ?_⟩
    · rw [hmac]
      rfl
    · decide
    · intro old hgot hin
      rw [hgot] at hold
      rw [Option.some.inj hold] at hin
      cases hin

theorem linked_macs_iff : ∃ labs' t after, linkedRun = some (labs', t) ∧
    labs'.get? "lab.json" = some after ∧ (MacsPersisted runningLab after runningWorld t ↔
      ∀ nodeId interfaceIndex mac, AttachedWith runningWorld t nodeId interfaceIndex mac →
        runningLab.storedMac nodeId interfaceIndex ≠ "") := by
  obtain ⟨labs', t, after, hrun, hafter, _⟩ := linkedRun_attached
  exact ⟨labs', t, after, hrun, hafter,
    macs_persisted_iff hrun (Dict.get?_set_self _ _ _) hafter⟩

theorem linked_mac_not_persisted : ¬ ∀ labs' t after, linkedRun = some (labs', t) →
    labs'.get? "lab.json" = some after → MacsPersisted runningLab after runningWorld t := by
  intro h
  obtain ⟨labs', t, after, hrun, hafter, hattached⟩ := linkedRun_attached
  have hstored : linkedRun.bind (fun r => (r.1.get? "lab.json").map (fun lab => lab.storedMac 1 0)) =
      some "" := by decide +kernel
  have hempty : runningLab.storedMac 1 0 = "" := by decide +kernel
  have hmac := (h labs' t after hrun hafter).persisted 1 0 _ hattached hempty
  rw [hrun, Option.bind_some, hafter, Option.map_some, hmac] at hstored
  exact absurd (Option.some.inj hstored) (by decide)

end NovaVe
