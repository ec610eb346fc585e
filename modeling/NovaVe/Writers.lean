import NovaVe.LinkService
import NovaVe.NetworkService
import NovaVe.Topology

namespace NovaVe

/-- The lab files, by path under the labs directory. -/
abbrev Labs : Type := Dict String Lab

/-- Read a lab file, change it and write it back; nothing is written when the change raises. -/
def editLab {ε : Type} (path : String) (f : Lab → Except ε Lab) (labs : Labs) : Labs × Bool :=
  match labs.get? path with
  | none => (labs, false)
  | some data =>
    match f data with
    | .error _ => (labs, false)
    | .ok data' => (labs.set path data', true)

structure LinkPatch where
  styleOverride : Option (Option String) := none
  label : Option String := none
  color : Option String := none
  width : Option String := none
  metrics : Option LinkMetrics := none
deriving DecidableEq, Repr

def applyLinkPatch (patch : LinkPatch) (l : Link) : Link :=
  { l with
    styleOverride := patch.styleOverride.getD l.styleOverride
    label := patch.label.getD l.label
    color := patch.color.getD l.color
    width := patch.width.getD l.width
    metrics := patch.metrics.getD l.metrics }

/-- `patch_link`: a link that is not there is reported, not patched. -/
def patchLink (data : Lab) (linkId : String) (patch : LinkPatch) : Except LinkError Lab :=
  match findLink data linkId with
  | none => .error .linkMissing
  | some _ => .ok { data with
      links := modifyFirst (fun l => decide (l.id = linkId)) (applyLinkPatch patch) data.links }

def updateLab (updates : List (String × String)) (data : Lab) : Lab :=
  { data with meta_ := updates.foldl (fun d entry => d.set entry.1 entry.2) data.meta_ }

/-- `update_lab` after its database work: the file is left alone when it is not there. -/
def updateLabFile (path : String) (updates : List (String × String)) (labs : Labs) :
    Labs × Bool :=
  match labs.get? path with
  | none => (labs, true)
  | some data => (labs.set path (updateLab updates data), true)

/-- The locked write of `_run_heartbeat_cycle`, once the liveness of the node is known; the error
is the `continue` of a node that is gone or has that status already. -/
def heartbeatStatus (nodeId : Int) (alive : Bool) (data : Lab) : Except Unit Lab :=
  let expectedStatus := if alive then 2 else 0
  match data.nodes.get? nodeId with
  | none => .error ()
  | some node =>
    if node.status = expectedStatus then .error ()
    else .ok { data with nodes := data.nodes.set nodeId { node with status := expectedStatus } }

structure PlannedMac where
  nodeId : Int
  interfaceIndex : Int
  plannedMac : String
deriving DecidableEq, Repr

/-- The position `_lookup_interface` finds: the list position first, then the `index` field. -/
def lookupInterface (interfaces : List Iface) (interfaceIndex : Int) : Option Nat :=
  if 0 ≤ interfaceIndex ∧ interfaceIndex < interfaces.length then some interfaceIndex.toNat
  else interfaces.findIdx? (fun iface => decide (iface.index = interfaceIndex))

/-- The locked body of `_persist_planned_mac_to_lab_json`: an address that is there is kept. -/
def setPlannedMac (mac : PlannedMac) (data : Lab) : Except Unit Lab :=
  match data.nodes.get? mac.nodeId with
  | none => .error ()
  | some node =>
    match lookupInterface node.interfaces mac.interfaceIndex with
    | none => .error ()
    | some position =>
      if (node.interfaces[position]?.bind Iface.plannedMac).getD "" ≠ "" then .error ()
      else
        let interfaces := node.interfaces.modify position
          (fun iface => { iface with plannedMac := some mac.plannedMac })
        .ok { data with nodes := data.nodes.set mac.nodeId { node with interfaces := interfaces } }

/-- The file `labs_dir.glob("*.json")` finds for a lab id: only the top directory is searched. -/
def plannedMacFile (labs : Labs) (labId : String) : Option String :=
  (labs.entries.find? (fun entry => !entry.1.toList.contains '/' && decide (entry.2.id = labId))).map
    Prod.fst

/-- `_persist_planned_mac_to_lab_json`. A lock that is already held cannot be taken a second time:
the call times out and its caller swallows that. -/
def persistPlannedMac (held : List String) (labId : String) (labs : Labs) (mac : PlannedMac) :
    Labs × Bool :=
  match plannedMacFile labs labId with
  | none => (labs, false)
  | some path => if path ∈ held then (labs, false) else editLab path (setPlannedMac mac) labs

/-- `create_link` on the lab files: the write, the hot-attach pass, which may persist planned MACs,
and the write of the stamps or of the snapshot. -/
def createLinkFile (path : String) (a b : Endpoint) (style : Option String)
    (planned : List PlannedMac) (hotAttach : Option (List Stamp)) (labs : Labs) : Labs × Bool :=
  match labs.get? path with
  | none => (labs, false)
  | some original =>
    match createLinkData original a b style with
    | .error _ => (labs, false)
    | .ok created =>
      let attached := planned.foldl
        (fun files mac => (persistPlannedMac [path] original.id files mac).1)
        (labs.set path created.data)
      match hotAttach with
      | none => (attached.set path original, false)
      | some stamps =>
        (attached.set path (stamps.foldl stampLinkAttachGeneration created.data), true)

/-- The release of a link's address in the lab that owns the network. -/
def releaseElsewhere (labs : Labs) : Option (IpamTarget × String) → Labs
  | some (.elsewhere labPath networkId, ip) =>
    match labs.get? labPath with
    | none => labs
    | some owner => labs.set labPath (releaseIpFromOwner owner networkId ip)
  | _ => labs

/-- The owner's lab path and network id, seen from the lab at `path`. -/
def ownerTarget (path : String) (owner : String × Int) : IpamTarget :=
  if owner.1 = path then .here owner.2 else .elsewhere owner.1 owner.2

/-- `delete_link` on the lab files; `owner` is `find_nat_cloud_owner` over them. -/
def deleteLinkFile (path : String) (owner : Labs → String → Option (String × Int)) (linkId : String)
    (detached : Bool) (labs : Labs) : Labs × Bool :=
  match labs.get? path with
  | none => (labs, false)
  | some data =>
    match findLink data linkId with
    | none => (labs, true)
    | some target =>
      let target? := fun cloud => (owner labs cloud).map (ownerTarget path)
      match deleteLink target? data linkId detached with
      | .error _ => (labs, false)
      | .ok data' =>
        let released := match linkIpRelease target? data target with
          | some release => releaseElsewhere labs release
          | none => labs
        (released.set path data', true)

/-- A writer of `lab.json`, with what it meets outside the lab files. -/
inductive WriterOp
  | createLink (path : String) (a b : Endpoint) (style : Option String)
      (planned : List PlannedMac) (hotAttach : Option (List Stamp))
  | deleteLink (path : String) (owner : Labs → String → Option (String × Int)) (linkId : String)
      (detached : Bool)
  | patchLink (path linkId : String) (patch : LinkPatch)
  | createNetwork (path : String) (host : Labs → NetworkHost) (request : NetworkCreate)
  | deleteNetwork (path : String) (host : Labs → NetworkHost) (networkId : Int)
  | patchNetwork (path : String) (host : Labs → NetworkHost) (networkId : Int)
      (patch : NetworkUpdate)
  | updateNetwork (path : String) (networkId : Int) (patch : NetworkUpdate)
  | createNode (path : String) (host : NodeHost) (request : NodeCreate)
  | createNodesBatch (path : String) (host : NodeHost) (request : NodeCreate) (count : Nat)
      (row : Bool)
  | updateNode (path : String) (host : NodeHost) (nodeId : Int) (request : NodeUpdate)
  | deleteNode (path : String) (nodeId : Int) (wiped : Bool)
  | updateLab (path : String) (updates : List (String × String))
  | updateTopology (path : String) (payload : TopologyPayload)
  | heartbeat (path : String) (nodeId : Int) (alive : Bool)
  | persistPlannedMac (labId : String) (mac : PlannedMac)

/-- The block of a writer between two of its suspensions in which it reads and writes the files:
none of them awaits anything there, and all of them run on the event loop. -/
def WriterOp.perform (op : WriterOp) (labs : Labs) : Labs × Bool :=
  match op with
  | .createLink path a b style planned hotAttach =>
    createLinkFile path a b style planned hotAttach labs
  | .deleteLink path owner linkId detached => deleteLinkFile path owner linkId detached labs
  | .patchLink path linkId patch => editLab path (fun data => NovaVe.patchLink data linkId patch) labs
  | .createNetwork path host request =>
    editLab path (fun data => NovaVe.createNetwork (host labs) data request) labs
  | .deleteNetwork path host networkId =>
    editLab path (fun data => NovaVe.deleteNetwork (host labs) data networkId) labs
  | .patchNetwork path host networkId patch =>
    editLab path (fun data => NovaVe.patchNetwork (host labs) data networkId patch) labs
  | .updateNetwork path networkId patch =>
    editLab path (fun data => NovaVe.updateNetwork data networkId patch) labs
  | .createNode path host request =>
    editLab path (fun data => NovaVe.createNode host data request) labs
  | .createNodesBatch path host request count row =>
    editLab path (fun data => NovaVe.createNodesBatch host data request count row) labs
  | .updateNode path host nodeId request =>
    editLab path (fun data => NovaVe.updateNode host data nodeId request) labs
  | .deleteNode path nodeId wiped => editLab path (fun data => NovaVe.deleteNode data nodeId wiped) labs
  | .updateLab path updates => updateLabFile path updates labs
  | .updateTopology path payload =>
    editLab path (fun data => NovaVe.updateTopology data payload) labs
  | .heartbeat path nodeId alive => editLab path (heartbeatStatus nodeId alive) labs
  | .persistPlannedMac labId mac => NovaVe.persistPlannedMac [] labId labs mac

theorem editLab_quiet {ε : Type} {path : String} {f : Lab → Except ε Lab} {labs : Labs}
    (h : (editLab path f labs).2 = false) : (editLab path f labs).1 = labs := by
  unfold editLab at h ⊢
  split at h
  next => rfl
  next data hdata =>
    split at h
    next => rfl
    next => cases h

theorem persistPlannedMac_quiet {held : List String} {labId : String} {labs : Labs}
    {mac : PlannedMac} (h : (persistPlannedMac held labId labs mac).2 = false) :
    (persistPlannedMac held labId labs mac).1 = labs := by
  unfold persistPlannedMac at h ⊢
  split at h
  next => rfl
  next path hpath =>
    split at h
    next hheld => simp only [hheld, if_true]
    next hheld =>
      simp only [hheld, if_false]
      exact editLab_quiet h

end NovaVe
