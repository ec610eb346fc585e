import Mathlib.Data.List.Sort
import Mathlib.Data.Prod.Lex
import NovaVe.NoStall
import NovaVe.Writers

namespace NovaVe

/-- The flock of a lab file, the flock of the NAT-cloud addresses, the mutex of an interface and
the mutex of a node. -/
inductive LockName
  | labLock (labPath : String)
  | natCloudIpamLock
  | runtimeMutex (labId : String) (nodeId interfaceIndex : Int)
  | nodeMutex (labId : String) (nodeId : Int)
  deriving DecidableEq

abbrev LockCode := LockProg LockName

def LockCode.all (codes : List LockCode) : LockCode :=
  codes.foldr LockProg.seq .skip

/-- `try: … except Exception: log`. -/
def bestEffort (code : LockCode) : LockCode :=
  .attempt code .skip

def labLock (labPath : String) (body : LockCode) : LockCode :=
  .hold .blocking (.labLock labPath) body

def natCloudIpamLock (body : LockCode) : LockCode :=
  .hold .blocking .natCloudIpamLock body

/-- `acquire_node_sync`. -/
def acquireNodeSync (labId : String) (nodeId : Int) (body : LockCode) : LockCode :=
  .hold .blocking (.nodeMutex labId nodeId) body

/-- `lab_lock(normalized)`, or `nullcontext()` for a caller that holds it. -/
def labLockUnlessHeld (labLockHeld : Bool) (labPath : String) (body : LockCode) : LockCode :=
  if labLockHeld then body else labLock labPath body

/-- The loop over `node_keys` that enters `runtime_mutex.acquire` for each. -/
def acquireAll (labId : String) (keys : List (Int × Int)) (body : LockCode) : LockCode :=
  keys.foldr (fun key code => .hold .awaiting (.runtimeMutex labId key.1 key.2) code) body

/-- `node_keys.sort()`. -/
def sortedKeys (keys : List (Int × Int)) : List (Int × Int) :=
  keys.insertionSort (fun a b => toLex a ≤ toLex b)

def publishEvents (count : Nat) : LockCode :=
  LockCode.all (List.replicate count .pause)

/-- The reconcile pass over the QEMU nodes of a lab, all in one `try`. -/
def reconcileAll (labId : String) (nodeIds : List Int) : LockCode :=
  bestEffort (LockCode.all (nodeIds.map (fun nodeId => acquireNodeSync labId nodeId .skip)))

/-- A QEMU interface that a new link hot-attaches: the stale attachments that the auto-heal pass
detaches first, whether a PCIe slot is picked, and whether a planned MAC is known. -/
structure HotNic where
  nodeId : Int
  orphans : Nat := 0
  hotPlug : Bool := false
  plannedMac : Bool := true

/-- What `create_link` reads: its lab file and the others, the node endpoints, the running QEMU
endpoints, the QEMU nodes of the lab, and how many events it publishes. -/
structure LinkCall where
  labPath : String
  labId : String
  labs : Labs
  nodeKeys : List (Int × Int)
  hotNics : List HotNic := []
  qemuNodes : List Int := []
  events : Nat := 0

def persistPlannedMacCode (labs : Labs) (labId : String) : LockCode :=
  match plannedMacFile labs labId with
  | none => .skip
  | some labPath => labLock labPath .skip

def autoHealCode (labId : String) (nic : HotNic) : LockCode :=
  LockCode.all (List.replicate nic.orphans (bestEffort (acquireNodeSync labId nic.nodeId .skip)))

/-- `_attach_qemu_interface_locked`. -/
def attachQemuCode (labs : Labs) (labId : String) (nic : HotNic) : LockCode :=
  acquireNodeSync labId nic.nodeId
    (.seq (if nic.hotPlug then acquireNodeSync labId nic.nodeId .skip else .skip)
      (if nic.plannedMac then bestEffort (persistPlannedMacCode labs labId) else .skip))

def hotAttachCode (call : LinkCall) : LockCode :=
  .seq (LockCode.all (call.hotNics.map (autoHealCode call.labId)))
    (LockCode.all (call.hotNics.map (attachQemuCode call.labs call.labId)))

/-- `create_link`. -/
def createLinkCode (call : LinkCall) (labLockHeld : Bool) : LockCode :=
  acquireAll call.labId (sortedKeys call.nodeKeys)
    (.seq (labLockUnlessHeld labLockHeld call.labPath
        (.seq (hotAttachCode call) (reconcileAll call.labId call.qemuNodes)))
      (publishEvents call.events))

/-- What `delete_link` reads: the running QEMU endpoints it detaches and the lab that owns the
address of the link, if it has one. -/
structure UnlinkCall where
  labPath : String
  labId : String
  nodeKeys : List (Int × Int)
  detached : List Int := []
  ipOwner : Option String := none
  qemuNodes : List Int := []
  events : Nat := 0

/-- `_release_ip`. -/
def releaseIpCode (labPath owner : String) (labLockHeld : Bool) : LockCode :=
  if labLockHeld then
    (if owner = labPath then .skip else labLock owner .skip)
  else
    natCloudIpamLock (.seq (labLock labPath .skip) (labLock owner .skip))

/-- `delete_link`. -/
def deleteLinkCode (call : UnlinkCall) (labLockHeld : Bool) : LockCode :=
  acquireAll call.labId (sortedKeys call.nodeKeys)
    (.seq (LockCode.all
        (call.detached.map (fun nodeId => acquireNodeSync call.labId nodeId .skip)))
      (.seq (match call.ipOwner with
          | none => .skip
          | some owner => releaseIpCode call.labPath owner labLockHeld)
        (.seq (labLockUnlessHeld labLockHeld call.labPath
            (reconcileAll call.labId call.qemuNodes))
          (publishEvents call.events))))

/-- `create_nodes_from_paired_template`: the links of the template, and the deletions of those
made so far when one of them fails. -/
structure PairedCall where
  labPath : String
  links : List LinkCall
  undone : List UnlinkCall := []

def pairedCode (call : PairedCall) : LockCode :=
  labLock call.labPath
    (.attempt (LockCode.all (call.links.map (fun link => createLinkCode link true)))
      (LockCode.all (call.undone.map (fun link => bestEffort (deleteLinkCode link true)))))

/-- The requests and background tasks that take one of the locks. -/
inductive LockRequest
  | createLink (call : LinkCall)
  | deleteLink (call : UnlinkCall)
  | createNodesFromPairedTemplate (call : PairedCall)
  /-- `patch_link`, `patch_network`, `patch_node_interface` and `put_layout`. -/
  | editLab (labPath : String) (events : Nat)
  | updateTopology (labPath labId : String) (qemuNodes : List Int)
  | ensureLabBridges (labPath labId : String) (owners : List String) (qemuNodes : List Int)
  | createNetwork (labPath : String) (natCloud : Bool) (events : Nat)
  | deleteNetwork (labPath : String) (events : Nat)
  | allocateIp (labPath owner : String)
  | startNode (labId : String) (nodeId : Int) (qemu : Bool)
  /-- `stop_node`, `wipe_node` and `delete_node`. -/
  | stopNode (labId : String) (nodeId : Int) (qemu : Bool)
  | heartbeat (labPaths : List String)

def ensureLabBridgesCode (labPath labId : String) (owners : List String) (qemuNodes : List Int) :
    LockCode :=
  .seq (labLock labPath (LockCode.all (owners.map (fun owner =>
      if owner = labPath then .skip else labLock owner .skip))))
    (LockCode.all (qemuNodes.map (fun nodeId => bestEffort (acquireNodeSync labId nodeId .skip))))

def createNetworkCode (labPath : String) (natCloud : Bool) (events : Nat) : LockCode :=
  .seq (if natCloud then natCloudIpamLock (labLock labPath .skip) else labLock labPath .skip)
    (publishEvents events)

def heartbeatCode (labPaths : List String) : LockCode :=
  LockCode.all (labPaths.map (fun labPath =>
    .seq .pause (.seq (bestEffort (labLock labPath .skip)) (bestEffort .pause))))

def nodeCode (labId : String) (nodeId : Int) (qemu : Bool) : LockCode :=
  if qemu then acquireNodeSync labId nodeId .skip else .skip

def LockRequest.program : LockRequest → RunsOn × LockCode
  | .createLink call => (.loop, createLinkCode call false)
  | .deleteLink call => (.loop, deleteLinkCode call false)
  | .createNodesFromPairedTemplate call => (.loop, pairedCode call)
  | .editLab labPath events => (.loop, .seq (labLock labPath .skip) (publishEvents events))
  | .updateTopology labPath labId qemuNodes => (.loop, labLock labPath (reconcileAll labId qemuNodes))
  | .ensureLabBridges labPath labId owners qemuNodes =>
    (.loop, ensureLabBridgesCode labPath labId owners qemuNodes)
  | .createNetwork labPath natCloud events => (.loop, createNetworkCode labPath natCloud events)
  | .deleteNetwork labPath events =>
    (.loop, .seq (natCloudIpamLock (labLock labPath .skip)) (publishEvents events))
  | .allocateIp labPath owner =>
    (.loop, natCloudIpamLock (.seq (labLock labPath .skip) (labLock owner .skip)))
  | .startNode labId nodeId qemu => (.worker, nodeCode labId nodeId qemu)
  | .stopNode labId nodeId qemu => (.loop, nodeCode labId nodeId qemu)
  | .heartbeat labPaths => (.loop, heartbeatCode labPaths)

def lockKinds : LockKinds LockName (ℤ ×ₗ ℤ) where
  kind
    | .labLock _ => .file
    | .natCloudIpamLock => .brief
    | .runtimeMutex _ _ _ => .mutex
    | .nodeMutex _ _ => .brief
  reentrant
    | .nodeMutex _ _ => True
    | _ => False
  rank
    | .runtimeMutex _ nodeId interfaceIndex => toLex (nodeId, interfaceIndex)
    | _ => toLex (0, 0)

end NovaVe
