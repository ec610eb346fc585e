import NovaVe.Host

namespace NovaVe

/-- What the attach code reads of the lab file and of the node: the driver of a network, the NIC
model and the planned MAC of an interface. -/
structure NicSource where
  driver : Int → Option String
  nicModel : Int → String
  plannedMac : Int → Int → String

def alreadyAttached (interfaceIndex networkId nodeId : Int) : Exc :=
  .runtime ("interface_index=" ++ toString interfaceIndex ++ " already attached to network " ++
    toString networkId ++ " on node " ++ toString nodeId ++ "; detach that link before re-attaching.")

def bridgeMissing (bridge : String) (networkId : Int) : Exc :=
  .runtime ("Bridge " ++ bridge ++ " for network_id=" ++ toString networkId ++
    " is not present on the host; provision it via create_network (US-202) before " ++
    "hot-attaching interfaces.")

/-- `_attach_docker_interface_initial`: the veth pair, its bridge, and the end in the container. -/
def attachDockerInterfaceInitial (nodeId interfaceIndex : Int) (bridge : String)
    (driver : Option String) : HostM Unit := do
  let hostEnd := Port.veth nodeId interfaceIndex
  run (.vethPairAdd hostEnd)
  linkMasterAny hostEnd bridge driver
  run (.linkUp hostEnd)
  run (.linkNetns hostEnd)
  run (.renameInNetns hostEnd)
  run (.addrUpInNetns hostEnd)

/-- The record after a docker attach: the generation is bumped, the entry and the host end kept. -/
def NodeRuntime.withDockerAttachment (runtime : NodeRuntime) (nodeId networkId interfaceIndex : Int)
    (bridge : String) : NodeRuntime :=
  let bumped := runtime.bump interfaceIndex
  { bumped with
    attachments := bumped.attachments ++ [{
      interfaceIndex := interfaceIndex, networkId := networkId, bridgeName := bridge
      port := some (.veth nodeId interfaceIndex)
      attachGeneration := some (bumped.generation interfaceIndex) }]
    vethHostEnds := addPort bumped.vethHostEnds (.veth nodeId interfaceIndex) }

/-- `_attach_docker_interface_locked`; it returns the `attach_generation` of the entry. -/
def attachDockerInterface (source : NicSource) (nodeId networkId interfaceIndex : Int)
    (bridge : String) : HostM (Option Int) := do
  match ← runtimeRecord nodeId false with
  | none =>
    throw (.runtime ("Cannot hot-attach interface: node " ++ toString nodeId ++
      " is not running (no runtime record)."))
  | some runtime =>
    if runtime.kind ≠ .docker then
      throw (.runtime ("Cannot hot-attach docker interface: node " ++ toString nodeId ++
        " runtime kind is '" ++ runtime.kind.name ++ "', expected 'docker'."))
    else if !runtime.hasPid then
      throw (.runtime ("Cannot hot-attach interface: node " ++ toString nodeId ++
        " has no resolved container PID."))
    else
      match runtime.attachment? interfaceIndex with
      | some existing =>
        if existing.networkId = networkId then pure existing.attachGeneration
        else throw (alreadyAttached interfaceIndex existing.networkId nodeId)
      | none => do
        if ← bridgeExists bridge then
          onRaise (attachDockerInterfaceInitial nodeId interfaceIndex bridge (source.driver networkId))
            (tryLinkDel (.veth nodeId interfaceIndex))
          editRuntime nodeId (fun r => r.withDockerAttachment nodeId networkId interfaceIndex bridge)
          pure (some (runtime.generation interfaceIndex + 1))
        else throw (bridgeMissing bridge networkId)

inductive DetachState
  | detached | forced | staleNoop | absent
deriving DecidableEq, Repr

/-- The record after an entry is gone: the entry, and the host end it named. -/
def NodeRuntime.withoutDockerAttachment (runtime : NodeRuntime) (interfaceIndex : Int)
    (hostEnd : Port) : NodeRuntime :=
  { runtime with
    attachments := runtime.attachments.eraseP (onInterface interfaceIndex)
    vethHostEnds := runtime.vethHostEnds.filter (fun p => decide (p ≠ hostEnd)) }

/-- A detach is stale when it expects another generation than the counter. -/
def staleFor (runtime : NodeRuntime) (interfaceIndex : Int) (expectedGeneration : Option Int) : Bool :=
  match expectedGeneration with
  | none => false
  | some generation => decide (generation ≠ runtime.generation interfaceIndex)

/-- `_detach_docker_interface_locked`; a host end that is already gone is a success. -/
def detachDockerInterface (nodeId interfaceIndex : Int) (expectedGeneration : Option Int) :
    HostM DetachState := do
  match ← runtimeRecord nodeId true with
  | none => pure .absent
  | some runtime =>
    match runtime.attachment? interfaceIndex with
    | none => pure .absent
    | some target =>
      if staleFor runtime interfaceIndex expectedGeneration then pure .staleNoop
      else do
        let hostEnd := target.port.getD (.veth nodeId interfaceIndex)
        tryCatch (run (.linkDel hostEnd))
          (fun e => if e = .hostNetEinval then pure () else throw e)
        editRuntime nodeId (fun r => r.withoutDockerAttachment interfaceIndex hostEnd)
        pure .detached

/-- The highest slot that is neither occupied nor reserved. -/
def freeSlot (maxNics : Int) (taken : List Int) : Option Int :=
  ((List.range maxNics.toNat).reverse.map (fun (i : Nat) => (i : Int))).find?
    (fun slot => decide (slot ∉ taken))

/-- `_find_free_pcie_slot` as `_attach_qemu_interface_inner` calls it: what is not a
`NodeRuntimeError` becomes one. -/
def findFreePcieSlot (nodeId : Int) (runtime : NodeRuntime) : HostM (Option Int) := do
  let reply ← tryCatch (call (.queryPci nodeId)) (fun e =>
    if e.isRuntime then throw e else throw (.runtime "QMP query-pci failed during hot-add"))
  if reply.qmpError then throw (.runtime "QMP query-pci returned error")
  else pure (freeSlot runtime.maxNics (reply.occupied ++ runtime.allocatedSlots))

/-- A QMP command of the hot-add: on a timeout QEMU may have applied it, so that `undo` runs. -/
def qmpAdd (command : HostCall) (undo : HostM Unit) (failed : String) : HostM Unit := do
  let reply ← tryCatch (call command) (fun e =>
    if e = .qmpTimeout then (do undo; throw e) else throw e)
  if reply.qmpError then throw (.runtime failed)

/-- The host-only attach of a boot NIC: its TAP is permanent, only bridge and carrier change. -/
def attachBootNic (nodeId interfaceIndex : Int) (bridge : String) (driver : Option String) :
    HostM Unit := do
  let tap := Port.tap nodeId interfaceIndex
  let there ← tapExists tap
  if !there then run (.tapAdd tap)
  onRaise (do
    linkMasterAny tap bridge driver
    onRaise (do
      run (.linkUp tap)
      swallow (run (.setLink nodeId interfaceIndex true)))
      (swallow (run (.linkNomaster tap))))
    (if there then pure () else swallow (run (.tapDel tap)))

/-- Delete a TAP in a rollback, in one way or the other. -/
def rollbackTap (tap : Port) : HostM Unit :=
  tryCatch (run (.tapDel tap)) (fun _ => swallow (tryLinkDel tap))

/-- Steps 3 to 6 of the hot-add, each undone when a later one raises. -/
def hotAddNic (nodeId interfaceIndex slot : Int) (bridge : String) (driver : Option String) :
    HostM Unit := do
  let tap := Port.tap nodeId interfaceIndex
  let netdevDel := swallow (run (.netdevDel nodeId interfaceIndex))
  let deviceDel := swallow (run (.deviceDel nodeId interfaceIndex))
  run (.tapAdd tap)
  onRaise (do
    linkMasterAny tap bridge driver
    onRaise (do
      run (.linkUp tap)
      qmpAdd (.netdevAdd nodeId interfaceIndex) netdevDel "QMP netdev_add failed"
      onRaise (qmpAdd (.deviceAdd nodeId interfaceIndex slot) deviceDel "QMP device_add failed")
        netdevDel)
      (swallow (run (.linkNomaster tap))))
    (rollbackTap tap)

def NodeRuntime.reserveSlot (runtime : NodeRuntime) (slot : Int) : NodeRuntime :=
  { runtime with
    allocatedSlots := if slot ∈ runtime.allocatedSlots then runtime.allocatedSlots
      else runtime.allocatedSlots ++ [slot] }

def NodeRuntime.releaseSlot (runtime : NodeRuntime) (slot : Int) : NodeRuntime :=
  { runtime with allocatedSlots := runtime.allocatedSlots.filter (fun s => decide (s ≠ slot)) }

/-- The record after a QEMU attach. -/
def NodeRuntime.withQemuAttachment (runtime : NodeRuntime) (source : NicSource)
    (nodeId networkId interfaceIndex : Int) (bridge : String) (slot : Option Int) : NodeRuntime :=
  let bumped := runtime.bump interfaceIndex
  { bumped with
    attachments := bumped.attachments ++ [{
      interfaceIndex := interfaceIndex, networkId := networkId, bridgeName := bridge
      port := some (.tap nodeId interfaceIndex), slot := slot
      bootNic := decide (interfaceIndex < runtime.bootEthernet)
      nicModel := some (source.nicModel nodeId)
      attachGeneration := some (bumped.generation interfaceIndex)
      plannedMac := some (source.plannedMac nodeId interfaceIndex) }]
    tapNames := addPort bumped.tapNames (.tap nodeId interfaceIndex) }

/-- The hot-plug branch: a slot is picked and reserved, and released when a step raises. -/
def attachHotplugNic (source : NicSource) (runtime : NodeRuntime) (nodeId networkId interfaceIndex : Int)
    (bridge : String) : HostM (Option Int) := do
  match ← findFreePcieSlot nodeId runtime with
  | none =>
    throw (.runtime ("All " ++ toString runtime.maxNics ++ " hot-plug slots in use on this VM."))
  | some slot =>
    editRuntime nodeId (fun r => r.reserveSlot slot)
    onRaise (hotAddNic nodeId interfaceIndex slot bridge (source.driver networkId))
      (editRuntime nodeId (fun r => r.releaseSlot slot))
    pure (some slot)

/-- A boot NIC is attached on the host alone; any other takes a slot. -/
def attachNic (source : NicSource) (runtime : NodeRuntime) (nodeId networkId interfaceIndex : Int)
    (bridge : String) : HostM (Option Int) :=
  if interfaceIndex < runtime.bootEthernet then do
    attachBootNic nodeId interfaceIndex bridge (source.driver networkId)
    pure none
  else attachHotplugNic source runtime nodeId networkId interfaceIndex bridge

/-- `_attach_qemu_interface_inner`. -/
def attachQemuInner (source : NicSource) (nodeId networkId interfaceIndex : Int) (bridge : String) :
    HostM (Option Int) := do
  match ← runtimeRecord nodeId false with
  | none =>
    throw (.runtime ("Cannot hot-attach interface: node " ++ toString nodeId ++
      " is not running (no runtime record)."))
  | some runtime =>
    if runtime.kind ≠ .qemu then
      throw (.runtime ("Cannot hot-attach qemu interface: node " ++ toString nodeId ++
        " runtime kind is '" ++ runtime.kind.name ++ "', expected 'qemu'."))
    else if !runtime.hotplugCapable then
      throw (.runtime ("Cannot hot-attach interface on node " ++ toString nodeId ++
        ": template capabilities.hotplug is false or machine is not q35."))
    else if !runtime.qmpSocket then
      throw (.runtime ("Cannot hot-attach interface on node " ++ toString nodeId ++
        ": QMP socket path is not set on the runtime record."))
    else
      match runtime.attachment? interfaceIndex with
      | some existing =>
        if existing.networkId = networkId then pure existing.attachGeneration
        else throw (alreadyAttached interfaceIndex existing.networkId nodeId)
      | none => do
        if ← bridgeExists bridge then
          let slot ← attachNic source runtime nodeId networkId interfaceIndex bridge
          editRuntime nodeId (fun r =>
            r.withQemuAttachment source nodeId networkId interfaceIndex bridge slot)
          if source.plannedMac nodeId interfaceIndex ≠ "" then
            modify (fun w => { w with
              plannedMacs := w.plannedMacs ++
                [(nodeId, interfaceIndex, source.plannedMac nodeId interfaceIndex)] })
          pure (some (runtime.generation interfaceIndex + 1))
        else throw (bridgeMissing bridge networkId)

/-- `_attach_qemu_interface_locked`: the node mutex first. -/
def attachQemuInterface (source : NicSource) (nodeId networkId interfaceIndex : Int)
    (bridge : String) : HostM (Option Int) := do
  run (.nodeMutex nodeId)
  attachQemuInner source nodeId networkId interfaceIndex bridge

/-- `_qemu_device_gone`. -/
def qemuDeviceGone (nodeId : Int) : HostM Bool := do
  let reply ← call (.queryPci nodeId)
  if reply.qmpError then throw (.runtime "QMP query-pci returned error during detach poll")
  else pure (!reply.devicePresent)

/-- Poll until the device is in the state asked for, so many times at most. -/
def pollDevice (nodeId : Int) (gone : Bool) : Nat → HostM Bool
  | 0 => pure false
  | n + 1 => do
    if (← qemuDeviceGone nodeId) = gone then pure true else pollDevice nodeId gone n

/-- Step 1 of the hot-remove; whether the device was gone already. -/
def deviceDelStep (nodeId interfaceIndex : Int) : HostM Bool := do
  let reply ← call (.deviceDel nodeId interfaceIndex)
  if !reply.qmpError then pure false
  else if !reply.deviceNotFound then throw (.runtime "QMP device_del failed")
  else do
    let _ ← pollDevice nodeId false 20
    let retry ← call (.deviceDel nodeId interfaceIndex)
    if !retry.qmpError then pure false
    else if retry.deviceNotFound then pure true
    else throw (.runtime "QMP device_del retry failed")

/-- Step 3a: the netdev and the TAP; the TAP goes also when the `netdev_del` fails. -/
def removeNetdev (nodeId interfaceIndex : Int) (tap : Port) : HostM Unit := do
  let failed ← tryCatch (do
    let reply ← call (.netdevDel nodeId interfaceIndex)
    if reply.qmpError ∧ !reply.deviceNotFound then pure (some (Exc.runtime "QMP netdev_del failed"))
    else pure none)
    (fun e => if e = .qmpTimeout then pure (some e) else throw e)
  tryCatch (run (.tapDel tap)) (fun e => if e = .hostNetEinval then pure () else throw e)
  match failed with
  | some e => throw e
  | none => pure ()

/-- The hot-remove of a NIC; whether the guest had to be left with the device. -/
def hotRemoveNic (nodeId interfaceIndex : Int) (tap : Port) : HostM Bool := do
  let alreadyGone ← deviceDelStep nodeId interfaceIndex
  let gone ← (if alreadyGone then pure true else pollDevice nodeId true 16 : HostM Bool)
  if gone then
    removeNetdev nodeId interfaceIndex tap
    pure false
  else do
    run (.linkNomaster tap)
    modify (fun w => { w with warnings := w.warnings ++ [(nodeId, interfaceIndex)] })
    pure true

/-- The record after a QEMU detach: the entry goes, with its slot; the TAP name only of a hot-plug
NIC that is really gone. -/
def NodeRuntime.withoutQemuAttachment (runtime : NodeRuntime) (interfaceIndex : Int)
    (target : Attachment) (tap : Port) (forced : Bool) : NodeRuntime :=
  { runtime with
    attachments := runtime.attachments.eraseP (onInterface interfaceIndex)
    tapNames := if forced || target.bootNic then runtime.tapNames
      else runtime.tapNames.filter (fun p => decide (p ≠ tap))
    allocatedSlots := match target.slot with
      | none => runtime.allocatedSlots
      | some slot => runtime.allocatedSlots.filter (fun s => decide (s ≠ slot)) }

/-- An entry counts as a boot NIC by its flag alone. -/
def detachNic (nodeId interfaceIndex : Int) (target : Attachment) (tap : Port) : HostM Bool :=
  if target.bootNic then do
    swallow (run (.setLink nodeId interfaceIndex false))
    run (.linkNomaster tap)
    pure false
  else hotRemoveNic nodeId interfaceIndex tap

/-- `_detach_qemu_interface_inner`. -/
def detachQemuInner (nodeId interfaceIndex : Int) (expectedGeneration : Option Int) :
    HostM DetachState := do
  match ← runtimeRecord nodeId true with
  | none => pure .absent
  | some runtime =>
    if runtime.kind ≠ .qemu then pure .absent
    else
      match runtime.attachment? interfaceIndex with
      | none => pure .absent
      | some target =>
        if staleFor runtime interfaceIndex expectedGeneration then pure .staleNoop
        else if !runtime.qmpSocket then
          throw (.runtime ("Cannot hot-detach interface on node " ++ toString nodeId ++
            ": QMP socket path is not set on the runtime record."))
        else do
          let tap := target.port.getD (.tap nodeId interfaceIndex)
          let forced ← detachNic nodeId interfaceIndex target tap
          editRuntime nodeId (fun r =>
            (r.withoutQemuAttachment interfaceIndex target tap forced).bump interfaceIndex)
          pure (if forced then .forced else .detached)

/-- `_detach_qemu_interface_locked`. -/
def detachQemuInterface (nodeId interfaceIndex : Int) (expectedGeneration : Option Int) :
    HostM DetachState := do
  run (.nodeMutex nodeId)
  detachQemuInner nodeId interfaceIndex expectedGeneration

/-- `set_qemu_nic_link`: only a transport timeout is absorbed. -/
def setQemuNicLink (nodeId interfaceIndex : Int) (up : Bool) : HostM Unit := do
  match ← runtimeRecord nodeId false with
  | none => pure ()
  | some runtime =>
    if runtime.kind = .qemu ∧ runtime.qmpSocket then
      tryCatch (run (.setLink nodeId interfaceIndex up))
        (fun e => if e = .qmpTimeout then pure () else throw e)

end NovaVe
