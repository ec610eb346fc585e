import NovaVe.IfaceNames
import NovaVe.Lab
import NovaVe.SlotPorts

namespace NovaVe

/-- The commands the launcher sends to the hypervisor for a node. -/
inductive DynamipsCommand
  | workingDir
  | vmCreate (vmName : String) (vmId : Nat) (platform : DynamipsPlatform)
  | setRam (vmName : String) (ram : Int)
  | setIos (vmName image : String)
  | setIdlePc (vmName idlePc : String)
  | setConTcpPort (vmName : String) (port : Nat)
  | setNpe (vmName npe : String)
  | setDisk0 (vmName : String) (mb : Int)
  | slotAddBinding (vmName : String) (slot : Nat) (pa : String)
  | nioDelete (name : String)
  | nioCreateTap (name tap : String)
  | slotAddNioBinding (vmName : String) (slot : Nat) (port : Int) (nio : String)
  | vmStart (vmName : String)
  | vmStop (vmName : String)
  | vmDelete (vmName : String)
  | vmCleanDelete (vmName : String)
deriving DecidableEq, Repr

/-- The fields of a template the launcher reads; `ram` and `disk0` are `none` where `int` raises. -/
structure DynamipsTemplate where
  platform : DynamipsPlatform
  ram : Option Int
  disk0 : Option Int
  npe : Option String
  slots : SlotMap

/-- What the host and the hypervisor answer. -/
structure DynamipsHost where
  imagePath : Option String
  idlePc : Option String
  consolePort : Option Nat
  vmId : Nat
  hypervisorUp : Bool
  workDir : Bool
  refuses : DynamipsCommand → Bool
  bridgeExists : String → Bool
  tap : Int → String → Option String
  launcherRecordWritten : Bool
  proxy : Option Nat
  runtimeWritten : Bool

/-- The named NIOs of the hypervisor, and those that were created since the start began. -/
structure NioTable where
  present : List String
  created : List String

/-- A request that concerns no NIO. -/
def DynamipsHost.accepts (host : DynamipsHost) (command : DynamipsCommand) : Bool :=
  !host.refuses command

/-- `nio delete`; a NIO that is not there is refused, and the launcher goes on. -/
def NioTable.delete (nios : NioTable) (name : String) : NioTable :=
  { nios with present := nios.present.filter (fun other => decide (other ≠ name)) }

/-- `nio create_tap`; `none` when it is refused, as it is for a name that is taken. -/
def NioTable.create (host : DynamipsHost) (nios : NioTable) (name tap : String) : Option NioTable :=
  if nios.present.contains name || host.refuses (.nioCreateTap name tap) then none
  else some { present := name :: nios.present, created := nios.created ++ [name] }

def vmNameOf (labId : String) (nodeId : Int) : String :=
  String.ofList ("nv_".toList ++ labId.toList ++ "_n".toList ++ intText nodeId)

/-- `_nio_name`. -/
def nioName (labId : String) (nodeId interfaceIndex : Int) : String :=
  String.ofList ("nv_".toList ++ labId.toList ++ "_n".toList ++ intText nodeId ++ "_i".toList ++
    intText interfaceIndex)

def DynamipsPlatform.defaultNpe : DynamipsPlatform → Option String
  | .c3725 => none
  | .c7200 => some "npe-400"

/-- `vm set_npe`, for a c7200 only. -/
def npeCommands (template : DynamipsTemplate) (vmName : String) : List DynamipsCommand :=
  let chosen := if template.npe.getD "" = "" then template.platform.defaultNpe else template.npe
  match template.platform, chosen with
  | .c7200, some npe => [.setNpe vmName npe]
  | _, _ => []

/-- The commands before the flash is sized. -/
def machineCommands (template : DynamipsTemplate) (vmName image idlePc : String) (consolePort : Nat)
    (ram : Int) : List DynamipsCommand :=
  [.setRam vmName ram, .setIos vmName image, .setIdlePc vmName idlePc,
    .setConTcpPort vmName consolePort] ++ npeCommands template vmName

/-- The bindings of the slots; slot 0 of a c3725 is bound already. -/
def slotCommands (platform : DynamipsPlatform) (vmName : String) (inventory : SlotInventory) :
    List DynamipsCommand :=
  (inventory.filter (fun entry => !(entry.1 == 0 && platform == .c3725))).map
    (fun entry => .slotAddBinding vmName entry.1 entry.2)

/-- The configuration of the machine up to its slots; none of it concerns a NIO. -/
def configureVm (host : DynamipsHost) (template : DynamipsTemplate)
    (vmName image idlePc : String) (consolePort : Nat) : Option SlotInventory :=
  match template.ram with
  | none => none
  | some ram =>
    if !(machineCommands template vmName image idlePc consolePort ram).all host.accepts then none
    else
      match template.disk0 with
      | none => none
      | some mb =>
        if !host.accepts (.setDisk0 vmName mb) then none
        else
          match buildSlotInventory template.platform template.slots with
          | .error _ => none
          | .ok inventory =>
            if (slotCommands template.platform vmName inventory).all host.accepts then some inventory
            else none

/-- `tap_names` and `nio_names`. -/
structure Wired where
  taps : List String := []
  nios : List String := []

/-- The TAP and NIO wiring of `start_node`; `none` when a step raises. -/
def wireAttachments (host : DynamipsHost) (labId : String) (nodeId : Int)
    (inventory : SlotInventory) :
    List BootAttachment → Wired → NioTable → Option Wired × NioTable
  | [], done, nios => (some done, nios)
  | attachment :: rest, done, nios =>
    match resolveSlotPort inventory attachment.interfaceIndex with
    | .error _ => (none, nios)
    | .ok (slotIdx, portInSlot) =>
      match host.tap attachment.interfaceIndex attachment.bridgeName with
      | none => (none, nios)
      | some tap =>
        let name := nioName labId nodeId attachment.interfaceIndex
        match (nios.delete name).create host name tap with
        | none => (none, nios.delete name)
        | some nios =>
          if host.refuses (.slotAddNioBinding (vmNameOf labId nodeId) slotIdx portInSlot name) then
            (none, nios)
          else
            wireAttachments host labId nodeId inventory rest
              { taps := done.taps ++ [tap], nios := done.nios ++ [name] } nios

/-- The fields of a runtime record that `stop_node` reads. -/
structure DynamipsRuntime where
  labId : String
  nodeId : Int
  vmName : String
  tapNames : List String
  nioNames : Option (List String)

/-- The machine is created; nothing of this concerns a NIO. -/
def createVm (host : DynamipsHost) (template : DynamipsTemplate) (vmName : String) :
    Option (String × String × Nat) := do
  let image ← host.imagePath
  let idlePc ← host.idlePc
  let consolePort ← host.consolePort
  if host.hypervisorUp && host.workDir && host.accepts .workingDir &&
      host.accepts (.vmCreate vmName host.vmId template.platform) then
    some (image, idlePc, consolePort)
  else none

/-- `DynamipsLauncher.start_node`; what fails after `vm create` is purged with `vm clean_delete`, which
leaves the NIOs as they are. -/
def launcherStartNode (host : DynamipsHost) (template : DynamipsTemplate) (labId : String)
    (nodeId : Int) (attachments : List BootAttachment) (nios : NioTable) :
    Option DynamipsRuntime × NioTable :=
  let vmName := vmNameOf labId nodeId
  match createVm host template vmName with
  | none => (none, nios)
  | some (image, idlePc, consolePort) =>
    match configureVm host template vmName image idlePc consolePort with
    | none => (none, nios)
    | some inventory =>
      match wireAttachments host labId nodeId inventory attachments {} nios with
      | (none, nios) => (none, nios)
      | (some wired, nios) =>
        if !host.accepts (.vmStart vmName) then (none, nios)
        else if !host.launcherRecordWritten then (none, nios)
        else
          (some { labId := labId, nodeId := nodeId, vmName := vmName, tapNames := wired.taps
                  nioNames := some wired.nios }, nios)

/-- `DynamipsLauncher.stop_node`: stop and delete concern no NIO and their errors are swallowed. -/
def launcherStopNode (runtime : DynamipsRuntime) (nios : NioTable) : NioTable :=
  let kept := runtime.nioNames.getD []
  let names :=
    if kept = [] then
      if runtime.labId = "" then []
      else (List.range runtime.tapNames.length).map
        (fun (idx : Nat) => nioName runtime.labId runtime.nodeId idx)
    else kept
  names.foldl NioTable.delete nios

/-- `_start_dynamips_node`, and the record `start_node` writes of what it returns; `_lab_id` refuses an
empty id. -/
def startDynamipsNode (host : DynamipsHost) (template : DynamipsTemplate) (labId : String)
    (nodeId : Int) (attachments : List BootAttachment) (nios : NioTable) :
    Option DynamipsRuntime × NioTable :=
  if labId = "" then (none, nios)
  else if !attachments.all (fun attachment => host.bridgeExists attachment.bridgeName) then
    (none, nios)
  else
    match launcherStartNode host template labId nodeId attachments nios with
    | (none, nios) => (none, nios)
    | (some record, nios) =>
      match host.proxy with
      | none => (none, launcherStopNode record nios)
      | some _ =>
        if !host.runtimeWritten then (none, nios)
        else (some { record with nioNames := none }, nios)

/-- The attachments of a node: one for an interface index. -/
structure NodeAttachments where
  list : List BootAttachment
  distinct : (list.map BootAttachment.interfaceIndex).Nodup

/-- No NIO that was created is there any more. -/
def NioTable.Balanced (nios : NioTable) : Prop := ∀ name ∈ nios.created, name ∉ nios.present

/-- After a start that fails, and after one that does not and a stop through the stored record, no NIO
that the start created is left. -/
def NiosBalance (host : DynamipsHost) (template : DynamipsTemplate) (labId : String) (nodeId : Int)
    (attachments : NodeAttachments) (present : List String) : Prop :=
  match startDynamipsNode host template labId nodeId attachments.list ⟨present, []⟩ with
  | (none, nios) => nios.Balanced
  | (some runtime, nios) => (launcherStopNode runtime nios).Balanced

/-- The inventory the machine is wired by, when it gets so far. -/
def configuredSlots (host : DynamipsHost) (template : DynamipsTemplate) (labId : String)
    (nodeId : Int) : Option SlotInventory :=
  (createVm host template (vmNameOf labId nodeId)).bind fun made =>
    configureVm host template (vmNameOf labId nodeId) made.1 made.2.1 made.2.2

/-- The NIO of an attachment is created: its index has a port, its TAP comes up and the command is
accepted. -/
def CreatesNio (host : DynamipsHost) (labId : String) (nodeId : Int) (inventory : SlotInventory)
    (attachment : BootAttachment) : Prop :=
  ∃ slot port tap, resolveSlotPort inventory attachment.interfaceIndex = .ok (slot, port) ∧
    host.tap attachment.interfaceIndex attachment.bridgeName = some tap ∧
      host.refuses (.nioCreateTap (nioName labId nodeId attachment.interfaceIndex) tap) = false

/-- The NIO of an attachment is created and bound. -/
def WiresNio (host : DynamipsHost) (labId : String) (nodeId : Int) (inventory : SlotInventory)
    (attachment : BootAttachment) : Prop :=
  ∃ slot port tap, resolveSlotPort inventory attachment.interfaceIndex = .ok (slot, port) ∧
    host.tap attachment.interfaceIndex attachment.bridgeName = some tap ∧
      host.refuses (.nioCreateTap (nioName labId nodeId attachment.interfaceIndex) tap) = false ∧
        host.refuses (.slotAddNioBinding (vmNameOf labId nodeId) slot port
          (nioName labId nodeId attachment.interfaceIndex)) = false

/-- Everything up to the record of the launcher succeeds. -/
def LauncherSucceeds (host : DynamipsHost) (template : DynamipsTemplate) (labId : String)
    (nodeId : Int) (attachments : NodeAttachments) : Prop :=
  ∃ inventory, configuredSlots host template labId nodeId = some inventory ∧
    (∀ attachment ∈ attachments.list, WiresNio host labId nodeId inventory attachment) ∧
      host.refuses (.vmStart (vmNameOf labId nodeId)) = false ∧ host.launcherRecordWritten = true

/-- The NIO of the first attachment is created. -/
def CreatesFirst (host : DynamipsHost) (template : DynamipsTemplate) (labId : String)
    (nodeId : Int) (attachments : NodeAttachments) : Prop :=
  ∃ inventory first rest, configuredSlots host template labId nodeId = some inventory ∧
    attachments.list = first :: rest ∧ CreatesNio host labId nodeId inventory first

/-- When the NIOs balance: none is created, or only the console proxy fails, or nothing fails and the
indices are below the number of attachments. -/
def NiosSafe (host : DynamipsHost) (template : DynamipsTemplate) (labId : String) (nodeId : Int)
    (attachments : NodeAttachments) : Prop :=
  labId = "" ∨ (∃ attachment ∈ attachments.list, host.bridgeExists attachment.bridgeName = false) ∨
    ¬ CreatesFirst host template labId nodeId attachments ∨
      (LauncherSucceeds host template labId nodeId attachments ∧
        (host.proxy = none ∨ (host.runtimeWritten = true ∧ ∀ attachment ∈ attachments.list,
          0 ≤ attachment.interfaceIndex ∧
            attachment.interfaceIndex < attachments.list.length)))

end NovaVe
