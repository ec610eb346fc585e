import NovaVe.Effects
import NovaVe.NetworkService

namespace NovaVe

/-- What a step on the host or in QEMU may raise. -/
inductive Exc
  | runtime (message : String)
  | qmpTimeout
  | hostNetEinval
  | hostNet
  | contention (nodeId : Int)
  | other
deriving DecidableEq, Repr

/-- `NodeRuntimeError`; the QMP timeout is one. -/
def Exc.isRuntime : Exc → Bool
  | .runtime _ | .qmpTimeout => true
  | _ => false

/-- `HostNetError`; `HostNetEINVAL` is one. -/
def Exc.isHostNet : Exc → Bool
  | .hostNetEinval | .hostNet => true
  | _ => false

/-- The host end of an interface, by what its generated name stands for. -/
inductive Port
  | tap (nodeId interfaceIndex : Int)
  | veth (nodeId interfaceIndex : Int)
deriving DecidableEq, Repr

def Port.nodeId : Port → Int
  | .tap nodeId _ | .veth nodeId _ => nodeId

structure PortState where
  master : Option String := none
  up : Bool := false
deriving DecidableEq, Repr

structure Host where
  bridges : List String := []
  ports : Dict Port PortState := Dict.empty
  /-- The guest-visible carrier of `net{index}` of a node. -/
  carrier : Dict (Int × Int) Bool := Dict.empty
deriving DecidableEq

/-- A command to the privileged helper, to QMP, to a node mutex or to a node's process. -/
inductive HostCall
  | nodeMutex (nodeId : Int)
  | bridgeExists (bridge : String)
  | bridgeAdd (bridge : String)
  | bridgeDel (bridge : String)
  | fingerprintWrite (bridge : String)
  | bridgeUp (bridge : String)
  | tapExists (port : Port)
  | tapAdd (port : Port)
  | tapDel (port : Port)
  | linkDel (port : Port)
  | vethPairAdd (port : Port)
  | linkMaster (port : Port) (bridge : String)
  | linkNomaster (port : Port)
  | linkUp (port : Port)
  | linkNetns (port : Port)
  | renameInNetns (port : Port)
  | addrUpInNetns (port : Port)
  | setLink (nodeId interfaceIndex : Int) (up : Bool)
  | netdevAdd (nodeId interfaceIndex : Int)
  | netdevDel (nodeId interfaceIndex : Int)
  | deviceAdd (nodeId interfaceIndex slot : Int)
  | deviceDel (nodeId interfaceIndex : Int)
  | queryPci (nodeId : Int)
  | spawn (nodeId : Int)
  | registerPid (nodeId : Int)
  | halt (nodeId : Int)
  | sweepNode (nodeId : Int)
deriving DecidableEq, Repr

def Host.editPort (host : Host) (port : Port) (f : PortState → PortState) : Host :=
  { host with ports := host.ports.modify port f }

/-- Deleting a bridge frees its ports. -/
def Host.dropBridge (host : Host) (bridge : String) : Host :=
  { host with
    bridges := host.bridges.filter (fun b => decide (b ≠ bridge))
    ports := host.ports.mapValues (fun state =>
      if state.master = some bridge then { state with master := none } else state) }

/-- What a command changes when it goes through. -/
def HostCall.effect : HostCall → Host → Host
  | .bridgeAdd bridge, host =>
    { host with bridges := if bridge ∈ host.bridges then host.bridges else host.bridges ++ [bridge] }
  | .bridgeDel bridge, host => host.dropBridge bridge
  | .tapAdd port, host | .vethPairAdd port, host =>
    { host with ports := host.ports.set port {} }
  | .tapDel port, host | .linkDel port, host => { host with ports := host.ports.pop port }
  | .linkMaster port bridge, host =>
    host.editPort port (fun state => { state with master := some bridge })
  | .linkNomaster port, host => host.editPort port (fun state => { state with master := none })
  | .linkUp port, host => host.editPort port (fun state => { state with up := true })
  | .sweepNode nodeId, host =>
    { host with ports := host.ports.filterKeys (fun port => decide (port.nodeId ≠ nodeId)) }
  | .setLink nodeId interfaceIndex up, host =>
    { host with carrier := host.carrier.set (nodeId, interfaceIndex) up }
  | _, host => host

/-- How a command ends: it may raise, with or without having gone through; a QMP reply may be an
error, and `query-pci` tells the occupied slots and whether the device in question is there. -/
structure Reply where
  raised : Option Exc := none
  applied : Bool := true
  qmpError : Bool := false
  deviceNotFound : Bool := false
  occupied : List Int := []
  devicePresent : Bool := false
deriving DecidableEq, Repr

inductive RuntimeKind
  | docker | qemu | other
deriving DecidableEq, Repr

def RuntimeKind.name : RuntimeKind → String
  | .docker => "docker"
  | .qemu => "qemu"
  | .other => "other"

/-- An entry of `interface_attachments`; `port` is its `tap_name` or `host_end`. -/
structure Attachment where
  interfaceIndex : Int
  networkId : Int
  bridgeName : String
  port : Option Port := none
  slot : Option Int := none
  bootNic : Bool := false
  nicModel : Option String := none
  attachGeneration : Option Int := none
  plannedMac : Option String := none
deriving DecidableEq, Repr

/-- A runtime record, with the fields the link code reads; `alive` is whether its process is. -/
structure NodeRuntime where
  kind : RuntimeKind
  alive : Bool := true
  hasPid : Bool := true
  qmpSocket : Bool := true
  hotplugCapable : Bool := false
  bootEthernet : Int := 0
  maxNics : Int := 8
  allocatedSlots : List Int := []
  tapNames : List Port := []
  vethHostEnds : List Port := []
  attachments : List Attachment := []
  generations : Dict Int Int := Dict.empty
deriving DecidableEq

/-- What the runtime code works on: the registry, the host, how the coming commands will end, the
commands given so far, the `node_warning` events and the planned MACs it asked to persist. -/
structure World where
  runtimes : Dict Int NodeRuntime := Dict.empty
  host : Host := {}
  replies : List Reply := []
  trace : List HostCall := []
  warnings : List (Int × Int) := []
  plannedMacs : List (Int × Int × String) := []

abbrev HostM : Type → Type := EStateM Exc World

/-- Give a command: the next reply says how it ends, and without one it goes through. -/
def call (command : HostCall) : HostM Reply := do
  let w ← get
  let reply := w.replies.headD {}
  set { w with
    replies := w.replies.tail
    trace := w.trace ++ [command]
    host := if reply.applied then command.effect w.host else w.host }
  match reply.raised with
  | some e => throw e
  | none => pure reply

/-- The world after a command, however it ended. -/
def World.after (w : World) (command : HostCall) : World :=
  { w with
    replies := w.replies.tail
    trace := w.trace ++ [command]
    host := if (w.replies.headD {}).applied then command.effect w.host else w.host }

theorem ends_call (command : HostCall) (w : World) (returns : Reply → World → Prop)
    (raises : Exc → World → Prop) :
    Ends (call command) w returns raises ↔
      match (w.replies.headD {}).raised with
      | some e => raises e (w.after command)
      | none => returns (w.replies.headD {}) (w.after command) := by
  simp only [call, ends_bind, ends_get, ends_set]
  cases hr : (w.replies.headD {}).raised with
  | none => simp only [ends_pure]; exact Iff.rfl
  | some e => simp only [ends_throw]; exact Iff.rfl

def run (command : HostCall) : HostM Unit := do
  let _ ← call command
  pure ()

theorem ends_run (command : HostCall) (w : World) (returns : Unit → World → Prop)
    (raises : Exc → World → Prop) :
    Ends (run command) w returns raises ↔
      match (w.replies.headD {}).raised with
      | some e => raises e (w.after command)
      | none => returns () (w.after command) := by
  simp only [run, ends_bind, ends_call, ends_pure]

/-- Without a reply to the contrary a command goes through. -/
theorem ends_run_done {w : World} (h : w.replies = []) (command : HostCall)
    (returns : Unit → World → Prop) (raises : Exc → World → Prop) :
    Ends (run command) w returns raises ↔ returns () (w.after command) := by
  rw [ends_run, h]
  exact Iff.rfl

theorem World.after_replies {w : World} (h : w.replies = []) (command : HostCall) :
    (w.after command).replies = [] := by
  simp [World.after, h]

theorem World.after_host {w : World} (h : w.replies = []) (command : HostCall) :
    (w.after command).host = command.effect w.host := by
  simp [World.after, h]

@[simp] theorem World.after_runtimes (w : World) (command : HostCall) :
    (w.after command).runtimes = w.runtimes := rfl

def bridgeExists (bridge : String) : HostM Bool := do
  run (.bridgeExists bridge)
  let w ← get
  pure (decide (bridge ∈ w.host.bridges))

/-- A command that only looks leaves the host as it is. -/
theorem World.after_look {w : World} {c : HostCall} (h : ∀ host, c.effect host = host) :
    (w.after c).host = w.host := by
  unfold World.after
  dsimp only
  rw [h, ite_self]

theorem ends_bridgeExists (bridge : String) (w : World) (returns : Bool → World → Prop)
    (raises : Exc → World → Prop) :
    Ends (bridgeExists bridge) w returns raises ↔
      match (w.replies.headD {}).raised with
      | some e => raises e (w.after (.bridgeExists bridge))
      | none => returns (decide (bridge ∈ w.host.bridges)) (w.after (.bridgeExists bridge)) := by
  unfold bridgeExists
  simp only [ends_bind, ends_run, ends_get, ends_pure,
    World.after_look (c := .bridgeExists bridge) (fun _ => rfl)]

def tapExists (port : Port) : HostM Bool := do
  run (.tapExists port)
  let w ← get
  pure (w.host.ports.get? port).isSome

/-- `link_master_any`: a host-owned bridge is refused unless the driver says so. -/
def linkMasterAny (port : Port) (bridge : String) (driver : Option String) : HostM Unit :=
  if isHostBridgeName bridge ∧ driver ≠ some "bridge_cloud" then throw .hostNet
  else run (.linkMaster port bridge)

/-- `bridge_del` refuses the host-owned bridges. -/
def bridgeDel (bridge : String) : HostM Unit :=
  if isHostBridgeName bridge then throw .hostNet else run (.bridgeDel bridge)

/-- `try_link_del`: only a `HostNetError` is dropped. -/
def tryLinkDel (port : Port) : HostM Unit :=
  tryCatch (run (.linkDel port)) (fun e => if e.isHostNet then pure () else throw e)

/-- `_runtime_record`: the record of a dead process is deleted on the way, unless it is wanted. -/
def runtimeRecord (nodeId : Int) (includeStopped : Bool) : HostM (Option NodeRuntime) := do
  let w ← get
  match w.runtimes.get? nodeId with
  | none => pure none
  | some runtime =>
    if includeStopped || runtime.alive then pure (some runtime)
    else do
      modify (fun w => { w with runtimes := w.runtimes.pop nodeId })
      pure none

@[simp] theorem ends_runtimeRecord (nodeId : Int) (includeStopped : Bool) (w : World)
    (returns : Option NodeRuntime → World → Prop) (raises : Exc → World → Prop) :
    Ends (runtimeRecord nodeId includeStopped) w returns raises ↔
      match w.runtimes.get? nodeId with
      | none => returns none w
      | some runtime =>
        if includeStopped || runtime.alive then returns (some runtime) w
        else returns none { w with runtimes := w.runtimes.pop nodeId } := by
  unfold runtimeRecord
  rw [ends_bind, ends_get]
  cases w.runtimes.get? nodeId with
  | none => exact Iff.rfl
  | some runtime =>
    dsimp only
    cases includeStopped || runtime.alive with
    | true => exact Iff.rfl
    | false => exact Iff.rfl

def World.editRuntime (w : World) (nodeId : Int) (f : NodeRuntime → NodeRuntime) : World :=
  { w with runtimes := w.runtimes.modify nodeId f }

def editRuntime (nodeId : Int) (f : NodeRuntime → NodeRuntime) : HostM Unit :=
  modify (fun w => w.editRuntime nodeId f)

@[simp] theorem ends_editRuntime (nodeId : Int) (f : NodeRuntime → NodeRuntime) (w : World)
    (returns : Unit → World → Prop) (raises : Exc → World → Prop) :
    Ends (editRuntime nodeId f) w returns raises ↔ returns () (w.editRuntime nodeId f) := Iff.rfl

/-- `_interface_attach_generation`. -/
def NodeRuntime.generation (runtime : NodeRuntime) (interfaceIndex : Int) : Int :=
  (runtime.generations.get? interfaceIndex).getD 0

/-- `_bump_interface_attach_generation`. -/
def NodeRuntime.bump (runtime : NodeRuntime) (interfaceIndex : Int) : NodeRuntime :=
  { runtime with
    generations := runtime.generations.set interfaceIndex (runtime.generation interfaceIndex + 1) }

def onInterface (interfaceIndex : Int) (entry : Attachment) : Bool :=
  decide (entry.interfaceIndex = interfaceIndex)

/-- The first attachment entry of an interface. -/
def NodeRuntime.attachment? (runtime : NodeRuntime) (interfaceIndex : Int) : Option Attachment :=
  runtime.attachments.find? (onInterface interfaceIndex)

def addPort (ports : List Port) (port : Port) : List Port :=
  if port ∈ ports then ports else ports ++ [port]

end NovaVe
