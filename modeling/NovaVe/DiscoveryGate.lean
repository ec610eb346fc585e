import NovaVe.Discovery
import NovaVe.HubReplay
import NovaVe.Runs
import NovaVe.WsChannel
import NovaVe.WsDelivery

namespace NovaVe

/-- What a publisher passes to the hub: an event of a discovery cycle, with the number of the
cycle, or an event of another kind. -/
inductive LabPayload
  | discovery (cycle : Nat) (event : DiscoveryEvent)
  | other
deriving DecidableEq, Repr

/-- A name as `_bridge_members_sync` returns it. -/
abbrev MemberName := {name : List Char // name ≠ []}

/-- A running `_discover_lab` and the events it has still to publish. -/
structure DiscoveryCycle where
  labId : String
  number : Nat
  events : List DiscoveryEvent

/-- A message of `lab_ws`. The snapshot goes with the number of cycles started when it was taken. -/
inductive GateFrame
  | hello (seq : Nat)
  | forceResnapshot
  | event (event : WsEvent LabPayload)
  | topology (seq generation taken : Nat)

/-- One connection of the client. -/
structure GateConn where
  phase : Phase LabPayload
  pending : List (WsEvent LabPayload) := []
  wire : List GateFrame := []

inductive LinkReconciliation
  | discovered (iface : List Char) (networkId : Int) (bridge : String) (peerNodeId : Option Int)
      (peerInterfaceIndex : Option Nat)
  | divergent (linkId : String)
deriving DecidableEq, Repr

/-- The client of a lab: the number it stores, the generation of its snapshot, and its
reconciliation store with the cycle each record comes from. -/
structure LabWsStores where
  lastSeq : Nat := 0
  lastTopologyGeneration : Int := -1
  linkReconciliation : Dict String (LinkReconciliation × Nat) := Dict.empty
  taken : Option Nat := none

/-- What both handlers end with. The epochs they compare are equal, for nothing runs between the
two reads. -/
def LabWsStores.storeReconciliation (client : LabWsStores) (generation : Nat) (key : String)
    (next : LinkReconciliation × Nat) : LabWsStores :=
  if (generation : Int) ≤ client.lastTopologyGeneration then client
  else { client with linkReconciliation := client.linkReconciliation.set key next }

/-- The handler of `discovered_link`. -/
def LabWsStores.onDiscoveredLink (client : LabWsStores) (cycle : Nat) (networkId : Int)
    (bridge : String) (iface : List Char) (peerNodeId : Option Int) (generation : Nat) :
    LabWsStores :=
  if iface = [] then client
  else
    client.storeReconciliation generation ("iface:" ++ String.ofList iface)
      (.discovered iface networkId bridge peerNodeId (parseIfaceInterfaceIndex iface), cycle)

/-- The handler of `link_divergent`. -/
def LabWsStores.onLinkDivergent (client : LabWsStores) (cycle : Nat) (linkId : String)
    (generation : Nat) : LabWsStores :=
  if linkId = "" then client
  else client.storeReconciliation generation ("link:" ++ linkId) (.divergent linkId, cycle)

def LabWsStores.reconcile (client : LabWsStores) (cycle : Nat) : DiscoveryEvent → LabWsStores
  | .discoveredLink networkId bridge iface peerNodeId generation =>
    client.onDiscoveredLink cycle networkId bridge iface peerNodeId generation
  | .linkDivergent l generation => client.onLinkDivergent cycle l.id generation

def DiscoveryEvent.type : DiscoveryEvent → String
  | .discoveredLink .. => "discovered_link"
  | .linkDivergent .. => "link_divergent"

def DiscoveryEvent.generation : DiscoveryEvent → Nat
  | .discoveredLink _ _ _ _ generation => generation
  | .linkDivergent _ generation => generation

/-- Where the store keeps an event, and what it keeps of it. -/
def DiscoveryEvent.key : DiscoveryEvent → String
  | .discoveredLink _ _ iface _ _ => "iface:" ++ String.ofList iface
  | .linkDivergent l _ => "link:" ++ l.id

def DiscoveryEvent.record : DiscoveryEvent → LinkReconciliation
  | .discoveredLink networkId bridge iface peerNodeId _ =>
    .discovered iface networkId bridge peerNodeId (parseIfaceInterfaceIndex iface)
  | .linkDivergent l _ => .divergent l.id

/-- The event names an interface or a link. -/
def DiscoveryEvent.Named : DiscoveryEvent → Prop
  | .discoveredLink _ _ iface _ _ => iface ≠ []
  | .linkDivergent l _ => l.id ≠ ""

/-- The handler of `lab_topology`. -/
def LabWsStores.onLabTopology (client : LabWsStores) (generation taken : Nat) : LabWsStores :=
  { client with
    lastTopologyGeneration := generation
    linkReconciliation := Dict.empty
    taken := some taken }

/-- `handleMessage` and the handlers it calls. -/
def LabWsStores.handleMessage (client : LabWsStores) : GateFrame → LabWsStores
  | .hello seq => { client with lastSeq := seq }
  | .forceResnapshot => client
  | .event e =>
    let seen := { client with lastSeq := e.seq }
    match e.payload with
    | .discovery cycle event => seen.reconcile cycle event
    | .other => seen
  | .topology seq generation taken =>
    let seen := { client with lastSeq := seq }
    seen.onLabTopology generation taken

def LabWsStores.deleteReconciliation (client : LabWsStores) (key : String) : LabWsStores :=
  { client with linkReconciliation := client.linkReconciliation.pop key }

/-- The server, and a client of the channel of one lab with its connections. -/
structure Gate where
  generations : Dict String Nat := Dict.empty
  started : List String := []
  cycles : List DiscoveryCycle := []
  hub : Hub LabPayload := {}
  conns : List GateConn := []
  client : LabWsStores := {}

/-- What the handler of a connection and the publishers that owe it an event do next. -/
inductive ConnAction
  | send (index : Nat)
  | hello
  | replay
  | sendReplay
  | snapshot (readOk : Bool)
  | subscribe

inductive GateAction
  | startCycle (stored : StoredLab) (data : Lab) (members : String → List MemberName)
  | publish (cycle : Nat)
  | publishOther (labId type rev : String)
  | connect
  | serve (conn : Nat) (action : ConnAction)
  | deliver (conn : Nat)
  | deleteReconciliation (key : String)
  | disconnect (conn : Nat)

/-- A publisher owes a send to the subscribers it found under the lock. -/
def GateConn.owe (event : WsEvent LabPayload) (c : GateConn) : GateConn :=
  match c.phase with
  | .live => { c with pending := c.pending ++ [event] }
  | _ => c

def Gate.publish (lab : String) (s : Gate) (labId type rev : String) (payload : LabPayload) :
    Gate :=
  let published := s.hub.publish labId type rev payload
  { s with
    hub := published.1
    conns := if labId = lab then s.conns.map (GateConn.owe published.2) else s.conns }

/-- The start of `_discover_lab`, up to its first `await`. -/
def Gate.startCycle (labHash : String → Fin 65536) (s : Gate) (stored : StoredLab) (data : Lab)
    (members : String → List MemberName) : Gate :=
  let generations := bumpDiscoveryGeneration s.generations stored
  let generation := getDiscoveryGeneration generations stored.labId
  let names := fun bridge => (members bridge).map Subtype.val
  { s with
    generations
    started := s.started ++ [stored.labId]
    cycles := s.cycles ++
      [{ labId := stored.labId
         number := s.started.length
         events := discoverLab (labHash stored.labId) names generation data }] }

/-- One step of `lab_ws`, or of a send that a publisher owes. -/
def serveStep (lab : String) (s : Gate) (c : GateConn) : ConnAction → Option GateConn
  | .send index =>
    match c.pending[index]? with
    | some event => some { c with pending := c.pending.eraseIdx index
                                  wire := c.wire ++ [.event event] }
    | none => none
  | .hello =>
    match c.phase with
    | .accepted lastSeq => some { c with phase := .greeted lastSeq
                                         wire := c.wire ++ [.hello (s.hub.headSeq lab)] }
    | _ => none
  | .replay =>
    match c.phase with
    | .greeted lastSeq =>
      match s.hub.replaySince lab lastSeq with
      | (_, true) => some { c with phase := .resnapshotting, wire := c.wire ++ [.forceResnapshot] }
      | (events, false) => some { c with phase := .replaying events }
    | _ => none
  | .sendReplay =>
    match c.phase with
    | .replaying (event :: rest) => some { c with phase := .replaying rest
                                                  wire := c.wire ++ [.event event] }
    | _ => none
  | .snapshot readOk =>
    match c.phase with
    | .resnapshotting =>
      -- the file, the number and the generation are read with no `await` between them
      let frames :=
        if readOk then
          [GateFrame.topology (s.hub.headSeq lab) (getDiscoveryGeneration s.generations lab)
            s.started.length]
        else []
      some { c with phase := .replaying [], wire := c.wire ++ frames }
    | _ => none
  | .subscribe =>
    match c.phase with
    | .replaying [] => some { c with phase := .live }
    | _ => none

/-- One step of the discovery, of another publisher, of a connection or of the client, which has
opened the channel `lab`. -/
def gateStep (labHash : String → Fin 65536) (lab : String) (s : Gate) : GateAction → Option Gate
  | .startCycle stored data members =>
    if stored.labId = "" then none else some (s.startCycle labHash stored data members)
  | .publish index =>
    match s.cycles[index]? with
    | none => none
    | some cycle =>
      match cycle.events with
      | [] => none
      | event :: rest =>
        let before := { s with cycles := s.cycles.set index { cycle with events := rest } }
        some (before.publish lab cycle.labId event.type "" (.discovery cycle.number event))
  | .publishOther labId type rev => some (s.publish lab labId type rev .other)
  | .connect => some { s with conns := s.conns ++ [{ phase := .accepted s.client.lastSeq }] }
  | .serve index action =>
    match s.conns[index]? with
    | none => none
    | some c => (serveStep lab s c action).map (fun c' => { s with conns := s.conns.set index c' })
  | .deliver index =>
    match s.conns[index]? with
    | none => none
    | some c =>
      match c.wire with
      | [] => none
      | frame :: rest =>
        some { s with conns := s.conns.set index { c with wire := rest }
                      client := s.client.handleMessage frame }
  | .deleteReconciliation key => some { s with client := s.client.deleteReconciliation key }
  | .disconnect index => some { s with conns := s.conns.eraseIdx index }

def GateStep (labHash : String → Fin 65536) (lab : String) : Gate → GateAction → Gate → Prop :=
  fun s action t => gateStep labHash lab s action = some t

/-- Since the snapshot that the client applied last, its store holds only what later cycles of the
lab reported, and the event of a later cycle that comes in is stored. -/
structure GateHolds (lab : String) (s : Gate) : Prop where
  fresh : ∀ taken, s.client.taken = some taken → ∀ key record number,
    s.client.linkReconciliation.get? key = some (record, number) →
      s.started[number]? = some lab ∧ taken ≤ number
  admitted : ∀ taken, s.client.taken = some taken → ∀ c ∈ s.conns, ∀ e rest,
    c.wire = .event e :: rest → ∀ number event, e.payload = .discovery number event →
      taken ≤ number →
        (s.client.handleMessage (.event e)).linkReconciliation.get? event.key =
          some (event.record, number)

end NovaVe
