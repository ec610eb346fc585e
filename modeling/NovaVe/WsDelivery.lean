import NovaVe.Runs
import NovaVe.WsHub

namespace NovaVe

/-- The event types whose change is in `lab.json` when they are published. -/
def isLabJsonEvent (type : String) : Bool :=
  type ∈ ["link_created", "link_updated", "link_deleted", "network_created", "network_promoted",
    "network_updated", "network_deleted", "interface_updated", "layout_updated",
    "node_status_reconciled"]

/-- A message on its way to the client. -/
inductive Frame (α : Type)
  | hello (seq : Nat)
  | forceResnapshot
  | data (item : Item (WsEvent α))
deriving DecidableEq

def Frame.item? {α : Type} : Frame α → Option (Item (WsEvent α))
  | .data item => some item
  | _ => none

/-- Where `lab_ws` stands: before and after the hello, between `force_resnapshot` and the reading
of `lab.json`, before the end of the replay, and subscribed. -/
inductive Phase (α : Type)
  | accepted (lastSeq : Nat)
  | greeted (lastSeq : Nat)
  | resnapshotting
  | replaying (events : List (WsEvent α))
  | live
deriving DecidableEq

def Phase.isReplaying {α : Type} : Phase α → Bool
  | .replaying _ => true
  | _ => false

def Phase.isResnapshotting {α : Type} : Phase α → Bool
  | .resnapshotting => true
  | _ => false

/-- What a greeted client asks for. -/
def Phase.asked? {α : Type} : Phase α → Option Nat
  | .greeted lastSeq => some lastSeq
  | _ => none

/-- One connection: the handler, the sends that publishers still owe it, the frames in flight. -/
structure Conn (α : Type) where
  phase : Phase α
  pending : List (WsEvent α) := []
  wire : List (Frame α) := []
deriving DecidableEq

/-- The hub, one client with its open sockets in the order in which it opened them, and `lab.json`
as the list of the events whose change it holds. `held` says that the client's `socket` is the last
of these, `closing` how many close events are still to come. What the lifetime published and what
the handlers of the client saw in it are kept along, and what earlier lifetimes published in vain. -/
structure Delivery (α : Type) where
  hub : LabState α := {}
  labJson : List (WsEvent α) := []
  conns : List (Conn α) := []
  held : Bool := false
  closing : Nat := 0
  storedSeq : Nat := 0
  log : List (WsEvent α) := []
  applied : List (Item (WsEvent α)) := []
  lost : List (WsEvent α) := []

/-- A step of the server's handler of one connection, or of a publisher that owes it a send. -/
inductive HandlerAction
  | send (index : Nat)
  | hello
  | replay
  | sendReplay
  | snapshot (readOk : Bool)
  | subscribe

/-- `stopped` takes an open socket out of use, whoever closes it; `closed` is the close event that
comes later. -/
inductive DeliveryAction (α : Type)
  | publish (type rev : String) (payload : α)
  | openSocket
  | serve (index : Nat) (action : HandlerAction)
  | deliver (index : Nat)
  | stopped (index : Nat)
  | closed
  | restart

instance {α : Type} [DecidableEq α] (e : WsEvent α) (item : Item (WsEvent α)) :
    Decidable (item.Covers WsEvent.seq e) :=
  match item with
  | .event e' => inferInstanceAs (Decidable (e' = e))
  | .snapshot n data => inferInstanceAs (Decidable (e.seq ≤ n ∧ e ∈ data))

def Seen {α : Type} (applied : List (Item (WsEvent α))) (e : WsEvent α) : Prop :=
  ∃ item ∈ applied, item.Covers WsEvent.seq e

instance {α : Type} [DecidableEq α] (applied : List (Item (WsEvent α))) (e : WsEvent α) :
    Decidable (Seen applied e) :=
  inferInstanceAs (Decidable (∃ item ∈ applied, item.Covers WsEvent.seq e))

/-- A publisher owes a send to the subscribers it found under the lock. -/
def Conn.owe {α : Type} (event : WsEvent α) (c : Conn α) : Conn α :=
  match c.phase with
  | .live => { c with pending := c.pending ++ [event] }
  | _ => c

/-- `handleMessage`: every frame with a `seq` is stored, the hello included. -/
def handleMessage {α : Type} (s : Delivery α) : Frame α → Delivery α
  | .hello seq => { s with storedSeq := seq }
  | .forceResnapshot => s
  | .data item =>
    { s with storedSeq := item.seq WsEvent.seq, applied := s.applied ++ [item] }

def publishTo {α : Type} (ringSize : Nat) (s : Delivery α) (type rev : String) (payload : α) :
    Delivery α :=
  let published := publishEvent ringSize s.hub type rev payload
  { s with
    hub := published.1
    labJson := if isLabJsonEvent type then s.labJson ++ [published.2] else s.labJson
    conns := s.conns.map (Conn.owe published.2)
    log := s.log ++ [published.2] }

/-- One step of the handler of a connection. -/
def handlerStep {α : Type} (s : Delivery α) (c : Conn α) : HandlerAction → Option (Conn α)
  | .send index =>
    match c.pending[index]? with
    | some event => some { c with pending := c.pending.eraseIdx index
                                  wire := c.wire ++ [.data (.event event)] }
    | none => none
  | .hello =>
    match c.phase with
    | .accepted lastSeq => some { c with phase := .greeted lastSeq
                                         wire := c.wire ++ [.hello (headSeq s.hub)] }
    | _ => none
  | .replay =>
    match c.phase with
    | .greeted lastSeq =>
      match replaySince s.hub lastSeq with
      | (_, true) => some { c with phase := .resnapshotting, wire := c.wire ++ [.forceResnapshot] }
      | (events, false) => some { c with phase := .replaying events }
    | _ => none
  | .sendReplay =>
    match c.phase with
    | .replaying (event :: rest) => some { c with phase := .replaying rest
                                                  wire := c.wire ++ [.data (.event event)] }
    | _ => none
  | .snapshot readOk =>
    match c.phase with
    | .resnapshotting =>
      -- a failing read is swallowed and nothing is sent
      let frames := if readOk then [Frame.data (.snapshot (headSeq s.hub) s.labJson)] else []
      some { c with phase := .replaying [], wire := c.wire ++ frames }
    | _ => none
  | .subscribe =>
    match c.phase with
    | .replaying [] => some { c with phase := .live }
    | _ => none

def deliveryStep {α : Type} [DecidableEq α] (ringSize : Nat) (s : Delivery α) :
    DeliveryAction α → Option (Delivery α)
  | .publish type rev payload => some (publishTo ringSize s type rev payload)
  | .openSocket =>
    -- a socket that is open or connecting is left as it is
    if s.held then some s
    else some { s with conns := s.conns ++ [{ phase := .accepted s.storedSeq }], held := true }
  | .serve index action =>
    match s.conns[index]? with
    | some c => (handlerStep s c action).map (fun c' => { s with conns := s.conns.set index c' })
    | none => none
  | .deliver index =>
    match s.conns[index]? with
    | some c =>
      match c.wire with
      | frame :: rest =>
        some (handleMessage { s with conns := s.conns.set index { c with wire := rest } } frame)
      | [] => none
    | none => none
  | .stopped index =>
    if index < s.conns.length then
      some { s with conns := s.conns.eraseIdx index
                    held := s.held && decide (index + 1 < s.conns.length)
                    closing := s.closing + 1 }
    else none
  | .closed =>
    -- whichever socket the event is of, `socket` is null behind it
    if 0 < s.closing then some { s with held := false, closing := s.closing - 1 } else none
  | .restart =>
    some { s with
      hub := {}
      conns := []
      held := false
      closing := s.closing + s.conns.length
      log := []
      applied := []
      lost := s.lost ++ s.log.filter (fun e => decide (¬Seen s.applied e)) }

/-- What the client is promised. -/
structure DeliveryOk {α : Type} (s : Delivery α) : Prop where
  complete : Complete WsEvent.seq s.log s.applied
  caughtUp : ({ phase := .live } : Conn α) ∈ s.conns → ∀ e ∈ s.log, Seen s.applied e
  kept : s.lost = []

/-- The steps that keep the promise. Nothing is published between the replay or the snapshot and
the subscription, and while `lab.json` is still to be read only what it holds; a socket is opened
only when none is open; sends go out in the order of their numbers; the client asks for what it
applied last in this lifetime of the hub, and for everything only while the ring holds everything;
the snapshot is read and holds what was missed; and the hub is restarted when the client has
applied all it published. -/
def DeliveryStepOk {α : Type} (ringSize : Nat) (s : Delivery α) : DeliveryAction α → Prop
  | .publish type _ _ => ∀ c ∈ s.conns, c.phase.isReplaying = false ∧
      (c.phase.isResnapshotting = true → isLabJsonEvent type = true)
  | .openSocket => s.held = false → s.conns = []
  | .serve _ (.send index) => index = 0
  | .serve _ .replay => ∀ c ∈ s.conns, ∀ n ∈ c.phase.asked?,
      s.log = [] ∨ (n = lastSeq WsEvent.seq s.applied ∧ (n = 0 → s.log.length ≤ ringSize))
  | .serve _ (.snapshot readOk) => readOk = true ∧
      ∀ e ∈ s.log, lastSeq WsEvent.seq s.applied < e.seq → isLabJsonEvent e.type = true
  | .restart => lastSeq WsEvent.seq s.applied = s.log.length
  | _ => True

instance {α : Type} [DecidableEq α] (ringSize : Nat) (s : Delivery α) (action : DeliveryAction α) :
    Decidable (DeliveryStepOk ringSize s action) :=
  match action with
  | .publish _ _ _ => inferInstanceAs (Decidable (∀ c ∈ s.conns, _ ∧ (_ → _)))
  | .openSocket => inferInstanceAs (Decidable (s.held = false → s.conns = []))
  | .serve _ (.send index) => inferInstanceAs (Decidable (index = 0))
  | .serve _ .replay => inferInstanceAs (Decidable (∀ c ∈ s.conns, ∀ n ∈ c.phase.asked?,
      s.log = [] ∨ (n = lastSeq WsEvent.seq s.applied ∧ (n = 0 → s.log.length ≤ ringSize))))
  | .serve _ (.snapshot _) => inferInstanceAs (Decidable (_ ∧ ∀ e ∈ s.log, _ → _))
  | .serve _ .hello => inferInstanceAs (Decidable True)
  | .serve _ .sendReplay => inferInstanceAs (Decidable True)
  | .serve _ .subscribe => inferInstanceAs (Decidable True)
  | .deliver _ => inferInstanceAs (Decidable True)
  | .stopped _ => inferInstanceAs (Decidable True)
  | .closed => inferInstanceAs (Decidable True)
  | .restart => inferInstanceAs (Decidable (lastSeq WsEvent.seq s.applied = s.log.length))

end NovaVe
