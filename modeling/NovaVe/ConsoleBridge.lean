import NovaVe.Dict
import NovaVe.Runs
import NovaVe.TelnetFilter

namespace NovaVe

/-- `_TELNET_SERVER_NEGOTIATION`: will echo, will suppress go ahead. -/
def telnetServerNegotiation : List UInt8 := [255, 251, 1, 255, 251, 3]

/-- A connected client: its input filter, and what it was sent. -/
structure ConsoleClient where
  filter : TelnetState
  received : List UInt8
deriving DecidableEq, Repr

/-- The clients under the number of their connection, the log, and the bytes that were written to
the terminal, each with its client. -/
structure ConsoleBridge where
  accepted : Nat
  clients : Dict Nat ConsoleClient
  log : List UInt8
  typed : List (Nat × UInt8)
  known : ∀ client, (clients.get? client).isSome = true → client < accepted
  seen : ∀ entry ∈ typed, entry.1 < accepted

def emptyBridge : ConsoleBridge where
  accepted := 0
  clients := Dict.empty
  log := []
  typed := []
  known := fun _ h => absurd h Bool.false_ne_true
  seen := fun _ h => absurd h List.not_mem_nil

/-- What `select` finds ready, until the process ends: a connection, which may fail as it is
greeted; output of the process, with the clients it cannot be sent to; input of a client, `none` for
an error and empty at its end, of which the terminal may lose the last bytes or take none. -/
inductive ConsoleEvent
  | accept (greeted : Bool)
  | output (data : List UInt8) (fails : Nat → Bool)
  | input (client : Nat) (data : Option (List UInt8)) (taken : Bool) (lost : Nat)

/-- What is left of the output of a filter. -/
def takenOf (out : List UInt8) (lost : Nat) : List UInt8 := out.take (out.length - lost)

theorem takenOf_zero (out : List UInt8) : takenOf out 0 = out := by
  simp [takenOf]

/-- The clients after one of them was dropped, or has another state. -/
theorem known_update {bridge : ConsoleBridge} {clients : Dict Nat ConsoleClient}
    (h : ∀ client, (clients.get? client).isSome = true →
      (bridge.clients.get? client).isSome = true) :
    ∀ client, (clients.get? client).isSome = true → client < bridge.accepted :=
  fun client hclient => bridge.known client (h client hclient)

def ConsoleBridge.accept (bridge : ConsoleBridge) : ConsoleBridge where
  accepted := bridge.accepted + 1
  clients := bridge.clients.set bridge.accepted ⟨.data, telnetServerNegotiation⟩
  log := bridge.log
  typed := bridge.typed
  known client h := by
    rw [Dict.get?_set] at h
    split at h
    next heq => omega
    next => exact Nat.lt_succ_of_lt (bridge.known client h)
  seen entry h := Nat.lt_succ_of_lt (bridge.seen entry h)

def ConsoleBridge.output (bridge : ConsoleBridge) (data : List UInt8) (fails : Nat → Bool) :
    ConsoleBridge where
  accepted := bridge.accepted
  clients := (bridge.clients.filterKeys (fun client => !fails client)).mapValues
    (fun client => { client with received := client.received ++ data })
  log := bridge.log ++ data
  typed := bridge.typed
  known := known_update fun client h => by
    rw [Dict.get?_mapValues, Option.isSome_map, Dict.get?_filterKeys] at h
    split at h
    next => exact h
    next => exact absurd h Bool.false_ne_true
  seen := bridge.seen

/-- `_drop_client`. -/
def ConsoleBridge.drop (bridge : ConsoleBridge) (client : Nat) : ConsoleBridge where
  accepted := bridge.accepted
  clients := bridge.clients.pop client
  log := bridge.log
  typed := bridge.typed
  known := known_update fun other h => by
    rw [Dict.get?_pop] at h
    split at h
    next => exact absurd h Bool.false_ne_true
    next => exact h
  seen := bridge.seen

/-- The client has fed its filter, and the terminal has taken some of what came out. -/
def ConsoleBridge.type (bridge : ConsoleBridge) (client : Nat) (filter : TelnetState)
    (bytes : List UInt8) (h : (bridge.clients.get? client).isSome = true) : ConsoleBridge where
  accepted := bridge.accepted
  clients := bridge.clients.modify client (fun state => { state with filter := filter })
  log := bridge.log
  typed := bridge.typed ++ bytes.map (fun byte => (client, byte))
  known := known_update fun other hother => by
    rw [Dict.get?_modify] at hother
    split at hother
    next => simpa using hother
    next => exact hother
  seen entry hentry := by
    rcases List.mem_append.mp hentry with hold | hnew
    · exact bridge.seen entry hold
    · obtain ⟨byte, _, rfl⟩ := List.mem_map.mp hnew
      exact bridge.known client h

def ConsoleBridge.input (bridge : ConsoleBridge) (client : Nat) (data : Option (List UInt8))
    (taken : Bool) (lost : Nat) : ConsoleBridge :=
  match h : bridge.clients.get? client with
  | none => bridge
  | some state =>
    let data := data.getD []
    if data = [] then bridge.drop client
    else
      let fed := telnetFeed state.filter data
      if fed.2 ≠ [] ∧ taken = false then bridge.drop client
      else bridge.type client fed.1 (takenOf fed.2 lost) (h ▸ rfl)

/-- A turn of the loop of `_run`. -/
def ConsoleBridge.turn (bridge : ConsoleBridge) : ConsoleEvent → ConsoleBridge
  | .accept greeted => if greeted then bridge.accept else bridge
  | .output data fails => bridge.output data fails
  | .input client data taken lost => bridge.input client data taken lost

def runConsole (history : List ConsoleEvent) : ConsoleBridge :=
  history.foldl ConsoleBridge.turn emptyBridge

/-- The output of the process in a run. -/
def outputOf (history : List ConsoleEvent) : List UInt8 :=
  history.flatMap fun event =>
    match event with
    | .output data _ => data
    | _ => []

/-- The input of a client in a run. -/
def inputOf (client : Nat) (history : List ConsoleEvent) : List UInt8 :=
  history.flatMap fun event =>
    match event with
    | .input other data _ _ => if other = client then data.getD [] else []
    | _ => []

/-- What was written to the terminal for a client. -/
def ConsoleBridge.typedBy (bridge : ConsoleBridge) (client : Nat) : List UInt8 :=
  (bridge.typed.filter (fun entry => decide (entry.1 = client))).map Prod.snd

theorem typedBy_type (bridge : ConsoleBridge) (client other : Nat) (filter : TelnetState)
    (bytes : List UInt8) (h : (bridge.clients.get? client).isSome = true) :
    (bridge.type client filter bytes h).typedBy other =
      bridge.typedBy other ++ if client = other then bytes else [] := by
  unfold ConsoleBridge.typedBy ConsoleBridge.type
  simp only [List.filter_append, List.map_append]
  congr 1
  split
  next heq => simp [heq, List.filter_map, Function.comp_def]
  next hne => simp [hne, List.filter_map, Function.comp_def]

/-- Nothing was written for a client that is yet to come. -/
theorem typedBy_fresh (bridge : ConsoleBridge) {client : Nat} (h : bridge.accepted ≤ client) :
    bridge.typedBy client = [] := by
  unfold ConsoleBridge.typedBy
  rw [List.filter_eq_nil_iff.mpr, List.map_nil]
  intro entry hentry
  have := bridge.seen entry hentry
  simp only [decide_eq_true_eq]
  omega

/-- What a client sees of the bridge: its filter, what it was sent, and what was written for it. -/
structure ConsoleView where
  filter : TelnetState
  received : List UInt8
  typed : List UInt8
deriving DecidableEq, Repr

def ConsoleBridge.view (bridge : ConsoleBridge) (client : Nat) : Option ConsoleView :=
  (bridge.clients.get? client).map
    (fun state => ⟨state.filter, state.received, bridge.typedBy client⟩)

/-- What an event makes of the view of a client that stays connected. -/
def ConsoleEvent.moves (client : Nat) (event : ConsoleEvent) (view : ConsoleView) : ConsoleView :=
  match event with
  | .accept _ => view
  | .output data _ => { view with received := view.received ++ data }
  | .input other data _ lost =>
    if other = client then
      let fed := telnetFeed view.filter (data.getD [])
      { view with filter := fed.1, typed := view.typed ++ takenOf fed.2 lost }
    else view

/-- A client is dropped by an event. -/
def ConsoleEvent.drops (client : Nat) (bridge : ConsoleBridge) : ConsoleEvent → Bool
  | .accept _ => false
  | .output _ fails => fails client
  | .input other data taken _ =>
    decide (other = client) && (bridge.clients.get? client).any fun state =>
      decide (data.getD [] = []) ||
        (decide ((telnetFeed state.filter (data.getD [])).2 ≠ []) && !taken)

def ConsoleEvent.greets (client : Nat) (bridge : ConsoleBridge) : ConsoleEvent → Option ConsoleView
  | .accept true =>
    if bridge.accepted = client then some ⟨.data, telnetServerNegotiation, []⟩ else none
  | _ => none

theorem view_drop (bridge : ConsoleBridge) (client other : Nat) :
    (bridge.drop other).view client = if other = client then none else bridge.view client := by
  unfold ConsoleBridge.view
  simp only [ConsoleBridge.drop, Dict.get?_pop]
  split
  next => rfl
  next => rfl

theorem view_type (bridge : ConsoleBridge) (client other : Nat) (filter : TelnetState)
    (bytes : List UInt8) (h : (bridge.clients.get? other).isSome = true) :
    (bridge.type other filter bytes h).view client =
      if other = client then (bridge.view client).map (fun view =>
        { view with filter := filter, typed := view.typed ++ bytes })
      else bridge.view client := by
  unfold ConsoleBridge.view
  rw [typedBy_type]
  simp only [ConsoleBridge.type, Dict.get?_modify]
  split
  next => simp [Function.comp_def]
  next => simp

theorem view_input (bridge : ConsoleBridge) (client other : Nat) (data : Option (List UInt8))
    (taken : Bool) (lost : Nat) :
    (bridge.input other data taken lost).view client =
      if (ConsoleEvent.input other data taken lost).drops client bridge then none
      else (bridge.view client).map ((ConsoleEvent.input other data taken lost).moves client) := by
  unfold ConsoleBridge.input ConsoleEvent.drops ConsoleEvent.moves
  by_cases hclient : other = client
  · subst hclient
    split
    next hnone => simp [hnone, ConsoleBridge.view]
    next state hstate =>
      simp only [hstate, decide_true, Bool.true_and, Option.any_some]
      split
      next hempty => simp [hempty, view_drop]
      next hdata =>
        split
        next hlost => simp [hlost, view_drop]
        next htaken =>
          rw [view_type, if_pos rfl]
          simp [ConsoleBridge.view, hstate, hdata, htaken]
  · simp only [hclient, decide_false, Bool.false_and, Bool.false_eq_true, ↓reduceIte,
      Option.map_id']
    split
    next => rfl
    next =>
      split
      next => rw [view_drop, if_neg hclient]
      next =>
        split
        next => rw [view_drop, if_neg hclient]
        next => rw [view_type, if_neg hclient]

theorem view_accept (bridge : ConsoleBridge) (client : Nat) :
    bridge.accept.view client = if bridge.accepted = client then
      some ⟨.data, telnetServerNegotiation, []⟩ else bridge.view client := by
  unfold ConsoleBridge.view
  simp only [ConsoleBridge.accept, Dict.get?_set]
  split
  next heq =>
    have hfresh := typedBy_fresh bridge (Nat.le_of_eq heq)
    unfold ConsoleBridge.typedBy at hfresh ⊢
    rw [hfresh]
    rfl
  next => rfl

theorem view_output (bridge : ConsoleBridge) (client : Nat) (data : List UInt8)
    (fails : Nat → Bool) : (bridge.output data fails).view client =
      if fails client then none
      else (bridge.view client).map ((ConsoleEvent.output data fails).moves client) := by
  unfold ConsoleBridge.view
  simp only [ConsoleBridge.output, Dict.get?_mapValues, Dict.get?_filterKeys]
  cases fails client with
  | true => rfl
  | false =>
    simp only [Bool.not_false, if_true, Option.map_map, Bool.false_eq_true, if_false]
    rfl

theorem view_turn (bridge : ConsoleBridge) (client : Nat) (event : ConsoleEvent) :
    (bridge.turn event).view client = match event.greets client bridge with
      | some view => some view
      | none => if event.drops client bridge then none
          else (bridge.view client).map (event.moves client) := by
  have hsame : bridge.view client = (bridge.view client).map (fun view => view) :=
    Option.map_id'.symm
  cases event with
  | accept greeted =>
    cases greeted with
    | false => exact hsame
    | true =>
      simp only [ConsoleBridge.turn, ConsoleEvent.greets, ConsoleEvent.drops, if_true, view_accept]
      split
      next => rfl
      next => exact hsame
  | output data fails => exact view_output bridge client data fails
  | input other data taken lost => exact view_input bridge client other data taken lost

/-- The view of a client, watched in a run. -/
def watchedView (client : Nat) : Watched ConsoleBridge ConsoleEvent ConsoleView where
  step := ConsoleBridge.turn
  value bridge := bridge.view client
  starts bridge event := event.greets client bridge
  stops bridge event := event.drops client bridge
  moves := ConsoleEvent.moves client
  value_step bridge event := by
    rw [view_turn]
    cases event.greets client bridge <;> rfl

/-- The terminal takes all that is written to it. -/
def ConsoleEvent.whole : ConsoleEvent → Bool
  | .input _ _ _ lost => decide (lost = 0)
  | _ => true

theorem moves_law (client : Nat) (event : ConsoleEvent) (view : ConsoleView) :
    (event.moves client view).filter = (telnetFeed view.filter (inputOf client [event])).1 ∧
      (event.moves client view).received = view.received ++ outputOf [event] ∧
        (event.whole = true → (event.moves client view).typed =
          view.typed ++ (telnetFeed view.filter (inputOf client [event])).2) := by
  have hnil : view.typed = view.typed ++ [] := (List.append_nil _).symm
  have hsent : view.received = view.received ++ [] := (List.append_nil _).symm
  cases event with
  | accept greeted => exact ⟨rfl, hsent, fun _ => hnil⟩
  | output data fails => exact ⟨rfl, by simp [ConsoleEvent.moves, outputOf], fun _ => hnil⟩
  | input other data taken lost =>
    simp only [ConsoleEvent.moves, inputOf, outputOf, List.flatMap_cons, List.flatMap_nil,
      List.append_nil]
    split
    next =>
      refine ⟨rfl, rfl, fun hwhole => ?_⟩
      rw [of_decide_eq_true hwhole, takenOf_zero]
    next => exact ⟨rfl, rfl, fun _ => hnil⟩

theorem watchedView_moved (client : Nat) (view : ConsoleView) (history : List ConsoleEvent) :
    ((watchedView client).moved view history).filter =
        (telnetFeed view.filter (inputOf client history)).1 ∧
      ((watchedView client).moved view history).received = view.received ++ outputOf history ∧
        ((∀ event ∈ history, event.whole = true) →
          ((watchedView client).moved view history).typed =
            view.typed ++ (telnetFeed view.filter (inputOf client history)).2) := by
  induction history generalizing view with
  | nil => exact ⟨rfl, (List.append_nil _).symm, fun _ => (List.append_nil _).symm⟩
  | cons event history ih =>
    obtain ⟨hfilter, hreceived, htyped⟩ := ih (event.moves client view)
    have hinput : inputOf client (event :: history) =
        inputOf client [event] ++ inputOf client history := by simp [inputOf]
    have houtput : outputOf (event :: history) = outputOf [event] ++ outputOf history := by
      simp [outputOf]
    obtain ⟨hfirst, hsent, hwritten⟩ := moves_law client event view
    rw [hinput, houtput, telnetFeed_append, ← hfirst]
    refine ⟨hfilter, ?_, fun hwhole => ?_⟩
    · rw [← List.append_assoc, ← hsent]
      exact hreceived
    · obtain ⟨hevent, hrest⟩ := List.forall_mem_cons.mp hwhole
      rw [← List.append_assoc, ← hwritten hevent]
      exact htyped hrest

theorem log_run (history : List ConsoleEvent) : (runConsole history).log = outputOf history := by
  induction history using List.reverseRecOn with
  | nil => rfl
  | append_singleton history event ih =>
    have hturn : ((runConsole history).turn event).log =
        (runConsole history).log ++ outputOf [event] := by
      cases event with
      | accept greeted => cases greeted <;> exact (List.append_nil _).symm
      | output data fails => simp [ConsoleBridge.turn, ConsoleBridge.output, outputOf]
      | input client data taken lost =>
        refine Eq.trans ?_ (List.append_nil _).symm
        simp only [ConsoleBridge.turn, ConsoleBridge.input]
        split
        next => rfl
        next =>
          split
          next => rfl
          next => split <;> rfl
    have happend : outputOf (history ++ [event]) = outputOf history ++ outputOf [event] := by
      simp [outputOf]
    rw [happend, ← ih, ← hturn, runConsole, List.foldl_append]
    rfl

theorem view_eq_some {bridge : ConsoleBridge} {client : Nat} {view : ConsoleView} :
    bridge.view client = some view ↔
      bridge.clients.get? client = some ⟨view.filter, view.received⟩ ∧
        bridge.typedBy client = view.typed := by
  unfold ConsoleBridge.view
  obtain ⟨filter, received, typed⟩ := view
  constructor
  · intro h
    obtain ⟨⟨filter', received'⟩, hget, heq⟩ := Option.map_eq_some_iff.mp h
    obtain ⟨rfl, rfl, rfl⟩ := ConsoleView.mk.inj heq
    exact ⟨hget, rfl⟩
  · rintro ⟨hget, htyped⟩
    rw [hget, htyped]
    rfl

/-- Whatever clients come and go, the log is the output of the process. A client is connected
exactly when nothing has dropped it since it was greeted; it was sent the negotiation and then all
the output since, and its filter is where all its input has brought it, however it was cut. The
terminal got what the filter makes of that input, if it loses nothing. -/
theorem console_run (history : List ConsoleEvent) :
    (runConsole history).log = outputOf history ∧ ∀ client state,
      (runConsole history).clients.get? client = some state ↔
        ∃ before after, history = before ++ .accept true :: after ∧
          (runConsole before).accepted = client ∧
            (watchedView client).Quiet (runConsole before).accept after ∧
              state = ⟨(telnetFeed .data (inputOf client after)).1,
                telnetServerNegotiation ++ outputOf after⟩ ∧
                ((∀ event ∈ after, event.whole = true) → (runConsole history).typedBy client =
                  (telnetFeed .data (inputOf client after)).2) := by
  refine ⟨log_run history, fun client state => ?_⟩
  have hrun := (watchedView client).value_run (s := emptyBridge) rfl history
  constructor
  · intro h
    have hview : (runConsole history).view client =
        some ⟨state.filter, state.received, (runConsole history).typedBy client⟩ :=
      view_eq_some.mpr ⟨h, rfl⟩
    obtain ⟨before, event, after, first, rfl, hgreets, hquiet, hmoved⟩ := (hrun _).mp hview
    obtain ⟨hfilter, hreceived, htyped⟩ := watchedView_moved client first after
    rw [← hmoved] at hfilter hreceived htyped
    cases event with
    | accept greeted =>
      cases greeted with
      | false => cases hgreets
      | true =>
        change (if (runConsole before).accepted = client then _ else none) = some first at hgreets
        split at hgreets
        next hnumber =>
          cases hgreets
          refine ⟨before, after, rfl, hnumber, hquiet, ?_, htyped⟩
          rw [← hfilter, ← hreceived]
        next => cases hgreets
    | output data fails => cases hgreets
    | input other data taken lost => cases hgreets
  · rintro ⟨before, after, rfl, hnumber, hquiet, rfl, _⟩
    obtain ⟨hfilter, hreceived, _⟩ :=
      watchedView_moved client ⟨.data, telnetServerNegotiation, []⟩ after
    have hview := (hrun _).mpr ⟨before, .accept true, after, _, rfl, if_pos hnumber, hquiet, rfl⟩
    obtain ⟨hget, _⟩ := view_eq_some.mp hview
    rw [hfilter, hreceived] at hget
    exact hget

end NovaVe
