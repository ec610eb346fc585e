import NovaVe.Runs

namespace NovaVe

/-- `readyState` of a WebSocket. -/
inductive ReadyState
  | connecting | opened | closing | closed
deriving DecidableEq, Repr

def ReadyState.live : ReadyState → Bool
  | .connecting => true
  | .opened => true
  | _ => false

/-- A socket that the browser made; `asked` tells whether its client was then between `connect()`
and `close()` in a tab that was shown. -/
structure Socket where
  readyState : ReadyState := .connecting
  asked : Bool

/-- The variables of the closure that `createWsClient` returns, with its socket and its timer as
the browser numbers them. -/
structure WsClient where
  socket : Option Nat := none
  attempt : Int := 0
  reconnectTimer : Option Nat := none
  manuallyClosed : Bool := false
  pausedForVisibility : Bool := false
  visibilityListener : Bool := false

/-- A tab of the browser with one client: the sockets it has made, oldest first, and the timers
that are armed, each with its delay. -/
structure Tab where
  client : WsClient := {}
  intended : Bool := false
  hidden : Bool
  sockets : List Socket := []
  armed : List (Nat × Int) := []
  timersSet : Nat := 0

variable {t : Tab}

def backoffSchedule : List Int := [500, 1000, 2000, 5000, 10000, 30000]

def getBackoffDelay (attempt : Int) : Int :=
  if attempt < 0 then 500
  else if attempt ≥ backoffSchedule.length then 30000
  else backoffSchedule.getD attempt.toNat 30000

def Tab.readyState? (t : Tab) (i : Nat) : Option ReadyState :=
  t.sockets[i]?.map Socket.readyState

/-- A socket of the tab is connecting or open. -/
def Tab.Live (t : Tab) (i : Nat) : Prop :=
  (t.readyState? i).any ReadyState.live = true

instance (t : Tab) (i : Nat) : Decidable (t.Live i) :=
  inferInstanceAs (Decidable (_ = true))

def Tab.turn (t : Tab) (i : Nat) (f : ReadyState → ReadyState) : Tab :=
  { t with sockets := t.sockets.modify i (fun s => { s with readyState := f s.readyState }) }

/-- What `WebSocket.close` does to the state of a socket. -/
def closeCalled : ReadyState → ReadyState
  | .closed => .closed
  | _ => .closing

def Tab.clearReconnectTimer (t : Tab) : Tab :=
  match t.client.reconnectTimer with
  | none => t
  | some timer =>
    { t with
      armed := t.armed.filter (fun a => a.1 ≠ timer)
      client := { t.client with reconnectTimer := none } }

def Tab.scheduleReconnect (delayMs : Int) (t : Tab) : Tab :=
  let cleared := t.clearReconnectTimer
  { cleared with
    armed := cleared.armed ++ [(cleared.timersSet, delayMs)]
    timersSet := cleared.timersSet + 1
    client := { cleared.client with reconnectTimer := some cleared.timersSet } }

/-- Schedule a retry after the delay of this attempt. -/
def Tab.retry (t : Tab) : Tab :=
  let scheduled := t.scheduleReconnect (getBackoffDelay t.client.attempt)
  { scheduled with client := { scheduled.client with attempt := t.client.attempt + 1 } }

/-- `openSocket`; `fails` when the constructor raises. -/
def Tab.openSocket (fails : Bool) (t : Tab) : Tab :=
  if t.client.manuallyClosed || t.client.pausedForVisibility then t
  else if t.client.socket.any (fun i => decide (t.Live i)) then t
  else if fails then t.retry
  else
    { t with
      sockets := t.sockets ++ [{ asked := t.intended && !t.hidden }]
      client := { t.client with socket := some t.sockets.length } }

/-- Drop the socket of the client; `onlyLive` when it is closed only if it connects or is open. -/
def Tab.dropSocket (onlyLive : Bool) (t : Tab) : Tab :=
  let dropped := match t.client.socket with
    | none => t
    | some i => if onlyLive && !decide (t.Live i) then t else t.turn i closeCalled
  { dropped with client := { dropped.client with socket := none } }

inductive OwnerCall
  | connect (fails : Bool)
  | close
deriving DecidableEq

def Tab.connect (fails : Bool) (t : Tab) : Tab :=
  Tab.openSocket fails { t with
    intended := true
    client := { t.client with
      manuallyClosed := false, pausedForVisibility := false, attempt := 0
      visibilityListener := true } }

def Tab.close (t : Tab) : Tab :=
  let cleared := Tab.clearReconnectTimer { t with
    intended := false
    client := { t.client with manuallyClosed := true } }
  Tab.dropSocket false { cleared with client := { cleared.client with visibilityListener := false } }

def Tab.owner (t : Tab) : OwnerCall → Tab
  | .connect fails => t.connect fails
  | .close => t.close

/-- The listener of `visibilitychange`, after the change. -/
def Tab.visibilityChanged (t : Tab) : Tab :=
  if t.hidden then
    Tab.dropSocket true (Tab.clearReconnectTimer
      { t with client := { t.client with pausedForVisibility := true } })
  else if !t.client.pausedForVisibility then t
  else Tab.scheduleReconnect 0 { t with client := { t.client with pausedForVisibility := false } }

/-- `handleClosure`, in which the subscribers of `__close` may call the client. -/
def Tab.handleClosure (calls : List OwnerCall) (t : Tab) : Tab :=
  let emitted := calls.foldl Tab.owner { t with client := { t.client with socket := none } }
  if emitted.client.manuallyClosed || emitted.client.pausedForVisibility then emitted
  else emitted.retry

/-- What can happen to the client. A socket may start closing before its close event, and each
socket has one close event, which may come at any time later. -/
inductive TabEvent
  | call (c : OwnerCall)
  | visibility (hidden : Bool)
  | timer (timer : Nat) (fails : Bool)
  | opened (socket : Nat)
  | closing (socket : Nat)
  | error (socket : Nat)
  | closed (socket : Nat) (calls : List OwnerCall)
deriving DecidableEq

/-- The tab after an event; none when the browser does not deliver it in this state. -/
def tabStep (t : Tab) : TabEvent → Option Tab
  | .call c => some (t.owner c)
  | .visibility hidden =>
    let changed := { t with hidden := hidden }
    some (if t.client.visibilityListener then changed.visibilityChanged else changed)
  | .timer timer fails =>
    if timer ∈ t.armed.map Prod.fst then
      some (Tab.openSocket fails { t with
        armed := t.armed.filter (fun a => a.1 ≠ timer)
        client := { t.client with reconnectTimer := none } })
    else none
  | .opened i =>
    if t.readyState? i = some .connecting then
      some { t.turn i (fun _ => .opened) with client := { t.client with attempt := 0 } }
    else none
  | .closing i =>
    if t.readyState? i = some .opened then some (t.turn i (fun _ => .closing)) else none
  | .error i => if (t.readyState? i).any (· ≠ .closed) then some t else none
  | .closed i calls =>
    if (t.readyState? i).any (· ≠ .closed) then
      some (Tab.handleClosure calls (t.turn i (fun _ => .closed)))
    else none

/-- The part of the promise that forbids: one live socket at most, none made and no timer armed
unless the client is to be connected and the tab is shown. -/
structure Tab.Quiet (t : Tab) : Prop where
  single : ∀ i j, t.Live i → t.Live j → i = j
  asked : ∀ s ∈ t.sockets, s.asked = true
  disarmed : t.intended = false ∨ t.hidden = true → t.armed = []

/-- A client that is to be connected in a tab that is shown has a live socket or one timer. -/
def Tab.Served (t : Tab) : Prop :=
  t.intended = true → t.hidden = false → (∃ i, t.Live i) ∨ t.armed.length = 1

/-- The server has begun to close the socket of the client, whose close event is still to come. -/
def Tab.Waits (t : Tab) : Prop :=
  t.intended = true ∧ t.hidden = false ∧ t.armed = [] ∧
    ∃ i, t.client.socket = some i ∧ t.readyState? i = some .closing

/-- `connect()` is called in a tab that is shown. -/
def OwnerOk (t : Tab) : OwnerCall → Prop
  | .connect _ => t.hidden = false
  | .close => True

/-- A close event is that of the socket the client holds, or the client holds no live one. -/
def TabOk (t : Tab) : TabEvent → Prop
  | .call c => OwnerOk t c
  | .closed i calls =>
    (∀ j, t.client.socket = some j → t.Live j → j = i) ∧ ∀ c ∈ calls, OwnerOk t c
  | _ => True

/-- What the client knows of its sockets and timers. -/
structure Tab.Tracked (t : Tab) : Prop where
  current : ∀ i, t.Live i → t.client.socket = some i
  held : ∀ i, t.client.socket = some i → ∃ state, t.readyState? i = some state ∧ state ≠ .closed
  asked : ∀ s ∈ t.sockets, s.asked = true
  timer : t.armed.map Prod.fst = t.client.reconnectTimer.toList
  idle : t.intended = false ∨ t.hidden = true →
    t.client.socket = none ∧ t.client.reconnectTimer = none
  manual : t.intended = true → t.client.manuallyClosed = false
  closedBy : t.intended = false → t.client.manuallyClosed = true ∨ t.sockets = []
  listening : t.client.visibilityListener = t.intended
  paused : t.intended = true → t.client.pausedForVisibility = t.hidden

/-- The client holds a socket, or a timer is to open one. -/
def Tab.Provided (t : Tab) : Prop :=
  t.intended = true → t.hidden = false →
    t.client.socket.isSome = true ∨ t.client.reconnectTimer.isSome = true

theorem readyState?_turn (t : Tab) (i : Nat) (f : ReadyState → ReadyState) (j : Nat) :
    (t.turn i f).readyState? j = (t.readyState? j).map (if i = j then f else id) := by
  unfold Tab.readyState? Tab.turn
  rw [List.getElem?_modify]
  cases t.sockets[j]? with
  | none => rfl
  | some s =>
    by_cases hij : i = j
    · simp [hij]
    · simp [hij]

theorem live_iff {i : Nat} :
    t.Live i ↔ ∃ state, t.readyState? i = some state ∧ state.live = true := by
  unfold Tab.Live
  rw [Option.any_eq_true]

theorem asked_turn (h : ∀ s ∈ t.sockets, s.asked = true) (i : Nat) (f : ReadyState → ReadyState) :
    ∀ s ∈ (t.turn i f).sockets, s.asked = true := by
  intro s hs
  obtain ⟨j, hj⟩ := List.mem_iff_getElem?.mp hs
  have hmodify : (t.sockets.modify i (fun s => { s with readyState := f s.readyState }))[j]? =
    some s := hj
  rw [List.getElem?_modify] at hmodify
  cases hold : t.sockets[j]? with
  | none =>
    rw [hold] at hmodify
    cases hmodify
  | some old =>
    have hasked := h old (List.mem_of_getElem? hold)
    rw [hold] at hmodify
    by_cases hij : i = j
    · simp [hij] at hmodify
      rw [← hmodify]
      exact hasked
    · simp [hij] at hmodify
      rw [← hmodify]
      exact hasked

theorem sockets_turn_ne_nil {i : Nat} {f : ReadyState → ReadyState} {state : ReadyState}
    (h : t.readyState? i = some state) : (t.turn i f).sockets ≠ [] := by
  intro hnil
  have hlength : (t.turn i f).sockets.length = t.sockets.length := List.length_modify _ _ _
  have hempty : t.sockets = [] := by
    apply List.eq_nil_of_length_eq_zero
    rw [← hlength, hnil]
    rfl
  unfold Tab.readyState? at h
  rw [hempty] at h
  cases h

theorem Tab.clearReconnectTimer_eq (h : t.armed.map Prod.fst = t.client.reconnectTimer.toList) :
    t.clearReconnectTimer =
      { t with armed := [], client := { t.client with reconnectTimer := none } } := by
  obtain ⟨client, intended, hidden, sockets, armed, timersSet⟩ := t
  obtain ⟨socket, attempt, reconnectTimer, manuallyClosed, pausedForVisibility, listener⟩ := client
  cases reconnectTimer with
  | none =>
    have harmed : armed = [] := List.map_eq_nil_iff.mp h
    subst harmed
    rfl
  | some timer =>
    have harmed : armed.filter (fun a => a.1 ≠ timer) = [] := by
      apply List.filter_eq_nil_iff.mpr
      intro a ha
      have hmem : a.1 ∈ armed.map Prod.fst := List.mem_map_of_mem ha
      have hlist : armed.map Prod.fst = [timer] := h
      rw [hlist] at hmem
      simp [List.mem_singleton.mp hmem]
    show Tab.mk _ _ _ _ (armed.filter (fun a => a.1 ≠ timer)) _ = _
    rw [harmed]

theorem not_idle (hintended : t.intended = true) (hshown : t.hidden = false) :
    ¬ (t.intended = false ∨ t.hidden = true) := by
  rw [hintended, hshown]
  simp

/-- A timer is set for a client that is to be connected in a tab that is shown. -/
theorem Tab.Tracked.scheduleReconnect (h : t.Tracked) (hintended : t.intended = true)
    (hshown : t.hidden = false) (delayMs : Int) :
    (t.scheduleReconnect delayMs).Tracked ∧ (t.scheduleReconnect delayMs).Provided := by
  unfold Tab.scheduleReconnect
  rw [Tab.clearReconnectTimer_eq h.timer]
  refine ⟨⟨h.current, h.held, h.asked, rfl, ?_, h.manual, h.closedBy, h.listening, h.paused⟩, ?_⟩
  · intro hidle
    exact absurd hidle (not_idle hintended hshown)
  · intro _ _
    exact Or.inr rfl

theorem Tab.Tracked.retry (h : t.Tracked) (hintended : t.intended = true)
    (hshown : t.hidden = false) : t.retry.Tracked ∧ t.retry.Provided := by
  obtain ⟨hkept, hprovided⟩ := h.scheduleReconnect hintended hshown
    (getBackoffDelay t.client.attempt)
  exact ⟨⟨hkept.current, hkept.held, hkept.asked, hkept.timer, hkept.idle, hkept.manual,
    hkept.closedBy, hkept.listening, hkept.paused⟩, hprovided⟩

theorem Tab.Tracked.openSocket (h : t.Tracked) (hintended : t.intended = true)
    (hshown : t.hidden = false) (fails : Bool) :
    (t.openSocket fails).Tracked ∧ (t.openSocket fails).Provided := by
  have hmanual := h.manual hintended
  have hpaused := h.paused hintended
  rw [hshown] at hpaused
  unfold Tab.openSocket
  rw [hmanual, hpaused]
  rw [if_neg (by simp)]
  split
  next hlive =>
    refine ⟨h, fun _ _ => Or.inl ?_⟩
    obtain ⟨i, hi, _⟩ := (Option.any_eq_true _ _).mp hlive
    rw [hi]
    rfl
  next hlive =>
    have hnone : ∀ i, ¬ t.Live i := by
      intro i hi
      apply hlive
      rw [h.current i hi]
      simpa using hi
    split
    next => exact h.retry hintended hshown
    next =>
      have hold : ∀ j, j < t.sockets.length →
          (t.sockets ++ [Socket.mk .connecting (t.intended && !t.hidden)])[j]? =
            t.sockets[j]? := fun j hj => List.getElem?_append_left hj
      have hnew : (t.sockets ++ [Socket.mk .connecting (t.intended && !t.hidden)])[
          t.sockets.length]? = some (Socket.mk .connecting (t.intended && !t.hidden)) :=
        List.getElem?_concat_length
      refine ⟨⟨?_, ?_, ?_, h.timer, ?_, h.manual, ?_, h.listening, h.paused⟩, fun _ _ => Or.inl rfl⟩
      · intro j hj
        obtain ⟨state, hstate, hlivestate⟩ := live_iff.mp hj
        have hget : (t.sockets ++ [Socket.mk .connecting (t.intended && !t.hidden)])[j]?.map
            Socket.readyState = some state := hstate
        by_cases hlt : j < t.sockets.length
        · rw [hold j hlt] at hget
          exact absurd (live_iff.mpr ⟨state, hget, hlivestate⟩) (hnone j)
        · have hbound : j < (t.sockets ++
              [Socket.mk .connecting (t.intended && !t.hidden)]).length := by
            obtain ⟨s, hs, _⟩ := Option.map_eq_some_iff.mp hget
            exact (List.getElem?_eq_some_iff.mp hs).1
          rw [List.length_append, List.length_singleton] at hbound
          have hj : j = t.sockets.length := by omega
          rw [hj]
      · intro i hi
        have hsocket : i = t.sockets.length := (Option.some.inj hi).symm
        refine ⟨.connecting, ?_, by simp⟩
        rw [hsocket]
        show (t.sockets ++ [_])[t.sockets.length]?.map Socket.readyState = _
        rw [hnew]
        rfl
      · intro s hs
        rcases List.mem_append.mp hs with hs | hs
        · exact h.asked s hs
        · rw [List.mem_singleton.mp hs, hintended, hshown]
          rfl
      · intro hidle
        exact absurd hidle (not_idle hintended hshown)
      · intro hnot
        exact absurd (Or.inl hnot) (not_idle hintended hshown)

/-- The client drops its socket, and no other is live. -/
theorem not_live_dropSocket (h : ∀ i, t.Live i → t.client.socket = some i) (onlyLive : Bool) :
    ∀ i, ¬ (t.dropSocket onlyLive).Live i := by
  intro i hi
  obtain ⟨state, hstate, hlive⟩ := live_iff.mp hi
  unfold Tab.dropSocket at hstate
  cases hsocket : t.client.socket with
  | none =>
    rw [hsocket] at hstate
    have hcurrent := h i (live_iff.mpr ⟨state, hstate, hlive⟩)
    rw [hsocket] at hcurrent
    cases hcurrent
  | some j =>
    rw [hsocket] at hstate
    dsimp only at hstate
    split at hstate
    next hskip =>
      have hold : t.Live i := live_iff.mpr ⟨state, hstate, hlive⟩
      have hcurrent := h i hold
      rw [hsocket] at hcurrent
      have hij := Option.some.inj hcurrent
      subst hij
      simp [hold] at hskip
    next =>
      have hturned : (t.turn j closeCalled).readyState? i = some state := hstate
      rw [readyState?_turn] at hturned
      obtain ⟨before, hbefore, hafter⟩ := Option.map_eq_some_iff.mp hturned
      by_cases hji : j = i
      · rw [if_pos hji] at hafter
        rw [← hafter] at hlive
        cases before with
        | connecting => cases hlive
        | opened => cases hlive
        | closing => cases hlive
        | closed => cases hlive
      · rw [if_neg hji] at hafter
        have hsame : before = state := hafter
        rw [hsame] at hbefore
        have hcurrent := h i (live_iff.mpr ⟨state, hbefore, hlive⟩)
        rw [hsocket] at hcurrent
        exact hji (Option.some.inj hcurrent)

theorem sockets_dropSocket (h : ∀ s ∈ t.sockets, s.asked = true) (onlyLive : Bool) :
    ∀ s ∈ (t.dropSocket onlyLive).sockets, s.asked = true := by
  unfold Tab.dropSocket
  cases t.client.socket with
  | none => exact h
  | some j =>
    dsimp only
    split
    next => exact h
    next => exact asked_turn h j closeCalled

theorem Tab.dropSocket_rest (t : Tab) (onlyLive : Bool) :
    (t.dropSocket onlyLive).client = { t.client with socket := none } ∧
      (t.dropSocket onlyLive).armed = t.armed ∧ (t.dropSocket onlyLive).intended = t.intended ∧
        (t.dropSocket onlyLive).hidden = t.hidden := by
  unfold Tab.dropSocket
  cases t.client.socket with
  | none => exact ⟨rfl, rfl, rfl, rfl⟩
  | some j =>
    dsimp only
    split
    next => exact ⟨rfl, rfl, rfl, rfl⟩
    next => exact ⟨rfl, rfl, rfl, rfl⟩

theorem Tab.Tracked.connect (h : t.Tracked) (hshown : t.hidden = false) (fails : Bool) :
    (t.connect fails).Tracked ∧ (t.connect fails).Provided := by
  unfold Tab.connect
  apply Tab.Tracked.openSocket
  · refine ⟨h.current, h.held, h.asked, h.timer, ?_, fun _ => rfl, ?_, rfl, fun _ => hshown.symm⟩
    · intro hidle
      rcases hidle with hnot | hhidden
      · cases hnot
      · have hhidden' : t.hidden = true := hhidden
        rw [hshown] at hhidden'
        cases hhidden'
    · intro hnot
      cases hnot
  · rfl
  · exact hshown

/-- A client without a timer, once it has dropped its socket. -/
theorem tracked_dropSocket (hcurrent : ∀ i, t.Live i → t.client.socket = some i)
    (hasked : ∀ s ∈ t.sockets, s.asked = true) (harmed : t.armed = [])
    (htimer : t.client.reconnectTimer = none) (hmanual : t.client.manuallyClosed = !t.intended)
    (hlistening : t.client.visibilityListener = t.intended)
    (hpaused : t.intended = true → t.client.pausedForVisibility = t.hidden) (onlyLive : Bool) :
    (t.dropSocket onlyLive).Tracked := by
  obtain ⟨hclient, harmed', hintended, hhidden⟩ := t.dropSocket_rest onlyLive
  refine ⟨?_, ?_, sockets_dropSocket hasked onlyLive, ?_, ?_, ?_, ?_, ?_, ?_⟩
  · intro i hi
    exact absurd hi (not_live_dropSocket hcurrent onlyLive i)
  · intro i hi
    rw [hclient] at hi
    cases hi
  · rw [harmed', harmed, hclient]
    show [] = t.client.reconnectTimer.toList
    rw [htimer]
    rfl
  · intro _
    rw [hclient]
    exact ⟨rfl, htimer⟩
  · intro hi
    rw [hintended] at hi
    rw [hclient]
    show t.client.manuallyClosed = false
    rw [hmanual, hi]
    rfl
  · intro hi
    rw [hintended] at hi
    rw [hclient]
    apply Or.inl
    show t.client.manuallyClosed = true
    rw [hmanual, hi]
    rfl
  · rw [hclient, hintended]
    exact hlistening
  · intro hi
    rw [hintended] at hi
    rw [hclient, hhidden]
    exact hpaused hi

theorem Tab.Tracked.close (h : t.Tracked) : t.close.Tracked ∧ t.close.Provided := by
  have hintended : t.close.intended = false := by
    unfold Tab.close
    rw [(Tab.dropSocket_rest _ false).2.2.1]
    exact congrArg Tab.intended (@Tab.clearReconnectTimer_eq { t with
      intended := false, client := { t.client with manuallyClosed := true } } h.timer)
  refine ⟨?_, fun hi => ?_⟩
  · unfold Tab.close
    rw [@Tab.clearReconnectTimer_eq { t with
      intended := false, client := { t.client with manuallyClosed := true } } h.timer]
    apply tracked_dropSocket
    · exact h.current
    · exact h.asked
    · rfl
    · rfl
    · rfl
    · rfl
    · intro hi
      cases hi
  · rw [hintended] at hi
    cases hi

theorem Tab.Tracked.owner (h : t.Tracked) {c : OwnerCall} (hok : OwnerOk t c) :
    (t.owner c).Tracked ∧ (t.owner c).Provided := by
  cases c with
  | connect fails => exact h.connect hok fails
  | close => exact h.close

theorem hidden_openSocket (fails : Bool) (t : Tab) : (t.openSocket fails).hidden = t.hidden := by
  have hclear : t.clearReconnectTimer.hidden = t.hidden := by
    unfold Tab.clearReconnectTimer
    cases t.client.reconnectTimer with
    | none => rfl
    | some timer => rfl
  unfold Tab.openSocket
  split
  next => rfl
  next =>
    split
    next => rfl
    next =>
      split
      next => exact hclear
      next => rfl

theorem hidden_owner (t : Tab) (c : OwnerCall) : (t.owner c).hidden = t.hidden := by
  cases c with
  | connect fails => exact hidden_openSocket fails _
  | close =>
    show t.close.hidden = t.hidden
    unfold Tab.close
    rw [(Tab.dropSocket_rest _ false).2.2.2]
    unfold Tab.clearReconnectTimer
    cases t.client.reconnectTimer with
    | none => rfl
    | some timer => rfl

/-- The calls of the subscribers of an event, one after the other. -/
theorem Tab.Tracked.calls (h : t.Tracked) {calls : List OwnerCall} (hok : ∀ c ∈ calls, OwnerOk t c) :
    (calls.foldl Tab.owner t).Tracked ∧ (calls.foldl Tab.owner t).hidden = t.hidden := by
  induction calls generalizing t with
  | nil => exact ⟨h, rfl⟩
  | cons c rest ih =>
    have hafter := (h.owner (hok c List.mem_cons_self)).1
    have hrest : ∀ d ∈ rest, OwnerOk (t.owner c) d := by
      intro d hd
      have hd' := hok d (List.mem_cons_of_mem c hd)
      cases d with
      | connect fails =>
        show (t.owner c).hidden = false
        rw [hidden_owner]
        exact hd'
      | close => trivial
    obtain ⟨hkept, hhidden⟩ := ih hafter hrest
    rw [hidden_owner] at hhidden
    exact ⟨hkept, hhidden⟩

theorem Tab.Tracked.visibility (h : t.Tracked) (hprovided : t.Provided) (hidden : Bool) :
    (if t.client.visibilityListener then ({ t with hidden := hidden } : Tab).visibilityChanged
      else { t with hidden := hidden }).Tracked ∧
    (if t.client.visibilityListener then ({ t with hidden := hidden } : Tab).visibilityChanged
      else { t with hidden := hidden }).Provided := by
  by_cases hintended : t.intended = true
  · have hlistening := h.listening
    rw [hintended] at hlistening
    rw [if_pos hlistening]
    have hmanual := h.manual hintended
    have hpaused := h.paused hintended
    unfold Tab.visibilityChanged
    cases hidden with
    | true =>
      rw [if_pos rfl, @Tab.clearReconnectTimer_eq { t with
        hidden := true, client := { t.client with pausedForVisibility := true } } h.timer]
      refine ⟨?_, ?_⟩
      · apply tracked_dropSocket
        · exact h.current
        · exact h.asked
        · rfl
        · rfl
        · show t.client.manuallyClosed = !t.intended
          rw [hmanual, hintended]
          rfl
        · exact h.listening
        · intro _
          rfl
      · intro _ hshown
        rw [(Tab.dropSocket_rest _ true).2.2.2] at hshown
        cases hshown
    | false =>
      rw [if_neg (by simp)]
      by_cases hbefore : t.hidden = true
      · have hidle := h.idle (Or.inr hbefore)
        rw [hbefore] at hpaused
        rw [if_neg (by simp [hpaused])]
        apply Tab.Tracked.scheduleReconnect
        · exact ⟨h.current, h.held, h.asked, h.timer, fun _ => hidle, h.manual, h.closedBy,
            h.listening, fun _ => rfl⟩
        · exact hintended
        · rfl
      · have hshown : t.hidden = false := eq_false_of_ne_true hbefore
        have hsame : ({ t with hidden := false } : Tab) = t := by
          rw [← hshown]
        rw [hshown] at hpaused
        rw [hsame, if_pos (by simp [hpaused])]
        exact ⟨h, hprovided⟩
  · have hlistening := h.listening
    have hnot : t.intended = false := eq_false_of_ne_true hintended
    rw [hnot] at hlistening
    rw [if_neg (by simp [hlistening])]
    have hidle := h.idle (Or.inl hnot)
    refine ⟨⟨h.current, h.held, h.asked, h.timer, fun _ => hidle, h.manual, h.closedBy,
      h.listening, fun hi => absurd hi hintended⟩, fun hi => absurd hi hintended⟩

theorem live_turn_of_live {i j : Nat} {f : ReadyState → ReadyState}
    (h : ∀ state, t.readyState? i = some state → (f state).live = true → state.live = true)
    (hj : (t.turn i f).Live j) : t.Live j := by
  obtain ⟨state, hstate, hlive⟩ := live_iff.mp hj
  rw [readyState?_turn] at hstate
  obtain ⟨before, hbefore, hafter⟩ := Option.map_eq_some_iff.mp hstate
  by_cases hij : i = j
  · subst hij
    rw [if_pos rfl] at hafter
    rw [← hafter] at hlive
    exact live_iff.mpr ⟨before, hbefore, h before hbefore hlive⟩
  · rw [if_neg hij] at hafter
    have hsame : before = state := hafter
    exact live_iff.mpr ⟨before, hbefore, hsame ▸ hlive⟩

/-- A socket that is not closed turns to another state, in which it is live only if it was. -/
theorem Tab.Tracked.turn (h : t.Tracked) {i : Nat} {state next : ReadyState}
    (hstate : t.readyState? i = some state) (hlive : next.live = true → state.live = true)
    (hnext : next ≠ .closed) : (t.turn i (fun _ => next)).Tracked := by
  refine ⟨?_, ?_, asked_turn h.asked i _, h.timer, h.idle, h.manual, ?_, h.listening, h.paused⟩
  · intro j hj
    apply h.current j
    refine live_turn_of_live (fun before hbefore hafter => ?_) hj
    rw [hstate] at hbefore
    cases hbefore
    exact hlive hafter
  · intro j hj
    obtain ⟨before, hbefore, hopen⟩ := h.held j hj
    rw [readyState?_turn, hbefore]
    by_cases hij : i = j
    · rw [if_pos hij]
      exact ⟨next, rfl, hnext⟩
    · rw [if_neg hij]
      exact ⟨before, rfl, hopen⟩
  · intro hnot
    rcases h.closedBy hnot with hmanual | hnil
    · exact Or.inl hmanual
    · unfold Tab.readyState? at hstate
      rw [hnil] at hstate
      cases hstate

theorem sockets_clearReconnectTimer (t : Tab) : t.clearReconnectTimer.sockets = t.sockets := by
  unfold Tab.clearReconnectTimer
  cases t.client.reconnectTimer with
  | none => rfl
  | some timer => rfl

theorem length_dropSocket (onlyLive : Bool) (t : Tab) :
    (t.dropSocket onlyLive).sockets.length = t.sockets.length := by
  unfold Tab.dropSocket
  cases t.client.socket with
  | none => rfl
  | some j =>
    dsimp only
    split
    next => rfl
    next => exact List.length_modify _ _ _

theorem sockets_openSocket_ne_nil (fails : Bool) (h : t.sockets ≠ []) :
    (t.openSocket fails).sockets ≠ [] := by
  unfold Tab.openSocket
  split
  next => exact h
  next =>
    split
    next => exact h
    next =>
      split
      next =>
        show t.clearReconnectTimer.sockets ≠ []
        rw [sockets_clearReconnectTimer]
        exact h
      next => exact List.append_ne_nil_of_left_ne_nil h _

theorem sockets_owner_ne_nil (c : OwnerCall) (h : t.sockets ≠ []) :
    (t.owner c).sockets ≠ [] := by
  cases c with
  | connect fails => exact sockets_openSocket_ne_nil fails h
  | close =>
    have hlength : t.close.sockets.length = t.sockets.length := by
      unfold Tab.close
      rw [length_dropSocket]
      exact congrArg List.length (sockets_clearReconnectTimer _)
    apply List.ne_nil_of_length_pos
    show 0 < t.close.sockets.length
    rw [hlength]
    exact List.length_pos_iff.mpr h

theorem sockets_calls_ne_nil (calls : List OwnerCall) (h : t.sockets ≠ []) :
    (calls.foldl Tab.owner t).sockets ≠ [] := by
  induction calls generalizing t with
  | nil => exact h
  | cons c rest ih => exact ih (sockets_owner_ne_nil c h)

/-- The close event of the socket that the client holds, or of one it has dropped, while it holds
no live one. -/
theorem Tab.Tracked.handleClosure (h : t.Tracked) {i : Nat} {state : ReadyState}
    (hstate : t.readyState? i = some state)
    (hheld : ∀ j, t.client.socket = some j → t.Live j → j = i) {calls : List OwnerCall}
    (hok : ∀ c ∈ calls, OwnerOk t c) :
    ((t.turn i (fun _ => .closed)).handleClosure calls).Tracked ∧
      ((t.turn i (fun _ => .closed)).handleClosure calls).Provided := by
  have hsockets : (t.turn i (fun _ => .closed)).sockets ≠ [] := sockets_turn_ne_nil hstate
  have hclosed : t.intended = false → t.client.manuallyClosed = true := by
    intro hnot
    rcases h.closedBy hnot with hmanual | hnil
    · exact hmanual
    · unfold Tab.readyState? at hstate
      rw [hnil] at hstate
      cases hstate
  have hnone : ∀ j, ¬ (t.turn i (fun _ => .closed)).Live j := by
    intro j hj
    obtain ⟨after, hafter, hlive⟩ := live_iff.mp hj
    rw [readyState?_turn] at hafter
    obtain ⟨before, hbefore, hturned⟩ := Option.map_eq_some_iff.mp hafter
    by_cases hij : i = j
    · rw [if_pos hij] at hturned
      rw [← hturned] at hlive
      cases hlive
    · rw [if_neg hij] at hturned
      have hsame : before = after := hturned
      have hold : t.Live j := live_iff.mpr ⟨before, hbefore, hsame ▸ hlive⟩
      exact hij (hheld j (h.current j hold) hold).symm
  unfold Tab.handleClosure
  generalize hu : ({ t.turn i (fun _ => .closed) with
    client := { (t.turn i (fun _ => .closed)).client with socket := none } } : Tab) = u
  have hkept : u.Tracked := by
    subst hu
    refine ⟨fun j hj => absurd hj (hnone j), fun j hj => ?_,
      asked_turn h.asked i (fun _ => .closed), h.timer,
      fun hidle => ⟨rfl, (h.idle hidle).2⟩, h.manual, fun hnot => Or.inl (hclosed hnot),
      h.listening, h.paused⟩
    cases hj
  have hcalls : ∀ c ∈ calls, OwnerOk u c := by
    subst hu
    intro c hc
    have hc' := hok c hc
    cases c with
    | connect fails => exact hc'
    | close => trivial
  have hmade : u.sockets ≠ [] := by
    subst hu
    exact hsockets
  obtain ⟨hafter, hhidden⟩ := hkept.calls hcalls
  have hmore := sockets_calls_ne_nil calls hmade
  dsimp only
  split
  next hstop =>
    refine ⟨hafter, fun hintended hshown => ?_⟩
    rw [hafter.manual hintended, hafter.paused hintended, hshown] at hstop
    cases hstop
  next hgo =>
    rw [Bool.or_eq_true, not_or] at hgo
    have hmanual := eq_false_of_ne_true hgo.1
    have hpaused := eq_false_of_ne_true hgo.2
    have hintended : (calls.foldl Tab.owner u).intended = true := by
      by_contra hno
      rcases hafter.closedBy (eq_false_of_ne_true hno) with hyes | hnil
      · rw [hmanual] at hyes
        cases hyes
      · exact hmore hnil
    have hshown := hafter.paused hintended
    rw [hpaused] at hshown
    exact hafter.retry hintended hshown.symm

theorem Tab.Tracked.step {t t' : Tab} (h : t.Tracked) (hprovided : t.Provided) {e : TabEvent}
    (hok : TabOk t e) (hstep : tabStep t e = some t') : t'.Tracked ∧ t'.Provided := by
  cases e with
  | call c =>
    have he := Option.some.inj hstep
    subst he
    exact h.owner hok
  | visibility hidden =>
    have he := Option.some.inj hstep
    subst he
    exact h.visibility hprovided hidden
  | timer timer fails =>
    simp only [tabStep] at hstep
    split at hstep
    next hmem =>
      have he := Option.some.inj hstep
      subst he
      rw [h.timer] at hmem
      have hset : t.client.reconnectTimer = some timer := Option.mem_toList.mp hmem
      have hintended : t.intended = true := by
        by_contra hno
        have hidle := (h.idle (Or.inl (eq_false_of_ne_true hno))).2
        rw [hset] at hidle
        cases hidle
      have hshown : t.hidden = false := by
        by_contra hno
        have hidle := (h.idle (Or.inr (eq_true_of_ne_false hno))).2
        rw [hset] at hidle
        cases hidle
      have hempty : t.armed.filter (fun a => a.1 ≠ timer) = [] := by
        apply List.filter_eq_nil_iff.mpr
        intro a ha
        have hamem : a.1 ∈ t.armed.map Prod.fst := List.mem_map_of_mem ha
        rw [h.timer, hset] at hamem
        simp [List.mem_singleton.mp hamem]
      rw [hempty]
      apply Tab.Tracked.openSocket
      · exact ⟨h.current, h.held, h.asked, rfl, fun hidle => absurd hidle (not_idle hintended hshown),
          h.manual, h.closedBy, h.listening, h.paused⟩
      · exact hintended
      · exact hshown
    next => cases hstep
  | opened i =>
    simp only [tabStep] at hstep
    split at hstep
    next hstate =>
      have he := Option.some.inj hstep
      subst he
      have hkept := @Tab.Tracked.turn t h i .connecting .opened hstate (fun _ => rfl) (by simp)
      exact ⟨⟨hkept.current, hkept.held, hkept.asked, hkept.timer, hkept.idle, hkept.manual,
        hkept.closedBy, hkept.listening, hkept.paused⟩, hprovided⟩
    next => cases hstep
  | closing i =>
    simp only [tabStep] at hstep
    split at hstep
    next hstate =>
      have he := Option.some.inj hstep
      subst he
      exact ⟨h.turn hstate (fun _ => rfl) (by simp), hprovided⟩
    next => cases hstep
  | error i =>
    simp only [tabStep] at hstep
    split at hstep
    next =>
      have he := Option.some.inj hstep
      subst he
      exact ⟨h, hprovided⟩
    next => cases hstep
  | closed i calls =>
    simp only [tabStep] at hstep
    split at hstep
    next hopen =>
      have he := Option.some.inj hstep
      subst he
      obtain ⟨state, hstate, _⟩ := (Option.any_eq_true _ _).mp hopen
      exact h.handleClosure hstate hok.1 hok.2
    next => cases hstep

theorem Tab.Tracked.quiet (h : t.Tracked) : t.Quiet := by
  refine ⟨?_, h.asked, ?_⟩
  · intro i j hi hj
    have hcurrent := h.current i hi
    rw [h.current j hj] at hcurrent
    exact (Option.some.inj hcurrent).symm
  · intro hidle
    have hnone := h.timer
    rw [(h.idle hidle).2] at hnone
    exact List.map_eq_nil_iff.mp hnone

theorem Tab.Tracked.served_iff (h : t.Tracked) (hprovided : t.Provided) :
    t.Served ↔ ¬ t.Waits := by
  have hlength : t.armed.length = t.client.reconnectTimer.toList.length := by
    rw [← h.timer, List.length_map]
  constructor
  · intro hserved hwaits
    obtain ⟨hintended, hshown, hnone, i, hsocket, hclosing⟩ := hwaits
    rcases hserved hintended hshown with ⟨j, hj⟩ | hone
    · have hcurrent := h.current j hj
      rw [hsocket] at hcurrent
      have hij := Option.some.inj hcurrent
      subst hij
      obtain ⟨state, hstate, hlive⟩ := live_iff.mp hj
      rw [hclosing] at hstate
      cases hstate
      cases hlive
    · rw [hnone] at hone
      cases hone
  · intro hwaits hintended hshown
    cases htimer : t.client.reconnectTimer with
    | some timer =>
      apply Or.inr
      rw [hlength, htimer]
      rfl
    | none =>
      apply Or.inl
      rcases hprovided hintended hshown with hsocket | hset
      · obtain ⟨i, hi⟩ := Option.isSome_iff_exists.mp hsocket
        obtain ⟨state, hstate, hopen⟩ := h.held i hi
        refine ⟨i, live_iff.mpr ⟨state, hstate, ?_⟩⟩
        cases state with
        | connecting => rfl
        | opened => rfl
        | closed => exact absurd rfl hopen
        | closing =>
          have hnone : t.armed = [] := by
            apply List.eq_nil_of_length_eq_zero
            rw [hlength, htimer]
            rfl
          exact absurd ⟨hintended, hshown, hnone, i, hi, hstate⟩ hwaits
      · rw [htimer] at hset
        cases hset

theorem tracked_initial (hidden : Bool) : ({ hidden := hidden } : Tab).Tracked ∧
    ({ hidden := hidden } : Tab).Provided := by
  refine ⟨⟨?_, ?_, ?_, rfl, fun _ => ⟨rfl, rfl⟩, ?_, fun _ => Or.inr rfl, rfl, ?_⟩, ?_⟩
  · intro i hi
    cases hi
  · intro i hi
    cases hi
  · intro s hs
    cases hs
  · intro hi
    cases hi
  · intro hi
    cases hi
  · intro hi
    cases hi

/-- In a run in which `connect()` is called in a tab that is shown, and no close event of a socket
the client has dropped comes while it holds a newer live one, the client keeps one live socket at most,
opens none and keeps no timer when it is closed or hidden, and is otherwise served, except between
the start of the server's closing of its socket and the close event. -/
theorem one_socket {hidden : Bool} {t : Tab} {events : List TabEvent}
    (run : Run (Guarded (fun before e after => tabStep before e = some after) TabOk)
      { hidden := hidden } events t) : t.Quiet ∧ (t.Served ↔ ¬ t.Waits) := by
  have hkept : t.Tracked ∧ t.Provided := by
    refine @Run.invariant _ _ _ (fun t : Tab => t.Tracked ∧ t.Provided)
      (fun before e after h hstep => ?_) _ _ _ run (tracked_initial hidden)
    exact h.1.step h.2 hstep.1 hstep.2
  exact ⟨hkept.1.quiet, hkept.1.served_iff hkept.2⟩

/-- The tab goes to the background and comes back before its first socket has closed. -/
def hiddenAndBack : List TabEvent :=
  [.call (.connect false), .opened 0, .visibility true, .visibility false, .timer 0 false]

def afterTabEvents (events : List TabEvent) : Tab :=
  events.foldl (fun t e => (tabStep t e).getD t) { hidden := false }

theorem hidden_and_back_served :
    (afterTabEvents hiddenAndBack).Live 1 ∧ (afterTabEvents hiddenAndBack).Quiet ∧
      ((afterTabEvents hiddenAndBack).Served ↔ ¬ (afterTabEvents hiddenAndBack).Waits) := by
  have run : Run (Guarded (fun before e after => tabStep before e = some after) TabOk)
      { hidden := false } hiddenAndBack (afterTabEvents hiddenAndBack) :=
    Run.cons ⟨rfl, rfl⟩ (Run.cons ⟨trivial, rfl⟩ (Run.cons ⟨trivial, rfl⟩
      (Run.cons ⟨trivial, rfl⟩ (Run.single ⟨trivial, rfl⟩))))
  exact ⟨by decide +kernel, one_socket run⟩

/-- The close event of the first socket, after the second was opened, makes the client forget the
second: its timer opens a third. -/
theorem stale_close_doubles_socket :
    ¬ ∀ events t, Run (fun before e after => tabStep before e = some after) { hidden := false }
      events t → t.Quiet ∧ t.Served := by
  intro h
  have run : Run (fun before e after => tabStep before e = some after) { hidden := false }
      (hiddenAndBack ++ [.closed 0 [], .timer 1 false])
      (afterTabEvents (hiddenAndBack ++ [.closed 0 [], .timer 1 false])) :=
    Run.cons rfl (Run.cons rfl (Run.cons rfl (Run.cons rfl (Run.cons rfl (Run.cons rfl
      (Run.single rfl))))))
  have hsingle := (h _ _ run).1.single 1 2 (by decide +kernel) (by decide +kernel)
  omega

end NovaVe
