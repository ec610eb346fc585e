import NovaVe.PortSeparation
import NovaVe.Runs

namespace NovaVe

inductive DragLinkState
  | idle
  | portPressed
  | dragging
  | nearTarget
  | confirming
deriving DecidableEq, Repr

inductive DragEndpoint
  | interface (nodeId interfaceIndex : Int) (port : PortPosition)
      (interfaceName plannedMac : Option String)
  | nodeSlot (nodeId : Int) (port : PortPosition) (nodeName : Option String)
  | network (networkId : Int) (side : PortSide) (offset : ℚ) (networkName : Option String)
deriving DecidableEq, Repr

inductive LinkStyle
  | orthogonal
  | bezier
  | straight
deriving DecidableEq, Repr

structure DragLinkSnapshot where
  state : DragLinkState
  source : Option DragEndpoint
  target : Option DragEndpoint
  pointer : Option (ℚ × ℚ)
  idempotencyKey : Option String
  styleOverride : Option LinkStyle
deriving DecidableEq, Repr

variable {snapshot : DragLinkSnapshot}

def emptySnapshot : DragLinkSnapshot := ⟨.idle, none, none, none, none, none⟩

def DragEndpoint.isNetwork : DragEndpoint → Bool
  | .network _ _ _ _ => true
  | _ => false

def DragEndpoint.nodeId : DragEndpoint → Option Int
  | .interface nodeId _ _ _ _ => some nodeId
  | .nodeSlot nodeId _ _ => some nodeId
  | .network _ _ _ _ => none

def isLegalEndpointPair (source target : DragEndpoint) : Bool :=
  if source.isNetwork && target.isNetwork then false
  else if source.nodeId ≠ none ∧ source.nodeId = target.nodeId then false
  else true

/-- The pair of a source and a target is legal, where both are there. -/
def pairLegal (source target : Option DragEndpoint) : Bool :=
  match source, target with
  | some source, some target => isLegalEndpointPair source target
  | _, _ => true

/-- A call of the store. A start brings the key that the factory draws for it. -/
inductive DragCall
  | start (source : DragEndpoint) (pointer : Option (ℚ × ℚ)) (key : String)
  | move (pointer : ℚ × ℚ) (target : Option (Option DragEndpoint)) (nearTarget : Option Bool)
  | hover (target : Option DragEndpoint)
  | enterTargetZone
  | leaveTargetZone
  | release (pointer : ℚ × ℚ) (targetReachable : Bool)
  | confirm (styleOverride : Option LinkStyle)
  | cancel
  | reset
deriving DecidableEq, Repr

/-- No drag can be moved: there is none, or it is being confirmed. -/
def DragLinkSnapshot.settled (snapshot : DragLinkSnapshot) : Bool :=
  decide (snapshot.state = .idle) || decide (snapshot.state = .confirming)

/-- The state after `move`. -/
def movedState (state : DragLinkState) (legal : Bool) (nearTarget : Option Bool) :
    DragLinkState :=
  let nextState := if state = .portPressed then .dragging else state
  if nearTarget = some true ∧ legal = true then .nearTarget
  else if (nearTarget = some false ∨ nearTarget = some true ∧ legal = false) ∧
      nextState = .nearTarget then .dragging
  else nextState

/-- A release on the target confirms the link. -/
def DragLinkSnapshot.reaches (snapshot : DragLinkSnapshot) (targetReachable : Bool) : Bool :=
  match snapshot.target, snapshot.source with
  | some target, some source => targetReachable && isLegalEndpointPair source target
  | _, _ => false

def DragLinkSnapshot.call (snapshot : DragLinkSnapshot) : DragCall → DragLinkSnapshot
  | .start source pointer key => ⟨.portPressed, some source, none, pointer, some key, none⟩
  | .move pointer target nearTarget =>
    if snapshot.settled then snapshot
    else
      let nextTarget := target.getD snapshot.target
      let legal := pairLegal snapshot.source nextTarget
      { snapshot with
        state := movedState snapshot.state legal nearTarget
        pointer := some pointer
        target := if legal then nextTarget else none }
  | .hover target =>
    if snapshot.settled then snapshot
    else if pairLegal snapshot.source target then { snapshot with target := target }
    else { snapshot with target := none }
  | .enterTargetZone =>
    if snapshot.state ≠ .dragging then snapshot
    else if pairLegal snapshot.source snapshot.target then { snapshot with state := .nearTarget }
    else snapshot
  | .leaveTargetZone =>
    if snapshot.state = .nearTarget then { snapshot with state := .dragging, target := none }
    else snapshot
  | .release pointer targetReachable =>
    if snapshot.settled then snapshot
    else if snapshot.reaches targetReachable then
      { snapshot with state := .confirming, pointer := some pointer }
    else emptySnapshot
  | .confirm styleOverride =>
    if snapshot.state ≠ .confirming then snapshot
    else { snapshot with styleOverride := styleOverride }
  | .cancel => emptySnapshot
  | .reset => emptySnapshot

def runDrag (history : List DragCall) : DragLinkSnapshot :=
  history.foldl DragLinkSnapshot.call emptySnapshot

/-- What the canvas relies on in every snapshot. -/
structure DragLinkSnapshot.Sound (snapshot : DragLinkSnapshot) : Prop where
  idle : snapshot.state = .idle → snapshot = emptySnapshot
  held : snapshot.state ≠ .idle → snapshot.source ≠ none ∧ snapshot.idempotencyKey ≠ none
  legal : pairLegal snapshot.source snapshot.target = true
  chosen : snapshot.state = .confirming → snapshot.target ≠ none
  styled : snapshot.styleOverride ≠ none → snapshot.state = .confirming

theorem emptySnapshot_sound : emptySnapshot.Sound where
  idle _ := rfl
  held h := absurd rfl h
  legal := rfl
  chosen h := DragLinkState.noConfusion h
  styled h := absurd rfl h

theorem not_settled (h : ¬ snapshot.settled = true) :
    snapshot.state ≠ .idle ∧ snapshot.state ≠ .confirming := by
  simpa [DragLinkSnapshot.settled] using h

theorem movedState_live {state : DragLinkState} (h : state ≠ .idle ∧ state ≠ .confirming)
    (legal : Bool) (nearTarget : Option Bool) :
    movedState state legal nearTarget ≠ .idle ∧
      movedState state legal nearTarget ≠ .confirming := by
  unfold movedState
  have hnext : (if state = .portPressed then DragLinkState.dragging else state) ≠ .idle ∧
      (if state = .portPressed then DragLinkState.dragging else state) ≠ .confirming := by
    split
    next => exact ⟨by decide, by decide⟩
    next => exact h
  simp only
  generalize (if state = .portPressed then DragLinkState.dragging else state) = nextState at hnext ⊢
  split
  next => exact ⟨by decide, by decide⟩
  next =>
    split
    next => exact ⟨by decide, by decide⟩
    next => exact hnext

/-- A snapshot that is being dragged, with another pointer and a legal target. -/
theorem dragged_sound {snapshot dragged : DragLinkSnapshot} (hs : snapshot.Sound)
    (hlive : snapshot.state ≠ .idle ∧ snapshot.state ≠ .confirming)
    (hdragged : dragged.state ≠ .idle ∧ dragged.state ≠ .confirming)
    (hsource : dragged.source = snapshot.source)
    (hkey : dragged.idempotencyKey = snapshot.idempotencyKey)
    (hstyle : dragged.styleOverride = snapshot.styleOverride)
    (hlegal : pairLegal dragged.source dragged.target = true) : dragged.Sound where
  idle h := absurd h hdragged.1
  held _ := by rw [hsource, hkey]; exact hs.held hlive.1
  legal := hlegal
  chosen h := absurd h hdragged.2
  styled h := absurd (hs.styled (hstyle ▸ h)) hlive.2

theorem pairLegal_none (source : Option DragEndpoint) : pairLegal source none = true := by
  cases source <;> rfl

theorem reaches_iff {targetReachable : Bool} :
    snapshot.reaches targetReachable = true ↔ targetReachable = true ∧
      snapshot.source ≠ none ∧ snapshot.target ≠ none ∧
        pairLegal snapshot.source snapshot.target = true := by
  unfold DragLinkSnapshot.reaches pairLegal
  cases snapshot.target <;> cases snapshot.source <;> simp

/-- Every call of the store keeps its snapshot sound. -/
theorem call_sound (hs : snapshot.Sound) (call : DragCall) :
    (snapshot.call call).Sound := by
  cases call with
  | start source pointer key =>
    exact ⟨fun h => DragLinkState.noConfusion h, fun _ => ⟨Option.some_ne_none _,
      Option.some_ne_none _⟩, pairLegal_none _, fun h => DragLinkState.noConfusion h,
      fun h => absurd rfl h⟩
  | move pointer target nearTarget =>
    unfold DragLinkSnapshot.call
    simp only
    split
    next => exact hs
    next hlive =>
      have hlive := not_settled hlive
      refine dragged_sound hs hlive (movedState_live hlive _ _) rfl rfl rfl ?_
      simp only
      split
      next hlegal => exact hlegal
      next => exact pairLegal_none _
  | hover target =>
    unfold DragLinkSnapshot.call
    simp only
    split
    next => exact hs
    next hlive =>
      have hlive := not_settled hlive
      split
      next hlegal => exact dragged_sound hs hlive hlive rfl rfl rfl hlegal
      next => exact dragged_sound hs hlive hlive rfl rfl rfl (pairLegal_none _)
  | enterTargetZone =>
    unfold DragLinkSnapshot.call
    simp only
    split
    next => exact hs
    next hstate =>
      have hstate := not_not.mp hstate
      split
      next hlegal =>
        exact dragged_sound hs (by simp [hstate]) ⟨by simp, by simp⟩ rfl rfl rfl hlegal
      next => exact hs
  | leaveTargetZone =>
    unfold DragLinkSnapshot.call
    simp only
    split
    next hstate =>
      exact dragged_sound hs (by simp [hstate]) ⟨by simp, by simp⟩ rfl rfl rfl (pairLegal_none _)
    next => exact hs
  | release pointer targetReachable =>
    unfold DragLinkSnapshot.call
    simp only
    split
    next => exact hs
    next hlive =>
      have hlive := not_settled hlive
      split
      next hreaches =>
        obtain ⟨_, _, htarget, hlegal⟩ := reaches_iff.mp hreaches
        exact ⟨fun h => DragLinkState.noConfusion h, fun _ => hs.held hlive.1, hlegal,
          fun _ => htarget, fun _ => rfl⟩
      next => exact emptySnapshot_sound
  | confirm styleOverride =>
    unfold DragLinkSnapshot.call
    simp only
    split
    next => exact hs
    next hstate =>
      have hstate := not_not.mp hstate
      exact ⟨fun h => absurd (h.symm.trans hstate) (by decide), hs.held, hs.legal, hs.chosen,
        fun _ => hstate⟩
  | cancel => exact emptySnapshot_sound
  | reset => exact emptySnapshot_sound

theorem runDrag_sound (history : List DragCall) : (runDrag history).Sound := by
  induction history using List.reverseRecOn with
  | nil => exact emptySnapshot_sound
  | append_singleton history call ih =>
    rw [runDrag, List.foldl_append]
    exact call_sound ih call

/-- What a drag holds: its source and its key. -/
def DragLinkSnapshot.drag (snapshot : DragLinkSnapshot) : Option (DragEndpoint × String) := do
  let source ← snapshot.source
  let key ← snapshot.idempotencyKey
  return (source, key)

/-- The source, the target and the key that a link would have. -/
def DragLinkSnapshot.pair (snapshot : DragLinkSnapshot) :
    Option (DragEndpoint × DragEndpoint × String) := do
  let (source, key) ← snapshot.drag
  let target ← snapshot.target
  return (source, target, key)

/-- The link that is being confirmed. -/
def DragLinkSnapshot.link (snapshot : DragLinkSnapshot) :
    Option (DragEndpoint × DragEndpoint × String) :=
  if snapshot.state ≠ .confirming then none else snapshot.pair

def DragCall.isStart : DragCall → Bool
  | .start _ _ _ => true
  | _ => false

def DragCall.isEnd : DragCall → Bool
  | .cancel => true
  | .reset => true
  | _ => false

/-- What a call starts to hold. -/
def DragCall.dragOf : DragCall → Option (DragEndpoint × String)
  | .start source _ key => some (source, key)
  | _ => none

/-- A call drops what is held: a cancel, a reset, or a release off the target. -/
def DragCall.drops (snapshot : DragLinkSnapshot) : DragCall → Bool
  | .release _ targetReachable => !snapshot.settled && !snapshot.reaches targetReachable
  | call => call.isEnd

/-- The link that a call leaves to be confirmed. -/
def DragCall.linkOf (snapshot : DragLinkSnapshot) : DragCall →
    Option (DragEndpoint × DragEndpoint × String)
  | .release _ targetReachable =>
    if snapshot.settled = false ∧ snapshot.reaches targetReachable = true then snapshot.pair
    else none
  | _ => none

theorem call_drag (snapshot : DragLinkSnapshot) (call : DragCall) :
    (snapshot.call call).drag = match call.dragOf with
      | some drag => some drag
      | none => if call.drops snapshot then none else snapshot.drag := by
  cases call with
  | start source pointer key => rfl
  | move pointer target nearTarget =>
    unfold DragLinkSnapshot.call
    simp only
    split <;> rfl
  | hover target =>
    unfold DragLinkSnapshot.call
    simp only
    split
    next => rfl
    next => split <;> rfl
  | enterTargetZone =>
    unfold DragLinkSnapshot.call
    simp only
    split
    next => rfl
    next => split <;> rfl
  | leaveTargetZone =>
    unfold DragLinkSnapshot.call
    simp only
    split <;> rfl
  | release pointer targetReachable =>
    unfold DragLinkSnapshot.call
    simp only [DragCall.dragOf, DragCall.drops]
    split
    next hsettled => simp [hsettled]
    next hsettled =>
      split
      next hreaches => simp only [hreaches, Bool.not_true, Bool.and_false]; rfl
      next hreaches => simp only [hsettled, hreaches, Bool.not_false, Bool.and_true]; rfl
  | confirm styleOverride =>
    unfold DragLinkSnapshot.call
    simp only
    split <;> rfl
  | cancel => rfl
  | reset => rfl

theorem link_none (h : snapshot.state ≠ .confirming) :
    snapshot.link = none := if_pos h

theorem link_other {snapshot other : DragLinkSnapshot} (h : snapshot.state ≠ .confirming)
    (hother : other.state ≠ .confirming) : snapshot.link = other.link :=
  (link_none h).trans (link_none hother).symm

theorem call_link (snapshot : DragLinkSnapshot) (call : DragCall) :
    (snapshot.call call).link = match call.linkOf snapshot with
      | some link => some link
      | none => if call.isStart || call.isEnd then none else snapshot.link := by
  cases call with
  | start source pointer key => rfl
  | move pointer target nearTarget =>
    unfold DragLinkSnapshot.call
    simp only
    split
    next => rfl
    next hlive =>
      have hlive := not_settled hlive
      exact link_other (movedState_live hlive _ _).2 hlive.2
  | hover target =>
    unfold DragLinkSnapshot.call
    simp only
    split
    next => rfl
    next hlive =>
      have hlive := not_settled hlive
      split
      next => exact link_other hlive.2 hlive.2
      next => exact link_other hlive.2 hlive.2
  | enterTargetZone =>
    unfold DragLinkSnapshot.call
    simp only
    split
    next => rfl
    next hstate =>
      have hstate := not_not.mp hstate
      split
      next => exact link_other (by simp) (by simp [hstate])
      next => rfl
  | leaveTargetZone =>
    unfold DragLinkSnapshot.call
    simp only
    split
    next hstate => exact link_other (by simp) (by simp [hstate])
    next => rfl
  | release pointer targetReachable =>
    unfold DragLinkSnapshot.call
    simp only [DragCall.linkOf]
    split
    next hsettled => simp [hsettled, DragCall.isStart, DragCall.isEnd]
    next hsettled =>
      have hlive := not_settled hsettled
      split
      next hreaches =>
        rw [if_pos ⟨by simpa using hsettled, hreaches⟩]
        change snapshot.pair = _
        cases snapshot.pair with
        | none => exact (link_none hlive.2).symm
        | some link => rfl
      next hreaches =>
        rw [if_neg (fun h => hreaches h.2)]
        exact link_other (by decide) hlive.2
  | confirm styleOverride =>
    unfold DragLinkSnapshot.call
    simp only
    split <;> rfl
  | cancel => rfl
  | reset => rfl

/-- The drag, watched in a run of calls. -/
def watchedDrag : Watched DragLinkSnapshot DragCall (DragEndpoint × String) where
  step := DragLinkSnapshot.call
  value := DragLinkSnapshot.drag
  starts _ := DragCall.dragOf
  stops snapshot call := call.drops snapshot
  moves _ drag := drag
  value_step snapshot call := by
    rw [call_drag, Option.map_id']
    cases call.dragOf <;> rfl

/-- The link that is being confirmed, watched in a run of calls. -/
def watchedLink : Watched DragLinkSnapshot DragCall (DragEndpoint × DragEndpoint × String) where
  step := DragLinkSnapshot.call
  value := DragLinkSnapshot.link
  starts snapshot call := call.linkOf snapshot
  stops _ call := call.isStart || call.isEnd
  moves _ link := link
  value_step snapshot call := by
    rw [call_link, Option.map_id']
    cases call.linkOf snapshot <;> rfl

theorem drag_eq_some {source : DragEndpoint} {key : String} :
    snapshot.drag = some (source, key) ↔
      snapshot.source = some source ∧ snapshot.idempotencyKey = some key := by
  unfold DragLinkSnapshot.drag
  cases snapshot.source <;> cases snapshot.idempotencyKey <;> simp

theorem pair_eq_some {source target : DragEndpoint} {key : String} :
    snapshot.pair = some (source, target, key) ↔ snapshot.source = some source ∧
      snapshot.target = some target ∧ snapshot.idempotencyKey = some key := by
  unfold DragLinkSnapshot.pair DragLinkSnapshot.drag
  cases snapshot.source <;> cases snapshot.target <;> cases snapshot.idempotencyKey <;> simp

/-- In every run of calls the snapshot is sound, and it holds the source and the key of the last
start, as long as nothing has dropped them. -/
theorem drag_run (history : List DragCall) : (runDrag history).Sound ∧ ∀ source key,
    (runDrag history).source = some source ∧ (runDrag history).idempotencyKey = some key ↔
      ∃ before pointer after, history = before ++ .start source pointer key :: after ∧
        watchedDrag.Quiet ((runDrag before).call (.start source pointer key)) after := by
  refine ⟨runDrag_sound history, fun source key => ?_⟩
  rw [← drag_eq_some]
  refine (watchedDrag.value_run rfl history (source, key)).trans ⟨?_, ?_⟩
  · rintro ⟨before, call, after, first, rfl, hstart, hquiet, hmoved⟩
    have hfirst : watchedDrag.moved first after = first :=
      List.foldl_fixed after
    rw [hfirst] at hmoved
    subst hmoved
    cases call with
    | start source' pointer key' =>
      cases hstart
      exact ⟨before, pointer, after, rfl, hquiet⟩
    | _ => cases hstart
  · rintro ⟨before, pointer, after, rfl, hquiet⟩
    refine ⟨before, _, after, (source, key), rfl, rfl, hquiet, ?_⟩
    exact (List.foldl_fixed after).symm

/-- A link that is being confirmed stays as it is until a start, a cancel or a reset. -/
theorem confirming_call (h : snapshot.state = .confirming) {call : DragCall}
    (hcall : call.isStart = false ∧ call.isEnd = false) :
    (snapshot.call call).state = .confirming := by
  have hsettled : snapshot.settled = true := by simp [DragLinkSnapshot.settled, h]
  cases call with
  | start source pointer key => exact Bool.noConfusion hcall.1
  | move pointer target nearTarget => simp [DragLinkSnapshot.call, hsettled, h]
  | hover target => simp [DragLinkSnapshot.call, hsettled, h]
  | enterTargetZone => simp [DragLinkSnapshot.call, h]
  | leaveTargetZone => simp [DragLinkSnapshot.call, h]
  | release pointer targetReachable => simp [DragLinkSnapshot.call, hsettled, h]
  | confirm styleOverride => simp [DragLinkSnapshot.call, h]
  | cancel => exact Bool.noConfusion hcall.2
  | reset => exact Bool.noConfusion hcall.2

theorem linkOf_confirming (h : snapshot.state = .confirming) (call : DragCall) :
    call.linkOf snapshot = none := by
  have hsettled : snapshot.settled = true := by simp [DragLinkSnapshot.settled, h]
  cases call with
  | release pointer targetReachable => simp [DragCall.linkOf, hsettled]
  | _ => rfl

theorem quiet_confirming (h : snapshot.state = .confirming) (calls : List DragCall) :
    watchedLink.Quiet snapshot calls ↔
      ∀ call ∈ calls, call.isStart = false ∧ call.isEnd = false := by
  induction calls generalizing snapshot with
  | nil => exact ⟨fun _ _ hmem => absurd hmem List.not_mem_nil, fun _ => trivial⟩
  | cons call calls ih =>
    constructor
    · rintro ⟨_, hstops, hquiet⟩
      have hcall : call.isStart = false ∧ call.isEnd = false := Bool.or_eq_false_iff.mp hstops
      exact List.forall_mem_cons.mpr ⟨hcall, (ih (confirming_call h hcall)).mp hquiet⟩
    · intro hcalls
      obtain ⟨hcall, hrest⟩ := List.forall_mem_cons.mp hcalls
      exact ⟨linkOf_confirming h call, Bool.or_eq_false_iff.mpr hcall,
        (ih (confirming_call h hcall)).mpr hrest⟩

theorem link_eq_some {source target : DragEndpoint} {key : String} :
    snapshot.link = some (source, target, key) ↔ snapshot.state = .confirming ∧
      snapshot.source = some source ∧ snapshot.target = some target ∧
        snapshot.idempotencyKey = some key := by
  rw [← pair_eq_some]
  unfold DragLinkSnapshot.link
  split
  next hstate => exact ⟨fun h => absurd h (Option.some_ne_none _).symm, fun h => absurd h.1 hstate⟩
  next hstate => exact ⟨fun h => ⟨not_not.mp hstate, h⟩, fun h => h.2⟩

theorem released_state {pointer : ℚ × ℚ} {targetReachable : Bool} (hlive : snapshot.settled = false)
    (hreaches : snapshot.reaches targetReachable = true) :
    (snapshot.call (.release pointer targetReachable)).state = .confirming := by
  simp [DragLinkSnapshot.call, hlive, hreaches]

/-- A link is being confirmed exactly when a release on a reachable target found its source, its
target and its key in a running drag, and no start, cancel or reset has come since. The pair of
its ends is legal. -/
theorem confirmed_link_iff (history : List DragCall) (source target : DragEndpoint)
    (key : String) : (runDrag history).state = .confirming ∧
      (runDrag history).source = some source ∧ (runDrag history).target = some target ∧
        (runDrag history).idempotencyKey = some key ↔
      isLegalEndpointPair source target = true ∧ ∃ before pointer after,
        history = before ++ .release pointer true :: after ∧
          (runDrag before).settled = false ∧
            (runDrag before).source = some source ∧ (runDrag before).target = some target ∧
              (runDrag before).idempotencyKey = some key ∧
                ∀ call ∈ after, call.isStart = false ∧ call.isEnd = false := by
  rw [← link_eq_some]
  refine (watchedLink.value_run rfl history (source, target, key)).trans ⟨?_, ?_⟩
  · rintro ⟨before, call, after, first, rfl, hstart, hquiet, hmoved⟩
    have hfirst : watchedLink.moved first after = first := List.foldl_fixed after
    rw [hfirst] at hmoved
    subst hmoved
    cases call with
    | release pointer targetReachable =>
      change (if (runDrag before).settled = false ∧ (runDrag before).reaches targetReachable = true
        then (runDrag before).pair else none) = _ at hstart
      split at hstart
      next hreleased =>
        obtain ⟨hlive, hreaches⟩ := hreleased
        obtain ⟨hsource, htarget, hkey⟩ := pair_eq_some.mp hstart
        obtain ⟨rfl, _, _, hlegal⟩ := reaches_iff.mp hreaches
        rw [hsource, htarget] at hlegal
        exact ⟨hlegal, before, pointer, after, rfl, hlive, hsource, htarget, hkey,
          (quiet_confirming (released_state hlive hreaches) after).mp hquiet⟩
      next => cases hstart
    | _ => cases hstart
  · rintro ⟨hlegal, before, pointer, after, rfl, hlive, hsource, htarget, hkey, hafter⟩
    have hreaches : (runDrag before).reaches true = true := by
      refine reaches_iff.mpr ⟨rfl, ?_, ?_, ?_⟩
      · rw [hsource]
        exact Option.some_ne_none _
      · rw [htarget]
        exact Option.some_ne_none _
      · rw [hsource, htarget]
        exact hlegal
    refine ⟨before, _, after, (source, target, key), rfl, ?_,
      (quiet_confirming (released_state hlive hreaches) after).mpr hafter,
      (List.foldl_fixed after).symm⟩
    exact (if_pos ⟨hlive, hreaches⟩).trans (pair_eq_some.mpr ⟨hsource, htarget, hkey⟩)

end NovaVe
