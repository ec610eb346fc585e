import NovaVe.Dict
import NovaVe.WsHub

namespace NovaVe

variable {α : Type} {ringSize : Nat}

/-- The hub with the states of its labs. -/
structure Hub (α : Type) where
  ringSize : Nat := 200
  labs : Dict String (LabState α) := Dict.empty

/-- `_get_or_create`. -/
def Hub.stateOf {α : Type} (hub : Hub α) (labId : String) : LabState α :=
  (hub.labs.get? labId).getD {}

def Hub.publish {α : Type} (hub : Hub α) (labId type rev : String) (payload : α) :
    Hub α × WsEvent α :=
  let published := publishEvent hub.ringSize (hub.stateOf labId) type rev payload
  ({ hub with labs := hub.labs.set labId published.1 }, published.2)

/-- `subscribe`, less the subscriber. -/
def Hub.subscribe {α : Type} (hub : Hub α) (labId : String) : Hub α :=
  { hub with labs := hub.labs.set labId (hub.stateOf labId) }

/-- `replay_since` at any integer that a request can carry. -/
def Hub.replaySince {α : Type} (hub : Hub α) (labId : String) (lastSeq : Int) :
    List (WsEvent α) × Bool :=
  match hub.labs.get? labId with
  | none => ([], false)
  | some state =>
    match state.events with
    | [] => ([], false)
    | oldest :: _ =>
      if lastSeq = 0 then (state.events, false)
      else if lastSeq + 1 < oldest.seq then ([], true)
      else (state.events.filter (fun ev => decide (lastSeq < ev.seq)), false)

def Hub.headSeq {α : Type} (hub : Hub α) (labId : String) : Nat :=
  match hub.labs.get? labId with
  | none => 0
  | some state => NovaVe.headSeq state

theorem Hub.headSeq_eq (hub : Hub α) (labId : String) :
    hub.headSeq labId = NovaVe.headSeq (hub.stateOf labId) := by
  unfold Hub.headSeq Hub.stateOf
  cases hub.labs.get? labId with
  | none => rfl
  | some state => rfl

inductive HubAction (α : Type)
  | publish (labId type rev : String) (payload : α)
  | subscribe (labId : String)

/-- One call, and the events published to the lab so far. -/
def hubStep {α : Type} (labId : String) (s : Hub α × List (WsEvent α)) :
    HubAction α → Hub α × List (WsEvent α)
  | .publish target type rev payload =>
    let published := s.1.publish target type rev payload
    (published.1, if target = labId then s.2 ++ [published.2] else s.2)
  | .subscribe target => (s.1.subscribe target, s.2)

/-- A hub from its start, and what was published to the lab. -/
def hubRun {α : Type} (ringSize : Nat) (labId : String) (actions : List (HubAction α)) :
    Hub α × List (WsEvent α) :=
  actions.foldl (hubStep labId) ({ ringSize := ringSize }, [])

def HubOk {α : Type} (ringSize : Nat) (labId : String) (s : Hub α × List (WsEvent α)) : Prop :=
  s.1.ringSize = ringSize ∧ HubHolds ringSize (s.1.stateOf labId) s.2

theorem Hub.stateOf_set (hub : Hub α) (target labId : String) (state : LabState α) :
    ({ hub with labs := hub.labs.set target state } : Hub α).stateOf labId =
      if target = labId then state else hub.stateOf labId := by
  unfold Hub.stateOf
  dsimp only
  rw [Dict.get?_set]
  split
  next => rfl
  next => rfl

theorem HubOk.step {labId : String} {s : Hub α × List (WsEvent α)} (h : HubOk ringSize labId s)
    (action : HubAction α) :
    HubOk ringSize labId (hubStep labId s action) := by
  obtain ⟨hsize, hholds⟩ := h
  cases action with
  | publish target type rev payload =>
    refine ⟨hsize, ?_⟩
    unfold hubStep Hub.publish
    dsimp only
    rw [Hub.stateOf_set, hsize]
    by_cases htarget : target = labId
    · rw [if_pos htarget, if_pos htarget, htarget]
      exact hholds.publish type rev payload
    · rw [if_neg htarget, if_neg htarget]
      exact hholds
  | subscribe target =>
    refine ⟨hsize, ?_⟩
    unfold hubStep Hub.subscribe
    dsimp only
    rw [Hub.stateOf_set]
    by_cases htarget : target = labId
    · rw [if_pos htarget, htarget]
      exact hholds
    · rw [if_neg htarget]
      exact hholds

theorem hubOk_of_run (ringSize : Nat) (labId : String) (actions : List (HubAction α)) :
    HubOk ringSize labId (hubRun ringSize labId actions) := by
  have hfold : ∀ (actions : List (HubAction α)) (s : Hub α × List (WsEvent α)),
      HubOk ringSize labId s → HubOk ringSize labId (actions.foldl (hubStep labId) s) := by
    intro actions
    induction actions with
    | nil =>
      intro s hs
      exact hs
    | cons action rest ih =>
      intro s hs
      exact ih _ (hs.step action)
  exact hfold actions _ ⟨rfl, hubHolds_empty ringSize⟩

def Hub.ring {α : Type} (hub : Hub α) (labId : String) : List (WsEvent α) :=
  (hub.stateOf labId).events

/-- The ring is the end of what was published, as long as the bound lets it be, without a gap. -/
structure RingLaw {α : Type} (ringSize : Nat) (labId : String) (s : Hub α × List (WsEvent α)) :
    Prop where
  suffix : s.1.ring labId <:+ s.2
  length : (s.1.ring labId).length = min s.2.length ringSize
  consecutive : ∀ k e, (s.1.ring labId)[k]? = some e →
    e.seq + (s.1.ring labId).length = s.2.length + k + 1

/-- A client is replayed all that is new to it, or told to take a snapshot, the latter just when some
of it is gone from the ring or its number is beyond the head. -/
structure ReplayLaw {α : Type} (labId : String) (s : Hub α × List (WsEvent α)) (lastSeq : Int) :
    Prop where
  served : s.1.replaySince labId lastSeq =
      (s.2.filter (fun ev => decide (lastSeq < ev.seq)), false) ∨
    s.1.replaySince labId lastSeq = ([], true)
  resnapshot : s.1.replaySince labId lastSeq = ([], true) ↔
    (∃ e ∈ s.2, lastSeq < e.seq ∧ e ∉ s.1.ring labId) ∨ (s.1.headSeq labId : Int) < lastSeq

/-- The number is not beyond the head; a zero finds a ring that has lost nothing, and a negative one
either an empty ring or one that has. -/
def ReplayKeeps (ringSize published : Nat) (lastSeq : Int) : Prop :=
  lastSeq ≤ published ∧ (lastSeq = 0 → published ≤ ringSize) ∧
    (lastSeq < 0 → published = 0 ∨ ringSize < published)

theorem HubHolds.ringLaw {labId : String} {s : Hub α × List (WsEvent α)}
    (h : HubHolds ringSize (s.1.stateOf labId) s.2) :
    RingLaw ringSize labId s := by
  have hring : s.1.ring labId = s.2.drop (s.2.length - ringSize) := h.ring
  have hlength : (s.1.ring labId).length = min s.2.length ringSize := by
    rw [hring, List.length_drop]
    omega
  refine ⟨?_, hlength, ?_⟩
  · rw [hring]
    exact List.drop_suffix _ _
  · intro k e hk
    rw [hring, List.getElem?_drop] at hk
    have hseq := h.numbered _ _ hk
    obtain ⟨hlt, _⟩ := List.getElem?_eq_some_iff.mp hk
    rw [hlength]
    omega

theorem HubHolds.seq_mem_ring {state : LabState α} {log : List (WsEvent α)}
    (h : HubHolds ringSize state log) {e : WsEvent α} (he : e ∈ log) :
    e ∈ state.events ↔ log.length - ringSize < e.seq := by
  rw [h.ring]
  constructor
  · intro hmem
    obtain ⟨k, hk, hget⟩ := List.mem_iff_getElem.mp hmem
    have hsome := List.getElem?_eq_some_iff.mpr ⟨hk, hget⟩
    rw [List.getElem?_drop] at hsome
    have hseq := h.numbered _ _ hsome
    omega
  · intro hlt
    obtain ⟨k, hk, hget⟩ := List.mem_iff_getElem.mp he
    have hseq := h.numbered k e (List.getElem?_eq_some_iff.mpr ⟨hk, hget⟩)
    rw [List.mem_iff_getElem?]
    refine ⟨k - (log.length - ringSize), ?_⟩
    rw [List.getElem?_drop, show log.length - ringSize + (k - (log.length - ringSize)) = k by omega]
    exact List.getElem?_eq_some_iff.mpr ⟨hk, hget⟩

/-- Some event that is new to the client is gone from the ring. -/
theorem HubHolds.evicted_iff {state : LabState α} {log : List (WsEvent α)}
    (h : HubHolds ringSize state log) (lastSeq : Int) :
    (∃ e ∈ log, lastSeq < e.seq ∧ e ∉ state.events) ↔
      ringSize < log.length ∧ lastSeq < (log.length - ringSize : Nat) := by
  constructor
  · intro hgone
    obtain ⟨e, he, hnew, hnot⟩ := hgone
    rw [h.seq_mem_ring he] at hnot
    have hbounds := h.numbered.bounds he
    omega
  · intro hlost
    obtain ⟨hover, hnew⟩ := hlost
    have hk : log.length - ringSize - 1 < log.length := by omega
    have hsome := List.getElem?_eq_some_iff.mpr ⟨hk, rfl⟩
    have hseq := h.numbered _ _ hsome
    have hmem := List.getElem_mem hk
    refine ⟨_, hmem, by omega, ?_⟩
    rw [h.seq_mem_ring hmem]
    omega

/-- What `replay_since` answers, by the number of events and the bound of the ring. -/
theorem HubHolds.replaySince_cases {labId : String} {s : Hub α × List (WsEvent α)}
    (h : HubHolds ringSize (s.1.stateOf labId) s.2) (hpos : 0 < ringSize) (lastSeq : Int) :
    s.1.replaySince labId lastSeq =
      if s.2.length = 0 then ([], false)
      else if lastSeq = 0 then (s.1.ring labId, false)
      else if lastSeq < (s.2.length - ringSize : Nat) then ([], true)
      else (s.2.filter (fun ev => decide (lastSeq < ev.seq)), false) := by
  have hring : (s.1.stateOf labId).events = s.2.drop (s.2.length - ringSize) := h.ring
  have hlength : (s.1.stateOf labId).events.length = min s.2.length ringSize := by
    rw [hring, List.length_drop]
    omega
  unfold Hub.ring
  unfold Hub.replaySince
  unfold Hub.stateOf at hring hlength ⊢
  cases hstate : s.1.labs.get? labId with
  | none =>
    rw [hstate] at hlength
    have hzero : 0 = min s.2.length ringSize := hlength
    rw [if_pos (by omega)]
  | some state =>
    rw [hstate] at hring hlength
    dsimp only [Option.getD_some] at hring hlength ⊢
    cases hevents : state.events with
    | nil =>
      rw [hevents, List.length_nil] at hlength
      rw [if_pos (by omega)]
    | cons oldest rest =>
      rw [hevents, List.length_cons] at hlength
      have hget : s.2[s.2.length - ringSize]? = some oldest := by
        rw [← List.head?_drop, ← hring, hevents]
        rfl
      have hold := h.numbered _ _ hget
      rw [if_neg (by omega)]
      dsimp only
      split
      next => rfl
      next hne =>
        have hgap : lastSeq + 1 < (oldest.seq : Int) ↔ lastSeq < (s.2.length - ringSize : Nat) := by
          omega
        rw [if_congr hgap rfl rfl]
        split
        next => rfl
        next hkept =>
          rw [← hevents, hring]
          congr 1
          conv_rhs => rw [← List.take_append_drop (s.2.length - ringSize) s.2]
          rw [List.filter_append]
          have hnone : (s.2.take (s.2.length - ringSize)).filter
              (fun ev => decide (lastSeq < ev.seq)) = [] := by
            rw [List.filter_eq_nil_iff]
            intro e he
            obtain ⟨k, hk, hgetk⟩ := List.mem_iff_getElem.mp he
            rw [List.length_take] at hk
            rw [List.getElem_take] at hgetk
            have hseq := h.numbered k e (List.getElem?_eq_some_iff.mpr ⟨by omega, hgetk⟩)
            simp only [decide_eq_true_eq]
            omega
          rw [hnone, List.nil_append]

/-- What of the log is gone from the ring, or beyond the head. -/
theorem HubHolds.resnapshot_iff {labId : String} {s : Hub α × List (WsEvent α)}
    (h : HubHolds ringSize (s.1.stateOf labId) s.2) (lastSeq : Int) :
    ((∃ e ∈ s.2, lastSeq < e.seq ∧ e ∉ s.1.ring labId) ∨ (s.1.headSeq labId : Int) < lastSeq) ↔
      (ringSize < s.2.length ∧ lastSeq < (s.2.length - ringSize : Nat)) ∨
        (s.2.length : Int) < lastSeq := by
  have hhead : s.1.headSeq labId = s.2.length := by
    rw [Hub.headSeq_eq]
    exact h.headSeq_eq
  have hgone : (∃ e ∈ s.2, lastSeq < e.seq ∧ e ∉ s.1.ring labId) ↔
      ringSize < s.2.length ∧ lastSeq < (s.2.length - ringSize : Nat) := h.evicted_iff lastSeq
  rw [hhead, hgone]

/-- A client that is served from the ring is served lawfully when it gets all that is new to it, and
nothing of that is gone. -/
theorem HubHolds.replayLaw_served_iff {labId : String} {s : Hub α × List (WsEvent α)}
    (h : HubHolds ringSize (s.1.stateOf labId) s.2) {lastSeq : Int} {events : List (WsEvent α)}
    (hserved : s.1.replaySince labId lastSeq = (events, false)) :
    ReplayLaw labId s lastSeq ↔
      events = s.2.filter (fun ev => decide (lastSeq < ev.seq)) ∧
        ¬((ringSize < s.2.length ∧ lastSeq < (s.2.length - ringSize : Nat)) ∨
          (s.2.length : Int) < lastSeq) := by
  have hnot : ¬ s.1.replaySince labId lastSeq = ([], true) := by
    intro htrue
    rw [hserved] at htrue
    cases htrue
  constructor
  · intro hlaw
    refine ⟨?_, ?_⟩
    · rcases hlaw.served with hall | hsnapshot
      · rw [hserved] at hall
        exact (Prod.mk.inj hall).1
      · exact absurd hsnapshot hnot
    · rw [← h.resnapshot_iff lastSeq]
      exact mt hlaw.resnapshot.mpr hnot
  · intro hlaw
    obtain ⟨hall, hnone⟩ := hlaw
    refine ⟨Or.inl ?_, ?_⟩
    · rw [hserved, hall]
    · rw [h.resnapshot_iff lastSeq]
      exact iff_of_false hnot hnone

/-- A ring that has lost nothing is all that is new to a client at zero. -/
theorem HubHolds.ring_eq_filter {labId : String} {s : Hub α × List (WsEvent α)}
    (h : HubHolds ringSize (s.1.stateOf labId) s.2) (hfits : s.2.length ≤ ringSize) :
    s.1.ring labId = s.2.filter (fun ev => decide ((0 : Int) < ev.seq)) := by
  have hdrop : s.1.ring labId = s.2.drop (s.2.length - ringSize) := h.ring
  rw [hdrop, show s.2.length - ringSize = 0 by omega, List.drop_zero]
  symm
  rw [List.filter_eq_self]
  intro e he
  have hbounds := h.numbered.bounds he
  simp only [decide_eq_true_eq]
  omega

/-- After every sequence of calls the ring is the end of what was published, and the replay is as
promised just for the numbers that are not beyond the head, and zero only while nothing is lost. -/
theorem replay_law_iff {α : Type} (ringSize : Nat) (hpos : 0 < ringSize) (labId : String)
    (actions : List (HubAction α)) (lastSeq : Int) :
    RingLaw ringSize labId (hubRun ringSize labId actions) ∧
      (ReplayLaw labId (hubRun ringSize labId actions) lastSeq ↔
        ReplayKeeps ringSize (hubRun ringSize labId actions).2.length lastSeq) := by
  generalize hs : hubRun ringSize labId actions = s
  have h : HubHolds ringSize (s.1.stateOf labId) s.2 := by
    rw [← hs]
    exact (hubOk_of_run ringSize labId actions).2
  refine ⟨h.ringLaw, ?_⟩
  have hcases := h.replaySince_cases hpos lastSeq
  unfold ReplayKeeps
  by_cases hzero : s.2.length = 0
  · rw [if_pos hzero] at hcases
    have hnil := List.eq_nil_of_length_eq_zero hzero
    rw [h.replayLaw_served_iff hcases, hnil, List.filter_nil, and_iff_right rfl, List.length_nil]
    omega
  · rw [if_neg hzero] at hcases
    by_cases hfirst : lastSeq = 0
    · rw [if_pos hfirst] at hcases
      rw [h.replayLaw_served_iff hcases]
      subst hfirst
      constructor
      · intro hlaw
        omega
      · intro hcond
        refine ⟨h.ring_eq_filter (by omega), ?_⟩
        omega
    · rw [if_neg hfirst] at hcases
      by_cases hgap : lastSeq < (s.2.length - ringSize : Nat)
      · rw [if_pos hgap] at hcases
        constructor
        · intro hlaw
          have hlost := hlaw.resnapshot.mp hcases
          rw [h.resnapshot_iff lastSeq] at hlost
          omega
        · intro hcond
          refine ⟨Or.inr hcases, ?_⟩
          rw [h.resnapshot_iff lastSeq]
          refine iff_of_true hcases ?_
          omega
      · rw [if_neg hgap] at hcases
        rw [h.replayLaw_served_iff hcases, and_iff_right rfl]
        omega

/-- Two events in a ring for two, and a client that has the first. -/
theorem replay_law_of_two_events :
    RingLaw 2 "lab" (hubRun 2 "lab" [.publish "lab" "link_created" "" 1, .publish "lab" "link_created" "" 2]) ∧
      (ReplayLaw "lab"
          (hubRun 2 "lab" [.publish "lab" "link_created" "" 1, .publish "lab" "link_created" "" 2]) 1 ↔
        ReplayKeeps 2
          (hubRun 2 "lab" [.publish "lab" "link_created" "" 1, .publish "lab" "link_created" "" 2]).2.length
          1) :=
  replay_law_iff 2 (by decide) "lab"
    [.publish "lab" "link_created" "" 1, .publish "lab" "link_created" "" 2] 1

/-- A client of the hub before its restart has seen seven events; the first one of the hub since then is
not replayed to it, and it is not told to take a snapshot. -/
theorem replay_lost_after_restart : ¬ ∀ (ringSize : Nat), 0 < ringSize → ∀ (labId : String)
    (actions : List (HubAction Nat)) (lastSeq : Int),
      ReplayLaw labId (hubRun ringSize labId actions) lastSeq := by
  intro h
  have hlaw := h 200 (by decide) "lab" [.publish "lab" "link_created" "" 1] 7
  have hbeyond : ((hubRun 200 "lab" [HubAction.publish "lab" "link_created" "" 1]).1.headSeq "lab" : Int)
      < 7 := by decide
  have htrue := hlaw.resnapshot.mpr (Or.inr hbeyond)
  revert htrue
  decide

end NovaVe
