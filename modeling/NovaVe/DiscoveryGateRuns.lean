import NovaVe.DiscoveryGateLaws

namespace NovaVe

structure GateInv (lab : String) (s : Gate) : Prop where
  counter : ∀ key, getDiscoveryGeneration s.generations key = s.started.count key
  cycles : ∀ c ∈ s.cycles, ∀ e ∈ c.events,
    (LabPayload.discovery c.number e).Lawful s.started c.labId
  ring : ∀ key, ∀ e ∈ s.hub.ring key, e.payload.Lawful s.started key
  conns : ∀ c ∈ s.conns, c.Lawful s.started lab
  client : s.client.Lawful s.started lab

theorem getDiscoveryGeneration_bump (generations : Dict String Nat) (stored : StoredLab)
    (key : String) :
    getDiscoveryGeneration (bumpDiscoveryGeneration generations stored) key =
      getDiscoveryGeneration generations key + [stored.labId].count key := by
  unfold bumpDiscoveryGeneration getDiscoveryGeneration
  rw [Dict.get?_set, List.count_singleton]
  by_cases hkey : stored.labId = key
  · subst hkey
    simp
  · simp [hkey]

/-- Every event of a cycle has its generation, and names an interface or a link. -/
theorem discoverLab_event {h : Fin 65536} {members : String → List MemberName} {generation : Nat}
    {data : Lab} {event : DiscoveryEvent}
    (hmem : event ∈ discoverLab h (fun bridge => (members bridge).map Subtype.val) generation data) :
    event.generation = generation ∧ event.Named := by
  unfold discoverLab at hmem
  split at hmem
  next => cases hmem
  next =>
    rcases List.mem_append.mp hmem with hfound | hdivergent
    · obtain ⟨scanned, _, hon⟩ := List.mem_flatMap.mp hfound
      obtain ⟨iface, hiface, _, heq⟩ := mem_discoveredOn_iff.mp hon
      obtain ⟨name, _, hname⟩ := List.mem_map.mp hiface
      subst heq
      refine ⟨rfl, ?_⟩
      show iface ≠ []
      rw [← hname]
      exact name.2
    · obtain ⟨l, _, hl⟩ := List.mem_filterMap.mp hdivergent
      have hevent := divergentEvent_cases hl
      subst hevent
      exact ⟨rfl, (divergentEvent_iff.mp hl).1⟩

theorem mem_pushBounded {α : Type} {size : Nat} {events : List α} {event e : α}
    (h : e ∈ pushBounded size events event) : e ∈ events ∨ e = event := by
  unfold pushBounded at h
  rcases List.mem_append.mp (List.mem_of_mem_drop h) with hold | hnew
  · exact Or.inl hold
  · exact Or.inr (List.mem_singleton.mp hnew)

theorem GateInv.publish {lab : String} {s : Gate} (h : GateInv lab s) {labId : String}
    (type rev : String) {payload : LabPayload} (hpayload : payload.Lawful s.started labId) :
    GateInv lab (s.publish lab labId type rev payload) where
  counter := h.counter
  cycles := h.cycles
  ring key e he := by
    unfold Gate.publish Hub.publish Hub.ring at he
    dsimp only at he
    rw [Hub.stateOf_set] at he
    split at he
    next hkey =>
      subst hkey
      rcases mem_pushBounded he with hold | hnew
      · exact h.ring labId e hold
      · subst hnew
        exact hpayload
    next => exact h.ring key e he
  conns c hc := by
    unfold Gate.publish at hc
    dsimp only at hc
    split at hc
    next hlab =>
      subst hlab
      obtain ⟨c₀, hc₀, heq⟩ := List.mem_map.mp hc
      rw [← heq]
      exact (h.conns c₀ hc₀).owe hpayload
    next => exact h.conns c hc
  client := h.client

theorem GateInv.startCycle {lab : String} {s : Gate} (h : GateInv lab s)
    (labHash : String → Fin 65536) (stored : StoredLab) (data : Lab)
    (members : String → List MemberName) :
    GateInv lab (s.startCycle labHash stored data members) where
  counter key := by
    show getDiscoveryGeneration (bumpDiscoveryGeneration s.generations stored) key =
      (s.started ++ [stored.labId]).count key
    rw [getDiscoveryGeneration_bump, h.counter key, List.count_append]
  cycles c hc e he := by
    rcases List.mem_append.mp hc with hold | hnew
    · exact (h.cycles c hold e he).append [stored.labId]
    · have hcycle := List.mem_singleton.mp hnew
      subst hcycle
      obtain ⟨hgeneration, hnamed⟩ := discoverLab_event he
      refine ⟨?_, ?_, hnamed⟩
      · exact List.getElem?_concat_length
      · have htake : (s.started ++ [stored.labId]).take (s.started.length + 1) =
            s.started ++ [stored.labId] := by
          apply List.take_of_length_le
          rw [List.length_append, List.length_singleton]
        show e.generation = ((s.started ++ [stored.labId]).take (s.started.length + 1)).count
          stored.labId
        rw [hgeneration, htake, getDiscoveryGeneration_bump, h.counter, List.count_append]
  ring key e he := (h.ring key e he).append [stored.labId]
  conns c hc := (h.conns c hc).append [stored.labId]
  client := h.client.append [stored.labId]

theorem Hub.mem_ring_of_replaySince {α : Type} {hub : Hub α} {labId : String} {lastSeq : Int}
    {events : List (WsEvent α)} {needed : Bool}
    (h : hub.replaySince labId lastSeq = (events, needed)) {e : WsEvent α} (he : e ∈ events) :
    e ∈ hub.ring labId := by
  unfold Hub.replaySince at h
  unfold Hub.ring Hub.stateOf
  cases hget : hub.labs.get? labId with
  | none =>
    rw [hget] at h
    cases h
    cases he
  | some state =>
    rw [hget] at h
    dsimp only [Option.getD_some] at h ⊢
    split at h
    next =>
      cases h
      cases he
    next =>
      split at h
      next =>
        cases h
        exact he
      next =>
        split at h
        next =>
          cases h
          cases he
        next =>
          cases h
          exact (List.mem_filter.mp he).1

/-- A frame that is sent after those on the wire. -/
theorem GateConn.Lawful.sent {started : List String} {lab : String} {c : GateConn}
    (h : c.Lawful started lab) {frame : GateFrame} (hframe : frame.Lawful started lab) :
    ∀ f ∈ c.wire ++ [frame], f.Lawful started lab := by
  intro f hf
  rcases List.mem_append.mp hf with hold | hnew
  · exact h.wire f hold
  · rw [List.mem_singleton.mp hnew]
    exact hframe

theorem GateInv.serve {lab : String} {s : Gate} (h : GateInv lab s) {c c' : GateConn}
    (hc : c.Lawful s.started lab) {action : ConnAction}
    (hstep : serveStep lab s c action = some c') : c'.Lawful s.started lab := by
  cases action with
  | send index =>
    dsimp only [serveStep] at hstep
    split at hstep
    next event hget =>
      cases hstep
      have hmem : event ∈ c.pending := List.mem_of_getElem? hget
      refine { replayed := hc.replayed, pending := ?_, wire := hc.sent (hc.pending event hmem) }
      intro e he
      exact hc.pending e (List.mem_of_mem_eraseIdx he)
    next => cases hstep
  | hello =>
    dsimp only [serveStep] at hstep
    split at hstep
    next =>
      cases hstep
      refine { replayed := ?_, pending := hc.pending, wire := hc.sent trivial }
      intro events hphase
      cases hphase
    next => cases hstep
  | replay =>
    dsimp only [serveStep] at hstep
    split at hstep
    next lastSeq hphase =>
      split at hstep
      next =>
        cases hstep
        refine { replayed := ?_, pending := hc.pending, wire := hc.sent trivial }
        intro events hphase
        cases hphase
      next events hreplay =>
        cases hstep
        refine { replayed := ?_, pending := hc.pending, wire := hc.wire }
        intro events' hphase e he
        cases hphase
        exact h.ring lab e (Hub.mem_ring_of_replaySince hreplay he)
    next => cases hstep
  | sendReplay =>
    dsimp only [serveStep] at hstep
    split at hstep
    next event rest hphase =>
      cases hstep
      have hevents := hc.replayed _ hphase
      refine { replayed := ?_, pending := hc.pending
               wire := hc.sent (hevents event List.mem_cons_self) }
      intro events hrest e he
      cases hrest
      exact hevents e (List.mem_cons_of_mem event he)
    next => cases hstep
  | snapshot readOk =>
    dsimp only [serveStep] at hstep
    split at hstep
    next =>
      cases hstep
      have hframe : (GateFrame.topology (s.hub.headSeq lab)
          (getDiscoveryGeneration s.generations lab) s.started.length).Lawful s.started lab := by
        refine ⟨le_refl _, ?_⟩
        rw [List.take_length]
        exact h.counter lab
      refine { replayed := ?_, pending := hc.pending, wire := ?_ }
      · intro events hphase e he
        cases hphase
        cases he
      · cases readOk with
        | true => exact hc.sent hframe
        | false =>
          intro f hf
          rcases List.mem_append.mp hf with hold | hnew
          · exact hc.wire f hold
          · cases hnew
    next => cases hstep
  | subscribe =>
    dsimp only [serveStep] at hstep
    split at hstep
    next =>
      cases hstep
      refine { replayed := ?_, pending := hc.pending, wire := hc.wire }
      intro events hphase
      cases hphase
    next => cases hstep

/-- A connection served in its place. -/
theorem GateInv.withConn {lab : String} {s : Gate} (h : GateInv lab s) (index : Nat) {c : GateConn}
    (hc : c.Lawful s.started lab) : GateInv lab { s with conns := s.conns.set index c } := by
  refine { counter := h.counter, cycles := h.cycles, ring := h.ring, conns := ?_
           client := h.client }
  intro d hd
  rcases List.mem_or_eq_of_mem_set hd with hold | hnew
  · exact h.conns d hold
  · rw [hnew]
    exact hc

/-- A cycle whose next event is taken up. -/
theorem GateInv.takeEvent {lab : String} {s : Gate} (h : GateInv lab s) {index : Nat}
    {cycle : DiscoveryCycle} {event : DiscoveryEvent} {rest : List DiscoveryEvent}
    (hcycle : s.cycles[index]? = some cycle) (hevents : cycle.events = event :: rest) :
    GateInv lab { s with cycles := s.cycles.set index { cycle with events := rest } } := by
  have hlaws := h.cycles cycle (List.mem_of_getElem? hcycle)
  rw [hevents] at hlaws
  refine { counter := h.counter, cycles := ?_, ring := h.ring, conns := h.conns
           client := h.client }
  intro c hc e he
  rcases List.mem_or_eq_of_mem_set hc with hold | hnew
  · exact h.cycles c hold e he
  · subst hnew
    exact hlaws e (List.mem_cons_of_mem event he)

theorem GateConn.Lawful.received {started : List String} {lab : String} {c : GateConn}
    (hc : c.Lawful started lab) {frame : GateFrame} {rest : List GateFrame}
    (hwire : c.wire = frame :: rest) :
    frame.Lawful started lab ∧ GateConn.Lawful started lab { c with wire := rest } := by
  have hall := hc.wire
  rw [hwire] at hall
  refine ⟨hall frame List.mem_cons_self, ?_⟩
  refine { replayed := hc.replayed, pending := hc.pending, wire := ?_ }
  intro f hf
  exact hall f (List.mem_cons_of_mem frame hf)

theorem gateInv_init (ringSize : Nat) (lab : String) :
    GateInv lab { hub := { ringSize := ringSize } } where
  counter key := rfl
  cycles c hc := by cases hc
  ring key e he := by cases he
  conns c hc := by cases hc
  client := { bound := fun taken htaken => by cases htaken
              gate := fun taken htaken => by cases htaken
              fresh := fun taken htaken => by cases htaken }

theorem gateStep_inv {labHash : String → Fin 65536} {lab : String} {s t : Gate} {action : GateAction}
    (h : GateInv lab s) (hstep : GateStep labHash lab s action t) : GateInv lab t := by
  unfold GateStep at hstep
  cases action with
  | startCycle stored data members =>
    dsimp only [gateStep] at hstep
    split at hstep
    next => cases hstep
    next =>
      rw [← Option.some.inj hstep]
      exact h.startCycle labHash stored data members
  | publish index =>
    dsimp only [gateStep] at hstep
    split at hstep
    next => cases hstep
    next cycle hget =>
      split at hstep
      next => cases hstep
      next event rest hevents =>
        rw [← Option.some.inj hstep]
        have hlaws := h.cycles cycle (List.mem_of_getElem? hget)
        rw [hevents] at hlaws
        exact (h.takeEvent hget hevents).publish event.type "" (hlaws event List.mem_cons_self)
  | publishOther labId type rev =>
    rw [← Option.some.inj hstep]
    exact h.publish type rev trivial
  | connect =>
    rw [← Option.some.inj hstep]
    refine { counter := h.counter, cycles := h.cycles, ring := h.ring, conns := ?_
             client := h.client }
    intro c hc
    rcases List.mem_append.mp hc with hold | hnew
    · exact h.conns c hold
    · rw [List.mem_singleton.mp hnew]
      refine { replayed := ?_, pending := ?_, wire := ?_ }
      · intro events hphase
        cases hphase
      · intro e he
        cases he
      · intro f hf
        cases hf
  | serve index action =>
    dsimp only [gateStep] at hstep
    split at hstep
    next => cases hstep
    next c hget =>
      obtain ⟨c', hserve, heq⟩ := Option.map_eq_some_iff.mp hstep
      rw [← heq]
      exact h.withConn index (h.serve (h.conns c (List.mem_of_getElem? hget)) hserve)
  | deliver index =>
    dsimp only [gateStep] at hstep
    split at hstep
    next => cases hstep
    next c hget =>
      split at hstep
      next => cases hstep
      next frame rest hwire =>
        rw [← Option.some.inj hstep]
        have hc := h.conns c (List.mem_of_getElem? hget)
        obtain ⟨hframe, hrest⟩ := hc.received hwire
        have hserved := h.withConn index hrest
        exact { counter := h.counter, cycles := h.cycles, ring := h.ring, conns := hserved.conns
                client := h.client.handleMessage hframe }
  | deleteReconciliation key =>
    rw [← Option.some.inj hstep]
    exact { counter := h.counter, cycles := h.cycles, ring := h.ring, conns := h.conns
            client := h.client.deleteReconciliation key }
  | disconnect index =>
    rw [← Option.some.inj hstep]
    refine { counter := h.counter, cycles := h.cycles, ring := h.ring, conns := ?_
             client := h.client }
    intro c hc
    exact h.conns c (List.mem_of_mem_eraseIdx hc)

theorem GateInv.holds {lab : String} {s : Gate} (h : GateInv lab s) : GateHolds lab s where
  fresh := h.client.fresh
  admitted taken htaken c hc e rest hwire number event hpayload hlater := by
    have hframe : (GateFrame.event e).Lawful s.started lab := by
      apply (h.conns c hc).wire
      rw [hwire]
      exact List.mem_cons_self
    have hlaw : e.payload.Lawful s.started lab := hframe
    rw [hpayload] at hlaw
    obtain ⟨hstarted, hgeneration, hnamed⟩ := hlaw
    have hgate := h.client.gate taken htaken
    have hiff := @count_take_le_iff String _ s.started number taken lab hstarted
    unfold LabWsStores.handleMessage
    dsimp only
    rw [hpayload]
    dsimp only
    rw [LabWsStores.reconcile_eq hnamed]
    unfold LabWsStores.storeReconciliation
    rw [if_neg (by dsimp only; omega)]
    exact Dict.get?_set_self _ _ _

/-- However the cycles, the publishers, the connections and the deliveries take their turns. -/
theorem discovery_gate_holds {labHash : String → Fin 65536} {ringSize : Nat} {lab : String}
    {actions : List GateAction} {s : Gate}
    (run : Run (GateStep labHash lab) { hub := { ringSize := ringSize } } actions s) :
    GateHolds lab s := by
  refine (run.invariant ?_ (gateInv_init ringSize lab)).holds
  intro before action after h hstep
  exact gateStep_inv h hstep

/-- A cycle publishes after the snapshot that was taken during it, and another one starts. -/
def twoCycles : List GateAction :=
  [.publishOther "lab" "link_created" "", .connect, .serve 0 .hello, .deliver 0, .disconnect 0,
   .publishOther "lab" "link_created" "", .publishOther "lab" "link_created" "",
   .connect, .serve 0 .hello, .serve 0 .replay,
   .startCycle { path := "lab", jsonId := "lab" } fromNodeLab (fun _ => []),
   .serve 0 (.snapshot true), .serve 0 .subscribe, .publish 0, .serve 0 (.send 0),
   .startCycle { path := "lab", jsonId := "lab" } fromNodeLab (fun _ => []),
   .deliver 0, .deliver 0, .deliver 0, .deliver 0]

/-- The event of the first cycle is not stored, that of the second one is. -/
theorem discovery_gate_of_two_cycles :
    (∃ s, s.client.taken = some 1 ∧ s.client.linkReconciliation = Dict.empty ∧
      GateHolds "lab" s) ∧
    ∃ s, s.client.taken = some 1 ∧
      s.client.linkReconciliation.get? "link:lnk_001" = some (.divergent "lnk_001", 1) ∧
      GateHolds "lab" s := by
  constructor
  · refine ⟨_, ?_, ?_, @discovery_gate_holds (fun _ => ⟨0, by decide⟩) 1 "lab" twoCycles _
      (run_of_foldlM rfl)⟩
    · rfl
    · rfl
  · refine ⟨_, ?_, ?_, @discovery_gate_holds (fun _ => ⟨0, by decide⟩) 1 "lab"
      (twoCycles ++ [.publish 1, .serve 0 (.send 0), .deliver 0]) _ (run_of_foldlM rfl)⟩
    · rfl
    · rfl

end NovaVe
