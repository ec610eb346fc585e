import NovaVe.Dict
import NovaVe.RuntimeLiveness
import NovaVe.Runs

namespace NovaVe

/-- Where `_run_heartbeat_cycle` stands. `todo` is what is left of its registry snapshot, `found`
the lab ids whose file it found when the cycle began. -/
inductive BeatPhase
  | resting
  | entry (todo : List (NodeKey × RuntimeRec)) (found : List String)
  | checking (node : NodeKey) (runtime : RuntimeRec) (todo : List (NodeKey × RuntimeRec))
      (found : List String)
  | verdict (node : NodeKey) (alive : Bool) (todo : List (NodeKey × RuntimeRec))
      (found : List String)
  | evicting (node : NodeKey) (todo : List (NodeKey × RuntimeRec)) (found : List String)
  | unlinking (node : NodeKey) (todo : List (NodeKey × RuntimeRec)) (found : List String)
deriving DecidableEq

/-- The registry with the state files, the transitions of `_record_transition`, `node.status` in
the lab files, and the heartbeat. Times are in seconds. -/
structure BeatWorld where
  host : HostView
  registry : Dict NodeKey RuntimeRec
  stateFiles : Dict NodeKey RuntimeRec
  transitions : Dict NodeKey Nat
  now : Nat
  status : Dict NodeKey Int
  phase : BeatPhase

def transitionSuppressS : Nat := 30

/-- `_is_suppressed`. -/
def BeatWorld.isSuppressed (world : BeatWorld) (node : NodeKey) : Bool :=
  match world.transitions.get? node with
  | none => false
  | some ts => decide (world.now - ts < transitionSuppressS)

/-- The current record of a node: its registry entry, or else its state file. -/
def BeatWorld.current (world : BeatWorld) (node : NodeKey) : Option RuntimeRec :=
  (world.registry.get? node).or (world.stateFiles.get? node)

def BeatWorld.currentAlive (world : BeatWorld) (node : NodeKey) : Bool :=
  match world.current node with
  | none => false
  | some runtime => isRuntimeAlive world.host runtime

/-- The steps of the heartbeat, and what start_node, stop_node and the rest do in between. -/
inductive BeatAction
  | beatStart (found : List String)
  | beatNext
  | beatCheck
  | beatWrite (failed : Bool)
  | beatPop
  | beatUnlink
  | startPublish (node : NodeKey) (runtime : RuntimeRec)
  | startPersist (node : NodeKey) (runtime : RuntimeRec)
  | recordTransition (node : NodeKey)
  | stopPop (node : NodeKey)
  | stopUnlink (node : NodeKey)
  | loadState (node : NodeKey)
  | hostMoves (host : HostView)
  | clock (seconds : Nat)
  | writeStatus (node : NodeKey) (status : Int)

/-- The status the locked write of the heartbeat leaves, when it writes at all. -/
def BeatWorld.statusWrite (world : BeatWorld) (failed : Bool) : Option (NodeKey × Int) :=
  match world.phase with
  | .verdict node alive _ _ =>
    let expected : Int := if alive then 2 else 0
    match world.status.get? node with
    | some status => if failed || status == expected then none else some (node, expected)
    | none => none
  | _ => none

def BeatWorld.step (world : BeatWorld) : BeatAction → BeatWorld
  | .beatStart found =>
    match world.phase with
    | .resting => { world with phase := .entry world.registry.entries found }
    | _ => world
  | .beatNext =>
    match world.phase with
    | .entry [] _ => { world with phase := .resting }
    | .entry ((node, runtime) :: todo) found =>
      if world.isSuppressed node || !(found.contains node.1) then
        { world with phase := .entry todo found }
      else { world with phase := .checking node runtime todo found }
    | _ => world
  | .beatCheck =>
    match world.phase with
    | .checking node runtime todo found =>
      match checkAliveSync world.host runtime with
      -- the exception leaves the cycle
      | none => { world with phase := .resting }
      | some alive => { world with phase := .verdict node alive todo found }
    | _ => world
  | .beatWrite failed =>
    match world.phase with
    | .verdict node alive todo found =>
      match world.statusWrite failed with
      | none => { world with phase := .entry todo found }
      | some (_, expected) =>
        { world with
          status := world.status.set node expected
          phase := if alive then .entry todo found else .evicting node todo found }
    | _ => world
  | .beatPop =>
    match world.phase with
    | .evicting node todo found =>
      { world with registry := world.registry.pop node, phase := .unlinking node todo found }
    | _ => world
  | .beatUnlink =>
    match world.phase with
    | .unlinking node todo found =>
      { world with stateFiles := world.stateFiles.pop node, phase := .entry todo found }
    | _ => world
  | .startPublish node runtime => { world with registry := world.registry.set node runtime }
  | .startPersist node runtime => { world with stateFiles := world.stateFiles.set node runtime }
  | .recordTransition node => { world with transitions := world.transitions.set node world.now }
  | .stopPop node => { world with registry := world.registry.pop node }
  | .stopUnlink node => { world with stateFiles := world.stateFiles.pop node }
  | .loadState node =>
    match world.registry.get? node, world.stateFiles.get? node with
    | none, some runtime => { world with registry := world.registry.set node runtime }
    | _, _ => world
  | .hostMoves host => { world with host := host }
  | .clock seconds => { world with now := world.now + seconds }
  | .writeStatus node status => { world with status := world.status.set node status }

/-- A step of the heartbeat that writes status 0 for a node, or removes its registry entry or state
file, while its current record is live. -/
def BeatWorld.EvictsLive (world : BeatWorld) (action : BeatAction) : Prop :=
  match action with
  | .beatWrite failed => ∃ node, world.statusWrite failed = some (node, 0) ∧
      world.currentAlive node = true
  | .beatPop => ∃ node todo found, world.phase = .evicting node todo found ∧
      (world.registry.get? node).isSome ∧ world.currentAlive node = true
  | .beatUnlink => ∃ node todo found, world.phase = .unlinking node todo found ∧
      (world.stateFiles.get? node).isSome ∧ world.currentAlive node = true
  | _ => False

/-- The node that the heartbeat found dead and has not done with. -/
def BeatPhase.condemned : BeatPhase → Option NodeKey
  | .verdict node false _ _ => some node
  | .evicting node _ _ => some node
  | .unlinking node _ _ => some node
  | _ => none

/-- The verdict is about the record that is current, and no dynamips VM that runs gets one; until
the heartbeat is done with a node nobody publishes a live record for it or uncovers one, and
its dead runtime does not come back to life. -/
def BeatWorld.StepOk (world : BeatWorld) : BeatAction → Prop
  | .beatCheck => ∀ node runtime todo found, world.phase = .checking node runtime todo found →
      (runtime.kind = .dynamips → isRuntimeAlive world.host runtime = false) ∧
        (world.current node = some runtime ∨ world.currentAlive node = false)
  | .startPublish node runtime => world.phase.condemned = some node →
      isRuntimeAlive world.host runtime = false
  | .startPersist node runtime => world.phase.condemned = some node →
      world.registry.get? node = none → isRuntimeAlive world.host runtime = false
  | .stopPop node => world.phase.condemned = some node →
      ∀ runtime, world.stateFiles.get? node = some runtime →
        isRuntimeAlive world.host runtime = false
  | .hostMoves host => ∀ node runtime, world.phase.condemned = some node →
      world.current node = some runtime → isRuntimeAlive host runtime = false
  -- the pop of the heartbeat uncovers the state file as well
  | .beatPop => ∀ node todo found, world.phase = .evicting node todo found →
      ∀ runtime, world.stateFiles.get? node = some runtime →
        isRuntimeAlive world.host runtime = false
  | _ => True

/-- A condemned node has no live record. -/
def BeatSafe (world : BeatWorld) : Prop :=
  ∀ node, world.phase.condemned = some node → world.currentAlive node = false

theorem currentAlive_congr {world next : BeatWorld} {node : NodeKey}
    (hhost : next.host = world.host)
    (hregistry : next.registry.get? node = world.registry.get? node)
    (hfiles : next.stateFiles.get? node = world.stateFiles.get? node) :
    next.currentAlive node = world.currentAlive node := by
  unfold BeatWorld.currentAlive BeatWorld.current
  rw [hregistry, hfiles, hhost]

theorem currentAlive_of_dead {world : BeatWorld} {node : NodeKey}
    (h : ∀ runtime, world.current node = some runtime →
      isRuntimeAlive world.host runtime = false) : world.currentAlive node = false := by
  unfold BeatWorld.currentAlive
  cases hc : world.current node with
  | none => rfl
  | some runtime => exact h runtime hc

theorem dead_of_currentAlive {world : BeatWorld} {node : NodeKey} {runtime : RuntimeRec}
    (h : world.currentAlive node = false) (hc : world.current node = some runtime) :
    isRuntimeAlive world.host runtime = false := by
  unfold BeatWorld.currentAlive at h
  rwa [hc] at h

theorem current_of_registry {world : BeatWorld} {node : NodeKey} {runtime : RuntimeRec}
    (h : world.registry.get? node = some runtime) : world.current node = some runtime := by
  unfold BeatWorld.current
  rw [h, Option.some_or]

theorem current_of_file {world : BeatWorld} {node : NodeKey}
    (h : world.registry.get? node = none) : world.current node = world.stateFiles.get? node := by
  unfold BeatWorld.current
  rw [h, Option.none_or]

/-- A step that touches neither the host nor the records, and condemns nobody new. -/
theorem beatSafe_of_same {world next : BeatWorld} (h : BeatSafe world)
    (hhost : next.host = world.host) (hregistry : next.registry = world.registry)
    (hfiles : next.stateFiles = world.stateFiles)
    (hphase : ∀ node, next.phase.condemned = some node → world.phase.condemned = some node) :
    BeatSafe next := by
  intro node hnode
  rw [@currentAlive_congr world next node hhost (by rw [hregistry]) (by rw [hfiles])]
  exact h node (hphase node hnode)

theorem beatCheck_safe {world : BeatWorld} (h : BeatSafe world) (hok : world.StepOk .beatCheck) :
    BeatSafe (world.step .beatCheck) := by
  dsimp only [BeatWorld.step]
  split
  next node runtime todo found hphase =>
    split
    next =>
      refine beatSafe_of_same h rfl rfl rfl ?_
      intro other hother
      cases hother
    next alive hcheck =>
      intro other hother
      cases alive with
      | true => cases hother
      | false =>
        cases hother
        obtain ⟨hvm, hcurrent⟩ := hok node runtime todo found hphase
        have hdead : isRuntimeAlive world.host runtime = false := by
          by_cases hkind : runtime.kind = .dynamips
          · exact hvm hkind
          · exact isRuntimeAlive_of_check hkind hcheck
        show world.currentAlive node = false
        rcases hcurrent with hcurrent | hcurrent
        · refine currentAlive_of_dead (fun other hother => ?_)
          rw [hcurrent] at hother
          cases hother
          exact hdead
        · exact hcurrent
  next => exact h

theorem beatWrite_safe {world : BeatWorld} (h : BeatSafe world) (failed : Bool) :
    BeatSafe (world.step (.beatWrite failed)) := by
  dsimp only [BeatWorld.step]
  split
  next node alive todo found hphase =>
    split
    next =>
      refine beatSafe_of_same h rfl rfl rfl ?_
      intro other hother
      cases hother
    next =>
      refine beatSafe_of_same h rfl rfl rfl ?_
      intro other hother
      rw [hphase]
      cases alive with
      | true => cases hother
      | false => exact hother
  next => exact h

theorem beatPop_safe {world : BeatWorld} (h : BeatSafe world) (hok : world.StepOk .beatPop) :
    BeatSafe (world.step .beatPop) := by
  dsimp only [BeatWorld.step]
  split
  next node todo found hphase =>
    intro other hother
    cases hother
    refine currentAlive_of_dead (fun runtime hcurrent => ?_)
    have hgone : (world.registry.pop node).get? node = none := by
      rw [Dict.get?_pop, if_pos rfl]
    rw [current_of_file hgone] at hcurrent
    exact hok node todo found hphase runtime hcurrent
  next => exact h

theorem records_safe {world next : BeatWorld} {node : NodeKey} (h : BeatSafe world)
    (hhost : next.host = world.host) (hphase : next.phase = world.phase)
    (hregistry : ∀ other, other ≠ node → next.registry.get? other = world.registry.get? other)
    (hfiles : ∀ other, other ≠ node → next.stateFiles.get? other = world.stateFiles.get? other)
    (hnode : world.phase.condemned = some node → next.currentAlive node = false) :
    BeatSafe next := by
  intro other hother
  rw [hphase] at hother
  by_cases hne : other = node
  · subst hne
    exact hnode hother
  · rw [currentAlive_congr hhost (hregistry other hne) (hfiles other hne)]
    exact h other hother

/-- A step that changes the state file of one node only; what it puts there is dead when the node is
condemned and has no record in the registry. -/
theorem stateFile_safe {world next : BeatWorld} {node : NodeKey} (h : BeatSafe world)
    (hhost : next.host = world.host) (hphase : next.phase = world.phase)
    (hregistry : next.registry = world.registry)
    (hfiles : ∀ other, other ≠ node → next.stateFiles.get? other = world.stateFiles.get? other)
    (hfile : world.phase.condemned = some node → world.registry.get? node = none →
      ∀ runtime, next.stateFiles.get? node = some runtime →
        isRuntimeAlive world.host runtime = false) : BeatSafe next := by
  refine records_safe h hhost hphase (fun _ _ => by rw [hregistry]) hfiles ?_
  intro hcondemned
  apply currentAlive_of_dead
  intro runtime hcurrent
  rw [hhost]
  cases hr : world.registry.get? node with
  | some entry =>
    have hentry : next.registry.get? node = some entry := by
      rw [hregistry]
      exact hr
    rw [current_of_registry hentry] at hcurrent
    cases hcurrent
    exact dead_of_currentAlive (h node hcondemned) (current_of_registry hr)
  | none =>
    have hnone : next.registry.get? node = none := by
      rw [hregistry]
      exact hr
    rw [current_of_file hnone] at hcurrent
    exact hfile hcondemned hr runtime hcurrent

/-- Every step that meets its condition keeps a condemned node without a live record. -/
theorem beatSafe_step {world : BeatWorld} (h : BeatSafe world) {action : BeatAction}
    (hok : world.StepOk action) : BeatSafe (world.step action) := by
  cases action with
  | beatStart found =>
    dsimp only [BeatWorld.step]
    split
    next =>
      refine beatSafe_of_same h rfl rfl rfl ?_
      intro other hother
      cases hother
    next => exact h
  | beatNext =>
    dsimp only [BeatWorld.step]
    split
    next =>
      refine beatSafe_of_same h rfl rfl rfl ?_
      intro other hother
      cases hother
    next =>
      split
      next =>
        refine beatSafe_of_same h rfl rfl rfl ?_
        intro other hother
        cases hother
      next =>
        refine beatSafe_of_same h rfl rfl rfl ?_
        intro other hother
        cases hother
    next => exact h
  | beatCheck => exact beatCheck_safe h hok
  | beatWrite failed => exact beatWrite_safe h failed
  | beatPop => exact beatPop_safe h hok
  | beatUnlink =>
    dsimp only [BeatWorld.step]
    split
    next =>
      intro other hother
      cases hother
    next => exact h
  | startPublish node runtime =>
    refine @records_safe _ _ node h rfl rfl ?_ (fun _ _ => rfl) ?_
    · intro other hne
      exact Dict.get?_set_ne _ _ (fun he => hne he.symm)
    · intro hcondemned
      refine currentAlive_of_dead (fun other hother => ?_)
      rw [current_of_registry (Dict.get?_set_self _ _ _)] at hother
      cases hother
      exact hok hcondemned
  | startPersist node runtime =>
    refine @stateFile_safe _ _ node h rfl rfl rfl ?_ ?_
    · intro other hne
      exact Dict.get?_set_ne _ _ (fun he => hne he.symm)
    · intro hcondemned hnone other hother
      have hself := Option.some.inj (hother.symm.trans (Dict.get?_set_self _ _ _))
      rw [hself]
      exact hok hcondemned hnone
  | recordTransition node => exact beatSafe_of_same h rfl rfl rfl (fun _ hother => hother)
  | stopPop node =>
    refine @records_safe _ _ node h rfl rfl ?_ (fun _ _ => rfl) ?_
    · intro other hne
      exact Dict.get?_pop_ne _ (fun he => hne he.symm)
    · intro hcondemned
      refine currentAlive_of_dead (fun runtime hcurrent => ?_)
      have hgone : (world.registry.pop node).get? node = none := by
        rw [Dict.get?_pop, if_pos rfl]
      rw [current_of_file hgone] at hcurrent
      exact hok hcondemned runtime hcurrent
  | stopUnlink node =>
    refine @stateFile_safe _ _ node h rfl rfl rfl ?_ ?_
    · intro other hne
      exact Dict.get?_pop_ne _ (fun he => hne he.symm)
    · intro _ _ runtime hruntime
      have hgone : (world.stateFiles.pop node).get? node = none := by
        rw [Dict.get?_pop, if_pos rfl]
      exact absurd (hruntime.symm.trans hgone) (Option.some_ne_none _)
  | loadState node =>
    dsimp only [BeatWorld.step]
    split
    next runtime hr hf =>
      refine @records_safe _ _ node h rfl rfl ?_ (fun _ _ => rfl) ?_
      · intro other hne
        exact Dict.get?_set_ne _ _ (fun he => hne he.symm)
      · intro hcondemned
        refine currentAlive_of_dead (fun other hother => ?_)
        rw [current_of_registry (Dict.get?_set_self _ _ _)] at hother
        cases hother
        show isRuntimeAlive world.host runtime = false
        exact dead_of_currentAlive (h node hcondemned) ((current_of_file hr).trans hf)
    next => exact h
  | hostMoves host =>
    intro node hcondemned
    refine currentAlive_of_dead (fun runtime hcurrent => ?_)
    exact hok node runtime hcondemned hcurrent
  | clock seconds => exact beatSafe_of_same h rfl rfl rfl (fun _ hother => hother)
  | writeStatus node status => exact beatSafe_of_same h rfl rfl rfl (fun _ hother => hother)

theorem statusWrite_eq_some {world : BeatWorld} {failed : Bool} {node : NodeKey} {status : Int}
    (h : world.statusWrite failed = some (node, status)) :
    ∃ alive todo found, world.phase = .verdict node alive todo found ∧
      status = if alive then 2 else 0 := by
  unfold BeatWorld.statusWrite at h
  cases hphase : world.phase with
  | verdict other alive todo found =>
    rw [hphase] at h
    dsimp only at h
    cases hstatus : world.status.get? other with
    | none => simp [hstatus] at h
    | some old =>
      rw [hstatus] at h
      dsimp only at h
      by_cases hkeep : (failed || old == if alive then (2 : Int) else 0) = true
      · rw [if_pos hkeep] at h
        cases h
      · rw [if_neg hkeep] at h
        cases h
        exact ⟨alive, todo, found, rfl, rfl⟩
  | resting => simp [hphase] at h
  | entry _ _ => simp [hphase] at h
  | checking _ _ _ _ => simp [hphase] at h
  | evicting _ _ _ => simp [hphase] at h
  | unlinking _ _ _ => simp [hphase] at h

/-- No step of the heartbeat evicts a live runtime from a state where the condemned are dead. -/
theorem not_evictsLive_of_safe {world : BeatWorld} (h : BeatSafe world) (action : BeatAction) :
    ¬ world.EvictsLive action := by
  intro hevicts
  cases action with
  | beatWrite failed =>
    obtain ⟨node, hwrite, halive⟩ := hevicts
    obtain ⟨alive, todo, found, hphase, hstatus⟩ := statusWrite_eq_some hwrite
    cases alive with
    | true => exact absurd hstatus (by decide)
    | false =>
      have hdead := h node (by rw [hphase]; rfl)
      rw [halive] at hdead
      cases hdead
  | beatPop =>
    obtain ⟨node, todo, found, hphase, _, halive⟩ := hevicts
    have hdead := h node (by rw [hphase]; rfl)
    rw [halive] at hdead
    cases hdead
  | beatUnlink =>
    obtain ⟨node, todo, found, hphase, _, halive⟩ := hevicts
    have hdead := h node (by rw [hphase]; rfl)
    rw [halive] at hdead
    cases hdead
  | beatStart _ => exact hevicts
  | beatNext => exact hevicts
  | beatCheck => exact hevicts
  | startPublish _ _ => exact hevicts
  | startPersist _ _ => exact hevicts
  | recordTransition _ => exact hevicts
  | stopPop _ => exact hevicts
  | stopUnlink _ => exact hevicts
  | loadState _ => exact hevicts
  | hostMoves _ => exact hevicts
  | clock _ => exact hevicts
  | writeStatus _ _ => exact hevicts

/-- In a run whose steps meet their conditions the heartbeat never evicts a live runtime. -/
theorem heartbeat_spares_live_runtimes {world final : BeatWorld} {actions : List BeatAction}
    (hrest : world.phase = .resting)
    (run : Run (Guarded (stepOf BeatWorld.step) BeatWorld.StepOk) world actions final)
    (action : BeatAction) : ¬ final.EvictsLive action := by
  have hstart : BeatSafe world := by
    intro node hcondemned
    rw [hrest] at hcondemned
    cases hcondemned
  have hfinal : BeatSafe final :=
    run.guarded_invariant (fun _ _ h hok => beatSafe_step h hok) hstart
  exact not_evictsLive_of_safe hfinal action

def dynamipsNode : RuntimeRec := ⟨.dynamips, none, none, none, some "R1"⟩

/-- A lab with one dynamips node that runs. -/
def dynamipsWorld : BeatWorld where
  host := ⟨true, [], ["R1"], []⟩
  registry := Dict.empty.set ("lab", 1) dynamipsNode
  stateFiles := Dict.empty.set ("lab", 1) dynamipsNode
  transitions := Dict.empty
  now := 100
  status := Dict.empty.set ("lab", 1) 2
  phase := .resting

def lostQemu : RuntimeRec := ⟨.qemu, some ⟨4242, by omega⟩, some 1000, none, none⟩

def startedQemu : RuntimeRec := ⟨.qemu, some ⟨4243, by omega⟩, some 2000, none, none⟩

/-- A lab whose first node has lost its process. -/
def lostWorld : BeatWorld where
  host := ⟨true, [], [], []⟩
  registry := Dict.empty.set ("lab", 1) lostQemu
  stateFiles := Dict.empty.set ("lab", 1) lostQemu
  transitions := Dict.empty
  now := 100
  status := (Dict.empty.set ("lab", 1) 2).set ("lab", 2) 0
  phase := .resting

/-- A cycle finds the first node dead and evicts it, while `start_node` brings up the second
one. -/
def beatBesideStart : List BeatAction :=
  [.beatStart ["lab"], .beatNext, .beatCheck,
    .hostMoves ⟨true, [], [], [(⟨4243, by omega⟩, 2000)]⟩, .startPublish ("lab", 2) startedQemu,
    .beatWrite false, .startPersist ("lab", 2) startedQemu, .beatPop,
    .recordTransition ("lab", 2), .writeStatus ("lab", 2) 2, .beatUnlink, .beatNext]

def lostWorldAfter (n : Nat) : BeatWorld := (beatBesideStart.take n).foldl BeatWorld.step lostWorld

theorem heartbeat_beside_start_spares_live :
    (¬ (lostWorldAfter 5).EvictsLive (.beatWrite false) ∧
        ¬ (lostWorldAfter 7).EvictsLive .beatPop ∧ ¬ (lostWorldAfter 10).EvictsLive .beatUnlink) ∧
      (lostWorldAfter 12).phase = .resting ∧
      (lostWorldAfter 12).current ("lab", 1) = none ∧
      (lostWorldAfter 12).status.get? ("lab", 1) = some 0 ∧
      (lostWorldAfter 12).currentAlive ("lab", 2) = true := by
  have run : Run (Guarded (stepOf BeatWorld.step) BeatWorld.StepOk) lostWorld beatBesideStart
      (lostWorldAfter 12) := by
    refine Run.cons ⟨trivial, rfl⟩ (Run.cons ⟨trivial, rfl⟩ (Run.cons ⟨?_, rfl⟩
      (Run.cons ⟨?_, rfl⟩ (Run.cons ⟨?_, rfl⟩ (Run.cons ⟨trivial, rfl⟩ (Run.cons ⟨?_, rfl⟩
        (Run.cons ⟨?_, rfl⟩ (Run.cons ⟨trivial, rfl⟩ (Run.cons ⟨trivial, rfl⟩
          (Run.cons ⟨trivial, rfl⟩ (Run.single ⟨trivial, rfl⟩)))))))))))
    · intro node runtime todo found hphase
      cases hphase
      exact ⟨fun hkind => absurd hkind (by decide), Or.inl (by decide)⟩
    · intro node runtime hnode hcurrent
      obtain rfl := Option.some.inj hnode
      obtain rfl := Option.some.inj hcurrent
      decide
    · intro hnode
      exact absurd hnode (by decide)
    · intro hnode
      exact absurd hnode (by decide)
    · intro node todo found hphase runtime hfile
      cases hphase
      obtain rfl := Option.some.inj hfile
      decide
  refine ⟨⟨?_, ?_, ?_⟩, by decide, by decide, by decide, by decide⟩
  · exact heartbeat_spares_live_runtimes rfl (run.take 5) (.beatWrite false)
  · exact heartbeat_spares_live_runtimes rfl (run.take 7) .beatPop
  · exact heartbeat_spares_live_runtimes rfl (run.take 10) .beatUnlink

theorem heartbeat_evicts_running_dynamips :
    ¬ ∀ (world final : BeatWorld) (actions : List BeatAction) (action : BeatAction),
      world.phase = .resting → Run (stepOf BeatWorld.step) world actions final →
        ¬ final.EvictsLive action := by
  intro h
  have hrun : Run (stepOf BeatWorld.step) dynamipsWorld
      [.beatStart ["lab"], .beatNext, .beatCheck]
      ([BeatAction.beatStart ["lab"], .beatNext, .beatCheck].foldl BeatWorld.step dynamipsWorld) :=
    run_stepOf_iff.mpr rfl
  exact h _ _ _ (.beatWrite false) rfl hrun ⟨("lab", 1), by decide, by decide⟩

end NovaVe
