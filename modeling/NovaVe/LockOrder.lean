import NovaVe.LockDiscipline
import NovaVe.WriterRuns

namespace NovaVe

/-- A request asks for no lock that it has, and no task gives up the loop under a lab lock while
another request of the loop still asks for that lock. -/
def GivesWay (s : LoopState LockName) (a : LoopAct LockRequest) : Prop :=
  Considerate lockKinds LockRequest.program s a ∧ ∀ request, a = .arrive request → request.SelfFree

/-- Runs whose steps give way never stall on a lock. -/
theorem locks_never_stall {s : LoopState LockName} {as : List (LoopAct LockRequest)}
    (run : Run (Guarded (LoopStep lockKinds LockRequest.program) GivesWay) {} as s) :
    s.NoStall lockKinds := by
  refine noStall_of_run (fun _ _ h => h.1) ?_ run
  intro _ request h
  exact LockRequest.follows (h.2 request rfl)

theorem givesWay_arrive {s : LoopState LockName} {request : LockRequest}
    (hidle : ∀ t ∈ s.tasks, t.frames = []) (hfree : request.SelfFree) :
    GivesWay s (.arrive request) := by
  refine ⟨fun _ i t hsusp lock hlock => ?_, ?_⟩
  · have hnil := hidle t (List.mem_of_getElem? hsusp.1)
    rw [hnil] at hlock
    exact absurd hlock List.not_mem_nil
  · intro other he
    cases he
    exact hfree

theorem not_blocked {s : LoopState LockName} {lock : LockName} (i : Nat)
    (h : ∀ u ∈ s.tasks, lock ∉ heldLocks u.frames) (j : Nat) : ¬ s.Blocks lockKinds i lock j := by
  intro ⟨_, u, _, hj, hheld, _⟩
  exact h u (List.mem_of_getElem? hj) hheld

/-- A layout is saved while a node of the same lab starts. -/
theorem layout_beside_start_never_stalls :
    ∃ s, Run (LoopStep lockKinds LockRequest.program) {}
        [.arrive (.startNode "lab" 1 true), .arrive (.editLab "lab.json" 1), .take 0, .enter 1,
          .advance 1, .take 1] s ∧ s.NoStall lockKinds := by
  have hrun : ∃ s, Run (Guarded (LoopStep lockKinds LockRequest.program) GivesWay) {}
      [.arrive (.startNode "lab" 1 true), .arrive (.editLab "lab.json" 1), .take 0, .enter 1,
        .advance 1, .take 1] s := by
    refine ⟨_, Run.cons ⟨givesWay_arrive ?_ trivial, .arrive _⟩ <|
      Run.cons ⟨givesWay_arrive ?_ trivial, .arrive _⟩ <|
      Run.cons ⟨⟨trivial, fun _ he => by cases he⟩, .take ⟨rfl, fun he => by cases he⟩ rfl
        (not_blocked 0 ?_)⟩ <|
      Run.cons ⟨⟨trivial, fun _ he => by cases he⟩, .enter rfl rfl rfl⟩ <|
      Run.cons ⟨⟨trivial, fun _ he => by cases he⟩, .advance ⟨rfl, fun _ => rfl⟩ .seq⟩ <|
      Run.single ⟨⟨trivial, fun _ he => by cases he⟩, .take ⟨rfl, fun _ => rfl⟩ rfl
        (not_blocked 1 ?_)⟩⟩
    · exact fun t ht => absurd ht List.not_mem_nil
    · intro t ht
      rw [List.mem_singleton.mp ht]
    · decide
    · decide
  obtain ⟨s, run⟩ := hrun
  exact ⟨s, run.of_guarded, locks_never_stall run⟩

/-- A link to a running QEMU node is created in a lab at the top of the directory: the planned
MAC is persisted under the lab's own lock. -/
def hotLink : LinkCall where
  labPath := "lab.json"
  labId := "lab"
  labs := pairLabs
  nodeKeys := [(1, 0)]
  hotNics := [{ nodeId := 1 }]

/-- A task that has the loop, with nobody else. -/
def alone (code : LockCode) (frames : List (LockFrame LockName)) : LoopState LockName :=
  ⟨[⟨.loop, code, frames⟩], some 0⟩

theorem alone_advance {code code' : LockCode} {frames frames' : List (LockFrame LockName)}
    (h : Advance code frames code' frames') :
    LoopStep lockKinds LockRequest.program (alone code frames) (.advance 0) (alone code' frames') :=
  @LoopStep.advance _ _ _ lockKinds LockRequest.program (alone code frames) 0
    ⟨.loop, code, frames⟩ code' frames' ⟨rfl, fun _ => rfl⟩ h

theorem alone_take {wait : Wait} {lock : LockName} {body : LockCode}
    {frames : List (LockFrame LockName)} (h : lock ∉ heldLocks frames) :
    LoopStep lockKinds LockRequest.program (alone (.hold wait lock body) frames) (.take 0)
      (alone body (.releases lock :: frames)) := by
  have hfree : ∀ u ∈ (alone (.hold wait lock body) frames).tasks, lock ∉ heldLocks u.frames := by
    intro u hu
    rw [List.mem_singleton.mp hu]
    exact h
  exact @LoopStep.take _ _ _ lockKinds LockRequest.program (alone (.hold wait lock body) frames) 0
    ⟨.loop, .hold wait lock body, frames⟩ wait lock body ⟨rfl, fun _ => rfl⟩ rfl
    (not_blocked 0 hfree)

theorem alone_yield (frames : List (LockFrame LockName)) :
    LoopStep lockKinds LockRequest.program (alone .pause frames) (.yield 0)
      ⟨[⟨.loop, .skip, frames⟩], none⟩ :=
  @LoopStep.yield _ _ _ lockKinds LockRequest.program (alone .pause frames) 0
    ⟨.loop, .pause, frames⟩ rfl rfl rfl

theorem alone_waits {lock : LockName} {body : LockCode} {frames : List (LockFrame LockName)}
    (hheld : lock ∈ heldLocks frames) (hkind : ¬ lockKinds.reentrant lock) :
    (alone (.hold .blocking lock body) frames).WaitsFor lockKinds 0 0 :=
  ⟨.blocking, lock, ⟨_, body, rfl, rfl, fun _ => rfl⟩, ⟨_, _, rfl, rfl, hheld, fun h => hkind h.1⟩⟩

theorem hot_link_waits_for_itself :
    ∃ as s, Run (LoopStep lockKinds LockRequest.program) {} (.arrive (.createLink hotLink) :: as) s ∧
      s.WaitsFor lockKinds 0 0 := by
  have hfile : persistPlannedMacCode pairLabs "lab" = labLock "lab.json" .skip := by
    unfold persistPlannedMacCode
    rw [show plannedMacFile pairLabs "lab" = some "lab.json" by decide +kernel]
  have hcode : createLinkCode hotLink false =
      .hold .awaiting (.runtimeMutex "lab" 1 0)
        (.seq (labLock "lab.json" (.seq (.seq (.seq .skip .skip)
            (.seq (acquireNodeSync "lab" 1 (.seq .skip
              (bestEffort (persistPlannedMacCode pairLabs "lab")))) .skip))
          (reconcileAll "lab" []))) .skip) := rfl
  rw [hfile] at hcode
  have harrive : LoopStep lockKinds LockRequest.program {} (.arrive (.createLink hotLink))
      ⟨[⟨.loop, createLinkCode hotLink false, []⟩], none⟩ := .arrive _
  have henter : LoopStep lockKinds LockRequest.program
      ⟨[⟨.loop, createLinkCode hotLink false, []⟩], none⟩ (.enter 0)
      (alone (createLinkCode hotLink false) []) := .enter rfl rfl rfl
  rw [hcode] at henter
  refine ⟨_, _, Run.cons harrive <| Run.cons (hcode ▸ henter) <|
    Run.cons (alone_take (by decide)) <| Run.cons (alone_advance .seq) <|
    Run.cons (alone_take (by decide)) <| Run.cons (alone_advance .seq) <|
    Run.cons (alone_advance .seq) <| Run.cons (alone_advance .seq) <|
    Run.cons (alone_advance .next) <| Run.cons (alone_advance .next) <|
    Run.cons (alone_advance .seq) <| Run.cons (alone_take (by decide)) <|
    Run.cons (alone_advance .seq) <| Run.cons (alone_advance .next) <|
    Run.single (alone_advance .attempt), alone_waits ?_ ?_⟩
  · decide
  · exact id

/-- Two nodes with one link: its `link_created` is published under the lab lock. -/
def pairedPublish : PairedCall where
  labPath := "lab.json"
  links := [{ labPath := "lab.json", labId := "lab", labs := pairLabs,
              nodeKeys := [(1, 0), (2, 0)], events := 1 }]

theorem paired_publish_yields :
    ∃ as s, Run (LoopStep lockKinds LockRequest.program) {}
        (.arrive (.createNodesFromPairedTemplate pairedPublish) :: as) s ∧
      ∃ frames, s = ⟨[⟨.loop, .skip, frames⟩], none⟩ ∧ .labLock "lab.json" ∈ heldLocks frames := by
  have hcode : pairedCode pairedPublish =
      labLock "lab.json" (.attempt
        (.seq (.hold .awaiting (.runtimeMutex "lab" 1 0) (.hold .awaiting (.runtimeMutex "lab" 2 0)
          (.seq (.seq (.seq .skip .skip) (reconcileAll "lab" [])) (.seq .pause .skip)))) .skip)
        .skip) := rfl
  have harrive : LoopStep lockKinds LockRequest.program {}
      (.arrive (.createNodesFromPairedTemplate pairedPublish))
      ⟨[⟨.loop, pairedCode pairedPublish, []⟩], none⟩ := .arrive _
  have henter : LoopStep lockKinds LockRequest.program
      ⟨[⟨.loop, pairedCode pairedPublish, []⟩], none⟩ (.enter 0)
      (alone (pairedCode pairedPublish) []) := .enter rfl rfl rfl
  rw [hcode] at henter
  refine ⟨_, _, Run.cons harrive <| Run.cons (hcode ▸ henter) <|
    Run.cons (alone_take (by decide)) <| Run.cons (alone_advance .attempt) <|
    Run.cons (alone_advance .seq) <| Run.cons (alone_take (by decide)) <|
    Run.cons (alone_take (by decide)) <| Run.cons (alone_advance .seq) <|
    Run.cons (alone_advance .seq) <| Run.cons (alone_advance .seq) <|
    Run.cons (alone_advance .next) <| Run.cons (alone_advance .next) <|
    Run.cons (alone_advance .attempt) <| Run.cons (alone_advance .endTry) <|
    Run.cons (alone_advance .next) <| Run.cons (alone_advance .seq) <|
    Run.single (alone_yield _), _, rfl, ?_⟩
  decide

/-- A new link waits for the lab lock it has, and a layout that is saved while the loop publishes
for a paired template blocks the loop on the lab lock of that request. -/
theorem lock_waits_stall :
    (∃ as s, Run (LoopStep lockKinds LockRequest.program) {} (.arrive (.createLink hotLink) :: as) s ∧
      ¬ s.NoStall lockKinds) ∧
    ∃ as s, Run (LoopStep lockKinds LockRequest.program) {}
        (.arrive (.createNodesFromPairedTemplate pairedPublish) :: as) s ∧
      ¬ s.NoStall lockKinds := by
  constructor
  · obtain ⟨as, s, run, hself⟩ := hot_link_waits_for_itself
    exact ⟨as, s, run, fun h => h.acyclic 0 (Relation.TransGen.single hself)⟩
  · obtain ⟨as, s, run, frames, hs, hheld⟩ := paired_publish_yields
    subst hs
    let layout : LoopTask LockName := ⟨.loop, .seq (labLock "lab.json" .skip) (publishEvents 1), []⟩
    let blocked : LoopTask LockName := ⟨.loop, labLock "lab.json" .skip, [.andThen (publishEvents 1)]⟩
    have harrive : LoopStep lockKinds LockRequest.program ⟨[⟨.loop, .skip, frames⟩], none⟩
        (.arrive (.editLab "lab.json" 1)) ⟨[⟨.loop, .skip, frames⟩, layout], none⟩ := .arrive _
    have henter : LoopStep lockKinds LockRequest.program ⟨[⟨.loop, .skip, frames⟩, layout], none⟩
        (.enter 1) ⟨[⟨.loop, .skip, frames⟩, layout], some 1⟩ := .enter rfl rfl rfl
    have hadvance : LoopStep lockKinds LockRequest.program
        ⟨[⟨.loop, .skip, frames⟩, layout], some 1⟩ (.advance 1)
        ⟨[⟨.loop, .skip, frames⟩, blocked], some 1⟩ :=
      @LoopStep.advance _ _ _ lockKinds LockRequest.program
        ⟨[⟨.loop, .skip, frames⟩, layout], some 1⟩ 1 layout _ _ ⟨rfl, fun _ => rfl⟩ .seq
    refine ⟨_, _, Run.trans run (Run.cons harrive (Run.cons henter (Run.single hadvance))), ?_⟩
    intro h
    refine h.unblocked 1 0 (.labLock "lab.json") ⟨.loop, .skip, frames⟩ ?_ rfl rfl rfl rfl ?_ hheld
    · exact ⟨blocked, .skip, rfl, rfl, fun _ => rfl⟩
    · exact fun he => by cases he

end NovaVe
