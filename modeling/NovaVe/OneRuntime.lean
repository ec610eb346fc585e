import NovaVe.NodeCallRuns

namespace NovaVe

/-- Only a QEMU start takes the mutex. -/
def LockedQemu (world : NodeWorld) : Prop :=
  ∀ t, world.calls t = .startLocked → world.kind = .qemu

theorem LockedQemu.goto {world : NodeWorld} (h : LockedQemu world) (t : Nat) {phase : CallPhase}
    {live : List Nat} {next : Nat} {record mutex : Option Nat}
    (hphase : phase = .startLocked → world.kind = .qemu) :
    LockedQemu (NodeWorld.goto ⟨world.kind, live, next, record, mutex, world.calls⟩ t phase) := by
  intro other hother
  change Function.update world.calls t phase other = .startLocked at hother
  by_cases hne : other = t
  · rw [hne, Function.update_self] at hother
    exact hphase hother
  · rw [Function.update_of_ne hne] at hother
    exact h other hother

theorem LockedQemu.advance {world : NodeWorld} (h : LockedQemu world) (t : Nat)
    (ending : Ending) : LockedQemu (world.advance t ending) := by
  have hpass : world.kind.pastTest = .startLocked → world.kind = .qemu := by
    cases world.kind <;> intro he <;> cases he
  unfold NodeWorld.advance
  split
  next => exact h
  next =>
    split
    next => exact h.goto t hpass
    next => exact h.goto t (fun he => by cases he)
  next =>
    refine h.goto t ?_
    split
    next => exact fun he => by cases he
    next => exact fun he => by cases he
  next => exact h.goto t hpass
  next =>
    split
    next => exact h.goto t (fun he => by cases he)
    next =>
      cases ending <;> exact h.goto t (fun he => by cases he)
  next => exact h.goto t (fun he => by cases he)
  next =>
    split
    next hqemu =>
      split
      next => exact h.goto t (fun _ => hqemu)
      next => exact h
    next =>
      split
      next => exact h.goto t (fun he => by cases he)
      next => exact h.goto t (fun he => by cases he)
  next =>
    split
    next => exact h.goto t (fun he => by cases he)
    next => exact h.goto t (fun he => by cases he)
  next => cases ending <;> exact h.goto t (fun he => by cases he)
  next => exact h.goto t (fun he => by cases he)
  next =>
    split
    next => exact h.goto t (fun he => by cases he)
    next => exact h.goto t (fun he => by cases he)
  next =>
    refine h.goto t ?_
    split
    next =>
      split
      next => exact fun he => by cases he
      next => exact fun he => by cases he
    next => exact fun he => by cases he
  next => exact h.goto t (fun he => by cases he)
  next =>
    split
    next => exact h.goto t (fun he => by cases he)
    next => exact h
  next => cases ending <;> exact h.goto t (fun he => by cases he)
  next => exact h.goto t (fun he => by cases he)

/-- A call that holds no process moves on to a phase that names none. -/
theorem NodeInv.move {world : NodeWorld} (h : NodeInv world) {t : Nat} {phase old : CallPhase}
    {mutex : Option Nat} (hphase : world.calls t = old) (hholds : old.holds = none)
    (hnames : phase.names = none) (hburies : phase.buries = none)
    (hpast : phase.past = true → old.past = true) :
    NodeInv ({ world with mutex := mutex }.goto t phase) := by
  subst hphase
  refine h.goto_phase ?_ (Or.inl hholds) ?_ hpast
  · intro r hr
    rw [hnames] at hr
    cases hr
  · intro r hr
    rw [hburies] at hr
    cases hr

/-- A call that holds no process moves on to a phase that names one of the pids handed out. -/
theorem NodeInv.moveNaming {world : NodeWorld} (h : NodeInv world) {t r : Nat}
    {phase old : CallPhase} {mutex : Option Nat} (hphase : world.calls t = old)
    (hholds : old.holds = none) (hnames : phase.names = some r) (hr : r < world.next)
    (hburies : ∀ q, phase.buries = some q → q ∉ world.live)
    (hpast : phase.past = true → old.past = true) :
    NodeInv ({ world with mutex := mutex }.goto t phase) := by
  subst hphase
  refine h.goto_phase ?_ (Or.inl hholds) hburies hpast
  intro q hq
  rw [hnames] at hq
  cases hq
  exact hr

/-- A test that found nothing alive, or did not go through, was about a dead record. -/
theorem tested_dead {world : NodeWorld} {r : Nat} {ending : Ending}
    (hok : ending = .done ∨ world.recordAlive r = false)
    (h : ¬(ending = .done ∧ world.recordAlive r = true)) : world.recordAlive r = false := by
  rcases hok with hdone | hdead
  · exact Bool.not_eq_true _ ▸ fun halive => h ⟨hdone, halive⟩
  · exact hdead

/-- A test whose record is found dead leads to its eviction. -/
theorem NodeInv.condemn {world : NodeWorld} (h : NodeInv world) {t r : Nat}
    {phase old : CallPhase} {mutex : Option Nat} (hphase : world.calls t = old)
    (hholds : old.holds = none) (hnamed : old.names = some r) (hnames : phase.names = some r)
    (hburies : phase.buries = some r) (hpast : phase.past = false) (hdead : r ∉ world.live) :
    NodeInv ({ world with mutex := mutex }.goto t phase) := by
  refine h.moveNaming hphase hholds hnames (h.freshCalls t r (by rw [hphase, hnamed])) ?_ ?_
  · intro q hq
    rw [hburies] at hq
    cases hq
    exact hdead
  · intro hp
    rw [hpast] at hp
    cases hp

/-- The boot of a call that finds the mutex free or takes none. -/
theorem NodeInv.boot {world : NodeWorld} (h : NodeInv world) {t : Nat}
    (hphase : world.calls t = .startLaunch) (ending : Ending) :
    NodeInv (world.advance t ending) := by
  rw [NodeWorld.advance, hphase]
  dsimp only
  by_cases hqemu : world.kind = .qemu
  · rw [if_pos hqemu]
    cases hmutex : world.mutex with
    | none => exact h.move hphase rfl rfl rfl (fun _ => rfl)
    | some holder => exact h
  · rw [if_neg hqemu]
    by_cases hrefused : ending ≠ .done ∨ (world.kind.byName = true ∧ world.live ≠ [])
    · rw [if_pos hrefused]
      exact h.move hphase rfl rfl rfl (fun hp => by cases hp)
    · rw [if_neg hrefused]
      have hpast : (world.calls t).past = true := by rw [hphase]; rfl
      have hlive : world.live = [] := by
        by_cases hname : world.kind.byName = true
        · by_contra hne
          exact hrefused (Or.inr ⟨hname, hne⟩)
        · exact h.nothing_live (by simpa using hname) hpast (by rw [hphase]; rfl)
      exact h.launch hpast hlive rfl rfl rfl

/-- The end of a boot, whose process is kept, taken down or left behind. -/
theorem NodeInv.finish {world : NodeWorld} (h : NodeInv world) {t p : Nat} {ending : Ending}
    (hphase : world.calls t = .startFinish p)
    (hok : ending = .raised → p ∈ world.live → world.record = some p) :
    NodeInv (world.advance t ending) := by
  rw [NodeWorld.advance, hphase]
  dsimp only
  cases ending with
  | done =>
    refine h.goto_phase ?_ (Or.inr (by rw [hphase]; rfl)) (fun q hq => by cases hq)
      (fun _ => by rw [hphase]; rfl)
    intro q hq
    cases hq
    exact h.freshCalls t p (by rw [hphase]; rfl)
  | failed =>
    exact h.abandon hphase (world.without_sublist p) (fun hp => absurd hp (world.notMem_without p))
  | raised => exact h.abandon hphase (List.Sublist.refl world.live) (hok rfl)

theorem NodeInv.advance {world : NodeWorld} (h : NodeInv world) (hlocked : LockedQemu world)
    (t : Nat) (ending : Ending)
    (hok : world.StepOk (.advance t ending)) : NodeInv (world.advance t ending) := by
  dsimp only [NodeWorld.StepOk] at hok
  cases hphase : world.calls t with
  | startLaunch => exact h.boot hphase ending
  | startFinish p =>
    rw [hphase] at hok
    exact h.finish hphase hok
  | idle =>
    rw [NodeWorld.advance, hphase]
    exact h
  | startRead =>
    rw [hphase] at hok
    rw [NodeWorld.advance, hphase]
    dsimp only at hok ⊢
    cases hrecord : world.record with
    | none => exact h.pass hphase hrecord (hok hrecord)
    | some r =>
      have hr := h.freshRecord r hrecord
      exact h.moveNaming hphase rfl rfl hr (fun q hq => by cases hq) (fun hp => by cases hp)
  | startTest r =>
    rw [hphase] at hok
    rw [NodeWorld.advance, hphase]
    dsimp only at hok ⊢
    by_cases halive : ending = .done ∧ world.recordAlive r = true
    · rw [if_pos halive]
      exact h.move hphase rfl rfl rfl (fun hp => by cases hp)
    · rw [if_neg halive]
      exact h.condemn hphase rfl rfl rfl rfl rfl (recordAlive_false (tested_dead hok halive))
  | startEvict r =>
    rw [hphase] at hok
    rw [NodeWorld.advance, hphase]
    exact h.delete (by rw [hphase]; rfl) hok.2 (pastTest_names _) (fun _ => hok.1)
  | startReconcile =>
    rw [NodeWorld.advance, hphase]
    dsimp only
    cases hlive : world.live with
    | nil => exact h.move hphase rfl rfl rfl (fun _ => rfl)
    | cons p rest =>
      have hp := h.freshLive p (by rw [hlive]; exact List.mem_cons_self)
      cases ending with
      | done => exact h.moveNaming hphase rfl rfl hp (fun q hq => by cases hq) (fun _ => rfl)
      | failed => exact h.move hphase rfl rfl rfl (fun _ => rfl)
      | raised => exact h.move hphase rfl rfl rfl (fun hp => by cases hp)
  | startAdopt p =>
    rw [hphase] at hok
    rw [NodeWorld.advance, hphase]
    exact h.publish (by rw [hphase]; rfl) hok
  | startLocked =>
    rw [NodeWorld.advance, hphase]
    dsimp only
    by_cases hdone : ending = .done
    · rw [if_pos hdone]
      have hpast : (world.calls t).past = true := by rw [hphase]; rfl
      have hname : world.kind.byName = false := by rw [hlocked t hphase]; rfl
      exact h.launch hpast (h.nothing_live hname hpast (by rw [hphase]; rfl)) rfl rfl rfl
    · rw [if_neg hdone]
      exact h.move hphase rfl rfl rfl (fun hp => by cases hp)
  | startPublish p =>
    rw [hphase] at hok
    rw [NodeWorld.advance, hphase]
    exact h.publish (by rw [hphase]; rfl) hok
  | stopRead =>
    rw [NodeWorld.advance, hphase]
    dsimp only
    cases hrecord : world.record with
    | none => exact h.move hphase rfl rfl rfl (fun hp => by cases hp)
    | some r =>
      have hr := h.freshRecord r hrecord
      exact h.moveNaming hphase rfl rfl hr (fun q hq => by cases hq) (fun hp => by cases hp)
  | stopTest r =>
    rw [hphase] at hok
    rw [NodeWorld.advance, hphase]
    dsimp only at hok ⊢
    have hr := h.freshCalls t r (by rw [hphase]; rfl)
    by_cases halive : ending = .done ∧ world.recordAlive r = true
    · rw [if_pos halive]
      split
      next =>
        exact h.moveNaming hphase rfl rfl hr (fun q hq => by cases hq) (fun hp => by cases hp)
      next =>
        exact h.moveNaming hphase rfl rfl hr (fun q hq => by cases hq) (fun hp => by cases hp)
    · rw [if_neg halive]
      exact h.condemn hphase rfl rfl rfl rfl rfl (recordAlive_false (tested_dead hok halive))
  | stopEvict r =>
    rw [hphase] at hok
    rw [NodeWorld.advance, hphase]
    exact h.delete (by rw [hphase]; rfl) hok rfl (fun hp => by cases hp)
  | stopLock r =>
    rw [NodeWorld.advance, hphase]
    dsimp only
    have hr := h.freshCalls t r (by rw [hphase]; rfl)
    cases hmutex : world.mutex with
    | none =>
      exact h.moveNaming hphase rfl rfl hr (fun q hq => by cases hq) (fun hp => by cases hp)
    | some holder => exact h
  | stopKill r =>
    rw [hphase] at hok
    rw [NodeWorld.advance, hphase]
    dsimp only at hok ⊢
    cases ending with
    | done => exact h.kill hphase
    | failed => exact h.condemn hphase rfl rfl rfl rfl rfl (hok rfl)
    | raised => exact h.move hphase rfl rfl rfl (fun hp => by cases hp)
  | stopDelete r =>
    rw [hphase] at hok
    rw [NodeWorld.advance, hphase]
    exact h.delete (by rw [hphase]; rfl) hok rfl (fun hp => by cases hp)

theorem NodeInv.step {world : NodeWorld} (h : NodeInv world) (hlocked : LockedQemu world)
    {action : CallAction} (hok : world.StepOk action) : NodeInv (world.step action) := by
  cases action with
  | beginStart t =>
    dsimp only [NodeWorld.step]
    split
    next hidle =>
      exact h.move hidle rfl rfl rfl (fun hp => by cases hp)
    next => exact h
  | beginStop t =>
    dsimp only [NodeWorld.step]
    split
    next hidle =>
      exact h.move hidle rfl rfl rfl (fun hp => by cases hp)
    next => exact h
  | advance t ending => exact h.advance hlocked t ending hok
  | giveUp t =>
    dsimp only [NodeWorld.step]
    split
    next r hphase =>
      exact h.move hphase rfl rfl rfl (fun hp => by cases hp)
    next hphase =>
      split
      next =>
        exact h.move hphase rfl rfl rfl (fun hp => by cases hp)
      next => exact h
    next => exact h
  | exits p => exact h.shrink List.filter_sublist

theorem LockedQemu.step {world : NodeWorld} (h : LockedQemu world) (action : CallAction) :
    LockedQemu (world.step action) := by
  cases action with
  | beginStart t =>
    dsimp only [NodeWorld.step]
    split
    next => exact h.goto t (fun he => by cases he)
    next => exact h
  | beginStop t =>
    dsimp only [NodeWorld.step]
    split
    next => exact h.goto t (fun he => by cases he)
    next => exact h
  | advance t ending => exact h.advance t ending
  | giveUp t =>
    dsimp only [NodeWorld.step]
    split
    next => exact h.goto t (fun he => by cases he)
    next =>
      split
      next => exact h.goto t (fun he => by cases he)
      next => exact h
    next => exact h
  | exits p => exact h

/-- No call is in progress, and the one process that may live is the recorded one. -/
structure NodeAtRest (world : NodeWorld) : Prop where
  idle : ∀ t, world.calls t = .idle
  recorded : ∀ p ∈ world.live, world.record = some p
  single : world.live.length ≤ 1
  freshLive : ∀ p ∈ world.live, p < world.next
  freshRecord : ∀ r, world.record = some r → r < world.next

theorem NodeAtRest.inv {world : NodeWorld} (h : NodeAtRest world) : NodeInv world where
  freshLive := h.freshLive
  freshRecord := h.freshRecord
  freshCalls t r hr := by rw [h.idle t] at hr; cases hr
  single := h.single
  covered p hp := Or.inl (h.recorded p hp)
  dead t r hr := by rw [h.idle t] at hr; cases hr
  alone _ t _ ht _ := by rw [h.idle t] at ht; cases ht
  quiet _ t ht := by rw [h.idle t] at ht; cases ht

/-- Runs of starts and stops whose steps meet their conditions keep one runtime for the node. -/
theorem one_runtime_of_run {world final : NodeWorld} {actions : List CallAction}
    (hrest : NodeAtRest world)
    (run : Run (Guarded (stepOf NodeWorld.step) NodeWorld.StepOk) world actions final) :
    OneRuntime final := by
  have hstart : NodeInv world ∧ LockedQemu world := by
    refine ⟨hrest.inv, fun t ht => ?_⟩
    rw [hrest.idle t] at ht
    cases ht
  have hfinal : NodeInv final ∧ LockedQemu final := by
    refine @Run.guarded_invariant _ _ _ _ (fun w => NodeInv w ∧ LockedQemu w) ?_ _ _ _ run hstart
    intro s a h hok
    exact ⟨h.1.step h.2 hok, h.2.step a⟩
  exact OneRuntime.of_inv hfinal.1

/-- A stopped node without a record. -/
def stoppedNode (kind : NodeKind) : NodeWorld := ⟨kind, [], 0, none, none, fun _ => .idle⟩

theorem stoppedNode_at_rest (kind : NodeKind) : NodeAtRest (stoppedNode kind) :=
  ⟨fun _ => rfl, fun p hp => absurd hp List.not_mem_nil, Nat.zero_le 1,
    fun p hp => absurd hp List.not_mem_nil, fun r hr => by cases hr⟩

/-- Two starts that both read the registry before either publishes. -/
def racingStarts : List CallAction :=
  [.beginStart 1, .beginStart 2, .advance 1 .done, .advance 2 .done, .advance 1 .done,
    .advance 1 .done, .advance 1 .done, .advance 2 .done, .advance 2 .done]

/-- Where a call has got to is changed by its own steps only. -/
theorem NodeWorld.step_calls (world : NodeWorld) {action : CallAction} {other : Nat}
    (h : ∀ t, action.thread = some t → other ≠ t) :
    (world.step action).calls other = world.calls other := by
  have hgoto : ∀ (w : NodeWorld) t phase, w.calls = world.calls → other ≠ t →
      (w.goto t phase).calls other = world.calls other := by
    intro w t phase hw hne
    show Function.update w.calls t phase other = _
    rw [Function.update_of_ne hne, hw]
  cases action with
  | beginStart t | beginStop t =>
    have hne := h t rfl
    dsimp only [NodeWorld.step]
    split
    next => exact hgoto _ t _ rfl hne
    next => rfl
  | advance t ending =>
    have hne := h t rfl
    dsimp only [NodeWorld.step]
    unfold NodeWorld.advance
    repeat' split
    all_goals first | rfl | exact hgoto _ t _ rfl hne
  | giveUp t =>
    have hne := h t rfl
    dsimp only [NodeWorld.step]
    repeat' split
    all_goals first | rfl | exact hgoto _ t _ rfl hne
  | exits p => rfl

/-- Starts and stops of the node by two threads: a start that is published, a stop whose kill raises,
one that goes through, and a start again. -/
def startsAndStops : List CallAction :=
  [.beginStart 1, .advance 1 .done, .advance 1 .done, .advance 1 .done, .advance 1 .done,
    .advance 1 .done, .beginStop 2, .advance 2 .done, .advance 2 .done, .advance 2 .done,
    .advance 2 .raised, .beginStop 2, .advance 2 .done, .advance 2 .done, .advance 2 .done,
    .advance 2 .done, .advance 2 .done, .beginStart 1, .advance 1 .done, .advance 1 .done,
    .advance 1 .done, .advance 1 .done, .advance 1 .done]

theorem startsAndStops_alone (n : Nat) (hsecond :
    (((startsAndStops.take n).foldl NodeWorld.step (stoppedNode .qemu)).calls 2).past = false) :
    ((startsAndStops.take n).foldl NodeWorld.step (stoppedNode .qemu)).OnlyStart 1 := by
  have hthreads : ∀ a ∈ startsAndStops, a.thread = some 1 ∨ a.thread = some 2 := by decide
  intro _ other hne
  by_cases htwo : other = 2
  · rw [htwo]
    exact hsecond
  · have hcalls : ∀ (actions : List CallAction) (world : NodeWorld),
        (∀ a ∈ actions, a.thread = some 1 ∨ a.thread = some 2) →
        (actions.foldl NodeWorld.step world).calls other = world.calls other := by
      intro actions
      induction actions with
      | nil => exact fun _ _ => rfl
      | cons a rest ih =>
        intro world hall
        rw [List.foldl_cons, ih _ (fun b hb => hall b (List.mem_cons_of_mem a hb))]
        refine world.step_calls (fun t ht => ?_)
        rcases hall a List.mem_cons_self with h | h
        · exact Option.some.inj (h.symm.trans ht) ▸ hne
        · exact Option.some.inj (h.symm.trans ht) ▸ htwo
    rw [hcalls _ _ (fun a ha => hthreads a (List.mem_of_mem_take ha))]
    rfl

/-- In the end the process of the second start lives, and the record describes it. -/
theorem starts_and_stops_keep_one_runtime :
    OneRuntime (startsAndStops.foldl NodeWorld.step (stoppedNode .qemu)) ∧
      (startsAndStops.foldl NodeWorld.step (stoppedNode .qemu)).live = [1] ∧
      (startsAndStops.foldl NodeWorld.step (stoppedNode .qemu)).record = some 1 := by
  refine ⟨@one_runtime_of_run (stoppedNode .qemu) _ startsAndStops (stoppedNode_at_rest .qemu) ?_,
    by decide, by decide⟩
  refine Run.cons ⟨trivial, rfl⟩ ?_
  refine Run.cons ⟨fun _ => startsAndStops_alone 1 (by decide), rfl⟩ ?_
  refine Run.cons ⟨trivial, rfl⟩ (Run.cons ⟨trivial, rfl⟩ ?_)
  refine Run.cons ⟨(fun h => by cases h), rfl⟩ (Run.cons ⟨(fun q hq => by cases hq), rfl⟩ ?_)
  refine Run.cons ⟨trivial, rfl⟩ (Run.cons ⟨trivial, rfl⟩ ?_)
  refine Run.cons ⟨Or.inl rfl, rfl⟩ (Run.cons ⟨trivial, rfl⟩ ?_)
  refine Run.cons ⟨(fun h => by cases h), rfl⟩ ?_
  refine Run.cons ⟨trivial, rfl⟩ (Run.cons ⟨trivial, rfl⟩ ?_)
  refine Run.cons ⟨Or.inl rfl, rfl⟩ (Run.cons ⟨trivial, rfl⟩ ?_)
  refine Run.cons ⟨(fun h => by cases h), rfl⟩ ?_
  refine Run.cons ⟨fun q hq => Or.inl (Option.some.inj hq).symm, rfl⟩ ?_
  refine Run.cons ⟨trivial, rfl⟩ ?_
  refine Run.cons ⟨fun _ => startsAndStops_alone 18 (by decide), rfl⟩ ?_
  refine Run.cons ⟨trivial, rfl⟩ (Run.cons ⟨trivial, rfl⟩ ?_)
  exact Run.cons ⟨(fun h => by cases h), rfl⟩ (Run.single ⟨(fun q hq => by cases hq), rfl⟩)

theorem racing_starts_launch_twice :
    ¬ ∀ (world final : NodeWorld) (actions : List CallAction), NodeAtRest world →
      Run (stepOf NodeWorld.step) world actions final → OneRuntime final := by
  intro h
  have hrun : Run (stepOf NodeWorld.step) (stoppedNode .qemu) racingStarts
      (racingStarts.foldl NodeWorld.step (stoppedNode .qemu)) := run_stepOf_iff.mpr rfl
  have hone := (h _ _ _ (stoppedNode_at_rest .qemu) hrun).1
  exact absurd hone (by decide)

end NovaVe
