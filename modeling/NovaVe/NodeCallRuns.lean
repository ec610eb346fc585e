import Mathlib.Logic.Function.Basic
import NovaVe.Runs
import NovaVe.RuntimeLiveness

namespace NovaVe

/-- Where a call of `start_node` or `stop_node` stands. A process is named by the number of its
launch; `r` is the record the call read, `p` the process it launched or found. `startFinish` is the
rest of the boot path after the launch, which QEMU makes under the mutex. -/
inductive CallPhase
  | idle
  | startRead | startTest (r : Nat) | startEvict (r : Nat)
  | startReconcile | startAdopt (p : Nat)
  | startLaunch | startLocked | startFinish (p : Nat) | startPublish (p : Nat)
  | stopRead | stopTest (r : Nat) | stopEvict (r : Nat)
  | stopLock (r : Nat) | stopKill (r : Nat) | stopDelete (r : Nat)
deriving DecidableEq, Repr

/-- One node: the live processes launched for it, the process its registry record describes, the
holder of the node mutex, and the calls by thread. -/
structure NodeWorld where
  kind : NodeKind
  live : List Nat
  next : Nat
  record : Option Nat
  mutex : Option Nat
  calls : Nat → CallPhase

variable {world : NodeWorld}

/-- Containers and hypervisor VMs are named after their node. -/
def NodeKind.byName : NodeKind → Bool
  | .docker | .dynamips => true
  | .qemu | .iol => false

/-- `_is_runtime_alive` of a record. -/
def NodeWorld.recordAlive (world : NodeWorld) (r : Nat) : Bool :=
  if world.kind.byName then !world.live.isEmpty else world.live.contains r

def NodeWorld.goto (world : NodeWorld) (t : Nat) (phase : CallPhase) : NodeWorld :=
  { world with calls := Function.update world.calls t phase }

/-- A start that found nothing live goes on. -/
def NodeKind.pastTest : NodeKind → CallPhase
  | .docker => .startReconcile
  | _ => .startLaunch

/-- How the outside part of a step ends. A launch that does not go through launches nothing; a test
that does not go through answers that nothing lives; a kill or the end of a boot path may fail, or
raise and leave the process alive. -/
inductive Ending
  | done | failed | raised
deriving DecidableEq, Repr

inductive CallAction
  | beginStart (t : Nat)
  | beginStop (t : Nat)
  | advance (t : Nat) (ending : Ending)
  | giveUp (t : Nat)
  | exits (p : Nat)

/-- The thread that takes the step. -/
def CallAction.thread : CallAction → Option Nat
  | .beginStart t | .beginStop t | .advance t _ | .giveUp t => some t
  | .exits _ => none

/-- What is live when a process was killed; a container or a VM is killed by its name. -/
def NodeWorld.without (world : NodeWorld) (p : Nat) : List Nat :=
  if world.kind.byName then [] else world.live.filter (fun q => decide (q ≠ p))

/-- A QEMU call leaves the mutex. -/
def NodeWorld.released (world : NodeWorld) : Option Nat :=
  if world.kind = NodeKind.qemu then none else world.mutex

/-- The next step of a call. -/
def NodeWorld.advance (world : NodeWorld) (t : Nat) (ending : Ending) : NodeWorld :=
  match world.calls t with
  | .idle => world
  | .startRead =>
    match world.record with
    | none => world.goto t world.kind.pastTest
    | some r => world.goto t (.startTest r)
  | .startTest r =>
    world.goto t (if ending = .done ∧ world.recordAlive r = true then .idle else .startEvict r)
  | .startEvict _ => { world with record := none }.goto t world.kind.pastTest
  | .startReconcile =>
    match world.live with
    | [] => world.goto t .startLaunch
    | p :: _ =>
      match ending with
      | .done => world.goto t (.startAdopt p)
      | .failed => world.goto t .startLaunch
      | .raised => world.goto t .idle
  | .startAdopt p => { world with record := some p }.goto t .idle
  | .startLaunch =>
    if world.kind = .qemu then
      match world.mutex with
      | none => { world with mutex := some t }.goto t .startLocked
      | some _ => world
    -- a second container or VM of the same name is refused
    else if ending ≠ .done ∨ (world.kind.byName = true ∧ world.live ≠ []) then
      world.goto t .idle
    else
      { world with live := world.next :: world.live, next := world.next + 1 }.goto t
        (.startFinish world.next)
  | .startLocked =>
    if ending = .done then
      { world with live := world.next :: world.live, next := world.next + 1 }.goto t
        (.startFinish world.next)
    else { world with mutex := none }.goto t .idle
  | .startFinish p =>
    match ending with
    | .done => { world with mutex := world.released }.goto t (.startPublish p)
    | .failed => { world with live := world.without p, mutex := world.released }.goto t .idle
    | .raised => { world with mutex := world.released }.goto t .idle
  | .startPublish p => { world with record := some p }.goto t .idle
  | .stopRead =>
    match world.record with
    | none => world.goto t .idle
    | some r => world.goto t (.stopTest r)
  | .stopTest r =>
    world.goto t
      (if ending = .done ∧ world.recordAlive r = true then
          (if world.kind = .qemu then .stopLock r else .stopKill r)
        else .stopEvict r)
  | .stopEvict _ => { world with record := none }.goto t .idle
  | .stopLock r =>
    match world.mutex with
    | none => { world with mutex := some t }.goto t (.stopKill r)
    | some _ => world
  | .stopKill r =>
    match ending with
    | .done => { world with live := world.without r }.goto t (.stopDelete r)
    -- the exit code of `docker stop` is not looked at, and what the other launchers raise is logged
    | .failed => world.goto t (.stopDelete r)
    | .raised => { world with mutex := world.released }.goto t .idle
  | .stopDelete _ => { world with record := none, mutex := world.released }.goto t .idle

def NodeWorld.step (world : NodeWorld) : CallAction → NodeWorld
  | .beginStart t => if world.calls t = .idle then world.goto t .startRead else world
  | .beginStop t => if world.calls t = .idle then world.goto t .stopRead else world
  | .advance t ending => world.advance t ending
  -- the wait for the mutex is bounded
  | .giveUp t =>
    match world.calls t with
    | .stopLock _ => world.goto t .idle
    | .startLaunch => if world.kind = .qemu then world.goto t .idle else world
    | _ => world
  | .exits p => { world with live := world.live.filter (fun q => decide (q ≠ p)) }

/-- At most one process lives, and when no call is in progress the record describes it. -/
def OneRuntime (world : NodeWorld) : Prop :=
  world.live.length ≤ 1 ∧
    ((∀ t, world.calls t = .idle) → ∀ p ∈ world.live, world.record = some p)

/-- The start is past its test of the registry. -/
def CallPhase.past : CallPhase → Bool
  | .startReconcile | .startAdopt _ | .startLaunch | .startLocked | .startFinish _
  | .startPublish _ => true
  | _ => false

/-- No other start is between its test of the registry and its end. -/
def NodeWorld.OnlyStart (world : NodeWorld) (t : Nat) : Prop :=
  world.kind.byName = false → ∀ other, other ≠ t → (world.calls other).past = false

/-- The record under the key is the one the call read, or describes a dead process. -/
def NodeWorld.DeletesOwn (world : NodeWorld) (r : Nat) : Prop :=
  ∀ q, world.record = some q → q = r ∨ q ∉ world.live

/-- When a step of a call may be taken: a QEMU or IOL start passes its test only alone, a deletion
by key hits the record that was read or a dead one, and a publication covers no other live one; a
test that does not go through and a kill that fails were about a dead process, and a boot path that
raises leaves only a dead or a recorded one. -/
def NodeWorld.StepOk (world : NodeWorld) : CallAction → Prop
  | .advance t ending =>
    match world.calls t with
    | .startRead => world.record = none → world.OnlyStart t
    | .startTest r | .stopTest r => ending = .done ∨ world.recordAlive r = false
    | .startFinish p => ending = .raised → p ∈ world.live → world.record = some p
    | .stopKill r => ending = .failed → r ∉ world.live
    | .startEvict r => world.OnlyStart t ∧ world.DeletesOwn r
    | .startAdopt p | .startPublish p => ∀ q, world.record = some q → q = p ∨ q ∉ world.live
    | .stopEvict r | .stopDelete r => world.DeletesOwn r
    | _ => True
  | _ => True

/-- The process a call names. -/
def CallPhase.names : CallPhase → Option Nat
  | .startTest r | .startEvict r | .startAdopt r | .startFinish r | .startPublish r
  | .stopTest r | .stopEvict r | .stopLock r | .stopKill r | .stopDelete r => some r
  | _ => none

/-- The process a start has launched or found and not published yet. -/
def CallPhase.holds : CallPhase → Option Nat
  | .startAdopt p | .startFinish p | .startPublish p => some p
  | _ => none

/-- The process that a call found dead, or killed, before it deletes by key. -/
def CallPhase.buries : CallPhase → Option Nat
  | .startEvict r | .stopEvict r | .stopDelete r => some r
  | _ => none

structure NodeInv (world : NodeWorld) : Prop where
  freshLive : ∀ p ∈ world.live, p < world.next
  freshRecord : ∀ r, world.record = some r → r < world.next
  freshCalls : ∀ t r, (world.calls t).names = some r → r < world.next
  single : world.live.length ≤ 1
  covered : ∀ p ∈ world.live, world.record = some p ∨ ∃ t, (world.calls t).holds = some p
  dead : ∀ t r, (world.calls t).buries = some r → r ∉ world.live
  alone : world.kind.byName = false → ∀ t other, (world.calls t).past = true →
    (world.calls other).past = true → t = other
  quiet : world.kind.byName = false → ∀ t, (world.calls t).past = true →
    ∀ r, world.record = some r → r ∉ world.live

theorem OneRuntime.of_inv (h : NodeInv world) : OneRuntime world := by
  refine ⟨h.single, ?_⟩
  intro hidle p hp
  rcases h.covered p hp with hrecord | ⟨t, ht⟩
  · exact hrecord
  · rw [hidle t] at ht
    cases ht

/-- What a step of call `t` must show. -/
theorem NodeInv.goto (h : NodeInv world) (t : Nat) {phase : CallPhase} {live : List Nat}
    {next : Nat} {record mutex : Option Nat} (hnext : world.next ≤ next)
    (hfresh : ∀ p ∈ live, p < next ∧ (p ∈ world.live ∨ world.next ≤ p))
    (hrecord : ∀ r, record = some r → r < next) (hnames : ∀ r, phase.names = some r → r < next)
    (hsingle : live.length ≤ 1) (hcovered : ∀ p ∈ live, record = some p ∨ phase.holds = some p ∨
      ∃ other, other ≠ t ∧ (world.calls other).holds = some p)
    (hdead : ∀ r, phase.buries = some r → r ∉ live)
    (halone : world.kind.byName = false → phase.past = true →
      ∀ other, other ≠ t → (world.calls other).past = false) (hquiet : world.kind.byName = false →
      (phase.past = true ∨ ∃ other, other ≠ t ∧ (world.calls other).past = true) →
        ∀ r, record = some r → r ∉ live) :
    NodeInv (NodeWorld.goto ⟨world.kind, live, next, record, mutex, world.calls⟩ t phase) := by
  have hself : Function.update world.calls t phase t = phase := by simp
  have hother : ∀ other, other ≠ t →
      Function.update world.calls t phase other = world.calls other := by
    intro other hne
    simp [hne]
  refine ⟨fun p hp => (hfresh p hp).1, hrecord, ?_, hsingle, ?_, ?_, ?_, ?_⟩
  · intro other r hr
    change (Function.update world.calls t phase other).names = some r at hr
    by_cases hne : other = t
    · rw [hne, hself] at hr
      exact hnames r hr
    · rw [hother other hne] at hr
      exact Nat.lt_of_lt_of_le (h.freshCalls other r hr) hnext
  · intro p hp
    rcases hcovered p hp with hr | hholds | ⟨other, hne, hholds⟩
    · exact Or.inl hr
    · refine Or.inr ⟨t, ?_⟩
      change (Function.update world.calls t phase t).holds = some p
      rw [hself]
      exact hholds
    · refine Or.inr ⟨other, ?_⟩
      change (Function.update world.calls t phase other).holds = some p
      rw [hother other hne]
      exact hholds
  · intro other r hr hm
    change (Function.update world.calls t phase other).buries = some r at hr
    by_cases hne : other = t
    · rw [hne, hself] at hr
      exact hdead r hr hm
    · rw [hother other hne] at hr
      rcases (hfresh r hm).2 with hold | hnew
      · exact h.dead other r hr hold
      · have hnamed : (world.calls other).names = some r := by
          cases hphase : world.calls other <;> simp_all [CallPhase.buries, CallPhase.names]
        have hlt := h.freshCalls other r hnamed
        omega
  · intro hkind a b ha hb
    change (Function.update world.calls t phase a).past = true at ha
    change (Function.update world.calls t phase b).past = true at hb
    by_cases hat : a = t
    · by_cases hbt : b = t
      · rw [hat, hbt]
      · rw [hat, hself] at ha
        rw [hother b hbt, halone hkind ha b hbt] at hb
        cases hb
    · by_cases hbt : b = t
      · rw [hbt, hself] at hb
        rw [hother a hat, halone hkind hb a hat] at ha
        cases ha
      · rw [hother a hat] at ha
        rw [hother b hbt] at hb
        exact h.alone hkind a b ha hb
  · intro hkind other hpast r hr
    change (Function.update world.calls t phase other).past = true at hpast
    by_cases hne : other = t
    · rw [hne, hself] at hpast
      exact hquiet hkind (Or.inl hpast) r hr
    · rw [hother other hne] at hpast
      exact hquiet hkind (Or.inr ⟨other, hne, hpast⟩) r hr

/-- The other calls of a call that holds no process still cover the live ones. -/
theorem NodeInv.covered_others (h : NodeInv world) {t : Nat} (hholds : (world.calls t).holds = none)
    {p : Nat} (hp : p ∈ world.live) :
    world.record = some p ∨ ∃ other, other ≠ t ∧ (world.calls other).holds = some p := by
  rcases h.covered p hp with hr | ⟨other, hother⟩
  · exact Or.inl hr
  · right
    refine ⟨other, ?_, hother⟩
    rintro rfl
    rw [hholds] at hother
    cases hother

/-- A step that changes the phase of one call only, and the mutex. -/
theorem NodeInv.goto_phase (h : NodeInv world) {t : Nat} {phase : CallPhase} {mutex : Option Nat}
    (hnames : ∀ r, phase.names = some r → r < world.next)
    (hholds : (world.calls t).holds = none ∨ phase.holds = (world.calls t).holds)
    (hdead : ∀ r, phase.buries = some r → r ∉ world.live)
    (hpast : phase.past = true → (world.calls t).past = true) :
    NodeInv ({ world with mutex := mutex }.goto t phase) := by
  refine h.goto t (Nat.le_refl _) (fun p hp => ⟨h.freshLive p hp, Or.inl hp⟩) h.freshRecord hnames
    h.single ?_ hdead ?_ ?_
  · intro p hp
    rcases hholds with hnone | hsame
    · rcases h.covered_others hnone hp with hr | hother
      · exact Or.inl hr
      · exact Or.inr (Or.inr hother)
    · rcases h.covered p hp with hr | ⟨other, hother⟩
      · exact Or.inl hr
      · by_cases hne : other = t
        · rw [hne, ← hsame] at hother
          exact Or.inr (Or.inl hother)
        · exact Or.inr (Or.inr ⟨other, hne, hother⟩)
  · intro hkind hp other hne
    cases hother : (world.calls other).past with
    | false => rfl
    | true => exact absurd (h.alone hkind other t hother (hpast hp)) hne
  · rintro hkind (hp | ⟨other, _, hother⟩)
    · exact h.quiet hkind t (hpast hp)
    · exact h.quiet hkind other hother

theorem past_of_holds {phase : CallPhase} {p : Nat} (h : phase.holds = some p) :
    phase.past = true := by
  cases phase <;> simp_all [CallPhase.holds, CallPhase.past]

/-- The publication of the process a start launched or found. -/
theorem NodeInv.publish (h : NodeInv world) {t p : Nat} (hholds : (world.calls t).holds = some p)
    (hok : ∀ q, world.record = some q → q = p ∨ q ∉ world.live) :
    NodeInv ({ world with record := some p }.goto t .idle) := by
  have hpast := past_of_holds hholds
  have hnamed : (world.calls t).names = some p := by
    cases hphase : world.calls t <;> simp_all [CallPhase.holds, CallPhase.names]
  refine h.goto t (Nat.le_refl _) (fun q hq => ⟨h.freshLive q hq, Or.inl hq⟩) ?_
    (fun r hr => by cases hr) h.single ?_ (fun r hr => by cases hr) (fun _ hp => by cases hp) ?_
  · intro r hr
    cases hr
    exact h.freshCalls t p hnamed
  · intro q hq
    by_cases hqp : q = p
    · exact Or.inl (congrArg some hqp.symm)
    · rcases h.covered q hq with hr | ⟨other, hother⟩
      · rcases hok q hr with he | hdead
        · exact absurd he hqp
        · exact absurd hq hdead
      · refine Or.inr (Or.inr ⟨other, ?_, hother⟩)
        rintro rfl
        rw [hholds] at hother
        exact hqp (Option.some.inj hother).symm
  · rintro hkind (hp | ⟨other, hne, hother⟩)
    · cases hp
    · exact absurd (h.alone hkind other t hother hpast) hne

/-- A deletion by key after the record that was read was found dead or killed. -/
theorem NodeInv.delete (h : NodeInv world) {t r : Nat} {phase : CallPhase} {mutex : Option Nat}
    (hburies : (world.calls t).buries = some r) (hok : world.DeletesOwn r)
    (hnames : phase.names = none) (hnext : phase.past = true → world.OnlyStart t) :
    NodeInv ({ world with record := none, mutex := mutex }.goto t phase) := by
  have hdead := h.dead t r hburies
  have hnone : (world.calls t).holds = none := by
    cases hphase : world.calls t <;> simp_all [CallPhase.buries, CallPhase.holds]
  refine h.goto t (Nat.le_refl _) (fun q hq => ⟨h.freshLive q hq, Or.inl hq⟩)
    (fun q hq => by cases hq) (fun q hq => by rw [hnames] at hq; cases hq) h.single ?_ ?_ ?_
    (fun _ _ q hq => by cases hq)
  · intro q hq
    rcases h.covered_others hnone hq with hr | hother
    · rcases hok q hr with he | hgone
      · exact absurd (he ▸ hq) hdead
      · exact absurd hq hgone
    · exact Or.inr (Or.inr hother)
  · intro q hq
    cases phase <;> simp_all [CallPhase.names, CallPhase.buries]
  · intro hkind hpast other hne
    exact hnext hpast hkind other hne

/-- The launch of a process where none lives. -/
theorem NodeInv.launch (h : NodeInv world) {t : Nat} {phase : CallPhase}
    (hpast : (world.calls t).past = true) (hlive : world.live = [])
    (hholds : phase.holds = some world.next) (hnames : phase.names = some world.next)
    (hburies : phase.buries = none) :
    NodeInv ({ world with live := world.next :: world.live, next := world.next + 1 }.goto t
      phase) := by
  refine h.goto t (Nat.le_succ _) ?_ ?_ ?_ ?_ ?_ ?_ ?_ ?_
  · intro p hp
    rw [hlive, List.mem_singleton] at hp
    omega
  · intro r hr
    have hlt := h.freshRecord r hr
    omega
  · intro r hr
    rw [hnames] at hr
    cases hr
    omega
  · rw [hlive]
    exact Nat.le_refl _
  · intro p hp
    rw [hlive, List.mem_singleton] at hp
    exact Or.inr (Or.inl (by rw [hholds, hp]))
  · intro r hr
    rw [hburies] at hr
    cases hr
  · intro hkind _ other hne
    cases hother : (world.calls other).past with
    | false => rfl
    | true => exact absurd (h.alone hkind other t hother hpast) hne
  · intro hkind _ r hr hm
    rw [hlive, List.mem_singleton] at hm
    have hlt := h.freshRecord r hr
    omega

/-- A QEMU or IOL start past its test finds nothing alive. -/
theorem NodeInv.nothing_live (h : NodeInv world) {t : Nat} (hkind : world.kind.byName = false)
    (hpast : (world.calls t).past = true) (hnone : (world.calls t).holds = none) :
    world.live = [] := by
  refine List.eq_nil_iff_forall_not_mem.mpr (fun p hp => ?_)
  rcases h.covered_others hnone hp with hr | ⟨other, hne, hother⟩
  · exact h.quiet hkind t hpast p hr hp
  · exact hne (h.alone hkind other t (past_of_holds hother) hpast)

/-- Processes that are gone. -/
theorem NodeInv.shrink (h : NodeInv world) {live : List Nat} (hsub : List.Sublist live world.live) :
    NodeInv { world with live := live } where
  freshLive p hp := h.freshLive p (hsub.subset hp)
  freshRecord := h.freshRecord
  freshCalls := h.freshCalls
  single := Nat.le_trans hsub.length_le h.single
  covered p hp := h.covered p (hsub.subset hp)
  dead t r hr hm := h.dead t r hr (hsub.subset hm)
  alone := h.alone
  quiet hkind t hpast r hr hm := h.quiet hkind t hpast r hr (hsub.subset hm)

theorem pastTest_names (kind : NodeKind) : kind.pastTest.names = none := by
  cases kind <;> rfl

/-- A start past its test: it found no record. -/
theorem NodeInv.pass (h : NodeInv world) {t : Nat} (hphase : world.calls t = .startRead)
    (hrecord : world.record = none) (hok : world.OnlyStart t) :
    NodeInv (world.goto t world.kind.pastTest) := by
  have hnone : (world.calls t).holds = none := by rw [hphase]; rfl
  refine h.goto t (Nat.le_refl _) (fun q hq => ⟨h.freshLive q hq, Or.inl hq⟩)
    h.freshRecord (fun q hq => by rw [pastTest_names] at hq; cases hq) h.single ?_ ?_ ?_ ?_
  · intro q hq
    rcases h.covered_others hnone hq with hr | hother
    · exact Or.inl hr
    · exact Or.inr (Or.inr hother)
  · intro r hr
    cases hkind : world.kind <;> rw [hkind] at hr <;> cases hr
  · intro hkind _ other hne
    exact hok hkind other hne
  · intro _ _ r hr
    rw [hrecord] at hr
    cases hr

theorem recordAlive_false {r : Nat} (h : world.recordAlive r = false) :
    r ∉ world.live := by
  unfold NodeWorld.recordAlive at h
  split at h
  next =>
    have hnil : world.live = [] := by simpa using h
    rw [hnil]
    exact List.not_mem_nil
  next =>
    intro hm
    rw [List.contains_iff_mem.mpr hm] at h
    cases h

theorem NodeWorld.without_sublist (world : NodeWorld) (p : Nat) :
    List.Sublist (world.without p) world.live := by
  unfold NodeWorld.without
  split
  next => exact List.nil_sublist _
  next => exact List.filter_sublist

theorem NodeWorld.notMem_without (world : NodeWorld) (p : Nat) : p ∉ world.without p := by
  unfold NodeWorld.without
  split
  next => exact List.not_mem_nil
  next => simp

theorem NodeInv.kill (h : NodeInv world) {t r : Nat} (hphase : world.calls t = .stopKill r) :
    NodeInv ({ world with live := world.without r }.goto t (.stopDelete r)) := by
  refine (h.shrink (world.without_sublist r)).goto_phase ?_ (Or.inl ?_) ?_ (fun hp => by cases hp)
  · intro q hq
    cases hq
    exact h.freshCalls t r (by rw [hphase]; rfl)
  · show (world.calls t).holds = none
    rw [hphase]
    rfl
  · intro q hq
    cases hq
    exact world.notMem_without r

/-- A start gives up the process that it launched, which is dead, or recorded by then. -/
theorem NodeInv.abandon (h : NodeInv world) {t p : Nat} {live : List Nat} {mutex : Option Nat}
    (hphase : world.calls t = .startFinish p) (hsub : List.Sublist live world.live)
    (hgone : p ∈ live → world.record = some p) :
    NodeInv ({ world with live := live, mutex := mutex }.goto t .idle) := by
  have hshrunk := h.shrink hsub
  refine hshrunk.goto t (Nat.le_refl _) (fun q hq => ⟨hshrunk.freshLive q hq, Or.inl hq⟩)
    hshrunk.freshRecord (fun q hq => by cases hq) hshrunk.single ?_ (fun q hq => by cases hq)
    (fun _ hp => by cases hp) ?_
  · intro q hq
    rcases hshrunk.covered q hq with hr | ⟨other, hother⟩
    · exact Or.inl hr
    · by_cases hne : other = t
      · have hheld : (world.calls t).holds = some q := hne ▸ hother
        rw [hphase] at hheld
        obtain rfl : p = q := Option.some.inj hheld
        exact Or.inl (hgone hq)
      · exact Or.inr (Or.inr ⟨other, hne, hother⟩)
  · rintro hkind (hp | ⟨other, _, hother⟩)
    · cases hp
    · exact hshrunk.quiet hkind other hother

end NovaVe
