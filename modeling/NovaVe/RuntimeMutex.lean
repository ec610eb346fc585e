import Mathlib.Logic.Function.Basic
import Mathlib.Tactic.Common

namespace NovaVe

/-- `acquire_sync` or `acquire`. -/
inductive AcquireMode
  | sync
  | async
deriving DecidableEq, Repr

/-- Where a caller of the mutex stands. A slow asynchronous acquire waits for an executor thread, then
that thread waits for the lock, then the caller waits to be resumed; the thread goes on when its
caller is cancelled. -/
inductive AcquirePhase
  | idle
  | queued
  | waiting
  | granted
  | refused
  | inside
  | abandoned
  | finished
deriving DecidableEq, Repr

/-- The lock of one `(lab, node, interface)` and its callers. -/
structure MutexState where
  held : Bool := false
  phase : Nat → AcquirePhase := fun _ => .idle

inductive MutexAction
  | enter (caller : Nat)
  | startThread (caller : Nat)
  | grant (caller : Nat)
  | expire (caller : Nat)
  | resume (caller : Nat)
  | leave (caller : Nat)
  | cancel (caller : Nat)
deriving DecidableEq, Repr

def MutexState.goto (s : MutexState) (held : Bool) (caller : Nat) (phase : AcquirePhase) :
    MutexState :=
  { held := held, phase := Function.update s.phase caller phase }

/-- One step of a caller, of its executor thread or of a cancellation. -/
def MutexState.step (mode : Nat → AcquireMode) (s : MutexState) : MutexAction → MutexState
  | .enter c =>
    if s.phase c = .idle then
      match mode c with
      | .sync => s.goto s.held c .waiting
      -- the fast path, without an executor
      | .async => if s.held then s.goto true c .queued else s.goto true c .inside
    else s
  | .startThread c => if s.phase c = .queued then s.goto s.held c .waiting else s
  | .grant c =>
    if s.held then s
    else
      match s.phase c with
      | .waiting => s.goto true c (if mode c = .sync then .inside else .granted)
      | .abandoned => s.goto true c .finished
      | _ => s
  | .expire c =>
    match s.phase c with
    | .waiting => s.goto s.held c (if mode c = .sync then .finished else .refused)
    | .abandoned => s.goto s.held c .finished
    | _ => s
  | .resume c =>
    match s.phase c with
    | .granted => s.goto s.held c .inside
    | .refused => s.goto s.held c .finished
    | _ => s
  | .leave c => if s.phase c = .inside then s.goto false c .finished else s
  | .cancel c =>
    if mode c = .sync then s
    else
      match s.phase c with
      -- a job that no thread has taken up yet is cancelled with its caller
      | .queued | .refused => s.goto s.held c .finished
      | .waiting => s.goto s.held c .abandoned
      | .granted => s.goto s.held c .finished
      | .inside => s.goto false c .finished
      | _ => s

def mutexRun (mode : Nat → AcquireMode) (actions : List MutexAction) : MutexState :=
  actions.foldl (MutexState.step mode) {}

/-- The critical section of a caller begins when the lock is taken for it. -/
def AcquirePhase.holds (phase : AcquirePhase) : Prop := phase = .inside ∨ phase = .granted

/-- At most one caller holds the mutex, and the lock is held exactly when one does. -/
structure MutexState.Balanced (s : MutexState) : Prop where
  exclusive : ∀ c d, (s.phase c).holds → (s.phase d).holds → c = d
  held_iff : s.held = true ↔ ∃ c, (s.phase c).holds

/-- No thread gets the lock for a caller that was cancelled, and no caller is cancelled between the
moment its thread got the lock and its resumption. -/
def MutexState.StepOk (s : MutexState) : MutexAction → Prop
  | .grant c => s.phase c = .abandoned → s.held = true
  | .cancel c => s.phase c ≠ .granted
  | _ => True

@[simp] theorem MutexState.goto_held (s : MutexState) (held : Bool) (c : Nat) (phase : AcquirePhase) :
    (s.goto held c phase).held = held := rfl

theorem MutexState.goto_phase (s : MutexState) (held : Bool) (c d : Nat) (phase : AcquirePhase) :
    (s.goto held c phase).phase d = if d = c then phase else s.phase d :=
  Function.update_apply s.phase c phase d

theorem balanced_start : MutexState.Balanced {} where
  exclusive c d hc _ := by rcases hc with h | h <;> cases h
  held_iff := by
    constructor
    · intro h
      cases h
    · rintro ⟨c, h | h⟩ <;> cases h

/-- A step by which a caller neither comes to hold the mutex nor ceases to. -/
theorem MutexState.Balanced.goto_same {s : MutexState} (h : s.Balanced) {c : Nat}
    {phase : AcquirePhase} (hsame : phase.holds ↔ (s.phase c).holds) :
    (s.goto s.held c phase).Balanced := by
  have hholds : ∀ d, ((s.goto s.held c phase).phase d).holds ↔ (s.phase d).holds := by
    intro d
    rw [MutexState.goto_phase]
    split
    next hd =>
      subst hd
      exact hsame
    next => exact Iff.rfl
  refine ⟨fun d e hd he => h.exclusive d e ((hholds d).mp hd) ((hholds e).mp he), ?_⟩
  rw [MutexState.goto_held, h.held_iff]
  exact exists_congr (fun d => (hholds d).symm)

theorem MutexState.Balanced.none_holds {s : MutexState} (h : s.Balanced) (hfree : s.held = false)
    (c : Nat) : ¬ (s.phase c).holds := by
  intro hc
  have hheld := h.held_iff.mpr ⟨c, hc⟩
  rw [hfree] at hheld
  cases hheld

/-- The lock is taken for a caller while it is free. -/
theorem MutexState.Balanced.take {s : MutexState} (h : s.Balanced) (hfree : s.held = false) {c : Nat}
    {phase : AcquirePhase} (hphase : phase.holds) : (s.goto true c phase).Balanced := by
  have honly : ∀ d, ((s.goto true c phase).phase d).holds → d = c := by
    intro d hd
    by_contra hne
    rw [MutexState.goto_phase, if_neg hne] at hd
    exact h.none_holds hfree d hd
  refine ⟨fun d e hd he => (honly d hd).trans (honly e he).symm, iff_of_true rfl ⟨c, ?_⟩⟩
  rw [MutexState.goto_phase, if_pos rfl]
  exact hphase

/-- The one that holds the mutex gives it back. -/
theorem MutexState.Balanced.release {s : MutexState} (h : s.Balanced) {c : Nat}
    (hc : (s.phase c).holds) {phase : AcquirePhase} (hphase : ¬ phase.holds) :
    (s.goto false c phase).Balanced := by
  have hnone : ∀ d, ¬ ((s.goto false c phase).phase d).holds := by
    intro d hd
    rw [MutexState.goto_phase] at hd
    split at hd
    next => exact hphase hd
    next hne => exact hne (h.exclusive d c hd hc)
  refine ⟨fun d _ hd _ => absurd hd (hnone d), ?_⟩
  constructor
  · intro hheld
    cases hheld
  · rintro ⟨d, hd⟩
    exact absurd hd (hnone d)

theorem holds_inside : AcquirePhase.inside.holds := Or.inl rfl

theorem holds_granted : AcquirePhase.granted.holds := Or.inr rfl

theorem not_holds {phase : AcquirePhase} (hinside : phase ≠ .inside) (hgranted : phase ≠ .granted) :
    ¬ phase.holds := fun h => h.elim hinside hgranted

theorem MutexState.Balanced.step {s : MutexState} (h : s.Balanced) (mode : Nat → AcquireMode)
    {a : MutexAction} (hok : s.StepOk a) : (s.step mode a).Balanced := by
  have hidle : ∀ {c : Nat} {before after : AcquirePhase}, s.phase c = before →
      before ≠ .inside → before ≠ .granted → after ≠ .inside → after ≠ .granted →
      (s.goto s.held c after).Balanced := by
    intro c before after hphase hb hb' ha ha'
    subst hphase
    exact h.goto_same (iff_of_false (not_holds ha ha') (not_holds hb hb'))
  cases a with
  | enter c =>
    simp only [MutexState.step]
    split
    next hphase =>
      split
      next => exact hidle hphase (by simp) (by simp) (by simp) (by simp)
      next =>
        split
        next hheld =>
          rw [← hheld]
          exact hidle hphase (by simp) (by simp) (by simp) (by simp)
        next hfree => exact h.take (by simpa using hfree) holds_inside
    next => exact h
  | startThread c =>
    simp only [MutexState.step]
    split
    next hphase => exact hidle hphase (by simp) (by simp) (by simp) (by simp)
    next => exact h
  | grant c =>
    simp only [MutexState.step]
    split
    next => exact h
    next hfree =>
      have hfalse : s.held = false := by simpa using hfree
      split
      next =>
        split
        next => exact h.take hfalse holds_inside
        next => exact h.take hfalse holds_granted
      next habandoned => exact absurd (hok habandoned) hfree
      next => exact h
  | expire c =>
    simp only [MutexState.step]
    split
    next hphase =>
      split
      next => exact hidle hphase (by simp) (by simp) (by simp) (by simp)
      next => exact hidle hphase (by simp) (by simp) (by simp) (by simp)
    next hphase => exact hidle hphase (by simp) (by simp) (by simp) (by simp)
    next => exact h
  | resume c =>
    simp only [MutexState.step]
    split
    next hphase =>
      refine h.goto_same (iff_of_true holds_inside ?_)
      rw [hphase]
      exact holds_granted
    next hphase => exact hidle hphase (by simp) (by simp) (by simp) (by simp)
    next => exact h
  | leave c =>
    simp only [MutexState.step]
    split
    next hphase =>
      refine h.release (c := c) ?_ (not_holds (by simp) (by simp))
      rw [hphase]
      exact holds_inside
    next => exact h
  | cancel c =>
    simp only [MutexState.step]
    split
    next => exact h
    next =>
      split
      next hphase => exact hidle hphase (by simp) (by simp) (by simp) (by simp)
      next hphase => exact hidle hphase (by simp) (by simp) (by simp) (by simp)
      next hphase => exact hidle hphase (by simp) (by simp) (by simp) (by simp)
      next hgranted => exact absurd hgranted hok
      next hphase =>
        refine h.release (c := c) ?_ (not_holds (by simp) (by simp))
        rw [hphase]
        exact holds_inside
      next => exact h

/-- A lock that is taken while no caller holds it is never given back. -/
theorem not_balanced_of_unowned {s : MutexState} {c : Nat} {phase : AcquirePhase}
    (honly : ∀ d, (s.phase d).holds → d = c) (hphase : ¬ phase.holds) :
    ¬ (s.goto true c phase).Balanced := by
  intro hafter
  obtain ⟨d, hd⟩ := hafter.held_iff.mp rfl
  rw [MutexState.goto_phase] at hd
  split at hd
  next => exact hphase hd
  next hne => exact hne (honly d hd)

/-- The other steps lose the lock at once. -/
theorem MutexState.Balanced.step_lost {s : MutexState} (h : s.Balanced) (mode : Nat → AcquireMode)
    {a : MutexAction} (hok : ¬ s.StepOk a) (hmode : ∀ c, s.phase c = .granted → mode c = .async) :
    ¬ (s.step mode a).Balanced := by
  cases a with
  | grant c =>
    obtain ⟨habandoned, hfree⟩ := Classical.not_imp.mp hok
    have hfalse : s.held = false := by simpa using hfree
    simp only [MutexState.step, hfalse, habandoned, Bool.false_eq_true, if_false]
    exact not_balanced_of_unowned (fun d hd => absurd hd (h.none_holds hfalse d))
      (not_holds (by simp) (by simp))
  | cancel c =>
    have hgranted : s.phase c = .granted := not_not.mp hok
    have hholds : (s.phase c).holds := by
      rw [hgranted]
      exact holds_granted
    have hheld : s.held = true := h.held_iff.mpr ⟨c, hholds⟩
    simp only [MutexState.step, hmode c hgranted, hgranted, reduceCtorEq, if_false, hheld]
    exact not_balanced_of_unowned (fun d hd => h.exclusive d c hd hholds)
      (not_holds (by simp) (by simp))
  | enter | startThread | expire | resume | leave => exact absurd trivial hok

/-- Only an asynchronous caller waits to be resumed. -/
theorem granted_async (mode : Nat → AcquireMode) (actions : List MutexAction) (c : Nat)
    (h : (mutexRun mode actions).phase c = .granted) : mode c = .async := by
  have hstep : ∀ (s : MutexState) (a : MutexAction),
      (∀ d, s.phase d = .granted → mode d = .async) →
      ∀ d, (s.step mode a).phase d = .granted → mode d = .async := by
    intro s a hs d hd
    have hgoto : ∀ {held : Bool} {e : Nat} {phase : AcquirePhase},
        (phase = .granted → mode e = .async) →
        (s.goto held e phase).phase d = .granted → mode d = .async := by
      intro held e phase hphase hgoto
      rw [MutexState.goto_phase] at hgoto
      split at hgoto
      next he =>
        subst he
        exact hphase hgoto
      next => exact hs d hgoto
    cases a with
    | grant e =>
      simp only [MutexState.step] at hd
      split at hd
      next => exact hs d hd
      next =>
        split at hd
        next =>
          refine hgoto (fun hphase => ?_) hd
          split at hphase
          next => cases hphase
          next hasync =>
            cases hm : mode e with
            | sync => exact absurd hm hasync
            | async => rfl
        next => exact hgoto (fun hphase => by cases hphase) hd
        next => exact hs d hd
    | enter e | startThread e | expire e | resume e | leave e | cancel e =>
      simp only [MutexState.step] at hd
      repeat' split at hd
      all_goals first
        | exact hs d hd
        | exact hgoto (fun hphase => by cases hphase) hd
  have hall : ∀ d, (mutexRun mode actions).phase d = .granted → mode d = .async := by
    unfold mutexRun
    refine List.foldlRecOn actions (MutexState.step mode)
      (motive := fun s => ∀ d, s.phase d = .granted → mode d = .async) ?_ ?_
    · intro d hd
      cases hd
    · exact fun s hs a _ => hstep s a hs
  exact hall c h

/-- The mutex is balanced all along a run exactly when every step of the run is of the good kind. -/
theorem mutex_balanced_iff (mode : Nat → AcquireMode) (actions : List MutexAction) :
    (∀ n, (mutexRun mode (actions.take n)).Balanced) ↔
      ∀ n a, actions[n]? = some a → (mutexRun mode (actions.take n)).StepOk a := by
  have hnext : ∀ n a, actions[n]? = some a →
      mutexRun mode (actions.take (n + 1)) = (mutexRun mode (actions.take n)).step mode a := by
    intro n a ha
    unfold mutexRun
    rw [List.take_add_one, ha, List.foldl_append]
    rfl
  constructor
  · intro hall n a ha
    by_contra hok
    have hlost := (hall n).step_lost mode hok (granted_async mode _)
    rw [← hnext n a ha] at hlost
    exact hlost (hall (n + 1))
  · intro hok n
    induction n with
    | zero => exact balanced_start
    | succ n ih =>
      cases ha : actions[n]? with
      | none =>
        rw [List.take_add_one, ha]
        simpa using ih
      | some a =>
        rw [hnext n a ha]
        exact ih.step mode (hok n a ha)

/-- A caller is cancelled while its thread waits; the thread gets the lock when it is given back. -/
def cancelledWait : List MutexAction :=
  [.enter 0, .grant 0, .enter 1, .startThread 1, .cancel 1, .leave 0, .grant 1]

theorem cancelled_wait_keeps_lock :
    ¬ ∀ (mode : Nat → AcquireMode) (actions : List MutexAction) (n : Nat),
      (mutexRun mode (actions.take n)).Balanced := by
  intro h
  have hlast := h (fun c => if c = 0 then .sync else .async) cancelledWait 7
  obtain ⟨c, hc⟩ := hlast.held_iff.mp (by decide)
  have hnobody : ∀ c, (mutexRun (fun c => if c = 0 then .sync else .async)
      (cancelledWait.take 7)).phase c = .finished ∨
      (mutexRun (fun c => if c = 0 then .sync else .async)
        (cancelledWait.take 7)).phase c = .idle := by
    intro c
    by_cases h0 : c = 0
    · subst h0
      exact Or.inl (by decide)
    · by_cases h1 : c = 1
      · subst h1
        exact Or.inl (by decide)
      · right
        simp [mutexRun, cancelledWait, MutexState.step, MutexState.goto, Function.update, h0, h1]
  rcases hnobody c with hphase | hphase
  · rw [hphase] at hc
    rcases hc with hc | hc <;> cases hc
  · rw [hphase] at hc
    rcases hc with hc | hc <;> cases hc

end NovaVe
