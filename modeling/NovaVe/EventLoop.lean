import Mathlib.Data.Fintype.EquivFin
import Mathlib.Data.List.Basic
import Mathlib.Logic.Relation
import NovaVe.Runs

namespace NovaVe

/-- How a task waits for a lock: the thread blocks, or the task awaits a helper thread. -/
inductive Wait
  | blocking
  | awaiting
  deriving DecidableEq

/-- What a request does with locks: `with` blocks, awaits that may give up the event loop, and
`try`/`except`. -/
inductive LockProg (L : Type)
  | skip
  | pause
  | raise
  | hold (wait : Wait) (lock : L) (body : LockProg L)
  | seq (first second : LockProg L)
  | attempt (body handler : LockProg L)

inductive LockFrame (L : Type)
  | andThen (code : LockProg L)
  | releases (lock : L)
  | catches (handler : LockProg L)

variable {L : Type} {frames : List (LockFrame L)}

def heldLocks {L : Type} : List (LockFrame L) → List L
  | [] => []
  | .andThen _ :: rest => heldLocks rest
  | .releases lock :: rest => lock :: heldLocks rest
  | .catches _ :: rest => heldLocks rest

def LockProg.locks {L : Type} : LockProg L → List L
  | .skip => []
  | .pause => []
  | .raise => []
  | .hold _ lock body => lock :: body.locks
  | .seq first second => first.locks ++ second.locks
  | .attempt body handler => body.locks ++ handler.locks

/-- The locks that code still asks for. -/
def pendingLocks {L : Type} (code : LockProg L) : List (LockFrame L) → List L
  | [] => code.locks
  | .andThen next :: rest => next.locks ++ pendingLocks code rest
  | .releases _ :: rest => pendingLocks code rest
  | .catches handler :: rest => handler.locks ++ pendingLocks code rest

/-- One step that takes no lock: an exception leaves the `with` blocks up to the next handler. -/
inductive Advance {L : Type} :
    LockProg L → List (LockFrame L) → LockProg L → List (LockFrame L) → Prop
  | next {code : LockProg L} {rest : List (LockFrame L)} :
      Advance .skip (.andThen code :: rest) code rest
  | leave {lock : L} {rest : List (LockFrame L)} : Advance .skip (.releases lock :: rest) .skip rest
  | endTry {handler : LockProg L} {rest : List (LockFrame L)} :
      Advance .skip (.catches handler :: rest) .skip rest
  | abandon {code : LockProg L} {rest : List (LockFrame L)} :
      Advance .raise (.andThen code :: rest) .raise rest
  | unwind {lock : L} {rest : List (LockFrame L)} :
      Advance .raise (.releases lock :: rest) .raise rest
  | handle {handler : LockProg L} {rest : List (LockFrame L)} :
      Advance .raise (.catches handler :: rest) handler rest
  | uncaught : Advance .raise [] .skip []
  | seq {first second : LockProg L} {rest : List (LockFrame L)} :
      Advance (.seq first second) rest first (.andThen second :: rest)
  | attempt {body handler : LockProg L} {rest : List (LockFrame L)} :
      Advance (.attempt body handler) rest body (.catches handler :: rest)

/-- What code may do while it holds given locks: which lock it may ask for, and how, and whether
it may pause. -/
structure LockRules (L : Type) where
  asks : List L → Wait → L → Prop
  pauses : List L → Prop

def LockProg.Follows {L : Type} (rules : LockRules L) : LockProg L → List L → Prop
  | .skip, _ => True
  | .pause, held => rules.pauses held
  | .raise, _ => True
  | .hold wait lock body, held => rules.asks held wait lock ∧ body.Follows rules (lock :: held)
  | .seq first second, held => first.Follows rules held ∧ second.Follows rules held
  | .attempt body handler, held => body.Follows rules held ∧ handler.Follows rules held

def FramesFollow {L : Type} (rules : LockRules L) : List (LockFrame L) → Prop
  | [] => True
  | .andThen code :: rest => code.Follows rules (heldLocks rest) ∧ FramesFollow rules rest
  | .releases _ :: rest => FramesFollow rules rest
  | .catches handler :: rest => handler.Follows rules (heldLocks rest) ∧ FramesFollow rules rest

/-- Code in its frames keeps to the rules. -/
structure Disciplined {L : Type} (rules : LockRules L) (code : LockProg L)
    (frames : List (LockFrame L)) : Prop where
  code : code.Follows rules (heldLocks frames)
  frames : FramesFollow rules frames

theorem Disciplined.start {rules : LockRules L} {code : LockProg L} (h : code.Follows rules []) :
    Disciplined rules code [] :=
  ⟨h, trivial⟩

theorem Disciplined.raise {rules : LockRules L} {code : LockProg L}
    (h : Disciplined rules code frames) :
    Disciplined rules .raise frames :=
  ⟨trivial, h.frames⟩

theorem Disciplined.skip {rules : LockRules L} {code : LockProg L}
    (h : Disciplined rules code frames) :
    Disciplined rules .skip frames :=
  ⟨trivial, h.frames⟩

theorem Disciplined.take {rules : LockRules L} {wait : Wait} {lock : L} {body : LockProg L}
    (h : Disciplined rules (.hold wait lock body) frames) :
    Disciplined rules body (.releases lock :: frames) :=
  ⟨h.code.2, h.frames⟩

theorem Disciplined.advance {rules : LockRules L} {code code' : LockProg L}
    {frames frames' : List (LockFrame L)} (h : Disciplined rules code frames)
    (hstep : Advance code frames code' frames') : Disciplined rules code' frames' := by
  obtain ⟨hcode, hframes⟩ := h
  cases hstep with
  | next => exact ⟨hframes.1, hframes.2⟩
  | leave => exact ⟨trivial, hframes⟩
  | endTry => exact ⟨trivial, hframes.2⟩
  | abandon => exact ⟨trivial, hframes.2⟩
  | unwind => exact ⟨trivial, hframes⟩
  | handle => exact ⟨hframes.1, hframes.2⟩
  | uncaught => exact ⟨trivial, trivial⟩
  | seq => exact ⟨hcode.1, hcode.2, hframes⟩
  | attempt => exact ⟨hcode.1, hcode.2, hframes⟩

theorem mem_pendingLocks {code : LockProg L} {lock : L} :
    lock ∈ pendingLocks code frames ↔ lock ∈ code.locks ∨ lock ∈ pendingLocks .skip frames := by
  induction frames with
  | nil => simp [pendingLocks, LockProg.locks]
  | cons frame rest ih =>
    cases frame with
    | andThen next =>
      simp only [pendingLocks, List.mem_append, ih]
      exact ⟨fun h => h.elim (fun h => Or.inr (Or.inl h)) (fun h => h.imp id Or.inr),
        fun h => h.elim (fun h => Or.inr (Or.inl h)) (fun h => h.imp id Or.inr)⟩
    | releases held => simpa only [pendingLocks] using ih
    | catches handler =>
      simp only [pendingLocks, List.mem_append, ih]
      exact ⟨fun h => h.elim (fun h => Or.inr (Or.inl h)) (fun h => h.imp id Or.inr),
        fun h => h.elim (fun h => Or.inr (Or.inl h)) (fun h => h.imp id Or.inr)⟩

theorem Advance.pending {code code' : LockProg L} {frames frames' : List (LockFrame L)}
    (hstep : Advance code frames code' frames') :
    pendingLocks code' frames' ⊆ pendingLocks code frames := by
  intro lock h
  rw [mem_pendingLocks] at h ⊢
  cases hstep with
  | next => exact Or.inr (List.mem_append.mpr h)
  | leave => exact h
  | endTry => exact Or.inr (List.mem_append.mpr (h.imp (fun h => absurd h List.not_mem_nil) id))
  | abandon => exact h.imp id (fun h => List.mem_append.mpr (Or.inr h))
  | unwind => exact h
  | handle => exact Or.inr (List.mem_append.mpr h)
  | uncaught => exact h
  | seq =>
    rcases h with h | h
    · exact Or.inl (List.mem_append.mpr (Or.inl h))
    · exact (List.mem_append.mp h).imp (fun h => List.mem_append.mpr (Or.inr h)) id
  | attempt =>
    rcases h with h | h
    · exact Or.inl (List.mem_append.mpr (Or.inl h))
    · exact (List.mem_append.mp h).imp (fun h => List.mem_append.mpr (Or.inr h)) id

theorem pendingLocks_take {wait : Wait} {lock : L} {body : LockProg L} :
    pendingLocks body (.releases lock :: frames) ⊆ pendingLocks (.hold wait lock body) frames := by
  intro other h
  rw [mem_pendingLocks] at h ⊢
  exact h.imp (fun h => List.mem_cons_of_mem _ h) id

theorem pendingLocks_of_no_locks {code code' : LockProg L} (h : code'.locks = []) :
    pendingLocks code' frames ⊆ pendingLocks code frames := by
  intro lock hl
  rw [mem_pendingLocks] at hl ⊢
  rw [h] at hl
  exact Or.inr (hl.elim (fun hl => absurd hl List.not_mem_nil) id)

/-- The thread of the event loop, or a worker thread of the task's own. -/
inductive RunsOn
  | loop
  | worker
  deriving DecidableEq

structure LoopTask (L : Type) where
  runsOn : RunsOn
  code : LockProg L
  frames : List (LockFrame L) := []

/-- One event loop with its tasks, and the task that has the loop. -/
structure LoopState (L : Type) where
  tasks : List (LoopTask L) := []
  running : Option Nat := none

/-- A `mutex` is awaited, a `file` lock blocks the thread and may be kept across awaits, a `brief`
lock blocks the thread and is released before the next await. -/
inductive LockKind
  | mutex
  | file
  | brief
  deriving DecidableEq

structure LockKinds (L R : Type) where
  kind : L → LockKind
  reentrant : L → Prop
  rank : L → R

def LoopState.put {L : Type} (s : LoopState L) (i : Nat) (t : LoopTask L) : LoopState L :=
  { s with tasks := s.tasks.set i t }

/-- Task `j` keeps task `i` from a lock; a reentrant lock is the thread's, not the task's. -/
def LoopState.Blocks {L R : Type} (kinds : LockKinds L R) (s : LoopState L) (i : Nat) (lock : L)
    (j : Nat) : Prop :=
  ∃ t u, s.tasks[i]? = some t ∧ s.tasks[j]? = some u ∧ lock ∈ heldLocks u.frames ∧
    ¬ (kinds.reentrant lock ∧ (i = j ∨ t.runsOn = .loop ∧ u.runsOn = .loop))

/-- The task can run now: a task of the loop needs the loop. -/
def LoopState.Active {L : Type} (s : LoopState L) (i : Nat) (t : LoopTask L) : Prop :=
  s.tasks[i]? = some t ∧ (t.runsOn = .loop → s.running = some i)

inductive LoopAct (ρ : Type)
  | arrive (request : ρ)
  | enter (i : Nat)
  | advance (i : Nat)
  | take (i : Nat)
  | grant (i : Nat)
  | proceed (i : Nat)
  | yield (i : Nat)
  | wait (i : Nat)
  | fail (i : Nat)
  | finish (i : Nat)

inductive LoopStep {L R ρ : Type} (kinds : LockKinds L R) (program : ρ → RunsOn × LockProg L) :
    LoopState L → LoopAct ρ → LoopState L → Prop
  | arrive {s : LoopState L} (request : ρ) :
      LoopStep kinds program s (.arrive request)
        { s with tasks := s.tasks ++ [⟨(program request).1, (program request).2, []⟩] }
  | enter {s : LoopState L} {i : Nat} {t : LoopTask L} (hi : s.tasks[i]? = some t)
      (hloop : t.runsOn = .loop) (hfree : s.running = none) :
      LoopStep kinds program s (.enter i) { s with running := some i }
  | advance {s : LoopState L} {i : Nat} {t : LoopTask L} {code : LockProg L}
      {frames : List (LockFrame L)} (hi : s.Active i t)
      (hstep : Advance t.code t.frames code frames) :
      LoopStep kinds program s (.advance i) (s.put i ⟨t.runsOn, code, frames⟩)
  | take {s : LoopState L} {i : Nat} {t : LoopTask L} {wait : Wait} {lock : L} {body : LockProg L}
      (hi : s.Active i t) (hcode : t.code = .hold wait lock body)
      (hfree : ∀ j, ¬ s.Blocks kinds i lock j) :
      LoopStep kinds program s (.take i) (s.put i ⟨t.runsOn, body, .releases lock :: t.frames⟩)
  /-- The helper thread got the lock that a task awaits. -/
  | grant {s : LoopState L} {i : Nat} {t : LoopTask L} {lock : L} {body : LockProg L}
      (hi : s.tasks[i]? = some t) (hout : s.running ≠ some i)
      (hcode : t.code = .hold .awaiting lock body) (hfree : ∀ j, ¬ s.Blocks kinds i lock j) :
      LoopStep kinds program s (.grant i) (s.put i ⟨t.runsOn, body, .releases lock :: t.frames⟩)
  | proceed {s : LoopState L} {i : Nat} {t : LoopTask L} (hi : s.Active i t)
      (hcode : t.code = .pause) :
      LoopStep kinds program s (.proceed i) (s.put i ⟨t.runsOn, .skip, t.frames⟩)
  /-- An await that gives up the loop. -/
  | yield {s : LoopState L} {i : Nat} {t : LoopTask L} (hi : s.tasks[i]? = some t)
      (hrun : s.running = some i) (hcode : t.code = .pause) :
      LoopStep kinds program s (.yield i)
        { s.put i ⟨t.runsOn, .skip, t.frames⟩ with running := none }
  /-- An awaited lock that is taken gives up the loop. -/
  | wait {s : LoopState L} {i j : Nat} {t : LoopTask L} {lock : L} {body : LockProg L}
      (hi : s.tasks[i]? = some t) (hrun : s.running = some i)
      (hcode : t.code = .hold .awaiting lock body) (hblocked : s.Blocks kinds i lock j) :
      LoopStep kinds program s (.wait i) { s with running := none }
  /-- An exception: a wait that timed out, or any other error. -/
  | fail {s : LoopState L} {i : Nat} {t : LoopTask L} (hi : s.tasks[i]? = some t) :
      LoopStep kinds program s (.fail i) (s.put i ⟨t.runsOn, .raise, t.frames⟩)
  | finish {s : LoopState L} {i : Nat} {t : LoopTask L} (hi : s.tasks[i]? = some t)
      (hrun : s.running = some i) (hcode : t.code = .skip) (hframes : t.frames = []) :
      LoopStep kinds program s (.finish i) { s with running := none }

/-- Task `i` waits for a lock: its thread blocks, or it has given up the loop. -/
def LoopState.Waits {L : Type} (s : LoopState L) (i : Nat) (wait : Wait) (lock : L) : Prop :=
  ∃ t body, s.tasks[i]? = some t ∧ t.code = .hold wait lock body ∧
    match wait with
    | .blocking => t.runsOn = .loop → s.running = some i
    | .awaiting => s.running ≠ some i

/-- The wait-for graph. -/
def LoopState.WaitsFor {L R : Type} (kinds : LockKinds L R) (s : LoopState L) (i j : Nat) : Prop :=
  ∃ wait lock, s.Waits i wait lock ∧ s.Blocks kinds i lock j

/-- Nobody waits in a circle, the loop is never blocked on a file lock of a task that waits for the
loop, and behind everybody who waits there is a task that does not. -/
structure LoopState.NoStall {L R : Type} (kinds : LockKinds L R) (s : LoopState L) : Prop where
  acyclic : ∀ i, ¬ Relation.TransGen (s.WaitsFor kinds) i i
  unblocked : ∀ i j lock t, s.Waits i .blocking lock → s.running = some i →
    kinds.kind lock = .file → s.tasks[j]? = some t → t.runsOn = .loop → s.running ≠ some j →
      lock ∉ heldLocks t.frames
  moves : ∀ i j, s.WaitsFor kinds i j →
    ∃ k, Relation.ReflTransGen (s.WaitsFor kinds) j k ∧ ∀ m, ¬ s.WaitsFor kinds k m

/-- On the loop: mutexes in increasing order and never under a brief lock; no lock a second time,
unless it is reentrant. -/
def loopRules {L R : Type} [LT R] (kinds : LockKinds L R) : LockRules L where
  asks := fun held wait lock =>
    match wait with
    | .awaiting => kinds.kind lock = .mutex ∧
        ∀ other ∈ held, kinds.kind other ≠ .brief ∧
          (kinds.kind other = .mutex → kinds.rank other < kinds.rank lock)
    | .blocking => kinds.kind lock ≠ .mutex ∧ (lock ∈ held → kinds.reentrant lock)
  pauses := fun held => ∀ lock ∈ held, kinds.kind lock ≠ .brief

/-- On a worker thread: one brief lock at a time. -/
def workerRules {L R : Type} (kinds : LockKinds L R) : LockRules L where
  asks := fun held wait lock => held = [] ∧ wait = .blocking ∧ kinds.kind lock = .brief
  pauses := fun _ => True

def rulesOn {L R : Type} [LT R] (kinds : LockKinds L R) : RunsOn → LockRules L
  | .loop => loopRules kinds
  | .worker => workerRules kinds

/-- No other task of the loop still asks for a file lock that task `i` holds. -/
def LoopState.FilesApart {L R : Type} (kinds : LockKinds L R) (s : LoopState L) (i : Nat) : Prop :=
  ∀ t, s.tasks[i]? = some t → ∀ lock ∈ heldLocks t.frames, kinds.kind lock = .file →
    ∀ j u, j ≠ i → s.tasks[j]? = some u → u.runsOn = .loop → lock ∉ pendingLocks u.code u.frames

/-- The task of the loop that is not on it. -/
def LoopState.Suspended {L : Type} (s : LoopState L) (i : Nat) (t : LoopTask L) : Prop :=
  s.tasks[i]? = some t ∧ t.runsOn = .loop ∧ s.running ≠ some i

/-- A task gives up the loop under a file lock only while no other task of the loop still asks for
that lock, and none arrives meanwhile. -/
def Considerate {L R ρ : Type} (kinds : LockKinds L R) (program : ρ → RunsOn × LockProg L)
    (s : LoopState L) : LoopAct ρ → Prop
  | .arrive request => (program request).1 = .loop → ∀ i t, s.Suspended i t →
      ∀ lock ∈ heldLocks t.frames, kinds.kind lock = .file → lock ∉ (program request).2.locks
  | .yield i => s.FilesApart kinds i
  | .wait i => s.FilesApart kinds i
  | _ => True

end NovaVe
