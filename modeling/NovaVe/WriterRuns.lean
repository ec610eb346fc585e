import Mathlib.Data.List.Nodup
import NovaVe.Runs
import NovaVe.Writers

namespace NovaVe

/-- A task of a cooperative scheduler: it is suspended some times before and after the one block
that touches the shared state, and may raise once it has left that block. -/
structure Task (ω : Type) where
  op : ω
  before : Nat := 0
  after : Nat := 0
  raisesAfter : Bool := false

inductive Stage
  | before (left : Nat)
  | after (left : Nat) (ok : Bool)
  | done (ok : Bool)
deriving DecidableEq

structure Sched (σ : Type) where
  shared : σ
  stages : List Stage

def taskStep {σ ω : Type} (perform : ω → σ → σ × Bool) (task : Task ω) (shared : σ) :
    Stage → Option (σ × Stage)
  | .before (left + 1) => some (shared, .before left)
  | .before 0 =>
    let result := perform task.op shared
    some (result.1, .after task.after (result.2 && !task.raisesAfter))
  | .after (left + 1) ok => some (shared, .after left ok)
  | .after 0 ok => some (shared, .done ok)
  | .done _ => none

/-- The scheduler resumes one task, which runs to its next suspension. -/
def schedStep {σ ω : Type} (perform : ω → σ → σ × Bool) (tasks : List (Task ω)) (w : Sched σ)
    (i : Nat) : Option (Sched σ) :=
  match tasks[i]?, w.stages[i]? with
  | some task, some stage =>
    (taskStep perform task w.shared stage).map
      (fun r => { shared := r.1, stages := w.stages.set i r.2 })
  | _, _ => none

def SchedStep {σ ω : Type} (perform : ω → σ → σ × Bool) (tasks : List (Task ω)) :
    Sched σ → Nat → Sched σ → Prop :=
  fun w i w' => schedStep perform tasks w i = some w'

def Sched.initial {σ ω : Type} (tasks : List (Task ω)) (s : σ) : Sched σ :=
  { shared := s, stages := tasks.map (fun task => .before task.before) }

/-- One task run alone, with success. -/
def SerialStep {σ ω : Type} (perform : ω → σ → σ × Bool) (tasks : List (Task ω)) :
    σ → Nat → σ → Prop :=
  fun s i t => ∃ task, tasks[i]? = some task ∧ perform task.op s = (t, true)

def Stage.Succeeded : Stage → Prop
  | .before _ => False
  | .after _ ok => ok = true
  | .done ok => ok = true

/-- A task has gone through its block with success and does not raise after it. -/
def Sched.Succeeded {σ : Type} (w : Sched σ) (i : Nat) : Prop :=
  ∃ stage, w.stages[i]? = some stage ∧ stage.Succeeded

/-- The shared state is that of some serial order of exactly the tasks that succeeded. -/
def SerialOutcome {σ ω : Type} (perform : ω → σ → σ × Bool) (tasks : List (Task ω)) (s : σ)
    (w : Sched σ) : Prop :=
  ∃ order : List Nat, order.Nodup ∧ (∀ i, i ∈ order ↔ w.Succeeded i) ∧
    Run (SerialStep perform tasks) s order w.shared

/-- A task that reports no success has left the shared state alone in its block. -/
def FailsQuietly {σ ω : Type} (perform : ω → σ → σ × Bool) (tasks : List (Task ω)) (w : Sched σ)
    (i : Nat) : Prop :=
  ∀ task, tasks[i]? = some task → w.stages[i]? = some (.before 0) →
    (perform task.op w.shared).2 = false ∨ task.raisesAfter = true →
    (perform task.op w.shared).1 = w.shared

theorem Sched.succeeded_set {σ : Type} {w : Sched σ} {i j : Nat} {s : σ} {stage : Stage}
    (hi : i < w.stages.length) :
    Sched.Succeeded { shared := s, stages := w.stages.set i stage } j ↔
      if i = j then stage.Succeeded else w.Succeeded j := by
  unfold Sched.Succeeded
  simp only [List.getElem?_set]
  split
  next h =>
    subst h
    simp
  next => exact Iff.rfl

/-- A stage is replaced by one that has succeeded just when the old one had. -/
theorem SerialOutcome.of_same {σ ω : Type} {perform : ω → σ → σ × Bool} {tasks : List (Task ω)}
    {s : σ} {w : Sched σ} {i : Nat} {old new : Stage} (h : SerialOutcome perform tasks s w)
    (hold : w.stages[i]? = some old) (hsame : new.Succeeded ↔ old.Succeeded) :
    SerialOutcome perform tasks s { shared := w.shared, stages := w.stages.set i new } := by
  obtain ⟨order, hnodup, hmem, hrun⟩ := h
  obtain ⟨hlt, hget⟩ := List.getElem?_eq_some_iff.mp hold
  refine ⟨order, hnodup, fun j => ?_, hrun⟩
  rw [hmem, Sched.succeeded_set hlt]
  split
  next hj =>
    subst hj
    rw [hsame]
    exact ⟨fun ⟨stage, hs, hok⟩ => by rw [hold] at hs; cases hs; exact hok,
      fun hok => ⟨old, hold, hok⟩⟩
  next => exact Iff.rfl

/-- A task that succeeds in its block comes next in the serial order. -/
theorem SerialOutcome.of_block {σ ω : Type} {perform : ω → σ → σ × Bool} {tasks : List (Task ω)}
    {s : σ} {w : Sched σ} {i left : Nat} {task : Task ω} (h : SerialOutcome perform tasks s w)
    (htask : tasks[i]? = some task) (hold : w.stages[i]? = some (.before 0))
    (hok : (perform task.op w.shared).2 = true) :
    SerialOutcome perform tasks s
      { shared := (perform task.op w.shared).1, stages := w.stages.set i (.after left true) } := by
  obtain ⟨order, hnodup, hmem, hrun⟩ := h
  obtain ⟨hlt, _⟩ := List.getElem?_eq_some_iff.mp hold
  have hnot : i ∉ order := by
    intro hi
    obtain ⟨stage, hs, hsucc⟩ := (hmem i).mp hi
    rw [hold] at hs
    cases hs
    exact hsucc
  refine ⟨order ++ [i], ?_, fun j => ?_, Run.next hrun ⟨task, htask, Prod.ext rfl hok⟩⟩
  · refine List.nodup_append.mpr ⟨hnodup, List.nodup_singleton i, ?_⟩
    intro x hx y hy hxy
    obtain rfl := List.mem_singleton.mp hy
    exact hnot (hxy ▸ hx)
  · rw [List.mem_append, List.mem_singleton, hmem, Sched.succeeded_set hlt]
    split
    next hj => exact ⟨fun _ => rfl, fun _ => Or.inr hj.symm⟩
    next hj => exact ⟨fun hor => hor.elim id (fun he => absurd he.symm hj), Or.inl⟩

theorem schedStep_serial {σ ω : Type} {perform : ω → σ → σ × Bool} {tasks : List (Task ω)}
    {s : σ} {w w' : Sched σ} {i : Nat} (h : SerialOutcome perform tasks s w)
    (hquiet : FailsQuietly perform tasks w i) (hstep : schedStep perform tasks w i = some w') :
    SerialOutcome perform tasks s w' := by
  unfold schedStep at hstep
  split at hstep
  next task stage htask hstage =>
    obtain ⟨r, hr, rfl⟩ := Option.map_eq_some_iff.mp hstep
    have hfail := hquiet task htask
    cases stage with
    | before left =>
      cases left with
      | succ left => cases hr; exact h.of_same hstage Iff.rfl
      | zero =>
        cases hr
        cases hok : (perform task.op w.shared).2 && !task.raisesAfter with
        | true => exact h.of_block htask hstage (Bool.and_eq_true_iff.mp hok).1
        | false =>
          have hsame : (perform task.op w.shared).1 = w.shared := by
            refine hfail hstage ?_
            rcases Bool.and_eq_false_iff.mp hok with h | h
            · exact Or.inl h
            · exact Or.inr (by simpa using h)
          dsimp only
          rw [hsame]
          exact h.of_same hstage ⟨(fun hf => absurd hf Bool.false_ne_true), (fun hf => hf.elim)⟩
    | after left ok =>
      cases left with
      | succ left => cases hr; exact h.of_same hstage Iff.rfl
      | zero => cases hr; exact h.of_same hstage Iff.rfl
    | done ok => cases hr
  next => cases hstep

theorem serialOutcome_initial {σ ω : Type} (perform : ω → σ → σ × Bool) (tasks : List (Task ω))
    (s : σ) : SerialOutcome perform tasks s (Sched.initial tasks s) := by
  refine ⟨[], List.nodup_nil, fun i => ?_, Run.start⟩
  constructor
  · intro h
    exact absurd h List.not_mem_nil
  · rintro ⟨stage, hs, hok⟩
    simp only [Sched.initial, List.getElem?_map] at hs
    obtain ⟨task, _, rfl⟩ := Option.map_eq_some_iff.mp hs
    exact hok.elim

/-- However the tasks are interleaved, the shared state is that of a serial order. -/
theorem serialOutcome_of_run {σ ω : Type} {perform : ω → σ → σ × Bool} {tasks : List (Task ω)}
    {s : σ} {w : Sched σ} {schedule : List Nat}
    (run : Run (Guarded (SchedStep perform tasks) (FailsQuietly perform tasks))
      (Sched.initial tasks s) schedule w) : SerialOutcome perform tasks s w := by
  refine run.invariant ?_ (serialOutcome_initial perform tasks s)
  rintro t i u h ⟨hquiet, hstep⟩
  exact schedStep_serial h hquiet hstep

theorem find?_assocSet_map {κ α β : Type} [DecidableEq κ] {p : κ × α → Bool} {k : κ} {v w : α}
    {entries : List (κ × α)} (g : κ → β) (hget : assocGet entries k = some v)
    (hp : p (k, v) = p (k, w)) :
    ((assocSet entries k w).find? p).map (fun e => g e.1) = (entries.find? p).map (fun e => g e.1) := by
  induction entries with
  | nil => cases hget
  | cons entry rest ih =>
    obtain ⟨key, value⟩ := entry
    by_cases hk : key = k
    · subst hk
      obtain rfl : value = v := by simpa [assocGet] using hget
      rw [assocSet, if_pos rfl, List.find?_cons, List.find?_cons, hp]
      split <;> rfl
    · rw [assocGet, if_neg hk] at hget
      rw [assocSet, if_neg hk, List.find?_cons, List.find?_cons]
      split
      next => rfl
      next => exact ih hget

/-- The file found for a lab id does not depend on what else is in the files. -/
theorem plannedMacFile_set {labs : Labs} {path labId : String} {data data' : Lab}
    (hget : labs.get? path = some data) (hid : data'.id = data.id) :
    plannedMacFile (labs.set path data') labId = plannedMacFile labs labId := by
  refine find?_assocSet_map (β := String) id hget ?_
  simp [hid]

/-- A planned MAC that the hot-attach pass writes into another lab file than its own. -/
def StrayMac (labs : Labs) (path labId : String) (mac : PlannedMac) : Prop :=
  ∃ other data data', plannedMacFile labs labId = some other ∧ other ≠ path ∧
    labs.get? other = some data ∧ setPlannedMac mac data = .ok data'

theorem persistPlannedMac_of_not_stray {labs : Labs} {path : String} {original written : Lab}
    {mac : PlannedMac} (hget : labs.get? path = some original) (hid : written.id = original.id)
    (h : ¬StrayMac labs path original.id mac) :
    (persistPlannedMac [path] original.id (labs.set path written) mac).1 = labs.set path written := by
  unfold persistPlannedMac
  rw [plannedMacFile_set hget hid]
  cases hfile : plannedMacFile labs original.id with
  | none => rfl
  | some other =>
    by_cases hother : other = path
    · simp [hother]
    · have hkeep : (labs.set path written).get? other = labs.get? other :=
        Dict.get?_set_ne labs written (Ne.symm hother)
      simp only [List.mem_singleton, hother, if_false, editLab, hkeep]
      cases hdata : labs.get? other with
      | none => rfl
      | some data =>
        cases hset : setPlannedMac mac data with
        | error e => simp [hset]
        | ok data' => exact absurd ⟨other, data, data', hfile, hother, hdata, hset⟩ h

theorem promoteAtThree_id (data : Lab) (networkId : Int) :
    (promoteAtThree data networkId).1.id = data.id := by
  unfold promoteAtThree
  split
  next => split <;> rfl
  next => rfl

theorem createMixedLink_id {data : Lab} {a b : Endpoint} {style : Option String} {networkId : Int}
    {created : CreatedLink} (h : createMixedLink data a b style networkId = .ok created) :
    created.data.id = data.id := by
  unfold createMixedLink at h
  split at h
  next => cases h
  next =>
    cases h
    exact promoteAtThree_id _ _

theorem createLinkData_id {data : Lab} {a b : Endpoint} {style : Option String}
    {created : CreatedLink} (h : createLinkData data a b style = .ok created) :
    created.data.id = data.id := by
  unfold createLinkData at h
  obtain ⟨_, _, h⟩ := bind_eq_ok.mp h
  obtain ⟨_, _, h⟩ := bind_eq_ok.mp h
  split at h
  next => cases h; rfl
  next => exact createMixedLink_id h
  next => exact createMixedLink_id h

/-- A `create_link` whose hot-attach pass raises leaves every file as it was, unless the pass put
a planned MAC into another file. -/
theorem createLinkFile_quiet {path : String} {a b : Endpoint} {style : Option String}
    {planned : List PlannedMac} {hotAttach : Option (List Stamp)} {labs : Labs}
    (h : (createLinkFile path a b style planned hotAttach labs).2 = false)
    (hstray : hotAttach = none → ∀ original, labs.get? path = some original →
      ∀ mac ∈ planned, ¬StrayMac labs path original.id mac) :
    (createLinkFile path a b style planned hotAttach labs).1 = labs := by
  unfold createLinkFile at h ⊢
  split
  next => rfl
  next original hget =>
    rw [hget] at h
    dsimp only at h
    split
    next => rfl
    next created hcreated =>
      rw [hcreated] at h
      cases hotAttach with
      | some stamps => cases h
      | none =>
        have hid := createLinkData_id hcreated
        have hfold : planned.foldl
            (fun files mac => (persistPlannedMac [path] original.id files mac).1)
            (labs.set path created.data) = labs.set path created.data :=
          foldl_fixed (fun mac hmac =>
            persistPlannedMac_of_not_stray hget hid (hstray rfl original hget mac hmac))
        dsimp only
        rw [hfold]
        exact Dict.set_set_get hget

theorem deleteLinkFile_quiet {path : String} {owner : Labs → String → Option (String × Int)}
    {linkId : String} {detached : Bool} {labs : Labs}
    (h : (deleteLinkFile path owner linkId detached labs).2 = false) :
    (deleteLinkFile path owner linkId detached labs).1 = labs := by
  unfold deleteLinkFile at h ⊢
  split
  next => rfl
  next data hget =>
    rw [hget] at h
    dsimp only at h
    split
    next => rfl
    next target hfind =>
      rw [hfind] at h
      dsimp only at h ⊢
      split
      next => rfl
      next data' hdel =>
        rw [hdel] at h
        cases h

/-- No planned MAC of a `create_link` whose hot-attach pass raises goes into another lab file. -/
def NoStrayMacs (labs : Labs) : WriterOp → Prop
  | .createLink path _ _ _ planned none =>
    ∀ original, labs.get? path = some original → ∀ mac ∈ planned, ¬StrayMac labs path original.id mac
  | _ => True

/-- A writer that reports no success has written nothing. -/
theorem perform_quiet {op : WriterOp} {labs : Labs} (h : (op.perform labs).2 = false)
    (hstray : NoStrayMacs labs op) : (op.perform labs).1 = labs := by
  cases op with
  | createLink path a b style planned hotAttach =>
    refine createLinkFile_quiet h ?_
    intro hnone
    subst hnone
    exact hstray
  | deleteLink path owner linkId detached => exact deleteLinkFile_quiet h
  | updateLab path updates =>
    simp only [WriterOp.perform, updateLabFile] at h
    split at h <;> cases h
  | persistPlannedMac labId mac => exact persistPlannedMac_quiet h
  | patchLink path linkId patch => exact editLab_quiet h
  | createNetwork path host request => exact editLab_quiet h
  | deleteNetwork path host networkId => exact editLab_quiet h
  | patchNetwork path host networkId patch => exact editLab_quiet h
  | updateNetwork path networkId patch => exact editLab_quiet h
  | createNode path host request => exact editLab_quiet h
  | createNodesBatch path host request count row => exact editLab_quiet h
  | updateNode path host nodeId request => exact editLab_quiet h
  | deleteNode path nodeId wiped => exact editLab_quiet h
  | updateTopology path payload => exact editLab_quiet h
  | heartbeat path nodeId alive => exact editLab_quiet h

/-- A writer that has nothing to write and says so with success. -/
def Idle (labs : Labs) : WriterOp → Prop
  | .deleteLink path _ linkId _ => ∃ data, labs.get? path = some data ∧ findLink data linkId = none
  | .updateLab path _ => labs.get? path = none
  | _ => False

theorem perform_idle {op : WriterOp} {labs : Labs} (h : Idle labs op) :
    (op.perform labs).1 = labs := by
  cases op with
  | deleteLink path owner linkId detached =>
    obtain ⟨data, hget, hfind⟩ := h
    simp only [WriterOp.perform, deleteLinkFile, hget, hfind]
  | updateLab path updates =>
    have hget : labs.get? path = none := h
    simp only [WriterOp.perform, updateLabFile, hget]
  | _ => exact h.elim

/-- The writer resumed next puts no planned MAC into another file than its own, and raises after
its block only when it was refused there or had nothing to write. -/
def WriterOk (tasks : List (Task WriterOp)) (w : Sched Labs) (i : Nat) : Prop :=
  ∀ task, tasks[i]? = some task → w.stages[i]? = some (.before 0) →
    NoStrayMacs w.shared task.op ∧
      (task.raisesAfter = true → Idle w.shared task.op ∨ (task.op.perform w.shared).2 = false)

theorem WriterOk.failsQuietly {tasks : List (Task WriterOp)} {w : Sched Labs} {i : Nat}
    (h : WriterOk tasks w i) : FailsQuietly WriterOp.perform tasks w i := by
  intro task htask hstage hfails
  obtain ⟨hstray, hraise⟩ := h task htask hstage
  rcases hfails with hrefused | hraises
  · exact perform_quiet hrefused hstray
  · rcases hraise hraises with hidle | hrefused
    · exact perform_idle hidle
    · exact perform_quiet hrefused hstray

/-- However the writers are interleaved, the lab files are those of a serial order of exactly the
writers that report success. -/
theorem no_lost_update_of_run {tasks : List (Task WriterOp)} {labs : Labs} {w : Sched Labs}
    {schedule : List Nat}
    (run : Run (Guarded (SchedStep WriterOp.perform tasks) (WriterOk tasks))
      (Sched.initial tasks labs) schedule w) :
    SerialOutcome WriterOp.perform tasks labs w := by
  refine serialOutcome_of_run (run.mono ?_)
  rintro u i v ⟨hok, hstep⟩
  exact ⟨hok.failsQuietly, hstep⟩

def WriterOp.plannedMacs : WriterOp → List PlannedMac
  | .createLink _ _ _ _ planned _ => planned
  | _ => []

theorem noStrayMacs_of_nil {op : WriterOp} (labs : Labs) (h : op.plannedMacs = []) :
    NoStrayMacs labs op := by
  cases op with
  | createLink path a b style planned hotAttach =>
    obtain rfl : planned = [] := h
    cases hotAttach with
    | none =>
      intro original hget mac hmac
      cases hmac
    | some stamps => trivial
  | _ => trivial

/-- Nothing is asked of the order when no MAC is planned and no writer raises after its block. -/
theorem writerOk_of_plain {tasks : List (Task WriterOp)}
    (h : ∀ task ∈ tasks, task.op.plannedMacs = [] ∧ task.raisesAfter = false) (w : Sched Labs)
    (i : Nat) : WriterOk tasks w i := by
  intro task htask hstage
  obtain ⟨hnone, hquiet⟩ := h task (List.mem_of_getElem? htask)
  refine ⟨noStrayMacs_of_nil w.shared hnone, fun hraises => ?_⟩
  rw [hquiet] at hraises
  cases hraises

/-- A lab with two nodes, in one file. -/
def pairLabs : Labs :=
  Dict.empty.set "lab.json"
    { id := "lab"
      nodes := (Dict.empty.set 1 { id := 1, name := "a", type := .qemu }).set 2
        { id := 2, name := "b", type := .qemu } }

/-- A link is created while a heartbeat waits for its liveness check. -/
def linkAndHeartbeat : List (Task WriterOp) :=
  [{ op := .createLink "lab.json" (.node 1 0) (.node 2 0) none [] (some []), after := 2 },
   { op := .heartbeat "lab.json" 1 true, before := 1 }]

theorem no_lost_update_of_linkAndHeartbeat :
    ∃ w, Run (SchedStep WriterOp.perform linkAndHeartbeat) (Sched.initial linkAndHeartbeat pairLabs)
        [1, 0, 1, 0, 1, 0, 0] w ∧
      w.stages = [.done true, .done true] ∧
      SerialOutcome WriterOp.perform linkAndHeartbeat pairLabs w := by
  have hok := writerOk_of_plain (show ∀ task ∈ linkAndHeartbeat,
    task.op.plannedMacs = [] ∧ task.raisesAfter = false by decide)
  have hrun : ∃ w, Run (Guarded (SchedStep WriterOp.perform linkAndHeartbeat)
      (WriterOk linkAndHeartbeat)) (Sched.initial linkAndHeartbeat pairLabs)
      [1, 0, 1, 0, 1, 0, 0] w ∧ w.stages = [.done true, .done true] :=
    ⟨_, Run.cons ⟨hok _ _, rfl⟩ (Run.cons ⟨hok _ _, rfl⟩ (Run.cons ⟨hok _ _, rfl⟩
      (Run.cons ⟨hok _ _, rfl⟩ (Run.cons ⟨hok _ _, rfl⟩ (Run.cons ⟨hok _ _, rfl⟩
        (Run.single ⟨hok _ _, rfl⟩)))))), rfl⟩
  obtain ⟨w, run, hdone⟩ := hrun
  exact ⟨w, run.of_guarded, hdone, no_lost_update_of_run run⟩

/-- A host without other labs and without bridges. -/
def plainNetworkHost : NetworkHost where
  strip := id
  lower := id
  bridgeName _ _ := "nve"
  bridgeExists _ := false
  validateCidr _ := .ok ()
  natCloud config _ := .ok (config, none)
  provision network := .ok network.runtime
  usedElsewhere _ := false

def oneNetworkLabs : Labs :=
  Dict.empty.set "lab.json"
    { id := "lab", networks := Dict.empty.set 1 { id := 1, name := "lan" } }

/-- A network is deleted and its bridge teardown raises. -/
def deleteAndRaise : List (Task WriterOp) :=
  [{ op := .deleteNetwork "lab.json" (fun _ => plainNetworkHost) 1, raisesAfter := true }]

/-- The deletion reports a failure, and the network is gone. -/
theorem failed_delete_network_is_not_undone :
    ∃ w, Run (SchedStep WriterOp.perform deleteAndRaise)
        (Sched.initial deleteAndRaise oneNetworkLabs) [0, 0] w ∧
      w.stages = [.done false] ∧ ¬SerialOutcome WriterOp.perform deleteAndRaise oneNetworkLabs w := by
  refine ⟨_, Run.cons rfl (Run.single rfl), rfl, ?_⟩
  rintro ⟨order, _, hmem, run⟩
  have hnil : order = [] := by
    refine List.eq_nil_iff_forall_not_mem.mpr (fun i hi => ?_)
    obtain ⟨stage, hstage, hsucc⟩ := (hmem i).mp hi
    cases i with
    | zero => cases hstage; cases hsucc
    | succ j => cases hstage
  subst hnil
  exact absurd run.eq_of_nil (by decide)

end NovaVe
