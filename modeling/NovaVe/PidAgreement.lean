import NovaVe.Dict
import NovaVe.RuntimeLiveness

namespace NovaVe

/-- An entry of `pids.json`. -/
structure PidEntry where
  pid : Pid
  kind : NodeKind
  node : NodeKey
deriving DecidableEq, Repr

/-- `runtime_pids.register`. -/
def registerPid (entries : List PidEntry) (entry : PidEntry) : List PidEntry :=
  entries.filter (fun e => decide (e.pid ≠ entry.pid)) ++ [entry]

/-- `runtime_pids.unregister`, behind `_unregister_pid`. -/
def unregisterPid (entries : List PidEntry) : Option Pid → List PidEntry
  | none => entries
  | some pid => entries.filter (fun e => decide (e.pid ≠ pid))

/-- `_registry_lookup` of the privileged helper. -/
def registryLookup (entries : List PidEntry) (pid : Pid) : Option PidEntry :=
  entries.find? (fun e => decide (e.pid = pid))

/-- The host, `pids.json`, and the runtime records with their state files. -/
structure PidWorld where
  host : HostView
  pids : List PidEntry
  records : Dict NodeKey RuntimeRec

/-- `_delete_runtime` and `_delete_runtime_class`. -/
def PidWorld.deleteRuntime (world : PidWorld) (node : NodeKey) : PidWorld :=
  { world with records := world.records.pop node }

/-- `_runtime_record`: a dead record is evicted. -/
def PidWorld.runtimeRecord (world : PidWorld) (node : NodeKey) : Option RuntimeRec × PidWorld :=
  match world.records.get? node with
  | none => (none, world)
  | some runtime =>
    if isRuntimeAlive world.host runtime then (some runtime, world)
    else (none, world.deleteRuntime node)

/-- How the start of a node goes on after the registry was read: it fails before a pid is
registered, or (docker) a step after the registration fails and is rolled back, or (docker) one
fails outside of the rollback (the work directory, the console port of an adopted container), or
the runtime is returned. A docker container that is running already is adopted the same way. -/
inductive Launch
  | refused
  | rolledBack (pid : Pid)
  | abandoned (pid : Pid)
  | started (pid : Pid) (createTime : Int) (name : String)
deriving DecidableEq, Repr

/-- The record a start returns. -/
def launchedRecord (kind : NodeKind) (pid : Pid) (createTime : Int) (name : String) :
    RuntimeRec :=
  match kind with
  | .docker => ⟨.docker, some pid, some createTime, some name, none⟩
  | .dynamips => ⟨.dynamips, none, none, none, some name⟩
  | kind => ⟨kind, some pid, some createTime, none, none⟩

/-- The host with the launched container, VM or process. -/
def HostView.launched (host : HostView) (kind : NodeKind) (pid : Pid) (createTime : Int)
    (name : String) : HostView :=
  match kind with
  | .docker =>
    { host with containers := name :: host.containers, procs := (pid, createTime) :: host.procs }
  | .dynamips => { host with vms := name :: host.vms }
  | _ => { host with procs := (pid, createTime) :: host.procs }

/-- The host after a runtime was stopped. -/
def HostView.halted (host : HostView) (runtime : RuntimeRec) : HostView where
  dockerBinary := host.dockerBinary
  containers := host.containers.filter (fun name => decide (runtime.containerName ≠ some name))
  vms := host.vms.filter (fun name => decide (runtime.vmName ≠ some name))
  procs := host.procs.filter (fun proc => decide (runtime.pid ≠ some proc.1))

/-- What a start does after it found no live runtime. -/
def PidWorld.launch (world : PidWorld) (node : NodeKey) (kind : NodeKind) : Launch → PidWorld
  | .refused => world
  | .rolledBack pid =>
    if kind = .docker then
      { world with pids := unregisterPid (registerPid world.pids ⟨pid, kind, node⟩) (some pid) }
    else world
  | .abandoned pid =>
    if kind = .docker then { world with pids := registerPid world.pids ⟨pid, kind, node⟩ }
    else world
  | .started pid createTime name =>
    { host := world.host.launched kind pid createTime name
      pids := if kind = .dynamips then world.pids else registerPid world.pids ⟨pid, kind, node⟩
      records := world.records.set node (launchedRecord kind pid createTime name) }

/-- `stop_qemu_runtime`, `stop_docker_runtime` and their like drop the pid of the runtime;
`_stop_dynamips_runtime` has none. -/
def PidWorld.stopRuntime (world : PidWorld) (runtime : RuntimeRec) : PidWorld :=
  { world with
    host := world.host.halted runtime
    pids := if runtime.kind = .dynamips then world.pids
      else unregisterPid world.pids runtime.pid }

/-- The operations on nodes, and the exits between them. -/
inductive PidAction
  | exits (container vm : String → Bool) (proc : Pid × Int → Bool)
  | notice (node : NodeKey)
  | heartbeat (node : NodeKey) (written : Bool)
  | start (node : NodeKey) (kind : NodeKind) (launch : Launch)
  | stop (node : NodeKey) (signalled : Bool)
  | adopt (node : NodeKey) (pid : Pid) (createTime : Int)

/-- The host once some containers, VMs and processes are gone. -/
def HostView.exited (host : HostView) (container vm : String → Bool) (proc : Pid × Int → Bool) :
    HostView where
  dockerBinary := host.dockerBinary
  containers := host.containers.filter container
  vms := host.vms.filter vm
  procs := host.procs.filter proc

def PidWorld.step (world : PidWorld) : PidAction → PidWorld
  | .exits container vm proc => { world with host := world.host.exited container vm proc }
  | .notice node => (world.runtimeRecord node).2
  | .heartbeat node written =>
    match world.records.get? node with
    | none => world
    | some runtime =>
      if checkAliveSync world.host runtime = some false ∧ written = true then
        world.deleteRuntime node
      else world
  | .start node kind launch =>
    match world.runtimeRecord node with
    | (some _, next) => next
    | (none, next) => next.launch node kind launch
  | .stop node signalled =>
    match world.runtimeRecord node with
    | (none, next) => next
    -- the signal through the helper fails: the error leaves everything as it is
    | (some runtime, next) =>
      if signalled then (next.stopRuntime runtime).deleteRuntime node else next
  | .adopt node pid createTime =>
    match world.records.get? node with
    | some _ => world
    | none =>
      { world with
        pids := registerPid world.pids ⟨pid, .qemu, node⟩
        records := world.records.set node ⟨.qemu, some pid, some createTime, none, none⟩ }

def PidWorld.run (world : PidWorld) (actions : List PidAction) : PidWorld :=
  actions.foldl PidWorld.step world

/-- `pids.json` and the runtime records agree. -/
structure PidsAgree (world : PidWorld) : Prop where
  unique : (world.pids.map (fun e => e.pid)).Nodup
  known : ∀ e ∈ world.pids, e.kind ≠ .dynamips
  listed : ∀ node runtime pid, world.records.get? node = some runtime →
    runtime.kind ≠ .dynamips → isRuntimeAlive world.host runtime = true →
      runtime.pid = some pid → ⟨pid, runtime.kind, node⟩ ∈ world.pids
  current : ∀ e ∈ world.pids, ∃ runtime, world.records.get? e.node = some runtime ∧
    runtime.pid = some e.pid ∧ runtime.kind = e.kind

/-- The helper authorizes the pid of every live record, and pids of current records only. -/
theorem PidsAgree.lookup {world : PidWorld} (h : PidsAgree world) (pid : Pid) (e : PidEntry) :
    registryLookup world.pids pid = some e ↔ e ∈ world.pids ∧ e.pid = pid := by
  have hunique := h.unique
  unfold registryLookup
  constructor
  · intro hfind
    have hpid := List.find?_some hfind
    exact ⟨List.mem_of_find?_eq_some hfind, by simpa using hpid⟩
  · rintro ⟨hm, hpid⟩
    generalize world.pids = entries at hunique hm
    induction entries with
    | nil => cases hm
    | cons first rest ih =>
      rw [List.map_cons, List.nodup_cons] at hunique
      rcases List.mem_cons.mp hm with rfl | hm
      · rw [List.find?_cons_of_pos (by simpa using hpid)]
      · have hne : first.pid ≠ pid := by
          intro he
          exact hunique.1 (List.mem_map.mpr ⟨e, hm, by rw [hpid, he]⟩)
        rw [List.find?_cons_of_neg (by simpa using hne)]
        exact ih hunique.2 hm

/-- `pids.json` has no entry for the node. -/
def PidWorld.NoEntry (world : PidWorld) (node : NodeKey) : Prop := ∀ e ∈ world.pids, e.node ≠ node

/-- An entry for the node has the pid that is registered next. -/
def PidWorld.OnlyEntry (world : PidWorld) (node : NodeKey) (pid : Pid) : Prop :=
  ∀ e ∈ world.pids, e.node = node → e.pid = pid

/-- No live record of another node has the pid. -/
def PidWorld.SparesOthers (world : PidWorld) (host : HostView) (node : NodeKey) (pid : Pid) :
    Prop :=
  ∀ other runtime, other ≠ node → world.records.get? other = some runtime →
    runtime.kind ≠ .dynamips → isRuntimeAlive host runtime = true → runtime.pid ≠ some pid

/-- The other records that count as live on a host have their entries. -/
def PidWorld.OthersListed (world : PidWorld) (host : HostView) (node : NodeKey) : Prop :=
  ∀ other runtime pid, other ≠ node → world.records.get? other = some runtime →
    runtime.kind ≠ .dynamips → isRuntimeAlive host runtime = true → runtime.pid = some pid →
      ⟨pid, runtime.kind, other⟩ ∈ world.pids

def PidWorld.LaunchOk (world : PidWorld) (node : NodeKey) (kind : NodeKind) : Launch → Prop
  | .refused => world.NoEntry node
  | .rolledBack pid =>
    if kind = .docker then world.OnlyEntry node pid ∧ world.SparesOthers world.host node pid
    else world.NoEntry node
  | .abandoned _ => kind ≠ .docker ∧ world.NoEntry node
  | .started pid createTime name =>
    if kind = .dynamips then world.NoEntry node
    else world.OnlyEntry node pid ∧
      world.SparesOthers (world.host.launched kind pid createTime name) node pid ∧
      world.OthersListed (world.host.launched kind pid createTime name) node

/-- When an operation keeps `pids.json` and the records in agreement. -/
def PidWorld.StepOk (world : PidWorld) : PidAction → Prop
  | .exits _ _ _ => True
  | .notice node => ∀ runtime, world.records.get? node = some runtime →
      isRuntimeAlive world.host runtime = false → world.NoEntry node
  | .heartbeat node written => ∀ runtime, world.records.get? node = some runtime →
      checkAliveSync world.host runtime = some false → written = true → world.NoEntry node
  | .start node kind launch =>
    (∃ runtime, world.records.get? node = some runtime ∧
      isRuntimeAlive world.host runtime = true) ∨ world.LaunchOk node kind launch
  | .stop node signalled => ∀ runtime, world.records.get? node = some runtime →
      if isRuntimeAlive world.host runtime = true then
        signalled = true → runtime.kind ≠ .dynamips → ∀ pid, runtime.pid = some pid →
          world.SparesOthers (world.host.halted runtime) node pid
      else world.NoEntry node
  | .adopt node pid _ => world.records.get? node = none → world.SparesOthers world.host node pid

/-- The world less the record of a node. -/
structure Cleared (world next : PidWorld) (node : NodeKey) : Prop where
  host : next.host = world.host
  pids : next.pids = world.pids
  gone : next.records.get? node = none
  others : ∀ other, other ≠ node → next.records.get? other = world.records.get? other

theorem cleared_deleteRuntime (world : PidWorld) (node : NodeKey) :
    Cleared world (world.deleteRuntime node) node := by
  refine ⟨rfl, rfl, ?_, ?_⟩
  · show (world.records.pop node).get? node = none
    rw [Dict.get?_pop, if_pos rfl]
  · intro other hne
    show (world.records.pop node).get? other = _
    exact Dict.get?_pop_ne _ (fun he => hne he.symm)

theorem cleared_self {world : PidWorld} {node : NodeKey} (h : world.records.get? node = none) :
    Cleared world world node :=
  ⟨rfl, rfl, h, fun _ _ => rfl⟩

/-- A read of the registry returns the live record, or clears a dead one. -/
theorem runtimeRecord_cases (world : PidWorld) (node : NodeKey) :
    (∃ runtime, world.records.get? node = some runtime ∧
      isRuntimeAlive world.host runtime = true ∧
      world.runtimeRecord node = (some runtime, world)) ∨
    (∃ next, world.runtimeRecord node = (none, next) ∧ Cleared world next node ∧
      ∀ runtime, world.records.get? node = some runtime →
        isRuntimeAlive world.host runtime = false) := by
  unfold PidWorld.runtimeRecord
  cases hr : world.records.get? node with
  | none =>
    right
    exact ⟨world, rfl, cleared_self hr, fun runtime h => absurd h (by simp)⟩
  | some runtime =>
    by_cases halive : isRuntimeAlive world.host runtime = true
    · left
      exact ⟨runtime, rfl, halive, by simp [halive]⟩
    · right
      refine ⟨world.deleteRuntime node, by simp [halive], cleared_deleteRuntime world node, ?_⟩
      intro other hother
      cases hother
      simpa using halive

theorem mem_registerPid {entries : List PidEntry} {entry e : PidEntry} :
    e ∈ registerPid entries entry ↔ (e ∈ entries ∧ e.pid ≠ entry.pid) ∨ e = entry := by
  simp [registerPid]

theorem mem_unregisterPid {entries : List PidEntry} {pid : Pid} {e : PidEntry} :
    e ∈ unregisterPid entries (some pid) ↔ e ∈ entries ∧ e.pid ≠ pid := by
  simp [unregisterPid]

theorem filter_pids_nodup {entries : List PidEntry} (p : PidEntry → Bool)
    (h : (entries.map (fun e => e.pid)).Nodup) :
    ((entries.filter p).map (fun e => e.pid)).Nodup :=
  h.sublist (List.filter_sublist.map _)

theorem registerPid_nodup {entries : List PidEntry} (entry : PidEntry)
    (h : (entries.map (fun e => e.pid)).Nodup) :
    ((registerPid entries entry).map (fun e => e.pid)).Nodup := by
  unfold registerPid
  rw [List.map_append, List.map_singleton, ← List.concat_eq_append]
  refine List.Nodup.concat ?_ (filter_pids_nodup _ h)
  intro hm
  obtain ⟨e, he, hpid⟩ := List.mem_map.mp hm
  have hne := (List.mem_filter.mp he).2
  exact (of_decide_eq_true hne) hpid

/-- Without its record a node keeps the agreement exactly when it has no entry. -/
theorem cleared_agree_iff {world next : PidWorld} {node : NodeKey} (h : PidsAgree world)
    (hclear : Cleared world next node) : PidsAgree next ↔ world.NoEntry node := by
  constructor
  · intro hnext e he hnode
    obtain ⟨runtime, hget, _⟩ := hnext.current e (hclear.pids ▸ he)
    rw [hnode, hclear.gone] at hget
    cases hget
  · intro hnone
    refine ⟨hclear.pids ▸ h.unique, hclear.pids ▸ h.known, ?_, ?_⟩
    · intro other runtime pid hget hkind halive hpid
      have hne : other ≠ node := by
        rintro rfl
        rw [hclear.gone] at hget
        cases hget
      rw [hclear.others other hne] at hget
      rw [hclear.host] at halive
      rw [hclear.pids]
      exact h.listed other runtime pid hget hkind halive hpid
    · intro e he
      rw [hclear.pids] at he
      obtain ⟨runtime, hget, hrest⟩ := h.current e he
      exact ⟨runtime, (hclear.others e.node (hnone e he)).trans hget, hrest⟩

/-- A pid that is registered and dropped again, without a record. -/
theorem unregistered_agree_iff {world next : PidWorld} {node : NodeKey} {pid : Pid}
    (h : PidsAgree world) (hclear : Cleared world next node) {host : HostView}
    (hhost : world.host.Lost host) :
    PidsAgree { next with host := host, pids := unregisterPid world.pids (some pid) } ↔
      world.OnlyEntry node pid ∧ world.SparesOthers host node pid := by
  constructor
  · intro hnext
    refine ⟨?_, ?_⟩
    · intro e he hnode
      by_contra hne
      obtain ⟨runtime, hget, _⟩ := hnext.current e (mem_unregisterPid.mpr ⟨he, hne⟩)
      rw [hnode] at hget
      exact absurd (hget.symm.trans hclear.gone) (Option.some_ne_none _)
    · intro other runtime hne hget hkind halive hpid
      have hget' := (hclear.others other hne).trans hget
      have hm := hnext.listed other runtime pid hget' hkind halive hpid
      exact (mem_unregisterPid.mp hm).2 rfl
  · rintro ⟨honly, hspares⟩
    refine ⟨filter_pids_nodup _ h.unique, ?_, ?_, ?_⟩
    · intro e he
      exact h.known e (mem_unregisterPid.mp he).1
    · intro other runtime p hget hkind halive hpid
      have hne : other ≠ node := by
        rintro rfl
        exact absurd (hget.symm.trans hclear.gone) (Option.some_ne_none _)
      have hget' := (hclear.others other hne).symm.trans hget
      have hm := h.listed other runtime p hget' hkind (isRuntimeAlive_of_lost hhost halive) hpid
      have hp := hspares other runtime hne hget' hkind halive
      exact mem_unregisterPid.mpr ⟨hm, fun he => hp (by rw [hpid]; exact congrArg some he)⟩
    · intro e he
      obtain ⟨hm, hp⟩ := mem_unregisterPid.mp he
      have hne : e.node ≠ node := fun hnode => hp (honly e hm hnode)
      obtain ⟨runtime, hget, hrest⟩ := h.current e hm
      exact ⟨runtime, (hclear.others e.node hne).trans hget, hrest⟩

/-- A pid that is registered along with the record of its node. -/
theorem registered_agree_iff {world next : PidWorld} {node : NodeKey} {pid : Pid}
    (h : PidsAgree world) (hclear : Cleared world next node) {host : HostView}
    {runtime : RuntimeRec} (hpid : runtime.pid = some pid) (hkind : runtime.kind ≠ .dynamips) :
    PidsAgree ⟨host, registerPid world.pids ⟨pid, runtime.kind, node⟩,
        next.records.set node runtime⟩ ↔
      world.OnlyEntry node pid ∧ world.SparesOthers host node pid ∧
        world.OthersListed host node := by
  have hothers : ∀ other, other ≠ node →
      (next.records.set node runtime).get? other = world.records.get? other := by
    intro other hne
    rw [Dict.get?_set_ne _ _ (fun he => hne he.symm)]
    exact hclear.others other hne
  constructor
  · intro hnext
    refine ⟨?_, ?_, ?_⟩
    · intro e he hnode
      by_contra hne
      obtain ⟨r, hget, hp, _⟩ := hnext.current e (mem_registerPid.mpr (Or.inl ⟨he, hne⟩))
      rw [hnode] at hget
      have hr : r = runtime := Option.some.inj (hget.symm.trans (Dict.get?_set_self _ _ _))
      rw [hr, hpid] at hp
      exact hne (Option.some.inj hp).symm
    · intro other r hne hget hk halive hp
      have hm := hnext.listed other r pid ((hothers other hne).trans hget) hk halive hp
      rcases mem_registerPid.mp hm with ⟨_, hfalse⟩ | he
      · exact hfalse rfl
      · exact hne (congrArg PidEntry.node he)
    · intro other r p hne hget hk halive hp
      have hm := hnext.listed other r p ((hothers other hne).trans hget) hk halive hp
      rcases mem_registerPid.mp hm with ⟨hm, _⟩ | he
      · exact hm
      · exact absurd (congrArg PidEntry.node he) hne
  · rintro ⟨honly, hspares, hlisted⟩
    refine ⟨registerPid_nodup _ h.unique, ?_, ?_, ?_⟩
    · intro e he
      rcases mem_registerPid.mp he with ⟨hm, _⟩ | rfl
      · exact h.known e hm
      · exact hkind
    · intro other r p hget hk halive hp
      by_cases hne : other = node
      · subst hne
        have hr : r = runtime := Option.some.inj (hget.symm.trans (Dict.get?_set_self _ _ _))
        subst hr
        have he : p = pid := Option.some.inj (hp.symm.trans hpid)
        exact mem_registerPid.mpr (Or.inr (by rw [he]))
      · have hget' := (hothers other hne).symm.trans hget
        have hm := hlisted other r p hne hget' hk halive hp
        have hspare := hspares other r hne hget' hk halive
        refine mem_registerPid.mpr (Or.inl ⟨hm, ?_⟩)
        intro he
        exact hspare (hp.trans (congrArg some he))
    · intro e he
      rcases mem_registerPid.mp he with ⟨hm, hp⟩ | rfl
      · have hne : e.node ≠ node := fun hnode => hp (honly e hm hnode)
        obtain ⟨r, hget, hrest⟩ := h.current e hm
        exact ⟨r, (hothers e.node hne).trans hget, hrest⟩
      · exact ⟨runtime, Dict.get?_set_self _ _ _, hpid, rfl⟩

end NovaVe
