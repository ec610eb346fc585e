import NovaVe.PidAgreement

namespace NovaVe

theorem unregister_registerPid (entries : List PidEntry) (entry : PidEntry) :
    unregisterPid (registerPid entries entry) (some entry.pid) =
      unregisterPid entries (some entry.pid) := by
  simp [registerPid, unregisterPid, List.filter_append, List.filter_filter]

theorem HostView.lost_self (host : HostView) : host.Lost host :=
  ⟨rfl, fun _ h => h, fun _ h => h, fun _ h => h⟩

theorem HostView.lost_halted (host : HostView) (runtime : RuntimeRec) :
    host.Lost (host.halted runtime) :=
  ⟨rfl, List.filter_subset_self _, List.filter_subset_self _, List.filter_subset_self _⟩

theorem HostView.lost_exited (host : HostView) (container vm : String → Bool)
    (proc : Pid × Int → Bool) : host.Lost (host.exited container vm proc) :=
  ⟨rfl, List.filter_subset_self _, List.filter_subset_self _, List.filter_subset_self _⟩

theorem isRuntimeAlive_launched_vm (host : HostView) (pid : Pid) (createTime : Int) (name : String)
    {runtime : RuntimeRec} (hkind : runtime.kind ≠ .dynamips) :
    isRuntimeAlive (host.launched .dynamips pid createTime name) runtime =
      isRuntimeAlive host runtime := by
  unfold isRuntimeAlive
  cases hk : runtime.kind with
  | docker => rfl
  | qemu => rfl
  | iol => rfl
  | dynamips => exact absurd hk hkind

/-- A VM of the hypervisor is recorded without a pid. -/
theorem vm_agree_iff {world next : PidWorld} {node : NodeKey} (h : PidsAgree world)
    (hclear : Cleared world next node) (pid : Pid) (createTime : Int) (name : String) :
    PidsAgree ⟨world.host.launched .dynamips pid createTime name, world.pids,
        next.records.set node (launchedRecord .dynamips pid createTime name)⟩ ↔
      world.NoEntry node := by
  have hothers : ∀ other, other ≠ node →
      (next.records.set node (launchedRecord .dynamips pid createTime name)).get? other =
        world.records.get? other := by
    intro other hne
    rw [Dict.get?_set_ne _ _ (fun he => hne he.symm)]
    exact hclear.others other hne
  constructor
  · intro hnext e he hnode
    obtain ⟨runtime, hget, hpid, _⟩ := hnext.current e he
    rw [hnode] at hget
    have hr := Option.some.inj (hget.symm.trans (Dict.get?_set_self _ _ _))
    rw [hr] at hpid
    cases hpid
  · intro hnone
    refine ⟨h.unique, h.known, ?_, ?_⟩
    · intro other runtime p hget hkind halive hpid
      by_cases hne : other = node
      · rw [hne] at hget
        have hr := Option.some.inj (hget.symm.trans (Dict.get?_set_self _ _ _))
        exact absurd (hr ▸ rfl) hkind
      · rw [isRuntimeAlive_launched_vm _ _ _ _ hkind] at halive
        exact h.listed other runtime p ((hothers other hne).symm.trans hget) hkind halive hpid
    · intro e he
      obtain ⟨runtime, hget, hrest⟩ := h.current e he
      exact ⟨runtime, (hothers e.node (hnone e he)).trans hget, hrest⟩

theorem launchedRecord_kind (kind : NodeKind) (pid : Pid) (createTime : Int) (name : String) :
    (launchedRecord kind pid createTime name).kind = kind := by
  cases kind <;> rfl

theorem launchedRecord_pid {kind : NodeKind} (hkind : kind ≠ .dynamips) (pid : Pid)
    (createTime : Int) (name : String) :
    (launchedRecord kind pid createTime name).pid = some pid := by
  cases kind with
  | dynamips => exact absurd rfl hkind
  | docker => rfl
  | qemu => rfl
  | iol => rfl

/-- The start of a node without a live runtime. -/
theorem launch_agree_iff {world next : PidWorld} {node : NodeKey} (h : PidsAgree world)
    (hclear : Cleared world next node) (kind : NodeKind) (launch : Launch) :
    PidsAgree (next.launch node kind launch) ↔ world.LaunchOk node kind launch := by
  have hhost := hclear.host
  have hpids := hclear.pids
  cases launch with
  | refused => exact cleared_agree_iff h hclear
  | rolledBack pid =>
    dsimp only [PidWorld.launch, PidWorld.LaunchOk]
    by_cases hk : kind = .docker
    · rw [if_pos hk, if_pos hk]
      have heq := unregister_registerPid next.pids ⟨pid, kind, node⟩
      have hiff := @unregistered_agree_iff _ _ _ pid h hclear _ world.host.lost_self
      rw [heq, hpids]
      rw [← hhost] at hiff ⊢
      exact hiff
    · rw [if_neg hk, if_neg hk]
      exact cleared_agree_iff h hclear
  | abandoned pid =>
    dsimp only [PidWorld.launch, PidWorld.LaunchOk]
    by_cases hk : kind = .docker
    · rw [if_pos hk]
      refine iff_of_false ?_ (fun hok => hok.1 hk)
      intro hnext
      obtain ⟨runtime, hget, _⟩ := hnext.current _ (mem_registerPid.mpr (Or.inr rfl))
      exact absurd (hget.symm.trans hclear.gone) (Option.some_ne_none _)
    · rw [if_neg hk, cleared_agree_iff h hclear]
      exact ⟨fun hnone => ⟨hk, hnone⟩, fun hok => hok.2⟩
  | started pid createTime name =>
    dsimp only [PidWorld.launch, PidWorld.LaunchOk]
    by_cases hk : kind = .dynamips
    · subst hk
      rw [if_pos rfl, if_pos rfl, hhost, hpids]
      exact vm_agree_iff h hclear pid createTime name
    · rw [if_neg hk, if_neg hk, hhost, hpids]
      have hkind := launchedRecord_kind kind pid createTime name
      have hiff := @registered_agree_iff _ _ _ pid h hclear
        (world.host.launched kind pid createTime name) _
        (launchedRecord_pid hk pid createTime name) (by rw [hkind]; exact hk)
      rw [hkind] at hiff
      exact hiff

/-- The stop of a live runtime. -/
theorem stop_agree_iff {world : PidWorld} {node : NodeKey} {runtime : RuntimeRec}
    (h : PidsAgree world) (hget : world.records.get? node = some runtime) :
    PidsAgree ((world.stopRuntime runtime).deleteRuntime node) ↔
      (runtime.kind ≠ .dynamips → ∀ pid, runtime.pid = some pid →
        world.SparesOthers (world.host.halted runtime) node pid) := by
  have hown : ∀ e ∈ world.pids, e.node = node → runtime.pid = some e.pid ∧ runtime.kind = e.kind := by
    intro e he hnode
    obtain ⟨r, hr, hpid, hkind⟩ := h.current e he
    rw [hnode, hget] at hr
    cases hr
    exact ⟨hpid, hkind⟩
  have hclear := cleared_deleteRuntime world node
  have hlost := world.host.lost_halted runtime
  have hquiet : world.NoEntry node →
      PidsAgree { world.deleteRuntime node with host := world.host.halted runtime } := by
    intro hnone
    have hbase := (cleared_agree_iff h hclear).mpr hnone
    refine ⟨hbase.unique, hbase.known, ?_, hbase.current⟩
    intro other r p hr hkind halive hp
    exact hbase.listed other r p hr hkind (isRuntimeAlive_of_lost hlost halive) hp
  by_cases hk : runtime.kind = .dynamips
  · refine iff_of_true ?_ (fun hne => absurd hk hne)
    have hnone : world.NoEntry node := by
      intro e he hnode
      exact h.known e he ((hown e he hnode).2.symm.trans hk)
    have hworld : (world.stopRuntime runtime).deleteRuntime node =
        { world.deleteRuntime node with host := world.host.halted runtime } := by
      simp [PidWorld.stopRuntime, PidWorld.deleteRuntime, hk]
    rw [hworld]
    exact hquiet hnone
  · cases hp : runtime.pid with
    | none =>
      refine iff_of_true ?_ (fun _ pid hpid => absurd hpid (by simp))
      have hnone : world.NoEntry node := by
        intro e he hnode
        have hpid := (hown e he hnode).1
        rw [hp] at hpid
        cases hpid
      have hworld : (world.stopRuntime runtime).deleteRuntime node =
          { world.deleteRuntime node with host := world.host.halted runtime } := by
        simp [PidWorld.stopRuntime, PidWorld.deleteRuntime, unregisterPid, hp]
      rw [hworld]
      exact hquiet hnone
    | some pid =>
      have honly : world.OnlyEntry node pid := by
        intro e he hnode
        have hpid := (hown e he hnode).1
        rw [hp] at hpid
        exact (Option.some.inj hpid).symm
      have hworld : (world.stopRuntime runtime).deleteRuntime node =
          { world.deleteRuntime node with
            host := world.host.halted runtime
            pids := unregisterPid world.pids (some pid) } := by
        simp [PidWorld.stopRuntime, PidWorld.deleteRuntime, hk, hp]
      rw [hworld, unregistered_agree_iff h hclear hlost]
      constructor
      · rintro ⟨_, hspares⟩ _ p hpid
        cases hpid
        exact hspares
      · intro hspares
        exact ⟨honly, hspares hk pid rfl⟩

theorem adopt_agree_iff {world : PidWorld} {node : NodeKey} (h : PidsAgree world)
    (hget : world.records.get? node = none) (pid : Pid) (createTime : Int) :
    PidsAgree { world with
        pids := registerPid world.pids ⟨pid, .qemu, node⟩
        records := world.records.set node ⟨.qemu, some pid, some createTime, none, none⟩ } ↔
      world.SparesOthers world.host node pid := by
  have hiff := @registered_agree_iff _ _ _ pid h (cleared_self hget) world.host
    ⟨.qemu, some pid, some createTime, none, none⟩ rfl (by simp)
  refine hiff.trans ⟨fun hok => hok.2.1, fun hspares => ⟨?_, hspares, ?_⟩⟩
  · intro e he hnode
    obtain ⟨runtime, hr, _⟩ := h.current e he
    rw [hnode, hget] at hr
    cases hr
  · intro other runtime p _ hr hkind halive hp
    exact h.listed other runtime p hr hkind halive hp

/-- One operation keeps the agreement exactly when its condition holds. -/
theorem step_agree_iff {world : PidWorld} (h : PidsAgree world) (action : PidAction) :
    PidsAgree (world.step action) ↔ world.StepOk action := by
  cases action with
  | exits container vm proc =>
    refine iff_of_true ⟨h.unique, h.known, ?_, h.current⟩ trivial
    intro node runtime pid hget hkind halive hpid
    have hlost := world.host.lost_exited container vm proc
    exact h.listed node runtime pid hget hkind (isRuntimeAlive_of_lost hlost halive) hpid
  | notice node =>
    show PidsAgree (world.runtimeRecord node).2 ↔ _
    rcases runtimeRecord_cases world node with ⟨runtime, hget, halive, hread⟩ |
      ⟨next, hread, hclear, hdead⟩
    · rw [hread]
      refine iff_of_true h ?_
      intro other hother hfalse
      rw [hget] at hother
      cases hother
      rw [halive] at hfalse
      cases hfalse
    · rw [hread]
      refine (cleared_agree_iff h hclear).trans ⟨fun hnone _ _ _ => hnone, ?_⟩
      intro hok
      cases hget : world.records.get? node with
      | none => exact (cleared_agree_iff h (cleared_self hget)).mp h
      | some runtime => exact hok runtime hget (hdead runtime hget)
  | heartbeat node written =>
    dsimp only [PidWorld.step]
    cases hget : world.records.get? node with
    | none => exact iff_of_true h (fun runtime hr => absurd (hget.symm.trans hr) (by simp))
    | some runtime =>
      dsimp only
      by_cases hc : checkAliveSync world.host runtime = some false ∧ written = true
      · rw [if_pos hc, cleared_agree_iff h (cleared_deleteRuntime world node)]
        refine ⟨fun hnone _ _ _ _ => hnone, fun hok => hok runtime hget hc.1 hc.2⟩
      · rw [if_neg hc]
        refine iff_of_true h ?_
        intro other hother hcheck hwritten
        rw [hget] at hother
        cases hother
        exact absurd ⟨hcheck, hwritten⟩ hc
  | start node kind launch =>
    dsimp only [PidWorld.step, PidWorld.StepOk]
    rcases runtimeRecord_cases world node with ⟨runtime, hget, halive, hread⟩ |
      ⟨next, hread, hclear, hdead⟩
    · rw [hread]
      exact iff_of_true h (Or.inl ⟨runtime, hget, halive⟩)
    · rw [hread]
      refine (launch_agree_iff h hclear kind launch).trans ⟨Or.inr, ?_⟩
      rintro (⟨runtime, hget, halive⟩ | hok)
      · rw [hdead runtime hget] at halive
        cases halive
      · exact hok
  | stop node signalled =>
    dsimp only [PidWorld.step, PidWorld.StepOk]
    rcases runtimeRecord_cases world node with ⟨runtime, hget, halive, hread⟩ |
      ⟨next, hread, hclear, hdead⟩
    · rw [hread]
      have hcond : (∀ other, world.records.get? node = some other →
          if isRuntimeAlive world.host other = true then
            signalled = true → other.kind ≠ .dynamips → ∀ pid, other.pid = some pid →
              world.SparesOthers (world.host.halted other) node pid
          else world.NoEntry node) ↔
          (signalled = true → runtime.kind ≠ .dynamips → ∀ pid, runtime.pid = some pid →
            world.SparesOthers (world.host.halted runtime) node pid) := by
        constructor
        · intro hall
          have hown := hall runtime hget
          rwa [if_pos halive] at hown
        · intro hown other hother
          rw [hget] at hother
          cases hother
          rwa [if_pos halive]
      rw [hcond]
      dsimp only
      cases signalled with
      | true =>
        rw [if_pos rfl, stop_agree_iff h hget]
        exact ⟨fun hok _ => hok, fun hok => hok rfl⟩
      | false => exact iff_of_true h (fun hfalse => absurd hfalse (by decide))
    · rw [hread]
      refine (cleared_agree_iff h hclear).trans ⟨?_, ?_⟩
      · intro hnone runtime hget
        rw [if_neg (by rw [hdead runtime hget]; decide)]
        exact hnone
      · intro hok
        cases hget : world.records.get? node with
        | none => exact (cleared_agree_iff h (cleared_self hget)).mp h
        | some runtime =>
          have hown := hok runtime hget
          rwa [if_neg (by rw [hdead runtime hget]; decide)] at hown
  | adopt node pid createTime =>
    dsimp only [PidWorld.step, PidWorld.StepOk]
    cases hget : world.records.get? node with
    | some runtime => exact iff_of_true h (fun hnone => absurd hnone (by simp))
    | none => exact (adopt_agree_iff h hget pid createTime).trans ⟨fun hok _ => hok, fun hok => hok rfl⟩

/-- Each operation of the run meets its condition in the state it finds. -/
def PidWorld.StepsOk (world : PidWorld) : List PidAction → Prop
  | [] => True
  | action :: rest => world.StepOk action ∧ (world.step action).StepsOk rest

theorem runs_agree_iff {world : PidWorld} (h : PidsAgree world) (actions : List PidAction) :
    (∀ n, PidsAgree (world.run (actions.take n))) ↔ world.StepsOk actions := by
  induction actions generalizing world with
  | nil => exact iff_of_true (fun n => by simpa [PidWorld.run] using h) trivial
  | cons action rest ih =>
    constructor
    · intro hall
      have hnext : PidsAgree (world.step action) := hall 1
      refine ⟨(step_agree_iff h action).mp hnext, (ih hnext).mp ?_⟩
      intro n
      exact hall (n + 1)
    · rintro ⟨hok, hrest⟩ n
      have hnext := (step_agree_iff h action).mpr hok
      cases n with
      | zero => exact h
      | succ n => exact (ih hnext).mpr hrest n

/-- `pids.json` and the records agree after every operation of a run exactly when each of its
operations meets its condition; the helper then authorizes the pids of current records only. -/
theorem pids_agree_iff {world : PidWorld} (h : PidsAgree world) (actions : List PidAction) :
    ((∀ n, PidsAgree (world.run (actions.take n))) ↔ world.StepsOk actions) ∧
      (world.StepsOk actions → ∀ n pid e,
        registryLookup (world.run (actions.take n)).pids pid = some e →
          ∃ runtime, (world.run (actions.take n)).records.get? e.node = some runtime ∧
            runtime.pid = some pid ∧ runtime.kind = e.kind) := by
  have hruns := runs_agree_iff h actions
  refine ⟨hruns, ?_⟩
  intro hok n pid e hlookup
  have hagree := hruns.mpr hok n
  obtain ⟨he, rfl⟩ := (hagree.lookup pid e).mp hlookup
  exact hagree.current e he

def onePid : Pid := ⟨4242, Nat.succ_pos 4241⟩

def idleHost : PidWorld := ⟨⟨true, [], [], []⟩, [], Dict.empty⟩

/-- A QEMU node is started, its process exits, and the record is read. -/
def lostProcess : List PidAction :=
  [.start ("lab", 1) .qemu (.started onePid 1000 "q"),
    .exits (fun _ => true) (fun _ => true) (fun _ => false), .notice ("lab", 1)]

theorem idleHost_agrees : PidsAgree idleHost := by
  refine ⟨List.nodup_nil, fun e he => absurd he List.not_mem_nil, ?_,
    fun e he => absurd he List.not_mem_nil⟩
  intro node runtime pid hget
  cases hget

/-- A docker node and a dynamips node that run. -/
def mixedHost : PidWorld where
  host := ⟨true, ["c2"], ["R3"], [(⟨77, by omega⟩, 500)]⟩
  pids := [⟨⟨77, by omega⟩, .docker, ("lab", 2)⟩]
  records := (Dict.empty.set ("lab", 2) ⟨.docker, some ⟨77, by omega⟩, some 500, some "c2", none⟩).set
    ("lab", 3) ⟨.dynamips, none, none, none, some "R3"⟩

/-- A QEMU node is started, the VM of the dynamips node goes away and its record is read, and both
other nodes are stopped. -/
def mixedRun : List PidAction :=
  [.start ("lab", 1) .qemu (.started onePid 1000 "q"),
    .exits (fun _ => true) (fun _ => false) (fun _ => true), .notice ("lab", 3),
    .stop ("lab", 1) true, .stop ("lab", 2) true]

theorem mixedHost_listed {node : NodeKey} {runtime : RuntimeRec} {pid : Pid}
    (hget : mixedHost.records.get? node = some runtime) (hkind : runtime.kind ≠ .dynamips)
    (hpid : runtime.pid = some pid) : ⟨pid, runtime.kind, node⟩ ∈ mixedHost.pids := by
  have hall : ∀ entry ∈ mixedHost.records.entries, entry.2.kind = .dynamips ∨
      ∀ e ∈ entry.2.pid, ⟨e, entry.2.kind, entry.1⟩ ∈ mixedHost.pids := by decide
  rcases hall _ (Dict.mem_entries_of_get? hget) with hdynamips | hlisted
  · exact absurd hdynamips hkind
  · exact hlisted pid hpid

theorem mixedHost_agrees : PidsAgree mixedHost :=
  ⟨by decide, by decide, fun _ _ _ hget hkind _ hpid => mixedHost_listed hget hkind hpid, by decide⟩

/-- Whether a pid is spared is read off the entries of the records. -/
theorem sparesOthers_of_entries {world : PidWorld} {host : HostView} {node : NodeKey} {pid : Pid}
    (h : ∀ entry ∈ world.records.entries, entry.1 = node ∨ entry.2.pid ≠ some pid) :
    world.SparesOthers host node pid := by
  intro other runtime hne hget _ _
  rcases h _ (Dict.mem_entries_of_get? hget) with heq | hpid
  · exact absurd heq hne
  · exact hpid

theorem mixed_run_agrees :
    PidsAgree (mixedHost.run (mixedRun.take 3)) ∧
      (mixedHost.run (mixedRun.take 3)).records.get? ("lab", 3) = none ∧
      registryLookup (mixedHost.run (mixedRun.take 3)).pids onePid =
        some ⟨onePid, .qemu, ("lab", 1)⟩ ∧
      PidsAgree (mixedHost.run (mixedRun.take 5)) ∧ (mixedHost.run (mixedRun.take 5)).pids = [] := by
  have hok : mixedHost.StepsOk mixedRun := by
    refine ⟨Or.inr ⟨?_, sparesOthers_of_entries (by decide), ?_⟩, trivial, ?_, ?_, ?_, trivial⟩
    · unfold PidWorld.OnlyEntry
      decide
    · intro other runtime pid _ hget hkind _ hpid
      exact mixedHost_listed hget hkind hpid
    · intro runtime _ _
      unfold PidWorld.NoEntry
      decide
    · intro runtime hget
      obtain rfl := Option.some.inj hget
      rw [if_pos (by decide)]
      intro _ _ pid hpid
      obtain rfl := Option.some.inj hpid
      exact sparesOthers_of_entries (by decide)
    · intro runtime hget
      obtain rfl := Option.some.inj hget
      rw [if_pos (by decide)]
      intro _ _ pid hpid
      obtain rfl := Option.some.inj hpid
      exact sparesOthers_of_entries (by decide)
  have hagree := (pids_agree_iff mixedHost_agrees mixedRun).1.mpr hok
  exact ⟨hagree 3, by decide, by decide, hagree 5, by decide⟩

theorem lost_process_stays_authorized :
    ¬ ∀ (world : PidWorld) (actions : List PidAction), PidsAgree world →
      ∀ n, PidsAgree (world.run (actions.take n)) := by
  intro h
  have hagree := h idleHost lostProcess idleHost_agrees 3
  have hentry : (⟨onePid, .qemu, ("lab", 1)⟩ : PidEntry) ∈
      (idleHost.run (lostProcess.take 3)).pids := by decide
  have hrecord : (idleHost.run (lostProcess.take 3)).records.get? ("lab", 1) = none := by decide
  obtain ⟨runtime, hget, _⟩ := hagree.current _ hentry
  exact absurd (hget.symm.trans hrecord) (Option.some_ne_none _)

end NovaVe
