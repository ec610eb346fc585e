import Mathlib.Data.List.Basic
import NovaVe.Lab
import NovaVe.QemuInterface

namespace NovaVe

/-- The attachment record of phase 1. -/
def expectedRecord (source : NicSource) (nodeId interfaceIndex : Int) (want : Expected) :
    Attachment :=
  { interfaceIndex := interfaceIndex, networkId := want.networkId, bridgeName := want.bridgeName
    port := some (.tap nodeId interfaceIndex), bootNic := true
    nicModel := some (source.nicModel nodeId), attachGeneration := some want.attachGeneration
    plannedMac := some (source.plannedMac nodeId interfaceIndex) }

/-- Replace the first entry of an interface, or add one. -/
def setEntry (attachments : List Attachment) (new : Attachment) : List Attachment :=
  match attachments with
  | [] => [new]
  | entry :: rest =>
    if entry.interfaceIndex = new.interfaceIndex then new :: rest else entry :: setEntry rest new

/-- The record after phase 1 has applied an index; the counter is set, not bumped. -/
def NodeRuntime.withExpected (runtime : NodeRuntime) (source : NicSource) (nodeId : Int)
    (wanted : Int × Expected) : NodeRuntime :=
  { runtime with
    attachments := setEntry runtime.attachments (expectedRecord source nodeId wanted.1 wanted.2)
    generations := runtime.generations.set wanted.1 wanted.2.attachGeneration
    tapNames := addPort runtime.tapNames (.tap nodeId wanted.1) }

/-- The host part of phase 1 for one index; `false` when a helper failed. -/
def applyExpectedHost (qmpSocket : Bool) (nodeId : Int) (wanted : Int × Expected) : HostM Bool :=
  tryCatch (do
    let tap := Port.tap nodeId wanted.1
    let there ← tapExists tap
    if !there then run (.tapAdd tap)
    linkMasterAny tap wanted.2.bridgeName wanted.2.driver
    run (.linkUp tap)
    if qmpSocket then swallow (run (.setLink nodeId wanted.1 true))
    pure true)
    (fun e => if e.isHostNet then pure false else throw e)

def applyExpected (source : NicSource) (qmpSocket : Bool) (nodeId : Int) (wanted : Int × Expected) :
    HostM Unit := do
  if ← applyExpectedHost qmpSocket nodeId wanted then
    editRuntime nodeId (fun r => r.withExpected source nodeId wanted)

/-- Carrier off and no master, both best-effort; only a `HostNetError` of the second is dropped. -/
def pinDown (qmpSocket : Bool) (nodeId interfaceIndex : Int) (tap : Port) : HostM Unit := do
  if qmpSocket then swallow (run (.setLink nodeId interfaceIndex false))
  tryCatch (run (.linkNomaster tap)) (fun e => if e.isHostNet then pure () else throw e)

/-- The indices that phase 2 leaves to phase 3: the flagged entries of boot NICs. -/
def recordedBootIndices (runtime : NodeRuntime) : List Int :=
  (runtime.attachments.filter (fun entry =>
    entry.bootNic && decide (entry.interfaceIndex < runtime.bootEthernet))).map
      Attachment.interfaceIndex

/-- The entries that phase 3 tears down, out of those that were there before phase 1. -/
def toRemove (expected : Dict Int Expected) (runtime : NodeRuntime) : List Attachment :=
  runtime.attachments.filter (fun entry =>
    (expected.get? entry.interfaceIndex).isNone && entry.bootNic &&
      decide (entry.interfaceIndex < runtime.bootEthernet))

def NodeRuntime.withoutInterface (runtime : NodeRuntime) (interfaceIndex : Int) : NodeRuntime :=
  { runtime with
    attachments := runtime.attachments.filter (fun entry => !onInterface interfaceIndex entry) }

def tearDown (qmpSocket : Bool) (nodeId : Int) (entry : Attachment) : HostM Unit := do
  pinDown qmpSocket nodeId entry.interfaceIndex
    (entry.port.getD (.tap nodeId entry.interfaceIndex))
  editRuntime nodeId (fun r => r.withoutInterface entry.interfaceIndex)

/-- The boot indices that phase 2 pins down. -/
def unlinkedIndices (expected : Dict Int Expected) (runtime : NodeRuntime) : List Int :=
  ((List.range runtime.bootEthernet.toNat).map (fun (i : Nat) => (i : Int))).filter (fun i =>
    (expected.get? i).isNone && !(recordedBootIndices runtime).contains i)

/-- `_reconcile_qemu_node_links_locked`. -/
def reconcileLocked (source : NicSource) (bridgeName : String → Int → String) (lab : Lab)
    (nodeId : Int) : HostM Unit := do
  match ← runtimeRecord nodeId false with
  | none => pure ()
  | some runtime =>
    if runtime.kind = .qemu then do
      let expected := expectedAttachments bridgeName lab nodeId runtime.bootEthernet
      expected.entries.forM (applyExpected source runtime.qmpSocket nodeId)
      let w ← get
      let applied := (w.runtimes.get? nodeId).getD runtime
      (unlinkedIndices expected applied).forM
        (fun i => pinDown runtime.qmpSocket nodeId i (.tap nodeId i))
      (toRemove expected runtime).forM (tearDown runtime.qmpSocket nodeId)

/-- `reconcile_qemu_node_links`: the node mutex first. -/
def reconcileQemuNodeLinks (source : NicSource) (bridgeName : String → Int → String) (lab : Lab)
    (nodeId : Int) : HostM Unit := do
  run (.nodeMutex nodeId)
  reconcileLocked source bridgeName lab nodeId

/-- The record of a node and the host: what a reconcile of the node is about. -/
def World.view (nodeId : Int) (runtime : NodeRuntime) (w : World) : NodeRuntime × Host :=
  ((w.runtimes.get? nodeId).getD runtime, w.host)

/-- Every coming command goes through, and only the record of the node may differ from the base. -/
def World.Calm (nodeId : Int) (base : Dict Int NodeRuntime) (w : World) : Prop :=
  w.replies = [] ∧ ∃ r, w.runtimes = base.set nodeId r

theorem World.Calm.after {nodeId : Int} {base : Dict Int NodeRuntime} {w : World}
    (h : w.Calm nodeId base) (command : HostCall) : (w.after command).Calm nodeId base :=
  ⟨World.after_replies h.1 command, h.2⟩

theorem World.Calm.editRuntime {nodeId : Int} {base : Dict Int NodeRuntime} {w : World}
    (h : w.Calm nodeId base) (runtime : NodeRuntime) (f : NodeRuntime → NodeRuntime) :
    (w.editRuntime nodeId f).Calm nodeId base ∧
      (w.editRuntime nodeId f).view nodeId runtime = (f (w.view nodeId runtime).1, w.host) := by
  obtain ⟨hw, r, hr⟩ := h
  have hedit : (w.editRuntime nodeId f).runtimes = base.set nodeId (f r) := by
    unfold World.editRuntime
    rw [hr, Dict.modify_set]
  refine ⟨⟨hw, f r, hedit⟩, ?_⟩
  unfold World.view
  rw [hedit, hr, Dict.get?_set_self, Dict.get?_set_self]
  rfl

/-- The host after phase 1 has put an interface on its bridge. -/
def linkedHost (nodeId : Int) (host : Host) (wanted : Int × Expected) : Host :=
  let tap := Port.tap nodeId wanted.1
  let there := if (host.ports.get? tap).isSome then host else (HostCall.tapAdd tap).effect host
  let up := (HostCall.linkUp tap).effect
    ((HostCall.linkMaster tap wanted.2.bridgeName).effect there)
  (HostCall.setLink nodeId wanted.1 true).effect up

def pinnedHost (nodeId : Int) (host : Host) (interfaceIndex : Int) : Host :=
  (HostCall.linkNomaster (.tap nodeId interfaceIndex)).effect
    ((HostCall.setLink nodeId interfaceIndex false).effect host)

theorem linkedHost_ports (nodeId : Int) (host : Host) (wanted : Int × Expected) (port : Port) :
    (linkedHost nodeId host wanted).ports.get? port =
      if port = .tap nodeId wanted.1 then some { master := some wanted.2.bridgeName, up := true }
      else host.ports.get? port := by
  unfold linkedHost
  simp only [HostCall.effect, Host.editPort, Dict.get?_modify, eq_comm]
  cases hs : host.ports.get? (Port.tap nodeId wanted.1) with
  | none =>
    by_cases hp : port = .tap nodeId wanted.1
    · simp [hp]
    · simp [hp, Dict.get?_set_ne _ _ (Ne.symm hp)]
  | some state =>
    by_cases hp : port = .tap nodeId wanted.1
    · simp [hp, hs]
    · simp [hp]

theorem linkedHost_carrier (nodeId : Int) (host : Host) (wanted : Int × Expected) (key : Int × Int) :
    (linkedHost nodeId host wanted).carrier.get? key =
      if key = (nodeId, wanted.1) then some true else host.carrier.get? key := by
  unfold linkedHost
  simp only [HostCall.effect, Host.editPort, Dict.get?_set, eq_comm]
  cases hs : host.ports.get? (Port.tap nodeId wanted.1) <;> simp

theorem pinnedHost_ports (nodeId : Int) (host : Host) (i : Int) (port : Port) :
    (pinnedHost nodeId host i).ports.get? port =
      if port = .tap nodeId i then (host.ports.get? port).map (fun s => { s with master := none })
      else host.ports.get? port := by
  simp only [pinnedHost, HostCall.effect, Host.editPort, Dict.get?_modify, eq_comm]

theorem pinnedHost_carrier (nodeId : Int) (host : Host) (i : Int) (key : Int × Int) :
    (pinnedHost nodeId host i).carrier.get? key =
      if key = (nodeId, i) then some false else host.carrier.get? key := by
  simp only [pinnedHost, HostCall.effect, Host.editPort, Dict.get?_set, eq_comm]

/-- Under which `link_master_any` does not refuse the bridge. -/
def Expected.Permitted (want : Expected) : Prop :=
  isHostBridgeName want.bridgeName = true → want.driver = some "bridge_cloud"

theorem ends_linkMasterAny {w : World} (h : w.replies = []) (port : Port) {bridge : String}
    {driver : Option String} (hd : isHostBridgeName bridge = true → driver = some "bridge_cloud")
    (returns : Unit → World → Prop) (raises : Exc → World → Prop) :
    Ends (linkMasterAny port bridge driver) w returns raises ↔
      returns () (w.after (.linkMaster port bridge)) := by
  unfold linkMasterAny
  rw [if_neg (fun hr => hr.2 (hd hr.1)), ends_run_done h]

theorem ends_tapExists {w : World} (h : w.replies = []) (port : Port)
    (returns : Bool → World → Prop) (raises : Exc → World → Prop) :
    Ends (tapExists port) w returns raises ↔
      returns (w.host.ports.get? port).isSome (w.after (.tapExists port)) := by
  unfold tapExists
  simp only [ends_bind, ends_run_done h, ends_get, ends_pure, World.after_host h, HostCall.effect]

/-- Phase 1 on one index when everything goes through. -/
theorem applyExpected_ends {source : NicSource} {nodeId : Int} {wanted : Int × Expected}
    {base : Dict Int NodeRuntime} {w : World} (runtime : NodeRuntime) (hw : w.Calm nodeId base)
    (hp : wanted.2.Permitted) :
    Ends (applyExpected source true nodeId wanted) w
      (fun _ t => t.Calm nodeId base ∧ t.view nodeId runtime =
        ((w.view nodeId runtime).1.withExpected source nodeId wanted,
          linkedHost nodeId (w.view nodeId runtime).2 wanted))
      (fun _ _ => False) := by
  have h := hw.1
  let tap := Port.tap nodeId wanted.1
  have hhost : ∀ t : World, t.replies = [] → t.runtimes = w.runtimes →
      t.host = (if (w.host.ports.get? tap).isSome then w.host
        else (HostCall.tapAdd tap).effect w.host) →
      Ends (do
          linkMasterAny tap wanted.2.bridgeName wanted.2.driver
          run (.linkUp tap)
          swallow (run (.setLink nodeId wanted.1 true))
          pure true : HostM Bool) t
        (fun ok u => ok = true ∧ u.replies = [] ∧ u.runtimes = w.runtimes ∧
          u.host = linkedHost nodeId w.host wanted)
        (fun _ _ => False) := by
    intro t ht hrun hthere
    have h1 := World.after_replies ht (.linkMaster tap wanted.2.bridgeName)
    have h2 := World.after_replies h1 (.linkUp tap)
    simp only [ends_bind, ends_linkMasterAny ht tap hp, ends_run_done h1, ends_swallow,
      ends_run_done h2, ends_pure]
    refine ⟨trivial, World.after_replies h2 _, hrun, ?_⟩
    rw [World.after_host h2, World.after_host h1, World.after_host ht, hthere]
    rfl
  have hfirst : Ends (applyExpectedHost true nodeId wanted) w
      (fun ok u => ok = true ∧ u.replies = [] ∧ u.runtimes = w.runtimes ∧
        u.host = linkedHost nodeId w.host wanted) (fun _ _ => False) := by
    unfold applyExpectedHost
    have h0 := World.after_replies h (.tapExists tap)
    rw [ends_tryCatch, ends_bind, ends_tapExists h]
    cases hs : (w.host.ports.get? tap).isSome with
    | true =>
      refine (hhost (w.after (.tapExists tap)) h0 rfl ?_).mono (fun _ _ hu => hu)
        (fun _ _ he => he.elim)
      rw [World.after_host h, hs]
      rfl
    | false =>
      have h1 := World.after_replies h0 (.tapAdd tap)
      simp only [Bool.not_false, if_true]
      rw [ends_bind, ends_run_done h0]
      refine (hhost ((w.after (.tapExists tap)).after (.tapAdd tap)) h1 rfl ?_).mono
        (fun _ _ hu => hu) (fun _ _ he => he.elim)
      rw [World.after_host h0, World.after_host h, hs]
      rfl
  unfold applyExpected
  rw [ends_bind]
  refine hfirst.mono ?_ (fun _ _ he => he)
  rintro ok u ⟨rfl, hu, hrun, hhostu⟩
  have hcalm : u.Calm nodeId base := ⟨hu, by rw [hrun]; exact hw.2⟩
  obtain ⟨hafter, hview⟩ :=
    hcalm.editRuntime runtime (fun r => r.withExpected source nodeId wanted)
  refine ⟨hafter, ?_⟩
  rw [hview]
  simp only [World.view, hrun, hhostu]

theorem pinDown_ends {nodeId i : Int} {base : Dict Int NodeRuntime} {w : World}
    (runtime : NodeRuntime) (hw : w.Calm nodeId base) :
    Ends (pinDown true nodeId i (.tap nodeId i)) w
      (fun _ t => t.Calm nodeId base ∧ t.view nodeId runtime =
        ((w.view nodeId runtime).1, pinnedHost nodeId (w.view nodeId runtime).2 i))
      (fun _ _ => False) := by
  have h1 := hw.after (.setLink nodeId i false)
  unfold pinDown
  simp only [if_true, ends_bind, ends_swallow, ends_run_done hw.1, ends_tryCatch, ends_run_done h1.1]
  refine ⟨h1.after _, ?_⟩
  simp only [World.view, World.after_host h1.1, World.after_host hw.1, World.after_runtimes,
    pinnedHost]

theorem tearDown_ends {nodeId : Int} {entry : Attachment} {base : Dict Int NodeRuntime} {w : World}
    (runtime : NodeRuntime) (hw : w.Calm nodeId base) (hport : entry.port.getD (.tap nodeId entry.interfaceIndex) =
      .tap nodeId entry.interfaceIndex) :
    Ends (tearDown true nodeId entry) w
      (fun _ t => t.Calm nodeId base ∧ t.view nodeId runtime =
        ((w.view nodeId runtime).1.withoutInterface entry.interfaceIndex,
          pinnedHost nodeId (w.view nodeId runtime).2 entry.interfaceIndex))
      (fun _ _ => False) := by
  unfold tearDown
  rw [ends_bind, hport]
  refine (pinDown_ends runtime hw).mono ?_ (fun _ _ he => he)
  rintro _ t ⟨hcalm, hview⟩
  obtain ⟨hafter, hedit⟩ :=
    hcalm.editRuntime runtime (fun r => r.withoutInterface entry.interfaceIndex)
  have hhost : t.host = (t.view nodeId runtime).2 := rfl
  refine ⟨hafter, ?_⟩
  rw [hedit, hhost, hview]

/-- The record after phase 1. -/
def NodeRuntime.applied (runtime : NodeRuntime) (source : NicSource) (nodeId : Int)
    (expected : Dict Int Expected) : NodeRuntime :=
  expected.entries.foldl (fun r wanted => r.withExpected source nodeId wanted) runtime

/-- The record after the three phases. -/
def reconciledRecord (source : NicSource) (nodeId : Int) (expected : Dict Int Expected)
    (runtime : NodeRuntime) : NodeRuntime :=
  (toRemove expected runtime).foldl (fun r entry => r.withoutInterface entry.interfaceIndex)
    (runtime.applied source nodeId expected)

/-- The host after the three phases. -/
def reconciledHost (source : NicSource) (nodeId : Int) (expected : Dict Int Expected)
    (runtime : NodeRuntime) (host : Host) : Host :=
  (toRemove expected runtime).foldl (fun h entry => pinnedHost nodeId h entry.interfaceIndex)
    ((unlinkedIndices expected (runtime.applied source nodeId expected)).foldl (pinnedHost nodeId)
      (expected.entries.foldl (linkedHost nodeId) host))

theorem foldl_pair {α β γ : Type} (f : β → α → β) (g : γ → α → γ) (xs : List α) (b : β) (c : γ) :
    xs.foldl (fun s x => (f s.1 x, g s.2 x)) (b, c) = (xs.foldl f b, xs.foldl g c) := by
  induction xs generalizing b c with
  | nil => rfl
  | cons x rest ih => exact ih _ _

/-- What a record looks like between the calls of the code: a running QEMU with its QMP socket,
one entry an interface at most, on the TAP of that interface if it has any. -/
structure NodeRuntime.AsWritten (runtime : NodeRuntime) (nodeId : Int) : Prop where
  alive : runtime.alive = true
  kind : runtime.kind = .qemu
  qmpSocket : runtime.qmpSocket = true
  oneEntry : (runtime.attachments.map Attachment.interfaceIndex).Nodup
  port : ∀ entry ∈ runtime.attachments,
    entry.port = none ∨ entry.port = some (.tap nodeId entry.interfaceIndex)

/-- A reconcile when everything goes through, on a record as the code writes it. -/
theorem reconcileLocked_ends {source : NicSource} {bridgeName : String → Int → String} {lab : Lab}
    {nodeId : Int} {runtime : NodeRuntime} {w : World} (hw : w.replies = [])
    (hget : w.runtimes.get? nodeId = some runtime) (hwritten : runtime.AsWritten nodeId)
    (hpermit : ∀ wanted ∈ (expectedAttachments bridgeName lab nodeId runtime.bootEthernet).entries,
      wanted.2.Permitted) :
    Ends (reconcileLocked source bridgeName lab nodeId) w
      (fun _ t =>
        let expected := expectedAttachments bridgeName lab nodeId runtime.bootEthernet
        t.replies = [] ∧
        t.runtimes = w.runtimes.set nodeId (reconciledRecord source nodeId expected runtime) ∧
        t.host = reconciledHost source nodeId expected runtime w.host)
      (fun _ _ => False) := by
  have hcalm : w.Calm nodeId w.runtimes := ⟨hw, runtime, (Dict.set_get hget).symm⟩
  have hview : w.view nodeId runtime = (runtime, w.host) := by simp [World.view, hget]
  generalize hexp : expectedAttachments bridgeName lab nodeId runtime.bootEthernet = expected
    at hpermit
  unfold reconcileLocked runtimeRecord
  simp only [ends_bind, ends_get, hget, hwritten.alive, Bool.or_true, if_true, ends_pure,
    hwritten.kind, hwritten.qmpSocket, hexp]
  refine (ends_forM_fold (World.Calm nodeId w.runtimes) (World.view nodeId runtime)
    (fun s wanted => (s.1.withExpected source nodeId wanted, linkedHost nodeId s.2 wanted))
    (fun wanted hm s hs => applyExpected_ends runtime hs (hpermit wanted hm)) hcalm).mono ?_
    (fun _ _ he => he)
  rintro _ t ⟨htcalm, htview⟩
  rw [hview, foldl_pair (fun (r : NodeRuntime) wanted => r.withExpected source nodeId wanted)
    (linkedHost nodeId)] at htview
  have happlied : (t.runtimes.get? nodeId).getD runtime = runtime.applied source nodeId expected :=
    congrArg Prod.fst htview
  rw [happlied]
  refine (ends_forM_fold (World.Calm nodeId w.runtimes) (World.view nodeId runtime)
    (fun s i => (s.1, pinnedHost nodeId s.2 i))
    (fun i _ s hs => pinDown_ends runtime hs) htcalm).mono ?_ (fun _ _ he => he)
  rintro _ u ⟨hucalm, huview⟩
  rw [htview, foldl_pair (fun r _ => r) (pinnedHost nodeId), List.foldl_fixed] at huview
  have hremove : ∀ entry ∈ toRemove expected runtime,
      entry.port.getD (.tap nodeId entry.interfaceIndex) = .tap nodeId entry.interfaceIndex := by
    intro entry hm
    rcases hwritten.port entry (List.mem_filter.mp hm).1 with hp | hp <;> rw [hp] <;> rfl
  refine (ends_forM_fold (World.Calm nodeId w.runtimes) (World.view nodeId runtime)
    (fun s entry => (s.1.withoutInterface entry.interfaceIndex,
      pinnedHost nodeId s.2 entry.interfaceIndex))
    (fun entry hm s hs => tearDown_ends runtime hs (hremove entry hm)) hucalm).mono ?_
    (fun _ _ he => he)
  rintro _ v ⟨⟨hvreplies, r, hvr⟩, hvview⟩
  rw [huview, foldl_pair (fun (r : NodeRuntime) (entry : Attachment) =>
      r.withoutInterface entry.interfaceIndex)
    (fun h (entry : Attachment) => pinnedHost nodeId h entry.interfaceIndex)] at hvview
  unfold World.view at hvview
  rw [hvr, Dict.get?_set_self] at hvview
  obtain ⟨hrecord, hhost⟩ := Prod.mk.inj hvview
  refine ⟨hvreplies, ?_, hhost⟩
  rw [hvr]
  exact congrArg _ hrecord

end NovaVe
