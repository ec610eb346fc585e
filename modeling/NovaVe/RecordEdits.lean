import NovaVe.DeletionDetach
import NovaVe.WiringActions

namespace NovaVe

/-- The host ends that the record names are those of the node's own interfaces. -/
def NodeRuntime.OwnPorts (r : NodeRuntime) (nodeId : Int) : Prop :=
  ∀ e ∈ r.attachments, ∀ port, e.port = some port → port.interface = (nodeId, e.interfaceIndex)

def World.OwnPorts (w : World) : Prop :=
  ∀ m r, w.runtimes.get? m = some r → r.OwnPorts m

/-- What an operation on an interface may do to the record of its node. -/
structure NodeRuntime.Changes (r r' : NodeRuntime) (nodeId interfaceIndex : Int) : Prop where
  kind : r'.kind = r.kind
  alive : r'.alive = r.alive
  bootEthernet : r'.bootEthernet = r.bootEthernet
  others : ∀ e ∈ r'.attachments, e.interfaceIndex ≠ interfaceIndex → e ∈ r.attachments
  found : ∀ i, i ≠ interfaceIndex → r'.attachment? i = r.attachment? i
  generation : ∀ i, i ≠ interfaceIndex → r'.generation i = r.generation i
  ports : r.OwnPorts nodeId → r'.OwnPorts nodeId

/-- An operation that adds no entry. -/
structure NodeRuntime.Drops (r r' : NodeRuntime) (nodeId interfaceIndex : Int) : Prop extends
    r.Changes r' nodeId interfaceIndex where
  subset : ∀ e ∈ r'.attachments, e ∈ r.attachments

/-- A detach that was not stale. -/
structure NodeRuntime.Detached (r r' : NodeRuntime) (nodeId interfaceIndex : Int)
    (expectedGeneration : Option Int) : Prop extends r.Drops r' nodeId interfaceIndex where
  fresh : staleFor r interfaceIndex expectedGeneration = false

/-- An operation that adds the entry of the interface. -/
structure NodeRuntime.Adds (r r' : NodeRuntime) (nodeId interfaceIndex : Int) : Prop extends
    r.Changes r' nodeId interfaceIndex where
  free : r.attachment? interfaceIndex = none
  flagged : r.kind = .qemu → interfaceIndex < r.bootEthernet →
    ∀ e ∈ r'.attachments, e.interfaceIndex = interfaceIndex → e.bootNic = true

theorem not_onInterface_of_none {attachments : List Attachment} {i : Int}
    (h : attachments.find? (onInterface i) = none) {e : Attachment} (he : e ∈ attachments) :
    e.interfaceIndex ≠ i := by
  intro heq
  have hnot := List.find?_eq_none.mp h e he
  simp [onInterface, heq] at hnot

theorem bump_generation_other (r : NodeRuntime) {i j : Int} (hij : i ≠ j) :
    (r.bump j).generation i = r.generation i := by
  unfold NodeRuntime.bump NodeRuntime.generation
  dsimp only
  rw [Dict.get?_set, if_neg (Ne.symm hij)]

/-- A record with one more entry. -/
theorem adds_of_append {r r' : NodeRuntime} {nodeId i : Int} {entry : Attachment}
    (hattachments : r'.attachments = r.attachments ++ [entry]) (hindex : entry.interfaceIndex = i)
    (hport : ∀ port, entry.port = some port → port.interface = (nodeId, i))
    (hkind : r'.kind = r.kind) (halive : r'.alive = r.alive)
    (hboot : r'.bootEthernet = r.bootEthernet)
    (hgeneration : ∀ j, j ≠ i → r'.generation j = r.generation j)
    (hfree : r.attachment? i = none)
    (hflag : r.kind = .qemu → i < r.bootEthernet → entry.bootNic = true) : r.Adds r' nodeId i := by
  have hmem : ∀ e ∈ r'.attachments, e ∈ r.attachments ∨ e = entry := by
    intro e he
    rw [hattachments] at he
    exact (List.mem_append.mp he).imp id List.mem_singleton.mp
  refine ⟨⟨hkind, halive, hboot, ?_, ?_, hgeneration, ?_⟩, hfree, ?_⟩
  · intro e he hne
    rcases hmem e he with hold | rfl
    · exact hold
    · exact absurd hindex hne
  · intro j hj
    unfold NodeRuntime.attachment?
    rw [hattachments, List.find?_append]
    have hnot : [entry].find? (onInterface j) = none := by
      apply List.find?_eq_none.mpr
      intro e he
      rw [List.mem_singleton.mp he]
      simp [onInterface, hindex, Ne.symm hj]
    rw [hnot, Option.or_none]
  · intro hown e he port hp
    rcases hmem e he with hold | rfl
    · exact hown e hold port hp
    · rw [hindex]
      exact hport port hp
  · intro hqemu hlt e he heq
    rcases hmem e he with hold | rfl
    · exact absurd heq (not_onInterface_of_none hfree hold)
    · exact hflag hqemu hlt

/-- A record with fewer entries of the interface. -/
theorem drops_of_sublist {r r' : NodeRuntime} {nodeId i : Int}
    (hsub : ∀ e ∈ r'.attachments, e ∈ r.attachments)
    (hfound : ∀ j, j ≠ i → r'.attachment? j = r.attachment? j)
    (hkind : r'.kind = r.kind) (halive : r'.alive = r.alive)
    (hboot : r'.bootEthernet = r.bootEthernet)
    (hgeneration : ∀ j, j ≠ i → r'.generation j = r.generation j) : r.Drops r' nodeId i :=
  ⟨⟨hkind, halive, hboot, fun e he _ => hsub e he, hfound, hgeneration,
    fun hown e he => hown e (hsub e he)⟩, hsub⟩

theorem withDockerAttachment_adds {r : NodeRuntime} (nodeId networkId : Int) {i : Int} (bridge : String)
    (hkind : r.kind = .docker) (hfree : r.attachment? i = none) :
    r.Adds (r.withDockerAttachment nodeId networkId i bridge) nodeId i := by
  refine adds_of_append rfl rfl ?_ rfl rfl rfl ?_ hfree ?_
  · intro port hport
    rw [← Option.some.inj hport]
    rfl
  · intro j hj
    exact bump_generation_other r hj
  · intro hqemu
    rw [hkind] at hqemu
    cases hqemu

theorem qemuAttached_adds {r r' : NodeRuntime} {source : NicSource} {nodeId networkId i : Int}
    {bridge : String} (h : r.QemuAttached r' source nodeId networkId i bridge)
    (hfree : r.attachment? i = none) : r.Adds r' nodeId i := by
  have hport : ∀ port, some (Port.tap nodeId i) = some port → port.interface = (nodeId, i) := by
    intro port hp
    rw [← Option.some.inj hp]
    rfl
  rcases h with ⟨hlt, rfl⟩ | ⟨hge, slot, _, rfl⟩
  · refine adds_of_append rfl rfl hport rfl rfl rfl (fun j hj => bump_generation_other r hj) hfree ?_
    intro _ _
    exact decide_eq_true hlt
  · refine adds_of_append rfl rfl hport rfl rfl rfl
      (fun j hj => bump_generation_other (r.reserveSlot slot) hj) hfree ?_
    intro _ hlt
    omega

theorem dockerGone_drops {r r' : NodeRuntime} {nodeId i : Int} {entry : Attachment}
    (h : dockerGone nodeId i r entry r') : r.Drops r' nodeId i := by
  rw [h]
  exact drops_of_sublist (fun e he => List.mem_of_mem_eraseP he)
    (fun j hj => find?_eraseP_other hj) rfl rfl rfl (fun _ _ => rfl)

theorem qemuGone_drops {r r' : NodeRuntime} {nodeId i : Int} {entry : Attachment}
    (h : qemuGone nodeId i r entry r') : r.Drops r' nodeId i := by
  obtain ⟨forced, rfl⟩ := h
  exact drops_of_sublist (fun e he => List.mem_of_mem_eraseP he)
    (fun j hj => find?_eraseP_other hj) rfl rfl rfl (fun j hj => bump_generation_other _ hj)

theorem rolledBack_drops (r : NodeRuntime) (kind : RuntimeKind) (nodeId i : Int) :
    r.Drops (r.rolledBack kind nodeId i) nodeId i := by
  have hattachments := rolledBack_attachments r kind nodeId i
  refine drops_of_sublist ?_ ?_ ?_ ?_ ?_ ?_
  · intro e he
    rw [hattachments] at he
    exact (List.mem_filter.mp he).1
  · intro j hj
    have hfound := withoutInterface_attachment? r i j
    rw [if_neg (Ne.symm hj)] at hfound
    unfold NodeRuntime.attachment? at hfound ⊢
    rw [hattachments]
    exact hfound
  all_goals
    unfold NodeRuntime.rolledBack
    split <;> intros <;> rfl

/-- The registry after an operation on one node: nothing changed there, or its record did. -/
def World.Edits (w t : World) (nodeId : Int) (step : NodeRuntime → NodeRuntime → Prop) : Prop :=
  Untouched w t nodeId ∨
    ∃ r r', w.runtimes.get? nodeId = some r ∧ step r r' ∧ t.runtimes = w.runtimes.set nodeId r'

theorem AttachDone.edits {w t : World} {nodeId networkId i : Int} {generation : Option Int}
    {new step : NodeRuntime → NodeRuntime → Prop}
    (h : AttachDone w t nodeId networkId i generation new)
    (hnew : ∀ r r', r.attachment? i = none → new r r' → step r r') : w.Edits t nodeId step := by
  obtain ⟨r, hget, _, hcase⟩ := h
  rcases hcase with ⟨_, _, _, _, hsame⟩ | ⟨hnone, _, r', hr', hset⟩
  · exact Or.inl (Or.inl hsame)
  · exact Or.inr ⟨r, r', hget, hnew r r' hnone hr', hset⟩

theorem DetachDone.edits {w t : World} {nodeId i : Int} {expectedGeneration : Option Int}
    {state : DetachState} {there : NodeRuntime → Prop} {step : NodeRuntime → NodeRuntime → Prop}
    {gone : NodeRuntime → Attachment → NodeRuntime → Prop}
    (h : DetachDone w t nodeId i expectedGeneration state there gone)
    (hgone : ∀ r entry r', staleFor r i expectedGeneration = false → gone r entry r' → step r r') :
    w.Edits t nodeId step := by
  rcases h with ⟨_, hsame, _⟩ | ⟨r, entry, hget, _, _, hcase⟩
  · exact Or.inl (Or.inl hsame)
  · rcases hcase with ⟨_, _, hsame⟩ | ⟨_, hfresh, r', hr', hset⟩
    · exact Or.inl (Or.inl hsame)
    · exact Or.inr ⟨r, r', hget, hgone r entry r' hfresh hr', hset⟩

theorem RolledBack.edits {w t : World} {nodeId : Int} {back : NodeRuntime → NodeRuntime}
    {step : NodeRuntime → NodeRuntime → Prop} (h : RolledBack w t nodeId back)
    (hback : ∀ r, step r (back r)) : w.Edits t nodeId step := by
  unfold RolledBack at h
  cases hget : w.runtimes.get? nodeId with
  | none =>
    rw [hget] at h
    exact Or.inl (Or.inl h)
  | some r =>
    rw [hget] at h
    dsimp only at h
    split at h
    next => exact Or.inr ⟨r, back r, hget, hback r, h⟩
    next hdead => exact Or.inl (Or.inr ⟨r, hget, by simpa using hdead, h⟩)

theorem rollbackTarget_edits {ok : HostCall → Prop} {rel : World → World → Prop} (h : Workings ok rel)
    {m j : Int} (kind : RuntimeKind) {w : World} (hok : OkAt ok m j none) :
    Ends (rollbackTarget kind m j) w
      (fun _ t => rel w t ∧ w.Edits t m (fun r r' => r.Drops r' m j))
      (fun _ t => rel w t ∧ w.Edits t m (fun r r' => r.Drops r' m j)) := by
  refine (rollbackTarget_spec h kind hok).mono ?_ ?_
  · intro _ t ht
    exact ⟨ht.1, ht.2.edits (fun r => rolledBack_drops r kind m j)⟩
  · intro _ t ht
    exact ⟨ht.1, Or.inl (Or.inl ht.2)⟩

theorem ownPorts_same {s t : World} (hs : s.OwnPorts) (h : t.runtimes = s.runtimes) : t.OwnPorts := by
  intro m r hget
  rw [h] at hget
  exact hs m r hget

theorem reads_ownPorts : RecordReads World.OwnPorts (fun _ _ => True) := by
  refine ⟨fun _ _ _ _ _ => trivial, ?_⟩
  intro s m _ hs _ _ m' r' hget
  have hpop : (s.runtimes.pop m).get? m' = some r' := hget
  rw [Dict.get?_pop] at hpop
  split at hpop
  next => cases hpop
  next => exact hs m' r' hpop

theorem ownPorts_set {s t : World} {m : Int} {r : NodeRuntime} (hs : s.OwnPorts)
    (ht : t.runtimes = s.runtimes.set m r) (hr : r.OwnPorts m) : t.OwnPorts := by
  intro m' r' hget
  rw [ht, Dict.get?_set] at hget
  split at hget
  next heq =>
    rw [← heq, ← Option.some.inj hget]
    exact hr
  next => exact hs m' r' hget

theorem World.Edits.ownPorts {s t : World} {m : Int} {step : NodeRuntime → NodeRuntime → Prop}
    (h : s.Edits t m step) (hs : s.OwnPorts)
    (hstep : ∀ r r', step r r' → r.OwnPorts m → r'.OwnPorts m) : t.OwnPorts := by
  rcases h with huntouched | ⟨r, r', hget, hr', hset⟩
  · exact reads_ownPorts.untouched (fun _ _ h heq => ownPorts_same h heq) hs huntouched
  · exact ownPorts_set hs hset (hstep r r' hr' (hs m r hget))

theorem attachInterface_edits (source : NicSource) (kind : RuntimeKind) (m networkId j : Int)
    (bridge : String) (w : World) :
    Ends (attachInterface source kind m networkId j bridge) w
      (fun _ t => w.Edits t m (fun r r' => r.Adds r' m j))
      (fun _ t => w.Edits t m (fun r r' => r.Adds r' m j)) := by
  unfold attachInterface
  split
  next =>
    refine (attachDockerInterface_spec workings_true source (fun _ _ _ => trivial) networkId w).mono ?_
      (fun _ _ ht => Or.inl ht.2)
    intro _ t ht
    apply ht.2.edits
    rintro r r' hfree ⟨hdocker, rfl⟩
    exact withDockerAttachment_adds m networkId bridge hdocker hfree
  next =>
    refine (attachQemuInterface_spec workings_true source (fun _ _ _ => trivial) networkId w).mono ?_
      (fun _ _ ht => Or.inl ht.2)
    intro _ t ht
    apply ht.2.edits
    rintro r r' hfree ⟨_, hattached⟩
    exact qemuAttached_adds hattached hfree

theorem detachInterface_edits (kind : RuntimeKind) (m j : Int) (expectedGeneration : Option Int)
    (w : World) :
    Ends (detachInterface kind m j expectedGeneration) w
      (fun _ t => w.Edits t m (fun r r' => r.Drops r' m j))
      (fun _ t => w.Edits t m (fun r r' => r.Drops r' m j)) := by
  unfold detachInterface
  split
  next =>
    exact (detachDockerInterface_spec workings_true expectedGeneration
      (fun _ _ _ _ _ => trivial)).mono
        (fun _ _ ht => ht.2.edits (fun _ _ _ _ hgone => dockerGone_drops hgone))
        (fun _ _ ht => Or.inl (Or.inl ht.2))
  next =>
    refine (detachQemuInterface_spec workings_true expectedGeneration trivial ?_).mono
      (fun _ _ ht => ht.2.edits (fun _ _ _ _ hgone => qemuGone_drops hgone))
      (fun _ _ ht => Or.inl (Or.inl ht.2))
    intro r entry _ _ _
    exact frames_detachNic commands_true.sameRuntimes
      (fun _ => ⟨⟨trivial, trivial, trivial⟩, trivial⟩) trivial trivial

/-- A program that leaves the registry alone. -/
theorem preserves_of_same {α : Type} {m : HostM α}
    (h : Frames (fun s t => True ∧ t.runtimes = s.runtimes) m) : Preserves World.OwnPorts m :=
  fun s => (h s).mono (fun _ _ ht hs => ownPorts_same hs ht.2) (fun _ _ ht hs => ownPorts_same hs ht.2)

theorem setQemuNicLink_ownPorts (m j : Int) (up : Bool) :
    Preserves World.OwnPorts (setQemuNicLink m j up) :=
  preserves_of (fun s hs => (setQemuNicLink_spec workings_true trivial s).mono
    (fun _ _ ht => reads_ownPorts.untouched (fun _ _ h heq => ownPorts_same h heq) hs ht.2)
    (fun _ _ ht => reads_ownPorts.untouched (fun _ _ h heq => ownPorts_same h heq) hs ht.2))

theorem detachInterface_ownPorts (kind : RuntimeKind) (m j : Int) (expectedGeneration : Option Int) :
    Preserves World.OwnPorts (detachInterface kind m j expectedGeneration) :=
  preserves_of (fun s hs => (detachInterface_edits kind m j expectedGeneration s).mono
    (fun _ _ ht => ht.ownPorts hs (fun _ _ hstep => hstep.ports))
    (fun _ _ ht => ht.ownPorts hs (fun _ _ hstep => hstep.ports)))

theorem provisionBridges_same (lab : Lab) (implicitNetwork : Option Int) (targets : List Target) :
    Frames (fun s t => True ∧ t.runtimes = s.runtimes)
      (provisionBridges lab implicitNetwork targets) :=
  (yields_provisionBridges commands_true.sameRuntimes (fun _ _ _ _ => trivial) lab implicitNetwork
    (fun _ _ _ => ⟨trivial, trivial⟩)).frames

theorem healTarget_ownPorts (lab : Lab) (target : Target) :
    Preserves World.OwnPorts (healTarget lab target) := by
  have hcomposes := composes_invariant World.OwnPorts
  refine preserves_of (fun s hs => ?_)
  unfold healTarget
  rw [ends_bind]
  refine (reads_ownPorts.record target.nodeId true hs).mono ?_ (fun _ _ ht => ht)
  intro found t ⟨ht, _⟩
  refine Preserves.ends ?_ ht
  cases found with
  | none => exact Frames.pure hcomposes ()
  | some r =>
    refine Frames.forM hcomposes (fun entry _ => ?_)
    refine Frames.tryCatch hcomposes
      (Frames.bind hcomposes (detachInterface_ownPorts _ _ _ _) (fun _ => Frames.pure hcomposes ()))
      (fun e => ?_)
    split
    next => exact Frames.pure hcomposes ()
    next => exact Frames.throw hcomposes e

theorem reconcileStep_ownPorts {source : NicSource} {m : Int} {expected : Dict Int Expected}
    {removable : List Int} {r r' : NodeRuntime}
    (h : ReconcileStep source m expected removable r r') (hr : r.OwnPorts m) : r'.OwnPorts m := by
  intro e he port hport
  rcases h.entries e he with hold | ⟨i, want, rfl⟩
  · exact hr e hold port hport
  · rw [← Option.some.inj hport]
    rfl

/-- The registry after a reconcile: as it was, or the record of the node took its step. -/
theorem reconcile_edits {ok : HostCall → Prop} {rel : World → World → Prop} (h : Workings ok rel)
    (source : NicSource) (bridgeName : String → Int → String) (lab : Lab) (m : Int) (w : World)
    (hmutex : ok (.nodeMutex m)) (hok : ReconcileOk ok bridgeName lab m) :
    Ends (reconcileQemuNodeLinks source bridgeName lab m) w
      (fun _ t => rel w t ∧ w.Edits t m (fun r r' => ∃ expected removable,
        ReconcileStep source m expected removable r r'))
      (fun _ t => rel w t ∧ w.Edits t m (fun r r' => ∃ expected removable,
        ReconcileStep source m expected removable r r')) := by
  have hfirst := h.command w (.nodeMutex m) hmutex
  unfold reconcileQemuNodeLinks
  rw [ends_bind, ends_run]
  split
  next => exact ⟨hfirst, Or.inl (Or.inl rfl)⟩
  next =>
    refine (reconcileLocked_frames h source bridgeName lab m (w.after (.nodeMutex m)) hok).mono ?_ ?_
    all_goals
      intro _ t ⟨hrel, hcase⟩
      refine ⟨h.composes.trans _ _ _ hfirst hrel, ?_⟩
      rcases hcase with hsame | hpop | ⟨r, r', hget, _, _, hset, hstep⟩
      · exact Or.inl (Or.inl hsame)
      · exact Or.inl (Or.inr hpop)
      · exact Or.inr ⟨r, r', hget, ⟨_, _, hstep⟩, hset⟩

theorem wiring_ownPorts (a : WiringAction) : Preserves World.OwnPorts a.program := by
  have hcomposes := composes_invariant World.OwnPorts
  cases a with
  | answer replies => exact Frames.modify (fun _ h => h)
  | createLink source bridgeName lab implicitNetwork concrete =>
    refine Frames.bind hcomposes ?_ (fun _ => Frames.pure hcomposes ())
    refine reads_ownPorts.attachRunning source
      (fun targets => preserves_of_same (provisionBridges_same lab implicitNetwork targets))
      (fun target _ _ => healTarget_ownPorts lab target) (fun target _ _ => ?_)
      setQemuNicLink_ownPorts
      (fun bridge => preserves_of_same (frames_run commands_true.sameRuntimes trivial))
    exact preserves_of (fun s hs => (attachInterface_edits source target.kind target.nodeId
      target.networkId target.interfaceIndex target.bridge s).mono
        (fun _ _ ht => ht.ownPorts hs (fun _ _ hstep => hstep.ports))
        (fun _ _ ht => ht.ownPorts hs (fun _ _ hstep => hstep.ports)))
  | rollback attached provisioned failure =>
    refine preserves_rollbackAttached (fun done _ => ?_) (fun bridge => ?_) provisioned failure
    · exact preserves_of (fun s hs => (rollbackTarget_edits workings_true done.1.kind
        (fun _ _ _ => trivial)).mono
          (fun _ _ ht => ht.2.ownPorts hs (fun _ _ hstep => hstep.ports))
          (fun _ _ ht => ht.2.ownPorts hs (fun _ _ hstep => hstep.ports)))
    · exact preserves_of_same (frames_bridgeDel commands_true.sameRuntimes trivial)
  | deleteLink expectedGeneration keys =>
    exact reads_ownPorts.detachEndpoints expectedGeneration setQemuNicLink_ownPorts
      (fun key _ kind _ => detachInterface_ownPorts kind key.1 key.2 expectedGeneration) none
  | reconcile source bridgeName lab m =>
    refine preserves_of (fun s hs => (reconcile_edits workings_true source bridgeName lab m s trivial
      ⟨fun _ => trivial, fun _ => trivial, fun _ _ _ _ => ⟨trivial, trivial, trivial, trivial,
        trivial⟩⟩).mono (fun _ _ ht => ?_) (fun _ _ ht => ?_))
    all_goals
      apply ht.2.ownPorts hs
      rintro r r' ⟨_, _, hstep⟩ hr
      exact reconcileStep_ownPorts hstep hr

theorem startedRecord_ownPorts (env : StartEnv) (lab : Lab) (nodeKey : Int) (node : Node) :
    (startedRecord env lab nodeKey node).OwnPorts node.id := by
  intro e he port hport
  unfold startedRecord at he
  split at he
  next =>
    obtain ⟨a, _, rfl⟩ := List.mem_map.mp he
    rw [← Option.some.inj hport]
    rfl
  next =>
    obtain ⟨a, _, rfl⟩ := List.mem_map.mp he
    dsimp only at hport
    split at hport
    next =>
      rw [← Option.some.inj hport]
      rfl
    next => cases hport

/-- In every run the records name the host ends of their own interfaces. -/
theorem nodeStep_ownPorts (w : World) (a : NodeAction) (hw : w.OwnPorts) :
    (nodeStep w a).OwnPorts := by
  cases a with
  | start env lab nodeKey node =>
    refine Ends.endState ((startNode_spec workings_true plain_true (fun _ _ _ _ => trivial) w).mono ?_ ?_)
    · rintro _ t ⟨_, ⟨_, _, _, hsame⟩ | ⟨_, hlook⟩⟩
      · exact ownPorts_same hw hsame
      · intro m r hget
        rw [hlook] at hget
        split at hget
        next heq =>
          rw [← heq, ← Option.some.inj hget]
          exact startedRecord_ownPorts env lab nodeKey node
        next => exact hw m r hget
    · intro _ t ht
      exact reads_ownPorts.untouched (fun _ _ h heq => ownPorts_same h heq) hw ht.2
  | stop nodeId =>
    refine Ends.endState ((stopNode_spec workings_true plain_true nodeId w).mono ?_
      (fun _ _ ht => ownPorts_same hw ht.2))
    rintro _ t ⟨_, hlook⟩ m r hget
    rw [hlook] at hget
    split at hget
    next => cases hget
    next => exact hw m r hget
  | link action => exact Ends.endState ((wiring_ownPorts action).ends hw)

theorem ownPorts_of_run {first w : World} {history : List NodeAction}
    (hfirst : first.runtimes = Dict.empty) (past : Run (stepOf nodeStep) first history w) :
    w.OwnPorts := by
  have hempty : first.OwnPorts := by
    intro m r hget
    rw [hfirst] at hget
    cases hget
  exact past.invariant (fun s a t hs hstep => by rw [← hstep]; exact nodeStep_ownPorts s a hs) hempty

end NovaVe
