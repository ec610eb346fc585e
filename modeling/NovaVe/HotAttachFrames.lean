import NovaVe.DetachSteps
import NovaVe.StartSteps

namespace NovaVe

variable {ok : HostCall → Prop} {rel : World → World → Prop}

theorem frames_runtimeRecord (h : Workings ok rel) (nodeId : Int) (includeStopped : Bool) :
    Frames rel (runtimeRecord nodeId includeStopped) := by
  intro w
  rw [ends_runtimeRecord]
  split
  next => exact h.composes.refl w
  next =>
    split
    next => exact h.composes.refl w
    next => exact h.record w _

/-- A target comes from a link, and its bridge is the one of the link's network. -/
def Target.From (bridgeName : String → Int → String) (lab : Lab) (implicitNetwork : Option Int)
    (links : List Link) (target : Target) : Prop :=
  ∃ l ∈ links, l.attachment? = some (target.nodeId, target.interfaceIndex, target.networkId) ∧
    target.bridge = resolveBridgeName bridgeName lab implicitNetwork target.networkId

theorem pendingTargets_spec (h : Workings ok rel) (bridgeName : String → Int → String) (lab : Lab)
    (implicitNetwork : Option Int) (links : List Link) (w : World) :
    Ends (pendingTargets bridgeName lab implicitNetwork links) w
      (fun targets t => rel w t ∧
        ∀ target ∈ targets, target.From bridgeName lab implicitNetwork links)
      (fun _ t => rel w t) := by
  induction links generalizing w with
  | nil => exact ⟨h.composes.refl w, fun target ht => absurd ht List.not_mem_nil⟩
  | cons l rest ih =>
    have hmore : ∀ targets : List Target,
        (∀ target ∈ targets, target.From bridgeName lab implicitNetwork rest) →
        ∀ target ∈ targets, target.From bridgeName lab implicitNetwork (l :: rest) := by
      intro targets hall target ht
      obtain ⟨m, hm, hrest⟩ := hall target ht
      exact ⟨m, List.mem_cons_of_mem l hm, hrest⟩
    unfold pendingTargets
    cases hl : l.attachment? with
    | none => exact (ih w).mono (fun targets t ht => ⟨ht.1, hmore _ ht.2⟩) (fun _ _ ht => ht)
    | some wired =>
      obtain ⟨nodeId, interfaceIndex, networkId⟩ := wired
      dsimp only
      rw [ends_bind]
      refine (frames_runtimeRecord h nodeId false w).mono (fun record u hu => ?_) (fun _ _ hu => hu)
      rw [ends_bind]
      refine (ih u).mono (fun targets t ht => ?_) (fun _ t ht => h.composes.trans _ _ _ hu ht)
      have hrel := h.composes.trans _ _ _ hu ht.1
      cases record with
      | none => exact ⟨hrel, hmore _ ht.2⟩
      | some runtime =>
        dsimp only
        split
        next => exact ⟨hrel, hmore _ ht.2⟩
        next =>
          refine ⟨hrel, fun target htarget => ?_⟩
          rcases List.mem_cons.mp htarget with he | hin
          · subst he
            exact ⟨l, List.mem_cons_self, hl, rfl⟩
          · exact hmore _ ht.2 target hin

/-- The commands about neither an interface nor a process, which change no bridge, are of the kind. -/
def Aside (ok : HostCall → Prop) : Prop :=
  ∀ c : HostCall, c.interface? = none → c.ofProcess = false → c.bridge? = none → ok c

theorem Plain.aside (h : Plain ok) : Aside ok := fun c _ _ hc => h c hc

/-- The bridges that commands of the kind may add and delete. -/
def Reshapes (ok : HostCall → Prop) (bridge : String) : Prop :=
  ok (.bridgeAdd bridge) ∧ ok (.bridgeDel bridge)

/-- The bridge of a target may be made, unless its record says that the host owns it. -/
def Target.MayMake (ok : HostCall → Prop) (lab : Lab) (implicitNetwork : Option Int)
    (target : Target) : Prop :=
  implicitNetwork = some target.networkId ∨
    networkDriver? lab target.networkId ≠ some "bridge_cloud" → Reshapes ok target.bridge

theorem yields_none (h : Composes rel) :
    Yields rel (pure [] : HostM (List String)) (fun made => ∀ b ∈ made, Reshapes ok b) :=
  Yields.pure h (fun _ hb => absurd hb List.not_mem_nil)

theorem yields_ensureBridge (h : Commands ok rel) (haside : Aside ok) {bridge : String}
    (hshape : Reshapes ok bridge) (fingerprint : Bool) :
    Yields rel (ensureBridge bridge fingerprint) (fun made => ∀ b ∈ made, Reshapes ok b) := by
  have hone : Yields rel (pure [bridge] : HostM (List String))
      (fun made => ∀ b ∈ made, Reshapes ok b) :=
    Yields.pure h.composes (fun b hb => List.mem_singleton.mp hb ▸ hshape)
  unfold ensureBridge
  refine Yields.bind h.composes (frames_bridgeExists h (haside _ rfl rfl rfl)).yields (fun there _ => ?_)
  split
  next => exact yields_none h.composes
  next =>
    refine Yields.bind h.composes (frames_run h hshape.1).yields (fun _ _ => ?_)
    split
    next =>
      exact Yields.bind h.composes
        (frames_absorb h (frames_run h (haside _ rfl rfl rfl)) Exc.isHostNet ()).yields (fun _ _ => hone)
    next => exact hone

theorem yields_ensureExplicitBridges (h : Commands ok rel) (haside : Aside ok) (lab : Lab)
    (implicitNetwork : Option Int) {targets : List Target}
    (hmake : ∀ target ∈ targets, target.MayMake ok lab implicitNetwork) (seen : List String) :
    Yields rel (ensureExplicitBridges lab implicitNetwork seen targets)
      (fun made => ∀ b ∈ made, Reshapes ok b) := by
  induction targets generalizing seen with
  | nil => exact yields_none h.composes
  | cons target rest ih =>
    have hrest := ih (fun t ht => hmake t (List.mem_cons_of_mem target ht))
    unfold ensureExplicitBridges
    split
    next => exact hrest seen
    next =>
      have hexplicit : Yields rel (ensureExplicitBridge lab target)
          (fun made => ∀ b ∈ made, Reshapes ok b) := by
        unfold ensureExplicitBridge
        split
        next =>
          refine Yields.bind h.composes (frames_bridgeExists h (haside _ rfl rfl rfl)).yields
            (fun there _ => ?_)
          split
          next => exact yields_none h.composes
          next => exact fun w => h.composes.refl w
        next hdriver =>
          exact yields_ensureBridge h haside (hmake target List.mem_cons_self (Or.inr hdriver)) _
      refine Yields.bind h.composes hexplicit (fun provisioned hprovisioned => ?_)
      refine Yields.bind h.composes (hrest _) (fun more hmore => Yields.pure h.composes ?_)
      intro b hb
      rcases List.mem_append.mp hb with hb | hb
      · exact hprovisioned b hb
      · exact hmore b hb

theorem yields_provisionBridges (h : Commands ok rel) (haside : Aside ok) (lab : Lab)
    (implicitNetwork : Option Int) {targets : List Target}
    (hmake : ∀ target ∈ targets, target.MayMake ok lab implicitNetwork) :
    Yields rel (provisionBridges lab implicitNetwork targets)
      (fun made => ∀ b ∈ made, Reshapes ok b) := by
  have hmore : ∀ implicitBridges : List String, (∀ b ∈ implicitBridges, Reshapes ok b) →
      Yields rel (do
        let explicitBridges ← ensureExplicitBridges lab implicitNetwork [] targets
        pure (implicitBridges ++ explicitBridges) : HostM (List String))
        (fun made => ∀ b ∈ made, Reshapes ok b) := by
    intro implicitBridges himplicit
    refine Yields.bind h.composes (yields_ensureExplicitBridges h haside lab implicitNetwork hmake [])
      (fun explicitBridges hexplicit => Yields.pure h.composes ?_)
    intro b hb
    rcases List.mem_append.mp hb with hb | hb
    · exact himplicit b hb
    · exact hexplicit b hb
  unfold provisionBridges
  dsimp only
  split
  next target hfind =>
    have hown : implicitNetwork = some target.networkId := by simpa using List.find?_some hfind
    have hshape := hmake target (List.mem_of_find?_eq_some hfind) (Or.inl hown)
    exact Yields.bind h.composes (yields_ensureBridge h haside hshape _) hmore
  next => exact Yields.bind h.composes (yields_none h.composes) hmore

theorem okAt_none (hall : Plain ok) (nodeId interfaceIndex : Int) :
    OkAt ok nodeId interfaceIndex none :=
  fun c _ hm => hall c (hm.elim id (fun hb => by rw [hb.2] at hb; cases hb.1))

theorem frames_detachInterface (h : Workings ok rel) (hall : Plain ok) (kind : RuntimeKind)
    (nodeId interfaceIndex : Int) (expectedGeneration : Option Int) :
    Frames rel (detachInterface kind nodeId interfaceIndex expectedGeneration) := by
  intro w
  unfold detachInterface
  split
  next =>
    exact (detachDockerInterface_spec h expectedGeneration (fun _ _ _ _ _ => hall _ rfl)).mono
      (fun _ _ ht => ht.1) (fun _ _ ht => ht.1)
  next =>
    refine (detachQemuInterface_spec h expectedGeneration (hall _ rfl) (fun r entry _ _ _ => ?_)).mono
      (fun _ _ ht => ht.1) (fun _ _ ht => ht.1)
    exact frames_detachNic h.toCommands.sameRuntimes
      (fun _ => ⟨(okAt_none hall _ _).remove, hall _ rfl⟩) (hall _ rfl) (hall _ rfl)

theorem frames_healTarget (h : Workings ok rel) (hall : Plain ok) (lab : Lab) (target : Target) :
    Frames rel (healTarget lab target) := by
  unfold healTarget
  refine Frames.bind h.composes (frames_runtimeRecord h _ _) (fun record => ?_)
  cases record with
  | none => exact Frames.pure h.composes ()
  | some runtime =>
    refine Frames.forM h.composes (fun entry _ => ?_)
    refine Frames.tryCatch h.composes
      (Frames.bind h.composes (frames_detachInterface h hall _ _ _ _)
        (fun _ => Frames.pure h.composes ())) (fun e => ?_)
    split
    next => exact Frames.pure h.composes ()
    next => exact Frames.throw h.composes e

theorem frames_attachInterface (h : Workings ok rel) (hall : Plain ok) (source : NicSource)
    (kind : RuntimeKind) (nodeId networkId interfaceIndex : Int) {bridge : String}
    (hon : ∀ port, port.interface = (nodeId, interfaceIndex) → ok (.linkMaster port bridge)) :
    Frames rel (attachInterface source kind nodeId networkId interfaceIndex bridge) := by
  intro w
  have hok : OkAt ok nodeId interfaceIndex (some bridge) := okAt_of_plain hall hon
  unfold attachInterface
  split
  next =>
    exact (attachDockerInterface_spec h source hok networkId w).mono (fun _ _ ht => ht.1)
      (fun _ _ ht => ht.1)
  next =>
    exact (attachQemuInterface_spec h source hok networkId w).mono (fun _ _ ht => ht.1)
      (fun _ _ ht => ht.1)

/-- `set_qemu_nic_link` gives one command and leaves the records of running nodes alone. -/
theorem setQemuNicLink_spec (h : Workings ok rel) {nodeId interfaceIndex : Int} {up : Bool}
    (hset : ok (.setLink nodeId interfaceIndex up)) (w : World) :
    Ends (setQemuNicLink nodeId interfaceIndex up) w
      (fun _ t => rel w t ∧ Untouched w t nodeId) (fun _ t => rel w t ∧ Untouched w t nodeId) := by
  have hsame := h.toCommands.sameRuntimes
  have hcall : Frames (fun s t => rel s t ∧ t.runtimes = s.runtimes)
      (tryCatch (run (.setLink nodeId interfaceIndex up))
        (fun e => if e = .qmpTimeout then pure () else throw e)) := by
    refine Frames.tryCatch hsame.composes (frames_run hsame hset) (fun e => ?_)
    split
    next => exact Frames.pure hsame.composes ()
    next => exact Frames.throw hsame.composes e
  unfold setQemuNicLink
  rw [ends_bind, ends_runtimeRecord]
  cases hget : w.runtimes.get? nodeId with
  | none => exact ⟨h.composes.refl w, Or.inl rfl⟩
  | some r =>
    dsimp only
    cases halive : r.alive with
    | false => exact ⟨h.record w _, Or.inr ⟨r, hget, halive, rfl⟩⟩
    | true =>
      simp only [Bool.or_true, if_true]
      split
      next =>
        exact (hcall w).mono (fun _ _ ht => ⟨ht.1, Or.inl ht.2⟩) (fun _ _ ht => ⟨ht.1, Or.inl ht.2⟩)
      next => exact ⟨h.composes.refl w, Or.inl rfl⟩

theorem frames_setQemuNicLink (h : Workings ok rel) (hall : Plain ok) (nodeId interfaceIndex : Int)
    (up : Bool) :
    Frames rel (setQemuNicLink nodeId interfaceIndex up) := by
  intro w
  exact (setQemuNicLink_spec h (hall _ rfl) w).mono (fun _ _ ht => ht.1) (fun _ _ ht => ht.1)

theorem frames_attachTargets (h : Workings ok rel) (hall : Plain ok) (source : NicSource)
    {targets : List Target}
    (hon : ∀ target ∈ targets, ∀ port, port.interface = (target.nodeId, target.interfaceIndex) →
      ok (.linkMaster port target.bridge)) (attached : List (Target × Int)) :
    Frames rel (attachTargets source attached targets) := by
  induction targets generalizing attached with
  | nil => exact Frames.pure h.composes _
  | cons target rest ih =>
    unfold attachTargets
    have hrest := ih (fun t ht => hon t (List.mem_cons_of_mem target ht))
    refine Frames.attemptThen h.composes (frames_attachInterface h hall source target.kind
      target.nodeId target.networkId target.interfaceIndex (hon target List.mem_cons_self))
      (fun generation => ?_) (fun e => Frames.pure h.composes _)
    dsimp only
    split
    next =>
      exact Frames.attemptThen h.composes (frames_setQemuNicLink h hall _ _ _)
        (fun _ => hrest _) (fun e => Frames.pure h.composes _)
    next => exact hrest _

theorem frames_rollbackAttached (h : Workings ok rel) (hall : Plain ok)
    (attached : List (Target × Int)) {provisioned : List String}
    (hmade : ∀ b ∈ provisioned, Reshapes ok b) (e : Exc) :
    Frames rel (rollbackAttached attached provisioned e) := by
  unfold rollbackAttached
  split
  next =>
    refine Frames.bind h.composes (Frames.forM h.composes (fun done _ w => ?_)) (fun _ =>
      Frames.forM h.composes (fun bridge hb => ?_))
    · exact (rollbackTarget_spec h done.1.kind (okAt_none hall _ _)).mono (fun _ _ ht => ht.1)
        (fun _ _ ht => ht.1)
    · exact frames_absorb h.toCommands (frames_bridgeDel h.toCommands (hmade bridge hb).2)
        Exc.isHostNet ()
  next => exact Frames.pure h.composes ()

/-- The hot-attach pass, whatever the host and QEMU answer: it puts ports only on the bridges of
its links' networks, and makes none that the host owns. -/
theorem frames_hotAttachRunningEndpoints (h : Workings ok rel) (hall : Plain ok)
    (source : NicSource) {bridgeName : String → Int → String} {lab : Lab}
    {implicitNetwork : Option Int} {concrete : List Link}
    (hon : ∀ l ∈ concrete, ∀ nodeId interfaceIndex networkId,
      l.attachment? = some (nodeId, interfaceIndex, networkId) →
      ∀ port, port.interface = (nodeId, interfaceIndex) →
        ok (.linkMaster port (resolveBridgeName bridgeName lab implicitNetwork networkId)))
    (hmake : ∀ networkId, implicitNetwork = some networkId ∨
      networkDriver? lab networkId ≠ some "bridge_cloud" →
      Reshapes ok (resolveBridgeName bridgeName lab implicitNetwork networkId)) :
    Frames rel (hotAttachRunningEndpoints source bridgeName lab implicitNetwork concrete) := by
  intro w
  unfold hotAttachRunningEndpoints
  rw [ends_bind]
  refine (pendingTargets_spec h bridgeName lab implicitNetwork concrete w).mono
    (fun targets u hu => ?_) (fun _ _ hu => hu)
  obtain ⟨hrel, hfrom⟩ := hu
  have hbridges : ∀ target ∈ targets, ∀ port,
      port.interface = (target.nodeId, target.interfaceIndex) →
      ok (.linkMaster port target.bridge) := by
    intro target ht port hport
    obtain ⟨l, hl, hwired, hbridge⟩ := hfrom target ht
    rw [hbridge]
    exact hon l hl _ _ _ hwired port hport
  have htargets : ∀ target ∈ targets, target.MayMake ok lab implicitNetwork := by
    intro target ht hown
    obtain ⟨l, hl, hwired, hbridge⟩ := hfrom target ht
    rw [hbridge]
    exact hmake target.networkId hown
  refine Frames.onward ?_ h.composes hrel
  refine Yields.bindFrames h.composes (yields_provisionBridges h.toCommands hall.aside _ _ htargets)
    (fun provisioned hmade => ?_)
  refine Frames.bind h.composes
    (Frames.forM h.composes (fun target _ => frames_healTarget h hall _ _)) (fun _ => ?_)
  refine Frames.bind h.composes (frames_attachTargets h hall source hbridges []) (fun made => ?_)
  obtain ⟨attached, failed⟩ := made
  cases failed with
  | some e =>
    exact Frames.bind h.composes (frames_rollbackAttached h hall _ hmade _)
      (fun _ => Frames.throw h.composes e)
  | none =>
    refine Frames.bind h.composes (Frames.forM h.composes (fun bridge _ => ?_))
      (fun _ => Frames.pure h.composes _)
    exact frames_absorb h.toCommands (frames_run h.toCommands (hall _ rfl)) Exc.isHostNet ()

end NovaVe
