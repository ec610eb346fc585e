import NovaVe.AttachSteps

namespace NovaVe

variable {ok : HostCall → Prop} {rel : World → World → Prop}

/-- The commands that neither add nor delete a bridge nor put a port on one are of the kind. -/
def Plain (ok : HostCall → Prop) : Prop :=
  ∀ c : HostCall, c.bridge? = none → ok c

theorem okAt_of_plain (h : Plain ok) {nodeId interfaceIndex : Int} {bridge : String}
    (hon : ∀ port, port.interface = (nodeId, interfaceIndex) → ok (.linkMaster port bridge)) :
    OkAt ok nodeId interfaceIndex (some bridge) := by
  intro c hat hm
  rcases hm with hm | hm
  · exact h c hm
  · have hbridge := hm.2
    cases c <;> simp only [HostCall.master?, reduceCtorEq, Option.some.injEq] at hbridge
    subst hbridge
    rcases hat with hat | hat
    · cases hat.1
    · exact hon _ (Option.some.inj hat)

/-- The attachments of a start, for the kind of the node. -/
def bootAttachments (bridgeName : String → Int → String) (lab : Lab) (nodeKey : Int) (node : Node) :
    List BootAttachment :=
  if node.type = .docker then dockerAttachments bridgeName lab nodeKey node
  else qemuAttachments bridgeName lab nodeKey node

theorem attachmentByIndex_mem {attachments : List BootAttachment} {i : Int} {a : BootAttachment}
    (h : (attachmentByIndex attachments).get? i = some a) :
    a ∈ attachments ∧ a.interfaceIndex = i := by
  have hfold : ∀ (rest : List BootAttachment) (d : Dict Int BootAttachment),
      (rest.foldl (fun d a => d.set a.interfaceIndex a) d).get? i = some a →
      (a ∈ rest ∧ a.interfaceIndex = i) ∨ d.get? i = some a := by
    intro rest
    induction rest with
    | nil => exact fun d hd => Or.inr hd
    | cons b rest ih =>
      intro d hd
      rcases ih _ hd with hmem | hget
      · exact Or.inl ⟨List.mem_cons_of_mem b hmem.1, hmem.2⟩
      · rw [Dict.get?_set] at hget
        split at hget
        next hindex =>
          obtain rfl := Option.some.inj hget
          exact Or.inl ⟨List.mem_cons_self, hindex⟩
        next => exact Or.inr hget
  rcases hfold attachments Dict.empty h with hmem | hnone
  · exact hmem
  · cases hnone

theorem frames_sweepPorts (h : Commands ok rel) (hall : Plain ok) (ports : List Port) :
    Frames rel (ports.forM tryLinkDel) :=
  Frames.forM h.composes (fun _ _ => frames_tryLinkDel h (hall _ rfl))

theorem frames_bridgesPresent (h : Commands ok rel) (hall : Plain ok)
    (attachments : List BootAttachment) :
    Frames rel (bridgesPresent attachments) := by
  refine Frames.forM h.composes (fun attachment _ => ?_)
  refine Frames.bind h.composes (frames_bridgeExists h (hall _ rfl)) (fun there => ?_)
  split
  next => exact Frames.pure h.composes ()
  next => exact Frames.throw h.composes _

theorem frames_connectTap (h : Commands ok rel) (hall : Plain ok) {tap : Port}
    {attachment : Option BootAttachment}
    (hon : ∀ a, attachment = some a → ok (.linkMaster tap a.bridgeName)) :
    Frames rel (connectTap tap attachment) := by
  unfold connectTap
  cases attachment with
  | none => exact frames_absorb h (frames_run h (hall _ rfl)) Exc.isHostNet ()
  | some attachment =>
    exact Frames.bind h.composes (frames_linkMasterAny h _ (hon attachment rfl))
      (fun _ => frames_run h (hall _ rfl))

theorem frames_provisionTaps (h : Commands ok rel) (hall : Plain ok) {nodeId : Int}
    {byIndex : Dict Int BootAttachment}
    (hon : ∀ i a, byIndex.get? i = some a → ok (.linkMaster (.tap nodeId i) a.bridgeName))
    (indices : List Int) (provisioned : List Port) :
    Frames rel (provisionTaps nodeId byIndex provisioned indices) := by
  induction indices generalizing provisioned with
  | nil => exact Frames.pure h.composes _
  | cons i rest ih =>
    unfold provisionTaps
    refine Frames.bind h.composes (Frames.attempt h.composes ?_) (fun made => ?_)
    · refine Frames.bind h.composes (frames_tapExists h (hall _ rfl)) (fun there => ?_)
      split
      next => exact Frames.pure h.composes _
      next => exact Frames.bind h.composes (frames_run h (hall _ rfl)) (fun _ => Frames.pure h.composes _)
    · cases made with
      | error e => exact Frames.pure h.composes _
      | ok provisioned =>
        refine Frames.bind h.composes
          (Frames.attempt h.composes (frames_connectTap h hall (hon i))) (fun linked => ?_)
        cases linked with
        | error e => exact Frames.pure h.composes _
        | ok _ => exact ih provisioned

/-- The interfaces of a node may be put on the bridges of their attachments. -/
def Connects (ok : HostCall → Prop) (nodeId : Int) (attachments : List BootAttachment) : Prop :=
  ∀ a ∈ attachments, ∀ port, port.interface = (nodeId, a.interfaceIndex) →
    ok (.linkMaster port a.bridgeName)

theorem Connects.byIndex {nodeId : Int} {attachments : List BootAttachment}
    (hon : Connects ok nodeId attachments) {i : Int} {a : BootAttachment}
    (h : (attachmentByIndex attachments).get? i = some a) :
    ok (.linkMaster (.tap nodeId i) a.bridgeName) := by
  obtain ⟨hmem, rfl⟩ := attachmentByIndex_mem h
  exact hon a hmem _ rfl

theorem frames_launchQemuNode (h : Commands ok rel) (hall : Plain ok) (node : Node)
    {attachments : List BootAttachment} (hon : Connects ok node.id attachments) :
    Frames rel (launchQemuNode node attachments) := by
  have hrun : ∀ c : HostCall, c.bridge? = none → Frames rel (run c) :=
    fun c hc => frames_run h (hall c hc)
  unfold launchQemuNode
  refine Frames.bind h.composes (frames_bridgesPresent h hall _) (fun _ => ?_)
  refine Frames.bind h.composes (frames_provisionTaps h hall
    (fun _ _ ha => hon.byIndex ha) _ _) (fun made => ?_)
  obtain ⟨provisioned, failed⟩ := made
  have hsweep := frames_sweepPorts h hall provisioned
  cases failed with
  | some e => exact Frames.bind h.composes hsweep (fun _ => Frames.throw h.composes e)
  | none =>
    refine Frames.bind h.composes (Frames.onRaise h.composes (hrun _ rfl) hsweep) (fun _ => ?_)
    refine Frames.bind h.composes (Frames.forM h.composes (fun i _ => ?_)) (fun _ => ?_)
    · exact Frames.tryCatch h.composes (hrun _ rfl) (fun _ => Frames.swallow h.composes (hrun _ rfl))
    · refine Frames.tryCatch h.composes (hrun _ rfl) (fun _ => ?_)
      refine Frames.bind h.composes (hrun _ rfl) (fun _ => ?_)
      exact Frames.bind h.composes hsweep (fun _ => Frames.throw h.composes _)

theorem frames_provisionVeths (h : Commands ok rel) (hall : Plain ok) (nodeId : Int)
    {attachments : List BootAttachment} (hon : Connects ok nodeId attachments)
    (provisioned : List Port) : Frames rel (provisionVeths nodeId provisioned attachments) := by
  induction attachments generalizing provisioned with
  | nil => exact Frames.pure h.composes _
  | cons a rest ih =>
    unfold provisionVeths
    refine Frames.bind h.composes (Frames.attempt h.composes
      (frames_attachDockerInterfaceInitial h (okAt_of_plain hall (hon a List.mem_cons_self)) _))
      (fun linked => ?_)
    cases linked with
    | error e => exact Frames.pure h.composes _
    | ok _ => exact ih (fun b hb => hon b (List.mem_cons_of_mem a hb)) _

theorem frames_launchDockerNode (h : Commands ok rel) (hall : Plain ok) (node : Node)
    {attachments : List BootAttachment} (hon : Connects ok node.id attachments) :
    Frames rel (launchDockerNode node attachments) := by
  have hrun : ∀ c : HostCall, c.bridge? = none → Frames rel (run c) :=
    fun c hc => frames_run h (hall c hc)
  unfold launchDockerNode
  refine Frames.bind h.composes (frames_bridgesPresent h hall _) (fun _ => ?_)
  refine Frames.bind h.composes (hrun _ rfl) (fun _ => ?_)
  refine Frames.bind h.composes (Frames.tryCatch h.composes (hrun _ rfl) (fun _ =>
    Frames.bind h.composes (hrun _ rfl) (fun _ => Frames.throw h.composes _))) (fun _ => ?_)
  refine Frames.bind h.composes (frames_provisionVeths h hall _ hon _) (fun made => ?_)
  obtain ⟨begun, failed⟩ := made
  cases failed with
  | none => exact Frames.pure h.composes ()
  | some e =>
    refine Frames.bind h.composes (frames_sweepPorts h hall begun) (fun _ => ?_)
    exact Frames.bind h.composes (hrun _ rfl) (fun _ => Frames.throw h.composes e)

theorem frames_launchNode (h : Commands ok rel) (hall : Plain ok) {env : StartEnv} {lab : Lab}
    {nodeKey : Int} {node : Node}
    (hon : Connects ok node.id (bootAttachments env.bridgeName lab nodeKey node)) :
    Frames rel (launchNode env lab nodeKey node) := by
  have hrun : ∀ c : HostCall, c.bridge? = none → Frames rel (run c) :=
    fun c hc => frames_run h (hall c hc)
  unfold bootAttachments at hon
  unfold launchNode
  split
  next htype =>
    rw [if_pos htype] at hon
    have hdocker := frames_launchDockerNode h hall node hon
    split
    next => exact hrun _ rfl
    next =>
      split
      next => exact Frames.bind h.composes (hrun _ rfl) (fun _ => hdocker)
      next => exact hdocker
  next htype =>
    rw [if_neg htype] at hon
    exact Frames.bind h.composes (hrun _ rfl) (fun _ => frames_launchQemuNode h hall _ hon)

/-- A start leaves a running node alone; otherwise the record is the one it makes. -/
theorem startNode_spec (h : Workings ok rel) (hall : Plain ok) {env : StartEnv} {lab : Lab}
    {nodeKey : Int} {node : Node}
    (hon : Connects ok node.id (bootAttachments env.bridgeName lab nodeKey node)) (w : World) :
    Ends (startNode env lab nodeKey node) w
      (fun _ t => rel w t ∧
        ((∃ r, w.runtimes.get? node.id = some r ∧ r.alive = true ∧ t.runtimes = w.runtimes) ∨
          ((∀ r, w.runtimes.get? node.id = some r → r.alive = false) ∧
            ∀ m, t.runtimes.get? m =
              if node.id = m then some (startedRecord env lab nodeKey node)
              else w.runtimes.get? m)))
      (fun _ t => rel w t ∧ Untouched w t node.id) := by
  have hsame := h.toCommands.sameRuntimes
  have hlaunch := frames_launchNode hsame hall hon
  have hset : ∀ u v, rel w u → (rel u v ∧ v.runtimes = u.runtimes) →
      (∀ m, node.id ≠ m → u.runtimes.get? m = w.runtimes.get? m) →
      let t : World :=
        { v with runtimes := v.runtimes.set node.id (startedRecord env lab nodeKey node) }
      rel w t ∧ ∀ m, t.runtimes.get? m =
        if node.id = m then some (startedRecord env lab nodeKey node) else w.runtimes.get? m := by
    intro u v hu hv hother t
    refine ⟨h.composes.trans _ _ _ (h.composes.trans _ _ _ hu hv.1) (h.record v _), fun m => ?_⟩
    have htm : t.runtimes.get? m = if node.id = m then some (startedRecord env lab nodeKey node)
        else v.runtimes.get? m := Dict.get?_set _ _ _ _
    rw [htm, hv.2]
    split
    next => rfl
    next hm => exact hother m hm
  unfold startNode
  rw [ends_bind, ends_runtimeRecord]
  cases hget : w.runtimes.get? node.id with
  | none =>
    dsimp only
    rw [ends_bind]
    refine (hlaunch w).mono (fun _ v hv => ?_) (fun _ v hv => ⟨hv.1, Or.inl hv.2⟩)
    obtain ⟨hrel, hlook⟩ := hset w v (h.composes.refl w) hv (fun _ _ => rfl)
    exact ⟨hrel, Or.inr ⟨fun r hr => (by cases hr), hlook⟩⟩
  | some r =>
    dsimp only
    cases halive : r.alive with
    | true =>
      simp only [Bool.or_true, if_true]
      exact ⟨h.composes.refl w, Or.inl ⟨r, rfl, halive, rfl⟩⟩
    | false =>
      simp only [Bool.or_false, Bool.false_eq_true, if_false]
      rw [ends_bind]
      refine (hlaunch _).mono (fun _ v hv => ?_) (fun _ v hv => ?_)
      · obtain ⟨hrel, hlook⟩ := hset _ v (h.record w (w.runtimes.pop node.id)) hv
          (fun m hm => Dict.get?_pop_ne _ hm)
        refine ⟨hrel, Or.inr ⟨fun r' hr' => ?_, hlook⟩⟩
        cases hr'
        exact halive
      · exact ⟨h.composes.trans _ _ _ (h.record w _) hv.1,
          Or.inr ⟨r, hget, halive, hv.2⟩⟩

/-- A stop that ends leaves no record. -/
theorem stopNode_spec (h : Workings ok rel) (hall : Plain ok) (nodeId : Int) (w : World) :
    Ends (stopNode nodeId) w
      (fun _ t => rel w t ∧
        ∀ m, t.runtimes.get? m = if nodeId = m then none else w.runtimes.get? m)
      (fun _ t => rel w t ∧ t.runtimes = w.runtimes) := by
  have hsame := h.toCommands.sameRuntimes
  have hrun : ∀ c : HostCall, c.bridge? = none →
      Frames (fun s t => rel s t ∧ t.runtimes = s.runtimes) (run c) :=
    fun c hc => frames_run hsame (hall c hc)
  have hpop : ∀ m, (w.runtimes.pop nodeId).get? m =
      if nodeId = m then none else w.runtimes.get? m := fun m => Dict.get?_pop _ _ _
  have hrest : ∀ (ports : List Port) u, rel w u ∧ u.runtimes = w.runtimes →
      Ends (do
        run (.halt nodeId)
        ports.forM tryLinkDel
        run (.sweepNode nodeId)
        modify (fun w => { w with runtimes := w.runtimes.pop nodeId }) : HostM Unit) u
        (fun _ t => rel w t ∧
          ∀ m, t.runtimes.get? m = if nodeId = m then none else w.runtimes.get? m)
        (fun _ t => rel w t ∧ t.runtimes = w.runtimes) := by
    intro ports u hu
    have hbefore : ∀ v, rel u v ∧ v.runtimes = u.runtimes → rel w v ∧ v.runtimes = w.runtimes :=
      fun v hv => ⟨h.composes.trans _ _ _ hu.1 hv.1, hv.2.trans hu.2⟩
    have hcommands : Frames (fun s t => rel s t ∧ t.runtimes = s.runtimes) (do
        run (.halt nodeId)
        ports.forM tryLinkDel
        run (.sweepNode nodeId) : HostM Unit) :=
      Frames.bind hsame.composes (hrun _ rfl) (fun _ =>
        Frames.bind hsame.composes (frames_sweepPorts hsame hall ports) (fun _ => hrun _ rfl))
    have hthen := (hcommands u).mono (fun _ v hv => hbefore v hv) (fun _ v hv => hbefore v hv)
    simp only [ends_bind] at hthen ⊢
    refine hthen.mono (fun _ v hv => ?_) (fun _ _ hv => hv)
    refine hv.mono (fun _ x hx => ?_) (fun _ _ hx => hx)
    refine hx.mono (fun _ y hy => ?_) (fun _ _ hy => hy)
    rw [ends_modify]
    refine ⟨h.composes.trans _ _ _ hy.1 (h.record y _), fun m => ?_⟩
    dsimp only
    rw [hy.2, hpop]
  unfold stopNode
  rw [ends_bind, ends_runtimeRecord]
  cases hget : w.runtimes.get? nodeId with
  | none =>
    refine ⟨h.composes.refl w, fun m => ?_⟩
    split
    next hm => rw [← hm, hget]
    next => rfl
  | some r =>
    dsimp only
    cases halive : r.alive with
    | false => exact ⟨h.record w _, hpop⟩
    | true =>
      simp only [Bool.or_true, if_true]
      split
      next =>
        rw [ends_bind]
        refine (hrun _ rfl w).mono (fun _ u hu => hrest _ u hu) (fun _ _ hu => hu)
      next => exact hrest _ w ⟨h.composes.refl w, rfl⟩

end NovaVe
