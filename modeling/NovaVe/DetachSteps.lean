import NovaVe.AttachSteps

namespace NovaVe

/-- What a detach that does not raise did: nothing was there, the generation was another, or the
entry is gone. -/
def DetachDone (w t : World) (nodeId interfaceIndex : Int) (expectedGeneration : Option Int)
    (state : DetachState) (there : NodeRuntime → Prop)
    (gone : NodeRuntime → Attachment → NodeRuntime → Prop) : Prop :=
  (state = .absent ∧ t.runtimes = w.runtimes ∧
      ∀ r, w.runtimes.get? nodeId = some r → there r → r.attachment? interfaceIndex = none) ∨
    ∃ r entry, w.runtimes.get? nodeId = some r ∧ there r ∧
      r.attachment? interfaceIndex = some entry ∧
      ((state = .staleNoop ∧ staleFor r interfaceIndex expectedGeneration = true ∧
          t.runtimes = w.runtimes) ∨
        ((state = .detached ∨ state = .forced) ∧
          staleFor r interfaceIndex expectedGeneration = false ∧
          ∃ r', gone r entry r' ∧ t.runtimes = w.runtimes.set nodeId r'))

def dockerGone (nodeId interfaceIndex : Int) (r : NodeRuntime) (entry : Attachment)
    (r' : NodeRuntime) : Prop :=
  r' = r.withoutDockerAttachment interfaceIndex (entry.port.getD (.veth nodeId interfaceIndex))

def qemuGone (nodeId interfaceIndex : Int) (r : NodeRuntime) (entry : Attachment)
    (r' : NodeRuntime) : Prop :=
  ∃ forced, r' = (r.withoutQemuAttachment interfaceIndex entry
    (entry.port.getD (.tap nodeId interfaceIndex)) forced).bump interfaceIndex

/-- `_detach_docker_interface_locked`, whatever the host answers. -/
theorem detachDockerInterface_spec {ok : HostCall → Prop} {rel : World → World → Prop}
    (h : Workings ok rel) {nodeId interfaceIndex : Int} (expectedGeneration : Option Int) {w : World}
    (hok : ∀ r entry, w.runtimes.get? nodeId = some r → r.attachment? interfaceIndex = some entry →
      staleFor r interfaceIndex expectedGeneration = false →
      ok (.linkDel (entry.port.getD (.veth nodeId interfaceIndex)))) :
    Ends (detachDockerInterface nodeId interfaceIndex expectedGeneration) w
      (fun state t => rel w t ∧ DetachDone w t nodeId interfaceIndex expectedGeneration state
        (fun _ => True) (dockerGone nodeId interfaceIndex))
      (fun _ t => rel w t ∧ t.runtimes = w.runtimes) := by
  have hsame := h.toCommands.sameRuntimes
  unfold detachDockerInterface
  rw [ends_bind, ends_runtimeRecord]
  cases hget : w.runtimes.get? nodeId with
  | none =>
    refine ⟨h.composes.refl w, Or.inl ⟨rfl, rfl, fun r hr => ?_⟩⟩
    rw [hget] at hr
    cases hr
  | some r =>
    simp only [Bool.true_or, if_true]
    cases hentry : r.attachment? interfaceIndex with
    | none =>
      refine ⟨h.composes.refl w, Or.inl ⟨rfl, rfl, fun r' hr' _ => ?_⟩⟩
      obtain rfl : r = r' := Option.some.inj (hget.symm.trans hr')
      exact hentry
    | some entry =>
      dsimp only
      split
      next hstale =>
        exact ⟨h.composes.refl w,
          Or.inr ⟨r, entry, hget, trivial, hentry, Or.inl ⟨rfl, hstale, rfl⟩⟩⟩
      next hfresh =>
        have hnot : staleFor r interfaceIndex expectedGeneration = false := by simpa using hfresh
        rw [ends_bind]
        refine (Frames.tryCatch hsame.composes (frames_run hsame (hok r entry hget hentry hnot))
          (fun e => ?_) w).mono (fun _ u hu => ?_) (fun _ u hu => hu)
        · split
          next => exact Frames.pure hsame.composes ()
          next => exact Frames.throw hsame.composes e
        · rw [ends_bind, ends_editRuntime]
          refine ⟨h.edit hu.1 _ _, Or.inr ⟨r, entry, hget, trivial, hentry,
            Or.inr ⟨Or.inl rfl, hnot, _, rfl, ?_⟩⟩⟩
          unfold World.editRuntime
          dsimp only
          rw [hu.2, Dict.modify_of_get? hget]

/-- `_detach_qemu_interface_inner`, whatever the host and QEMU answer, given its NIC part. -/
theorem detachQemuInner_spec {ok : HostCall → Prop} {rel : World → World → Prop}
    (h : Workings ok rel) {nodeId interfaceIndex : Int} (expectedGeneration : Option Int) {w : World}
    (hnic : ∀ r entry, w.runtimes.get? nodeId = some r → r.attachment? interfaceIndex = some entry →
      staleFor r interfaceIndex expectedGeneration = false →
      Frames (fun s t => rel s t ∧ t.runtimes = s.runtimes)
        (detachNic nodeId interfaceIndex entry (entry.port.getD (.tap nodeId interfaceIndex)))) :
    Ends (detachQemuInner nodeId interfaceIndex expectedGeneration) w
      (fun state t => rel w t ∧ DetachDone w t nodeId interfaceIndex expectedGeneration state
        (fun r => r.kind = .qemu) (qemuGone nodeId interfaceIndex))
      (fun _ t => rel w t ∧ t.runtimes = w.runtimes) := by
  unfold detachQemuInner
  rw [ends_bind, ends_runtimeRecord]
  cases hget : w.runtimes.get? nodeId with
  | none =>
    refine ⟨h.composes.refl w, Or.inl ⟨rfl, rfl, fun r hr => ?_⟩⟩
    rw [hget] at hr
    cases hr
  | some r =>
    have hsome : ∀ r', w.runtimes.get? nodeId = some r' → r = r' := fun r' hr' =>
      Option.some.inj (hget.symm.trans hr')
    simp only [Bool.true_or, if_true]
    split
    next hkind =>
      refine ⟨h.composes.refl w, Or.inl ⟨rfl, rfl, fun r' hr' hk => ?_⟩⟩
      rw [hsome r' hr'] at hkind
      exact absurd hk hkind
    next hkind =>
      cases hentry : r.attachment? interfaceIndex with
      | none =>
        refine ⟨h.composes.refl w, Or.inl ⟨rfl, rfl, fun r' hr' _ => ?_⟩⟩
        rw [← hsome r' hr']
        exact hentry
      | some entry =>
        have hthere : r.kind = .qemu := not_not.mp hkind
        dsimp only
        split
        next hstale =>
          exact ⟨h.composes.refl w,
            Or.inr ⟨r, entry, hget, hthere, hentry, Or.inl ⟨rfl, hstale, rfl⟩⟩⟩
        next hfresh =>
          split
          next => exact ⟨h.composes.refl w, rfl⟩
          next =>
            have hnot : staleFor r interfaceIndex expectedGeneration = false := by
              simpa using hfresh
            rw [ends_bind]
            refine (hnic r entry hget hentry hnot w).mono (fun forced u hu => ?_) (fun _ u hu => hu)
            rw [ends_bind, ends_editRuntime]
            refine ⟨h.edit hu.1 _ _, Or.inr ⟨r, entry, hget, hthere, hentry,
              Or.inr ⟨?_, hnot, _, ⟨forced, rfl⟩, ?_⟩⟩⟩
            · cases forced
              · exact Or.inl rfl
              · exact Or.inr rfl
            · unfold World.editRuntime
              dsimp only
              rw [hu.2, Dict.modify_of_get? hget]

theorem detachQemuInterface_spec {ok : HostCall → Prop} {rel : World → World → Prop}
    (h : Workings ok rel) {nodeId interfaceIndex : Int} (expectedGeneration : Option Int) {w : World}
    (hmutex : ok (.nodeMutex nodeId))
    (hnic : ∀ r entry, w.runtimes.get? nodeId = some r → r.attachment? interfaceIndex = some entry →
      staleFor r interfaceIndex expectedGeneration = false →
      Frames (fun s t => rel s t ∧ t.runtimes = s.runtimes)
        (detachNic nodeId interfaceIndex entry (entry.port.getD (.tap nodeId interfaceIndex)))) :
    Ends (detachQemuInterface nodeId interfaceIndex expectedGeneration) w
      (fun state t => rel w t ∧ DetachDone w t nodeId interfaceIndex expectedGeneration state
        (fun r => r.kind = .qemu) (qemuGone nodeId interfaceIndex))
      (fun _ t => rel w t ∧ t.runtimes = w.runtimes) := by
  have hfirst := h.command w (.nodeMutex nodeId) hmutex
  unfold detachQemuInterface
  rw [ends_bind, ends_run]
  split
  next => exact ⟨hfirst, rfl⟩
  next =>
    refine (detachQemuInner_spec h expectedGeneration (w := w.after (.nodeMutex nodeId)) hnic).mono
      (fun state t ht => ⟨h.composes.trans _ _ _ hfirst ht.1, ht.2⟩)
      (fun _ t ht => ⟨h.composes.trans _ _ _ hfirst ht.1, ht.2⟩)

/-- The registry after a rollback that came to its end. -/
def RolledBack (w t : World) (nodeId : Int) (back : NodeRuntime → NodeRuntime) : Prop :=
  match w.runtimes.get? nodeId with
  | none => t.runtimes = w.runtimes
  | some r =>
    if r.alive then t.runtimes = w.runtimes.set nodeId (back r)
    else t.runtimes = w.runtimes.pop nodeId

def NodeRuntime.rolledBack (r : NodeRuntime) (kind : RuntimeKind) (nodeId interfaceIndex : Int) :
    NodeRuntime :=
  if kind = .docker then r.rolledBackDocker nodeId interfaceIndex
  else r.rolledBackQemu nodeId interfaceIndex

/-- The end of both rollbacks: the record, if the node is still running. -/
theorem editIfAlive_spec {rel : World → World → Prop} {ok : HostCall → Prop} (h : Workings ok rel)
    {w u : World} {nodeId : Int} {back : NodeRuntime → NodeRuntime} (hrel : rel w u)
    (hsame : u.runtimes = w.runtimes) {r : NodeRuntime} (hget : w.runtimes.get? nodeId = some r)
    (halive : r.alive = true) :
    rel w (u.editRuntime nodeId back) ∧ RolledBack w (u.editRuntime nodeId back) nodeId back := by
  refine ⟨h.edit hrel _ _, ?_⟩
  unfold RolledBack World.editRuntime
  rw [hget]
  dsimp only
  rw [if_pos halive, hsame, Dict.modify_of_get? hget]

/-- The rollback of one endpoint, whatever the host and QEMU answer. -/
theorem rollbackTarget_spec {ok : HostCall → Prop} {rel : World → World → Prop}
    (h : Workings ok rel) (kind : RuntimeKind) {nodeId interfaceIndex : Int} {w : World}
    (hok : OkAt ok nodeId interfaceIndex none) :
    Ends (rollbackTarget kind nodeId interfaceIndex) w
      (fun _ t => rel w t ∧
        RolledBack w t nodeId (fun r => r.rolledBack kind nodeId interfaceIndex))
      (fun _ t => rel w t ∧ t.runtimes = w.runtimes) := by
  have hsame := h.toCommands.sameRuntimes
  unfold rollbackTarget
  split
  next hkind =>
    rw [ends_bind]
    refine (frames_tryLinkDel hsame (hok (.linkDel (.veth nodeId interfaceIndex)) (Or.inr rfl) (Or.inl rfl))
      w).mono (fun _ u hu => ?_) (fun _ _ hu => hu)
    rw [ends_bind, ends_runtimeRecord, hu.2]
    cases hget : w.runtimes.get? nodeId with
    | none => exact ⟨hu.1, by simp [RolledBack, hget, hu.2]⟩
    | some r =>
      dsimp only
      cases halive : r.alive with
      | false =>
        refine ⟨h.composes.trans _ _ _ hu.1 (h.record u _), ?_⟩
        simp [RolledBack, hget, halive]
      | true =>
        have hback : (fun r : NodeRuntime => r.rolledBack kind nodeId interfaceIndex) =
            (fun r => r.rolledBackDocker nodeId interfaceIndex) := by
          funext r
          simp [NodeRuntime.rolledBack, hkind]
        rw [hback]
        exact editIfAlive_spec h hu.1 hu.2 hget halive
  next hkind =>
    have hback : (fun r : NodeRuntime => r.rolledBack kind nodeId interfaceIndex) =
        (fun r => r.rolledBackQemu nodeId interfaceIndex) := by
      funext r
      simp [NodeRuntime.rolledBack, hkind]
    rw [hback, ends_bind, ends_runtimeRecord]
    cases hget : w.runtimes.get? nodeId with
    | none => exact ⟨h.composes.refl w, by simp [RolledBack, hget]⟩
    | some r =>
      dsimp only
      cases halive : r.alive with
      | false =>
        refine ⟨h.record w _, ?_⟩
        simp [RolledBack, hget, halive]
      | true =>
        simp only [Bool.or_true, if_true]
        rw [ends_bind]
        refine (frames_rollbackNic hsame r hok w).mono (fun _ u hu => ?_) (fun _ _ hu => hu)
        exact editIfAlive_spec h hu.1 hu.2 hget halive

end NovaVe
