import NovaVe.CommandFrames

namespace NovaVe

/-- A relation that commands of a kind respect, and that does not look at the registry. -/
structure Workings (ok : HostCall → Prop) (rel : World → World → Prop) : Prop extends
    Commands ok rel where
  record : ∀ w d, rel w { w with runtimes := d }

theorem workings_true : Workings (fun _ => True) (fun _ _ => True) where
  toCommands := commands_true
  record := fun _ _ => trivial

theorem Workings.edit {ok : HostCall → Prop} {rel : World → World → Prop} (h : Workings ok rel)
    {w t : World} (hrel : rel w t) (nodeId : Int) (f : NodeRuntime → NodeRuntime) :
    rel w (t.editRuntime nodeId f) :=
  h.composes.trans _ _ _ hrel (h.record t _)

/-- The registry after a call that attached or detached nothing: a dead record is gone. -/
def Untouched (w t : World) (nodeId : Int) : Prop :=
  t.runtimes = w.runtimes ∨
    ∃ r, w.runtimes.get? nodeId = some r ∧ r.alive = false ∧ t.runtimes = w.runtimes.pop nodeId

/-- What an attach that succeeds did: the interface had its entry already, or a new record has it. -/
def AttachDone (w t : World) (nodeId networkId interfaceIndex : Int) (generation : Option Int)
    (new : NodeRuntime → NodeRuntime → Prop) : Prop :=
  ∃ r, w.runtimes.get? nodeId = some r ∧ r.alive = true ∧
    ((∃ entry, r.attachment? interfaceIndex = some entry ∧ entry.networkId = networkId ∧
        generation = entry.attachGeneration ∧ t.runtimes = w.runtimes) ∨
      (r.attachment? interfaceIndex = none ∧ generation = some (r.generation interfaceIndex + 1) ∧
        ∃ r', new r r' ∧ t.runtimes = w.runtimes.set nodeId r'))

/-- `_attach_docker_interface_locked`, whatever the host answers. -/
theorem attachDockerInterface_spec {ok : HostCall → Prop} {rel : World → World → Prop}
    (h : Workings ok rel) (source : NicSource) {nodeId interfaceIndex : Int} {bridge : String}
    (hok : OkAt ok nodeId interfaceIndex (some bridge)) (networkId : Int) (w : World) :
    Ends (attachDockerInterface source nodeId networkId interfaceIndex bridge) w
      (fun generation t => rel w t ∧
        AttachDone w t nodeId networkId interfaceIndex generation (fun r r' =>
          r.kind = .docker ∧ r' = r.withDockerAttachment nodeId networkId interfaceIndex bridge))
      (fun _ t => rel w t ∧ Untouched w t nodeId) := by
  have hsame := h.toCommands.sameRuntimes
  unfold attachDockerInterface
  rw [ends_bind, ends_runtimeRecord]
  cases hget : w.runtimes.get? nodeId with
  | none => exact ⟨h.composes.refl w, Or.inl rfl⟩
  | some r =>
    dsimp only
    cases halive : r.alive with
    | false => exact ⟨h.record w _, Or.inr ⟨r, hget, halive, rfl⟩⟩
    | true =>
      simp only [Bool.or_true, if_true]
      split
      next => exact ⟨h.composes.refl w, Or.inl rfl⟩
      next hkind =>
        split
        next => exact ⟨h.composes.refl w, Or.inl rfl⟩
        next =>
          cases hentry : r.attachment? interfaceIndex with
          | some entry =>
            dsimp only
            split
            next hnet =>
              exact ⟨h.composes.refl w, r, hget, halive,
                Or.inl ⟨entry, hentry, hnet, rfl, rfl⟩⟩
            next => exact ⟨h.composes.refl w, Or.inl rfl⟩
          | none =>
            dsimp only
            rw [ends_bind]
            refine (frames_bridgeExists hsame (hok (.bridgeExists bridge) (Or.inl ⟨rfl, rfl⟩) (Or.inl rfl)) w).mono
              (fun there u hu => ?_) (fun _ u hu => ⟨hu.1, Or.inl hu.2⟩)
            cases there with
            | false => exact ⟨hu.1, Or.inl hu.2⟩
            | true =>
              rw [if_pos rfl, ends_bind]
              refine (Frames.onRaise hsame.composes
                (frames_attachDockerInterfaceInitial hsame hok (source.driver networkId))
                (frames_tryLinkDel hsame (hok (.linkDel (.veth nodeId interfaceIndex))
                  (Or.inr rfl) (Or.inl rfl)))
                u).mono
                (fun _ v hv => ?_)
                (fun _ v hv => ⟨h.composes.trans _ _ _ hu.1 hv.1, Or.inl (hv.2.trans hu.2)⟩)
              have hruntimes : v.runtimes = w.runtimes := hv.2.trans hu.2
              refine ⟨h.edit (h.composes.trans _ _ _ hu.1 hv.1) _ _, r, hget, halive,
                Or.inr ⟨hentry, rfl, _, ⟨not_not.mp hkind, rfl⟩, ?_⟩⟩
              unfold World.editRuntime
              dsimp only
              rw [hruntimes, Dict.modify_of_get? hget]

/-- Releasing a slot that was just reserved gives back the record. -/
theorem reserveSlot_releaseSlot {r : NodeRuntime} {slot : Int} (h : slot ∉ r.allocatedSlots) :
    (r.reserveSlot slot).releaseSlot slot = r := by
  have hkept : r.allocatedSlots.filter (fun s => decide (s ≠ slot)) = r.allocatedSlots := by
    refine List.filter_eq_self.mpr (fun s hs => decide_eq_true ?_)
    intro he
    exact h (he ▸ hs)
  unfold NodeRuntime.releaseSlot NodeRuntime.reserveSlot
  dsimp only
  rw [if_neg h, List.filter_append, hkept]
  simp

/-- The hot-plug branch: the slot it took was free and is on the record, or the record is as it
was. -/
theorem attachHotplugNic_spec {ok : HostCall → Prop} {rel : World → World → Prop}
    (h : Workings ok rel) (source : NicSource) {r : NodeRuntime} {nodeId interfaceIndex : Int} {bridge : String}
    (hok : OkAt ok nodeId interfaceIndex (some bridge)) (networkId : Int) {w : World}
    (hget : w.runtimes.get? nodeId = some r) :
    Ends (attachHotplugNic source r nodeId networkId interfaceIndex bridge) w
      (fun slot t => rel w t ∧ ∃ s, slot = some s ∧ r.FreeSlot s ∧
        t.runtimes = w.runtimes.set nodeId (r.reserveSlot s))
      (fun _ t => rel w t ∧ t.runtimes = w.runtimes) := by
  have hsame := h.toCommands.sameRuntimes
  unfold attachHotplugNic
  rw [ends_bind]
  refine (yields_findFreePcieSlot hsame r (hok (.queryPci nodeId) (Or.inl ⟨rfl, rfl⟩) (Or.inl rfl)) w).mono
    (fun slot u hu => ?_) (fun _ u hu => hu)
  obtain ⟨hu, hslot⟩ := hu
  cases slot with
  | none => exact hu
  | some slot =>
    have hfree := hslot slot rfl
    dsimp only
    have hreserved : (u.editRuntime nodeId (fun r => r.reserveSlot slot)).runtimes =
        w.runtimes.set nodeId (r.reserveSlot slot) := by
      unfold World.editRuntime
      dsimp only
      rw [hu.2, Dict.modify_of_get? hget]
    have hrel := h.edit hu.1 nodeId (fun r => r.reserveSlot slot)
    rw [ends_bind, ends_editRuntime, ends_bind, ends_onRaise]
    refine (frames_hotAddNic hsame hok slot (source.driver networkId) _).mono
      (fun _ v hv => ?_) (fun _ v hv => ?_)
    · exact ⟨h.composes.trans _ _ _ hrel hv.1, slot, rfl, hfree, hv.2.trans hreserved⟩
    · rw [ends_editRuntime]
      refine ⟨h.edit (h.composes.trans _ _ _ hrel hv.1) _ _, ?_⟩
      unfold World.editRuntime
      dsimp only
      rw [hv.2, hreserved, Dict.modify_set, reserveSlot_releaseSlot hfree.2.2, Dict.set_get hget]

/-- How a QEMU attach changes the record: a hot-plug NIC takes a slot, a boot NIC none. -/
def NodeRuntime.QemuAttached (r r' : NodeRuntime) (source : NicSource)
    (nodeId networkId interfaceIndex : Int) (bridge : String) : Prop :=
  (interfaceIndex < r.bootEthernet ∧
      r' = r.withQemuAttachment source nodeId networkId interfaceIndex bridge none) ∨
    (r.bootEthernet ≤ interfaceIndex ∧ ∃ slot, r.FreeSlot slot ∧
      r' = (r.reserveSlot slot).withQemuAttachment source nodeId networkId interfaceIndex bridge
        (some slot))

/-- What the NIC part of an attach leaves in the registry. -/
def NicDone (w t : World) (nodeId : Int) (r : NodeRuntime) (interfaceIndex : Int) (slot : Option Int) :
    Prop :=
  (interfaceIndex < r.bootEthernet ∧ slot = none ∧ t.runtimes = w.runtimes) ∨
    (r.bootEthernet ≤ interfaceIndex ∧ ∃ s, slot = some s ∧ r.FreeSlot s ∧
      t.runtimes = w.runtimes.set nodeId (r.reserveSlot s))

theorem attachNic_spec {ok : HostCall → Prop} {rel : World → World → Prop} (h : Workings ok rel)
    (source : NicSource) {r : NodeRuntime} {nodeId interfaceIndex : Int} {bridge : String}
    (hok : OkAt ok nodeId interfaceIndex (some bridge)) (networkId : Int) {w : World}
    (hget : w.runtimes.get? nodeId = some r) :
    Ends (attachNic source r nodeId networkId interfaceIndex bridge) w
      (fun slot t => rel w t ∧ NicDone w t nodeId r interfaceIndex slot)
      (fun _ t => rel w t ∧ t.runtimes = w.runtimes) := by
  unfold attachNic
  split
  next hlt =>
    rw [ends_bind]
    refine (frames_attachBootNic h.toCommands.sameRuntimes hok (source.driver networkId)
      w).mono (fun _ t ht => ⟨ht.1, Or.inl ⟨hlt, rfl, ht.2⟩⟩) (fun _ _ ht => ht)
  next hge =>
    refine (attachHotplugNic_spec h source hok networkId hget).mono
      (fun slot t ht => ⟨ht.1, Or.inr ⟨by omega, ht.2⟩⟩) (fun _ _ ht => ht)

/-- `_attach_qemu_interface_inner`, whatever the host and QEMU answer, given its NIC part. -/
theorem attachQemuInner_spec {ok : HostCall → Prop} {rel : World → World → Prop}
    (h : Workings ok rel) (source : NicSource) {nodeId interfaceIndex : Int} (networkId : Int)
    {bridge : String} {w : World} (hok : ok (.bridgeExists bridge))
    (hnic : ∀ r, w.runtimes.get? nodeId = some r → r.attachment? interfaceIndex = none →
      Ends (attachNic source r nodeId networkId interfaceIndex bridge)
        (w.after (.bridgeExists bridge))
        (fun slot t => rel (w.after (.bridgeExists bridge)) t ∧
          NicDone (w.after (.bridgeExists bridge)) t nodeId r interfaceIndex slot)
        (fun _ t => rel (w.after (.bridgeExists bridge)) t ∧ t.runtimes = w.runtimes)) :
    Ends (attachQemuInner source nodeId networkId interfaceIndex bridge) w
      (fun generation t => rel w t ∧
        AttachDone w t nodeId networkId interfaceIndex generation (fun r r' =>
          r.kind = .qemu ∧ r.QemuAttached r' source nodeId networkId interfaceIndex bridge))
      (fun _ t => rel w t ∧ Untouched w t nodeId) := by
  have hlook := h.command w (.bridgeExists bridge) hok
  unfold attachQemuInner
  rw [ends_bind, ends_runtimeRecord]
  cases hget : w.runtimes.get? nodeId with
  | none => exact ⟨h.composes.refl w, Or.inl rfl⟩
  | some r =>
    dsimp only
    cases halive : r.alive with
    | false => exact ⟨h.record w _, Or.inr ⟨r, hget, halive, rfl⟩⟩
    | true =>
      simp only [Bool.or_true, if_true]
      split
      next => exact ⟨h.composes.refl w, Or.inl rfl⟩
      next hkind =>
        split
        next => exact ⟨h.composes.refl w, Or.inl rfl⟩
        next =>
          split
          next => exact ⟨h.composes.refl w, Or.inl rfl⟩
          next =>
            cases hentry : r.attachment? interfaceIndex with
            | some entry =>
              dsimp only
              split
              next hnet =>
                exact ⟨h.composes.refl w, r, hget, halive,
                  Or.inl ⟨entry, hentry, hnet, rfl, rfl⟩⟩
              next => exact ⟨h.composes.refl w, Or.inl rfl⟩
            | none =>
              dsimp only
              rw [ends_bind, ends_bridgeExists]
              split
              next => exact ⟨hlook, Or.inl rfl⟩
              next =>
                split
                next =>
                  rw [ends_bind]
                  refine (hnic r hget hentry).mono (fun slot u hu => ?_)
                    (fun _ u hu => ⟨h.composes.trans _ _ _ hlook hu.1, Or.inl hu.2⟩)
                  obtain ⟨hrel, hdone⟩ := hu
                  have hnew : ∃ r', (r.kind = .qemu ∧
                      r.QemuAttached r' source nodeId networkId interfaceIndex bridge) ∧
                      (u.editRuntime nodeId (fun r => r.withQemuAttachment source nodeId networkId
                        interfaceIndex bridge slot)).runtimes = w.runtimes.set nodeId r' := by
                    unfold World.editRuntime
                    rcases hdone with ⟨hlt, rfl, hset⟩ | ⟨hge, s, rfl, hfree, hset⟩
                    · refine ⟨_, ⟨not_not.mp hkind, Or.inl ⟨hlt, rfl⟩⟩, ?_⟩
                      dsimp only
                      rw [hset, World.after_runtimes, Dict.modify_of_get? hget]
                    · refine ⟨_, ⟨not_not.mp hkind, Or.inr ⟨hge, s, hfree, rfl⟩⟩, ?_⟩
                      dsimp only
                      rw [hset, World.after_runtimes, Dict.modify_set]
                  obtain ⟨r', hr', hruntimes⟩ := hnew
                  have hedit := h.edit (h.composes.trans _ _ _ hlook hrel) nodeId
                    (fun r => r.withQemuAttachment source nodeId networkId interfaceIndex bridge slot)
                  have hdone' : AttachDone w (u.editRuntime nodeId (fun r =>
                      r.withQemuAttachment source nodeId networkId interfaceIndex bridge slot))
                      nodeId networkId interfaceIndex (some (r.generation interfaceIndex + 1))
                      (fun r r' => r.kind = .qemu ∧
                        r.QemuAttached r' source nodeId networkId interfaceIndex bridge) :=
                    ⟨r, hget, halive, Or.inr ⟨hentry, rfl, r', hr', hruntimes⟩⟩
                  rw [ends_bind, ends_editRuntime]
                  split
                  next =>
                    exact ⟨h.composes.trans _ _ _ hedit (h.plannedMac _ _), hdone'⟩
                  next => exact ⟨hedit, hdone'⟩
                next => exact ⟨hlook, Or.inl rfl⟩

/-- The same with the node mutex; where all commands of the interface are of the kind. -/
theorem attachQemuInterface_spec {ok : HostCall → Prop} {rel : World → World → Prop}
    (h : Workings ok rel) (source : NicSource) {nodeId interfaceIndex : Int} {bridge : String}
    (hok : OkAt ok nodeId interfaceIndex (some bridge)) (networkId : Int) (w : World) :
    Ends (attachQemuInterface source nodeId networkId interfaceIndex bridge) w
      (fun generation t => rel w t ∧
        AttachDone w t nodeId networkId interfaceIndex generation (fun r r' =>
          r.kind = .qemu ∧ r.QemuAttached r' source nodeId networkId interfaceIndex bridge))
      (fun _ t => rel w t ∧ Untouched w t nodeId) := by
  have hmutex := h.command w (.nodeMutex nodeId) (hok _ (Or.inl ⟨rfl, rfl⟩) (Or.inl rfl))
  unfold attachQemuInterface
  rw [ends_bind, ends_run]
  split
  next => exact ⟨hmutex, Or.inl rfl⟩
  next =>
    refine (attachQemuInner_spec h source networkId (hok _ (Or.inl ⟨rfl, rfl⟩) (Or.inl rfl))
      (fun r hget _ => attachNic_spec h source hok networkId hget)).mono
      (fun generation t ht => ⟨h.composes.trans _ _ _ hmutex ht.1, ht.2⟩)
      (fun _ t ht => ⟨h.composes.trans _ _ _ hmutex ht.1, ht.2⟩)

end NovaVe
