import NovaVe.RecordEdits

namespace NovaVe

/-- The commands that take a NIC of a node away: its device, its netdev or its TAP. -/
def HostCall.endsNic (nodeId interfaceIndex : Int) : HostCall → Bool
  | .deviceDel n i | .netdevDel n i => decide (n = nodeId ∧ i = interfaceIndex)
  | .tapDel port | .linkDel port => decide (port = .tap nodeId interfaceIndex)
  | .sweepNode n => decide (n = nodeId)
  | _ => false

/-- A command that takes no boot NIC of the node away. -/
def SparesNics (nodeId bootEthernet : Int) (c : HostCall) : Prop :=
  ∀ i < bootEthernet, c.endsNic nodeId i = false

def World.HasTap (w : World) (nodeId interfaceIndex : Int) : Prop :=
  (w.host.ports.get? (.tap nodeId interfaceIndex)).isSome = true

/-- Between two worlds no boot NIC of the node was taken away, and its TAPs are where they were. -/
structure NicsSpared (nodeId bootEthernet : Int) (w t : World) : Prop where
  issues : Issues (SparesNics nodeId bootEthernet) w t
  taps : ∀ i < bootEthernet, w.HasTap nodeId i → t.HasTap nodeId i

/-- A command that does not end a NIC leaves its TAP on the host. -/
theorem effect_hasTap {c : HostCall} {nodeId i : Int} (hc : c.endsNic nodeId i = false) {host : Host}
    (h : (host.ports.get? (.tap nodeId i)).isSome = true) :
    ((c.effect host).ports.get? (.tap nodeId i)).isSome = true := by
  have hset : ∀ port, ((host.ports.set port {}).get? (.tap nodeId i)).isSome = true := by
    intro port
    rw [Dict.get?_set]
    split
    next => rfl
    next => exact h
  have hpop : ∀ port, port ≠ .tap nodeId i →
      ((host.ports.pop port).get? (.tap nodeId i)).isSome = true := by
    intro port hne
    rw [Dict.get?_pop, if_neg hne]
    exact h
  have hmodify : ∀ port (f : PortState → PortState),
      ((host.ports.modify port f).get? (.tap nodeId i)).isSome = true := by
    intro port f
    rw [Dict.get?_modify]
    split
    next => rw [Option.isSome_map, h]
    next => exact h
  cases c with
  | tapAdd port => exact hset port
  | vethPairAdd port => exact hset port
  | tapDel port => exact hpop port (of_decide_eq_false hc)
  | linkDel port => exact hpop port (of_decide_eq_false hc)
  | linkMaster port bridge => exact hmodify port _
  | linkNomaster port => exact hmodify port _
  | linkUp port => exact hmodify port _
  | bridgeDel bridge =>
    show ((host.ports.mapValues _).get? (.tap nodeId i)).isSome = true
    rw [Dict.get?_mapValues, Option.isSome_map, h]
  | sweepNode n =>
    have hne : n ≠ nodeId := of_decide_eq_false hc
    have hkeep : decide ((Port.tap nodeId i).nodeId ≠ n) = true := decide_eq_true (Ne.symm hne)
    show ((host.ports.filterKeys _).get? (.tap nodeId i)).isSome = true
    rw [Dict.get?_filterKeys, if_pos hkeep, h]
  | _ => exact h

theorem workings_nicsSpared (nodeId bootEthernet : Int) :
    Workings (SparesNics nodeId bootEthernet) (NicsSpared nodeId bootEthernet) where
  composes := by
    have hissues := (workings_issues (SparesNics nodeId bootEthernet)).composes
    refine ⟨fun s => ⟨hissues.refl s, fun _ _ h => h⟩, ?_⟩
    intro s t u hst htu
    exact ⟨hissues.trans s t u hst.issues htu.issues, fun i hi h => htu.taps i hi (hst.taps i hi h)⟩
  command := by
    intro w c hc
    refine ⟨(workings_issues _).command w c hc, ?_⟩
    intro i hi h
    unfold World.HasTap World.after
    dsimp only
    split
    next => exact effect_hasTap (hc i hi) h
    next => exact h
  warning := fun w x => ⟨(workings_issues _).warning w x, fun _ _ h => h⟩
  plannedMac := fun w x => ⟨(workings_issues _).plannedMac w x, fun _ _ h => h⟩
  record := fun w d => ⟨(workings_issues _).record w d, fun _ _ h => h⟩

/-- Another interface than a boot NIC of the node. -/
def OffBoot (nodeId bootEthernet m j : Int) : Prop := m = nodeId → bootEthernet ≤ j

theorem sparesNics_port {nodeId bootEthernet m j : Int} (hoff : OffBoot nodeId bootEthernet m j)
    {port : Port} (hport : port.interface = (m, j)) :
    ∀ i < bootEthernet, port ≠ .tap nodeId i := by
  rintro i hi rfl
  have heq : (nodeId, i) = (m, j) := hport
  obtain ⟨rfl, rfl⟩ := Prod.mk.inj heq
  have hle := hoff rfl
  omega

/-- The commands about another interface spare the boot NICs of the node. -/
theorem okAt_sparesNics {nodeId bootEthernet m j : Int} (hoff : OffBoot nodeId bootEthernet m j)
    (bridge : Option String) : OkAt (SparesNics nodeId bootEthernet) m j bridge := by
  have hkey : ∀ n i, (n, i) = (m, j) → ∀ k < bootEthernet, decide (n = nodeId ∧ i = k) = false := by
    rintro n i heq k hk
    obtain ⟨rfl, rfl⟩ := Prod.mk.inj heq
    apply decide_eq_false
    rintro ⟨rfl, rfl⟩
    have hle := hoff rfl
    omega
  intro c habout _ k hk
  cases c with
  | deviceDel n i =>
    rcases habout with ⟨hnone, _⟩ | hat
    · cases hnone
    · exact hkey n i (Option.some.inj hat) k hk
  | netdevDel n i =>
    rcases habout with ⟨hnone, _⟩ | hat
    · cases hnone
    · exact hkey n i (Option.some.inj hat) k hk
  | tapDel port =>
    rcases habout with ⟨hnone, _⟩ | hat
    · cases hnone
    · exact decide_eq_false (sparesNics_port hoff (Option.some.inj hat) k hk)
  | linkDel port =>
    rcases habout with ⟨hnone, _⟩ | hat
    · cases hnone
    · exact decide_eq_false (sparesNics_port hoff (Option.some.inj hat) k hk)
  | sweepNode n =>
    rcases habout with ⟨_, hprocess⟩ | hat
    · cases hprocess
    · cases hat
  | _ => rfl

theorem aside_sparesNics (nodeId bootEthernet : Int) : Aside (SparesNics nodeId bootEthernet) := by
  intro c hnone hprocess _
  have hoff : OffBoot nodeId bootEthernet nodeId bootEthernet := fun _ => Int.le_refl _
  exact okAt_sparesNics hoff c.master? c (Or.inl ⟨hnone, hprocess⟩) (Or.inl ‹_›)

theorem tapOk_sparesNics (nodeId bootEthernet m j : Int) (bridge : String) :
    TapOk (SparesNics nodeId bootEthernet) m j bridge :=
  ⟨fun _ _ => rfl, fun _ _ => rfl, fun _ _ => rfl, fun _ _ => rfl, fun _ _ => rfl⟩

/-- An attach of a boot NIC whose TAP is on the host takes nothing down. -/
theorem attachBootNic_there {ok : HostCall → Prop} {rel : World → World → Prop} (h : Commands ok rel)
    {nodeId i : Int} {bridge : String} (hok : TapOk ok nodeId i bridge)
    (hdown : ok (.linkNomaster (.tap nodeId i))) (driver : Option String) {w : World}
    (hthere : w.HasTap nodeId i) :
    Ends (attachBootNic nodeId i bridge driver) w (fun _ t => rel w t) (fun _ t => rel w t) := by
  have hlook := h.command w (.tapExists (.tap nodeId i)) hok.look
  have hfound : ((w.after (.tapExists (.tap nodeId i))).host.ports.get? (.tap nodeId i)).isSome =
      true := by
    rw [World.after_look (fun _ => rfl)]
    exact hthere
  have hbody : Frames rel (onRaise (do
      linkMasterAny (.tap nodeId i) bridge driver
      onRaise (do
        run (.linkUp (.tap nodeId i))
        swallow (run (.setLink nodeId i true)))
        (swallow (run (.linkNomaster (.tap nodeId i)))))
      (pure () : HostM Unit)) := by
    refine Frames.onRaise h.composes ?_ (Frames.pure h.composes ())
    refine Frames.bind h.composes (frames_linkMasterAny h driver hok.master) (fun _ => ?_)
    refine Frames.onRaise h.composes ?_ (Frames.swallow h.composes (frames_run h hdown))
    exact Frames.bind h.composes (frames_run h hok.up)
      (fun _ => Frames.swallow h.composes (frames_run h hok.carrier))
  unfold attachBootNic tapExists
  rw [ends_bind, ends_bind, ends_run]
  split
  next => exact hlook
  next =>
    rw [ends_bind, ends_get, ends_pure, hfound]
    exact hbody.onward h.composes hlook

/-- What an attach to a boot NIC of a running node needs of the world. -/
def BootReady (nodeId bootEthernet m j : Int) (w : World) : Prop :=
  m = nodeId → j < bootEthernet → ∀ r, w.runtimes.get? nodeId = some r →
    r.bootEthernet = bootEthernet ∧ (r.attachment? j = none → w.HasTap nodeId j)

theorem attachNic_spares {n boot m j : Int} {r : NodeRuntime} (source : NicSource) (networkId : Int)
    (bridge : String) {w : World} (hget : w.runtimes.get? m = some r)
    (hnone : r.attachment? j = none) (hready : BootReady n boot m j w) :
    Ends (attachNic source r m networkId j bridge) w
      (fun slot t => NicsSpared n boot w t ∧ NicDone w t m r j slot)
      (fun _ t => NicsSpared n boot w t ∧ t.runtimes = w.runtimes) := by
  have hspared := workings_nicsSpared n boot
  by_cases hoff : OffBoot n boot m j
  · exact attachNic_spec hspared source (okAt_sparesNics hoff _) networkId hget
  · unfold OffBoot at hoff
    obtain ⟨rfl, hlt⟩ := Classical.not_imp.mp hoff
    obtain ⟨hboot, htap⟩ := hready rfl (by omega) r hget
    have hthere := htap hnone
    unfold attachNic
    rw [if_pos (by omega), ends_bind]
    exact (attachBootNic_there hspared.toCommands.sameRuntimes (tapOk_sparesNics m boot m j bridge)
      (fun _ _ => rfl) (source.driver networkId) hthere).mono
        (fun _ t ht => ⟨ht.1, Or.inl ⟨by omega, rfl, ht.2⟩⟩) (fun _ _ ht => ht)

/-- An attach, as a QEMU attach where the node is the one whose NICs are spared. -/
theorem attachInterface_spares {n boot m j : Int} (source : NicSource) {kind : RuntimeKind}
    (networkId : Int) (bridge : String) {w : World} (hkind : m = n → kind = .qemu)
    (hready : BootReady n boot m j w) :
    Ends (attachInterface source kind m networkId j bridge) w
      (fun _ t => NicsSpared n boot w t ∧ w.Edits t m (fun r r' => r.Adds r' m j))
      (fun _ t => NicsSpared n boot w t ∧ w.Edits t m (fun r r' => r.Adds r' m j)) := by
  have hspared := workings_nicsSpared n boot
  unfold attachInterface
  split
  next hdocker =>
    have hoff : OffBoot n boot m j := by
      intro heq
      rw [hkind heq] at hdocker
      cases hdocker
    refine (attachDockerInterface_spec hspared source (okAt_sparesNics hoff _) networkId w).mono ?_
      (fun _ t ht => ⟨ht.1, Or.inl ht.2⟩)
    intro _ t ht
    refine ⟨ht.1, ht.2.edits ?_⟩
    rintro r r' hfree ⟨hdocker', rfl⟩
    exact withDockerAttachment_adds m networkId bridge hdocker' hfree
  next =>
    have hmutex := hspared.command w (.nodeMutex m) (fun _ _ => rfl)
    unfold attachQemuInterface
    rw [ends_bind, ends_run]
    split
    next => exact ⟨hmutex, Or.inl (Or.inl rfl)⟩
    next =>
      refine (@attachQemuInner_spec _ _ hspared source m j networkId bridge (w.after (.nodeMutex m))
        (fun _ _ => rfl) ?_).mono ?_ ?_
      · intro r hget hnone
        have hfound : ((w.after (.nodeMutex m)).after (.bridgeExists bridge)).runtimes.get? m = some r :=
          hget
        apply attachNic_spares source networkId bridge hfound hnone
        intro heq hlt r' hr'
        obtain ⟨hboot, htap⟩ := hready heq hlt r' hr'
        refine ⟨hboot, fun hn => ?_⟩
        have hmore := hspared.command (w.after (.nodeMutex m)) (.bridgeExists bridge) (fun _ _ => rfl)
        exact hmore.taps j hlt (hmutex.taps j hlt (htap hn))
      · intro _ t ht
        refine ⟨hspared.composes.trans _ _ _ hmutex ht.1, ?_⟩
        have hedits : (w.after (.nodeMutex m)).Edits t m (fun r r' => r.Adds r' m j) := by
          apply ht.2.edits
          rintro r r' hfree ⟨_, hattached⟩
          exact qemuAttached_adds hattached hfree
        exact hedits
      · intro _ t ht
        exact ⟨hspared.composes.trans _ _ _ hmutex ht.1, Or.inl ht.2⟩

/-- A detach of a boot NIC of the node meets an entry with the flag, or is stale. -/
def BootFlagged (nodeId bootEthernet m j : Int) (expectedGeneration : Option Int) (w : World) : Prop :=
  m = nodeId → j < bootEthernet → ∀ r entry, w.runtimes.get? nodeId = some r →
    r.attachment? j = some entry → staleFor r j expectedGeneration = false → entry.bootNic = true

theorem entry_port {r : NodeRuntime} {m j : Int} {entry : Attachment} (hown : r.OwnPorts m)
    (hentry : r.attachment? j = some entry) {port : Port} (hport : port.interface = (m, j)) :
    (entry.port.getD port).interface = (m, j) := by
  have hindex : entry.interfaceIndex = j := by simpa [onInterface] using List.find?_some hentry
  cases hp : entry.port with
  | none => exact hport
  | some p =>
    rw [← hindex]
    exact hown entry (List.mem_of_find?_eq_some hentry) p hp

theorem detachInterface_spares {n boot m j : Int} {kind : RuntimeKind} (expectedGeneration : Option Int)
    {w : World} (hown : w.OwnPorts) (hkind : m = n → kind = .qemu)
    (hflag : BootFlagged n boot m j expectedGeneration w) :
    Ends (detachInterface kind m j expectedGeneration) w
      (fun _ t => NicsSpared n boot w t ∧ w.Edits t m (fun r r' => r.Detached r' m j expectedGeneration))
      (fun _ t => NicsSpared n boot w t ∧
        w.Edits t m (fun r r' => r.Detached r' m j expectedGeneration)) := by
  have hspared := workings_nicsSpared n boot
  unfold detachInterface
  split
  next hdocker =>
    have hoff : OffBoot n boot m j := by
      intro heq
      rw [hkind heq] at hdocker
      cases hdocker
    refine (detachDockerInterface_spec hspared expectedGeneration ?_).mono ?_ ?_
    · intro r entry hget hentry _
      have hport := @entry_port r m j entry (hown m r hget) hentry (.veth m j) rfl
      exact okAt_sparesNics hoff none (.linkDel _) (Or.inr (congrArg some hport)) (Or.inl rfl)
    · intro _ t ht
      exact ⟨ht.1, ht.2.edits (fun r entry r' hfresh hgone => ⟨dockerGone_drops hgone, hfresh⟩)⟩
    · intro _ t ht
      exact ⟨ht.1, Or.inl (Or.inl ht.2)⟩
  next =>
    refine (detachQemuInterface_spec hspared expectedGeneration (fun _ _ => rfl) ?_).mono ?_ ?_
    · intro r entry hget hentry hfresh
      have hport := @entry_port r m j entry (hown m r hget) hentry (.tap m j) rfl
      refine frames_detachNic hspared.toCommands.sameRuntimes ?_ (fun _ _ => rfl) (fun _ _ => rfl)
      intro hunflagged
      have hoff : OffBoot n boot m j := by
        intro heq
        by_contra hlt
        have htrue := hflag heq (by omega) r entry (by rw [← heq]; exact hget) hentry hfresh
        rw [hunflagged] at htrue
        cases htrue
      exact ⟨(okAt_sparesNics hoff none).remove,
        okAt_sparesNics hoff none (.tapDel _) (Or.inr (congrArg some hport)) (Or.inl rfl)⟩
    · intro _ t ht
      exact ⟨ht.1, ht.2.edits (fun r entry r' hfresh hgone => ⟨qemuGone_drops hgone, hfresh⟩)⟩
    · intro _ t ht
      exact ⟨ht.1, Or.inl (Or.inl ht.2)⟩

end NovaVe
