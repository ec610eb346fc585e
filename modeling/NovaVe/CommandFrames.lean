import NovaVe.HotAttach
import NovaVe.StartStop

namespace NovaVe

variable {ok : HostCall → Prop} {rel : World → World → Prop} {bridge : String}
  {nodeId interfaceIndex : Int}

def Port.interface : Port → Int × Int
  | .tap nodeId interfaceIndex | .veth nodeId interfaceIndex => (nodeId, interfaceIndex)

/-- The interface of a node that a command is about. -/
def HostCall.interface? : HostCall → Option (Int × Int)
  | .tapExists port | .tapAdd port | .tapDel port | .linkDel port | .vethPairAdd port
  | .linkMaster port _ | .linkNomaster port | .linkUp port | .linkNetns port
  | .renameInNetns port | .addrUpInNetns port => some port.interface
  | .setLink nodeId interfaceIndex _ | .netdevAdd nodeId interfaceIndex
  | .netdevDel nodeId interfaceIndex | .deviceAdd nodeId interfaceIndex _
  | .deviceDel nodeId interfaceIndex => some (nodeId, interfaceIndex)
  | _ => none

/-- A relation between worlds that the commands of a kind respect, and what goes with them. -/
structure Commands (ok : HostCall → Prop) (rel : World → World → Prop) : Prop where
  composes : Composes rel
  command : ∀ w c, ok c → rel w (w.after c)
  warning : ∀ w x, rel w { w with warnings := w.warnings ++ [x] }
  plannedMac : ∀ w x, rel w { w with plannedMacs := w.plannedMacs ++ [x] }

/-- The bridge that a command puts a port on. -/
def HostCall.master? : HostCall → Option String
  | .linkMaster _ bridge => some bridge
  | _ => none

/-- The bridge that a command adds, deletes or puts a port on. -/
def HostCall.bridge? : HostCall → Option String
  | .bridgeAdd bridge | .bridgeDel bridge | .linkMaster _ bridge => some bridge
  | _ => none

/-- The commands about the process of a node and all that it left on the host. -/
def HostCall.ofProcess : HostCall → Bool
  | .spawn _ | .registerPid _ | .halt _ | .sweepNode _ => true
  | _ => false

/-- The commands about one interface, and those about neither an interface nor a process, are of the
kind, if they add or delete no bridge and put a port on no other bridge. -/
def OkAt (ok : HostCall → Prop) (nodeId interfaceIndex : Int) (bridge : Option String) : Prop :=
  ∀ c : HostCall,
    (c.interface? = none ∧ c.ofProcess = false) ∨ c.interface? = some (nodeId, interfaceIndex) →
    c.bridge? = none ∨ (c.master?.isSome ∧ c.master? = bridge) → ok c

/-- A command and all that surrounds it leave the registry alone. -/
theorem Commands.sameRuntimes (h : Commands ok rel) :
    Commands ok (fun s t => rel s t ∧ t.runtimes = s.runtimes) where
  composes := h.composes.and (composes_same World.runtimes)
  command := fun w c hc => ⟨h.command w c hc, rfl⟩
  warning := fun w x => ⟨h.warning w x, rfl⟩
  plannedMac := fun w x => ⟨h.plannedMac w x, rfl⟩

theorem commands_true : Commands (fun _ => True) (fun _ _ => True) where
  composes := ⟨fun _ => trivial, fun _ _ _ _ _ => trivial⟩
  command := fun _ _ _ => trivial
  warning := fun _ _ => trivial
  plannedMac := fun _ _ => trivial

theorem frames_call (h : Commands ok rel) {c : HostCall} (hc : ok c) : Frames rel (call c) := by
  intro w
  rw [ends_call]
  split
  next => exact h.command w c hc
  next => exact h.command w c hc

theorem frames_run (h : Commands ok rel) {c : HostCall} (hc : ok c) : Frames rel (run c) :=
  Frames.bind h.composes (frames_call h hc) (fun _ => Frames.pure h.composes ())

/-- A command whose failure is dropped in some cases and goes on in the others. -/
theorem frames_absorb (h : Commands ok rel) {α : Type} {m : HostM α} (hm : Frames rel m)
    (absorbed : Exc → Bool) (a : α) :
    Frames rel (tryCatch m (fun e => if absorbed e then pure a else throw e)) := by
  refine Frames.tryCatch h.composes hm (fun e => ?_)
  split
  next => exact Frames.pure h.composes a
  next => exact Frames.throw h.composes e

theorem frames_bridgeExists (h : Commands ok rel) (hc : ok (.bridgeExists bridge)) :
    Frames rel (bridgeExists bridge) :=
  Frames.bind h.composes (frames_run h hc) (fun _ => Frames.bind h.composes (Frames.get h.composes)
    (fun _ => Frames.pure h.composes _))

theorem frames_tapExists (h : Commands ok rel) {port : Port} (hc : ok (.tapExists port)) :
    Frames rel (tapExists port) :=
  Frames.bind h.composes (frames_run h hc) (fun _ => Frames.bind h.composes (Frames.get h.composes)
    (fun _ => Frames.pure h.composes _))

theorem frames_linkMasterAny (h : Commands ok rel) {port : Port} (driver : Option String)
    (hc : ok (.linkMaster port bridge)) : Frames rel (linkMasterAny port bridge driver) := by
  unfold linkMasterAny
  split
  next => exact Frames.throw h.composes _
  next => exact frames_run h hc

theorem frames_bridgeDel (h : Commands ok rel) (hc : ok (.bridgeDel bridge)) :
    Frames rel (bridgeDel bridge) := by
  unfold bridgeDel
  split
  next => exact Frames.throw h.composes _
  next => exact frames_run h hc

theorem frames_tryLinkDel (h : Commands ok rel) {port : Port} (hc : ok (.linkDel port)) :
    Frames rel (tryLinkDel port) :=
  frames_absorb h (frames_run h hc) Exc.isHostNet ()

theorem frames_attachDockerInterfaceInitial (h : Commands ok rel)
    (hok : OkAt ok nodeId interfaceIndex (some bridge)) (driver : Option String) :
    Frames rel (attachDockerInterfaceInitial nodeId interfaceIndex bridge driver) := by
  have hrun : ∀ c : HostCall, c.interface? = some (nodeId, interfaceIndex) → c.bridge? = none →
      Frames rel (run c) := fun c hc hm => frames_run h (hok c (Or.inr hc) (Or.inl hm))
  unfold attachDockerInterfaceInitial
  refine Frames.bind h.composes (hrun _ rfl rfl) (fun _ => ?_)
  refine Frames.bind h.composes (frames_linkMasterAny h driver (hok _ (Or.inr rfl) (Or.inr ⟨rfl, rfl⟩))) (fun _ => ?_)
  refine Frames.bind h.composes (hrun _ rfl rfl) (fun _ => ?_)
  refine Frames.bind h.composes (hrun _ rfl rfl) (fun _ => ?_)
  exact Frames.bind h.composes (hrun _ rfl rfl) (fun _ => hrun _ rfl rfl)

theorem freeSlot_some {maxNics slot : Int} {taken : List Int} (h : freeSlot maxNics taken = some slot) :
    0 ≤ slot ∧ slot < maxNics ∧ slot ∉ taken := by
  have hfree := List.find?_some h
  obtain ⟨k, hk, rfl⟩ := List.mem_map.mp (List.mem_of_find?_eq_some h)
  have hrange := List.mem_range.mp (List.mem_reverse.mp hk)
  exact ⟨by omega, by omega, of_decide_eq_true hfree⟩

/-- The scan finds nothing only when each slot of the pool is taken. -/
theorem freeSlot_none {maxNics slot : Int} {taken : List Int} (h : freeSlot maxNics taken = none)
    (hlow : 0 ≤ slot) (hhigh : slot < maxNics) : slot ∈ taken := by
  have hm : slot ∈ (List.range maxNics.toNat).reverse.map (fun (i : Nat) => (i : Int)) := by
    refine List.mem_map.mpr ⟨slot.toNat, ?_, by omega⟩
    exact List.mem_reverse.mpr (List.mem_range.mpr (by omega))
  have hnot := List.find?_eq_none.mp h slot hm
  simpa using hnot

/-- A slot of the pool that no attachment of the record has. -/
def NodeRuntime.FreeSlot (runtime : NodeRuntime) (slot : Int) : Prop :=
  0 ≤ slot ∧ slot < runtime.maxNics ∧ slot ∉ runtime.allocatedSlots

theorem yields_findFreePcieSlot (h : Commands ok rel) {nodeId : Int} (runtime : NodeRuntime)
    (hc : ok (.queryPci nodeId)) :
    Yields rel (findFreePcieSlot nodeId runtime)
      (fun found => ∀ slot, found = some slot → runtime.FreeSlot slot) := by
  unfold findFreePcieSlot
  refine Yields.bind h.composes (Frames.yields (Frames.tryCatch h.composes (frames_call h hc)
    (fun e => ?_))) (fun reply _ => ?_)
  · split
    next => exact Frames.throw h.composes _
    next => exact Frames.throw h.composes _
  · split
    next => exact fun w => h.composes.refl w
    next =>
      refine Yields.pure h.composes (fun slot hslot => ?_)
      obtain ⟨hlow, hhigh, hnot⟩ := freeSlot_some hslot
      exact ⟨hlow, hhigh, fun hm => hnot (List.mem_append_right _ hm)⟩

theorem frames_qmpAdd (h : Commands ok rel) {command : HostCall} {undo : HostM Unit}
    (failed : String) (hc : ok command) (hundo : Frames rel undo) :
    Frames rel (qmpAdd command undo failed) := by
  unfold qmpAdd
  refine Frames.bind h.composes (Frames.tryCatch h.composes (frames_call h hc) (fun e => ?_))
    (fun reply => ?_)
  · split
    next => exact Frames.bind h.composes hundo (fun _ => Frames.throw h.composes _)
    next => exact Frames.throw h.composes _
  · split
    next => exact Frames.throw h.composes _
    next => exact Frames.pure h.composes _

theorem frames_rollbackTap (h : Commands ok rel) {tap : Port} (hdel : ok (.tapDel tap))
    (hlink : ok (.linkDel tap)) :
    Frames rel (rollbackTap tap) :=
  Frames.tryCatch h.composes (frames_run h hdel)
    (fun _ => Frames.swallow h.composes (frames_tryLinkDel h hlink))

theorem frames_hotAddNic (h : Commands ok rel) (hok : OkAt ok nodeId interfaceIndex (some bridge))
    (slot : Int) (driver : Option String) :
    Frames rel (hotAddNic nodeId interfaceIndex slot bridge driver) := by
  have hrun : ∀ c : HostCall, c.interface? = some (nodeId, interfaceIndex) → c.bridge? = none →
      Frames rel (run c) := fun c hc hm => frames_run h (hok c (Or.inr hc) (Or.inl hm))
  have hswallow : ∀ c : HostCall, c.interface? = some (nodeId, interfaceIndex) → c.bridge? = none →
      Frames rel (swallow (run c)) := fun c hc hm => Frames.swallow h.composes (hrun c hc hm)
  unfold hotAddNic
  refine Frames.bind h.composes (hrun _ rfl rfl) (fun _ => ?_)
  refine Frames.onRaise h.composes ?_
    (frames_rollbackTap h (hok _ (Or.inr rfl) (Or.inl rfl)) (hok _ (Or.inr rfl) (Or.inl rfl)))
  refine Frames.bind h.composes (frames_linkMasterAny h driver (hok _ (Or.inr rfl) (Or.inr ⟨rfl, rfl⟩))) (fun _ => ?_)
  refine Frames.onRaise h.composes ?_ (hswallow _ rfl rfl)
  refine Frames.bind h.composes (hrun _ rfl rfl) (fun _ => ?_)
  refine Frames.bind h.composes (frames_qmpAdd h _ (hok _ (Or.inr rfl) (Or.inl rfl)) (hswallow _ rfl rfl))
    (fun _ => ?_)
  exact Frames.onRaise h.composes (frames_qmpAdd h _ (hok _ (Or.inr rfl) (Or.inl rfl)) (hswallow _ rfl rfl))
    (hswallow _ rfl rfl)

/-- The attach of a boot NIC; only when it made the TAP itself does it take it down again. -/
theorem frames_attachBootNic (h : Commands ok rel)
    (hok : OkAt ok nodeId interfaceIndex (some bridge)) (driver : Option String) :
    Frames rel (attachBootNic nodeId interfaceIndex bridge driver) := by
  have hrun : ∀ c : HostCall, c.interface? = some (nodeId, interfaceIndex) → c.bridge? = none →
      Frames rel (run c) := fun c hc hm => frames_run h (hok c (Or.inr hc) (Or.inl hm))
  have hswallow : ∀ c : HostCall, c.interface? = some (nodeId, interfaceIndex) → c.bridge? = none →
      Frames rel (swallow (run c)) := fun c hc hm => Frames.swallow h.composes (hrun c hc hm)
  have hrest : ∀ there : Bool, Frames rel (onRaise (do
      linkMasterAny (.tap nodeId interfaceIndex) bridge driver
      onRaise (do
        run (.linkUp (.tap nodeId interfaceIndex))
        swallow (run (.setLink nodeId interfaceIndex true)))
        (swallow (run (.linkNomaster (.tap nodeId interfaceIndex)))))
      (if there then pure () else swallow (run (.tapDel (.tap nodeId interfaceIndex))))) := by
    intro there
    refine Frames.onRaise h.composes ?_ ?_
    · refine Frames.bind h.composes (frames_linkMasterAny h driver (hok _ (Or.inr rfl) (Or.inr ⟨rfl, rfl⟩))) (fun _ => ?_)
      refine Frames.onRaise h.composes ?_ (hswallow _ rfl rfl)
      exact Frames.bind h.composes (hrun _ rfl rfl) (fun _ => hswallow _ rfl rfl)
    · split
      next => exact Frames.pure h.composes ()
      next => exact hswallow _ rfl rfl
  unfold attachBootNic
  refine Frames.bind h.composes (frames_tapExists h (hok _ (Or.inr rfl) (Or.inl rfl))) (fun there => ?_)
  cases there with
  | true => exact Frames.bind h.composes (Frames.pure h.composes ()) (fun _ => hrest true)
  | false => exact Frames.bind h.composes (hrun _ rfl rfl) (fun _ => hrest false)

theorem frames_pollDevice (h : Commands ok rel) {nodeId : Int} (hc : ok (.queryPci nodeId))
    (gone : Bool) (tries : Nat) :
    Frames rel (pollDevice nodeId gone tries) := by
  induction tries with
  | zero => exact Frames.pure h.composes false
  | succ n ih =>
    unfold pollDevice qemuDeviceGone
    refine Frames.bind h.composes (Frames.bind h.composes (frames_call h hc) (fun reply => ?_))
      (fun now => ?_)
    · split
      next => exact Frames.throw h.composes _
      next => exact Frames.pure h.composes _
    · split
      next => exact Frames.pure h.composes true
      next => exact ih

/-- The QMP commands of a hot-remove are of the kind. -/
structure RemoveOk (ok : HostCall → Prop) (nodeId interfaceIndex : Int) : Prop where
  device : ok (.deviceDel nodeId interfaceIndex)
  poll : ok (.queryPci nodeId)
  netdev : ok (.netdevDel nodeId interfaceIndex)

theorem OkAt.remove (h : OkAt ok nodeId interfaceIndex none) :
    RemoveOk ok nodeId interfaceIndex where
  device := h _ (Or.inr rfl) (Or.inl rfl)
  poll := h _ (Or.inl ⟨rfl, rfl⟩) (Or.inl rfl)
  netdev := h _ (Or.inr rfl) (Or.inl rfl)

theorem frames_deviceDelStep (h : Commands ok rel) (hok : RemoveOk ok nodeId interfaceIndex) :
    Frames rel (deviceDelStep nodeId interfaceIndex) := by
  have hdel : Frames rel (call (.deviceDel nodeId interfaceIndex)) := frames_call h hok.device
  unfold deviceDelStep
  refine Frames.bind h.composes hdel (fun reply => ?_)
  split
  next => exact Frames.pure h.composes _
  next =>
    split
    next => exact Frames.throw h.composes _
    next =>
      refine Frames.bind h.composes (frames_pollDevice h hok.poll _ _) (fun _ => ?_)
      refine Frames.bind h.composes hdel (fun retry => ?_)
      split
      next => exact Frames.pure h.composes _
      next =>
        split
        next => exact Frames.pure h.composes _
        next => exact Frames.throw h.composes _

theorem frames_removeNetdev (h : Commands ok rel) {tap : Port}
    (hnetdev : ok (.netdevDel nodeId interfaceIndex)) (htap : ok (.tapDel tap)) :
    Frames rel (removeNetdev nodeId interfaceIndex tap) := by
  unfold removeNetdev
  refine Frames.bind h.composes (Frames.tryCatch h.composes ?_ (fun e => ?_)) (fun failed => ?_)
  · refine Frames.bind h.composes (frames_call h hnetdev) (fun reply => ?_)
    split
    next => exact Frames.pure h.composes _
    next => exact Frames.pure h.composes _
  · split
    next => exact Frames.pure h.composes _
    next => exact Frames.throw h.composes _
  · refine Frames.bind h.composes (Frames.tryCatch h.composes (frames_run h htap) (fun e => ?_))
      (fun _ => ?_)
    · split
      next => exact Frames.pure h.composes _
      next => exact Frames.throw h.composes _
    · split
      next => exact Frames.throw h.composes _
      next => exact Frames.pure h.composes _

theorem frames_hotRemoveNic (h : Commands ok rel) {tap : Port}
    (hok : RemoveOk ok nodeId interfaceIndex) (htap : ok (.tapDel tap))
    (hdown : ok (.linkNomaster tap)) :
    Frames rel (hotRemoveNic nodeId interfaceIndex tap) := by
  unfold hotRemoveNic
  refine Frames.bind h.composes (frames_deviceDelStep h hok) (fun alreadyGone => ?_)
  refine Frames.bind h.composes ?_ (fun gone => ?_)
  · split
    next => exact Frames.pure h.composes _
    next => exact frames_pollDevice h hok.poll _ _
  · split
    next =>
      exact Frames.bind h.composes (frames_removeNetdev h hok.netdev htap)
        (fun _ => Frames.pure h.composes _)
    next =>
      refine Frames.bind h.composes (frames_run h hdown) (fun _ => ?_)
      exact Frames.bind h.composes (Frames.modify (fun w => h.warning w _))
        (fun _ => Frames.pure h.composes _)

theorem frames_detachNic (h : Commands ok rel) {target : Attachment} {tap : Port}
    (hok : target.bootNic = false → RemoveOk ok nodeId interfaceIndex ∧ ok (.tapDel tap))
    (hset : ok (.setLink nodeId interfaceIndex false)) (hdown : ok (.linkNomaster tap)) :
    Frames rel (detachNic nodeId interfaceIndex target tap) := by
  unfold detachNic
  split
  next =>
    refine Frames.bind h.composes (Frames.swallow h.composes (frames_run h hset)) (fun _ => ?_)
    exact Frames.bind h.composes (frames_run h hdown) (fun _ => Frames.pure h.composes _)
  next hflag =>
    obtain ⟨hat, htap⟩ := hok (by simpa using hflag)
    exact frames_hotRemoveNic h hat htap hdown

theorem frames_rollbackNic (h : Commands ok rel) (runtime : NodeRuntime)
    (hok : OkAt ok nodeId interfaceIndex none) :
    Frames rel (rollbackNic runtime nodeId interfaceIndex) := by
  have hswallow : ∀ c : HostCall, c.interface? = some (nodeId, interfaceIndex) → c.bridge? = none →
      Frames rel (swallow (run c)) := fun c hc hm =>
    Frames.swallow h.composes (frames_run h (hok c (Or.inr hc) (Or.inl hm)))
  have hrest : Frames rel (do
      swallow (run (.linkNomaster (.tap nodeId interfaceIndex)))
      tryLinkDel (.tap nodeId interfaceIndex)) :=
    Frames.bind h.composes (hswallow (.linkNomaster (.tap nodeId interfaceIndex)) rfl rfl)
      (fun _ => frames_tryLinkDel h (hok (.linkDel (.tap nodeId interfaceIndex)) (Or.inr rfl) (Or.inl rfl)))
  unfold rollbackNic
  split
  next =>
    refine Frames.bind h.composes (hswallow _ rfl rfl) (fun _ => ?_)
    exact Frames.bind h.composes (hswallow _ rfl rfl) (fun _ => hrest)
  next => exact hrest

/-- The commands that put the TAP of an interface on a bridge are of the kind. -/
structure TapOk (ok : HostCall → Prop) (nodeId interfaceIndex : Int) (bridge : String) : Prop where
  look : ok (.tapExists (.tap nodeId interfaceIndex))
  add : ok (.tapAdd (.tap nodeId interfaceIndex))
  master : ok (.linkMaster (.tap nodeId interfaceIndex) bridge)
  up : ok (.linkUp (.tap nodeId interfaceIndex))
  carrier : ok (.setLink nodeId interfaceIndex true)

theorem frames_applyExpectedHost (h : Commands ok rel) {nodeId : Int} {wanted : Int × Expected}
    (hok : TapOk ok nodeId wanted.1 wanted.2.bridgeName) (qmpSocket : Bool) :
    Frames rel (applyExpectedHost qmpSocket nodeId wanted) := by
  have hrest : Frames rel (do
      linkMasterAny (.tap nodeId wanted.1) wanted.2.bridgeName wanted.2.driver
      run (.linkUp (.tap nodeId wanted.1))
      if qmpSocket then swallow (run (.setLink nodeId wanted.1 true))
      pure true : HostM Bool) := by
    refine Frames.bind h.composes (frames_linkMasterAny h _ hok.master) (fun _ => ?_)
    refine Frames.bind h.composes (frames_run h hok.up) (fun _ => ?_)
    split
    next =>
      exact Frames.bind h.composes (Frames.swallow h.composes (frames_run h hok.carrier))
        (fun _ => Frames.pure h.composes _)
    next => exact Frames.pure h.composes _
  unfold applyExpectedHost
  refine frames_absorb h ?_ Exc.isHostNet false
  refine Frames.bind h.composes (frames_tapExists h hok.look) (fun there => ?_)
  cases there with
  | true => exact hrest
  | false => exact Frames.bind h.composes (frames_run h hok.add) (fun _ => hrest)

theorem frames_pinDown (h : Commands ok rel) {nodeId i : Int} {tap : Port} (qmpSocket : Bool)
    (hset : ok (.setLink nodeId i false)) (htap : ok (.linkNomaster tap)) :
    Frames rel (pinDown qmpSocket nodeId i tap) := by
  have hdown : Frames rel (tryCatch (run (.linkNomaster tap))
      (fun e => if e.isHostNet then pure () else throw e)) :=
    frames_absorb h (frames_run h htap) Exc.isHostNet ()
  unfold pinDown
  split
  next =>
    exact Frames.bind h.composes (Frames.swallow h.composes (frames_run h hset)) (fun _ => hdown)
  next => exact hdown

end NovaVe
