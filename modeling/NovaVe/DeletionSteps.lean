import NovaVe.HostBridges
import NovaVe.NicDetach
import NovaVe.Writers

namespace NovaVe

inductive DeletionError
  | host (e : Exc)
  | file
  | network (e : NetworkError)
deriving DecidableEq

/-- What `delete_link` works on: the lab files, what the runtime code works on, and whether the
coming locks, reads and writes of lab files raise. -/
structure LinkDeletion where
  labs : Labs
  world : World
  faults : List Bool := []

abbrev DeletionM : Type → Type := EStateM DeletionError LinkDeletion

/-- A part that runs on the host and in the registry. -/
def hostPart {α : Type} (m : HostM α) : DeletionM α := fun s =>
  match m.run s.world with
  | .ok a w => .ok a { s with world := w }
  | .error e w => .error (.host e) { s with world := w }

theorem ends_hostPart {α : Type} (m : HostM α) (s : LinkDeletion) (returns : α → LinkDeletion → Prop)
    (raises : DeletionError → LinkDeletion → Prop) :
    Ends (hostPart m) s returns raises ↔
      Ends m s.world (fun a w => returns a { s with world := w })
        (fun e w => raises (.host e) { s with world := w }) := by
  have hrun : (hostPart m).run s = hostPart m s := rfl
  unfold Ends
  rw [hrun]
  unfold hostPart
  cases m.run s.world with
  | ok a w => exact Iff.rfl
  | error e w => exact Iff.rfl

/-- A lock, a read or a write of a lab file, or a mutex of an interface. -/
def fileStep : DeletionM Unit := do
  let s ← get
  set { s with faults := s.faults.tail }
  if s.faults.headD false then throw .file

theorem ends_fileStep (s : LinkDeletion) (returns : Unit → LinkDeletion → Prop)
    (raises : DeletionError → LinkDeletion → Prop) :
    Ends fileStep s returns raises ↔
      if s.faults.headD false then raises .file { s with faults := s.faults.tail }
      else returns () { s with faults := s.faults.tail } := by
  unfold fileStep
  rw [ends_bind, ends_get, ends_bind, ends_set]
  split
  next => exact Iff.rfl
  next => exact Iff.rfl

def readLab (path : String) : DeletionM Lab := do
  fileStep
  let s ← get
  match s.labs.get? path with
  | none => throw (.network labDoesNotExist)
  | some lab => pure lab

theorem ends_readLab (path : String) (s : LinkDeletion) (returns : Lab → LinkDeletion → Prop)
    (raises : DeletionError → LinkDeletion → Prop) :
    Ends (readLab path) s returns raises ↔
      if s.faults.headD false then raises .file { s with faults := s.faults.tail }
      else match s.labs.get? path with
        | none => raises (.network labDoesNotExist) { s with faults := s.faults.tail }
        | some lab => returns lab { s with faults := s.faults.tail } := by
  unfold readLab
  rw [ends_bind, ends_fileStep]
  split
  next => exact Iff.rfl
  next =>
    rw [ends_bind, ends_get]
    cases s.labs.get? path with
    | none => exact Iff.rfl
    | some lab => exact Iff.rfl

/-- `int(attach_generation) if attach_generation else None`. -/
def Link.expectedGeneration? (l : Link) : Option Int :=
  let generation := l.runtime.attachGeneration.getD 0
  if generation = 0 then none else some generation

/-- The lab of a deletion, and whether the caller holds its lock. -/
structure DeletionEnv where
  site : SiteEnv
  source : NicSource
  path : String
  lockHeld : Bool

/-- The address that phase 3 releases, and the network it is on. -/
def Link.address? (l : Link) : Option (Int × String) :=
  match l.runtime.ip, l.networks.head?, l.ifaces.isEmpty with
  | some ip, some networkId, false => if ip = "" then none else some (networkId, ip)
  | _, _, _ => none

def DeletionEnv.releaseAddress (env : DeletionEnv) (target : Link) : DeletionM Unit :=
  match target.address? with
  | none => pure ()
  | some (networkId, ip) => do
    fileStep
    let s ← get
    match NetworkService.releaseIp env.lockHeld s.labs env.path networkId ip with
    | .error e => throw (.network e)
    | .ok released => set { s with labs := released.1 }

/-- The reconcile that ends a deletion; what it raises is dropped. -/
def DeletionEnv.reconcileAfter (env : DeletionEnv) : DeletionM Unit :=
  swallow (do
    let lab ← readLab env.path
    hostPart (reconcileAfterLink env.site env.source lab))

/-- Phase 4: the lab file without the link, and the reconcile. -/
def DeletionEnv.removeFromLab (env : DeletionEnv) (linkId : String) : DeletionM Unit := do
  let data ← readLab env.path
  match findLink data linkId with
  | none => pure ()
  | some removed => do
    fileStep
    modify (fun s => { s with labs := s.labs.set env.path (removeLink data removed linkId) })
    -- the MAC registry is computed again
    fileStep
    env.reconcileAfter

/-- `delete_link`; a link that is not there is already deleted. -/
def DeletionEnv.deleteLink (env : DeletionEnv) (linkId : String) : DeletionM Unit := do
  let probe ← readLab env.path
  match findLink probe linkId with
  | none => pure ()
  | some target => do
    fileStep
    hostPart (detachEndpoints target.expectedGeneration? none target.ifaces)
    env.releaseAddress target
    env.removeFromLab linkId

/-- The name that an attach gives to the host end of an interface. -/
def ownPort (kind : RuntimeKind) (nodeId interfaceIndex : Int) : Port :=
  if kind = .docker then .veth nodeId interfaceIndex else .tap nodeId interfaceIndex

/-- An endpoint of a link on a running node, with the record of the node and its entry in it. -/
structure Attached (w : World) (key : Int × Int) (r : NodeRuntime) (entry : Attachment) : Prop where
  record : w.runtimes.get? key.1 = some r
  alive : r.alive = true
  kind : r.kind = .docker ∨ (r.kind = .qemu ∧ r.qmpSocket = true)
  distinct : (r.attachments.map Attachment.interfaceIndex).Nodup
  attached : r.attachment? key.2 = some entry
  port : entry.port.getD (ownPort r.kind key.1 key.2) = ownPort r.kind key.1 key.2

/-- The entry is the one that the attach of the link has left. -/
structure Running (expectedGeneration : Option Int) (w : World) (key : Int × Int) (r : NodeRuntime)
    (entry : Attachment) : Prop extends Attached w key r entry where
  fresh : staleFor r key.2 expectedGeneration = false

def Host.Loose (host : Host) (port : Port) : Prop :=
  ∀ state, host.ports.get? port = some state → state.master = none

/-- Nothing is left of an attachment: a boot NIC keeps its TAP, off any bridge, and its device. -/
def Freed (kind : RuntimeKind) (entry : Attachment) (key : Int × Int) (host : Host) (q : QemuNics) :
    Prop :=
  if kind = .qemu ∧ entry.bootNic then host.Loose (ownPort kind key.1 key.2)
  else host.ports.get? (ownPort kind key.1 key.2) = none ∧
    (kind = .qemu → q.devices key = false ∧ q.netdevs key = false)

theorem loose_after_nomaster {w : World} {port : Port} (h : (w.replies.headD {}).applied = true) :
    (w.after (.linkNomaster port)).host.Loose port := by
  intro state hstate
  unfold World.after at hstate
  dsimp only at hstate
  rw [if_pos h] at hstate
  have heffect : (HostCall.linkNomaster port).effect w.host =
      w.host.editPort port (fun state => { state with master := none }) := rfl
  rw [heffect] at hstate
  unfold Host.editPort at hstate
  dsimp only at hstate
  rw [Dict.get?_modify, if_pos rfl] at hstate
  obtain ⟨old, _, rfl⟩ := Option.map_eq_some_iff.mp hstate
  rfl

/-- The detach of a NIC on which nothing fails. -/
theorem detachNic_moves (key : Int × Int) (entry : Attachment) (w : World) :
    Ends (detachNic key.1 key.2 entry (.tap key.1 key.2)) w
      (fun forced t => Moves w t (fun _ q' => forced = false ∧ Freed .qemu entry key t.host q'))
      (fun _ t => Unanswered w t) := by
  unfold detachNic
  cases hboot : entry.bootNic with
  | true =>
    rw [if_pos rfl, ends_bind, ends_swallow]
    have hdown : ∀ u, Moves w u (fun q q' => q' = q) →
        Ends (do
          run (.linkNomaster (.tap key.1 key.2))
          pure false : HostM Bool) u
          (fun forced t => Moves w t (fun _ q' => forced = false ∧ Freed .qemu entry key t.host q'))
          (fun _ t => Unanswered w t) := by
      intro u hu
      rw [ends_bind]
      refine (moves_run (.linkNomaster (.tap key.1 key.2)) u).mono ?_ ?_
      · rintro _ t ⟨_, rfl⟩
        refine hu.trans (moves_after u _) ?_
        rintro q between q' _ ⟨_, happlied, _⟩
        refine ⟨rfl, ?_⟩
        unfold Freed ownPort
        rw [if_pos ⟨rfl, hboot⟩, if_neg (by decide)]
        exact loose_after_nomaster happlied
      · rintro e t ⟨hraised, rfl⟩
        exact hu.unanswered (unanswered_raised hraised (fun q q' h => h.1))
    have hcarrier : Moves w (w.after (.setLink key.1 key.2 false)) (fun q q' => q' = q) :=
      (moves_after w _).mono (fun q q' h => h.2.2)
    refine (moves_run (.setLink key.1 key.2 false) w).mono ?_ ?_
    · rintro _ t ⟨_, rfl⟩
      exact hdown _ hcarrier
    · rintro e t ⟨_, rfl⟩
      exact hdown _ hcarrier
  | false =>
    rw [if_neg (by decide)]
    refine (hotRemoveNic_moves key.1 key.2 (.tap key.1 key.2) w).mono ?_ (fun _ _ h => h)
    intro forced t hmoves
    refine hmoves.mono ?_
    rintro q q' ⟨hforced, hdevice, hnetdev, hport⟩
    refine ⟨hforced, ?_⟩
    unfold Freed ownPort
    rw [if_neg (by rw [hboot]; simp), if_neg (by decide)]
    exact ⟨hport, fun _ => ⟨hdevice, hnetdev⟩⟩

theorem detachDocker_moves {expectedGeneration : Option Int} {w : World} {key : Int × Int}
    {r : NodeRuntime} {entry : Attachment} (h : Running expectedGeneration w key r entry)
    (hkind : r.kind = .docker) :
    Ends (detachDockerInterface key.1 key.2 expectedGeneration) w
      (fun _ t => Moves w t (fun _ q' => Freed r.kind entry key t.host q'))
      (fun _ t => Unanswered w t) := by
  have hport := h.port
  rw [hkind] at hport ⊢
  unfold ownPort at hport
  rw [if_pos rfl] at hport
  unfold detachDockerInterface
  rw [ends_bind, ends_runtimeRecord, h.record]
  simp only [Bool.true_or, if_true]
  rw [h.attached]
  simp only [h.fresh, Bool.false_eq_true, if_false, hport]
  rw [ends_bind]
  refine (portGone_moves (Or.inr rfl) w).mono ?_ (fun _ _ hu => hu)
  intro _ t hmoves
  rw [ends_bind, ends_editRuntime, ends_pure]
  refine Moves.edit (hmoves.mono ?_) _ _
  rintro q q' ⟨_, hgone⟩
  unfold Freed ownPort
  rw [if_neg (by simp), if_pos rfl]
  refine ⟨hgone, ?_⟩
  intro hqemu
  cases hqemu

theorem detachQemu_moves {expectedGeneration : Option Int} {w : World} {key : Int × Int}
    {r : NodeRuntime} {entry : Attachment} (h : Running expectedGeneration w key r entry)
    (hkind : r.kind = .qemu) (hsocket : r.qmpSocket = true) :
    Ends (detachQemuInterface key.1 key.2 expectedGeneration) w
      (fun _ t => Moves w t (fun _ q' => Freed r.kind entry key t.host q'))
      (fun _ t => Unanswered w t) := by
  have hport := h.port
  rw [hkind] at hport ⊢
  unfold ownPort at hport
  rw [if_neg (by decide)] at hport
  have hmutex : Moves w (w.after (.nodeMutex key.1)) (fun q q' => q' = q) :=
    (moves_after w _).mono (fun q q' ha => ha.2.2)
  unfold detachQemuInterface
  rw [ends_bind]
  refine (moves_run (.nodeMutex key.1) w).mono ?_ ?_
  · rintro _ t ⟨_, rfl⟩
    unfold detachQemuInner
    rw [ends_bind, ends_runtimeRecord, World.after_runtimes, h.record]
    simp only [Bool.true_or, if_true]
    rw [if_neg (by rw [hkind]; decide), h.attached]
    simp only [h.fresh, hsocket, Bool.not_true, Bool.false_eq_true, if_false, hport]
    rw [ends_bind]
    refine (detachNic_moves key entry _).mono ?_ (fun _ _ hu => hmutex.unanswered hu)
    intro forced u hmoves
    rw [ends_bind, ends_editRuntime, ends_pure]
    refine Moves.edit (hmutex.trans hmoves ?_) _ _
    rintro q between q' _ ⟨_, hfreed⟩
    exact hfreed
  · rintro e t ⟨hraised, rfl⟩
    exact unanswered_raised hraised (fun q q' ha => ha.1)

/-- A detach on which nothing fails leaves nothing of the attachment. -/
theorem detachInterface_moves {expectedGeneration : Option Int} {w : World} {key : Int × Int}
    {r : NodeRuntime} {entry : Attachment} (h : Running expectedGeneration w key r entry) :
    Ends (detachInterface r.kind key.1 key.2 expectedGeneration) w
      (fun _ t => Moves w t (fun _ q' => Freed r.kind entry key t.host q'))
      (fun _ t => Unanswered w t) := by
  unfold detachInterface
  rcases h.kind with hdocker | ⟨hqemu, hsocket⟩
  · rw [if_pos hdocker]
    exact detachDocker_moves h hdocker
  · rw [if_neg (by rw [hqemu]; decide)]
    exact detachQemu_moves h hqemu hsocket

end NovaVe
