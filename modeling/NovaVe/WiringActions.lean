import NovaVe.HostBridges
import NovaVe.HotAttachFrames
import NovaVe.Runs

namespace NovaVe

/-- `_hot_attach_running_endpoints` without its rollback: the bridges it added, what it attached, and
what stopped it. -/
def attachRunning (source : NicSource) (bridgeName : String → Int → String) (lab : Lab)
    (implicitNetwork : Option Int) (concrete : List Link) :
    HostM (List String × List (Target × Int) × Option Exc) := do
  let targets ← pendingTargets bridgeName lab implicitNetwork concrete
  let provisioned ← provisionBridges lab implicitNetwork targets
  targets.forM (healTarget lab)
  let (attached, failed) ← attachTargets source [] targets
  match failed with
  | some e => pure (provisioned, attached, some e)
  | none => do
    (attached.map (fun done => done.1.bridge)).eraseDups.forM (fun bridge =>
      tryCatch (run (.bridgeUp bridge)) (fun e => if e.isHostNet then pure () else throw e))
    pure (provisioned, attached, none)

/-- What is done to the links of running nodes. `answer` says how the coming commands will end, and
`rollback` is the one of a failed `create_link`. -/
inductive WiringAction
  | answer (replies : List Reply)
  | createLink (source : NicSource) (bridgeName : String → Int → String) (lab : Lab)
    (implicitNetwork : Option Int) (concrete : List Link)
  | rollback (attached : List (Target × Int)) (provisioned : List String) (failure : Exc)
  | deleteLink (expectedGeneration : Option Int) (keys : List (Int × Int))
  | reconcile (source : NicSource) (bridgeName : String → Int → String) (lab : Lab) (nodeId : Int)

def WiringAction.program : WiringAction → HostM Unit
  | .answer replies => modify (fun w => { w with replies := replies })
  | .createLink source bridgeName lab implicitNetwork concrete => do
    let _ ← attachRunning source bridgeName lab implicitNetwork concrete
  | .rollback attached provisioned failure => rollbackAttached attached provisioned failure
  | .deleteLink expectedGeneration keys => detachEndpoints expectedGeneration none keys
  | .reconcile source bridgeName lab nodeId => reconcileQemuNodeLinks source bridgeName lab nodeId

/-- The world after an action, whether it returned or raised. -/
def wiringStep (w : World) (a : WiringAction) : World := endState a.program w

/-- Starts and stops, and what is done to links. -/
inductive NodeAction
  | start (env : StartEnv) (lab : Lab) (nodeKey : Int) (node : Node)
  | stop (nodeId : Int)
  | link (action : WiringAction)

def nodeStep (w : World) : NodeAction → World
  | .start env lab nodeKey node => endState (startNode env lab nodeKey node) w
  | .stop nodeId => endState (stopNode nodeId) w
  | .link action => wiringStep w action

theorem endState_bind {ε σ α β : Type} (m : EStateM ε σ α) (f : α → EStateM ε σ β) (s : σ) :
    endState (m >>= f) s = match m.run s with
      | .ok a t => endState (f a) t
      | .error _ t => t := by
  unfold endState
  change (match EStateM.bind m f s with
    | .ok _ t => t
    | .error _ t => t) = _
  unfold EStateM.bind EStateM.run
  cases m s with
  | ok a t => rfl
  | error e t => rfl

theorem hotAttach_eq (source : NicSource) (bridgeName : String → Int → String) (lab : Lab)
    (implicitNetwork : Option Int) (concrete : List Link) :
    hotAttachRunningEndpoints source bridgeName lab implicitNetwork concrete = (do
      let made ← attachRunning source bridgeName lab implicitNetwork concrete
      match made.2.2 with
      | some e => do
        rollbackAttached made.2.1 made.1 e
        throw e
      | none => pure (made.2.1.map stampOf)) := by
  unfold hotAttachRunningEndpoints attachRunning
  simp only [bind_assoc]
  congr 1
  funext targets
  congr 1
  funext provisioned
  congr 1
  funext _
  congr 1
  funext made
  obtain ⟨attached, failed⟩ := made
  cases failed with
  | some e => rfl
  | none => simp only [bind_assoc, pure_bind]

/-- The hot-attach pass is a run of these actions: that of the new link, and its rollback if it fails. -/
theorem hotAttach_run (source : NicSource) (bridgeName : String → Int → String) (lab : Lab)
    (implicitNetwork : Option Int) (concrete : List Link) (w : World) :
    ∃ actions, Run (stepOf wiringStep) w
      (.createLink source bridgeName lab implicitNetwork concrete :: actions)
      (endState (hotAttachRunningEndpoints source bridgeName lab implicitNetwork concrete) w) := by
  have hcreate : wiringStep w (.createLink source bridgeName lab implicitNetwork concrete) =
      endState (attachRunning source bridgeName lab implicitNetwork concrete) w := by
    unfold wiringStep WiringAction.program
    rw [endState_bind]
    unfold endState
    cases (attachRunning source bridgeName lab implicitNetwork concrete).run w with
    | ok made t => rfl
    | error e t => rfl
  have hfirst : Run (stepOf wiringStep) w [.createLink source bridgeName lab implicitNetwork concrete]
      (endState (attachRunning source bridgeName lab implicitNetwork concrete) w) :=
    Run.single hcreate
  rw [hotAttach_eq, endState_bind]
  unfold endState at hfirst ⊢
  cases hrun : (attachRunning source bridgeName lab implicitNetwork concrete).run w with
  | error e t =>
    rw [hrun] at hfirst
    exact ⟨[], hfirst⟩
  | ok made t =>
    rw [hrun] at hfirst
    obtain ⟨provisioned, attached, failed⟩ := made
    cases failed with
    | none => exact ⟨[], hfirst⟩
    | some e =>
      have hrollback : wiringStep t (.rollback attached provisioned e) =
          endState (do
            rollbackAttached attached provisioned e
            throw e : HostM (List Stamp)) t := by
        unfold wiringStep WiringAction.program
        rw [endState_bind]
        unfold endState
        cases (rollbackAttached attached provisioned e).run t with
        | ok _ u => rfl
        | error _ u => rfl
      exact ⟨[.rollback attached provisioned e], hfirst.trans (Run.single hrollback)⟩

/-- A program that keeps an invariant of the world, whether it returns or raises. -/
abbrev Preserves {α : Type} (inv : World → Prop) (m : HostM α) : Prop :=
  Frames (fun s t => inv s → inv t) m

/-- What an invariant says of the kinds of the records, and that a dead record may go. -/
structure RecordReads (inv : World → Prop) (known : Int → RuntimeKind → Prop) : Prop where
  kind : ∀ s m r, inv s → s.runtimes.get? m = some r → known m r.kind
  forget : ∀ s m r, inv s → s.runtimes.get? m = some r → r.alive = false →
    inv { s with runtimes := s.runtimes.pop m }

/-- Nothing is to be shown of a program from a world in which the invariant does not hold. -/
theorem preserves_of {α : Type} {inv : World → Prop} {m : HostM α}
    (h : ∀ s, inv s → Ends m s (fun _ t => inv t) (fun _ t => inv t)) : Preserves inv m := by
  intro s
  by_cases hs : inv s
  · exact (h s hs).mono (fun _ _ ht _ => ht) (fun _ _ ht _ => ht)
  · unfold Ends
    split
    next => exact fun hinv => absurd hinv hs
    next => exact fun hinv => absurd hinv hs

theorem Preserves.ends {α : Type} {inv : World → Prop} {m : HostM α} (hm : Preserves inv m)
    {s : World} (hs : inv s) : Ends m s (fun _ t => inv t) (fun _ t => inv t) :=
  (hm s).mono (fun _ _ ht => ht hs) (fun _ _ ht => ht hs)

theorem RecordReads.untouched {inv : World → Prop} {known : Int → RuntimeKind → Prop}
    (h : RecordReads inv known) (hsame : ∀ s t, inv s → t.runtimes = s.runtimes → inv t) {s t : World}
    {m : Int} (hs : inv s) (hst : Untouched s t m) : inv t := by
  rcases hst with heq | ⟨r, hget, hdead, hpop⟩
  · exact hsame s t hs heq
  · exact hsame _ t (h.forget s m r hs hget hdead) hpop

theorem RecordReads.record {inv : World → Prop} {known : Int → RuntimeKind → Prop} (h : RecordReads inv known)
    (m : Int) (includeStopped : Bool) {s : World} (hs : inv s) :
    Ends (runtimeRecord m includeStopped) s
      (fun found t => inv t ∧ ∀ r, found = some r → t.runtimes.get? m = some r ∧ known m r.kind)
      (fun _ t => inv t) := by
  rw [ends_runtimeRecord]
  cases hget : s.runtimes.get? m with
  | none => exact ⟨hs, fun r hr => by cases hr⟩
  | some r =>
    dsimp only
    split
    next =>
      refine ⟨hs, ?_⟩
      intro r' hr'
      rw [← Option.some.inj hr']
      exact ⟨rfl, h.kind s m r hs hget⟩
    next hgone =>
      have hdead : r.alive = false := by
        cases halive : r.alive with
        | true =>
          rw [halive] at hgone
          simp at hgone
        | false => rfl
      exact ⟨h.forget s m r hs hget hdead, fun r' hr' => by cases hr'⟩

theorem RecordReads.pendingTargets {inv : World → Prop} {known : Int → RuntimeKind → Prop}
    (h : RecordReads inv known) (bridgeName : String → Int → String) (lab : Lab)
    (implicitNetwork : Option Int) (links : List Link) {s : World} (hs : inv s) :
    Ends (pendingTargets bridgeName lab implicitNetwork links) s
      (fun targets t => inv t ∧ ∀ target ∈ targets,
        target.From bridgeName lab implicitNetwork links ∧ known target.nodeId target.kind)
      (fun _ t => inv t) := by
  induction links generalizing s with
  | nil => exact ⟨hs, fun target ht => absurd ht List.not_mem_nil⟩
  | cons l rest ih =>
    have hmore : ∀ target : Target, target.From bridgeName lab implicitNetwork rest →
        target.From bridgeName lab implicitNetwork (l :: rest) := by
      rintro target ⟨l', hl', hfrom⟩
      exact ⟨l', List.mem_cons_of_mem l hl', hfrom⟩
    unfold NovaVe.pendingTargets
    cases hl : l.attachment? with
    | none =>
      refine (ih hs).mono ?_ (fun _ _ ht => ht)
      intro targets t ht
      exact ⟨ht.1, fun target htarget => ⟨hmore target (ht.2 target htarget).1,
        (ht.2 target htarget).2⟩⟩
    | some wired =>
      obtain ⟨m, j, networkId⟩ := wired
      dsimp only
      rw [ends_bind]
      refine (h.record m false hs).mono ?_ (fun _ _ ht => ht)
      intro found u hu
      rw [ends_bind]
      refine (ih hu.1).mono ?_ (fun _ _ ht => ht)
      intro targets t ht
      have hrest : ∀ target ∈ targets, target.From bridgeName lab implicitNetwork (l :: rest) ∧
          known target.nodeId target.kind := fun target htarget =>
        ⟨hmore target (ht.2 target htarget).1, (ht.2 target htarget).2⟩
      cases found with
      | none => exact ⟨ht.1, hrest⟩
      | some r =>
        dsimp only
        split
        next => exact ⟨ht.1, hrest⟩
        next =>
          refine ⟨ht.1, ?_⟩
          intro target htarget
          rcases List.mem_cons.mp htarget with rfl | hin
          · exact ⟨⟨l, List.mem_cons_self, hl, rfl⟩, (hu.2 r rfl).2⟩
          · exact hrest target hin

theorem frames_attachTargets_of {rel : World → World → Prop} (h : Composes rel) (source : NicSource)
    {targets : List Target}
    (hattach : ∀ target ∈ targets, Frames rel (attachInterface source target.kind target.nodeId
      target.networkId target.interfaceIndex target.bridge))
    (hcarrier : ∀ m j up, Frames rel (setQemuNicLink m j up)) (attached : List (Target × Int)) :
    Frames rel (attachTargets source attached targets) := by
  induction targets generalizing attached with
  | nil => exact Frames.pure h _
  | cons target rest ih =>
    unfold attachTargets
    have hrest := ih (fun t ht => hattach t (List.mem_cons_of_mem target ht))
    refine Frames.attemptThen h (hattach target List.mem_cons_self) (fun generation => ?_)
      (fun e => Frames.pure h _)
    dsimp only
    split
    next => exact Frames.attemptThen h (hcarrier _ _ _) (fun _ => hrest _) (fun e => Frames.pure h _)
    next => exact hrest _

/-- The pass of a new link keeps what each of its steps keeps. -/
theorem RecordReads.attachRunning {inv : World → Prop} {known : Int → RuntimeKind → Prop}
    (h : RecordReads inv known) (source : NicSource) {bridgeName : String → Int → String} {lab : Lab}
    {implicitNetwork : Option Int} {concrete : List Link}
    (hprovision : ∀ targets, Preserves inv (provisionBridges lab implicitNetwork targets))
    (hheal : ∀ target : Target, target.From bridgeName lab implicitNetwork concrete →
      known target.nodeId target.kind → Preserves inv (healTarget lab target))
    (hattach : ∀ target : Target, target.From bridgeName lab implicitNetwork concrete →
      known target.nodeId target.kind → Preserves inv (attachInterface source target.kind
        target.nodeId target.networkId target.interfaceIndex target.bridge))
    (hcarrier : ∀ m j up, Preserves inv (setQemuNicLink m j up))
    (hup : ∀ bridge, Preserves inv (run (.bridgeUp bridge))) :
    Preserves inv (attachRunning source bridgeName lab implicitNetwork concrete) := by
  have hcomposes := composes_invariant inv
  refine preserves_of (fun s hs => ?_)
  unfold NovaVe.attachRunning
  rw [ends_bind]
  refine (h.pendingTargets bridgeName lab implicitNetwork concrete hs).mono ?_ (fun _ _ ht => ht)
  intro targets t ⟨ht, htargets⟩
  refine Preserves.ends ?_ ht
  refine Frames.bind hcomposes (hprovision targets) (fun provisioned => ?_)
  refine Frames.bind hcomposes (Frames.forM hcomposes (fun target htarget =>
    hheal target (htargets target htarget).1 (htargets target htarget).2)) (fun _ => ?_)
  refine Frames.bind hcomposes (frames_attachTargets_of hcomposes source (fun target htarget =>
    hattach target (htargets target htarget).1 (htargets target htarget).2) hcarrier [])
    (fun made => ?_)
  obtain ⟨attached, failed⟩ := made
  cases failed with
  | some e => exact Frames.pure hcomposes _
  | none =>
    refine Frames.bind hcomposes (Frames.forM hcomposes (fun bridge _ => ?_))
      (fun _ => Frames.pure hcomposes _)
    refine Frames.tryCatch hcomposes (hup bridge) (fun e => ?_)
    split
    next => exact Frames.pure hcomposes ()
    next => exact Frames.throw hcomposes e

/-- So does the detach of the endpoints of a link. -/
theorem RecordReads.detachEndpoints {inv : World → Prop} {known : Int → RuntimeKind → Prop}
    (h : RecordReads inv known) (expectedGeneration : Option Int) {keys : List (Int × Int)}
    (hcarrier : ∀ m j up, Preserves inv (setQemuNicLink m j up))
    (hdetach : ∀ key ∈ keys, ∀ kind, known key.1 kind →
      Preserves inv (detachInterface kind key.1 key.2 expectedGeneration))
    (primaryError : Option Exc) :
    Preserves inv (NovaVe.detachEndpoints expectedGeneration primaryError keys) := by
  have hcomposes := composes_invariant inv
  induction keys generalizing primaryError with
  | nil =>
    unfold NovaVe.detachEndpoints
    split
    next e => exact Frames.throw hcomposes e
    next => exact Frames.pure hcomposes ()
  | cons key rest ih =>
    have hrest := fun error => ih (fun k hk => hdetach k (List.mem_cons_of_mem key hk)) error
    refine preserves_of (fun s hs => ?_)
    unfold NovaVe.detachEndpoints
    rw [ends_bind]
    refine (h.record key.1 true hs).mono ?_ (fun _ _ ht => ht)
    intro found t ⟨ht, hfound⟩
    refine Preserves.ends ?_ ht
    cases found with
    | none => exact hrest _
    | some r =>
      have hkept : ∀ e : Exc, Preserves inv (if e.isRuntime || e.isHostNet then
          NovaVe.detachEndpoints expectedGeneration (primaryError <|> some e) rest else throw e) := by
        intro e
        split
        next => exact hrest _
        next => exact Frames.throw hcomposes e
      have hone := hdetach key List.mem_cons_self r.kind (hfound r rfl).2
      dsimp only
      split
      next => exact hrest _
      next =>
        split
        next =>
          exact Frames.bind hcomposes (hcarrier _ _ _) (fun _ =>
            Frames.attemptThen hcomposes hone (fun _ => hrest _) hkept)
        next => exact Frames.attemptThen hcomposes hone (fun _ => hrest _) hkept

theorem preserves_rollbackAttached {inv : World → Prop} {attached : List (Target × Int)}
    (htarget : ∀ done ∈ attached,
      Preserves inv (rollbackTarget done.1.kind done.1.nodeId done.1.interfaceIndex))
    (hbridge : ∀ bridge, Preserves inv (bridgeDel bridge)) (provisioned : List String) (e : Exc) :
    Preserves inv (rollbackAttached attached provisioned e) := by
  have hcomposes := composes_invariant inv
  unfold rollbackAttached
  split
  next =>
    refine Frames.bind hcomposes (Frames.forM hcomposes htarget) (fun _ =>
      Frames.forM hcomposes (fun bridge _ => ?_))
    refine Frames.tryCatch hcomposes (hbridge bridge) (fun e => ?_)
    split
    next => exact Frames.pure hcomposes ()
    next => exact Frames.throw hcomposes e
  next => exact Frames.pure hcomposes ()

end NovaVe
