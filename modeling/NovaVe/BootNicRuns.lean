import NovaVe.BootNics
import NovaVe.TokenRuns

namespace NovaVe

/-- The node runs with so many boot NICs, and none was taken away since `w`. -/
structure KeepsNics (n boot : Int) (w t : World) : Prop where
  spared : NicsSpared n boot w t
  ports : t.OwnPorts
  running : ∃ r, t.runtimes.get? n = some r ∧ r.kind = .qemu ∧ r.alive = true ∧
    r.bootEthernet = boot

theorem KeepsNics.onward {n boot : Int} {w s t : World} (h : KeepsNics n boot w s)
    (hst : NicsSpared n boot s t) (hsame : t.runtimes = s.runtimes) : KeepsNics n boot w t := by
  refine ⟨(workings_nicsSpared n boot).composes.trans _ _ _ h.spared hst,
    ownPorts_same h.ports hsame, ?_⟩
  rw [hsame]
  exact h.running

theorem KeepsNics.bootEthernet {n boot : Int} {w t : World} (h : KeepsNics n boot w t)
    {r : NodeRuntime} (hget : t.runtimes.get? n = some r) :
    r.kind = .qemu ∧ r.alive = true ∧ r.bootEthernet = boot := by
  obtain ⟨r', hget', hfacts⟩ := h.running
  rw [Option.some.inj (hget.symm.trans hget')]
  exact hfacts

theorem reads_keepsNics (n boot : Int) (w : World) :
    RecordReads (KeepsNics n boot w) (fun m kind => m = n → kind = .qemu) := by
  refine ⟨?_, ?_⟩
  · rintro s m r hs hget rfl
    exact (hs.bootEthernet hget).1
  · intro s m r hs hget hdead
    have hne : m ≠ n := by
      rintro rfl
      rw [(hs.bootEthernet hget).2.1] at hdead
      cases hdead
    refine ⟨⟨?_, hs.spared.taps⟩, reads_ownPorts.forget s m r hs.ports hget hdead, ?_⟩
    · exact hs.spared.issues
    · obtain ⟨r', hget', hfacts⟩ := hs.running
      refine ⟨r', ?_, hfacts⟩
      show (s.runtimes.pop m).get? n = some r'
      rw [Dict.get?_pop_ne _ hne]
      exact hget'

/-- An operation on the record of a node that leaves the machine of the node as it is. -/
theorem KeepsNics.edits {n boot m : Int} {w s t : World} {step : NodeRuntime → NodeRuntime → Prop}
    (h : KeepsNics n boot w s) (hst : NicsSpared n boot s t) (hedits : s.Edits t m step)
    (hstep : ∀ r r', step r r' → r'.kind = r.kind ∧ r'.alive = r.alive ∧
      r'.bootEthernet = r.bootEthernet ∧ (r.OwnPorts m → r'.OwnPorts m)) :
    KeepsNics n boot w t := by
  have hspared := (workings_nicsSpared n boot).composes.trans _ _ _ h.spared hst
  have hports := hedits.ownPorts h.ports (fun r r' hr => (hstep r r' hr).2.2.2)
  obtain ⟨r, hget, hkind, halive, hboot⟩ := h.running
  refine ⟨hspared, hports, ?_⟩
  rcases hedits with (hsame | ⟨d, hd, hdead, hpop⟩) | ⟨r₁, r', hget₁, hr', hset⟩
  · rw [hsame]
    exact ⟨r, hget, hkind, halive, hboot⟩
  · have hne : m ≠ n := by
      rintro rfl
      rw [Option.some.inj (hd.symm.trans hget), halive] at hdead
      cases hdead
    rw [hpop, Dict.get?_pop_ne _ hne]
    exact ⟨r, hget, hkind, halive, hboot⟩
  · rw [hset, Dict.get?_set]
    split
    next heq =>
      subst heq
      rw [hget] at hget₁
      rw [← Option.some.inj hget₁] at hr'
      obtain ⟨hkind', halive', hboot', _⟩ := hstep r r' hr'
      exact ⟨r', rfl, hkind'.trans hkind, halive'.trans halive, hboot'.trans hboot⟩
    next => exact ⟨r, hget, hkind, halive, hboot⟩

/-- The record of the node after an operation: it is as it was, or took the step. -/
theorem World.Edits.record {n boot m : Int} {w s t : World}
    {step : NodeRuntime → NodeRuntime → Prop} (hedits : s.Edits t m step) (hs : KeepsNics n boot w s)
    {r' : NodeRuntime} (hget' : t.runtimes.get? n = some r') :
    s.runtimes.get? n = some r' ∨
      m = n ∧ ∃ r, s.runtimes.get? n = some r ∧ step r r' := by
  rcases hedits with (hsame | ⟨d, hd, hdead, hpop⟩) | ⟨r, r₁, hget, hr₁, hset⟩
  · rw [hsame] at hget'
    exact Or.inl hget'
  · rw [hpop, Dict.get?_pop] at hget'
    split at hget'
    next => cases hget'
    next => exact Or.inl hget'
  · rw [hset, Dict.get?_set] at hget'
    split at hget'
    next heq =>
      subst heq
      rw [← Option.some.inj hget']
      exact Or.inr ⟨rfl, r, hget, hr₁⟩
    next => exact Or.inl hget'

/-- An entry that the auto-heal of a new link takes off: no link wires it. -/
def Orphaned (lab : Lab) (concrete : List Link) (n i : Int) (e : Attachment) : Prop :=
  e.interfaceIndex = i ∧ ∃ l ∈ concrete, ∃ networkId, l.attachment? = some (n, i, networkId) ∧
    e.networkId ≠ networkId ∧ linkReferencesEndpoint lab n i e.networkId = false

/-- The entries of an interface carry the flag of a boot NIC. -/
def NodeRuntime.Flagged (r : NodeRuntime) (i : Int) : Prop :=
  ∀ e ∈ r.attachments, e.interfaceIndex = i → e.bootNic = true

/-- A boot NIC that a new link may go on: its entry stays, or it is flagged and the TAP is there; and
without an entry the TAP is there. -/
def NodeRuntime.Ready (r : NodeRuntime) (lab : Lab) (concrete : List Link) (n i : Int) (tap : Prop) :
    Prop :=
  ((∀ e ∈ r.attachments, ¬ Orphaned lab concrete n i e) ∧ (r.attachment? i ≠ none ∨ tap)) ∨
    (r.Flagged i ∧ tap)

/-- The boot NICs of the node that a new link goes on are ready for it. -/
def LinkReady (n boot : Int) (lab : Lab) (concrete : List Link) (w : World) : Prop :=
  ∀ i < boot, (∃ l ∈ concrete, ∃ networkId, l.attachment? = some (n, i, networkId)) →
    ∀ r, w.runtimes.get? n = some r → r.Ready lab concrete n i (w.HasTap n i)

/-- The detach of a boot NIC of the node is stale, or meets flagged entries. -/
def DetachReady (n boot : Int) (expectedGeneration : Option Int) (keys : List (Int × Int))
    (w : World) : Prop :=
  ∀ i < boot, (n, i) ∈ keys → ∀ r, w.runtimes.get? n = some r →
    staleFor r i expectedGeneration = true ∨ r.Flagged i

/-- The condition on an action, in the world before it. -/
def WiringOk (n boot : Int) (w : World) : WiringAction → Prop
  | .answer _ => True
  | .createLink _ _ lab _ concrete => LinkReady n boot lab concrete w
  | .rollback attached _ _ =>
    ∀ done ∈ attached, done.1.nodeId = n → boot ≤ done.1.interfaceIndex
  | .deleteLink expectedGeneration keys => DetachReady n boot expectedGeneration keys w
  | .reconcile _ _ _ _ => True

theorem NodeRuntime.Flagged.other {r r' : NodeRuntime} {n i j : Int} (h : r.Flagged i)
    (hchanges : r.Changes r' n j) (hij : i ≠ j) : r'.Flagged i := by
  intro e he heq
  exact h e (hchanges.others e he (by rw [heq]; exact hij)) heq

theorem NodeRuntime.Ready.other {r r' : NodeRuntime} {lab : Lab} {concrete : List Link} {n i j : Int}
    {tap tap' : Prop} (h : r.Ready lab concrete n i tap) (hchanges : r.Changes r' n j) (hij : i ≠ j)
    (htap : tap → tap') : r'.Ready lab concrete n i tap' := by
  rcases h with ⟨hstays, hthere⟩ | ⟨hflagged, hthere⟩
  · refine Or.inl ⟨?_, ?_⟩
    · intro e he horphan
      exact hstays e (hchanges.others e he (by rw [horphan.1]; exact hij)) horphan
    · rw [hchanges.found i hij]
      exact hthere.imp id htap
  · exact Or.inr ⟨hflagged.other hchanges hij, htap hthere⟩

theorem NodeRuntime.Ready.tap {r : NodeRuntime} {lab : Lab} {concrete : List Link} {n i : Int}
    {tap : Prop} (h : r.Ready lab concrete n i tap) (hnone : r.attachment? i = none) : tap := by
  rcases h with ⟨_, hentry | htap⟩ | ⟨_, htap⟩
  · exact absurd hnone hentry
  · exact htap
  · exact htap

/-- What holds of the boot NICs on the way through the pass of a new link. -/
structure LinkInv (n boot : Int) (lab : Lab) (concrete : List Link) (w t : World) : Prop where
  keeps : KeepsNics n boot w t
  ready : LinkReady n boot lab concrete t

theorem LinkInv.onward {n boot : Int} {lab : Lab} {concrete : List Link} {w s t : World}
    (h : LinkInv n boot lab concrete w s) (hst : NicsSpared n boot s t)
    (hsame : t.runtimes = s.runtimes) : LinkInv n boot lab concrete w t := by
  refine ⟨h.keeps.onward hst hsame, ?_⟩
  intro i hi hlinked r hget
  rw [hsame] at hget
  rcases h.ready i hi hlinked r hget with ⟨hstays, hthere⟩ | ⟨hflagged, hthere⟩
  · exact Or.inl ⟨hstays, hthere.imp id (hst.taps i hi)⟩
  · exact Or.inr ⟨hflagged, hst.taps i hi hthere⟩

theorem LinkInv.edits {n boot m j : Int} {lab : Lab} {concrete : List Link} {w s t : World}
    {step : NodeRuntime → NodeRuntime → Prop} (h : LinkInv n boot lab concrete w s)
    (hst : NicsSpared n boot s t) (hedits : s.Edits t m step)
    (hstep : ∀ r r', step r r' → r.Changes r' m j)
    (hready : m = n → j < boot → ∀ r r', s.runtimes.get? n = some r → step r r' →
      r.Ready lab concrete n j (s.HasTap n j) → r'.Ready lab concrete n j (t.HasTap n j)) :
    LinkInv n boot lab concrete w t := by
  refine ⟨h.keeps.edits hst hedits (fun r r' hr => ?_), ?_⟩
  · have hchanges := hstep r r' hr
    exact ⟨hchanges.kind, hchanges.alive, hchanges.bootEthernet, hchanges.ports⟩
  · intro i hi hlinked r' hget'
    rcases hedits.record h.keeps hget' with hget | ⟨rfl, r, hget, hr⟩
    · rcases h.ready i hi hlinked r' hget with ⟨hstays, hthere⟩ | ⟨hflagged, hthere⟩
      · exact Or.inl ⟨hstays, hthere.imp id (hst.taps i hi)⟩
      · exact Or.inr ⟨hflagged, hst.taps i hi hthere⟩
    · have hold := h.ready i hi hlinked r hget
      by_cases hij : i = j
      · subst hij
        exact hready rfl hi r r' hget hr hold
      · exact hold.other (hstep r r' hr) hij (hst.taps i hi)

theorem reads_linkInv (n boot : Int) (lab : Lab) (concrete : List Link) (w : World) :
    RecordReads (LinkInv n boot lab concrete w) (fun m kind => m = n → kind = .qemu) := by
  have hkeeps := reads_keepsNics n boot w
  refine ⟨fun s m r hs hget => hkeeps.kind s m r hs.keeps hget, ?_⟩
  intro s m r hs hget hdead
  refine ⟨hkeeps.forget s m r hs.keeps hget hdead, ?_⟩
  intro i hi hlinked r' hget'
  have hpop : (s.runtimes.pop m).get? n = some r' := hget'
  rw [Dict.get?_pop] at hpop
  split at hpop
  next => cases hpop
  next => exact hs.ready i hi hlinked r' hpop

/-- A program that gives no command about an interface and leaves the registry alone. -/
theorem preserves_linkInv_same {α : Type} {n boot : Int} {lab : Lab} {concrete : List Link} {w : World}
    {m : HostM α} (h : Frames (fun s t => NicsSpared n boot s t ∧ t.runtimes = s.runtimes) m) :
    Preserves (LinkInv n boot lab concrete w) m :=
  fun s => (h s).mono (fun _ _ ht hs => hs.onward ht.1 ht.2) (fun _ _ ht hs => hs.onward ht.1 ht.2)

theorem setQemuNicLink_linkInv (n boot : Int) (lab : Lab) (concrete : List Link) (w : World) (m j : Int)
    (up : Bool) : Preserves (LinkInv n boot lab concrete w) (setQemuNicLink m j up) := by
  have hkept : ∀ s t, LinkInv n boot lab concrete w s →
      NicsSpared n boot s t ∧ Untouched s t m → LinkInv n boot lab concrete w t := by
    intro s t hs ⟨hst, huntouched⟩
    refine @LinkInv.edits n boot m j lab concrete w s t (fun _ _ => False) hs hst
      (Or.inl huntouched) ?_ ?_
    · exact fun _ _ hfalse => hfalse.elim
    · exact fun _ _ _ _ _ hfalse => hfalse.elim
  exact preserves_of (fun s hs => (setQemuNicLink_spec (workings_nicsSpared n boot)
    (fun _ _ => rfl) s).mono (fun _ t ht => hkept s t hs ht) (fun _ t ht => hkept s t hs ht))

/-- What holds while the flagged entries of a boot NIC are taken off. -/
structure HealInv (n boot : Int) (lab : Lab) (concrete : List Link) (w : World) (i : Int)
    (t : World) : Prop extends LinkInv n boot lab concrete w t where
  flagged : ∀ r, t.runtimes.get? n = some r → r.Flagged i
  tap : t.HasTap n i

/-- The detach of a boot NIC whose entries are flagged, by the auto-heal. -/
theorem detach_healInv {n boot i : Int} {lab : Lab} {concrete : List Link} {w : World}
    {kind : RuntimeKind} (hkind : kind = .qemu) (hi : i < boot) :
    Preserves (HealInv n boot lab concrete w i) (detachInterface kind n i none) := by
  have hkept : ∀ s t, HealInv n boot lab concrete w i s →
      NicsSpared n boot s t ∧ s.Edits t n (fun r r' => r.Detached r' n i none) →
      HealInv n boot lab concrete w i t := by
    intro s t hs ⟨hst, hedits⟩
    have htap := hst.taps i hi hs.tap
    have hflagged : ∀ r', t.runtimes.get? n = some r' → r'.Flagged i := by
      intro r' hget'
      rcases hedits.record hs.keeps hget' with hget | ⟨_, r, hget, hr⟩
      · exact hs.flagged r' hget
      · exact fun e he heq => hs.flagged r hget e (hr.subset e he) heq
    refine ⟨hs.toLinkInv.edits hst hedits (fun r r' hr => hr.toChanges) ?_, hflagged, htap⟩
    intro _ _ r r' hget hr _
    exact Or.inr ⟨fun e he heq => hs.flagged r hget e (hr.subset e he) heq, htap⟩
  refine preserves_of (fun s hs => ?_)
  refine (detachInterface_spares none hs.keeps.ports (fun _ => hkind) ?_).mono
    (fun _ t ht => hkept s t hs ht) (fun _ t ht => hkept s t hs ht)
  intro _ _ r entry hget hentry _
  have hindex : entry.interfaceIndex = i := by simpa [onInterface] using List.find?_some hentry
  exact hs.flagged r hget entry (List.mem_of_find?_eq_some hentry) hindex

/-- The detach of another interface than a boot NIC of the node. -/
theorem detach_linkInv {n boot m j : Int} {lab : Lab} {concrete : List Link} {w : World}
    {kind : RuntimeKind} (hkind : m = n → kind = .qemu) (hoff : OffBoot n boot m j) :
    Preserves (LinkInv n boot lab concrete w) (detachInterface kind m j none) := by
  have hkept : ∀ s t, LinkInv n boot lab concrete w s →
      NicsSpared n boot s t ∧ s.Edits t m (fun r r' => r.Detached r' m j none) →
      LinkInv n boot lab concrete w t := by
    intro s t hs ⟨hst, hedits⟩
    refine hs.edits hst hedits (fun r r' hr => hr.toChanges) ?_
    intro heq hlt
    have hle := hoff heq
    omega
  refine preserves_of (fun s hs => ?_)
  refine (detachInterface_spares none hs.keeps.ports hkind ?_).mono
    (fun _ t ht => hkept s t hs ht) (fun _ t ht => hkept s t hs ht)
  intro heq hlt
  have hle := hoff heq
  omega

/-- The loop of the auto-heal, over the entries it found. -/
theorem frames_healLoop {rel : World → World → Prop} (h : Composes rel) {kind : RuntimeKind}
    {m j : Int} (hdetach : Frames rel (detachInterface kind m j none)) (orphans : List Attachment) :
    Frames rel (orphans.forM (fun _ => tryCatch (do
        let _ ← detachInterface kind m j none
        pure ())
      (fun e => if e.isRuntime || e.isHostNet then pure () else throw e))) := by
  refine Frames.forM h (fun entry _ => ?_)
  refine Frames.tryCatch h (Frames.bind h hdetach (fun _ => Frames.pure h ())) (fun e => ?_)
  split
  next => exact Frames.pure h ()
  next => exact Frames.throw h e

theorem heal_linkInv {n boot : Int} {bridgeName : String → Int → String} {lab : Lab}
    {implicitNetwork : Option Int} {concrete : List Link} {w : World} {target : Target}
    (hfrom : target.From bridgeName lab implicitNetwork concrete)
    (hkind : target.nodeId = n → target.kind = .qemu) :
    Preserves (LinkInv n boot lab concrete w) (healTarget lab target) := by
  have hcomposes := composes_invariant (LinkInv n boot lab concrete w)
  refine preserves_of (fun s hs => ?_)
  unfold healTarget
  rw [ends_bind]
  refine ((reads_linkInv n boot lab concrete w).record target.nodeId true hs).mono ?_ (fun _ _ ht => ht)
  intro found t ⟨ht, hfound⟩
  cases found with
  | none => exact ht
  | some r =>
    obtain ⟨hget, _⟩ := hfound r rfl
    dsimp only
    by_cases hoff : OffBoot n boot target.nodeId target.interfaceIndex
    · exact Preserves.ends (frames_healLoop hcomposes (detach_linkInv hkind hoff) _) ht
    · unfold OffBoot at hoff
      obtain ⟨heq, hlt⟩ := Classical.not_imp.mp hoff
      obtain ⟨l, hl, hwired, _⟩ := hfrom
      rw [heq] at hwired hget
      have hi : target.interfaceIndex < boot := by omega
      have hready := ht.ready target.interfaceIndex hi ⟨l, hl, _, hwired⟩ r hget
      cases horphans : r.attachments.filter (fun entry =>
          onInterface target.interfaceIndex entry && decide (entry.networkId ≠ target.networkId) &&
            !linkReferencesEndpoint lab target.nodeId target.interfaceIndex entry.networkId) with
      | nil => exact ht
      | cons orphan rest =>
        have hmem : orphan ∈ orphan :: rest := List.mem_cons_self
        rw [← horphans] at hmem
        obtain ⟨hin, htest⟩ := List.mem_filter.mp hmem
        rw [Bool.and_eq_true, Bool.and_eq_true, decide_eq_true_eq, Bool.not_eq_true', heq] at htest
        obtain ⟨⟨hon, hother⟩, hloose⟩ := htest
        have horphan : Orphaned lab concrete n target.interfaceIndex orphan :=
          ⟨of_decide_eq_true hon, l, hl, _, hwired, hother, hloose⟩
        obtain ⟨hflagged, htap⟩ := hready.resolve_left (fun hstays => hstays.1 orphan hin horphan)
        have hheal : HealInv n boot lab concrete w target.interfaceIndex t := by
          refine ⟨ht, fun r' hget' => ?_, htap⟩
          rw [← Option.some.inj (hget.symm.trans hget')]
          exact hflagged
        rw [heq]
        exact (Preserves.ends (frames_healLoop (composes_invariant _)
          (detach_healInv (hkind heq) hi) _) hheal).mono
            (fun _ _ hu => hu.toLinkInv) (fun _ _ hu => hu.toLinkInv)

theorem attach_linkInv {n boot : Int} {bridgeName : String → Int → String} {lab : Lab}
    {implicitNetwork : Option Int} {concrete : List Link} {w : World} {target : Target}
    (source : NicSource) (hfrom : target.From bridgeName lab implicitNetwork concrete)
    (hkind : target.nodeId = n → target.kind = .qemu) :
    Preserves (LinkInv n boot lab concrete w) (attachInterface source target.kind target.nodeId
      target.networkId target.interfaceIndex target.bridge) := by
  obtain ⟨l, hl, hwired, _⟩ := hfrom
  have hkept : ∀ s t, LinkInv n boot lab concrete w s →
      NicsSpared n boot s t ∧ s.Edits t target.nodeId (fun r r' =>
        r.Adds r' target.nodeId target.interfaceIndex) → LinkInv n boot lab concrete w t := by
    intro s t hs ⟨hst, hedits⟩
    refine hs.edits hst hedits (fun r r' hr => hr.toChanges) ?_
    intro heq hi r r' hget hr hready
    obtain ⟨hqemu, _, hboot⟩ := hs.keeps.bootEthernet hget
    exact Or.inr ⟨hr.flagged hqemu (by omega), hst.taps _ hi (hready.tap hr.free)⟩
  refine preserves_of (fun s hs => ?_)
  refine (attachInterface_spares source target.networkId target.bridge hkind ?_).mono
    (fun _ t ht => hkept s t hs ht) (fun _ t ht => hkept s t hs ht)
  intro heq hi r hget
  rw [heq] at hwired
  exact ⟨(hs.keeps.bootEthernet hget).2.2,
    (hs.ready target.interfaceIndex hi ⟨l, hl, _, hwired⟩ r hget).tap⟩

/-- A new link on boot NICs that are ready for it. -/
theorem attachRunning_keeps {n boot : Int} {w s : World} (source : NicSource)
    (bridgeName : String → Int → String) {lab : Lab} (implicitNetwork : Option Int)
    {concrete : List Link} (hs : KeepsNics n boot w s) (hready : LinkReady n boot lab concrete s) :
    Ends (attachRunning source bridgeName lab implicitNetwork concrete) s
      (fun _ t => KeepsNics n boot w t) (fun _ t => KeepsNics n boot w t) := by
  have hspared := (workings_nicsSpared n boot).toCommands.sameRuntimes
  have hall := @RecordReads.attachRunning _ _ (reads_linkInv n boot lab concrete w) source bridgeName lab
    implicitNetwork concrete
    (fun targets => preserves_linkInv_same (yields_provisionBridges hspared
      (aside_sparesNics n boot) lab implicitNetwork
      (fun _ _ _ => ⟨fun _ _ => rfl, fun _ _ => rfl⟩)).frames)
    (fun _ hfrom hkind => heal_linkInv hfrom hkind)
    (fun _ hfrom hkind => attach_linkInv source hfrom hkind)
    (setQemuNicLink_linkInv n boot lab concrete w)
    (fun _ => preserves_linkInv_same (frames_run hspared (fun _ _ => rfl)))
  exact (hall.ends ⟨hs, hready⟩).mono (fun _ _ ht => ht.keeps) (fun _ _ ht => ht.keeps)

/-- What holds of the boot NICs on the way through the detaches of a link. -/
structure DetachInv (n boot : Int) (expectedGeneration : Option Int) (keys : List (Int × Int))
    (w t : World) : Prop where
  keeps : KeepsNics n boot w t
  ready : DetachReady n boot expectedGeneration keys t

theorem DetachInv.edits {n boot m j : Int} {expectedGeneration : Option Int} {keys : List (Int × Int)}
    {w s t : World} (h : DetachInv n boot expectedGeneration keys w s) (hst : NicsSpared n boot s t)
    (hedits : s.Edits t m (fun r r' => r.Detached r' m j expectedGeneration)) :
    DetachInv n boot expectedGeneration keys w t := by
  refine ⟨h.keeps.edits hst hedits (fun r r' hr => ⟨hr.kind, hr.alive, hr.bootEthernet, hr.ports⟩), ?_⟩
  intro i hi hkey r' hget'
  rcases hedits.record h.keeps hget' with hget | ⟨rfl, r, hget, hr⟩
  · exact h.ready i hi hkey r' hget
  · have hold := h.ready i hi hkey r hget
    by_cases hij : i = j
    · subst hij
      rw [hr.fresh] at hold
      have hflagged := hold.resolve_left (by decide)
      exact Or.inr (fun e he heq => hflagged e (hr.subset e he) heq)
    · refine hold.imp ?_ (fun hflagged => hflagged.other hr.toChanges hij)
      intro hstale
      have hgeneration := hr.generation i hij
      unfold staleFor at hstale ⊢
      rw [hgeneration]
      exact hstale

theorem reads_detachInv (n boot : Int) (expectedGeneration : Option Int) (keys : List (Int × Int))
    (w : World) :
    RecordReads (DetachInv n boot expectedGeneration keys w) (fun m kind => m = n → kind = .qemu) := by
  have hkeeps := reads_keepsNics n boot w
  refine ⟨fun s m r hs hget => hkeeps.kind s m r hs.keeps hget, ?_⟩
  intro s m r hs hget hdead
  refine ⟨hkeeps.forget s m r hs.keeps hget hdead, ?_⟩
  intro i hi hkey r' hget'
  have hpop : (s.runtimes.pop m).get? n = some r' := hget'
  rw [Dict.get?_pop] at hpop
  split at hpop
  next => cases hpop
  next => exact hs.ready i hi hkey r' hpop

theorem detachEndpoints_keeps {n boot : Int} {w s : World} {expectedGeneration : Option Int}
    {keys : List (Int × Int)} (hs : KeepsNics n boot w s)
    (hready : DetachReady n boot expectedGeneration keys s) :
    Ends (detachEndpoints expectedGeneration none keys) s (fun _ t => KeepsNics n boot w t)
      (fun _ t => KeepsNics n boot w t) := by
  have hcarrier : ∀ m j up, Preserves (DetachInv n boot expectedGeneration keys w)
      (setQemuNicLink m j up) := by
    intro m j up
    have hkept : ∀ s t, DetachInv n boot expectedGeneration keys w s →
        NicsSpared n boot s t ∧ Untouched s t m → DetachInv n boot expectedGeneration keys w t := by
      intro s t hs ⟨hst, huntouched⟩
      exact @DetachInv.edits n boot m j expectedGeneration keys w s t hs hst (Or.inl huntouched)
    exact preserves_of (fun s hs => (setQemuNicLink_spec (workings_nicsSpared n boot)
      (fun _ _ => rfl) s).mono (fun _ t ht => hkept s t hs ht) (fun _ t ht => hkept s t hs ht))
  have hdetach : ∀ key ∈ keys, ∀ kind, (key.1 = n → kind = .qemu) →
      Preserves (DetachInv n boot expectedGeneration keys w)
        (detachInterface kind key.1 key.2 expectedGeneration) := by
    intro key hkey kind hkind
    refine preserves_of (fun s hs => ?_)
    refine (detachInterface_spares expectedGeneration hs.keeps.ports hkind ?_).mono
      (fun _ t ht => hs.edits ht.1 ht.2) (fun _ t ht => hs.edits ht.1 ht.2)
    intro heq hi r entry hget hentry hfresh
    have hkey' : (n, key.2) ∈ keys := by
      rw [← heq]
      exact hkey
    have hindex : entry.interfaceIndex = key.2 := by
      simpa [onInterface] using List.find?_some hentry
    rcases hs.ready key.2 hi hkey' r hget with hstale | hflagged
    · rw [hfresh] at hstale
      cases hstale
    · exact hflagged entry (List.mem_of_find?_eq_some hentry) hindex
  have hall := (reads_detachInv n boot expectedGeneration keys w).detachEndpoints expectedGeneration
    hcarrier hdetach none
  exact (hall.ends ⟨hs, hready⟩).mono (fun _ _ ht => ht.keeps) (fun _ _ ht => ht.keeps)

/-- An action that meets the condition takes no boot NIC away. -/
theorem KeepsNics.step {n boot : Int} {w s : World} {a : WiringAction} (hs : KeepsNics n boot w s)
    (hok : WiringOk n boot s a) : KeepsNics n boot w (wiringStep s a) := by
  have hspared := workings_nicsSpared n boot
  cases a with
  | answer replies =>
    have hst : NicsSpared n boot s { s with replies := replies } :=
      ⟨⟨[], (List.append_nil _).symm, fun c hc => by cases hc⟩, fun _ _ h => h⟩
    exact hs.onward hst rfl
  | createLink source bridgeName lab implicitNetwork concrete =>
    refine Ends.endState ?_
    unfold WiringAction.program
    rw [ends_bind]
    exact attachRunning_keeps source bridgeName implicitNetwork hs hok
  | rollback attached provisioned failure =>
    refine Ends.endState (Preserves.ends ?_ hs)
    refine preserves_rollbackAttached (fun done hdone => ?_) (fun bridge => ?_) provisioned failure
    · have hat := okAt_sparesNics (hok done hdone) none
      refine preserves_of (fun s hs => (rollbackTarget_edits hspared done.1.kind hat).mono
        (fun _ _ ht => hs.edits ht.1 ht.2 ?_) (fun _ _ ht => hs.edits ht.1 ht.2 ?_))
      all_goals
        intro r r' hr
        exact ⟨hr.kind, hr.alive, hr.bootEthernet, hr.ports⟩
    · refine preserves_of (fun s hs => (frames_bridgeDel hspared.toCommands.sameRuntimes
        (fun _ _ => rfl) s).mono (fun _ _ ht => hs.onward ht.1 ht.2)
          (fun _ _ ht => hs.onward ht.1 ht.2))
  | deleteLink expectedGeneration keys => exact Ends.endState (detachEndpoints_keeps hs hok)
  | reconcile source bridgeName lab m =>
    have hcommands : ReconcileOk (SparesNics n boot) bridgeName lab m :=
      ⟨fun _ _ _ => rfl, fun _ _ _ => rfl, fun _ i want _ => tapOk_sparesNics n boot m i want.bridgeName⟩
    refine Ends.endState ((reconcile_edits hspared source bridgeName lab m s (fun _ _ => rfl)
      hcommands).mono (fun _ _ ht => hs.edits ht.1 ht.2 ?_) (fun _ _ ht => hs.edits ht.1 ht.2 ?_))
    all_goals
      rintro r r' ⟨_, _, hstep⟩
      exact ⟨hstep.kind, hstep.alive, hstep.bootEthernet, reconcileStep_ownPorts hstep⟩

/-- From a world that starts and stops and links led to, in which a QEMU node runs: in a run of which
every action meets the condition, no boot NIC of the node is taken away; and the hot-attach pass of
a new link, with its rollback, is such a run. -/
theorem boot_nics_stay {first w after : World} {history : List NodeAction}
    {actions : List WiringAction} {n : Int} {r : NodeRuntime} (hfirst : first.runtimes = Dict.empty)
    (past : Run (stepOf nodeStep) first history w) (hget : w.runtimes.get? n = some r)
    (hkind : r.kind = .qemu) (halive : r.alive = true)
    (run : Run (Guarded (stepOf wiringStep) (WiringOk n r.bootEthernet)) w actions after) :
    Issues (SparesNics n r.bootEthernet) w after ∧
      ∀ source bridgeName lab implicitNetwork concrete t, ∃ more,
        Run (stepOf wiringStep) t
          (.createLink source bridgeName lab implicitNetwork concrete :: more)
          (endState (hotAttachRunningEndpoints source bridgeName lab implicitNetwork concrete) t) := by
  have hstart : KeepsNics n r.bootEthernet w w :=
    ⟨(workings_nicsSpared n r.bootEthernet).composes.refl w, ownPorts_of_run hfirst past, r, hget, hkind,
      halive, rfl⟩
  have hend := @Run.guarded_invariant _ _ _ _ (fun t => KeepsNics n r.bootEthernet w t)
    (fun _ _ h hok => h.step hok) _ _ _ run hstart
  exact ⟨hend.spared.issues, hotAttach_run⟩

def machineNode : Node :=
  { id := 1, name := "vm", type := .qemu, interfaces := [{ index := 0, name := "eth0" }] }

/-- A lab with one machine, whose only NIC is wired to a network. -/
def machineLab : Lab :=
  { id := "lab", nodes := Dict.empty.set 1 machineNode
    networks := Dict.empty.set 1 { id := 1, name := "lan" }
    links := [{ id := "l", from_ := .node 1 0, to_ := .network 1 }] }

/-- The world after the start of the machine, on a host with the bridge of the network. -/
def machineStart : World :=
  nodeStep { host := { bridges := ["br"] } } (.start tokenEnv machineLab 1 machineNode)

def reconcileMachine : WiringAction :=
  .reconcile ⟨fun _ => none, fun _ => "", fun _ _ => ""⟩ (fun _ _ => "br") machineLab 1

/-- Once a reconcile has flagged the entry that the start wrote, the link may be deleted. -/
theorem reconciled_nic_stays : Issues (SparesNics 1 1) machineStart
    ([reconcileMachine, .deleteLink none [(1, 0)]].foldl wiringStep machineStart) := by
  have hget : machineStart.runtimes.get? 1 = some (startedRecord tokenEnv machineLab 1 machineNode) := by
    decide +kernel
  have hready : WiringOk 1 1 (wiringStep machineStart reconcileMachine) (.deleteLink none [(1, 0)]) := by
    have hall : ((wiringStep machineStart reconcileMachine).runtimes.get? 1).map
        (fun r => r.attachments.all Attachment.bootNic) = some true := by decide +kernel
    intro i _ _ r hr
    rw [hr] at hall
    exact Or.inr (fun e he _ => List.all_eq_true.mp (Option.some.inj hall) e he)
  have run : Run (Guarded (stepOf wiringStep) (WiringOk 1 1)) machineStart
      [reconcileMachine, .deleteLink none [(1, 0)]]
      ([reconcileMachine, .deleteLink none [(1, 0)]].foldl wiringStep machineStart) :=
    Run.cons ⟨trivial, rfl⟩ (Run.single ⟨hready, rfl⟩)
  exact (boot_nics_stay rfl (Run.single rfl) hget rfl rfl run).1

/-- The entry that a start writes for a boot NIC has no flag: to delete its link takes the device away. -/
theorem deleted_link_takes_nic :
    (machineStart.runtimes.get? 1).map NodeRuntime.bootEthernet = some 1 ∧
      ¬ Issues (SparesNics 1 1) machineStart
        (wiringStep machineStart (.deleteLink none [(1, 0)])) := by
  refine ⟨by decide +kernel, ?_⟩
  rintro ⟨commands, htrace, hspares⟩
  have hdeleted : HostCall.deviceDel 1 0 ∈
      ((wiringStep machineStart (.deleteLink none [(1, 0)])).trace).drop
        machineStart.trace.length := by decide +kernel
  rw [htrace, List.drop_left] at hdeleted
  have hfalse := hspares _ hdeleted 0 (by decide)
  cases hfalse

end NovaVe
