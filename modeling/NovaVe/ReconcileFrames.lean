import NovaVe.AttachSteps
import NovaVe.Reconciled

namespace NovaVe

theorem setEntry_find? (attachments : List Attachment) (new : Attachment) (i : Int) :
    (setEntry attachments new).find? (onInterface i) =
      if new.interfaceIndex = i then some new else attachments.find? (onInterface i) := by
  induction attachments with
  | nil =>
    unfold setEntry
    by_cases hi : new.interfaceIndex = i <;> simp [onInterface, hi]
  | cons entry rest ih =>
    unfold setEntry
    by_cases he : entry.interfaceIndex = new.interfaceIndex
    · by_cases hi : new.interfaceIndex = i <;> simp [onInterface, he, hi]
    · by_cases hi : new.interfaceIndex = i
      · rw [if_pos hi] at ih
        have hne : entry.interfaceIndex ≠ i := fun h => he (h.trans hi.symm)
        simp [hi, onInterface, hne, ih]
      · rw [if_neg hi] at ih
        simp [he, hi, List.find?_cons, ih]

theorem setEntry_subset (attachments : List Attachment) (new : Attachment) {e : Attachment}
    (h : e ∈ setEntry attachments new) : e = new ∨ e ∈ attachments := by
  induction attachments with
  | nil => exact Or.inl (List.mem_singleton.mp h)
  | cons entry rest ih =>
    unfold setEntry at h
    split at h
    next =>
      rcases List.mem_cons.mp h with hnew | hm
      · exact Or.inl hnew
      · exact Or.inr (List.mem_cons_of_mem entry hm)
    next =>
      rcases List.mem_cons.mp h with hentry | hm
      · exact Or.inr (List.mem_cons.mpr (Or.inl hentry))
      · exact (ih hm).imp id (List.mem_cons_of_mem entry)

theorem withoutInterface_attachment? (r : NodeRuntime) (i j : Int) :
    (r.withoutInterface i).attachment? j = if i = j then none else r.attachment? j := by
  unfold NodeRuntime.withoutInterface NodeRuntime.attachment?
  rw [List.find?_filter]
  by_cases hij : i = j
  · simp [onInterface, hij]
  · rw [if_neg hij]
    congr 1
    funext entry
    by_cases hj : entry.interfaceIndex = j
    · simp [onInterface, hj, Ne.symm hij]
    · simp [onInterface, hj]

/-- What a reconcile may do to a record, one interface at a time: an expected interface is as it was
or has its new record, another one is as it was or has lost a flagged entry of a boot interface. -/
structure ReconcileStep (source : NicSource) (nodeId : Int) (expected : Dict Int Expected)
    (removable : List Int) (r r' : NodeRuntime) : Prop where
  alive : r'.alive = r.alive
  kind : r'.kind = r.kind
  bootEthernet : r'.bootEthernet = r.bootEthernet
  wanted : ∀ i want, expected.get? i = some want →
    (r'.attachment? i = r.attachment? i ∧ r'.generation i = r.generation i) ∨
      (r'.attachment? i = some (expectedRecord source nodeId i want) ∧
        r'.generation i = want.attachGeneration)
  other : ∀ i, expected.get? i = none → r'.generation i = r.generation i ∧
    (r'.attachment? i = r.attachment? i ∨ (i ∈ removable ∧ r'.attachment? i = none))
  distinct : (r.attachments.map Attachment.interfaceIndex).Nodup →
    (r'.attachments.map Attachment.interfaceIndex).Nodup
  entries : ∀ e ∈ r'.attachments, e ∈ r.attachments ∨
    ∃ i want, e = expectedRecord source nodeId i want

theorem ReconcileStep.refl (source : NicSource) (nodeId : Int) (expected : Dict Int Expected)
    (removable : List Int) (r : NodeRuntime) : ReconcileStep source nodeId expected removable r r :=
  ⟨rfl, rfl, rfl, fun _ _ _ => Or.inl ⟨rfl, rfl⟩, fun _ _ => ⟨rfl, Or.inl rfl⟩, id,
    fun _ he => Or.inl he⟩

theorem ReconcileStep.trans {source : NicSource} {nodeId : Int} {expected : Dict Int Expected}
    {removable : List Int} {r r' r'' : NodeRuntime}
    (h : ReconcileStep source nodeId expected removable r r')
    (h' : ReconcileStep source nodeId expected removable r' r'') :
    ReconcileStep source nodeId expected removable r r'' := by
  refine ⟨h'.alive.trans h.alive, h'.kind.trans h.kind, h'.bootEthernet.trans h.bootEthernet,
    fun i want hi => ?_, fun i hi => ?_, fun hd => h'.distinct (h.distinct hd),
    fun e he => (h'.entries e he).elim (h.entries e) Or.inr⟩
  · rcases h'.wanted i want hi with ⟨ha, hg⟩ | hnew
    · rw [ha, hg]
      exact h.wanted i want hi
    · exact Or.inr hnew
  · obtain ⟨hg, ha⟩ := h.other i hi
    obtain ⟨hg', ha'⟩ := h'.other i hi
    refine ⟨hg'.trans hg, ?_⟩
    rcases ha' with ha' | hgone
    · rw [ha']
      exact ha
    · exact Or.inr hgone

theorem withExpected_step {source : NicSource} {nodeId : Int} {expected : Dict Int Expected}
    (removable : List Int) (r : NodeRuntime) {wanted : Int × Expected}
    (h : expected.get? wanted.1 = some wanted.2) :
    ReconcileStep source nodeId expected removable r (r.withExpected source nodeId wanted) := by
  have hentry : ∀ i, (r.withExpected source nodeId wanted).attachment? i =
      if wanted.1 = i then some (expectedRecord source nodeId wanted.1 wanted.2)
      else r.attachment? i := fun i => setEntry_find? _ _ _
  have hgen : ∀ i, (r.withExpected source nodeId wanted).generation i =
      if wanted.1 = i then wanted.2.attachGeneration else r.generation i := by
    intro i
    unfold NodeRuntime.generation NodeRuntime.withExpected
    rw [Dict.get?_set]
    split <;> rfl
  refine ⟨rfl, rfl, rfl, fun i want hi => ?_, fun i hi => ?_, setEntry_nodup _, fun e he => ?_⟩
  · rw [hentry, hgen]
    by_cases hw : wanted.1 = i
    · subst hw
      obtain rfl : want = wanted.2 := Option.some.inj (hi.symm.trans h)
      rw [if_pos rfl, if_pos rfl]
      exact Or.inr ⟨rfl, rfl⟩
    · rw [if_neg hw, if_neg hw]
      exact Or.inl ⟨rfl, rfl⟩
  · have hw : wanted.1 ≠ i := by
      rintro rfl
      rw [hi] at h
      cases h
    rw [hentry, hgen, if_neg hw, if_neg hw]
    exact ⟨rfl, Or.inl rfl⟩
  · rcases setEntry_subset r.attachments _ he with hnew | hold
    · exact Or.inr ⟨_, _, hnew⟩
    · exact Or.inl hold

theorem withoutInterface_step {source : NicSource} {nodeId : Int} {expected : Dict Int Expected}
    {removable : List Int} (r : NodeRuntime) {i : Int} (hi : i ∈ removable)
    (hnone : expected.get? i = none) :
    ReconcileStep source nodeId expected removable r (r.withoutInterface i) := by
  refine ⟨rfl, rfl, rfl, fun j want hj => ?_, fun j _ => ⟨rfl, ?_⟩,
    fun hd => hd.sublist (List.filter_sublist.map _), fun e he => Or.inl (List.mem_filter.mp he).1⟩
  · have hij : i ≠ j := by
      rintro rfl
      rw [hnone] at hj
      cases hj
    rw [withoutInterface_attachment?, if_neg hij]
    exact Or.inl ⟨rfl, rfl⟩
  · rw [withoutInterface_attachment?]
    split
    next hij => exact Or.inr ⟨hij ▸ hi, rfl⟩
    next => exact Or.inl rfl

/-- The same of the registry: the record of the node takes such a step, nothing else changes. -/
def ReconcileRel (rel : World → World → Prop) (source : NicSource) (nodeId : Int)
    (expected : Dict Int Expected) (removable : List Int) (s t : World) : Prop :=
  rel s t ∧ ∀ r, s.runtimes.get? nodeId = some r →
    ∃ r', t.runtimes = s.runtimes.set nodeId r' ∧
      ReconcileStep source nodeId expected removable r r'

theorem composes_reconcileRel {rel : World → World → Prop} (h : Composes rel) (source : NicSource)
    (nodeId : Int) (expected : Dict Int Expected) (removable : List Int) :
    Composes (ReconcileRel rel source nodeId expected removable) := by
  refine ⟨fun s => ⟨h.refl s, fun r hr => ?_⟩, fun s t u hst htu => ⟨h.trans _ _ _ hst.1 htu.1, ?_⟩⟩
  · exact ⟨r, (Dict.set_get hr).symm, ReconcileStep.refl _ _ _ _ r⟩
  · intro r hr
    obtain ⟨r', ht, hstep⟩ := hst.2 r hr
    obtain ⟨r'', hu, hstep'⟩ := htu.2 r' (by rw [ht, Dict.get?_set_self])
    refine ⟨r'', ?_, hstep.trans hstep'⟩
    rw [hu, ht, Dict.set_set]

/-- A step that leaves the registry alone. -/
theorem reconcileRel_of_same {rel : World → World → Prop} {source : NicSource} {nodeId : Int}
    {expected : Dict Int Expected} {removable : List Int} {s t : World} (hrel : rel s t)
    (hsame : t.runtimes = s.runtimes) : ReconcileRel rel source nodeId expected removable s t := by
  refine ⟨hrel, fun r hr => ⟨r, ?_, ReconcileStep.refl _ _ _ _ r⟩⟩
  rw [hsame, Dict.set_get hr]

theorem reconcileRel_edit {ok : HostCall → Prop} {rel : World → World → Prop} (h : Workings ok rel)
    {source : NicSource} {nodeId : Int} {expected : Dict Int Expected} {removable : List Int}
    {f : NodeRuntime → NodeRuntime} {s t : World} (hrel : rel s t)
    (hsame : t.runtimes = s.runtimes)
    (hf : ∀ r, ReconcileStep source nodeId expected removable r (f r)) :
    ReconcileRel rel source nodeId expected removable s (t.editRuntime nodeId f) := by
  refine ⟨h.edit hrel _ _, fun r hr => ⟨f r, ?_, hf r⟩⟩
  unfold World.editRuntime
  dsimp only
  rw [hsame, Dict.modify_of_get? hr]

/-- The commands of a reconcile are of the kind. -/
structure ReconcileOk (ok : HostCall → Prop) (bridgeName : String → Int → String) (lab : Lab)
    (nodeId : Int) : Prop where
  carrier : ∀ i, ok (.setLink nodeId i false)
  nomaster : ∀ port, ok (.linkNomaster port)
  wanted : ∀ ethernet i want, (expectedAttachments bridgeName lab nodeId ethernet).get? i = some want →
    TapOk ok nodeId i want.bridgeName

/-- A reconcile, whatever the host and QEMU answer, and wherever it stops. -/
theorem reconcileLocked_frames {ok : HostCall → Prop} {rel : World → World → Prop}
    (h : Workings ok rel) (source : NicSource) (bridgeName : String → Int → String) (lab : Lab)
    (nodeId : Int) (w : World)
    (hok : ReconcileOk ok bridgeName lab nodeId) :
    let after := fun t => rel w t ∧
      (t.runtimes = w.runtimes ∨
        (∃ r, w.runtimes.get? nodeId = some r ∧ r.alive = false ∧
          t.runtimes = w.runtimes.pop nodeId) ∨
        ∃ r r', w.runtimes.get? nodeId = some r ∧ r.alive = true ∧ r.kind = .qemu ∧
          t.runtimes = w.runtimes.set nodeId r' ∧
          ReconcileStep source nodeId (expectedAttachments bridgeName lab nodeId r.bootEthernet)
            (removedIndices (expectedAttachments bridgeName lab nodeId r.bootEthernet) r) r r')
    Ends (reconcileLocked source bridgeName lab nodeId) w (fun _ t => after t)
      (fun _ t => after t) := by
  intro after
  have hsame := h.toCommands.sameRuntimes
  unfold reconcileLocked
  rw [ends_bind, ends_runtimeRecord]
  cases hget : w.runtimes.get? nodeId with
  | none => exact ⟨h.composes.refl w, Or.inl rfl⟩
  | some r =>
    dsimp only
    cases halive : r.alive with
    | false => exact ⟨h.record w _, Or.inr (Or.inl ⟨r, hget, halive, rfl⟩)⟩
    | true =>
      simp only [Bool.or_true, if_true]
      split
      next hkind =>
        let expected := expectedAttachments bridgeName lab nodeId r.bootEthernet
        let removable := removedIndices expected r
        have hcomp := composes_reconcileRel h.composes source nodeId expected removable
        have hpin : ∀ i port, Frames (ReconcileRel rel source nodeId expected removable)
            (pinDown r.qmpSocket nodeId i port) := by
          intro i port s
          exact (frames_pinDown hsame r.qmpSocket (hok.carrier i) (hok.nomaster port) s).mono
            (fun _ t ht => reconcileRel_of_same ht.1 ht.2)
            (fun _ t ht => reconcileRel_of_same ht.1 ht.2)
        have happly : ∀ wanted ∈ expected.entries,
            Frames (ReconcileRel rel source nodeId expected removable)
              (applyExpected source r.qmpSocket nodeId wanted) := by
          intro wanted hm s
          have hwant : expected.get? wanted.1 = some wanted.2 := assocGet_of_mem expected.keysNodup hm
          unfold applyExpected
          rw [ends_bind]
          refine (frames_applyExpectedHost hsame (hok.wanted _ _ _ hwant) r.qmpSocket s).mono (fun done t ht => ?_)
            (fun _ t ht => reconcileRel_of_same ht.1 ht.2)
          split
          next => exact reconcileRel_edit h ht.1 ht.2 (fun r' => withExpected_step removable r' hwant)
          next => exact reconcileRel_of_same ht.1 ht.2
        have htear : ∀ entry ∈ toRemove expected r,
            Frames (ReconcileRel rel source nodeId expected removable)
              (tearDown r.qmpSocket nodeId entry) := by
          intro entry hm s
          have hin : entry.interfaceIndex ∈ removable := List.mem_map_of_mem hm
          have hnone := (mem_removedIndices.mp hin).1
          unfold tearDown
          rw [ends_bind]
          refine (frames_pinDown hsame r.qmpSocket (hok.carrier _) (hok.nomaster _) s).mono
            (fun _ t ht => ?_) (fun _ t ht => reconcileRel_of_same ht.1 ht.2)
          exact reconcileRel_edit h ht.1 ht.2 (fun r' => withoutInterface_step r' hin hnone)
        have hall : Frames (ReconcileRel rel source nodeId expected removable) (do
            expected.entries.forM (applyExpected source r.qmpSocket nodeId)
            let w ← get
            let applied := (w.runtimes.get? nodeId).getD r
            (unlinkedIndices expected applied).forM
              (fun i => pinDown r.qmpSocket nodeId i (.tap nodeId i))
            (toRemove expected r).forM (tearDown r.qmpSocket nodeId)) :=
          Frames.bind hcomp (Frames.forM hcomp happly) (fun _ =>
            Frames.bind hcomp (Frames.get hcomp) (fun _ =>
              Frames.bind hcomp (Frames.forM hcomp (fun i _ => hpin i _)) (fun _ =>
                Frames.forM hcomp htear)))
        have hafter : ∀ t, ReconcileRel rel source nodeId expected removable w t → after t := by
          intro t ht
          obtain ⟨r', hset, hstep⟩ := ht.2 r hget
          exact ⟨ht.1, Or.inr (Or.inr ⟨r, r', hget, halive, hkind, hset, hstep⟩)⟩
        exact (hall w).mono (fun _ t ht => hafter t ht) (fun _ t ht => hafter t ht)
      next => exact ⟨h.composes.refl w, Or.inl rfl⟩

end NovaVe
