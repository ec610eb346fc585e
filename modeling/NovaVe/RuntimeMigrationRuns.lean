import NovaVe.RuntimeMigration

namespace NovaVe

/-- What a step removes and when it raises. -/
theorem migrateRuntimeNetwork_spec (py : PyValues) (hash : String → Fin 65536) (labId : String)
    (step : MigrationStep) :
    ((migrateRuntimeNetwork py hash labId step).2 = false ↔ Passes py hash labId step) ∧
      ∀ net, (migrateRuntimeNetwork py hash labId step).1.removedNet = some net ↔
        Removes py hash labId step net := by
  unfold migrateRuntimeNetwork Passes Removes NetworkJournal.removedNet
  cases hbridge : migrationBridge hash labId step.1.netId with
  | none => simp
  | some bridge =>
    dsimp only
    cases hname : dockerNetName py labId step.1.fields with
    | none => simp
    | some found =>
      cases found with
      | none => simp
      | some name =>
        dsimp only
        cases hinspect : readInspect py step.2.inspect with
        | absent => simp
        | refused => simp
        | entry fields =>
          cases hremove : step.2.removeOk with
          | false => simp
          | true =>
            refine ⟨by simp, ?_⟩
            intro net
            obtain ⟨other, entry⟩ := net
            simp

theorem mem_recreation {journals : List NetworkJournal} {net : String × Fields} :
    net ∈ journals.filterMap NetworkJournal.recreation ↔
      net ∈ journals.filterMap NetworkJournal.removedNet ∧ net.2 ≠ [] := by
  simp only [List.mem_filterMap, NetworkJournal.recreation, Option.filter_eq_some_iff]
  constructor
  · intro h
    obtain ⟨journal, hjournal, hremoved, hne⟩ := h
    exact ⟨⟨journal, hjournal, hremoved⟩, by simpa using hne⟩
  · intro h
    obtain ⟨⟨journal, hjournal, hremoved⟩, hne⟩ := h
    exact ⟨journal, hjournal, hremoved, by simpa using hne⟩

/-- After a step that passes the loop goes on. -/
theorem migrateRuntimeNetworks_cons {py : PyValues} {hash : String → Fin 65536} {labId : String}
    {step : MigrationStep} (hpass : Passes py hash labId step) (rest : List MigrationStep) :
    (migrateRuntimeNetworks py hash labId (step :: rest)).2 =
        (migrateRuntimeNetworks py hash labId rest).2 ∧
      ∀ net, net ∈ (migrateRuntimeNetworks py hash labId
          (step :: rest)).1.filterMap NetworkJournal.removedNet ↔
        Removes py hash labId step net ∨
          net ∈ (migrateRuntimeNetworks py hash labId rest).1.filterMap NetworkJournal.removedNet := by
  obtain ⟨hraises, hremoves⟩ := migrateRuntimeNetwork_spec py hash labId step
  have hno := hraises.mpr hpass
  rw [migrateRuntimeNetworks.eq_2]
  generalize migrateRuntimeNetwork py hash labId step = found at hno hremoves
  generalize migrateRuntimeNetworks py hash labId rest = more
  obtain ⟨journal, raised⟩ := found
  obtain ⟨journals, failed⟩ := more
  dsimp only at hno hremoves ⊢
  rw [hno, if_neg (by decide)]
  refine ⟨rfl, ?_⟩
  intro net
  simp only [List.mem_filterMap, List.mem_cons, exists_eq_or_imp, hremoves]

/-- Without a failure every step is taken. -/
theorem migrateRuntimeNetworks_pass {py : PyValues} {hash : String → Fin 65536} {labId : String}
    {steps : List MigrationStep} (h : ∀ step ∈ steps, Passes py hash labId step) :
    (migrateRuntimeNetworks py hash labId steps).2 = false ∧
      ∀ net, net ∈ (migrateRuntimeNetworks py hash labId steps).1.filterMap NetworkJournal.removedNet ↔
        ∃ step ∈ steps, Removes py hash labId step net := by
  induction steps with
  | nil =>
    refine ⟨rfl, ?_⟩
    intro net
    simp [migrateRuntimeNetworks]
  | cons step rest ih =>
    obtain ⟨hpass, hrest⟩ := List.forall_mem_cons.mp h
    obtain ⟨hfailed, hremoved⟩ := ih hrest
    obtain ⟨hsame, hmore⟩ := migrateRuntimeNetworks_cons hpass rest
    refine ⟨hsame.trans hfailed, ?_⟩
    intro net
    rw [hmore, hremoved]
    simp only [List.mem_cons, exists_eq_or_imp]

/-- At the first step that fails the loop ends. -/
theorem migrateRuntimeNetworks_fail {py : PyValues} {hash : String → Fin 65536} {labId : String}
    {before after : List MigrationStep} {step : MigrationStep}
    (hbefore : ∀ earlier ∈ before, Passes py hash labId earlier)
    (hstep : ¬ Passes py hash labId step) :
    (migrateRuntimeNetworks py hash labId (before ++ step :: after)).2 = true ∧
      ∀ net, net ∈ (migrateRuntimeNetworks py hash labId
          (before ++ step :: after)).1.filterMap NetworkJournal.removedNet ↔
        ∃ reached ∈ before ++ [step], Removes py hash labId reached net := by
  induction before with
  | nil =>
    obtain ⟨hraises, hremoves⟩ := migrateRuntimeNetwork_spec py hash labId step
    have hyes : (migrateRuntimeNetwork py hash labId step).2 = true := by
      by_contra hno
      exact hstep (hraises.mp (by simpa using hno))
    rw [List.nil_append]
    unfold migrateRuntimeNetworks
    generalize migrateRuntimeNetwork py hash labId step = found at hyes hremoves
    obtain ⟨journal, raised⟩ := found
    dsimp only at hyes hremoves ⊢
    rw [hyes, if_pos rfl]
    refine ⟨rfl, ?_⟩
    intro net
    rw [List.mem_filterMap]
    simp only [List.mem_cons, List.not_mem_nil, or_false, exists_eq_left, List.nil_append, hremoves]
  | cons first rest ih =>
    obtain ⟨hpass, hrest⟩ := List.forall_mem_cons.mp hbefore
    obtain ⟨hfailed, hremoved⟩ := ih hrest
    obtain ⟨hsame, hmore⟩ := migrateRuntimeNetworks_cons hpass (rest ++ step :: after)
    rw [List.cons_append]
    refine ⟨hsame.trans hfailed, ?_⟩
    intro net
    rw [hmore, hremoved]
    simp only [List.cons_append, List.mem_cons, exists_eq_or_imp]

/-- Every element has a property, or there is a first one without it. -/
theorem forall_or_first {α : Type} (p : α → Prop) (xs : List α) :
    (∀ x ∈ xs, p x) ∨ ∃ before x after, xs = before ++ x :: after ∧ (∀ y ∈ before, p y) ∧ ¬ p x := by
  induction xs with
  | nil => exact Or.inl (by simp)
  | cons first rest ih =>
    by_cases hfirst : p first
    · rcases ih with hall | ⟨before, x, after, hsplit, hbefore, hx⟩
      · exact Or.inl (List.forall_mem_cons.mpr ⟨hfirst, hall⟩)
      · exact Or.inr ⟨first :: before, x, after, by rw [hsplit]; rfl,
          List.forall_mem_cons.mpr ⟨hfirst, hbefore⟩, hx⟩
    · exact Or.inr ⟨[], first, rest, rfl, by simp, hfirst⟩

theorem stampNetwork_isSome {bridge : String} {network : PendingNetwork} :
    (∃ stamped, stampNetwork bridge network.fields = some stamped) ↔ Stampable network := by
  unfold stampNetwork Stampable
  cases hruntime : assocGet network.fields "runtime" with
  | none => simp
  | some value =>
    cases value with
    | obj runtime => simp
    | null | bool | int | float | str | arr => simp

theorem stampNetworks_isSome {hash : String → Fin 65536} {labId : String}
    {pending : List PendingNetwork} {s : Fields × List String}
    (hbridge : ∀ network ∈ pending, ∃ bridge, migrationBridge hash labId network.netId = some bridge) :
    (∃ t, pending.foldlM (stampStep hash labId) s = some t) ↔
      ∀ network ∈ pending, Stampable network := by
  induction pending generalizing s with
  | nil =>
    constructor
    · intro _ network hmem
      exact absurd hmem List.not_mem_nil
    · intro _
      exact ⟨s, rfl⟩
  | cons network rest ih =>
    obtain ⟨⟨bridge, hhere⟩, hrest⟩ := List.forall_mem_cons.mp hbridge
    rw [List.foldlM_cons, List.forall_mem_cons, ← @stampNetwork_isSome bridge network]
    cases hstamp : stampNetwork bridge network.fields with
    | none =>
      have hstep : stampStep hash labId s network = none := by
        unfold stampStep
        rw [hhere]
        dsimp only
        rw [hstamp]
      rw [hstep]
      simp
    | some stamped =>
      obtain ⟨t, hstep⟩ : ∃ t, stampStep hash labId s network = some t := by
        unfold stampStep
        rw [hhere]
        dsimp only
        rw [hstamp]
        exact ⟨_, rfl⟩
      rw [hstep]
      refine (ih hrest).trans ?_
      simp

theorem exists_step_of_pending {s : LabScan} {answers : LabAnswers} {network : PendingNetwork}
    (h : network ∈ s.pending) : ∃ step ∈ migrationSteps s answers, step.1 = network := by
  obtain ⟨i, hi, hget⟩ := List.mem_iff_getElem.mp h
  refine ⟨(network, answers.network i), ?_, rfl⟩
  unfold migrationSteps
  refine List.mem_map.mpr ⟨(network, i), ?_, rfl⟩
  rw [List.mem_zipIdx_iff_getElem?]
  exact List.getElem?_eq_some_iff.mpr ⟨hi, hget⟩

/-- Where no backup is taken nothing is done: the call raises, or there is nothing to migrate. -/
theorem processLab_idle {Text : Type} {codec : JsonCodec Text} {py : PyValues}
    {hash : String → Fin 65536} {lab : MigrationLab Text} (h : ¬ ∃ s, TakesBackup codec py lab s) :
    ((processLab codec py hash lab).outcome = none ∨ scanLab codec py lab.path lab.text = .notALab ∨
        ∃ s, scanLab codec py lab.path lab.text = .scanned s ∧ s.pending = [] ∧ s.nodesToStamp = 0) ∧
      (processLab codec py hash lab).text = lab.text ∧
        (processLab codec py hash lab).written = false ∧
          (processLab codec py hash lab).backup = none ∧
            (processLab codec py hash lab).removed = [] ∧
              (processLab codec py hash lab).recreated = [] := by
  unfold processLab
  cases hscan : scanLab codec py lab.path lab.text with
  | raised => exact ⟨Or.inl rfl, rfl, rfl, rfl, rfl, rfl⟩
  | notALab => exact ⟨Or.inr (Or.inl rfl), rfl, rfl, rfl, rfl, rfl⟩
  | scanned s =>
    dsimp only
    split
    next hidle =>
      rw [Bool.and_eq_true, List.isEmpty_iff, beq_iff_eq] at hidle
      exact ⟨Or.inr (Or.inr ⟨s, rfl, hidle.1, hidle.2⟩), rfl, rfl, rfl, rfl, rfl⟩
    next hwork =>
      split
      next => exact ⟨Or.inl rfl, rfl, rfl, rfl, rfl, rfl⟩
      next hbackup =>
        refine absurd ⟨s, hscan, ?_, by simpa using hbackup⟩ h
        by_contra hnone
        apply hwork
        simp only [not_or, not_not] at hnone
        simp [hnone.1, hnone.2]

theorem processLab_backup {Text : Type} {codec : JsonCodec Text} {py : PyValues}
    {hash : String → Fin 65536} {lab : MigrationLab Text} {s : LabScan}
    (h : TakesBackup codec py lab s) :
    processLab codec py hash lab = migrateBackedUp codec py hash lab s := by
  obtain ⟨hscan, hwork, hbackup⟩ := h
  have hbusy : ¬ (s.pending.isEmpty && s.nodesToStamp == 0) = true := by
    intro hidle
    rw [Bool.and_eq_true, List.isEmpty_iff, beq_iff_eq] at hidle
    rcases hwork with hpending | hnodes
    · exact hpending hidle.1
    · exact hnodes hidle.2
  unfold processLab
  rw [hscan]
  dsimp only
  rw [if_neg hbusy, if_neg (by simp [hbackup])]

/-- A network fails: the file is as before, and what was captured is recreated. -/
theorem migrateBackedUp_fail {Text : Type} {codec : JsonCodec Text} {py : PyValues}
    {hash : String → Fin 65536} {lab : MigrationLab Text} {s : LabScan}
    {before after : List MigrationStep} {step : MigrationStep}
    (hsplit : migrationSteps s lab.answers = before ++ step :: after)
    (hbefore : ∀ earlier ∈ before, Passes py hash s.labId earlier)
    (hstep : ¬ Passes py hash s.labId step) :
    (migrateBackedUp codec py hash lab s).outcome = none ∧
      (migrateBackedUp codec py hash lab s).text = lab.text ∧
        (migrateBackedUp codec py hash lab s).written = false ∧
          (migrateBackedUp codec py hash lab s).backup = some lab.text ∧
            (∀ net, net ∈ (migrateBackedUp codec py hash lab s).removed ↔
              ∃ reached ∈ before ++ [step], Removes py hash s.labId reached net) ∧
            ∀ net, net ∈ (migrateBackedUp codec py hash lab s).recreated ↔
              net ∈ (migrateBackedUp codec py hash lab s).removed ∧ net.2 ≠ [] := by
  obtain ⟨hfailed, hremoved⟩ := @migrateRuntimeNetworks_fail py hash s.labId before after step hbefore hstep
  rw [← hsplit] at hfailed hremoved
  unfold migrateBackedUp
  dsimp only
  rw [if_pos hfailed]
  exact ⟨rfl, rfl, rfl, rfl, hremoved, fun net => mem_recreation⟩

/-- Every network passes: the file is written, or the lab fails without a rollback. -/
theorem migrateBackedUp_pass {Text : Type} {codec : JsonCodec Text} {py : PyValues}
    {hash : String → Fin 65536} {lab : MigrationLab Text} {s : LabScan}
    (hpass : ∀ step ∈ migrationSteps s lab.answers, Passes py hash s.labId step) :
    (migrateBackedUp codec py hash lab s).backup = some lab.text ∧
      (∀ net, net ∈ (migrateBackedUp codec py hash lab s).removed ↔
        ∃ step ∈ migrationSteps s lab.answers, Removes py hash s.labId step net) ∧
      (migrateBackedUp codec py hash lab s).recreated = [] ∧
      ((Migrates py hash lab s ∧ (migrateBackedUp codec py hash lab s).written = true ∧
          (∃ counts, (migrateBackedUp codec py hash lab s).outcome = some counts) ∧
            ∃ networks, stampNetworks hash s.labId s.pending s.networks = some networks ∧
              (migrateBackedUp codec py hash lab s).text =
                codec.dumps (.obj (migratedData s networks))) ∨
        (¬ Migrates py hash lab s ∧ (migrateBackedUp codec py hash lab s).written = false ∧
          (migrateBackedUp codec py hash lab s).outcome = none ∧
            (migrateBackedUp codec py hash lab s).text = lab.text)) := by
  obtain ⟨hfailed, hremoved⟩ := migrateRuntimeNetworks_pass hpass
  have hbridge : ∀ network ∈ s.pending,
      ∃ bridge, migrationBridge hash s.labId network.netId = some bridge := by
    intro network hmem
    obtain ⟨step, hstep, rfl⟩ := @exists_step_of_pending s lab.answers network hmem
    exact (hpass step hstep).1
  have hstamps := @stampNetworks_isSome hash s.labId s.pending (s.networks, []) hbridge
  unfold migrateBackedUp
  dsimp only
  rw [if_neg (by simp [hfailed])]
  cases hstamp : stampNetworks hash s.labId s.pending s.networks with
  | none =>
    refine ⟨rfl, hremoved, rfl, Or.inr ⟨?_, rfl, rfl, rfl⟩⟩
    intro hmigrates
    obtain ⟨t, hsome⟩ := hstamps.mpr hmigrates.2.1
    unfold stampNetworks at hstamp
    rw [hsome] at hstamp
    cases hstamp
  | some networks =>
    have hall : ∀ network ∈ s.pending, Stampable network := by
      unfold stampNetworks at hstamp
      obtain ⟨t, hsome, _⟩ := Option.map_eq_some_iff.mp hstamp
      exact hstamps.mp ⟨t, hsome⟩
    dsimp only
    cases hwrite : lab.answers.writeOk with
    | false =>
      refine ⟨rfl, hremoved, rfl, Or.inr ⟨?_, rfl, rfl, rfl⟩⟩
      intro hmigrates
      have hyes := hmigrates.2.2
      rw [hwrite] at hyes
      cases hyes
    | true =>
      exact ⟨rfl, hremoved, rfl, Or.inl ⟨⟨hpass, hall, hwrite⟩, rfl, ⟨_, rfl⟩, networks, rfl, rfl⟩⟩

/-- A lab that raises after a removal is rolled back. -/
def LabRolledBack {Text : Type} (codec : JsonCodec Text) (py : PyValues) (hash : String → Fin 65536)
    (lab : MigrationLab Text) : Prop :=
  (processLab codec py hash lab).outcome = none → (processLab codec py hash lab).removed ≠ [] →
    (processLab codec py hash lab).text = lab.text ∧
      ∀ net ∈ (processLab codec py hash lab).removed, net ∈ (processLab codec py hash lab).recreated

theorem labRolledBack_iff {Text : Type} (codec : JsonCodec Text) (py : PyValues)
    (hash : String → Fin 65536) (lab : MigrationLab Text) :
    LabRolledBack codec py hash lab ↔ LabSafe codec py hash lab := by
  unfold LabRolledBack LabSafe
  by_cases hbackup : ∃ s, TakesBackup codec py lab s
  · obtain ⟨s, hs⟩ := hbackup
    have hunique : ∀ t, TakesBackup codec py lab t → t = s := by
      intro t ht
      have hscan := ht.1
      rw [hs.1] at hscan
      cases hscan
      rfl
    rw [processLab_backup hs]
    rcases forall_or_first (Passes py hash s.labId) (migrationSteps s lab.answers) with
      hpass | ⟨before, step, after, hsplit, hbefore, hstep⟩
    · obtain ⟨_, hremoved, hrecreated, hends⟩ := @migrateBackedUp_pass _ codec py hash lab s hpass
      constructor
      · intro h t ht
        obtain rfl := hunique t ht
        refine ⟨?_, ?_⟩
        · intro before step after hsplit _ hstep
          refine absurd (hpass step ?_) hstep
          rw [hsplit]
          exact List.mem_append_right _ List.mem_cons_self
        · intro _
          rcases hends with ⟨hmigrates, _⟩ | ⟨_, _, houtcome, _⟩
          · exact Or.inl hmigrates
          · refine Or.inr ?_
            intro step hstep net hremoves
            have hmem := (hremoved net).mpr ⟨step, hstep, hremoves⟩
            have hback := (h houtcome (List.ne_nil_of_mem hmem)).2 net hmem
            rw [hrecreated] at hback
            exact absurd hback List.not_mem_nil
      · intro h houtcome hne
        obtain ⟨net, hmem⟩ := List.exists_mem_of_ne_nil _ hne
        obtain ⟨step, hstep, hremoves⟩ := (hremoved net).mp hmem
        rcases (h s hs).2 hpass with hmigrates | hnone
        · rcases hends with ⟨_, _, ⟨counts, hsome⟩, _⟩ | ⟨hnot, _⟩
          · rw [houtcome] at hsome
            cases hsome
          · exact absurd hmigrates hnot
        · exact absurd hremoves (hnone step hstep net)
    · obtain ⟨houtcome, htext, _, _, hremoved, hrecreated⟩ :=
        @migrateBackedUp_fail _ codec py hash lab s before after step hsplit hbefore hstep
      constructor
      · intro h t ht
        obtain rfl := hunique t ht
        refine ⟨?_, ?_⟩
        · intro before' step' after' hsplit' hbefore' hstep' reached hreached net hremoves
          obtain ⟨_, _, _, _, hremoved', hrecreated'⟩ :=
            @migrateBackedUp_fail _ codec py hash lab t before' after' step' hsplit' hbefore' hstep'
          have hmem := (hremoved' net).mpr ⟨reached, hreached, hremoves⟩
          exact ((hrecreated' net).mp ((h houtcome (List.ne_nil_of_mem hmem)).2 net hmem)).2
        · intro hpass
          refine absurd (hpass step ?_) hstep
          rw [hsplit]
          exact List.mem_append_right _ List.mem_cons_self
      · intro h _ _
        refine ⟨htext, ?_⟩
        intro net hmem
        obtain ⟨reached, hreached, hremoves⟩ := (hremoved net).mp hmem
        exact (hrecreated net).mpr
          ⟨hmem, (h s hs).1 before step after hsplit hbefore hstep reached hreached net hremoves⟩
  · obtain ⟨_, _, _, _, hremoved, _⟩ := @processLab_idle _ codec py hash lab hbackup
    constructor
    · intro _ s hs
      exact absurd ⟨s, hs⟩ hbackup
    · intro _ _ hne
      exact absurd hremoved hne

/-- A lab takes a backup of its own text, or none. -/
theorem backup_eq {Text : Type} (codec : JsonCodec Text) (py : PyValues)
    (hash : String → Fin 65536) (lab : MigrationLab Text) (text : Text) :
    (processLab codec py hash lab).backup = some text ↔
      (∃ s, TakesBackup codec py lab s) ∧ lab.text = text := by
  by_cases hbackup : ∃ s, TakesBackup codec py lab s
  · obtain ⟨s, hs⟩ := hbackup
    have hown : (processLab codec py hash lab).backup = some lab.text := by
      rw [processLab_backup hs]
      rcases forall_or_first (Passes py hash s.labId) (migrationSteps s lab.answers) with
        hpass | ⟨before, step, after, hsplit, hbefore, hstep⟩
      · exact (migrateBackedUp_pass hpass).1
      · exact (migrateBackedUp_fail hsplit hbefore hstep).2.2.2.1
    rw [hown, Option.some.injEq]
    exact ⟨fun h => ⟨⟨s, hs⟩, h⟩, fun h => h.2⟩
  · rw [(processLab_idle hbackup).2.2.2.1]
    constructor
    · intro h
      cases h
    · intro h
      exact absurd h.1 hbackup

theorem written_iff {Text : Type} (codec : JsonCodec Text) (py : PyValues)
    (hash : String → Fin 65536) (lab : MigrationLab Text) :
    (processLab codec py hash lab).written = true ↔
      ∃ s, TakesBackup codec py lab s ∧ Migrates py hash lab s := by
  constructor
  · intro h
    by_cases hbackup : ∃ s, TakesBackup codec py lab s
    · obtain ⟨s, hs⟩ := hbackup
      rw [processLab_backup hs] at h
      rcases forall_or_first (Passes py hash s.labId) (migrationSteps s lab.answers) with
        hpass | ⟨before, step, after, hsplit, hbefore, hstep⟩
      · rcases (@migrateBackedUp_pass _ codec py hash lab s hpass).2.2.2 with
          ⟨hmigrates, _⟩ | ⟨_, hwritten, _⟩
        · exact ⟨s, hs, hmigrates⟩
        · rw [hwritten] at h
          cases h
      · rw [(migrateBackedUp_fail hsplit hbefore hstep).2.2.1] at h
        cases h
    · rw [(processLab_idle hbackup).2.2.1] at h
      cases h
  · intro h
    obtain ⟨s, hs, hmigrates⟩ := h
    rw [processLab_backup hs]
    rcases (@migrateBackedUp_pass _ codec py hash lab s hmigrates.1).2.2.2 with
      ⟨_, hwritten, _⟩ | ⟨hnot, _⟩
    · exact hwritten
    · exact absurd hmigrates hnot

/-- The last of the elements a function keeps, as one of the whole list. -/
theorem lastWith_filterMap {α β : Type} {f : α → Option β} {p : β → Prop} {y : β} {xs : List α} :
    LastWith p y (xs.filterMap f) ↔
      ∃ x, LastWith (fun x => ∃ y, f x = some y ∧ p y) x xs ∧ f x = some y := by
  induction xs using List.reverseRecOn with
  | nil =>
    constructor
    · intro h
      exact absurd h not_lastWith_nil
    · intro h
      obtain ⟨x, hx, _⟩ := h
      exact absurd hx not_lastWith_nil
  | append_singleton rest x ih =>
    rw [List.filterMap_append]
    simp only [lastWith_append_singleton]
    cases hx : f x with
    | none =>
      have hnone : [x].filterMap f = [] := by simp [hx]
      rw [hnone, List.append_nil, ih]
      constructor
      · intro h
        obtain ⟨z, hz, hy⟩ := h
        exact ⟨z, Or.inr ⟨by simp, hz⟩, hy⟩
      · intro h
        obtain ⟨z, hz, hy⟩ := h
        rcases hz with ⟨⟨w, hw, _⟩, _⟩ | ⟨_, hz⟩
        · cases hw
        · exact ⟨z, hz, hy⟩
    | some w =>
      have hone : [x].filterMap f = [w] := by simp [hx]
      rw [hone, lastWith_append_singleton, ih]
      constructor
      · intro h
        rcases h with ⟨hp, rfl⟩ | ⟨hp, z, hz, hy⟩
        · exact ⟨x, Or.inl ⟨⟨y, rfl, hp⟩, rfl⟩, hx⟩
        · refine ⟨z, Or.inr ⟨?_, hz⟩, hy⟩
          intro hsome
          obtain ⟨v, hv, hpv⟩ := hsome
          cases hv
          exact hp hpv
      · intro h
        obtain ⟨z, hz, hy⟩ := h
        rcases hz with ⟨⟨v, hv, hpv⟩, rfl⟩ | ⟨hnot, hz⟩
        · cases hv
          rw [hx] at hy
          cases hy
          exact Or.inl ⟨hpv, rfl⟩
        · exact Or.inr ⟨fun hp => hnot ⟨w, rfl, hp⟩, z, hz, hy⟩

/-- The backup under a name is the text of the last lab of that name that took one. -/
theorem backupsAfter_eq {Text : Type} (codec : JsonCodec Text) (py : PyValues)
    (hash : String → Fin 65536) (labs : List (MigrationLab Text)) (name : String) (text : Text) :
    backupsAfter codec py hash labs name = some text ↔
      ∃ last, LastWith (fun other => (∃ t, TakesBackup codec py other t) ∧ other.name = name)
        last labs ∧ last.text = text := by
  have hsame : (fun (other : MigrationLab Text) => ∃ w : String × Text,
      (processLab codec py hash other).backup.map (fun text => (other.name, text)) = some w ∧
        w.1 = name) =
      (fun other => (∃ t, TakesBackup codec py other t) ∧ other.name = name) := by
    funext other
    apply propext
    constructor
    · intro h
      obtain ⟨w, hw, hname⟩ := h
      obtain ⟨text, htext, rfl⟩ := Option.map_eq_some_iff.mp hw
      exact ⟨((backup_eq codec py hash other text).mp htext).1, hname⟩
    · intro h
      obtain ⟨htakes, hname⟩ := h
      refine ⟨(other.name, other.text), ?_, hname⟩
      rw [(backup_eq codec py hash other other.text).mpr ⟨htakes, rfl⟩]
      rfl
  unfold backupsAfter
  rw [writeAll_eq_some, lastWith_filterMap, hsame]
  constructor
  · intro h
    obtain ⟨last, hlast, hwrite⟩ := h
    obtain ⟨text', htext, hpair⟩ := Option.map_eq_some_iff.mp hwrite
    cases hpair
    exact ⟨last, hlast, ((backup_eq codec py hash last text).mp htext).2⟩
  · intro h
    obtain ⟨last, hlast, rfl⟩ := h
    obtain ⟨htakes, rfl⟩ := hlast.mem.2
    refine ⟨last, hlast, ?_⟩
    rw [(backup_eq codec py hash last last.text).mpr ⟨htakes, rfl⟩]
    rfl

end NovaVe
