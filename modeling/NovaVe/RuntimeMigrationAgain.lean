import NovaVe.LabJsonIdentity
import NovaVe.RuntimeMigrationRuns

namespace NovaVe

variable {py : PyValues} {hash : String → Fin 65536}

theorem mapM_some_mem {α β : Type} {f : α → Option β} {xs : List α} {ys : List β}
    (h : xs.mapM f = some ys) : ∀ x ∈ xs, ∃ y ∈ ys, f x = some y := by
  induction xs generalizing ys with
  | nil =>
    intro x hx
    exact absurd hx List.not_mem_nil
  | cons first rest ih =>
    rw [List.mapM_cons] at h
    obtain ⟨y, hy, h⟩ := Option.bind_eq_some_iff.mp h
    obtain ⟨more, hmore, h⟩ := Option.bind_eq_some_iff.mp h
    cases h
    intro x hx
    rcases List.mem_cons.mp hx with rfl | hx
    · exact ⟨y, List.mem_cons_self, hy⟩
    · obtain ⟨z, hz, hf⟩ := ih hmore x hx
      exact ⟨z, List.mem_cons_of_mem _ hz, hf⟩

theorem mapM_some_source {α β : Type} {f : α → Option β} {xs : List α} {ys : List β}
    (h : xs.mapM f = some ys) : ∀ y ∈ ys, ∃ x ∈ xs, f x = some y := by
  induction xs generalizing ys with
  | nil =>
    cases h
    intro y hy
    exact absurd hy List.not_mem_nil
  | cons first rest ih =>
    rw [List.mapM_cons] at h
    obtain ⟨z, hz, h⟩ := Option.bind_eq_some_iff.mp h
    obtain ⟨more, hmore, h⟩ := Option.bind_eq_some_iff.mp h
    cases h
    intro y hy
    rcases List.mem_cons.mp hy with rfl | hy
    · exact ⟨first, List.mem_cons_self, hz⟩
    · obtain ⟨x, hx, hf⟩ := ih hmore y hy
      exact ⟨x, List.mem_cons_of_mem _ hx, hf⟩

theorem mapM_some_of {α β : Type} {f : α → Option β} {p : β → Prop} {xs : List α}
    (h : ∀ x ∈ xs, ∃ y, f x = some y ∧ p y) : ∃ ys, xs.mapM f = some ys ∧ ∀ y ∈ ys, p y := by
  induction xs with
  | nil => exact ⟨[], rfl, by simp⟩
  | cons first rest ih =>
    obtain ⟨⟨y, hy, hp⟩, hrest⟩ := List.forall_mem_cons.mp h
    obtain ⟨ys, hys, hall⟩ := ih hrest
    refine ⟨y :: ys, ?_, List.forall_mem_cons.mpr ⟨hp, hall⟩⟩
    rw [List.mapM_cons, hy, hys]
    rfl

/-- A network record that has its bridge name, under whatever key it stands. -/
structure StampedNetwork (py : PyValues) (value : JsonValue) : Prop where
  record : ∃ fields runtime bridge, value = .obj fields ∧
    (∀ key, (fieldOr fields "id" (.str key)).cast py ≠ .overflow) ∧
      assocGet fields "runtime" = some (.obj runtime) ∧
        assocGet runtime "bridge_name" = some (.str bridge) ∧ bridge ≠ ""

theorem StampedNetwork.scan {value : JsonValue} (h : StampedNetwork py value) (key : String) :
    ∃ scan, scanNetwork py (key, value) = some scan ∧ scan.pending? = none := by
  obtain ⟨fields, runtime, bridge, rfl, hid, hruntime, hbridge, hne⟩ := h.record
  have hfull : runtime ≠ [] := by
    intro hnil
    rw [hnil] at hbridge
    cases hbridge
  have hread : fieldOrElse py fields "runtime" (.obj []) = .obj runtime := by
    unfold fieldOrElse fieldOr JsonValue.orElse JsonValue.truthy
    rw [hruntime]
    simp [hfull]
  have htruthy : (fieldOr runtime "bridge_name" .null).truthy py = true := by
    unfold fieldOr
    rw [hbridge]
    simp [JsonValue.truthy, hne]
  unfold scanNetwork
  dsimp only
  cases hcast : (fieldOr fields "id" (.str key)).cast py with
  | refused => exact ⟨.skipped, rfl, rfl⟩
  | overflow => exact absurd hcast (hid key)
  | value netId =>
    dsimp only
    rw [hread]
    dsimp only
    rw [if_pos htruthy]
    exact ⟨.settled, rfl, rfl⟩

theorem migrationBridge_ne_empty {labId : String} {netId : Int} {bridge : String}
    (h : migrationBridge hash labId netId = some bridge) : bridge ≠ "" := by
  unfold migrationBridge asserted at h
  split at h
  next =>
    cases h
    intro hempty
    have hlist := congrArg String.toList hempty
    rw [String.toList_ofList] at hlist
    cases hlist
  next => cases h

theorem cast_str_ne_overflow (py : PyValues) (text : String) :
    (JsonValue.str text).cast py ≠ .overflow := by
  unfold JsonValue.cast
  dsimp only
  split
  · simp
  · simp

/-- What a pending network was read from. -/
theorem scanNetwork_pending {entry : String × JsonValue} {network : PendingNetwork}
    (h : scanNetwork py entry = some (.pending network)) :
    network.key = entry.1 ∧ entry.2 = .obj network.fields ∧
      ∀ key, (fieldOr network.fields "id" (.str key)).cast py ≠ .overflow := by
  obtain ⟨key, value⟩ := entry
  unfold scanNetwork at h
  split at h
  next fields hvalue =>
    split at h
    next => cases h
    next => cases h
    next netId hcast =>
      split at h
      next =>
        split at h
        next => cases h
        next =>
          cases h
          refine ⟨rfl, hvalue, ?_⟩
          intro other
          unfold fieldOr at hcast ⊢
          cases hid : assocGet fields "id" with
          | none => exact cast_str_ne_overflow py other
          | some value =>
            rw [hid] at hcast
            rw [Option.getD_some] at hcast ⊢
            rw [hcast]
            simp
      next => cases h
  next => cases h

theorem stampNetwork_stamped {bridge : String} {network : PendingNetwork} {stamped : Fields}
    (hstamp : stampNetwork bridge network.fields = some stamped) (hbridge : bridge ≠ "")
    (hid : ∀ key, (fieldOr network.fields "id" (.str key)).cast py ≠ .overflow) :
    StampedNetwork py (.obj stamped) := by
  have hkeep : ∀ runtime key, fieldOr (assocSet network.fields "runtime" (.obj runtime)) "id"
      (.str key) = fieldOr network.fields "id" (.str key) := by
    intro runtime key
    unfold fieldOr
    rw [assocGet_set, if_neg (by decide)]
  unfold stampNetwork at hstamp
  split at hstamp
  next =>
    cases hstamp
    refine ⟨_, [("bridge_name", .str bridge)], bridge, rfl, ?_, ?_, rfl, hbridge⟩
    · intro key
      rw [hkeep]
      exact hid key
    · rw [assocGet_set, if_pos rfl]
  next runtime _ =>
    cases hstamp
    refine ⟨_, assocSet runtime "bridge_name" (.str bridge), bridge, rfl, ?_, ?_, ?_, hbridge⟩
    · intro key
      rw [hkeep]
      exact hid key
    · rw [assocGet_set, if_pos rfl]
    · rw [assocGet_set, if_pos rfl]
  next => cases hstamp

/-- Every network is stamped, or one of the original ones whose key was not reached. -/
def Settling (py : PyValues) (original : Fields) (done : List String) (s : Fields × List String) :
    Prop :=
  ∀ entry ∈ s.1, StampedNetwork py entry.2 ∨
    (entry ∈ original ∧ entry.1 ∉ done ∧ entry.1 ∉ s.2)

theorem mem_mapField {key : String} {f : JsonValue → JsonValue} {fields : Fields}
    {entry : String × JsonValue} (h : entry ∈ mapField key f fields) :
    (entry.1 = key ∧ ∃ value, entry.2 = f value) ∨ (entry ∈ fields ∧ entry.1 ≠ key) := by
  obtain ⟨old, hold, rfl⟩ := List.mem_map.mp h
  by_cases hkey : old.1 = key
  · rw [if_pos hkey]
    exact Or.inl ⟨hkey, old.2, rfl⟩
  · rw [if_neg hkey]
    exact Or.inr ⟨hold, hkey⟩

theorem mem_putNetwork {key : String} {value : JsonValue} {networks : Fields}
    {entry : String × JsonValue} (h : entry ∈ putNetwork key value networks) :
    (entry.1 = key ∧ entry.2 = value) ∨ (entry ∈ networks ∧ entry.1 ≠ key) := by
  unfold putNetwork at h
  split at h
  next =>
    rcases mem_mapField h with ⟨hkey, _, hvalue⟩ | hold
    · exact Or.inl ⟨hkey, hvalue⟩
    · exact Or.inr hold
  next hnone =>
    rcases List.mem_append.mp h with hold | hlast
    · refine Or.inr ⟨hold, ?_⟩
      intro hkey
      exact hnone (assocGet_isSome_iff.mpr (List.mem_map.mpr ⟨entry, hold, hkey⟩))
    · rw [List.mem_singleton.mp hlast]
      exact Or.inl ⟨rfl, rfl⟩

theorem Settling.step {labId : String} {original : Fields} {done : List String}
    {s t : Fields × List String} {network : PendingNetwork} (h : Settling py original done s)
    (hid : ∀ key, (fieldOr network.fields "id" (.str key)).cast py ≠ .overflow)
    (hstep : stampStep hash labId s network = some t) :
    Settling py original (network.key :: done) t := by
  unfold stampStep at hstep
  split at hstep
  next => cases hstep
  next bridge hbridge =>
    split at hstep
    next => cases hstep
    next stamped hstamp =>
      cases hstep
      have hstamped := stampNetwork_stamped hstamp (migrationBridge_ne_empty hbridge) hid
      intro entry hentry
      rcases mem_putNetwork hentry with ⟨_, hvalue⟩ | ⟨hmem, hne⟩
      · rw [hvalue]
        exact Or.inl hstamped
      · -- the entry was there before, in its place or stamped there
        dsimp only at hmem ⊢
        split at hmem
        next htaken =>
          have htaken := List.contains_iff_mem.mp htaken
          rcases h entry hmem with hold | ⟨horiginal, hdone, hfree⟩
          · exact Or.inl hold
          · refine Or.inr ⟨horiginal, ?_, ?_⟩
            · intro hin
              rcases List.mem_cons.mp hin with heq | hin
              · exact hfree (heq ▸ htaken)
              · exact hdone hin
            · intro hin
              rcases List.mem_cons.mp hin with heq | hin
              · exact hne heq
              · exact hfree hin
        next =>
          rcases mem_mapField hmem with ⟨_, _, hvalue⟩ | ⟨hold, hkey⟩
          · rw [hvalue]
            exact Or.inl hstamped
          · rcases h entry hold with hstamped' | ⟨horiginal, hdone, hfree⟩
            · exact Or.inl hstamped'
            · refine Or.inr ⟨horiginal, ?_, ?_⟩
              · intro hin
                rcases List.mem_cons.mp hin with heq | hin
                · exact hkey heq
                · exact hdone hin
              · intro hin
                rcases List.mem_cons.mp hin with heq | hin
                · exact hne heq
                · exact hfree hin

theorem Settling.run {labId : String} {original : Fields} {pending : List PendingNetwork}
    {done : List String} {s t : Fields × List String} (h : Settling py original done s)
    (hid : ∀ network ∈ pending, ∀ key,
      (fieldOr network.fields "id" (.str key)).cast py ≠ .overflow)
    (hrun : pending.foldlM (stampStep hash labId) s = some t) :
    ∀ entry ∈ t.1, StampedNetwork py entry.2 ∨
      (entry ∈ original ∧ entry.1 ∉ done ∧ ∀ network ∈ pending, entry.1 ≠ network.key) := by
  induction pending generalizing s done with
  | nil =>
    cases hrun
    intro entry hentry
    rcases h entry hentry with hstamped | ⟨horiginal, hdone, _⟩
    · exact Or.inl hstamped
    · exact Or.inr ⟨horiginal, hdone, by simp⟩
  | cons network rest ih =>
    obtain ⟨hhere, hrest⟩ := List.forall_mem_cons.mp hid
    rw [List.foldlM_cons] at hrun
    obtain ⟨u, hstep, hrun⟩ := Option.bind_eq_some_iff.mp hrun
    have hall := ih (h.step hhere hstep) hrest hrun
    intro entry hentry
    rcases hall entry hentry with hstamped | ⟨horiginal, hdone, hkeys⟩
    · exact Or.inl hstamped
    · obtain ⟨hkey, hdone⟩ := not_or.mp (fun h => hdone (List.mem_cons.mpr h))
      exact Or.inr ⟨horiginal, hdone, List.forall_mem_cons.mpr ⟨hkey, hkeys⟩⟩

/-- After the stamping no network is pending. -/
theorem stampNetworks_settled {labId : String} {networks stamped : Fields}
    {scans : List NetworkScan} (hscans : networks.mapM (scanNetwork py) = some scans)
    (hstamp : stampNetworks hash labId (scans.filterMap NetworkScan.pending?) networks =
      some stamped) :
    ∃ scans', stamped.mapM (scanNetwork py) = some scans' ∧
      scans'.filterMap NetworkScan.pending? = [] := by
  obtain ⟨t, hrun, rfl⟩ := Option.map_eq_some_iff.mp hstamp
  have hread : ∀ network ∈ scans.filterMap NetworkScan.pending?,
      ∀ key, (fieldOr network.fields "id" (.str key)).cast py ≠ .overflow := by
    intro network hmem
    obtain ⟨scan, hscan, hpending⟩ := List.mem_filterMap.mp hmem
    obtain ⟨entry, _, hentry⟩ := mapM_some_source hscans scan hscan
    cases scan with
    | skipped => cases hpending
    | settled => cases hpending
    | pending found =>
      cases hpending
      exact (scanNetwork_pending hentry).2.2
  have hstart : Settling py networks [] (networks, []) := by
    intro entry hentry
    exact Or.inr ⟨hentry, List.not_mem_nil, List.not_mem_nil⟩
  have hall := hstart.run hread hrun
  have hquiet : ∀ entry ∈ t.1, ∃ scan, scanNetwork py entry = some scan ∧ scan.pending? = none := by
    intro entry hentry
    rcases hall entry hentry with hstamped | ⟨horiginal, _, hkeys⟩
    · exact hstamped.scan entry.1
    · obtain ⟨scan, hscan, hfound⟩ := mapM_some_mem hscans entry horiginal
      refine ⟨scan, hfound, ?_⟩
      cases scan with
      | skipped => rfl
      | settled => rfl
      | pending network =>
        have hkey := (scanNetwork_pending hfound).1
        exact absurd hkey.symm (hkeys network (List.mem_filterMap.mpr ⟨_, hscan, rfl⟩))
  obtain ⟨scans', hscans', hnone⟩ := mapM_some_of hquiet
  refine ⟨scans', hscans', ?_⟩
  rw [List.filterMap_eq_nil_iff]
  exact hnone

theorem lacksOverride_stamp (node : JsonValue) : lacksOverride (stampOverride node) = false := by
  unfold stampOverride
  split
  next fields =>
    split
    next =>
      have hset : fieldOr (assocSet fields "machine_override" (.str "pc")) "machine_override" .null =
          .str "pc" := by
        unfold fieldOr
        rw [assocGet_set, if_pos rfl]
        rfl
      unfold lacksOverride
      dsimp only
      rw [hset]
      simp [JsonValue.isNull]
    next hlacks => simpa using hlacks
  next other hother =>
    unfold lacksOverride
    split
    next fields => exact absurd rfl (hother fields)
    next => rfl

/-- A dictionary that is read with `or {}` is read as it is. -/
theorem fieldOrElse_obj {data fields : Fields} {key : String}
    (h : assocGet data key = some (.obj fields)) :
    fieldOrElse py data key (.obj []) = .obj fields := by
  unfold fieldOrElse fieldOr JsonValue.orElse JsonValue.truthy
  rw [h, Option.getD_some]
  cases fields with
  | nil => rfl
  | cons entry rest => rfl

/-- A lab with nothing left to migrate is returned as it is, whatever the host would answer. -/
theorem processLab_noop {Text : Type} {codec : JsonCodec Text} {lab : MigrationLab Text}
    (h : scanLab codec py lab.path lab.text = .notALab ∨
      ∃ s, scanLab codec py lab.path lab.text = .scanned s ∧ s.pending = [] ∧ s.nodesToStamp = 0) :
    (processLab codec py hash lab).Noop lab.text := by
  unfold processLab
  rcases h with hscan | ⟨s, hscan, hpending, hnodes⟩
  · rw [hscan]
    exact ⟨⟨_, rfl⟩, ⟨rfl, rfl⟩, ⟨rfl, rfl, rfl⟩⟩
  · rw [hscan]
    dsimp only
    rw [if_pos (by simp [hpending, hnodes])]
    exact ⟨⟨_, rfl⟩, ⟨rfl, rfl⟩, ⟨rfl, rfl, rfl⟩⟩

/-- The document that is written has nothing left to migrate. -/
theorem scanLab_migrated {Text : Type} {codec : JsonCodec Text} {path : String} {text : Text}
    {s : LabScan} {stamped : Fields} (hscan : scanLab codec py path text = .scanned s)
    (hstamp : stampNetworks hash s.labId s.pending s.networks = some stamped) :
    ∃ t, scanLab codec py path (codec.dumps (.obj (migratedData s stamped))) = .scanned t ∧
      t.pending = [] ∧ t.nodesToStamp = 0 := by
  have hread : ¬ (!(fieldOr s.data "schema" .null).equalsInt py 2) = true ∧
      s.networks.mapM (scanNetwork py) = some s.scans := by
    unfold scanLab at hscan
    split at hscan
    next => cases hscan
    next data _ =>
      split at hscan
      next => cases hscan
      next hschema =>
        split at hscan
        next networks nodes _ _ =>
          split at hscan
          next => cases hscan
          next scans hscans =>
            cases hscan
            exact ⟨hschema, hscans⟩
        next => cases hscan
    next => cases hscan
  obtain ⟨hschema, hscans⟩ := hread
  obtain ⟨scans', hscans', hnone⟩ := stampNetworks_settled hscans hstamp
  have hkept : fieldOr (migratedData s stamped) "schema" .null = fieldOr s.data "schema" .null := by
    unfold fieldOr migratedData
    rw [assocGet_pop, if_neg (by decide), assocGet_set, if_neg (by decide), assocGet_set,
      if_neg (by decide)]
  have hnetworks : assocGet (migratedData s stamped) "networks" = some (.obj stamped) := by
    unfold migratedData
    rw [assocGet_pop, if_neg (by decide), assocGet_set, if_neg (by decide), assocGet_set, if_pos rfl]
  have hnodes : assocGet (migratedData s stamped) "nodes" =
      some (.obj (s.nodes.map (fun entry => (entry.1, stampOverride entry.2)))) := by
    unfold migratedData
    rw [assocGet_pop, if_neg (by decide), assocGet_set, if_pos rfl]
  unfold scanLab
  rw [codec.reads_back]
  dsimp only
  rw [hkept, if_neg hschema, fieldOrElse_obj hnetworks, fieldOrElse_obj hnodes]
  dsimp only [JsonValue.fields?]
  rw [hscans']
  refine ⟨_, rfl, hnone, ?_⟩
  unfold LabScan.nodesToStamp
  rw [List.countP_eq_zero]
  intro entry hentry
  obtain ⟨old, _, rfl⟩ := List.mem_map.mp hentry
  rw [lacksOverride_stamp]
  decide

/-- A second call on what a first one left, when it did not raise, changes nothing. -/
theorem processLab_again {Text : Type} {codec : JsonCodec Text} {lab : MigrationLab Text}
    {counts : Nat × Nat × Nat} (h : (processLab codec py hash lab).outcome = some counts)
    (answers : LabAnswers) :
    (processLab codec py hash
      { lab with text := (processLab codec py hash lab).text, answers := answers }).Noop
        (processLab codec py hash lab).text := by
  apply processLab_noop
  dsimp only
  by_cases hbackup : ∃ s, TakesBackup codec py lab s
  · obtain ⟨s, hs⟩ := hbackup
    rw [processLab_backup hs] at h ⊢
    rcases forall_or_first (Passes py hash s.labId) (migrationSteps s lab.answers) with
      hpass | ⟨before, step, after, hsplit, hbefore, hstep⟩
    · rcases (@migrateBackedUp_pass _ codec py hash lab s hpass).2.2.2 with
        ⟨_, _, _, networks, hstamp, htext⟩ | ⟨_, _, hnone, _⟩
      · rw [htext]
        exact Or.inr (scanLab_migrated hs.1 hstamp)
      · rw [hnone] at h
        cases h
    · rw [(migrateBackedUp_fail hsplit hbefore hstep).1] at h
      cases h
  · obtain ⟨hidle, hsame, _⟩ := @processLab_idle _ codec py hash lab hbackup
    rw [hsame]
    rcases hidle with hnone | hidle
    · rw [hnone] at h
      cases h
    · exact hidle

/-- The run over a directory is recoverable just when every lab is safe and no backup of a migrated lab
is overwritten with another text. -/
theorem migration_recoverable_iff {Text : Type} (codec : JsonCodec Text) (py : PyValues)
    (hash : String → Fin 65536) (labs : List (MigrationLab Text)) :
    Recoverable codec py hash labs ↔
      (∀ lab ∈ labs, LabSafe codec py hash lab) ∧ BackupSafe codec py hash labs := by
  constructor
  · intro h
    refine ⟨?_, ?_⟩
    · intro lab hlab
      exact (labRolledBack_iff codec py hash lab).mp (h.rolledBack lab hlab)
    · intro lab hlab s hs hmigrates
      have hwritten := (written_iff codec py hash lab).mpr ⟨s, hs, hmigrates⟩
      exact (backupsAfter_eq codec py hash labs lab.name lab.text).mp (h.backedUp lab hlab hwritten)
  · intro h
    obtain ⟨hsafe, hbackups⟩ := h
    refine ⟨?_, ?_, ?_⟩
    · intro lab hlab
      exact (labRolledBack_iff codec py hash lab).mpr (hsafe lab hlab)
    · intro lab hlab hwritten
      obtain ⟨s, hs, hmigrates⟩ := (written_iff codec py hash lab).mp hwritten
      exact (backupsAfter_eq codec py hash labs lab.name lab.text).mpr
        (hbackups lab hlab s hs hmigrates)
    · intro lab _ counts hcounts answers
      exact processLab_again hcounts answers

/-- Documents that are stored as they are. -/
def storedCodec : JsonCodec JsonValue where
  loads := some
  dumps := id
  reads_back _ := rfl

/-- A lab with one network, whose `runtime` is null. -/
def nullRuntimeLab : MigrationLab JsonValue where
  path := "lab.json"
  text := .obj [("schema", .int 2), ("id", .str "lab"),
    ("networks", .obj [("1", .obj [("id", .int 1), ("name", .str "net"), ("runtime", .null)])])]
  answers :=
    { backupOk := true
      network := fun _ =>
        { inspect := some { returncode := 0, stderr := "", stdout := some (.obj [("Name", .str "net")]) }
          removeOk := true, owned := true }
      writeOk := true }

/-- The docker network of the lab is removed, its record cannot be stamped, and nothing is recreated. -/
theorem null_runtime_not_recoverable :
    ¬ Recoverable storedCodec plainPy (fun _ => ⟨2, by decide⟩) [nullRuntimeLab] := by
  intro h
  have hrun : processLab storedCodec plainPy (fun _ => ⟨2, by decide⟩) nullRuntimeLab =
      { outcome := none, text := nullRuntimeLab.text, backup := some nullRuntimeLab.text
        removed := [("nova-ve-lab-net", [("Name", .str "net")])] } := rfl
  have hback := h.rolledBack nullRuntimeLab List.mem_cons_self
  rw [hrun] at hback
  have hnet := (hback rfl (by simp)).2 ("nova-ve-lab-net", [("Name", .str "net")])
    List.mem_cons_self
  exact absurd hnet List.not_mem_nil

end NovaVe
