import NovaVe.ImportRuns

namespace NovaVe

variable {β : Type} {host : ImportHost β}

/-- The names of a folder are in one order. -/
theorem sortedNames_congr {names others : List String} (hnames : (sortedNames names).Nodup)
    (hothers : (sortedNames others).Nodup)
    (h : ∀ name, name ∈ sortedNames names ↔ name ∈ sortedNames others) :
    sortedNames names = sortedNames others := by
  have hperm : (sortedNames names).Perm (sortedNames others) :=
    (List.perm_ext_iff_of_nodup hnames hothers).mpr h
  have htotal : Std.Total (fun a b : String => a.toList ≤ b.toList) := ⟨fun a b => le_total _ _⟩
  have htrans : IsTrans String (fun a b => a.toList ≤ b.toList) := ⟨fun _ _ _ => le_trans⟩
  refine hperm.eq_of_pairwise ?_ (List.pairwise_insertionSort _ names)
    (List.pairwise_insertionSort _ others)
  intro a b _ _ hab hba
  exact String.toList_inj.mp (le_antisymm hab hba)

theorem mem_folderNames {keys : List (List String)} {folder : List String} {name : String} :
    name ∈ folderNames keys folder ↔ ∃ place ∈ keys, folder <+: place.dropLast ∧
      (place.dropLast.drop folder.length).head? = some name := by
  unfold folderNames
  rw [(sortedNames_perm _).mem_iff, List.mem_dedup, List.mem_filterMap]
  refine exists_congr fun place => and_congr_right fun _ => ?_
  split
  next h => simp [h]
  next h => simp [h]

theorem resolve_dropLast (tree : ImageTree β) (place : List String) :
    (tree.resolve place).dropLast = place.dropLast := by
  by_cases hlink : tree.resolve place = place
  · rw [hlink]
  · obtain ⟨folder, name, rfl, hname⟩ := handle_of_resolve_ne hlink
    unfold ImageTree.resolve
    rw [List.getLast?_concat, if_pos rfl, List.dropLast_concat, hname]
    exact List.dropLast_concat

theorem resolve_congr {tree other : ImageTree β} {place : List String}
    (h : tree.handles.get? place.dropLast = other.handles.get? place.dropLast) :
    tree.resolve place = other.resolve place := by
  unfold ImageTree.resolve
  rw [h]

/-- The walk sees the files below its source only. -/
theorem walkAll_congr {tree other : ImageTree β} {source : List String} (dest : List String)
    (h : ∀ place, source <+: place →
      (place ∈ tree.listed ↔ place ∈ other.listed)) :
    walkAll tree source dest = walkAll other source dest := by
  have hfiles : ∀ tail, fileNames tree.listed (source ++ tail) =
      fileNames other.listed (source ++ tail) := by
    intro tail
    refine sortedNames_congr (fileNames_nodup (listed_nodup tree) _)
      (fileNames_nodup (listed_nodup other) _) fun name => ?_
    have hthere := h (source ++ tail ++ [name]) (by rw [List.append_assoc]; simp)
    exact mem_fileNames.trans (hthere.trans mem_fileNames.symm)
  have hfolders : ∀ tail, folderNames tree.listed (source ++ tail) =
      folderNames other.listed (source ++ tail) := by
    intro tail
    refine sortedNames_congr (folderNames_nodup _ _) (folderNames_nodup _ _) fun name => ?_
    refine mem_folderNames.trans (Iff.trans ?_ mem_folderNames.symm)
    refine exists_congr fun place => ?_
    have hunder : source ++ tail <+: place.dropLast → source <+: place := fun hfolder =>
      (List.prefix_append source tail).trans (hfolder.trans (List.dropLast_prefix place))
    constructor
    · rintro ⟨hplace, hfolder, hhead⟩
      exact ⟨(h place (hunder hfolder)).mp hplace, hfolder, hhead⟩
    · rintro ⟨hplace, hfolder, hhead⟩
      exact ⟨(h place (hunder hfolder)).mpr hplace, hfolder, hhead⟩
  unfold walkAll walkQemu walkDynamips walkIol walkDocker
  simp only [List.append_assoc, hfiles, hfolders]

/-- An item of which nothing is left to do. -/
structure SettledItem {β : Type} (host : ImportHost β) (tree : ImageTree β) (item : MigrationItem) :
    Prop where
  files : ∀ pair ∈ item.files, ∃ bytes, tree.read pair.1 = some bytes ∧
    tree.read pair.2 = some bytes
  placed : Placed host tree item

/-- What was imported and what was skipped, by its places. -/
structure Repeats (items : List MigrationItem) (before after : ImportManifest) : Prop where
  imported : ∀ entry ∈ after.imported, entry ∈ before.imported ∨ ∃ item ∈ items, ∃ tag,
    item.kind = .docker tag ∧ entry.dst = placeText (item.dstDir ++ ["image.txt"])
  grows : before.skipped <+: after.skipped
  skipped : ∀ item ∈ items, ∀ pair ∈ item.files, ∃ entry ∈ after.skipped,
    entry.src = placeText pair.1 ∧ entry.dst = placeText pair.2

theorem copyFiles_settled (host : ImportHost β) (options : MigrateOptions)
    {files : List (List String × List String)} {tree : ImageTree β}
    (h : ∀ pair ∈ files, ∃ bytes, tree.read pair.1 = some bytes ∧ tree.read pair.2 = some bytes) :
    ∃ outcomes, copyFiles host options files tree = (.ok outcomes, tree) ∧
      (∀ outcome ∈ outcomes, outcome.status = .skipped) ∧
      outcomes.map (fun outcome => (outcome.src, outcome.dst)) =
        files.map (fun pair => (placeText pair.1, placeText pair.2)) := by
  induction files with
  | nil => exact ⟨[], rfl, fun _ h => absurd h List.not_mem_nil, rfl⟩
  | cons first rest ih =>
    obtain ⟨src, dst⟩ := first
    obtain ⟨bytes, hs, hd⟩ := h (src, dst) List.mem_cons_self
    obtain ⟨outcomes, hrest, hstatus, hends⟩ :=
      ih fun pair hpair => h pair (List.mem_cons_of_mem _ hpair)
    have hcopy : performCopy host options src dst tree =
        (.ok (skippedOutcome host options.mode src dst bytes), tree) := by
      unfold performCopy
      rw [hs, hd]
      exact if_pos rfl
    refine ⟨skippedOutcome host options.mode src dst bytes :: outcomes, ?_, ?_, ?_⟩
    · rw [copyFiles, hcopy]
      dsimp only
      rw [hrest]
    · exact List.forall_mem_cons.mpr ⟨rfl, hstatus⟩
    · rw [List.map_cons, List.map_cons, hends]
      rfl

theorem migrateFiles_settled (options : MigrateOptions) {s : Importing β} {item : MigrationItem}
    (h : SettledItem host s.tree item) :
    (migrateFiles host options item s).1 = true ∧
      (migrateFiles host options item s).2.tree = s.tree ∧
      (migrateFiles host options item s).2.manifest.imported = s.manifest.imported ∧
      Repeats [item] s.manifest (migrateFiles host options item s).2.manifest := by
  obtain ⟨outcomes, hcopied, hstatus, hends⟩ := copyFiles_settled host options h.files
  have hnone : outcomes.filter (fun outcome => outcome.status = .imported) = [] := by
    refine List.filter_eq_nil_iff.mpr fun outcome hmem => ?_
    rw [hstatus outcome hmem]
    decide
  have hall : outcomes.filter (fun outcome => outcome.status = .skipped) = outcomes :=
    List.filter_eq_self.mpr fun outcome hmem => decide_eq_true (hstatus outcome hmem)
  unfold migrateFiles
  rw [hcopied]
  have himported : (recordImportedFiles s.manifest outcomes).imported = s.manifest.imported := by
    unfold recordImportedFiles
    rw [hnone, List.map_nil, List.append_nil]
  refine ⟨rfl, rfl, himported, fun entry hentry => Or.inl (himported ▸ hentry), ?_, ?_⟩
  · exact List.prefix_append _ _
  · intro other hother pair hpair
    obtain rfl := List.mem_singleton.mp hother
    have hmem : (placeText pair.1, placeText pair.2) ∈
        outcomes.map (fun outcome => (outcome.src, outcome.dst)) :=
      hends ▸ List.mem_map.mpr ⟨pair, hpair, rfl⟩
    obtain ⟨outcome, houtcome, heq⟩ := List.mem_map.mp hmem
    obtain ⟨hsrc, hdst⟩ := Prod.mk.inj heq
    have hin : outcome ∈ outcomes.filter (fun outcome => outcome.status = .skipped) :=
      hall.symm ▸ houtcome
    exact ⟨⟨outcome.src, outcome.dst, outcome.reason.getD ""⟩,
      List.mem_append_right _ (List.mem_map.mpr ⟨outcome, hin, rfl⟩), hsrc, hdst⟩

theorem put_same {tree : ImageTree β} {place : List String} {bytes : β}
    (hplace : tree.Straight place) (h : tree.files.get? place = some bytes) :
    tree.put place bytes = tree := by
  have hfiles : tree.files.set (tree.resolve place) bytes = tree.files := by
    rw [hplace]
    exact Dict.set_get h
  unfold ImageTree.put
  cases tree
  congr

/-- Nothing changes where nothing is left to do. -/
theorem migrateItem_settled (options : MigrateOptions) {s : Importing β} {item : MigrationItem}
    (h : SettledItem host s.tree item) (hdocker : ∀ tag, item.kind = .docker tag → item.files = []) :
    (migrateItem host options s item).tree = s.tree ∧
      Repeats [item] s.manifest (migrateItem host options s item).manifest := by
  obtain ⟨hgood, htree, himported, hrepeats⟩ := migrateFiles_settled options h
  unfold migrateItem
  cases hkind : item.kind with
  | qemu bootDisk =>
    dsimp only [migrateQemu]
    generalize migrateFiles host options item s = moved at hgood htree himported hrepeats ⊢
    obtain ⟨good, after⟩ := moved
    dsimp only at hgood htree
    subst hgood
    refine ⟨?_, hrepeats⟩
    dsimp only [ensureQemuCdromSymlink]
    rw [htree]
    cases bootDisk with
    | none => rfl
    | some name =>
      dsimp only
      split
      next => rfl
      next hempty =>
        split
        next => rfl
        next hcdrom => exact if_pos (h.placed.cdrom name hkind hempty hcdrom)
  | dynamips => exact ⟨htree, hrepeats⟩
  | iol iourcPresent =>
    dsimp only [migrateIol]
    generalize migrateFiles host options item s = moved at hgood htree himported hrepeats ⊢
    obtain ⟨good, after⟩ := moved
    dsimp only at hgood htree
    subst hgood
    cases iourcPresent with
    | true => exact ⟨htree, hrepeats⟩
    | false => exact ⟨htree, hrepeats.imported, hrepeats.grows, hrepeats.skipped⟩
  | docker tag =>
    have hnone : ∀ other ∈ [item], ∀ pair ∈ other.files, False := by
      intro other hother pair hpair
      rw [List.mem_singleton.mp hother, hdocker tag hkind] at hpair
      cases hpair
    dsimp only [migrateDocker]
    split
    next =>
      exact ⟨rfl, fun entry hentry => Or.inl hentry, List.prefix_refl _,
        fun other hother pair hpair => (hnone other hother pair hpair).elim⟩
    next =>
      refine ⟨put_same (marker_straight _ _) (h.placed.marker tag hkind), ?_, List.prefix_refl _,
        fun other hother pair hpair => (hnone other hother pair hpair).elim⟩
      intro entry hentry
      rcases List.mem_append.mp hentry with hold | hnew
      · exact Or.inl hold
      · obtain rfl := List.mem_singleton.mp hnew
        exact Or.inr ⟨item, List.mem_cons_self, tag, hkind, rfl⟩

theorem runMigration_settled (options : MigrateOptions) {items : List MigrationItem}
    {s : Importing β} (h : ∀ item ∈ items, SettledItem host s.tree item)
    (hdocker : ∀ item ∈ items, ∀ tag, item.kind = .docker tag → item.files = []) :
    (runMigration host options items s).tree = s.tree ∧
      Repeats items s.manifest (runMigration host options items s).manifest := by
  induction items generalizing s with
  | nil =>
    exact ⟨rfl, fun entry hentry => Or.inl hentry, List.prefix_refl _,
      fun item hitem => absurd hitem List.not_mem_nil⟩
  | cons first rest ih =>
    obtain ⟨htree, hfirst⟩ := migrateItem_settled options (h first List.mem_cons_self)
      (hdocker first List.mem_cons_self)
    obtain ⟨hend, hrest⟩ := ih (s := migrateItem host options s first)
      (fun item hitem => htree.symm ▸ h item (List.mem_cons_of_mem _ hitem))
      (fun item hitem => hdocker item (List.mem_cons_of_mem _ hitem))
    refine ⟨hend.trans htree, ?_, hfirst.grows.trans hrest.grows, ?_⟩
    · intro entry hentry
      rcases hrest.imported entry hentry with hbefore | ⟨item, hitem, hmade⟩
      · rcases hfirst.imported entry hbefore with hold | ⟨item, hitem, hmade⟩
        · exact Or.inl hold
        · exact Or.inr ⟨item, List.mem_singleton.mp hitem ▸ List.mem_cons_self, hmade⟩
      · exact Or.inr ⟨item, List.mem_cons_of_mem _ hitem, hmade⟩
    · intro item hitem pair hpair
      rcases List.mem_cons.mp hitem with rfl | hlater
      · obtain ⟨entry, hentry, hends⟩ := hfirst.skipped item List.mem_cons_self pair hpair
        exact ⟨entry, hrest.grows.subset hentry, hends⟩
      · exact hrest.skipped item hlater pair hpair

def ImportedEntry.ends (entry : ImportedEntry) : String × String := (entry.src, entry.dst)

/-- A plan names what a run imports and skips, in its order. -/
structure Foresees (planned real : ImportManifest) : Prop where
  imported : planned.imported.map ImportedEntry.ends = real.imported.map ImportedEntry.ends
  skipped : planned.skipped = real.skipped

theorem recordImportedFiles_cons (manifest : ImportManifest) (outcome : CopyOutcome)
    (outcomes : List CopyOutcome) : recordImportedFiles manifest (outcome :: outcomes) =
      recordImportedFiles (recordImportedFiles manifest [outcome]) outcomes := by
  unfold recordImportedFiles
  cases h : outcome.status <;> simp [h]

/-- The plan of a file that is there already is what the run records of it. -/
theorem skipped_foreseen {mode : CopyMode} {tree : ImageTree β} {src dst : List String}
    {bytes old : β} (hread : tree.read src = some bytes) (hold : tree.read dst = some old)
    (hhash : host.sha256 bytes = host.sha256 old) {planned manifest : ImportManifest}
    (hforesees : Foresees planned manifest) :
    Foresees (planFiles host mode tree planned (src, dst))
      (recordImportedFiles manifest [skippedOutcome host mode src dst bytes]) := by
  unfold planFiles
  dsimp only
  rw [hread, hold]
  dsimp only
  rw [if_pos hhash]
  constructor
  · rw [hforesees.imported]
    exact congrArg _ (List.append_nil _).symm
  · rw [hforesees.skipped]
    rfl

/-- The plan of a file that is not there, or is another, names its import. -/
theorem imported_foreseen {mode : CopyMode} {tree : ImageTree β} {src dst : List String} {bytes : β}
    (hread : tree.read src = some bytes)
    (hdiffer : ∀ old, tree.read dst = some old → host.sha256 bytes ≠ host.sha256 old)
    {planned manifest : ImportManifest} (hforesees : Foresees planned manifest) :
    Foresees (planFiles host mode tree planned (src, dst))
      (recordImportedFiles manifest [importedOutcome host mode src dst bytes]) := by
  have himported : (recordImportedFiles manifest
      [importedOutcome host mode src dst bytes]).imported.map ImportedEntry.ends =
        manifest.imported.map ImportedEntry.ends ++ [(placeText src, placeText dst)] :=
    List.map_append
  have hskipped : (recordImportedFiles manifest
      [importedOutcome host mode src dst bytes]).skipped = manifest.skipped :=
    List.append_nil _
  unfold planFiles
  dsimp only
  rw [hread]
  cases hold : tree.read dst with
  | none =>
    refine ⟨?_, hforesees.skipped.trans hskipped.symm⟩
    rw [himported, List.map_append, hforesees.imported]
    rfl
  | some old =>
    dsimp only
    rw [if_neg (hdiffer old hold)]
    refine ⟨?_, hforesees.skipped.trans hskipped.symm⟩
    rw [himported, List.map_append, hforesees.imported]
    rfl

theorem copyFiles_foreseen {options : MigrateOptions} {items : List MigrationItem}
    {start tree : ImageTree β} (hplan : CopyPlan items) (hfree : CollisionFree host start)
    (hkept : Kept options.mode items start tree) {files : List (List String × List String)}
    (hfiles : ∀ pair ∈ files, pair ∈ filePlan items) (hnames : (files.map Prod.snd).Nodup)
    (hfresh : ∀ pair ∈ files, tree.read pair.2 = start.read pair.2) {outcomes : List CopyOutcome}
    {after : ImageTree β} (h : copyFiles host options files tree = (.ok outcomes, after))
    {planned manifest : ImportManifest} (hforesees : Foresees planned manifest) :
    Foresees (files.foldl (planFiles host options.mode start) planned)
      (recordImportedFiles manifest outcomes) := by
  induction files generalizing tree planned manifest outcomes with
  | nil =>
    obtain rfl : [] = outcomes := Except.ok.inj (Prod.mk.inj h).1
    unfold recordImportedFiles
    simpa using hforesees
  | cons first rest ih =>
    obtain ⟨src, dst⟩ := first
    have hmem := hfiles (src, dst) List.mem_cons_self
    obtain ⟨hnot, hnames⟩ := List.nodup_cons.mp hnames
    obtain ⟨hsrc, hdst⟩ := hkept.straight (src, dst) hmem
    have hne := hplan.apart (src, dst) hmem (src, dst) hmem
    obtain ⟨hafter, -, -⟩ := performCopy_kept hplan hfree hkept hmem
    obtain ⟨hleaves, hstraight⟩ := performCopy_leaves host options hsrc hdst hne
    have hlater : ∀ pair ∈ rest, (performCopy host options src dst tree).2.read pair.2 =
        start.read pair.2 := by
      intro pair hpair
      have hin := hfiles pair (List.mem_cons_of_mem _ hpair)
      have hplace := (hkept.straight pair hin).2
      rw [← hfresh pair (List.mem_cons_of_mem _ hpair), (hstraight _ hplace).read, hplace.read]
      refine hleaves.files _ fun hsame => ?_
      rcases List.mem_cons.mp hsame with heq | hlast
      · exact hplan.apart (src, dst) hmem pair hin heq.symm
      · exact hnot (List.mem_map.mpr ⟨pair, hpair, List.mem_singleton.mp hlast⟩)
    have hstart : start.read dst = tree.read dst := (hfresh (src, dst) List.mem_cons_self).symm
    have hrest : ∀ outcome, (performCopy host options src dst tree).1 = .ok outcome →
        Foresees (planFiles host options.mode start planned (src, dst))
          (recordImportedFiles manifest [outcome]) →
        Foresees (((src, dst) :: rest).foldl (planFiles host options.mode start) planned)
          (recordImportedFiles manifest outcomes) := by
      intro outcome houtcome hfirst
      rw [copyFiles] at h
      generalize hcopied : performCopy host options src dst tree = copied at h houtcome
      rw [hcopied] at hafter hlater
      obtain ⟨result, middle⟩ := copied
      dsimp only at houtcome hafter hlater
      subst houtcome
      dsimp only at h
      generalize hmore : copyFiles host options rest middle = more at h
      obtain ⟨result, last⟩ := more
      cases result with
      | error error => cases (Prod.mk.inj h).1
      | ok others =>
        obtain ⟨hok, rfl⟩ := Prod.mk.inj h
        obtain rfl : outcome :: others = outcomes := Except.ok.inj hok
        rw [recordImportedFiles_cons]
        exact ih hafter (fun pair hpair => hfiles pair (List.mem_cons_of_mem _ hpair)) hnames
          hlater hmore hfirst
    rcases performCopy_cases host options hsrc hdst hne with
      ⟨error, hcopy⟩ | ⟨bytes, old, hread, hold, hhash, hcopy⟩ | ⟨bytes, hread, hdiffer, hcopy⟩
    · rw [copyFiles, hcopy] at h
      cases (Prod.mk.inj h).1
    · exact hrest _ (congrArg Prod.fst hcopy)
        (skipped_foreseen (hkept.held hmem hread) (hstart.trans hold) hhash hforesees)
    · exact hrest _ (congrArg Prod.fst hcopy)
        (imported_foreseen (hkept.held hmem hread)
          (fun old hold => hdiffer old (hstart.symm.trans hold)) hforesees)

theorem migrateItem_foreseen {options : MigrateOptions} {items : List MigrationItem}
    {start : ImageTree β} {s : Importing β} (hplan : CopyPlan items)
    (hfree : CollisionFree host start) (hkept : Kept options.mode items start s.tree)
    {item : MigrationItem} (hitem : item ∈ items)
    (hdocker : ∀ tag, item.kind = .docker tag → item.files = [])
    (hnames : (item.files.map Prod.snd).Nodup)
    (hfresh : ∀ pair ∈ item.files, s.tree.read pair.2 = start.read pair.2)
    (hclean : (migrateItem host options s item).manifest.errors = []) {planned : ImportManifest}
    (hforesees : Foresees planned s.manifest) :
    Foresees (planItem host options.mode start planned item)
      (migrateItem host options s item).manifest := by
  have hfiles : (migrateFiles host options item s).2.manifest.errors = [] →
      (migrateFiles host options item s).1 = true ∧
        Foresees (item.files.foldl (planFiles host options.mode start) planned)
          (migrateFiles host options item s).2.manifest := by
    intro hnone
    unfold migrateFiles at hnone ⊢
    generalize hcopied : copyFiles host options item.files s.tree = copied at hnone ⊢
    obtain ⟨result, after⟩ := copied
    cases result with
    | error error => exact absurd hnone (by simp)
    | ok outcomes =>
      exact ⟨rfl, copyFiles_foreseen hplan hfree hkept (fun pair h => mem_filePlan hitem h) hnames
        hfresh hcopied hforesees⟩
  unfold migrateItem at hclean ⊢
  unfold planItem
  cases hkind : item.kind with
  | qemu bootDisk =>
    rw [hkind] at hclean
    dsimp only [migrateQemu] at hclean ⊢
    generalize migrateFiles host options item s = moved at hfiles hclean ⊢
    obtain ⟨good, after⟩ := moved
    cases good with
    | false => exact absurd (hfiles hclean).1 Bool.false_ne_true
    | true => exact (hfiles hclean).2
  | dynamips =>
    rw [hkind] at hclean
    exact (hfiles hclean).2
  | iol iourcPresent =>
    rw [hkind] at hclean
    dsimp only [migrateIol] at hclean ⊢
    generalize migrateFiles host options item s = moved at hfiles hclean ⊢
    obtain ⟨good, after⟩ := moved
    cases good with
    | false => exact absurd (hfiles hclean).1 Bool.false_ne_true
    | true =>
      cases iourcPresent with
      | true => exact (hfiles hclean).2
      | false => exact ⟨(hfiles hclean).2.imported, (hfiles hclean).2.skipped⟩
  | docker tag =>
    rw [hkind] at hclean
    rw [hdocker tag hkind]
    dsimp only [migrateDocker] at hclean ⊢
    split
    next error herror =>
      rw [herror] at hclean
      exact absurd hclean (by simp)
    next =>
      refine ⟨?_, hforesees.skipped⟩
      rw [List.map_append, List.map_append, hforesees.imported]
      rfl

/-- The files of an item are at no place of another item. -/
theorem Walked.places_apart {source dest : List String} {items : List MigrationItem}
    (hplan : CopyPlan items) (hwalked : ∀ item ∈ items, Walked source dest item)
    {item other : MigrationItem} (hitem : item ∈ items) (hother : other ∈ items)
    (hne : item.dstDir ≠ other.dstDir) {pair : List String × List String}
    (hpair : pair ∈ item.files) : pair.2 ∉ other.places := by
  obtain ⟨-, name, hname⟩ := (hwalked item hitem).files pair hpair
  have hfolder : ∀ held, pair.2 ≠ other.dstDir ++ [held] := fun held heq =>
    hne (List.append_inj' (hname.symm.trans heq) rfl).1
  intro hmem
  rcases List.mem_append.mp hmem with hfile | hmade
  · obtain ⟨owned, howned, hplace⟩ := List.mem_flatMap.mp hfile
    rcases List.mem_cons.mp hplace with heq | hlast
    · exact hplan.apart owned (mem_filePlan hother howned) pair (mem_filePlan hitem hpair) heq.symm
    · obtain ⟨-, held, hheld⟩ := (hwalked other hother).files owned howned
      exact hfolder held ((List.mem_singleton.mp hlast).trans hheld)
  · rcases List.mem_cons.mp hmade with heq | hlast
    · exact hfolder _ heq
    · exact hfolder _ (List.mem_singleton.mp hlast)

theorem runMigration_foreseen {options : MigrateOptions} {source dest : List String}
    {items : List MigrationItem} {start : ImageTree β} (hplan : CopyPlan items)
    (hwalked : ∀ item ∈ items, Walked source dest item) (hfree : CollisionFree host start)
    {now : List MigrationItem} (hnow : ∀ item ∈ now, item ∈ items)
    (hdirs : (now.map (fun item => item.dstDir)).Nodup) {s : Importing β}
    (hkept : Kept options.mode items start s.tree)
    (hfresh : ∀ item ∈ now, ∀ pair ∈ item.files, s.tree.read pair.2 = start.read pair.2)
    (hclean : (runMigration host options now s).manifest.errors = []) {planned : ImportManifest}
    (hforesees : Foresees planned s.manifest) :
    Foresees (emitDryRunPlan host options.mode start now planned)
      (runMigration host options now s).manifest := by
  have hdocker : ∀ item ∈ items, ∀ tag, item.kind = .docker tag → item.files = [] :=
    fun item hitem => (hwalked item hitem).docker
  induction now generalizing s planned with
  | nil => exact hforesees
  | cons first rest ih =>
    have hitem := hnow first List.mem_cons_self
    have hrest : ∀ item ∈ rest, item ∈ items := fun item h => hnow item (List.mem_cons_of_mem _ h)
    obtain ⟨hfirst, hdirs⟩ := List.nodup_cons.mp hdirs
    obtain ⟨hafter, -, -, -⟩ := migrateItem_kept hplan hfree hkept hitem (hdocker first hitem)
    obtain ⟨-, -, -, hgrow, -⟩ := runMigration_kept hplan hfree hdocker hrest hafter
    have hdone : (migrateItem host options s first).manifest.errors = [] :=
      List.prefix_nil.mp (hclean ▸ hgrow)
    have hleaves : s.tree.Leaves (migrateItem host options s first).tree first.places
        [first.dstDir] := by
      refine migrateItem_leaves fun pair hpair => ?_
      have hmem := mem_filePlan hitem hpair
      obtain ⟨hs, hd⟩ := hkept.straight pair hmem
      exact ⟨hs, hd, hplan.apart pair hmem pair hmem⟩
    refine ih hrest hdirs hafter ?_ hclean (migrateItem_foreseen hplan hfree hkept hitem
      (hdocker first hitem) (hwalked first hitem).names (hfresh first List.mem_cons_self) hdone
        hforesees)
    intro item hlater pair hpair
    have hmem := mem_filePlan (hrest item hlater) hpair
    have hne : item.dstDir ≠ first.dstDir := fun heq =>
      hfirst (List.mem_map.mpr ⟨item, hlater, heq⟩)
    rw [← hfresh item (List.mem_cons_of_mem _ hlater) pair hpair,
      (hafter.straight pair hmem).2.read, (hkept.straight pair hmem).2.read]
    exact hleaves.files _ (Walked.places_apart hplan hwalked (hrest item hlater) hitem hne hpair)

/-- A dry run foresees a run without errors: it names what that imports and what it skips. -/
theorem dry_run_foresees {β : Type} {host : ImportHost β} {options : MigrateOptions}
    {source dest : List String} {tree : ImageTree β} (hsource : ¬ source <+: dest)
    (hdest : ¬ dest <+: source) (hfree : CollisionFree host tree)
    (hlinks : Unlinked tree (walkAll tree source dest))
    (hclean : (runImport host options source dest tree).manifest.errors = []) :
    Foresees (emitDryRunPlan host options.mode tree (walkAll tree source dest) emptyManifest)
      (runImport host options source dest tree).manifest :=
  runMigration_foreseen (walkAll_plan tree hsource hdest) (walkAll_walked tree source dest) hfree
    (fun _ h => h) (walkAll_dstDir_nodup tree source dest) (s := ⟨tree, emptyManifest⟩)
    (Kept.start options.mode hlinks) (fun _ _ _ _ => rfl) hclean ⟨rfl, rfl⟩

theorem small_tree_foreseen : Foresees
    (emitDryRunPlan plainImportHost .deleteSource smallTree (walkAll smallTree ["opt"] ["images"])
      emptyManifest)
    (runImport plainImportHost ⟨.deleteSource, false⟩ ["opt"] ["images"] smallTree).manifest :=
  @dry_run_foresees _ plainImportHost ⟨.deleteSource, false⟩ ["opt"] ["images"] smallTree
    (by decide) (by decide) smallTree_free smallTree_unlinked (smallTree_clean .deleteSource)

end NovaVe
