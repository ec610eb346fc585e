import NovaVe.EvengImport

namespace NovaVe

variable {β : Type} {items : List MigrationItem} {host : ImportHost β} {options : MigrateOptions}
  {item : MigrationItem}

def filePlan (items : List MigrationItem) : List (List String × List String) :=
  items.flatMap (fun item => item.files)

/-- The places of a plan do not get in the way of each other. -/
structure CopyPlan (items : List MigrationItem) : Prop where
  dests : ((filePlan items).map Prod.snd).Nodup
  apart : ∀ pair ∈ filePlan items, ∀ other ∈ filePlan items, pair.1 ≠ other.2
  cdrom : ∀ item ∈ items, ∀ name, item.kind = .qemu (some name) → name ≠ "cdrom.iso" →
    ∀ pair ∈ filePlan items, pair.1 ≠ item.dstDir ++ ["cdrom.iso"] ∧
      pair.2 ≠ item.dstDir ++ ["cdrom.iso"]
  marker : ∀ item ∈ items, ∀ tag, item.kind = .docker tag → ∀ pair ∈ filePlan items,
    pair.1 ≠ item.dstDir ++ ["image.txt"] ∧ pair.2 ≠ item.dstDir ++ ["image.txt"]

/-- No two contents of the tree have one hash. -/
def CollisionFree {β : Type} (host : ImportHost β) (tree : ImageTree β) : Prop :=
  ∀ place other bytes held, tree.read place = some bytes → tree.read other = some held →
    host.sha256 bytes = host.sha256 held → bytes = held

/-- The place has what the source had at the start. -/
def Landed {β : Type} (start tree : ImageTree β) (pair : List String × List String) : Prop :=
  tree.read pair.2 = start.read pair.1

/-- What holds of the tree while the items are migrated. -/
structure Kept {β : Type} (mode : CopyMode) (items : List MigrationItem)
    (start tree : ImageTree β) : Prop where
  straight : ∀ pair ∈ filePlan items, tree.Straight pair.1 ∧ tree.Straight pair.2
  source : ∀ pair ∈ filePlan items, tree.read pair.1 = start.read pair.1 ∨
    mode ≠ .default ∧ tree.read pair.1 = none ∧
      ∃ dst, (pair.1, dst) ∈ filePlan items ∧ Landed start tree (pair.1, dst)
  target : ∀ pair ∈ filePlan items, tree.read pair.2 = start.read pair.2 ∨ Landed start tree pair

theorem CopyPlan.eq_of_dest (hplan : CopyPlan items) {pair other : List String × List String}
    (hpair : pair ∈ filePlan items) (hother : other ∈ filePlan items) (h : pair.2 = other.2) :
    pair = other :=
  List.inj_on_of_nodup_map hplan.dests hpair hother h

/-- A file that is copied keeps what holds, and comes to its place. -/
theorem copied_kept {mode : CopyMode} {start tree : ImageTree β} (hplan : CopyPlan items)
    (hkept : Kept mode items start tree) {pair : List String × List String}
    (hpair : pair ∈ filePlan items) {bytes : β} (hbytes : start.read pair.1 = some bytes) :
    Kept mode items start (copiedTree mode pair.1 pair.2 bytes tree) ∧
      Landed start (copiedTree mode pair.1 pair.2 bytes tree) pair ∧
        ∀ other ∈ filePlan items, Landed start tree other →
          Landed start (copiedTree mode pair.1 pair.2 bytes tree) other := by
  obtain ⟨hsrc, hdst⟩ := hkept.straight pair hpair
  have hread' : ∀ place, tree.Straight place → _ := fun place hplace =>
    @copiedTree_read β tree bytes mode pair.1 pair.2 place hsrc hdst hplace
  have hdest : ∀ other ∈ filePlan items, other.2 ≠ pair.2 →
      (copiedTree mode pair.1 pair.2 bytes tree).read other.2 = tree.read other.2 := by
    intro other hother hne
    have hapart : ¬ (mode ≠ .default ∧ pair.1 = other.2) :=
      fun h => hplan.apart pair hpair other hother h.2
    rw [hread' _ (hkept.straight other hother).2, if_neg hapart, if_neg (Ne.symm hne)]
  have hlanded : Landed start (copiedTree mode pair.1 pair.2 bytes tree) pair := by
    have hapart : ¬ (mode ≠ .default ∧ pair.1 = pair.2) :=
      fun h => hplan.apart pair hpair pair hpair h.2
    unfold Landed
    rw [hread' _ hdst, if_neg hapart, if_pos rfl, hbytes]
  have hstays : ∀ other ∈ filePlan items, Landed start tree other →
      Landed start (copiedTree mode pair.1 pair.2 bytes tree) other := by
    intro other hother h
    by_cases hsame : other.2 = pair.2
    · exact hplan.eq_of_dest hother hpair hsame ▸ hlanded
    · exact (hdest other hother hsame).trans h
  refine ⟨⟨?_, ?_, ?_⟩, hlanded, hstays⟩
  · intro other hother
    obtain ⟨hs, hd⟩ := hkept.straight other hother
    exact ⟨copiedTree_straight hsrc hs, copiedTree_straight hsrc hd⟩
  · intro other hother
    have hne : pair.2 ≠ other.1 := Ne.symm (hplan.apart other hother pair hpair)
    rw [hread' _ (hkept.straight other hother).1, if_neg hne]
    split
    next hgone =>
      exact Or.inr ⟨hgone.1, rfl, pair.2, hgone.2 ▸ hpair, hgone.2 ▸ hlanded⟩
    next =>
      rcases hkept.source other hother with hsame | ⟨hmode, hnone, dst, hmem, hthere⟩
      · exact Or.inl hsame
      · exact Or.inr ⟨hmode, hnone, dst, hmem, hstays (other.1, dst) hmem hthere⟩
  · intro other hother
    by_cases hsame : other.2 = pair.2
    · exact Or.inr (hplan.eq_of_dest hother hpair hsame ▸ hlanded)
    · rcases hkept.target other hother with hold | hthere
      · exact Or.inl ((hdest other hother hsame).trans hold)
      · exact Or.inr (hstays other hother hthere)

/-- What a planned place has is something that the tree had at the start. -/
theorem Kept.held {mode : CopyMode} {start tree : ImageTree β} (hkept : Kept mode items start tree)
    {pair : List String × List String} (hpair : pair ∈ filePlan items) {bytes : β}
    (h : tree.read pair.1 = some bytes) : start.read pair.1 = some bytes := by
  rcases hkept.source pair hpair with hsame | ⟨-, hnone, -⟩
  · exact hsame ▸ h
  · rw [hnone] at h
    cases h

/-- What comes of files: all are in their places, or one of them is reported. -/
def FilesDone {β : Type} (start : ImageTree β) (files : List (List String × List String))
    (result : Except ErrorEntry (List CopyOutcome)) (tree : ImageTree β) : Prop :=
  match result with
  | .ok _ => ∀ pair ∈ files, Landed start tree pair
  | .error error => ∃ pair ∈ files, error.path = placeText pair.1

/-- A copy that fails names a file. -/
theorem copyFiles_error (host : ImportHost β) (options : MigrateOptions)
    (files : List (List String × List String)) (tree : ImageTree β) :
    ∀ error, (copyFiles host options files tree).1 = .error error →
      ∃ pair ∈ files, error.path = placeText pair.1 := by
  induction files generalizing tree with
  | nil =>
    intro error h
    cases h
  | cons first rest ih =>
    obtain ⟨src, dst⟩ := first
    rw [copyFiles]
    generalize performCopy host options src dst tree = copied
    obtain ⟨result, after⟩ := copied
    cases result with
    | error error =>
      intro other h
      exact ⟨(src, dst), List.mem_cons_self, (congrArg ErrorEntry.path (Except.error.inj h)).symm⟩
    | ok outcome =>
      have hrest := ih after
      dsimp only
      generalize copyFiles host options rest after = copied at hrest ⊢
      obtain ⟨result, last⟩ := copied
      cases result with
      | error error =>
        intro other h
        obtain ⟨pair, hpair, hpath⟩ := hrest other h
        exact ⟨pair, List.mem_cons_of_mem _ hpair, hpath⟩
      | ok outcomes =>
        intro other h
        cases h

theorem performCopy_kept {start tree : ImageTree β} (hplan : CopyPlan items)
    (hfree : CollisionFree host start) (hkept : Kept options.mode items start tree)
    {pair : List String × List String} (hpair : pair ∈ filePlan items) :
    Kept options.mode items start (performCopy host options pair.1 pair.2 tree).2 ∧
      (∀ outcome, (performCopy host options pair.1 pair.2 tree).1 = .ok outcome →
        Landed start (performCopy host options pair.1 pair.2 tree).2 pair) ∧
      ∀ other ∈ filePlan items, Landed start tree other →
        Landed start (performCopy host options pair.1 pair.2 tree).2 other := by
  obtain ⟨hsrc, hdst⟩ := hkept.straight pair hpair
  have hne := hplan.apart pair hpair pair hpair
  rcases performCopy_cases host options hsrc hdst hne with
    ⟨error, h⟩ | ⟨bytes, old, hread, hold, hhash, h⟩ | ⟨bytes, hread, -, h⟩
  · rw [h]
    exact ⟨hkept, nofun, fun other _ hlanded => hlanded⟩
  · rw [h]
    have hbytes := hkept.held hpair hread
    have hsame : Landed start tree pair := by
      rcases hkept.target pair hpair with hstart | hlanded
      · have heq := hfree _ _ _ _ hbytes (hstart ▸ hold) hhash
        unfold Landed
        rw [hold, hbytes, heq]
      · exact hlanded
    exact ⟨hkept, fun outcome _ => hsame, fun other _ hlanded => hlanded⟩
  · rw [h]
    obtain ⟨hafter, hlanded, hstays⟩ := copied_kept hplan hkept hpair (hkept.held hpair hread)
    exact ⟨hafter, fun outcome _ => hlanded, hstays⟩

theorem copyFiles_kept {start tree : ImageTree β} (hplan : CopyPlan items)
    (hfree : CollisionFree host start) (hkept : Kept options.mode items start tree)
    {files : List (List String × List String)} (hfiles : ∀ pair ∈ files, pair ∈ filePlan items) :
    Kept options.mode items start (copyFiles host options files tree).2 ∧
      FilesDone start files (copyFiles host options files tree).1
        (copyFiles host options files tree).2 ∧
      ∀ other ∈ filePlan items, Landed start tree other →
        Landed start (copyFiles host options files tree).2 other := by
  induction files generalizing tree with
  | nil => exact ⟨hkept, fun pair h => absurd h List.not_mem_nil, fun other _ h => h⟩
  | cons first rest ih =>
    obtain ⟨src, dst⟩ := first
    have hmem := hfiles (src, dst) List.mem_cons_self
    obtain ⟨hafter, hlands, hstays⟩ := performCopy_kept hplan hfree hkept hmem
    rw [copyFiles]
    dsimp only at hafter hlands hstays
    generalize performCopy host options src dst tree = copied at hafter hlands hstays ⊢
    obtain ⟨result, after⟩ := copied
    cases result with
    | error error => exact ⟨hafter, ⟨(src, dst), List.mem_cons_self, rfl⟩, hstays⟩
    | ok outcome =>
      have hlanded := hlands outcome rfl
      obtain ⟨hend, hdone, hkeep⟩ :=
        ih hafter (fun pair h => hfiles pair (List.mem_cons_of_mem _ h))
      dsimp only at hend hdone hkeep ⊢
      generalize copyFiles host options rest after = copied at hend hdone hkeep ⊢
      obtain ⟨result, last⟩ := copied
      have hkeeps : ∀ other ∈ filePlan items, Landed start tree other →
          Landed start last other := fun other hother h => hkeep other hother (hstays other hother h)
      cases result with
      | error error =>
        obtain ⟨pair, hpair, hpath⟩ := hdone
        exact ⟨hend, ⟨pair, List.mem_cons_of_mem _ hpair, hpath⟩, hkeeps⟩
      | ok outcomes =>
        refine ⟨hend, ?_, hkeeps⟩
        intro pair hpair
        rcases List.mem_cons.mp hpair with rfl | hlater
        · exact hkeep _ hmem hlanded
        · exact hdone pair hlater

/-- A change of the tree that no planned place sees. -/
theorem Kept.aside {mode : CopyMode} {start tree after : ImageTree β}
    (hkept : Kept mode items start tree)
    (hstraight : ∀ pair ∈ filePlan items, after.Straight pair.1 ∧ after.Straight pair.2)
    (hread : ∀ pair ∈ filePlan items, after.read pair.1 = tree.read pair.1 ∧
      after.read pair.2 = tree.read pair.2) :
    Kept mode items start after ∧ ∀ pair ∈ filePlan items, Landed start tree pair →
      Landed start after pair := by
  have hstays : ∀ pair ∈ filePlan items, Landed start tree pair → Landed start after pair :=
    fun pair hpair h => (hread pair hpair).2.trans h
  refine ⟨⟨hstraight, ?_, ?_⟩, hstays⟩
  · intro pair hpair
    rw [(hread pair hpair).1]
    rcases hkept.source pair hpair with hsame | ⟨hmode, hnone, dst, hmem, hthere⟩
    · exact Or.inl hsame
    · exact Or.inr ⟨hmode, hnone, dst, hmem, hstays (pair.1, dst) hmem hthere⟩
  · intro pair hpair
    rcases hkept.target pair hpair with hold | hthere
    · exact Or.inl ((hread pair hpair).2.trans hold)
    · exact Or.inr (hstays pair hpair hthere)

theorem ensureQemuCdromSymlink_kept {mode : CopyMode} {start tree : ImageTree β}
    (hplan : CopyPlan items) (hkept : Kept mode items start tree) (hitem : item ∈ items)
    {bootDisk : Option String} (hkind : item.kind = .qemu bootDisk) :
    Kept mode items start (ensureQemuCdromSymlink item.dstDir bootDisk tree) ∧
      ∀ pair ∈ filePlan items, Landed start tree pair →
        Landed start (ensureQemuCdromSymlink item.dstDir bootDisk tree) pair := by
  unfold ensureQemuCdromSymlink
  cases bootDisk with
  | none => exact ⟨hkept, fun _ _ h => h⟩
  | some name =>
    simp only
    split
    next => exact ⟨hkept, fun _ _ h => h⟩
    next =>
      split
      next => exact ⟨hkept, fun _ _ h => h⟩
      next hname =>
        split
        next => exact ⟨hkept, fun _ _ h => h⟩
        next =>
          have hfar := hplan.cdrom item hitem name hkind hname
          refine hkept.aside ?_ ?_
          · intro pair hpair
            obtain ⟨hs, hd⟩ := hkept.straight pair hpair
            exact ⟨linkCdrom_straight (hfar pair hpair).1 hs,
              linkCdrom_straight (hfar pair hpair).2 hd⟩
          · intro pair hpair
            obtain ⟨hs, hd⟩ := hkept.straight pair hpair
            exact ⟨linkCdrom_read (hfar pair hpair).1 hs, linkCdrom_read (hfar pair hpair).2 hd⟩

theorem marker_straight (tree : ImageTree β) (folder : List String) :
    tree.Straight (folder ++ ["image.txt"]) := by
  unfold ImageTree.Straight ImageTree.resolve
  rw [List.getLast?_concat]
  rfl

theorem marker_kept {mode : CopyMode} {start tree : ImageTree β} (hplan : CopyPlan items)
    (hkept : Kept mode items start tree) (hitem : item ∈ items) {tag : String}
    (hkind : item.kind = .docker tag) (bytes : β) :
    Kept mode items start (tree.put (item.dstDir ++ ["image.txt"]) bytes) ∧
      ∀ pair ∈ filePlan items, Landed start tree pair →
        Landed start (tree.put (item.dstDir ++ ["image.txt"]) bytes) pair := by
  have hmarker := marker_straight tree item.dstDir
  have hfar := hplan.marker item hitem tag hkind
  refine hkept.aside (fun pair hpair => hkept.straight pair hpair) ?_
  intro pair hpair
  obtain ⟨hs, hd⟩ := hkept.straight pair hpair
  rw [put_read hmarker hs, put_read hmarker hd, if_neg (Ne.symm (hfar pair hpair).1),
    if_neg (Ne.symm (hfar pair hpair).2)]
  exact ⟨rfl, rfl⟩

/-- What comes of an item. -/
def ItemDone {β : Type} (start : ImageTree β) (s : Importing β) (item : MigrationItem) : Prop :=
  (∀ pair ∈ item.files, Landed start s.tree pair) ∨
    ∃ error ∈ s.manifest.errors, ∃ pair ∈ item.files, error.path = placeText pair.1

theorem mem_filePlan (hitem : item ∈ items) {pair : List String × List String}
    (hpair : pair ∈ item.files) : pair ∈ filePlan items :=
  List.mem_flatMap.mpr ⟨item, hitem, hpair⟩

theorem migrateFiles_kept {start : ImageTree β} {s : Importing β} (hplan : CopyPlan items)
    (hfree : CollisionFree host start) (hkept : Kept options.mode items start s.tree)
    (hitem : item ∈ items) :
    Kept options.mode items start (migrateFiles host options item s).2.tree ∧
      ItemDone start (migrateFiles host options item s).2 item ∧
      s.manifest.errors <+: (migrateFiles host options item s).2.manifest.errors ∧
      ∀ other ∈ filePlan items, Landed start s.tree other →
        Landed start (migrateFiles host options item s).2.tree other := by
  obtain ⟨hafter, hdone, hstays⟩ :=
    copyFiles_kept hplan hfree hkept (fun pair h => mem_filePlan hitem h)
  unfold migrateFiles
  generalize copyFiles host options item.files s.tree = copied at hafter hdone hstays ⊢
  obtain ⟨result, after⟩ := copied
  cases result with
  | error error =>
    obtain ⟨pair, hpair, hpath⟩ := hdone
    exact ⟨hafter, Or.inr ⟨error, List.mem_append_right _ (List.mem_singleton.mpr rfl), pair, hpair,
      hpath⟩, List.prefix_append _ _, hstays⟩
  | ok outcomes => exact ⟨hafter, Or.inl hdone, List.prefix_refl _, hstays⟩

/-- The step of a run: an item is done or reported, and what others brought stays. -/
theorem migrateItem_kept {start : ImageTree β} {s : Importing β} (hplan : CopyPlan items)
    (hfree : CollisionFree host start) (hkept : Kept options.mode items start s.tree)
    (hitem : item ∈ items) (hdocker : ∀ tag, item.kind = .docker tag →
      item.files = []) :
    Kept options.mode items start (migrateItem host options s item).tree ∧
      ItemDone start (migrateItem host options s item) item ∧
      s.manifest.errors <+: (migrateItem host options s item).manifest.errors ∧
      ∀ other ∈ filePlan items, Landed start s.tree other →
        Landed start (migrateItem host options s item).tree other := by
  obtain ⟨hafter, hdone, herrors, hstays⟩ := migrateFiles_kept hplan hfree hkept hitem
  unfold migrateItem
  split
  next bootDisk hkind =>
    unfold migrateQemu
    generalize migrateFiles host options item s = moved at hafter hdone herrors hstays ⊢
    obtain ⟨good, after⟩ := moved
    cases good with
    | false => exact ⟨hafter, hdone, herrors, hstays⟩
    | true =>
      obtain ⟨hlinked, hkeep⟩ := ensureQemuCdromSymlink_kept hplan hafter hitem hkind
      refine ⟨hlinked, ?_, herrors, fun other hother h => hkeep other hother (hstays other hother h)⟩
      rcases hdone with hall | herror
      · exact Or.inl fun pair hpair => hkeep pair (mem_filePlan hitem hpair) (hall pair hpair)
      · exact Or.inr herror
  next => exact ⟨hafter, hdone, herrors, hstays⟩
  next iourcPresent _ =>
    unfold migrateIol
    generalize migrateFiles host options item s = moved at hafter hdone herrors hstays ⊢
    obtain ⟨good, after⟩ := moved
    cases good with
    | false => exact ⟨hafter, hdone, herrors, hstays⟩
    | true =>
      cases iourcPresent with
      | true => exact ⟨hafter, hdone, herrors, hstays⟩
      | false => exact ⟨hafter, hdone, herrors, hstays⟩
  next tag hkind =>
    have hempty : ItemDone start (migrateDocker host options item tag s) item := by
      refine Or.inl fun pair hpair => ?_
      rw [hdocker tag hkind] at hpair
      cases hpair
    refine ⟨?_, hempty, ?_, ?_⟩
    · unfold migrateDocker
      split
      next => exact hkept
      next => exact (marker_kept hplan hkept hitem hkind _).1
    · unfold migrateDocker
      split
      next => exact List.prefix_append _ _
      next => exact List.prefix_refl _
    · unfold migrateDocker
      split
      next => exact fun other _ h => h
      next => exact (marker_kept hplan hkept hitem hkind _).2

/-- A change of the tree is at these places and at the links of these folders only. -/
structure ImageTree.Leaves {β : Type} (tree after : ImageTree β) (places : List (List String))
    (folders : List (List String)) : Prop where
  files : ∀ place, place ∉ places → after.files.get? place = tree.files.get? place
  handles : ∀ folder, folder ∉ folders → after.handles.get? folder = tree.handles.get? folder

theorem ImageTree.Leaves.refl (tree : ImageTree β) (places folders : List (List String)) :
    tree.Leaves tree places folders :=
  ⟨fun _ _ => rfl, fun _ _ => rfl⟩

theorem ImageTree.Leaves.trans {tree after last : ImageTree β}
    {places more folders others : List (List String)} (h : tree.Leaves after places folders)
    (h' : after.Leaves last more others) :
    tree.Leaves last (places ++ more) (folders ++ others) where
  files place hplace :=
    (h'.files place (fun hmem => hplace (List.mem_append_right _ hmem))).trans
      (h.files place (fun hmem => hplace (List.mem_append_left _ hmem)))
  handles folder hfolder :=
    (h'.handles folder (fun hmem => hfolder (List.mem_append_right _ hmem))).trans
      (h.handles folder (fun hmem => hfolder (List.mem_append_left _ hmem)))

theorem performCopy_leaves (host : ImportHost β) (options : MigrateOptions) {src dst : List String}
    {tree : ImageTree β} (hsrc : tree.Straight src) (hdst : tree.Straight dst) (hne : src ≠ dst) :
    tree.Leaves (performCopy host options src dst tree).2 [src, dst] [] ∧
      ∀ place, tree.Straight place → (performCopy host options src dst tree).2.Straight place := by
  rcases performCopy_cases host options hsrc hdst hne with
    ⟨error, h⟩ | ⟨bytes, old, -, -, -, h⟩ | ⟨bytes, -, -, h⟩
  · rw [h]
    exact ⟨ImageTree.Leaves.refl tree _ _, fun _ hplace => hplace⟩
  · rw [h]
    exact ⟨ImageTree.Leaves.refl tree _ _, fun _ hplace => hplace⟩
  · rw [h]
    refine ⟨⟨?_, fun folder _ => copiedTree_handles hsrc folder⟩,
      fun place hplace => copiedTree_straight hsrc hplace⟩
    intro place hplace
    rw [List.mem_cons, List.mem_singleton, not_or] at hplace
    exact copiedTree_files hdst (Ne.symm hplace.1) (Ne.symm hplace.2)

theorem copyFiles_leaves (host : ImportHost β) (options : MigrateOptions)
    {files : List (List String × List String)} {tree : ImageTree β}
    (hfiles : ∀ pair ∈ files, tree.Straight pair.1 ∧ tree.Straight pair.2 ∧ pair.1 ≠ pair.2) :
    tree.Leaves (copyFiles host options files tree).2
      (files.flatMap (fun pair => [pair.1, pair.2])) [] := by
  induction files generalizing tree with
  | nil => exact ImageTree.Leaves.refl tree _ _
  | cons first rest ih =>
    obtain ⟨src, dst⟩ := first
    obtain ⟨hsrc, hdst, hne⟩ := hfiles (src, dst) List.mem_cons_self
    obtain ⟨hleaves, hstraight⟩ := performCopy_leaves host options hsrc hdst hne
    have hrest : ∀ pair ∈ rest, (performCopy host options src dst tree).2.Straight pair.1 ∧
        (performCopy host options src dst tree).2.Straight pair.2 ∧ pair.1 ≠ pair.2 := by
      intro pair hpair
      obtain ⟨hs, hd, hdiffer⟩ := hfiles pair (List.mem_cons_of_mem _ hpair)
      exact ⟨hstraight _ hs, hstraight _ hd, hdiffer⟩
    have hall := hleaves.trans (ih hrest)
    rw [copyFiles]
    generalize performCopy host options src dst tree = copied at hleaves hall ⊢
    obtain ⟨result, after⟩ := copied
    cases result with
    | error error =>
      exact ⟨fun place h => hleaves.files place (fun hmem => h (List.mem_append_left _ hmem)),
        hleaves.handles⟩
    | ok outcome =>
      dsimp only at hall ⊢
      generalize copyFiles host options rest after = copied at hall ⊢
      obtain ⟨result, last⟩ := copied
      cases result with
      | error error => exact hall
      | ok outcomes => exact hall

/-- The places that a migration of an item may change. -/
def MigrationItem.places (item : MigrationItem) : List (List String) :=
  item.files.flatMap (fun pair => [pair.1, pair.2]) ++
    [item.dstDir ++ ["cdrom.iso"], item.dstDir ++ ["image.txt"]]

theorem ensureQemuCdromSymlink_leaves (dstDir : List String) (bootDisk : Option String)
    (tree : ImageTree β) : tree.Leaves (ensureQemuCdromSymlink dstDir bootDisk tree)
      [dstDir ++ ["cdrom.iso"], dstDir ++ ["image.txt"]] [dstDir] := by
  unfold ensureQemuCdromSymlink
  cases bootDisk with
  | none => exact ImageTree.Leaves.refl tree _ _
  | some name =>
    simp only
    split
    next => exact ImageTree.Leaves.refl tree _ _
    next =>
      split
      next => exact ImageTree.Leaves.refl tree _ _
      next hname =>
        split
        next => exact ImageTree.Leaves.refl tree _ _
        next =>
          constructor
          · intro place hplace
            have hne : dstDir ++ ["cdrom.iso"] ≠ place := fun h => hplace (h ▸ List.mem_cons_self)
            change (tree.files.pop (dstDir ++ ["cdrom.iso"])).get? place = _
            rw [Dict.get?_pop, if_neg hne]
          · intro folder hfolder
            have hne : dstDir ≠ folder := fun h => hfolder (h ▸ List.mem_cons_self)
            exact Dict.get?_set_ne _ _ hne

theorem marker_leaves (tree : ImageTree β) (dstDir : List String) (bytes : β) :
    tree.Leaves (tree.put (dstDir ++ ["image.txt"]) bytes)
      [dstDir ++ ["cdrom.iso"], dstDir ++ ["image.txt"]] [dstDir] := by
  refine ⟨?_, fun folder _ => rfl⟩
  intro place hplace
  have hne : dstDir ++ ["image.txt"] ≠ place := by
    rintro rfl
    exact hplace (List.mem_cons_of_mem _ List.mem_cons_self)
  change (tree.files.set (tree.resolve (dstDir ++ ["image.txt"])) bytes).get? place = _
  rw [marker_straight tree dstDir, Dict.get?_set_ne _ _ hne]

theorem migrateItem_leaves {s : Importing β} (hfiles : ∀ pair ∈ item.files,
      s.tree.Straight pair.1 ∧ s.tree.Straight pair.2 ∧ pair.1 ≠ pair.2) :
    s.tree.Leaves (migrateItem host options s item).tree item.places [item.dstDir] := by
  have hcopied := copyFiles_leaves host options hfiles
  have hmoved : s.tree.Leaves (migrateFiles host options item s).2.tree
      (item.files.flatMap (fun pair => [pair.1, pair.2])) [] := by
    unfold migrateFiles
    generalize copyFiles host options item.files s.tree = copied at hcopied ⊢
    obtain ⟨result, after⟩ := copied
    cases result with
    | error error => exact hcopied
    | ok outcomes => exact hcopied
  have hwiden : s.tree.Leaves (migrateFiles host options item s).2.tree item.places
      [item.dstDir] := hmoved.trans (ImageTree.Leaves.refl _ _ [item.dstDir])
  cases hkind : item.kind with
  | qemu bootDisk =>
    have hlinked := hmoved.trans (ensureQemuCdromSymlink_leaves item.dstDir bootDisk
      (migrateFiles host options item s).2.tree)
    unfold migrateItem
    rw [hkind]
    dsimp only [migrateQemu]
    generalize migrateFiles host options item s = moved at hwiden hlinked ⊢
    obtain ⟨good, after⟩ := moved
    cases good with
    | false => exact hwiden
    | true => exact hlinked
  | dynamips =>
    unfold migrateItem
    rw [hkind]
    exact hwiden
  | iol iourcPresent =>
    unfold migrateItem
    rw [hkind]
    dsimp only [migrateIol]
    generalize migrateFiles host options item s = moved at hwiden ⊢
    obtain ⟨good, after⟩ := moved
    cases good with
    | false => exact hwiden
    | true => cases iourcPresent <;> exact hwiden
  | docker tag =>
    unfold migrateItem
    rw [hkind]
    dsimp only [migrateDocker]
    split
    next => exact ImageTree.Leaves.refl _ _ _
    next =>
      exact (ImageTree.Leaves.refl s.tree (item.files.flatMap (fun pair => [pair.1, pair.2]))
        []).trans (marker_leaves s.tree item.dstDir _)

theorem ItemDone.stays {start : ImageTree β} {s after : Importing β} (h : ItemDone start s item)
    (herrors : s.manifest.errors <+: after.manifest.errors)
    (hstays : ∀ pair ∈ item.files, Landed start s.tree pair → Landed start after.tree pair) :
    ItemDone start after item := by
  rcases h with hall | ⟨error, hmem, hpair⟩
  · exact Or.inl fun pair hpair => hstays pair hpair (hall pair hpair)
  · exact Or.inr ⟨error, herrors.subset hmem, hpair⟩

theorem runMigration_kept {start : ImageTree β} (hplan : CopyPlan items)
    (hfree : CollisionFree host start)
    (hdocker : ∀ item ∈ items, ∀ tag, item.kind = .docker tag → item.files = [])
    {now : List MigrationItem} (hnow : ∀ item ∈ now, item ∈ items) {s : Importing β}
    (hkept : Kept options.mode items start s.tree) :
    Kept options.mode items start (runMigration host options now s).tree ∧
      (∀ item ∈ now, ItemDone start (runMigration host options now s) item) ∧
      s.tree.Leaves (runMigration host options now s).tree
        (now.flatMap (fun item => item.places)) (now.map (fun item => item.dstDir)) ∧
      s.manifest.errors <+: (runMigration host options now s).manifest.errors ∧
      ∀ other ∈ filePlan items, Landed start s.tree other →
        Landed start (runMigration host options now s).tree other := by
  induction now generalizing s with
  | nil =>
    exact ⟨hkept, fun item h => absurd h List.not_mem_nil, ImageTree.Leaves.refl _ _ _,
      List.prefix_refl _, fun _ _ h => h⟩
  | cons first rest ih =>
    have hitem := hnow first List.mem_cons_self
    obtain ⟨hafter, hdone, herrors, hstays⟩ :=
      migrateItem_kept hplan hfree hkept hitem (hdocker first hitem)
    have hleaves : s.tree.Leaves (migrateItem host options s first).tree first.places
        [first.dstDir] := by
      refine migrateItem_leaves fun pair hpair => ?_
      have hmem := mem_filePlan hitem hpair
      obtain ⟨hs, hd⟩ := hkept.straight pair hmem
      exact ⟨hs, hd, hplan.apart pair hmem pair hmem⟩
    obtain ⟨hend, hall, hlater, hgrow, hkeep⟩ :=
      ih (fun item h => hnow item (List.mem_cons_of_mem _ h)) hafter
    refine ⟨hend, ?_, hleaves.trans hlater, herrors.trans hgrow,
      fun other hother h => hkeep other hother (hstays other hother h)⟩
    intro item hmem
    rcases List.mem_cons.mp hmem with rfl | hlater
    · exact hdone.stays hgrow fun pair hpair => hkeep pair (mem_filePlan hitem hpair)
    · exact hall item hlater

/-- What an item leaves beside its files. -/
structure Placed {β : Type} (host : ImportHost β) (tree : ImageTree β) (item : MigrationItem) :
    Prop where
  cdrom : ∀ name, item.kind = .qemu (some name) → name ≠ "" → name ≠ "cdrom.iso" →
    tree.handles.get? item.dstDir = some name
  marker : ∀ tag, item.kind = .docker tag →
    tree.files.get? (item.dstDir ++ ["image.txt"]) = some (host.encode (tag ++ "\n"))

/-- An error that names what an item is made from. -/
def MigrationItem.NamedBy (item : MigrationItem) (error : ErrorEntry) : Prop :=
  (∃ pair ∈ item.files, error.path = placeText pair.1) ∨
    ∃ tag, item.kind = .docker tag ∧ error.path = placeText item.srcDir

theorem migrateItem_placed (host : ImportHost β) (options : MigrateOptions) (s : Importing β)
    (item : MigrationItem) :
    Placed host (migrateItem host options s item).tree item ∨
      ∃ error ∈ (migrateItem host options s item).manifest.errors, item.NamedBy error := by
  unfold migrateItem
  cases hkind : item.kind with
  | qemu bootDisk =>
    dsimp only [migrateQemu, migrateFiles]
    have hfailed := copyFiles_error host options item.files s.tree
    generalize copyFiles host options item.files s.tree = copied at hfailed ⊢
    obtain ⟨result, after⟩ := copied
    cases result with
    | error error =>
      exact Or.inr ⟨error, List.mem_append_right _ (List.mem_singleton.mpr rfl),
        Or.inl (hfailed error rfl)⟩
    | ok outcomes =>
      refine Or.inl ⟨?_, fun tag htag => absurd (hkind.symm.trans htag) (by simp)⟩
      intro name hname hempty hcdrom
      obtain rfl := ImportKind.qemu.inj (hkind.symm.trans hname)
      dsimp only [ensureQemuCdromSymlink]
      rw [if_neg hempty, dif_neg hcdrom]
      split
      next h => exact h
      next => exact Dict.get?_set_self _ _ _
  | dynamips =>
    exact Or.inl ⟨fun name h => absurd (hkind.symm.trans h) (by simp),
      fun tag h => absurd (hkind.symm.trans h) (by simp)⟩
  | iol iourcPresent =>
    exact Or.inl ⟨fun name h => absurd (hkind.symm.trans h) (by simp),
      fun tag h => absurd (hkind.symm.trans h) (by simp)⟩
  | docker tag =>
    dsimp only [migrateDocker]
    split
    next error _ =>
      exact Or.inr ⟨_, List.mem_append_right _ (List.mem_singleton.mpr rfl), Or.inr ⟨tag, hkind, rfl⟩⟩
    next =>
      refine Or.inl ⟨fun name h => absurd (hkind.symm.trans h) (by simp), ?_⟩
      intro held htag
      obtain rfl := ImportKind.docker.inj (hkind.symm.trans htag)
      change (s.tree.files.set (s.tree.resolve (item.dstDir ++ ["image.txt"])) _).get? _ = _
      rw [marker_straight, Dict.get?_set_self]

theorem Placed.stays {tree after : ImageTree β} {places folders : List (List String)}
    (h : Placed host tree item) (hleaves : tree.Leaves after places folders)
    (hfolder : item.dstDir ∉ folders)
    (hmarker : ∀ tag, item.kind = .docker tag → item.dstDir ++ ["image.txt"] ∉ places) :
    Placed host after item where
  cdrom name hkind hempty hcdrom :=
    (hleaves.handles _ hfolder).trans (h.cdrom name hkind hempty hcdrom)
  marker tag hkind := (hleaves.files _ (hmarker tag hkind)).trans (h.marker tag hkind)

/-- The marker of an image is no place of another item. -/
theorem CopyPlan.marker_free (hplan : CopyPlan items) {item other : MigrationItem}
    (hitem : item ∈ items) (hother : other ∈ items) (hne : other.dstDir ≠ item.dstDir)
    {tag : String} (hkind : item.kind = .docker tag) :
    item.dstDir ++ ["image.txt"] ∉ other.places := by
  intro hmem
  rcases List.mem_append.mp hmem with hfile | hmade
  · obtain ⟨pair, hpair, hplace⟩ := List.mem_flatMap.mp hfile
    obtain ⟨hs, hd⟩ := hplan.marker item hitem tag hkind pair (mem_filePlan hother hpair)
    rcases List.mem_cons.mp hplace with heq | hlast
    · exact hs heq.symm
    · exact hd (List.mem_singleton.mp hlast).symm
  · rcases List.mem_cons.mp hmade with heq | hlast
    · exact absurd (List.append_inj' heq rfl).2 (by decide)
    · exact hne (List.append_inj' (List.mem_singleton.mp hlast) rfl).1.symm

/-- What an item leaves beside its files is there after a run, or an error names the item. -/
theorem runMigration_placed {start : ImageTree β} (hplan : CopyPlan items)
    (hfree : CollisionFree host start)
    (hdocker : ∀ item ∈ items, ∀ tag, item.kind = .docker tag → item.files = [])
    {now : List MigrationItem} (hnow : ∀ item ∈ now, item ∈ items)
    (hdirs : (now.map (fun item => item.dstDir)).Nodup) {s : Importing β}
    (hkept : Kept options.mode items start s.tree) :
    ∀ item ∈ now, Placed host (runMigration host options now s).tree item ∨
      ∃ error ∈ (runMigration host options now s).manifest.errors, item.NamedBy error := by
  induction now generalizing s with
  | nil => exact fun item h => absurd h List.not_mem_nil
  | cons first rest ih =>
    have hitem := hnow first List.mem_cons_self
    have hrest : ∀ item ∈ rest, item ∈ items := fun item h => hnow item (List.mem_cons_of_mem _ h)
    obtain ⟨hfirst, hdirs⟩ := List.nodup_cons.mp hdirs
    obtain ⟨hafter, -, -, -⟩ := migrateItem_kept hplan hfree hkept hitem (hdocker first hitem)
    obtain ⟨-, -, hleaves, hgrow, -⟩ := runMigration_kept hplan hfree hdocker hrest hafter
    intro item hmem
    rcases List.mem_cons.mp hmem with rfl | hlater
    · refine (migrateItem_placed host options s item).imp ?_ ?_
      · intro hplaced
        refine hplaced.stays hleaves hfirst fun tag hkind hplace => ?_
        obtain ⟨other, hother, hin⟩ := List.mem_flatMap.mp hplace
        have hne : other.dstDir ≠ item.dstDir := fun heq =>
          hfirst (List.mem_map.mpr ⟨other, hother, heq⟩)
        exact hplan.marker_free hitem (hrest other hother) hne hkind hin
      · rintro ⟨error, herror, hnamed⟩
        exact ⟨error, hgrow.subset herror, hnamed⟩
    · exact ih hrest hdirs hafter item hlater

theorem filePlan_nodup (hdirs : (items.map (fun item => item.dstDir)).Nodup)
    (hfiles : ∀ item ∈ items, (∀ pair ∈ item.files, ∃ name, pair.2 = item.dstDir ++ [name]) ∧
      (item.files.map Prod.snd).Nodup) : ((filePlan items).map Prod.snd).Nodup := by
  induction items with
  | nil => exact List.nodup_nil
  | cons first rest ih =>
    obtain ⟨hnot, hrest⟩ := List.nodup_cons.mp hdirs
    obtain ⟨hplaces, hnames⟩ := hfiles first List.mem_cons_self
    change ((first.files ++ filePlan rest).map Prod.snd).Nodup
    rw [List.map_append]
    refine hnames.append (ih hrest fun item h => hfiles item (List.mem_cons_of_mem _ h)) ?_
    intro place hplace hplace'
    obtain ⟨pair, hpair, rfl⟩ := List.mem_map.mp hplace
    obtain ⟨other, hother, heq⟩ := List.mem_map.mp hplace'
    obtain ⟨item, hitem, hmem⟩ := List.mem_flatMap.mp hother
    obtain ⟨name, hname⟩ := hplaces pair hpair
    obtain ⟨name', hname'⟩ := (hfiles item (List.mem_cons_of_mem _ hitem)).1 other hmem
    rw [hname, hname'] at heq
    exact hnot (List.mem_map.mpr ⟨item, hitem, (List.append_inj' heq rfl).1⟩)

/-- Places below different roots are different. -/
theorem roots_apart {source dest place other : List String} (hsource : ¬ source <+: dest)
    (hdest : ¬ dest <+: source) (hplace : source <+: place) (hother : dest <+: other) :
    place ≠ other := by
  rintro rfl
  rcases List.prefix_or_prefix_of_prefix hplace hother with h | h
  · exact hsource h
  · exact hdest h

theorem walkAll_plan (tree : ImageTree β) {source dest : List String} (hsource : ¬ source <+: dest)
    (hdest : ¬ dest <+: source) :
    CopyPlan (walkAll tree source dest) := by
  have hwalked := walkAll_walked tree source dest
  have hdirs := walkAll_dstDir_nodup tree source dest
  have hpair : ∀ pair ∈ filePlan (walkAll tree source dest), ∃ item ∈ walkAll tree source dest,
      pair ∈ item.files ∧ source <+: pair.1 ∧ ∃ name, pair.2 = item.dstDir ++ [name] := by
    intro pair hpair
    obtain ⟨item, hitem, hmem⟩ := List.mem_flatMap.mp hpair
    obtain ⟨hunder, hplace⟩ := (hwalked item hitem).files pair hmem
    exact ⟨item, hitem, hmem, hunder, hplace⟩
  have hmade : ∀ item ∈ walkAll tree source dest, ∀ name,
      ∀ pair ∈ filePlan (walkAll tree source dest), pair.1 ≠ item.dstDir ++ [name] ∧
        (pair.2 = item.dstDir ++ [name] → pair ∈ item.files) := by
    intro item hitem name pair hmem
    obtain ⟨owner, howner, hfile, hunder, held, hheld⟩ := hpair pair hmem
    refine ⟨roots_apart hsource hdest hunder
      ((hwalked item hitem).dest.trans (List.prefix_append _ _)), ?_⟩
    intro heq
    rw [hheld] at heq
    have hsame := List.inj_on_of_nodup_map hdirs howner hitem (List.append_inj' heq rfl).1
    exact hsame ▸ hfile
  constructor
  · exact filePlan_nodup hdirs fun item hitem =>
      ⟨fun pair h => ((hwalked item hitem).files pair h).2, (hwalked item hitem).names⟩
  · intro pair hmem other hother
    obtain ⟨-, -, -, hunder, -⟩ := hpair pair hmem
    obtain ⟨owner, howner, -, -, name, hname⟩ := hpair other hother
    rw [hname]
    exact roots_apart hsource hdest hunder
      ((hwalked owner howner).dest.trans (List.prefix_append _ _))
  · intro item hitem name hkind hname pair hmem
    obtain ⟨hsrc, hown⟩ := hmade item hitem "cdrom.iso" pair hmem
    exact ⟨hsrc, fun heq => (hwalked item hitem).cdrom name hkind hname pair (hown heq) heq⟩
  · intro item hitem tag hkind pair hmem
    obtain ⟨hsrc, hown⟩ := hmade item hitem "image.txt" pair hmem
    refine ⟨hsrc, fun heq => ?_⟩
    have hnone := hown heq
    rw [(hwalked item hitem).docker tag hkind] at hnone
    cases hnone

/-- The planned sources are there. -/
theorem walkAll_there (tree : ImageTree β) (source dest : List String) :
    ∀ pair ∈ filePlan (walkAll tree source dest), ∃ bytes, tree.read pair.1 = some bytes := by
  intro pair hpair
  refine Option.isSome_iff_exists.mp (mem_listed.mp ?_)
  obtain ⟨item, hitem, hmem⟩ := List.mem_flatMap.mp hpair
  unfold walkAll at hitem
  rcases List.mem_append.mp hitem with hitem | hdocker
  · rcases List.mem_append.mp hitem with hitem | hiol
    · rcases List.mem_append.mp hitem with hqemu | hdynamips
      · obtain ⟨imageKey, -, rfl⟩ := List.mem_map.mp hqemu
        obtain ⟨name, hname, rfl⟩ := List.mem_map.mp hmem
        simpa using mem_fileNames.mp hname
      · obtain ⟨name, hname, rfl⟩ := List.mem_map.mp hdynamips
        obtain rfl := List.mem_singleton.mp hmem
        exact mem_fileNames.mp (List.mem_filter.mp hname).1
    · obtain ⟨name, hname, rfl⟩ := List.mem_map.mp hiol
      rcases List.mem_cons.mp hmem with rfl | hiourc
      · exact mem_fileNames.mp (List.mem_filter.mp hname).1
      · split at hiourc
        next hthere =>
          obtain rfl := List.mem_singleton.mp hiourc
          exact mem_fileNames.mp (of_decide_eq_true hthere)
        next => cases hiourc
  · obtain ⟨name, -, rfl⟩ := List.mem_map.mp hdocker
    cases hmem

/-- The planned places are no links. -/
def Unlinked {β : Type} (tree : ImageTree β) (items : List MigrationItem) : Prop :=
  ∀ pair ∈ filePlan items, tree.Straight pair.1 ∧ tree.Straight pair.2

theorem Kept.start (mode : CopyMode) {tree : ImageTree β} (hlinks : Unlinked tree items) :
    Kept mode items tree tree where
  straight := hlinks
  source _ _ := Or.inl rfl
  target _ _ := Or.inl rfl

def emptyManifest : ImportManifest := ⟨[], [], [], []⟩

/-- The importer: all that the walk finds is migrated. -/
def runImport {β : Type} (host : ImportHost β) (options : MigrateOptions)
    (source dest : List String) (tree : ImageTree β) : Importing β :=
  runMigration host options (walkAll tree source dest) ⟨tree, emptyManifest⟩

/-- A host whose files are their own hashes. -/
def plainImportHost : ImportHost String where
  sha256 := id
  size := String.length
  encode := id
  dockerBuild _ _ := none

/-- A tree without links. -/
def ImageTree.ofFiles {β : Type} (files : Dict (List String) β) : ImageTree β where
  files := files
  handles := Dict.empty
  notCdrom _ _ h := absurd h.symm (Option.some_ne_none _)
  apart _ _ h := absurd h.symm (Option.some_ne_none _)

theorem ofFiles_straight (files : Dict (List String) β) (place : List String) :
    (ImageTree.ofFiles files).Straight place := by
  unfold ImageTree.Straight ImageTree.resolve
  split
  next => rfl
  next => rfl

/-- A disk, an image and its licence in the folders of EVE-NG. -/
def smallFiles : Dict (List String) String :=
  ((Dict.empty.set ["opt", "addons", "qemu", "vios", "virtioa.qcow2"] "disk").set
    ["opt", "addons", "iol", "bin", "l3.bin"] "image").set
      ["opt", "addons", "iol", "bin", "iourc"] "licence"

def smallTree : ImageTree String := .ofFiles smallFiles

theorem smallTree_free (place other : List String) (bytes held : String)
    (_ : smallTree.read place = some bytes) (_ : smallTree.read other = some held)
    (h : plainImportHost.sha256 bytes = plainImportHost.sha256 held) : bytes = held := h

theorem smallTree_unlinked : Unlinked smallTree (walkAll smallTree ["opt"] ["images"]) :=
  fun pair _ => ⟨ofFiles_straight smallFiles pair.1, ofFiles_straight smallFiles pair.2⟩

theorem smallTree_clean (mode : CopyMode) : (runImport plainImportHost ⟨mode, false⟩ ["opt"]
    ["images"] smallTree).manifest.errors = [] := by
  cases mode <;> rfl

/-- No image is lost: an item is complete, with what belongs beside its files, or an error names
it, a source stays or is at a place planned for it, a destination has what it had or what is planned
for it, and nothing else changes. -/
theorem import_law {β : Type} {host : ImportHost β} {options : MigrateOptions}
    {source dest : List String} {tree : ImageTree β} (hsource : ¬ source <+: dest)
    (hdest : ¬ dest <+: source) (hfree : CollisionFree host tree)
    (hlinks : Unlinked tree (walkAll tree source dest)) :
    let items := walkAll tree source dest
    let final := runImport host options source dest tree
    (∀ item ∈ items, ((∀ pair ∈ item.files, final.tree.read pair.2 = tree.read pair.1) ∧
      Placed host final.tree item) ∨ ∃ error ∈ final.manifest.errors, item.NamedBy error) ∧
    (∀ pair ∈ filePlan items, ∃ bytes, tree.read pair.1 = some bytes ∧
      (final.tree.read pair.1 = some bytes ∨ options.mode ≠ .default ∧
        ∃ dst, (pair.1, dst) ∈ filePlan items ∧ final.tree.read dst = some bytes) ∧
      (final.tree.read pair.2 = tree.read pair.2 ∨ final.tree.read pair.2 = some bytes)) ∧
    tree.Leaves final.tree (items.flatMap (fun item => item.places))
      (items.map (fun item => item.dstDir)) := by
  intro items final
  have hplan : CopyPlan items := walkAll_plan tree hsource hdest
  have hdocker : ∀ item ∈ items, ∀ tag, item.kind = .docker tag → item.files = [] :=
    fun item hitem => (walkAll_walked tree source dest item hitem).docker
  obtain ⟨hkept, hdone, hleaves, -, -⟩ := runMigration_kept hplan hfree hdocker (fun _ h => h)
    (s := ⟨tree, emptyManifest⟩) (Kept.start options.mode hlinks)
  have hplaced := runMigration_placed hplan hfree hdocker (fun _ h => h)
    (walkAll_dstDir_nodup tree source dest) (s := ⟨tree, emptyManifest⟩)
    (Kept.start options.mode hlinks)
  refine ⟨?_, ?_, hleaves⟩
  · intro item hitem
    rcases hdone item hitem with hall | ⟨error, herror, hpair⟩
    · exact (hplaced item hitem).imp_left fun h => ⟨hall, h⟩
    · exact Or.inr ⟨error, herror, Or.inl hpair⟩
  · intro pair hpair
    obtain ⟨bytes, hbytes⟩ := walkAll_there tree source dest pair hpair
    refine ⟨bytes, hbytes, ?_, ?_⟩
    · rcases hkept.source pair hpair with hsame | ⟨hmode, -, dst, hmem, hlanded⟩
      · exact Or.inl (hsame.trans hbytes)
      · exact Or.inr ⟨hmode, dst, hmem, hlanded.trans hbytes⟩
    · rcases hkept.target pair hpair with hsame | hlanded
      · exact Or.inl hsame
      · exact Or.inr (hlanded.trans hbytes)

/-- The place of the disk of the small tree. -/
def smallDisk : List String := ["opt", "addons", "qemu", "vios", "virtioa.qcow2"]

theorem small_tree_kept : ∃ bytes, smallTree.read smallDisk = some bytes ∧
    ((runImport plainImportHost ⟨.move, false⟩ ["opt"] ["images"] smallTree).tree.read smallDisk =
      some bytes ∨ ∃ dst, (smallDisk, dst) ∈ filePlan (walkAll smallTree ["opt"] ["images"]) ∧
        (runImport plainImportHost ⟨.move, false⟩ ["opt"] ["images"] smallTree).tree.read dst =
          some bytes) := by
  obtain ⟨-, hall, -⟩ := @import_law _ _ ⟨.move, false⟩ _ _ _ (by decide) (by decide)
    smallTree_free smallTree_unlinked
  have hdisk : (smallDisk, ["images", "qemu", "vios", "virtioa.qcow2"]) ∈
      filePlan (walkAll smallTree ["opt"] ["images"]) := List.mem_cons_self
  obtain ⟨bytes, hbytes, hkept, -⟩ := hall _ hdisk
  exact ⟨bytes, hbytes, hkept.imp_right And.right⟩

end NovaVe
