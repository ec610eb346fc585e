import NovaVe.ImportAgain

namespace NovaVe

variable {β : Type} {pair : List String × List String} {item : MigrationItem} {host : ImportHost β}
  {options : MigrateOptions} {items : List MigrationItem} {start tree : ImageTree β}
  {dest : List String}

/-- Another file is at the place planned for a file, and may not be replaced. -/
def Blocked {β : Type} (host : ImportHost β) (force : Bool) (tree : ImageTree β)
    (pair : List String × List String) : Bool :=
  match tree.read pair.1, tree.read pair.2 with
  | some bytes, some old => !force && decide (host.sha256 bytes ≠ host.sha256 old)
  | _, _ => false

/-- The place planned for a file has it already. -/
def AtPlace {β : Type} (tree : ImageTree β) (pair : List String × List String) : Prop :=
  tree.read pair.2 = tree.read pair.1

instance {β : Type} [DecidableEq β] (tree : ImageTree β) (pair : List String × List String) :
    Decidable (AtPlace tree pair) :=
  inferInstanceAs (Decidable (tree.read pair.2 = tree.read pair.1))

def MigrationItem.Unblocked {β : Type} (item : MigrationItem) (host : ImportHost β) (force : Bool)
    (tree : ImageTree β) : Prop :=
  ∀ pair ∈ item.files, Blocked host force tree pair = false

instance {β : Type} (item : MigrationItem) (host : ImportHost β) (force : Bool)
    (tree : ImageTree β) : Decidable (item.Unblocked host force tree) :=
  inferInstanceAs (Decidable (∀ pair ∈ item.files, Blocked host force tree pair = false))

/-- No other place is planned for the source. -/
def Unshared (items : List MigrationItem) (pair : List String × List String) : Prop :=
  ∀ other ∈ filePlan items, other.1 = pair.1 → other = pair

/-- The trees whose import loses nothing: no planned place is a link, what follows a blocked file is
in its place, a source that is deleted lacks one place at most or is not copied, and without force
no file is where a handle or a marker is made. -/
structure ImportSafe {β : Type} (host : ImportHost β) (options : MigrateOptions)
    (items : List MigrationItem) (tree : ImageTree β) : Prop where
  links : Unlinked tree items
  followed : ∀ item ∈ items, item.files.Pairwise fun pair later =>
    Blocked host options.force tree pair = true → AtPlace tree later
  shared : options.mode ≠ .default → ∀ item ∈ items, ∀ pair ∈ item.files,
    ∀ other ∈ filePlan items, other.1 = pair.1 → other ≠ pair →
      AtPlace tree pair ∨ AtPlace tree other ∨ ¬ item.Unblocked host options.force tree
  cdrom : options.force = false → ∀ item ∈ items, item.Unblocked host options.force tree →
    ∀ name, item.kind = .qemu (some name) → name ≠ "" → name ≠ "cdrom.iso" →
      tree.files.get? (item.dstDir ++ ["cdrom.iso"]) = none
  marker : options.force = false → ∀ item ∈ items, ∀ tag, item.kind = .docker tag →
    host.dockerBuild (placeText item.srcDir) tag = none →
      ∀ held, tree.files.get? (item.dstDir ++ ["image.txt"]) = some held →
        held = host.encode (tag ++ "\n")

/-- No image is lost: a planned file is at its place or reported with that place as it was, a source
that is gone is at all its places, and without force no file of the destination changes. -/
structure ImagesKept {β : Type} (source dest : List String) (force : Bool)
    (plan : List (List String × List String)) (before after : ImageTree β)
    (errors : List ErrorEntry) : Prop where
  planned : ∀ pair ∈ plan, after.read pair.2 = before.read pair.1 ∨
    (∃ error ∈ errors, error.path = placeText pair.1) ∧ after.read pair.2 = before.read pair.2
  sources : ∀ place bytes, source <+: place → before.files.get? place = some bytes →
    after.files.get? place = some bytes ∨ (∃ pair ∈ plan, pair.1 = place) ∧
      ∀ pair ∈ plan, pair.1 = place → after.read pair.2 = some bytes
  old : force = false → ∀ place bytes, dest <+: place → before.files.get? place = some bytes →
    after.files.get? place = some bytes

/-- The pairs whose source tells its place. -/
inductive OwnSource (source dest : List String) : List String × List String → Prop
  | qemu (imageKey name : String) : OwnSource source dest
      (source ++ ["addons", "qemu"] ++ [imageKey, name], dest ++ ["qemu", imageKey] ++ [name])
  | dynamips (name : String) : OwnSource source dest
      (source ++ ["addons", "dynamips"] ++ [name],
        dest ++ ["dynamips", (suffixSplit name).1] ++ [name])
  | iol (name : String) (h : (suffixSplit name).2 = ".bin") : OwnSource source dest
      (source ++ ["addons", "iol", "bin"] ++ [name], dest ++ ["iol", (suffixSplit name).1] ++ [name])

theorem OwnSource.eq {source dest : List String} {pair other : List String × List String}
    (h : OwnSource source dest pair) (hother : OwnSource source dest other)
    (heq : other.1 = pair.1) : other = pair := by
  cases h <;> cases hother <;> simp at heq
  next => simp [heq]
  next => simp [heq]
  next => simp [heq]

theorem OwnSource.not_iourc {source dest : List String} (h : OwnSource source dest pair) :
    pair.1 ≠ source ++ ["addons", "iol", "bin"] ++ ["iourc"] := by
  intro heq
  cases h with
  | qemu imageKey name => simp at heq
  | dynamips name => simp at heq
  | iol name hname =>
    obtain rfl : name = "iourc" := by simpa using heq
    exact absurd hname (by decide)

/-- Only the licence of the IOL images has two places, and it is the last file of an item. -/
theorem walkAll_own (tree : ImageTree β) (source dest : List String) :
    ∀ item ∈ walkAll tree source dest, (∀ pair ∈ item.files.dropLast, OwnSource source dest pair) ∧
      ∀ pair ∈ item.files, OwnSource source dest pair ∨
        pair.1 = source ++ ["addons", "iol", "bin"] ++ ["iourc"] := by
  intro item hitem
  have hall : (∀ pair ∈ item.files, OwnSource source dest pair) →
      (∀ pair ∈ item.files.dropLast, OwnSource source dest pair) ∧
        ∀ pair ∈ item.files, OwnSource source dest pair ∨
          pair.1 = source ++ ["addons", "iol", "bin"] ++ ["iourc"] := fun h =>
    ⟨fun pair hpair => h pair (List.dropLast_subset _ hpair), fun pair hpair => Or.inl (h pair hpair)⟩
  unfold walkAll at hitem
  rcases List.mem_append.mp hitem with hitem | hdocker
  · rcases List.mem_append.mp hitem with hitem | hiol
    · rcases List.mem_append.mp hitem with hqemu | hdynamips
      · obtain ⟨imageKey, -, rfl⟩ := List.mem_map.mp hqemu
        refine hall fun pair hpair => ?_
        obtain ⟨name, -, rfl⟩ := List.mem_map.mp hpair
        exact OwnSource.qemu imageKey name
      · obtain ⟨name, -, rfl⟩ := List.mem_map.mp hdynamips
        refine hall fun pair hpair => ?_
        obtain rfl := List.mem_singleton.mp hpair
        exact OwnSource.dynamips name
    · obtain ⟨name, hname, rfl⟩ := List.mem_map.mp hiol
      have hown := @OwnSource.iol source dest name
        (of_decide_eq_true (List.mem_filter.mp hname).2)
      dsimp only
      split
      next =>
        constructor
        · intro pair hpair
          obtain rfl := List.mem_singleton.mp hpair
          exact hown
        · intro pair hpair
          rcases List.mem_cons.mp hpair with rfl | hlast
          · exact Or.inl hown
          · exact Or.inr (List.mem_singleton.mp hlast ▸ rfl)
      next =>
        constructor
        · intro pair hpair
          cases hpair
        · intro pair hpair
          exact Or.inl (List.mem_singleton.mp hpair ▸ hown)
  · obtain ⟨name, -, rfl⟩ := List.mem_map.mp hdocker
    refine hall fun pair hpair => ?_
    cases hpair

theorem walkAll_unshared (tree : ImageTree β) (source dest : List String)
    (hitem : item ∈ walkAll tree source dest) (hpair : pair ∈ item.files.dropLast) :
    Unshared (walkAll tree source dest) pair := by
  intro other hother heq
  have hown := (walkAll_own tree source dest item hitem).1 pair hpair
  obtain ⟨owner, howner, hmem⟩ := List.mem_flatMap.mp hother
  rcases (walkAll_own tree source dest owner howner).2 other hmem with h | h
  · exact hown.eq h heq
  · exact absurd (heq.symm.trans h) hown.not_iourc

/-- What a copy does where its place is as it was at the start. -/
theorem performCopy_fresh (hplan : CopyPlan items) (hkept : Kept options.mode items start tree)
    (hpair : pair ∈ filePlan items) (hfresh : tree.read pair.2 = start.read pair.2) :
    (∃ error, performCopy host options pair.1 pair.2 tree = (.error error, tree) ∧
      (tree.read pair.1 = none ∨ Blocked host options.force start pair = true)) ∨
    (∃ outcome, performCopy host options pair.1 pair.2 tree = (.ok outcome, tree) ∧
      Blocked host options.force start pair = false) ∨
    ∃ outcome bytes, performCopy host options pair.1 pair.2 tree =
        (.ok outcome, copiedTree options.mode pair.1 pair.2 bytes tree) ∧
      start.read pair.1 = some bytes ∧ Blocked host options.force start pair = false ∧
      ¬ AtPlace start pair ∧ (options.force = false → start.read pair.2 = none) := by
  obtain ⟨hsrc, hdst⟩ := hkept.straight pair hpair
  have hne := hplan.apart pair hpair pair hpair
  unfold performCopy
  cases hread : tree.read pair.1 with
  | none => exact Or.inl ⟨_, rfl, Or.inl rfl⟩
  | some bytes =>
    have hbytes := hkept.held hpair hread
    have hcopy := copyAndVerify_eq host options.mode hsrc hdst hne hread
    cases hold : tree.read pair.2 with
    | none =>
      rw [hold] at hfresh
      refine Or.inr (Or.inr ⟨_, bytes, hcopy, hbytes, ?_, ?_, fun _ => hfresh.symm⟩)
      · unfold Blocked
        rw [hbytes, ← hfresh]
      · unfold AtPlace
        rw [hbytes, ← hfresh]
        exact fun h => Option.some_ne_none bytes h.symm
    | some old =>
      rw [hold] at hfresh
      have hblocked : Blocked host options.force start pair =
          (!options.force && decide (host.sha256 bytes ≠ host.sha256 old)) := by
        unfold Blocked
        rw [hbytes, ← hfresh]
      rw [hblocked]
      dsimp only
      split
      next hsame => exact Or.inr (Or.inl ⟨_, rfl, by simp [hsame]⟩)
      next hdiffer =>
        split
        next hforce =>
          refine Or.inr (Or.inr ⟨_, bytes, hcopy, hbytes, by simp [hforce], ?_, ?_⟩)
          · unfold AtPlace
            rw [hbytes, ← hfresh]
            exact fun h => hdiffer (congrArg host.sha256 (Option.some.inj h).symm)
          · intro hnot
            rw [hforce] at hnot
            cases hnot
        next hforce => exact Or.inl ⟨_, rfl, Or.inr (by simp [hforce, hdiffer])⟩

/-- The copies of the item come to a file, and it has to be copied. -/
def MigrationItem.Takes {β : Type} (item : MigrationItem) (host : ImportHost β) (force : Bool)
    (start : ImageTree β) (taken : List String × List String) : Prop :=
  ∃ before after, item.files = before ++ taken :: after ∧ ¬ AtPlace start taken ∧
    ∀ stop ∈ before ++ [taken], Blocked host force start stop = false

theorem MigrationItem.Takes.mem_filePlan {force : Bool} {start : ImageTree β}
    {taken : List String × List String} (h : item.Takes host force start taken)
    (hitem : item ∈ items) :
    taken ∈ filePlan items := by
  obtain ⟨before, after, hsplit, -, -⟩ := h
  exact NovaVe.mem_filePlan hitem (by simp [hsplit])

/-- What holds of the tree while nothing is lost. -/
structure Saved {β : Type} (host : ImportHost β) (options : MigrateOptions) (dest : List String)
    (items : List MigrationItem) (start tree : ImageTree β) : Prop where
  kept : Kept options.mode items start tree
  removed : ∀ pair ∈ filePlan items, tree.read pair.1 = start.read pair.1 ∨
    options.mode ≠ .default ∧ ∃ item ∈ items, ∃ taken, item.Takes host options.force start taken ∧
      taken.1 = pair.1 ∧ Landed start tree taken
  old : options.force = false → ∀ place bytes, dest <+: place →
    start.files.get? place = some bytes → tree.files.get? place = some bytes

/-- What the walk promises of the plan, where no planned place is a link. -/
structure WalkedPlan {β : Type} (dest : List String) (items : List MigrationItem)
    (start : ImageTree β) : Prop where
  plan : CopyPlan items
  links : Unlinked start items
  outside : ∀ pair ∈ filePlan items, ¬ dest <+: pair.1
  there : ∀ pair ∈ filePlan items, ∃ bytes, start.read pair.1 = some bytes
  unshared : ∀ item ∈ items, ∀ pair ∈ item.files.dropLast, Unshared items pair

/-- The place of a file is as it was, and so is its source if it has no other place. -/
def Fresh {β : Type} (items : List MigrationItem) (start tree : ImageTree β)
    (pair : List String × List String) : Prop :=
  tree.read pair.2 = start.read pair.2 ∧
    (Unshared items pair → tree.read pair.1 = start.read pair.1)

theorem Fresh.copied {mode : CopyMode} (hplan : CopyPlan items) (hkept : Kept mode items start tree)
    {pair other : List String × List String} (hpair : pair ∈ filePlan items)
    (hother : other ∈ filePlan items) (hne : pair.2 ≠ other.2) (h : Fresh items start tree other)
    (bytes : β) : Fresh items start (copiedTree mode pair.1 pair.2 bytes tree) other := by
  obtain ⟨hsrc, hdst⟩ := hkept.straight pair hpair
  obtain ⟨hs, hd⟩ := hkept.straight other hother
  constructor
  · have hapart : ¬ (mode ≠ .default ∧ pair.1 = other.2) :=
      fun h => hplan.apart pair hpair other hother h.2
    rw [copiedTree_read hsrc hdst hd, if_neg hapart, if_neg hne]
    exact h.1
  · intro hunshared
    have hapart : ¬ (mode ≠ .default ∧ pair.1 = other.1) := fun hsame =>
      hne (congrArg Prod.snd (hunshared pair hpair hsame.2))
    rw [copiedTree_read hsrc hdst hs, if_neg hapart,
      if_neg (Ne.symm (hplan.apart other hother pair hpair))]
    exact h.2 hunshared

/-- A copy of a file keeps what holds. -/
theorem Saved.copied (hwalked : WalkedPlan dest items start)
    (hsaved : Saved host options dest items start tree) (hitem : item ∈ items)
    {before after : List (List String × List String)}
    (hsplit : item.files = before ++ pair :: after)
    (hopen : ∀ stop ∈ before ++ [pair], Blocked host options.force start stop = false) {bytes : β}
    (hbytes : start.read pair.1 = some bytes) (hout : ¬ AtPlace start pair)
    (hnone : options.force = false → start.read pair.2 = none) :
    Saved host options dest items start (copiedTree options.mode pair.1 pair.2 bytes tree) := by
  have hpair : pair ∈ filePlan items := mem_filePlan hitem (by simp [hsplit])
  obtain ⟨hsrc, hdst⟩ := hsaved.kept.straight pair hpair
  obtain ⟨hkept, hlanded, hstays⟩ := copied_kept hwalked.plan hsaved.kept hpair hbytes
  refine ⟨hkept, ?_, ?_⟩
  · intro other hother
    have hs := (hsaved.kept.straight other hother).1
    rw [copiedTree_read hsrc hdst hs,
      if_neg (Ne.symm (hwalked.plan.apart other hother pair hpair))]
    split
    next hgone =>
      exact Or.inr ⟨hgone.1, item, hitem, pair, ⟨before, after, hsplit, hout, hopen⟩, hgone.2,
        hlanded⟩
    next =>
      rcases hsaved.removed other hother with hsame | ⟨hmode, owner, howner, taken, htakes, hrest⟩
      · exact Or.inl hsame
      · exact Or.inr ⟨hmode, owner, howner, taken, htakes, hrest.1,
          hstays taken (htakes.mem_filePlan howner) hrest.2⟩
  · intro hforce place held hunder hstart
    have hsource : pair.1 ≠ place := fun heq => hwalked.outside pair hpair (heq ▸ hunder)
    have hplace : pair.2 ≠ place := by
      rintro rfl
      have hread := hnone hforce
      rw [(hwalked.links pair hpair).2.read, hstart] at hread
      cases hread
    rw [copiedTree_files hdst hsource hplace]
    exact hsaved.old hforce place held hunder hstart

/-- The copies of an item keep what holds; where they stop, what is left is in its place. -/
theorem copyFiles_saved (hwalked : WalkedPlan dest items start) (hfree : CollisionFree host start)
    (hsafe : ImportSafe host options items start)
    (hsaved : Saved host options dest items start tree) (hitem : item ∈ items)
    {before files : List (List String × List String)} (hsplit : item.files = before ++ files)
    (hopen : ∀ stop ∈ before, Blocked host options.force start stop = false)
    (hnames : (files.map Prod.snd).Nodup) (hfresh : ∀ pair ∈ files, Fresh items start tree pair) :
    Saved host options dest items start (copyFiles host options files tree).2 ∧
      match (copyFiles host options files tree).1 with
      | .ok _ => item.Unblocked host options.force start
      | .error error => ∀ pair ∈ files, Landed start (copyFiles host options files tree).2 pair ∨
          error.path = placeText pair.1 := by
  induction files generalizing before tree with
  | nil =>
    refine ⟨hsaved, fun pair hpair => ?_⟩
    rw [hsplit, List.append_nil] at hpair
    exact hopen pair hpair
  | cons first rest ih =>
    obtain ⟨src, dst⟩ := first
    have hin : ∀ pair ∈ (src, dst) :: rest, pair ∈ filePlan items := fun pair hpair =>
      mem_filePlan hitem (hsplit ▸ List.mem_append_right _ hpair)
    have hmem := hin (src, dst) List.mem_cons_self
    obtain ⟨hnot, hnames⟩ := List.nodup_cons.mp hnames
    have hnext : item.files = (before ++ [(src, dst)]) ++ rest := by
      rw [hsplit, List.append_assoc, List.singleton_append]
    have hin' : ∀ pair ∈ rest, pair ∈ filePlan items := fun pair hpair =>
      hin pair (List.mem_cons_of_mem _ hpair)
    have hrest : ∀ pair ∈ rest, Fresh items start tree pair := fun pair hpair =>
      hfresh pair (List.mem_cons_of_mem _ hpair)
    -- what comes of the rest after a copy that succeeds
    have hgoes : ∀ outcome after, performCopy host options src dst tree = (.ok outcome, after) →
        Blocked host options.force start (src, dst) = false →
        Saved host options dest items start after →
        (∀ pair ∈ rest, Fresh items start after pair) →
        Saved host options dest items start (copyFiles host options ((src, dst) :: rest) tree).2 ∧
          match (copyFiles host options ((src, dst) :: rest) tree).1 with
          | .ok _ => item.Unblocked host options.force start
          | .error error => ∀ pair ∈ (src, dst) :: rest,
              Landed start (copyFiles host options ((src, dst) :: rest) tree).2 pair ∨
                error.path = placeText pair.1 := by
      intro outcome after hcopy hfirst hafter hlater
      obtain ⟨-, hlands, -⟩ := performCopy_kept hwalked.plan hfree hsaved.kept hmem
      rw [hcopy] at hlands
      obtain ⟨-, -, hstays⟩ := copyFiles_kept hwalked.plan hfree hafter.kept hin'
      obtain ⟨hend, hdone⟩ := ih hafter hnext
        (List.forall_mem_append.mpr ⟨hopen, List.forall_mem_singleton.mpr hfirst⟩) hnames hlater
      have hlanded := hstays _ hmem (hlands outcome rfl)
      rw [copyFiles, hcopy]
      dsimp only
      generalize copyFiles host options rest after = copied at hend hdone hlanded ⊢
      obtain ⟨result, last⟩ := copied
      cases result with
      | error error =>
        exact ⟨hend, List.forall_mem_cons.mpr ⟨Or.inl hlanded, hdone⟩⟩
      | ok outcomes => exact ⟨hend, hdone⟩
    rcases performCopy_fresh hwalked.plan hsaved.kept hmem (hfresh _ List.mem_cons_self).1 with
      ⟨error, hcopy, hwhy⟩ | ⟨outcome, hcopy, hfirst⟩ |
        ⟨outcome, bytes, hcopy, hbytes, hfirst, hout, hnone⟩
    · rw [copyFiles, hcopy]
      refine ⟨hsaved, List.forall_mem_cons.mpr ⟨Or.inr rfl, fun later hlater => Or.inl ?_⟩⟩
      rcases hwhy with hgone | hblocked
      · -- only the last file of an item has a source that another item may have deleted
        have hlast : (src, dst) ∈ item.files.dropLast := by
          rw [hsplit, List.dropLast_append_of_ne_nil (by simp), List.dropLast_cons_of_ne_nil
            (List.ne_nil_of_mem hlater)]
          simp
        have hsame := (hfresh _ List.mem_cons_self).2 (hwalked.unshared item hitem _ hlast)
        obtain ⟨bytes, hbytes⟩ := hwalked.there _ hmem
        rw [hgone, hbytes] at hsame
        cases hsame
      · have hpairwise := hsafe.followed item hitem
        rw [hsplit] at hpairwise
        have hplace : AtPlace start later :=
          (List.pairwise_cons.mp (List.pairwise_append.mp hpairwise).2.1).1 later hlater hblocked
        rcases hsaved.kept.target later (hin' later hlater) with hsame | hlanded
        · exact hsame.trans hplace
        · exact hlanded
    · exact hgoes outcome tree hcopy hfirst hsaved hrest
    · refine hgoes outcome _ hcopy hfirst (hsaved.copied hwalked hitem hsplit
        (List.forall_mem_append.mpr ⟨hopen, List.forall_mem_singleton.mpr hfirst⟩) hbytes hout hnone)
        fun pair hpair => (hrest pair hpair).copied hwalked.plan hsaved.kept hmem (hin' pair hpair) ?_ bytes
      exact fun heq => hnot (List.mem_map.mpr ⟨pair, hpair, heq.symm⟩)

/-- A change of the tree that no planned place sees keeps what holds. -/
theorem Saved.aside {start tree after : ImageTree β}
    (hsaved : Saved host options dest items start tree)
    (hkept : Kept options.mode items start after)
    (hread : ∀ pair ∈ filePlan items, after.read pair.1 = tree.read pair.1)
    (hstays : ∀ pair ∈ filePlan items, Landed start tree pair → Landed start after pair)
    (hold : options.force = false → ∀ place bytes, dest <+: place →
      start.files.get? place = some bytes → after.files.get? place = tree.files.get? place) :
    Saved host options dest items start after := by
  refine ⟨hkept, ?_, ?_⟩
  · intro pair hpair
    rw [hread pair hpair]
    rcases hsaved.removed pair hpair with hsame | ⟨hmode, owner, howner, taken, htakes, hrest⟩
    · exact Or.inl hsame
    · exact Or.inr ⟨hmode, owner, howner, taken, htakes, hrest.1,
        hstays taken (htakes.mem_filePlan howner) hrest.2⟩
  · intro hforce place bytes hunder hstart
    rw [hold hforce place bytes hunder hstart]
    exact hsaved.old hforce place bytes hunder hstart

theorem migrateFiles_saved {start : ImageTree β} {s : Importing β}
    (hwalked : WalkedPlan dest items start) (hfree : CollisionFree host start)
    (hsafe : ImportSafe host options items start)
    (hsaved : Saved host options dest items start s.tree) (hitem : item ∈ items)
    (hnames : (item.files.map Prod.snd).Nodup)
    (hfresh : ∀ pair ∈ item.files, Fresh items start s.tree pair) :
    Saved host options dest items start (migrateFiles host options item s).2.tree ∧
      ((migrateFiles host options item s).1 = true →
        item.Unblocked host options.force start) ∧
      ∀ pair ∈ item.files, Landed start (migrateFiles host options item s).2.tree pair ∨
        ∃ error ∈ (migrateFiles host options item s).2.manifest.errors,
          error.path = placeText pair.1 := by
  obtain ⟨hafter, hdone⟩ := copyFiles_saved hwalked hfree hsafe hsaved hitem
    (List.nil_append item.files).symm (fun stop h => absurd h List.not_mem_nil) hnames hfresh
  obtain ⟨-, hlanded, -⟩ := copyFiles_kept hwalked.plan hfree hsaved.kept
    (fun pair h => mem_filePlan hitem h)
  unfold migrateFiles
  generalize copyFiles host options item.files s.tree = copied at hafter hdone hlanded ⊢
  obtain ⟨result, after⟩ := copied
  cases result with
  | error error =>
    refine ⟨hafter, fun h => absurd h Bool.false_ne_true, fun pair hpair => ?_⟩
    refine (hdone pair hpair).imp_right fun hpath => ?_
    exact ⟨error, List.mem_append_right _ (List.mem_singleton.mpr rfl), hpath⟩
  | ok outcomes => exact ⟨hafter, fun _ => hdone, fun pair hpair => Or.inl (hlanded pair hpair)⟩

/-- The handle takes the place of no file that was there. -/
theorem ensureQemuCdromSymlink_saved (hwalked : WalkedPlan dest items start)
    (hsafe : ImportSafe host options items start)
    (hsaved : Saved host options dest items start tree) (hitem : item ∈ items)
    {bootDisk : Option String} (hkind : item.kind = .qemu bootDisk)
    (hopen : item.Unblocked host options.force start) :
    Saved host options dest items start (ensureQemuCdromSymlink item.dstDir bootDisk tree) := by
  obtain ⟨hkept, hstays⟩ := ensureQemuCdromSymlink_kept hwalked.plan hsaved.kept hitem hkind
  unfold ensureQemuCdromSymlink at hkept hstays ⊢
  cases bootDisk with
  | none => exact hsaved
  | some name =>
    dsimp only at hkept hstays ⊢
    split
    next => exact hsaved
    next hempty =>
      rw [if_neg hempty] at hkept hstays
      split
      next => exact hsaved
      next hname =>
        rw [dif_neg hname] at hkept hstays
        split
        next => exact hsaved
        next hheld =>
          rw [if_neg hheld] at hkept hstays
          refine hsaved.aside hkept ?_ hstays ?_
          · intro pair hpair
            exact linkCdrom_read (hwalked.plan.cdrom item hitem name hkind hname pair hpair).1
              (hsaved.kept.straight pair hpair).1
          · intro hforce place bytes _ hstart
            have hne : item.dstDir ++ ["cdrom.iso"] ≠ place := by
              rintro rfl
              rw [hsafe.cdrom hforce item hitem hopen name hkind hempty hname] at hstart
              cases hstart
            change (tree.files.pop (item.dstDir ++ ["cdrom.iso"])).get? place = _
            rw [Dict.get?_pop, if_neg hne]

/-- The marker takes the place of no other file that was there. -/
theorem marker_saved (hwalked : WalkedPlan dest items start)
    (hsafe : ImportSafe host options items start)
    (hsaved : Saved host options dest items start tree) (hitem : item ∈ items) {tag : String}
    (hkind : item.kind = .docker tag) (hbuild : host.dockerBuild (placeText item.srcDir) tag = none) :
    Saved host options dest items start
      (tree.put (item.dstDir ++ ["image.txt"]) (host.encode (tag ++ "\n"))) := by
  have hmarker := marker_straight tree item.dstDir
  obtain ⟨hkept, hstays⟩ := marker_kept hwalked.plan hsaved.kept hitem hkind
    (host.encode (tag ++ "\n"))
  refine hsaved.aside hkept ?_ hstays ?_
  · intro pair hpair
    rw [put_read hmarker (hsaved.kept.straight pair hpair).1,
      if_neg (Ne.symm (hwalked.plan.marker item hitem tag hkind pair hpair).1)]
  · intro hforce place bytes hunder hstart
    change (tree.files.set (tree.resolve (item.dstDir ++ ["image.txt"])) _).get? place = _
    rw [hmarker, Dict.get?_set]
    split
    next heq =>
      subst heq
      rw [hsaved.old hforce _ bytes hunder hstart,
        hsafe.marker hforce item hitem tag hkind hbuild bytes hstart]
    next => rfl

/-- The step of a run: an item keeps what holds, and each file of it is at its place or reported. -/
theorem migrateItem_saved {start : ImageTree β} {s : Importing β}
    (hwalked : WalkedPlan dest items start) (hfree : CollisionFree host start)
    (hsafe : ImportSafe host options items start)
    (hsaved : Saved host options dest items start s.tree) (hitem : item ∈ items)
    (hdocker : ∀ tag, item.kind = .docker tag → item.files = [])
    (hnames : (item.files.map Prod.snd).Nodup)
    (hfresh : ∀ pair ∈ item.files, Fresh items start s.tree pair) :
    Saved host options dest items start (migrateItem host options s item).tree ∧
      ∀ pair ∈ item.files, Landed start (migrateItem host options s item).tree pair ∨
        ∃ error ∈ (migrateItem host options s item).manifest.errors,
          error.path = placeText pair.1 := by
  obtain ⟨hafter, hopen, hdone⟩ :=
    migrateFiles_saved hwalked hfree hsafe hsaved hitem hnames hfresh
  unfold migrateItem
  cases hkind : item.kind with
  | qemu bootDisk =>
    dsimp only [migrateQemu]
    generalize migrateFiles host options item s = moved at hafter hopen hdone ⊢
    obtain ⟨good, after⟩ := moved
    cases good with
    | false => exact ⟨hafter, hdone⟩
    | true =>
      refine ⟨ensureQemuCdromSymlink_saved hwalked hsafe hafter hitem hkind (hopen rfl), ?_⟩
      obtain ⟨-, hstays⟩ := ensureQemuCdromSymlink_kept hwalked.plan hafter.kept hitem hkind
      exact fun pair hpair => (hdone pair hpair).imp_left (hstays pair (mem_filePlan hitem hpair))
  | dynamips => exact ⟨hafter, hdone⟩
  | iol iourcPresent =>
    dsimp only [migrateIol]
    generalize migrateFiles host options item s = moved at hafter hopen hdone ⊢
    obtain ⟨good, after⟩ := moved
    cases good with
    | false => exact ⟨hafter, hdone⟩
    | true =>
      cases iourcPresent with
      | true => exact ⟨hafter, hdone⟩
      | false => exact ⟨hafter, hdone⟩
  | docker tag =>
    refine ⟨?_, fun pair hpair => absurd (hdocker tag hkind ▸ hpair) List.not_mem_nil⟩
    dsimp only [migrateDocker]
    split
    next => exact hsaved
    next hbuild => exact marker_saved hwalked hsafe hsaved hitem hkind hbuild

/-- A source that has one place is at no place of another item. -/
theorem Walked.source_apart {source dest : List String} {start : ImageTree β}
    (hwalked : WalkedPlan dest items start) (hwalks : ∀ item ∈ items, Walked source dest item)
    {item other : MigrationItem} (hitem : item ∈ items) (hother : other ∈ items)
    (hne : item.dstDir ≠ other.dstDir) (hpair : pair ∈ item.files) (hunshared : Unshared items pair) :
    pair.1 ∉ other.places := by
  have hmem := mem_filePlan hitem hpair
  have hmade : ∀ name, pair.1 ≠ other.dstDir ++ [name] := fun name heq =>
    hwalked.outside pair hmem (heq ▸ (hwalks other hother).dest.trans (List.prefix_append _ _))
  intro hplaces
  rcases List.mem_append.mp hplaces with hfile | hmore
  · obtain ⟨owned, howned, hplace⟩ := List.mem_flatMap.mp hfile
    have hin := mem_filePlan hother howned
    rcases List.mem_cons.mp hplace with heq | hlast
    · obtain rfl := hunshared owned hin heq.symm
      obtain ⟨-, name, hname⟩ := (hwalks item hitem).files owned hpair
      obtain ⟨-, name', hname'⟩ := (hwalks other hother).files owned howned
      exact hne (List.append_inj' (hname.symm.trans hname') rfl).1
    · exact hwalked.plan.apart pair hmem owned hin (List.mem_singleton.mp hlast)
  · rcases List.mem_cons.mp hmore with heq | hlast
    · exact hmade _ heq
    · exact hmade _ (List.mem_singleton.mp hlast)

theorem runMigration_saved {source dest : List String} {start : ImageTree β}
    (hwalked : WalkedPlan dest items start) (hwalks : ∀ item ∈ items, Walked source dest item)
    (hfree : CollisionFree host start) (hsafe : ImportSafe host options items start)
    {now : List MigrationItem} (hnow : ∀ item ∈ now, item ∈ items)
    (hdirs : (now.map (fun item => item.dstDir)).Nodup) {s : Importing β}
    (hsaved : Saved host options dest items start s.tree)
    (hfresh : ∀ item ∈ now, ∀ pair ∈ item.files, Fresh items start s.tree pair) :
    Saved host options dest items start (runMigration host options now s).tree ∧
      ∀ item ∈ now, ∀ pair ∈ item.files,
        Landed start (runMigration host options now s).tree pair ∨
          ∃ error ∈ (runMigration host options now s).manifest.errors,
            error.path = placeText pair.1 := by
  have hdocker : ∀ item ∈ items, ∀ tag, item.kind = .docker tag → item.files = [] :=
    fun item hitem => (hwalks item hitem).docker
  induction now generalizing s with
  | nil => exact ⟨hsaved, fun item h => absurd h List.not_mem_nil⟩
  | cons first rest ih =>
    have hitem := hnow first List.mem_cons_self
    have hrest : ∀ item ∈ rest, item ∈ items := fun item h => hnow item (List.mem_cons_of_mem _ h)
    obtain ⟨hfirst, hdirs⟩ := List.nodup_cons.mp hdirs
    obtain ⟨hafter, hdone⟩ := migrateItem_saved hwalked hfree hsafe hsaved hitem
      (hdocker first hitem) (hwalks first hitem).names (hfresh first List.mem_cons_self)
    have hleaves : s.tree.Leaves (migrateItem host options s first).tree first.places
        [first.dstDir] := by
      refine migrateItem_leaves fun pair hpair => ?_
      have hmem := mem_filePlan hitem hpair
      obtain ⟨hs, hd⟩ := hsaved.kept.straight pair hmem
      exact ⟨hs, hd, hwalked.plan.apart pair hmem pair hmem⟩
    have hlater : ∀ item ∈ rest, ∀ pair ∈ item.files,
        Fresh items start (migrateItem host options s first).tree pair := by
      intro item hin pair hpair
      have hmem := mem_filePlan (hrest item hin) hpair
      have hne : item.dstDir ≠ first.dstDir := fun heq =>
        hfirst (List.mem_map.mpr ⟨item, hin, heq⟩)
      obtain ⟨hdst, hsrc⟩ := hfresh item (List.mem_cons_of_mem _ hin) pair hpair
      obtain ⟨hs, hd⟩ := hafter.kept.straight pair hmem
      obtain ⟨hs', hd'⟩ := hsaved.kept.straight pair hmem
      constructor
      · rw [← hdst, hd.read, hd'.read]
        exact hleaves.files _
          (Walked.places_apart hwalked.plan hwalks (hrest item hin) hitem hne hpair)
      · intro hunshared
        rw [← hsrc hunshared, hs.read, hs'.read]
        exact hleaves.files _
          (Walked.source_apart hwalked hwalks (hrest item hin) hitem hne hpair hunshared)
    obtain ⟨hend, hall⟩ := ih hrest hdirs hafter hlater
    obtain ⟨-, -, -, hgrow, hstays⟩ :=
      runMigration_kept hwalked.plan hfree hdocker hrest hafter.kept
    refine ⟨hend, fun item hmem pair hpair => ?_⟩
    rcases List.mem_cons.mp hmem with rfl | hin
    · refine (hdone pair hpair).imp (hstays pair (mem_filePlan hitem hpair)) ?_
      rintro ⟨error, herror, hpath⟩
      exact ⟨error, hgrow.subset herror, hpath⟩
    · exact hall item hin pair hpair

/-- A source that was deleted is at all its places. -/
theorem Saved.source_landed (hwalked : WalkedPlan dest items start)
    (hsafe : ImportSafe host options items start)
    (hsaved : Saved host options dest items start tree) (hpair : pair ∈ filePlan items)
    (hgone : tree.read pair.1 ≠ start.read pair.1) :
    Landed start tree pair := by
  rcases hsaved.removed pair hpair with hsame | ⟨hmode, item, hitem, taken, htakes, hsource, hlanded⟩
  · exact absurd hsame hgone
  · by_cases heq : pair = taken
    · exact heq ▸ hlanded
    · obtain ⟨before, after, hsplit, hout, hopen⟩ := htakes
      have hmem : taken ∈ item.files := by simp [hsplit]
      rcases hsafe.shared hmode item hitem taken hmem pair hpair hsource.symm heq with
        hplace | hplace | hblocked
      · exact absurd hplace hout
      · rcases hsaved.kept.target pair hpair with hsame | hthere
        · exact hsame.trans hplace
        · exact hthere
      · -- a file with two places is the last of its item, so nothing after it can be blocked
        refine absurd ?_ hblocked
        cases after with
        | nil => exact fun stop hstop => hopen stop (hsplit ▸ hstop)
        | cons next rest =>
          have hlast : taken ∈ item.files.dropLast := by
            rw [hsplit, List.dropLast_append_of_ne_nil (by simp),
              List.dropLast_cons_of_ne_nil (by simp)]
            simp
          exact absurd (hwalked.unshared item hitem taken hlast pair hpair hsource.symm) heq

/-- A destination that has an older image with the licence, and a disk of its own. -/
def busyFiles : Dict (List String) String :=
  ((smallFiles.set ["images", "iol", "l3", "l3.bin"] "older image").set
    ["images", "iol", "l3", "iourc"] "licence").set ["images", "qemu", "vios", "hda.qcow2"] "own"

def busyTree : ImageTree String := .ofFiles busyFiles

def busyDisk : MigrationItem where
  kind := .qemu (some "virtioa.qcow2")
  imageKey := "vios"
  srcDir := ["opt", "addons", "qemu", "vios"]
  dstDir := ["images", "qemu", "vios"]
  files := [(smallDisk, ["images", "qemu", "vios", "virtioa.qcow2"])]

def busyImage : MigrationItem where
  kind := .iol true
  imageKey := "l3"
  srcDir := ["opt", "addons", "iol", "bin"]
  dstDir := ["images", "iol", "l3"]
  files := [(["opt", "addons", "iol", "bin", "l3.bin"], ["images", "iol", "l3", "l3.bin"]),
    (["opt", "addons", "iol", "bin", "iourc"], ["images", "iol", "l3", "iourc"])]

theorem busyTree_walked : walkAll busyTree ["opt"] ["images"] = [busyDisk, busyImage] := by
  decide +kernel

theorem busyTree_safe : ImportSafe plainImportHost ⟨.deleteSource, false⟩
    (walkAll busyTree ["opt"] ["images"]) busyTree := by
  rw [busyTree_walked]
  constructor
  · exact fun pair _ => ⟨ofFiles_straight busyFiles pair.1, ofFiles_straight busyFiles pair.2⟩
  · decide +kernel
  · intro _
    decide +kernel
  · intro _ item hitem _ name hkind _ _
    rcases List.mem_cons.mp hitem with rfl | hlast
    · decide +kernel
    · rw [List.mem_singleton.mp hlast] at hkind
      cases hkind
  · intro _ item hitem tag hkind
    rcases List.mem_cons.mp hitem with rfl | hlast
    · cases hkind
    · rw [List.mem_singleton.mp hlast] at hkind
      cases hkind

/-- Two images with one licence. -/
def licenceTree : ImageTree String :=
  .ofFiles (((Dict.empty.set ["opt", "addons", "iol", "bin", "a.bin"] "first image").set
    ["opt", "addons", "iol", "bin", "b.bin"] "second image").set
      ["opt", "addons", "iol", "bin", "iourc"] "licence")

end NovaVe
