import NovaVe.Dict
import Mathlib.Data.List.Dedup
import Mathlib.Data.List.Sort
import Mathlib.Data.List.TakeDrop
import Mathlib.Data.String.Basic

namespace NovaVe

/-- The files of a host by their place, and where the link `cdrom.iso` of a folder leads. -/
structure ImageTree (β : Type) where
  files : Dict (List String) β
  handles : Dict (List String) String
  notCdrom : ∀ folder name, handles.get? folder = some name → name ≠ "cdrom.iso"
  apart : ∀ folder name, handles.get? folder = some name →
    files.get? (folder ++ ["cdrom.iso"]) = none

variable {β : Type} {tree : ImageTree β} {bytes : β}

/-- The place that a place stands for. -/
def ImageTree.resolve {β : Type} (tree : ImageTree β) (place : List String) : List String :=
  if place.getLast? = some "cdrom.iso" then
    match tree.handles.get? place.dropLast with
    | some name => place.dropLast ++ [name]
    | none => place
  else place

def ImageTree.read {β : Type} (tree : ImageTree β) (place : List String) : Option β :=
  tree.files.get? (tree.resolve place)

/-- The places where a listing finds a file, also at the end of a link. -/
def ImageTree.listed {β : Type} (tree : ImageTree β) : List (List String) :=
  tree.files.keys ++ (tree.handles.keys.map (fun folder => folder ++ ["cdrom.iso"])).filter
    (fun place => (tree.read place).isSome)

theorem handle_of_resolve_ne {place : List String} (h : tree.resolve place ≠ place) :
    ∃ folder name, place = folder ++ ["cdrom.iso"] ∧
      tree.handles.get? folder = some name := by
  unfold ImageTree.resolve at h
  split at h
  next hlast =>
    obtain ⟨folder, rfl⟩ := List.getLast?_eq_some_iff.mp hlast
    rw [List.dropLast_concat] at h
    cases hname : tree.handles.get? folder with
    | some name => exact ⟨folder, name, rfl, hname⟩
    | none =>
      rw [hname] at h
      exact absurd rfl h
  next => exact absurd rfl h

theorem mem_listed {place : List String} :
    place ∈ tree.listed ↔ (tree.read place).isSome = true := by
  unfold ImageTree.listed
  rw [List.mem_append, List.mem_filter, List.mem_map]
  by_cases hlink : tree.resolve place = place
  · have hread : tree.read place = tree.files.get? place := by
      unfold ImageTree.read
      rw [hlink]
    rw [hread]
    constructor
    · rintro (hkey | ⟨-, hsome⟩)
      · exact assocGet_isSome_iff.mpr hkey
      · exact hsome
    · exact fun hsome => Or.inl (assocGet_isSome_iff.mp hsome)
  · obtain ⟨folder, name, rfl, hname⟩ := handle_of_resolve_ne hlink
    constructor
    · rintro (hkey | ⟨-, hsome⟩)
      · have hthere : (tree.files.get? (folder ++ ["cdrom.iso"])).isSome = true :=
          assocGet_isSome_iff.mpr hkey
        rw [tree.apart folder name hname] at hthere
        cases hthere
      · exact hsome
    · intro hsome
      have hkey : folder ∈ tree.handles.keys := by
        rw [Dict.mem_keys_iff, hname]
        rfl
      exact Or.inr ⟨⟨folder, hkey, rfl⟩, hsome⟩

theorem listed_nodup (tree : ImageTree β) : tree.listed.Nodup := by
  refine List.Nodup.append tree.files.keysNodup (List.Nodup.filter _ ?_) ?_
  · refine tree.handles.keysNodup.map ?_
    intro folder other h
    exact (List.append_inj' h rfl).1
  · intro place hkey hlink
    obtain ⟨folder, hfolder, rfl⟩ := List.mem_map.mp (List.mem_filter.mp hlink).1
    obtain ⟨name, hname⟩ := Option.isSome_iff_exists.mp (Dict.mem_keys_iff.mp hfolder)
    have hthere : (tree.files.get? (folder ++ ["cdrom.iso"])).isSome = true :=
      assocGet_isSome_iff.mpr hkey
    rw [tree.apart folder name hname] at hthere
    cases hthere

theorem resolve_cdrom {place folder : List String}
    (h : tree.resolve place = folder ++ ["cdrom.iso"]) : tree.handles.get? folder = none := by
  unfold ImageTree.resolve at h
  split at h
  next hlast =>
    have hplace : place.dropLast ++ ["cdrom.iso"] = place := by
      obtain ⟨front, rfl⟩ := List.getLast?_eq_some_iff.mp hlast
      rw [List.dropLast_concat]
    split at h
    next name hname =>
      obtain ⟨-, heq⟩ := List.append_inj' h rfl
      exact absurd (List.singleton_inj.mp heq) (tree.notCdrom _ _ hname)
    next hnone =>
      rw [← hplace] at h
      obtain ⟨heq, -⟩ := List.append_inj' h rfl
      exact heq ▸ hnone
  next hlast =>
    rw [h, List.getLast?_concat] at hlast
    exact absurd rfl hlast

/-- `shutil.copy2` to a place: the link there is followed. -/
def ImageTree.put {β : Type} (tree : ImageTree β) (place : List String) (bytes : β) :
    ImageTree β where
  files := tree.files.set (tree.resolve place) bytes
  handles := tree.handles
  notCdrom := tree.notCdrom
  apart folder name h := by
    have hne : tree.resolve place ≠ folder ++ ["cdrom.iso"] := by
      intro heq
      rw [resolve_cdrom heq] at h
      cases h
    rw [Dict.get?_set_ne _ _ hne]
    exact tree.apart folder name h

/-- `unlink`: of a link, not of what it leads to. -/
def ImageTree.unlink {β : Type} (tree : ImageTree β) (place : List String) : ImageTree β where
  files := tree.files.pop place
  handles := if place.getLast? = some "cdrom.iso" then tree.handles.pop place.dropLast
    else tree.handles
  notCdrom folder name h := by
    refine tree.notCdrom folder name ?_
    split at h
    next =>
      rw [Dict.get?_pop] at h
      split at h
      next => cases h
      next => exact h
    next => exact h
  apart folder name h := by
    rw [Dict.get?_pop]
    split
    next => rfl
    next =>
      refine tree.apart folder name ?_
      split at h
      next =>
        rw [Dict.get?_pop] at h
        split at h
        next => cases h
        next => exact h
      next => exact h

/-- `symlink_to` at the free place `cdrom.iso` of a folder. -/
def ImageTree.linkCdrom {β : Type} (tree : ImageTree β) (folder : List String) (name : String)
    (hname : name ≠ "cdrom.iso") : ImageTree β where
  files := tree.files.pop (folder ++ ["cdrom.iso"])
  handles := tree.handles.set folder name
  notCdrom other held h := by
    rw [Dict.get?_set] at h
    split at h
    next => exact Option.some.inj h ▸ hname
    next => exact tree.notCdrom other held h
  apart other held h := by
    rw [Dict.get?_set] at h
    rw [Dict.get?_pop]
    split
    next => rfl
    next hne =>
      split at h
      next heq => exact absurd (congrArg (· ++ ["cdrom.iso"]) heq) hne
      next => exact tree.apart other held h

inductive CopyMode
  | default | deleteSource | move
deriving DecidableEq, Repr

def CopyMode.value : CopyMode → String
  | .default => "default"
  | .deleteSource => "delete-source"
  | .move => "move"

inductive CopyStatus
  | imported | skipped
deriving DecidableEq, Repr

structure CopyOutcome where
  src : String
  dst : String
  bytes : Nat
  sha256 : String
  mode : String
  status : CopyStatus
  reason : Option String
  sourceDeleted : Bool
deriving DecidableEq, Repr

structure ImportedEntry where
  src : String
  dst : String
  sha256 : String
  bytes : Nat
  mode : String
deriving DecidableEq, Repr

structure SkippedEntry where
  src : String
  dst : String
  reason : String
deriving DecidableEq, Repr

structure ErrorEntry where
  path : String
  error : String
deriving DecidableEq, Repr

structure TemplateEntry where
  name : String
  status : String
  reason : String
deriving DecidableEq, Repr

structure ImportManifest where
  imported : List ImportedEntry
  templates : List TemplateEntry
  skipped : List SkippedEntry
  errors : List ErrorEntry
deriving DecidableEq, Repr

/-- What the importer uses of the host; a build gives the text of its error, if it fails. -/
structure ImportHost (β : Type) where
  sha256 : β → String
  size : β → Nat
  encode : String → β
  dockerBuild : String → String → Option String

structure MigrateOptions where
  mode : CopyMode
  force : Bool

def placeText (place : List String) : String := "/" ++ String.intercalate "/" place

/-- The copy of `perform_copy` and what comes after it. -/
def copyAndVerify {β : Type} (host : ImportHost β) (mode : CopyMode) (src dst : List String)
    (bytes : β) (tree : ImageTree β) : Except String CopyOutcome × ImageTree β :=
  let copied := tree.put dst bytes
  match mode with
  | .move => (.ok ⟨placeText src, placeText dst, host.size bytes, "", mode.value, .imported, none,
      true⟩, copied.unlink src)
  | _ =>
    if (copied.read src).map host.sha256 = (copied.read dst).map host.sha256 then
      let deleted := decide (mode = .deleteSource)
      (.ok ⟨placeText src, placeText dst, host.size bytes, host.sha256 bytes, mode.value, .imported,
        none, deleted⟩, if deleted then copied.unlink src else copied)
    else (.error ("sha256 mismatch after copy: " ++ placeText src ++ " (" ++
      ((copied.read src).map host.sha256).getD "" ++ ") -> " ++ placeText dst ++ " (" ++
        ((copied.read dst).map host.sha256).getD "" ++ ")"), copied)

def performCopy {β : Type} (host : ImportHost β) (options : MigrateOptions)
    (src dst : List String) (tree : ImageTree β) : Except String CopyOutcome × ImageTree β :=
  match tree.read src, tree.read dst with
  | none, _ => (.error ("source is not a regular file: " ++ placeText src), tree)
  | some bytes, none => copyAndVerify host options.mode src dst bytes tree
  | some bytes, some old =>
    if host.sha256 bytes = host.sha256 old then
      (.ok ⟨placeText src, placeText dst, host.size bytes, host.sha256 bytes, options.mode.value,
        .skipped, some "exists, sha256 match", false⟩, tree)
    else if options.force then copyAndVerify host options.mode src dst bytes tree
    else (.error ("destination exists with different sha256: " ++ placeText dst ++
      " (use --force to overwrite)"), tree)

inductive ImportKind
  | qemu (bootDisk : Option String)
  | dynamips
  | iol (iourcPresent : Bool)
  | docker (imageTag : String)
deriving DecidableEq, Repr

structure MigrationItem where
  kind : ImportKind
  imageKey : String
  srcDir : List String
  dstDir : List String
  files : List (List String × List String)
deriving DecidableEq, Repr

structure Importing (β : Type) where
  tree : ImageTree β
  manifest : ImportManifest

/-- The copies of an item, up to the first error. -/
def copyFiles {β : Type} (host : ImportHost β) (options : MigrateOptions) :
    List (List String × List String) → ImageTree β →
      Except ErrorEntry (List CopyOutcome) × ImageTree β
  | [], tree => (.ok [], tree)
  | (src, dst) :: rest, tree =>
    match performCopy host options src dst tree with
    | (.error error, tree) => (.error ⟨placeText src, error⟩, tree)
    | (.ok outcome, tree) =>
      match copyFiles host options rest tree with
      | (.error error, tree) => (.error error, tree)
      | (.ok outcomes, tree) => (.ok (outcome :: outcomes), tree)

/-- `_record_imported_files`. -/
def recordImportedFiles (manifest : ImportManifest) (outcomes : List CopyOutcome) :
    ImportManifest where
  imported := manifest.imported ++ (outcomes.filter (fun outcome => outcome.status = .imported)).map
    (fun outcome => ⟨outcome.src, outcome.dst, outcome.sha256, outcome.bytes, outcome.mode⟩)
  templates := manifest.templates
  skipped := manifest.skipped ++ (outcomes.filter (fun outcome => outcome.status = .skipped)).map
    (fun outcome => ⟨outcome.src, outcome.dst, outcome.reason.getD ""⟩)
  errors := manifest.errors

/-- `_migrate_files`. -/
def migrateFiles {β : Type} (host : ImportHost β) (options : MigrateOptions)
    (item : MigrationItem) (s : Importing β) : Bool × Importing β :=
  match copyFiles host options item.files s.tree with
  | (.error error, tree) =>
    (false, ⟨tree, { s.manifest with errors := s.manifest.errors ++ [error] }⟩)
  | (.ok outcomes, tree) => (true, ⟨tree, recordImportedFiles s.manifest outcomes⟩)

/-- `_ensure_qemu_cdrom_symlink`. -/
def ensureQemuCdromSymlink {β : Type} (dstDir : List String) (bootDisk : Option String)
    (tree : ImageTree β) : ImageTree β :=
  match bootDisk with
  | none => tree
  | some bootDisk =>
    if bootDisk = "" then tree
    else if h : bootDisk = "cdrom.iso" then tree
    else if tree.handles.get? dstDir = some bootDisk then tree
    else tree.linkCdrom dstDir bootDisk h

def migrateQemu {β : Type} (host : ImportHost β) (options : MigrateOptions) (item : MigrationItem)
    (bootDisk : Option String) (s : Importing β) : Importing β :=
  match migrateFiles host options item s with
  | (false, s) => s
  | (true, s) => { s with tree := ensureQemuCdromSymlink item.dstDir bootDisk s.tree }

def migrateDynamips {β : Type} (host : ImportHost β) (options : MigrateOptions)
    (item : MigrationItem) (s : Importing β) : Importing β :=
  (migrateFiles host options item s).2

def migrateIol {β : Type} (host : ImportHost β) (options : MigrateOptions) (item : MigrationItem)
    (iourcPresent : Bool) (s : Importing β) : Importing β :=
  match migrateFiles host options item s with
  | (false, s) => s
  | (true, s) =>
    if iourcPresent then s
    else
      { s with
        manifest := { s.manifest with
          templates := s.manifest.templates ++ [⟨item.imageKey, "needs-manual-review",
            "iol image found but iourc license file is missing"⟩] } }

def migrateDocker {β : Type} (host : ImportHost β) (options : MigrateOptions)
    (item : MigrationItem) (imageTag : String) (s : Importing β) : Importing β :=
  match host.dockerBuild (placeText item.srcDir) imageTag with
  | some error =>
    { s with
      manifest := { s.manifest with
        errors := s.manifest.errors ++
          [⟨placeText item.srcDir, "docker build failed: " ++ error⟩] } }
  | none =>
    let marker := host.encode (imageTag ++ "\n")
    { tree := s.tree.put (item.dstDir ++ ["image.txt"]) marker,
      manifest := { s.manifest with
        imported := s.manifest.imported ++ [⟨placeText item.srcDir,
          placeText (item.dstDir ++ ["image.txt"]), "", host.size marker, options.mode.value⟩] } }

def migrateItem {β : Type} (host : ImportHost β) (options : MigrateOptions) (s : Importing β)
    (item : MigrationItem) : Importing β :=
  match item.kind with
  | .qemu bootDisk => migrateQemu host options item bootDisk s
  | .dynamips => migrateDynamips host options item s
  | .iol iourcPresent => migrateIol host options item iourcPresent s
  | .docker imageTag => migrateDocker host options item imageTag s

def runMigration {β : Type} (host : ImportHost β) (options : MigrateOptions)
    (items : List MigrationItem) (s : Importing β) : Importing β :=
  items.foldl (migrateItem host options) s

/-- The stem and the suffix of a name. -/
def suffixSplit (name : String) : String × String :=
  match name.toList.reverse.span (fun c => decide (c ≠ '.')) with
  | (c :: ending, '.' :: d :: stem) =>
    (String.ofList (d :: stem).reverse, String.ofList ('.' :: (c :: ending).reverse))
  | _ => (name, "")

def sortedNames (names : List String) : List String :=
  names.insertionSort (fun a b => a.toList ≤ b.toList)

/-- The regular files of a folder. -/
def fileNames (keys : List (List String)) (folder : List String) : List String :=
  sortedNames (keys.filterMap (fun place =>
    if place.dropLast = folder then place.getLast? else none))

/-- The folders in a folder, which are those with a file in them. -/
def folderNames (keys : List (List String)) (folder : List String) : List String :=
  sortedNames (keys.filterMap (fun place =>
    if folder <+: place.dropLast then (place.dropLast.drop folder.length).head? else none)).dedup

/-- `_pick_qemu_boot_disk`. -/
def pickQemuBootDisk (names : List String) : Option String :=
  (["cdrom.iso", "virtioa.qcow2", "hda.qcow2"].find? (fun name => decide (name ∈ names))).or
    (names.find? (fun name => decide ((suffixSplit name).2 = ".qcow2")))

def walkQemu (keys : List (List String)) (source dest : List String) : List MigrationItem :=
  let qemu := source ++ ["addons", "qemu"]
  (folderNames keys qemu).map (fun imageKey =>
    let names := fileNames keys (qemu ++ [imageKey])
    let dstDir := dest ++ ["qemu", imageKey]
    { kind := .qemu (pickQemuBootDisk names), imageKey, srcDir := qemu ++ [imageKey], dstDir,
      files := names.map (fun name => (qemu ++ [imageKey, name], dstDir ++ [name])) })

def walkDynamips (keys : List (List String)) (source dest : List String) : List MigrationItem :=
  let dynamips := source ++ ["addons", "dynamips"]
  ((fileNames keys dynamips).filter (fun name => (suffixSplit name).2 = ".image")).map
    (fun name =>
      let dstDir := dest ++ ["dynamips", (suffixSplit name).1]
      { kind := .dynamips, imageKey := (suffixSplit name).1, srcDir := dynamips, dstDir,
        files := [(dynamips ++ [name], dstDir ++ [name])] })

def walkIol (keys : List (List String)) (source dest : List String) : List MigrationItem :=
  let iol := source ++ ["addons", "iol", "bin"]
  let iourcPresent := decide ("iourc" ∈ fileNames keys iol)
  ((fileNames keys iol).filter (fun name => (suffixSplit name).2 = ".bin")).map (fun name =>
    let dstDir := dest ++ ["iol", (suffixSplit name).1]
    { kind := .iol iourcPresent, imageKey := (suffixSplit name).1, srcDir := iol, dstDir,
      files := (iol ++ [name], dstDir ++ [name]) ::
        (if iourcPresent then [(iol ++ ["iourc"], dstDir ++ ["iourc"])] else []) })

def walkDocker (keys : List (List String)) (source dest : List String) : List MigrationItem :=
  let docker := source ++ ["addons", "docker"]
  ((folderNames keys docker).filter
    (fun name => decide ("Dockerfile" ∈ fileNames keys (docker ++ [name])))).map (fun name =>
      { kind := .docker ("nova-ve/" ++ name ++ ":latest"), imageKey := name,
        srcDir := docker ++ [name], dstDir := dest ++ ["docker", name], files := [] })

def walkAll {β : Type} (tree : ImageTree β) (source dest : List String) : List MigrationItem :=
  walkQemu tree.listed source dest ++ walkDynamips tree.listed source dest ++
    walkIol tree.listed source dest ++ walkDocker tree.listed source dest

/-- The entry of a file in the plan; no source is hashed where the destination is missing. -/
def planFiles {β : Type} (host : ImportHost β) (mode : CopyMode) (tree : ImageTree β)
    (manifest : ImportManifest) (pair : List String × List String) : ImportManifest :=
  match tree.read pair.1, tree.read pair.2 with
  | some bytes, some old =>
    if host.sha256 bytes = host.sha256 old then
      { manifest with
        skipped := manifest.skipped ++
          [⟨placeText pair.1, placeText pair.2, "exists, sha256 match"⟩] }
    else
      { manifest with
        imported := manifest.imported ++ [⟨placeText pair.1, placeText pair.2, host.sha256 bytes,
          host.size bytes, "dry-run/" ++ mode.value⟩] }
  | bytes, _ =>
    { manifest with
      imported := manifest.imported ++ [⟨placeText pair.1, placeText pair.2, "",
        (bytes.map host.size).getD 0, "dry-run/" ++ mode.value⟩] }

def planItem {β : Type} (host : ImportHost β) (mode : CopyMode) (tree : ImageTree β)
    (manifest : ImportManifest) (item : MigrationItem) : ImportManifest :=
  match item.kind, item.files with
  | .docker _, [] =>
    { manifest with
      imported := manifest.imported ++ [⟨placeText item.srcDir,
        placeText (item.dstDir ++ ["image.txt"]), "", 0, "dry-run/" ++ mode.value⟩] }
  | _, files => files.foldl (planFiles host mode tree) manifest

/-- `_emit_dry_run_plan`. -/
def emitDryRunPlan {β : Type} (host : ImportHost β) (mode : CopyMode) (tree : ImageTree β)
    (items : List MigrationItem) (manifest : ImportManifest) : ImportManifest :=
  items.foldl (planItem host mode tree) manifest

/-- A place that is no link. -/
def ImageTree.Straight {β : Type} (tree : ImageTree β) (place : List String) : Prop :=
  tree.resolve place = place

theorem ImageTree.Straight.read {place : List String} (h : tree.Straight place) :
    tree.read place = tree.files.get? place := by
  unfold ImageTree.read
  rw [h]

theorem ImageTree.Straight.unlinked {place : List String} (h : tree.Straight place)
    (hlast : place.getLast? = some "cdrom.iso") :
    tree.handles.get? place.dropLast = none := by
  obtain ⟨front, rfl⟩ := List.getLast?_eq_some_iff.mp hlast
  rw [List.dropLast_concat]
  exact resolve_cdrom h

theorem put_straight {place other : List String} (h : tree.Straight other) :
    (tree.put place bytes).Straight other := h

theorem put_read {place other : List String} (hplace : tree.Straight place)
    (hother : tree.Straight other) :
    (tree.put place bytes).read other = if place = other then some bytes else tree.read other := by
  rw [(put_straight hother).read, hother.read]
  change (tree.files.set (tree.resolve place) bytes).get? other = _
  rw [hplace, Dict.get?_set]

theorem unlink_handles {place : List String} (h : tree.Straight place) (folder : List String) :
    (tree.unlink place).handles.get? folder = tree.handles.get? folder := by
  change (if place.getLast? = some "cdrom.iso" then tree.handles.pop place.dropLast
    else tree.handles).get? folder = _
  split
  next hlast =>
    rw [Dict.get?_pop]
    split
    next heq => rw [← heq, h.unlinked hlast]
    next => rfl
  next => rfl

theorem unlink_straight {place other : List String} (hplace : tree.Straight place)
    (h : tree.Straight other) :
    (tree.unlink place).Straight other := by
  unfold ImageTree.Straight ImageTree.resolve at h ⊢
  rwa [unlink_handles hplace]

theorem unlink_read {place other : List String} (hplace : tree.Straight place)
    (hother : tree.Straight other) :
    (tree.unlink place).read other = if place = other then none else tree.read other := by
  rw [(unlink_straight hplace hother).read, hother.read]
  change (tree.files.pop place).get? other = _
  rw [Dict.get?_pop]

theorem linkCdrom_straight {folder other : List String} {name : String} {hname : name ≠ "cdrom.iso"}
    (hne : other ≠ folder ++ ["cdrom.iso"]) (h : tree.Straight other) :
    (tree.linkCdrom folder name hname).Straight other := by
  unfold ImageTree.Straight ImageTree.resolve at h ⊢
  split
  next hlast =>
    rw [if_pos hlast] at h
    obtain ⟨front, rfl⟩ := List.getLast?_eq_some_iff.mp hlast
    have hfolder : folder ≠ front := fun heq => hne (heq ▸ rfl)
    rw [List.dropLast_concat] at h ⊢
    change (match (tree.handles.set folder name).get? front with
      | some held => front ++ [held]
      | none => front ++ ["cdrom.iso"]) = _
    rwa [Dict.get?_set_ne _ _ hfolder]
  next => rfl

theorem linkCdrom_read {folder other : List String} {name : String} {hname : name ≠ "cdrom.iso"}
    (hne : other ≠ folder ++ ["cdrom.iso"]) (h : tree.Straight other) :
    (tree.linkCdrom folder name hname).read other = tree.read other := by
  rw [(linkCdrom_straight hne h).read, h.read]
  change (tree.files.pop (folder ++ ["cdrom.iso"])).get? other = _
  rw [Dict.get?_pop, if_neg (Ne.symm hne)]

/-- The tree after a file is copied. -/
def copiedTree {β : Type} (mode : CopyMode) (src dst : List String) (bytes : β)
    (tree : ImageTree β) : ImageTree β :=
  if mode = .default then tree.put dst bytes else (tree.put dst bytes).unlink src

def importedOutcome {β : Type} (host : ImportHost β) (mode : CopyMode) (src dst : List String)
    (bytes : β) : CopyOutcome :=
  ⟨placeText src, placeText dst, host.size bytes, if mode = .move then "" else host.sha256 bytes,
    mode.value, .imported, none, decide (mode ≠ .default)⟩

def skippedOutcome {β : Type} (host : ImportHost β) (mode : CopyMode) (src dst : List String)
    (bytes : β) : CopyOutcome :=
  ⟨placeText src, placeText dst, host.size bytes, host.sha256 bytes, mode.value, .skipped,
    some "exists, sha256 match", false⟩

/-- The hashes after a copy agree. -/
theorem copyAndVerify_eq (host : ImportHost β) (mode : CopyMode) {src dst : List String}
    (hsrc : tree.Straight src) (hdst : tree.Straight dst) (hne : src ≠ dst)
    (hread : tree.read src = some bytes) :
    copyAndVerify host mode src dst bytes tree =
      (.ok (importedOutcome host mode src dst bytes), copiedTree mode src dst bytes tree) := by
  have hsame : ((tree.put dst bytes).read src).map host.sha256 =
      ((tree.put dst bytes).read dst).map host.sha256 := by
    rw [put_read hdst hsrc, put_read hdst hdst, if_neg (Ne.symm hne), if_pos rfl, hread]
  unfold copyAndVerify
  cases mode with
  | move => rfl
  | default => exact if_pos hsame
  | deleteSource => exact if_pos hsame

/-- All that a copy does. -/
theorem performCopy_cases (host : ImportHost β) (options : MigrateOptions) {src dst : List String}
    (hsrc : tree.Straight src) (hdst : tree.Straight dst) (hne : src ≠ dst) :
    (∃ error, performCopy host options src dst tree = (.error error, tree)) ∨
    (∃ bytes old, tree.read src = some bytes ∧ tree.read dst = some old ∧
      host.sha256 bytes = host.sha256 old ∧
        performCopy host options src dst tree =
          (.ok (skippedOutcome host options.mode src dst bytes), tree)) ∨
    ∃ bytes, tree.read src = some bytes ∧
      (∀ old, tree.read dst = some old → host.sha256 bytes ≠ host.sha256 old) ∧
        performCopy host options src dst tree =
          (.ok (importedOutcome host options.mode src dst bytes),
            copiedTree options.mode src dst bytes tree) := by
  unfold performCopy
  cases hread : tree.read src with
  | none => exact Or.inl ⟨_, rfl⟩
  | some bytes =>
    have hcopy := copyAndVerify_eq host options.mode hsrc hdst hne hread
    cases hold : tree.read dst with
    | none =>
      refine Or.inr (Or.inr ⟨bytes, rfl, ?_, hcopy⟩)
      intro old h
      cases h
    | some old =>
      simp only
      split
      next hsame => exact Or.inr (Or.inl ⟨bytes, old, rfl, rfl, hsame, rfl⟩)
      next hdiffer =>
        split
        next =>
          refine Or.inr (Or.inr ⟨bytes, rfl, ?_, hcopy⟩)
          intro other h
          exact Option.some.inj h ▸ hdiffer
        next => exact Or.inl ⟨_, rfl⟩

theorem copiedTree_straight {mode : CopyMode} {src dst other : List String}
    (hsrc : tree.Straight src) (hother : tree.Straight other) :
    (copiedTree mode src dst bytes tree).Straight other := by
  unfold copiedTree
  split
  next => exact put_straight hother
  next => exact unlink_straight (put_straight hsrc) (put_straight hother)

theorem copiedTree_read {mode : CopyMode} {src dst other : List String} (hsrc : tree.Straight src)
    (hdst : tree.Straight dst) (hother : tree.Straight other) :
    (copiedTree mode src dst bytes tree).read other =
      if mode ≠ .default ∧ src = other then none
      else if dst = other then some bytes else tree.read other := by
  unfold copiedTree
  by_cases hmode : mode = .default
  · rw [if_pos hmode, if_neg (fun h => h.1 hmode), put_read hdst hother]
  · rw [if_neg hmode, unlink_read (put_straight hsrc) (put_straight hother),
      put_read hdst hother]
    by_cases hsame : src = other
    · rw [if_pos hsame, if_pos ⟨hmode, hsame⟩]
    · have hnot : ¬ (mode ≠ .default ∧ src = other) := fun h => hsame h.2
      rw [if_neg hsame, if_neg hnot]

theorem copiedTree_files {mode : CopyMode} {src dst other : List String} (hdst : tree.Straight dst)
    (hsrc' : src ≠ other) (hdst' : dst ≠ other) :
    (copiedTree mode src dst bytes tree).files.get? other = tree.files.get? other := by
  have hput : (tree.put dst bytes).files.get? other = tree.files.get? other := by
    change (tree.files.set (tree.resolve dst) bytes).get? other = _
    rw [hdst, Dict.get?_set_ne _ _ hdst']
  unfold copiedTree
  split
  next => exact hput
  next =>
    change ((tree.put dst bytes).files.pop src).get? other = _
    rw [Dict.get?_pop, if_neg hsrc', hput]

theorem copiedTree_handles {mode : CopyMode} {src dst : List String} (hsrc : tree.Straight src)
    (folder : List String) :
    (copiedTree mode src dst bytes tree).handles.get? folder = tree.handles.get? folder := by
  unfold copiedTree
  split
  next => rfl
  next => exact unlink_handles (put_straight hsrc) folder

theorem sortedNames_perm (names : List String) : (sortedNames names).Perm names :=
  List.perm_insertionSort _ names

theorem mem_fileNames {keys : List (List String)} {folder : List String} {name : String} :
    name ∈ fileNames keys folder ↔ folder ++ [name] ∈ keys := by
  unfold fileNames
  rw [(sortedNames_perm _).mem_iff, List.mem_filterMap]
  constructor
  · rintro ⟨place, hplace, h⟩
    split at h
    next hfolder =>
      obtain ⟨front, rfl⟩ := List.getLast?_eq_some_iff.mp h
      rw [List.dropLast_concat] at hfolder
      exact hfolder ▸ hplace
    next => cases h
  · intro hplace
    refine ⟨folder ++ [name], hplace, ?_⟩
    rw [if_pos List.dropLast_concat, List.getLast?_concat]

theorem fileNames_nodup {keys : List (List String)} (hkeys : keys.Nodup) (folder : List String) :
    (fileNames keys folder).Nodup := by
  unfold fileNames
  refine (sortedNames_perm _).nodup_iff.mpr (hkeys.filterMap ?_)
  intro place other name h hother
  have hplace : ∀ place : List String,
      name ∈ (if place.dropLast = folder then place.getLast? else none) →
        place = folder ++ [name] := by
    intro place h
    split at h
    next hfolder =>
      obtain ⟨front, rfl⟩ := List.getLast?_eq_some_iff.mp h
      rw [List.dropLast_concat] at hfolder
      rw [hfolder]
    next => cases h
  rw [hplace place h, hplace other hother]

theorem folderNames_nodup (keys : List (List String)) (folder : List String) :
    (folderNames keys folder).Nodup :=
  (sortedNames_perm _).nodup_iff.mpr (List.nodup_dedup _)

/-- A name is its stem and its suffix. -/
theorem suffixSplit_append (name : String) :
    (suffixSplit name).1 ++ (suffixSplit name).2 = name := by
  have hspan := List.takeWhile_append_dropWhile (p := fun c => decide (c ≠ '.'))
    (l := name.toList.reverse)
  unfold suffixSplit
  split
  next c ending d stem h =>
    rw [List.span_eq_takeWhile_dropWhile] at h
    obtain ⟨htake, hdrop⟩ := Prod.mk.inj h
    rw [htake, hdrop] at hspan
    have hname : name.toList = (d :: stem).reverse ++ '.' :: (c :: ending).reverse := by
      rw [← List.reverse_reverse name.toList, ← hspan]
      simp
    rw [← String.ofList_append, ← hname, String.ofList_toList]
  next => exact String.append_empty

theorem stem_injective {names : List String} (hnames : names.Nodup) (suffix : String) :
    ((names.filter (fun name => (suffixSplit name).2 = suffix)).map
      (fun name => (suffixSplit name).1)).Nodup := by
  refine List.Nodup.map_on ?_ (hnames.filter _)
  intro name hname other hother hstem
  have hn := of_decide_eq_true (List.mem_filter.mp hname).2
  have ho := of_decide_eq_true (List.mem_filter.mp hother).2
  rw [← suffixSplit_append name, ← suffixSplit_append other, hn, ho, hstem]

/-- What the walk promises of an item. -/
structure Walked (source dest : List String) (item : MigrationItem) : Prop where
  dest : dest <+: item.dstDir
  files : ∀ pair ∈ item.files, source <+: pair.1 ∧ ∃ name, pair.2 = item.dstDir ++ [name]
  names : (item.files.map Prod.snd).Nodup
  cdrom : ∀ name, item.kind = .qemu (some name) → name ≠ "cdrom.iso" →
    ∀ pair ∈ item.files, pair.2 ≠ item.dstDir ++ ["cdrom.iso"]
  docker : ∀ tag, item.kind = .docker tag → item.files = []

theorem pickQemuBootDisk_cdrom {names : List String} (h : "cdrom.iso" ∈ names) :
    pickQemuBootDisk names = some "cdrom.iso" := by
  unfold pickQemuBootDisk
  have hfind : ["cdrom.iso", "virtioa.qcow2", "hda.qcow2"].find?
      (fun name => decide (name ∈ names)) = some "cdrom.iso" :=
    List.find?_cons_of_pos (decide_eq_true h)
  rw [hfind, Option.some_or]

theorem walkQemu_walked {keys : List (List String)} (hkeys : keys.Nodup)
    (source dest : List String) : ∀ item ∈ walkQemu keys source dest, Walked source dest item := by
  intro item hitem
  obtain ⟨imageKey, -, rfl⟩ := List.mem_map.mp hitem
  constructor
  · exact List.prefix_append _ _
  · intro pair hpair
    obtain ⟨name, -, rfl⟩ := List.mem_map.mp hpair
    exact ⟨(List.prefix_append _ _).trans (List.prefix_append _ _), name, rfl⟩
  · simp only [List.map_map, Function.comp_def]
    refine (fileNames_nodup hkeys _).map ?_
    intro name other h
    exact List.singleton_inj.mp (List.append_cancel_left h)
  · intro name hkind hname pair hpair hcdrom
    obtain ⟨other, hother, rfl⟩ := List.mem_map.mp hpair
    obtain rfl := List.singleton_inj.mp (List.append_cancel_left hcdrom)
    have hboot := ImportKind.qemu.inj hkind
    rw [pickQemuBootDisk_cdrom hother] at hboot
    exact hname (Option.some.inj hboot).symm
  · intro tag hkind
    cases hkind

theorem walkDynamips_walked (keys : List (List String)) (source dest : List String) :
    ∀ item ∈ walkDynamips keys source dest, Walked source dest item := by
  intro item hitem
  obtain ⟨name, -, rfl⟩ := List.mem_map.mp hitem
  constructor
  · exact List.prefix_append _ _
  · intro pair hpair
    obtain rfl := List.mem_singleton.mp hpair
    exact ⟨(List.prefix_append _ _).trans (List.prefix_append _ _), name, rfl⟩
  · exact List.nodup_singleton _
  · intro other hkind
    cases hkind
  · intro tag hkind
    cases hkind

theorem walkIol_walked (keys : List (List String)) (source dest : List String) :
    ∀ item ∈ walkIol keys source dest, Walked source dest item := by
  intro item hitem
  obtain ⟨name, hname, rfl⟩ := List.mem_map.mp hitem
  have hsuffix := of_decide_eq_true (List.mem_filter.mp hname).2
  have hne : name ≠ "iourc" := by
    rintro rfl
    exact absurd hsuffix (by decide)
  constructor
  · exact List.prefix_append _ _
  · intro pair hpair
    rcases List.mem_cons.mp hpair with rfl | hiourc
    · exact ⟨(List.prefix_append _ _).trans (List.prefix_append _ _), name, rfl⟩
    · split at hiourc
      next =>
        obtain rfl := List.mem_singleton.mp hiourc
        exact ⟨(List.prefix_append _ _).trans (List.prefix_append _ _), "iourc", rfl⟩
      next => cases hiourc
  · simp only
    split
    next => simpa using hne
    next => exact List.nodup_singleton _
  · intro other hkind
    cases hkind
  · intro tag hkind
    cases hkind

theorem walkDocker_walked (keys : List (List String)) (source dest : List String) :
    ∀ item ∈ walkDocker keys source dest, Walked source dest item := by
  intro item hitem
  obtain ⟨name, -, rfl⟩ := List.mem_map.mp hitem
  constructor
  · exact List.prefix_append _ _
  · intro pair hpair
    cases hpair
  · exact List.nodup_nil
  · intro other hkind
    cases hkind
  · exact fun _ _ => rfl

theorem walkAll_walked (tree : ImageTree β) (source dest : List String) :
    ∀ item ∈ walkAll tree source dest, Walked source dest item := by
  intro item hitem
  unfold walkAll at hitem
  rcases List.mem_append.mp hitem with hitem | hdocker
  · rcases List.mem_append.mp hitem with hitem | hiol
    · rcases List.mem_append.mp hitem with hqemu | hdynamips
      · exact walkQemu_walked (listed_nodup tree) source dest item hqemu
      · exact walkDynamips_walked _ source dest item hdynamips
    · exact walkIol_walked _ source dest item hiol
  · exact walkDocker_walked _ source dest item hdocker

/-- The folder of an item is its own. -/
theorem walkAll_dstDir_nodup (tree : ImageTree β) (source dest : List String) :
    ((walkAll tree source dest).map (fun item => item.dstDir)).Nodup := by
  let under : String → List String → List (List String) :=
    fun kind names => names.map (fun name => dest ++ [kind, name])
  have hunder : ∀ kind names, names.Nodup → (under kind names).Nodup := by
    intro kind names hnames
    refine hnames.map ?_
    intro name other h
    have hlist := List.append_cancel_left h
    exact (List.cons.inj (List.cons.inj hlist).2).1
  have hapart : ∀ kind kind' names names', kind ≠ kind' →
      List.Disjoint (under kind names) (under kind' names') := by
    intro kind kind' names names' hne place hplace hplace'
    obtain ⟨name, -, rfl⟩ := List.mem_map.mp hplace
    obtain ⟨name', -, h⟩ := List.mem_map.mp hplace'
    exact hne (List.cons.inj (List.append_cancel_left h)).1.symm
  let keys := tree.listed
  have hqemu : (walkQemu keys source dest).map (fun item => item.dstDir) =
      under "qemu" (folderNames keys (source ++ ["addons", "qemu"])) := by
    simp [walkQemu, under]
  have hdynamips : (walkDynamips keys source dest).map (fun item => item.dstDir) =
      under "dynamips" (((fileNames keys (source ++ ["addons", "dynamips"])).filter
        (fun name => (suffixSplit name).2 = ".image")).map (fun name => (suffixSplit name).1)) := by
    simp [walkDynamips, under]
  have hiol : (walkIol keys source dest).map (fun item => item.dstDir) =
      under "iol" (((fileNames keys (source ++ ["addons", "iol", "bin"])).filter
        (fun name => (suffixSplit name).2 = ".bin")).map (fun name => (suffixSplit name).1)) := by
    simp [walkIol, under]
  have hdocker : (walkDocker keys source dest).map (fun item => item.dstDir) =
      under "docker" ((folderNames keys (source ++ ["addons", "docker"])).filter
        (fun name => decide ("Dockerfile" ∈
          fileNames keys (source ++ ["addons", "docker"] ++ [name])))) := by
    simp [walkDocker, under]
  unfold walkAll
  rw [List.map_append, List.map_append, List.map_append, hqemu, hdynamips, hiol, hdocker]
  have hkeys := listed_nodup tree
  refine List.Nodup.append (List.Nodup.append (List.Nodup.append ?_ ?_ ?_) ?_ ?_) ?_ ?_
  · exact hunder _ _ (folderNames_nodup _ _)
  · exact hunder _ _ (stem_injective (fileNames_nodup hkeys _) _)
  · exact hapart _ _ _ _ (by decide)
  · exact hunder _ _ (stem_injective (fileNames_nodup hkeys _) _)
  · rw [List.disjoint_append_left]
    exact ⟨hapart _ _ _ _ (by decide), hapart _ _ _ _ (by decide)⟩
  · exact hunder _ _ ((folderNames_nodup _ _).filter _)
  · rw [List.disjoint_append_left, List.disjoint_append_left]
    exact ⟨⟨hapart _ _ _ _ (by decide), hapart _ _ _ _ (by decide)⟩,
      hapart _ _ _ _ (by decide)⟩

end NovaVe
