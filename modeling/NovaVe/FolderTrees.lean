import NovaVe.Confinement

namespace NovaVe

inductive EntryKind
  | file | folder
deriving DecidableEq, Repr

def nulChar : Char := Char.ofNat 0

/-- A name that an entry of a directory can have. -/
def EntryName (name : List Char) : Prop :=
  name ≠ [] ∧ '/' ∉ name ∧ nulChar ∉ name ∧ name ≠ ['.'] ∧ name ≠ ['.', '.']

instance (name : List Char) : Decidable (EntryName name) := by
  unfold EntryName
  infer_instance

/-- The files and folders below the labs directory, by their segments; an entry is in a folder. -/
structure FolderTree where
  entry : List (List Char) → Option EntryKind
  closed : ∀ path name, entry (path ++ [name]) ≠ none → entry path = some .folder
  named : ∀ path, entry path ≠ none → ∀ name ∈ path, EntryName name

theorem FolderTree.folder_of_prefix (tree : FolderTree) {path rest : List (List Char)}
    (hrest : rest ≠ []) (h : tree.entry (path ++ rest) ≠ none) : tree.entry path = some .folder := by
  induction rest using List.reverseRecOn with
  | nil => exact absurd rfl hrest
  | append_singleton rest name ih =>
    rw [← List.append_assoc] at h
    have hparent := tree.closed _ _ h
    by_cases hnil : rest = []
    · rwa [hnil, List.append_nil] at hparent
    · exact ih hnil (by simp [hparent])

theorem FolderTree.entry_of_prefix (tree : FolderTree) {path below : List (List Char)}
    (hp : path <+: below) (h : tree.entry below ≠ none) : tree.entry path ≠ none := by
  obtain ⟨rest, rfl⟩ := hp
  by_cases hrest : rest = []
  · rwa [hrest, List.append_nil] at h
  · simp [tree.folder_of_prefix hrest h]

/-- What a move asks: a new place outside of what is moved, with no file above it. -/
structure FolderTree.MovesTo (tree : FolderTree) (source dest : List (List Char)) : Prop where
  named : ∀ name ∈ dest, EntryName name
  missing : tree.entry dest = none
  outside : ¬ source <+: dest
  noFile : ∀ above ∈ dest.inits, tree.entry above ≠ some .file

instance (tree : FolderTree) (source dest : List (List Char)) :
    Decidable (tree.MovesTo source dest) :=
  decidable_of_iff ((∀ name ∈ dest, EntryName name) ∧ tree.entry dest = none ∧
      ¬ source <+: dest ∧ ∀ above ∈ dest.inits, tree.entry above ≠ some .file)
    ⟨fun h => ⟨h.1, h.2.1, h.2.2.1, h.2.2.2⟩, fun h => ⟨h.1, h.2, h.3, h.4⟩⟩

/-- The entries after `shutil.move`, which makes the missing folders above the new place. -/
def FolderTree.movedEntry (tree : FolderTree) (source dest path : List (List Char)) :
    Option EntryKind :=
  if dest <+: path then tree.entry (source ++ path.drop dest.length)
  else if source <+: path then none
  else if path <+: dest then some .folder
  else tree.entry path

theorem FolderTree.movedEntry_closed (tree : FolderTree) {source dest : List (List Char)}
    (hout : ¬ source <+: dest) (path : List (List Char)) (name : List Char)
    (h : tree.movedEntry source dest (path ++ [name]) ≠ none) :
    tree.movedEntry source dest path = some .folder := by
  unfold movedEntry at h ⊢
  by_cases hdest : dest <+: path
  · rw [if_pos (hdest.trans (List.prefix_append _ _)), List.drop_append_of_le_length hdest.length_le,
      ← List.append_assoc] at h
    rw [if_pos hdest]
    exact tree.closed _ _ h
  · rw [if_neg hdest]
    by_cases hat : dest <+: path ++ [name]
    · have hpath : path <+: dest :=
        List.prefix_of_prefix_length_le (List.prefix_append _ _) hat (by
          rcases List.prefix_concat_iff.mp hat with he | hp
          · simp [he]
          · exact absurd hp hdest)
      rw [if_neg (fun hs => hout (hs.trans hpath)), if_pos hpath]
    · rw [if_neg hat] at h
      by_cases hsource : source <+: path ++ [name]
      · rw [if_pos hsource] at h
        exact absurd rfl h
      · rw [if_neg hsource] at h
        rw [if_neg (fun hs => hsource (hs.trans (List.prefix_append _ _)))]
        by_cases hpath : path <+: dest
        · rw [if_pos hpath]
        · rw [if_neg (fun hs => hpath ((List.prefix_append _ _).trans hs))] at h
          rw [if_neg hpath]
          exact tree.closed _ _ h

theorem FolderTree.movedEntry_named (tree : FolderTree) {source dest : List (List Char)}
    (hnamed : ∀ name ∈ dest, EntryName name) (path : List (List Char))
    (h : tree.movedEntry source dest path ≠ none) : ∀ name ∈ path, EntryName name := by
  unfold movedEntry at h
  split at h
  next hdest =>
    obtain ⟨rest, rfl⟩ := hdest
    rw [List.drop_left] at h
    intro name hname
    rcases List.mem_append.mp hname with hd | hr
    · exact hnamed name hd
    · exact tree.named _ h name (List.mem_append_right _ hr)
  next =>
    split at h
    next => exact absurd rfl h
    next =>
      split at h
      next hp => exact fun name hname => hnamed name (hp.subset hname)
      next => exact tree.named _ h

def FolderTree.move (tree : FolderTree) (source dest : List (List Char))
    (h : tree.MovesTo source dest) : FolderTree where
  entry := tree.movedEntry source dest
  closed := tree.movedEntry_closed h.outside
  named := tree.movedEntry_named h.named

/-- `shutil.rmtree`. -/
def FolderTree.rmtree (tree : FolderTree) (target : List (List Char)) : FolderTree where
  entry path := if target <+: path then none else tree.entry path
  closed := by
    intro path name h
    split at h
    next => exact absurd rfl h
    next hout =>
      rw [if_neg (fun hp => hout (hp.trans (List.prefix_append _ _)))]
      exact tree.closed _ _ h
  named := by
    intro path h
    split at h
    next => exact absurd rfl h
    next => exact tree.named _ h

/-- A file that a folder lists as a lab: its suffix is `.json` and it is no backup. -/
def isLabName (name : List Char) : Bool :=
  ".json".toList.isSuffixOf name && decide (5 < name.length) &&
    !".v1.bak.json".toList.isSuffixOf name

def isLabPath (path : List (List Char)) : Bool := path.getLast?.any isLabName

def FolderTree.isLab (tree : FolderTree) (path : List (List Char)) : Bool :=
  tree.entry path == some .file && isLabPath path

inductive FolderError
  | sharedCloud | fileNotFound | fileExists | value | permission | os
deriving DecidableEq, Repr

/-- What the handlers take from outside: which paths the file system finds too long, and the check
of the clouds that labs elsewhere use. -/
structure FolderHost where
  tooLong : List (List Char) → Bool
  scopeCheck : String → Except FolderError Unit

/-- `_safe_folder_path`: the segments below the labs directory. -/
def safeFolderPath (folderPath : String) : Except FolderError (List (List Char)) :=
  let parts := labPathParts folderPath
  if parts.contains ['.', '.'] || parts.any (fun part => part.contains nulChar) then .error .value
  else .ok parts

/-- `FolderService.rename_folder`. -/
def FolderTree.rename (host : FolderHost) (tree : FolderTree) (oldPath newPath : String) :
    Except FolderError FolderTree :=
  match safeFolderPath oldPath, safeFolderPath newPath with
  | .error e, _ => .error e
  | .ok _, .error e => .error e
  | .ok source, .ok dest =>
    if host.tooLong source then .error .os
    else if tree.entry source = none then .error .fileNotFound
    else if host.tooLong dest then .error .os
    else if tree.entry dest ≠ none then .error .fileExists
    else if h : tree.MovesTo source dest then
      -- a folder is copied under the folders it misses, a file is not
      if tree.entry source = some .file ∧ tree.entry dest.dropLast = none then
        .error .fileNotFound
      else .ok (tree.move source dest h)
    else .error .os

/-- `FolderService.delete_folder`. -/
def FolderTree.delete (host : FolderHost) (tree : FolderTree) (folderPath : String) :
    Except FolderError FolderTree :=
  match safeFolderPath folderPath with
  | .error e => .error e
  | .ok target =>
    if host.tooLong target then .error .os
    else if tree.entry target = none then .error .fileNotFound
    else if tree.entry target ≠ some .folder then .error .os
    else .ok (tree.rmtree target)

/-- `_scoped_folder_path`, which scopes as the labs do. -/
def scopedFolderPath (user : UserRead) (rawPath : String) (treatAsAbsolute : Bool) :
    Except String String :=
  scopedLabPath user rawPath treatAsAbsolute

/-- `scoped_path.strip("/")`. -/
def folderPrefix (scopedPath : String) : String :=
  String.ofList (stripChars (fun c => c == '/') scopedPath.toList)

structure FolderLab where
  filename : String
  path : String
deriving DecidableEq, Repr

/-- The filename of a row at or below the old prefix, under the new one. -/
def renamedFilename (oldPrefix newPrefix filename : String) : String :=
  let suffix := (filename.toList.drop oldPrefix.toList.length).dropWhile (fun c => c == '/')
  String.ofList (List.intercalate ['/']
    ([newPrefix.toList, suffix].filter (fun part => decide (part ≠ []))))

def renameLab (oldPrefix newPrefix : String) (lab : FolderLab) : FolderLab :=
  if atOrBelow oldPrefix lab.filename then
    let newFilename := renamedFilename oldPrefix newPrefix lab.filename
    ⟨newFilename, "/" ++ newFilename⟩
  else lab

structure FolderSite where
  tree : FolderTree
  labs : List FolderLab

/-- The code of an answer; what `rename_folder` does not catch ends as a server error. -/
def FolderError.renameCode : FolderError → Nat
  | .fileNotFound => 404
  | .fileExists | .value => 400
  | .permission => 403
  | .sharedCloud | .os => 500

/-- A `PermissionError` is caught as an `OSError`. -/
def FolderError.deleteCode : FolderError → Nat
  | .sharedCloud => 409
  | .fileNotFound => 404
  | .fileExists | .permission | .os | .value => 400

/-- `String(255)`, the column of the filenames. -/
def filenameFits (oldPrefix newPrefix : String) (lab : FolderLab) : Bool :=
  !atOrBelow oldPrefix lab.filename ||
    decide ((renamedFilename oldPrefix newPrefix lab.filename).length ≤ 255)

/-- `rename_folder` of the router; a filename that does not fit fails the commit. -/
def renameFolder (host : FolderHost) (user : UserRead) (site : FolderSite)
    (folderPath newPath : String) : Nat × FolderSite :=
  match scopedFolderPath user folderPath true, scopedFolderPath user newPath false with
  | .ok scopedOldPath, .ok scopedNewPath =>
    match site.tree.rename host scopedOldPath scopedNewPath with
    | .error e => (e.renameCode, site)
    | .ok tree =>
      let oldPrefix := folderPrefix scopedOldPath
      let newPrefix := folderPrefix scopedNewPath
      if site.labs.all (filenameFits oldPrefix newPrefix) then
        (200, ⟨tree, site.labs.map (renameLab oldPrefix newPrefix)⟩)
      else (500, ⟨tree, site.labs⟩)
  | _, _ => (FolderError.permission.renameCode, site)

/-- `delete_folder` of the router. -/
def deleteFolder (host : FolderHost) (user : UserRead) (site : FolderSite) (folderPath : String) :
    Nat × FolderSite :=
  match scopedFolderPath user folderPath true with
  | .error _ => (FolderError.permission.deleteCode, site)
  | .ok scopedPath =>
    match host.scopeCheck scopedPath with
    | .error e => (e.deleteCode, site)
    | .ok _ =>
      match site.tree.delete host scopedPath with
      | .error e => (e.deleteCode, site)
      | .ok tree =>
        (200, ⟨tree, site.labs.filter (fun lab =>
          !atOrBelow (folderPrefix scopedPath) lab.filename)⟩)

inductive FolderRequest
  | rename (folderPath path : String)
  | delete (folderPath : String)
deriving DecidableEq, Repr

def FolderRequest.handle (host : FolderHost) (user : UserRead) (site : FolderSite) :
    FolderRequest → Nat × FolderSite
  | .rename folderPath path => renameFolder host user site folderPath path
  | .delete folderPath => deleteFolder host user site folderPath

def pathText (path : List (List Char)) : String := String.ofList (List.intercalate ['/'] path)

/-- The filenames of the rows are the lab files on disk. -/
def FolderSite.InStep (site : FolderSite) : Prop :=
  ∀ filename, (∃ lab ∈ site.labs, lab.filename = filename) ↔
    ∃ path, site.tree.isLab path = true ∧ pathText path = filename

/-- Rows and disk are in step after a request that succeeds, and as before after one that fails. -/
structure KeepsInStep (site : FolderSite) (answer : Nat × FolderSite) : Prop where
  success : answer.1 = 200 →
    answer.2.InStep ∧ ∀ lab ∈ answer.2.labs, lab.path = "/" ++ lab.filename
  failure : answer.1 ≠ 200 → answer.2 = site

end NovaVe
