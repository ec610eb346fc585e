import Mathlib.Data.Set.Finite.Lemmas
import NovaVe.FolderTrees

namespace NovaVe

variable {path : List (List Char)} {tree : FolderTree} {site : FolderSite}

/-- What is at or below `old`, moved to `new`. -/
def rebase {α : Type} [DecidableEq α] (old new path : List α) : List α :=
  if old <+: path then new ++ path.drop old.length else path

theorem rebase_below {α : Type} [DecidableEq α] (old new rest : List α) :
    rebase old new (old ++ rest) = new ++ rest := by
  rw [rebase, if_pos (List.prefix_append _ _), List.drop_left]

theorem rebase_self {α : Type} [DecidableEq α] (old new : List α) : rebase old new old = new := by
  rw [rebase, if_pos (List.prefix_refl _), List.drop_length, List.append_nil]

theorem rebase_apart {α : Type} [DecidableEq α] {old path : List α} (new : List α)
    (h : ¬ old <+: path) : rebase old new path = path := if_neg h

/-- Two shifts of a finite set into one another shift by the same. -/
theorem eq_of_shifts {α : Type} {left right : List α} {tails : Set (List α)}
    (hfinite : tails.Finite) (hne : tails.Nonempty)
    (h : ∀ tail ∈ tails, ∃ other ∈ tails, left ++ tail = right ++ other) : left = right := by
  obtain ⟨longest, hlongest, hmax⟩ := Set.exists_max_image tails List.length hfinite hne
  obtain ⟨shortest, hshortest, hmin⟩ := Set.exists_min_image tails List.length hfinite hne
  obtain ⟨far, hfar, hlong⟩ := h longest hlongest
  obtain ⟨near, hnear, hshort⟩ := h shortest hshortest
  have hle := hmax far hfar
  have hge := hmin near hnear
  have hlonglen := congrArg List.length hlong
  have hshortlen := congrArg List.length hshort
  simp only [List.length_append] at hlonglen hshortlen
  exact List.append_inj_left hlong (by omega)

/-- Where the place moved to is empty, two ways of moving give the same places only by moving
each path alike. -/
theorem rebase_image_eq_iff {α : Type} [DecidableEq α] {source dest old new : List α}
    {paths : Set (List α)} (hfinite : paths.Finite) (hmissing : ∀ path ∈ paths, ¬ dest <+: path)
    (hold : old <+: source → old = source) (hnew : new ≠ old) :
    rebase source dest '' paths = rebase old new '' paths ↔
      ∀ path ∈ paths, rebase source dest path = rebase old new path := by
  refine ⟨fun h => ?_, fun h => Set.image_congr h⟩
  by_cases hmoved : ∃ path ∈ paths, old <+: path
  · -- every path below `old` lands where `new` puts a path
    have hland : ∀ rest, old ++ rest ∈ paths →
        ∃ other, old ++ other ∈ paths ∧ rebase source dest (old ++ rest) = new ++ other ∨
          rebase source dest (old ++ rest) ∈ paths ∧
            ¬ old <+: rebase source dest (old ++ rest) := by
      intro rest hrest
      have himage : rebase source dest (old ++ rest) ∈ rebase old new '' paths :=
        h ▸ Set.mem_image_of_mem _ hrest
      obtain ⟨path, hpath, he⟩ := himage
      by_cases hbelow : old <+: path
      · obtain ⟨other, rfl⟩ := hbelow
        exact ⟨other, Or.inl ⟨hpath, he ▸ rebase_below old new other⟩⟩
      · rw [rebase_apart new hbelow] at he
        exact ⟨[], Or.inr ⟨he ▸ hpath, he ▸ hbelow⟩⟩
    have htails : {rest | old ++ rest ∈ paths}.Finite :=
      hfinite.preimage (fun _ _ _ _ he => List.append_cancel_left he)
    have hne : {rest | old ++ rest ∈ paths}.Nonempty := by
      obtain ⟨path, hpath, rest, rfl⟩ := hmoved
      exact ⟨rest, hpath⟩
    by_cases hsource : source <+: old
    · obtain ⟨part, rfl⟩ := hsource
      have hshift : dest ++ part = new := by
        refine eq_of_shifts htails hne fun rest hrest => ?_
        have hto : rebase source dest (source ++ part ++ rest) = dest ++ (part ++ rest) := by
          rw [List.append_assoc, rebase_below]
        obtain ⟨other, ⟨hother, he⟩ | ⟨hin, _⟩⟩ := hland rest hrest
        · exact ⟨other, hother, by rw [← he, hto, List.append_assoc]⟩
        · rw [hto] at hin
          exact absurd (List.prefix_append _ _) (hmissing _ hin)
      intro path hpath
      by_cases hbelow : source <+: path
      · have hpart : source ++ part <+: path := by
          by_contra hapart
          have himage : path ∈ rebase source dest '' paths :=
            h ▸ ⟨path, hpath, rebase_apart new hapart⟩
          obtain ⟨from', hfrom, he⟩ := himage
          by_cases hf : source <+: from'
          · obtain ⟨rest, rfl⟩ := hf
            rw [rebase_below] at he
            exact hmissing _ hpath (he ▸ List.prefix_append _ _)
          · rw [rebase_apart dest hf] at he
            exact hf (he ▸ hbelow)
        obtain ⟨rest, rfl⟩ := hpart
        rw [rebase_below, List.append_assoc, rebase_below, ← hshift, List.append_assoc]
      · rw [rebase_apart dest hbelow,
          rebase_apart new (fun hp => hbelow ((List.prefix_append _ _).trans hp))]
    · refine absurd (eq_of_shifts htails hne fun rest hrest => ?_).symm hnew
      have hapart : ¬ source <+: old ++ rest := by
        intro hp
        rcases List.prefix_or_prefix_of_prefix hp (List.prefix_append old rest) with hs | ho
        · exact hsource hs
        · exact hsource (hold ho ▸ List.prefix_refl _)
      have hto : rebase source dest (old ++ rest) = old ++ rest := rebase_apart dest hapart
      obtain ⟨other, ⟨hother, he⟩ | ⟨_, hout⟩⟩ := hland rest hrest
      · exact ⟨other, hother, by rw [← he, hto]⟩
      · rw [hto] at hout
        exact absurd (List.prefix_append _ _) hout
  · -- nothing is below `old`, so nothing may be below `source`
    intro path hpath
    rw [rebase_apart new (fun hp => hmoved ⟨path, hpath, hp⟩)]
    by_cases hbelow : source <+: path
    · have himage : rebase source dest path ∈ rebase old new '' paths :=
        h ▸ Set.mem_image_of_mem _ hpath
      obtain ⟨other, hother, he⟩ := himage
      rw [rebase_apart new (fun hp => hmoved ⟨other, hother, hp⟩)] at he
      obtain ⟨rest, rfl⟩ := hbelow
      rw [rebase_below] at he
      exact absurd (he ▸ List.prefix_append _ _) (hmissing _ hother)
    · exact rebase_apart dest hbelow

/-- Segments that a text can be split into. -/
def SlashFree (path : List (List Char)) : Prop := path ≠ [] ∧ ∀ name ∈ path, '/' ∉ name

def textSegments (text : String) : List (List Char) := text.toList.splitOn '/'

theorem textSegments_pathText (h : SlashFree path) :
    textSegments (pathText path) = path := by
  rw [textSegments, pathText, String.toList_ofList]
  exact List.splitOn_intercalate '/' h.2 h.1

theorem pathText_textSegments (text : String) : pathText (textSegments text) = text := by
  rw [pathText, textSegments, List.intercalate_splitOn, String.ofList_toList]

theorem slashFree_textSegments (text : String) : SlashFree (textSegments text) :=
  ⟨List.splitOn_ne_nil _ _, fun _ hname => not_mem_of_mem_splitOn hname⟩

theorem SlashFree.append {path rest : List (List Char)} (h : SlashFree path)
    (hrest : ∀ name ∈ rest, '/' ∉ name) : SlashFree (path ++ rest) := by
  refine ⟨fun he => h.1 (List.append_eq_nil_iff.mp he).1, ?_⟩
  intro name hname
  rcases List.mem_append.mp hname with hp | hr
  · exact h.2 name hp
  · exact hrest name hr

theorem pathText_image_eq_iff {left right : Set (List (List Char))}
    (hleft : ∀ path ∈ left, SlashFree path) (hright : ∀ path ∈ right, SlashFree path) :
    pathText '' left = pathText '' right ↔ left = right := by
  refine ⟨fun h => ?_, fun h => by rw [h]⟩
  have hback : ∀ paths : Set (List (List Char)), (∀ path ∈ paths, SlashFree path) →
      textSegments '' (pathText '' paths) = paths := by
    intro paths hpaths
    rw [Set.image_image]
    have hid := Set.image_congr fun path hp => textSegments_pathText (hpaths path hp)
    rw [hid, Set.image_id']
  rw [← hback left hleft, h, hback right hright]

theorem pathText_append_toList {path rest : List (List Char)} (hpath : path ≠ [])
    (hrest : rest ≠ []) :
    (pathText (path ++ rest)).toList =
      (pathText path).toList ++ '/' :: List.intercalate ['/'] rest := by
  simp only [pathText, String.toList_ofList, intercalate_append_of_ne_nil hpath hrest,
    List.append_assoc, List.singleton_append]

theorem intercalate_ne_nil_of_names {rest : List (List Char)} (hrest : rest ≠ [])
    (hnames : ∀ name ∈ rest, EntryName name) :
    ∃ c cs, List.intercalate ['/'] rest = c :: cs ∧ c ≠ '/' := by
  obtain ⟨name, others, rfl⟩ := List.exists_cons_of_ne_nil hrest
  obtain ⟨hne, hslash, _⟩ := hnames name List.mem_cons_self
  obtain ⟨c, cs, rfl⟩ := List.exists_cons_of_ne_nil hne
  have hc : c ≠ '/' := fun he => hslash (he ▸ List.mem_cons_self)
  by_cases hothers : others = []
  · exact ⟨c, cs, by rw [hothers, List.intercalate_singleton], hc⟩
  · exact ⟨c, cs ++ ['/'] ++ List.intercalate ['/'] others, by
      rw [List.intercalate_cons_of_ne_nil hothers]; simp, hc⟩

/-- A filename below the old prefix keeps what it has below it. -/
theorem renamedFilename_below {oldPrefix newPrefix : String} {rest : List (List Char)}
    (hnew : newPrefix ≠ "") (hnames : ∀ name ∈ rest, EntryName name) :
    renamedFilename oldPrefix newPrefix (pathText (textSegments oldPrefix ++ rest)) =
      pathText (textSegments newPrefix ++ rest) := by
  have hnonempty : newPrefix.toList ≠ [] := fun he => hnew (String.toList_eq_nil_iff.mp he)
  unfold renamedFilename
  by_cases hrest : rest = []
  · subst hrest
    rw [List.append_nil, List.append_nil, pathText_textSegments, List.drop_length,
      pathText_textSegments]
    simp [hnonempty]
  · obtain ⟨c, cs, hjoin, hc⟩ := intercalate_ne_nil_of_names hrest hnames
    have hold := pathText_append_toList (slashFree_textSegments oldPrefix).1 hrest
    have hto := pathText_append_toList (slashFree_textSegments newPrefix).1 hrest
    rw [pathText_textSegments] at hold hto
    rw [hold, List.drop_left, hjoin, List.dropWhile_cons_of_pos (by simp),
      List.dropWhile_cons_of_neg (by simpa using hc)]
    refine String.toList_injective ?_
    rw [hto, hjoin, String.toList_ofList]
    simp [hnonempty, List.intercalate_cons_of_ne_nil]

theorem atOrBelow_pathText {root : String} (h : SlashFree path) :
    atOrBelow root (pathText path) = true ↔ textSegments root <+: path := by
  have hsegments := textSegments_pathText h
  rw [atOrBelow_iff_segments]
  unfold textSegments at hsegments ⊢
  rw [hsegments]

theorem renameLab_filename {oldPrefix newPrefix : String} {lab : FolderLab} (hnew : newPrefix ≠ "")
    (hnames : ∀ name ∈ path, EntryName name) (hne : path ≠ []) (hlab : lab.filename = pathText path) :
    (renameLab oldPrefix newPrefix lab).filename =
      pathText (rebase (textSegments oldPrefix) (textSegments newPrefix) path) := by
  have hfree : SlashFree path := ⟨hne, fun name hname => (hnames name hname).2.1⟩
  unfold renameLab
  by_cases hbelow : textSegments oldPrefix <+: path
  · obtain ⟨rest, rfl⟩ := hbelow
    rw [hlab, if_pos ((atOrBelow_pathText hfree).mpr (List.prefix_append _ _)), rebase_below]
    exact renamedFilename_below hnew fun name hname =>
      hnames name (List.mem_append_right _ hname)
  · rw [hlab, if_neg (fun ht => hbelow ((atOrBelow_pathText hfree).mp ht)),
      rebase_apart _ hbelow, hlab]

/-- The labs on disk. -/
def FolderTree.labPaths (tree : FolderTree) : Set (List (List Char)) :=
  {path | tree.isLab path = true}

theorem FolderTree.mem_labPaths :
    path ∈ tree.labPaths ↔ tree.entry path = some .file ∧ isLabPath path = true := by
  simp [labPaths, isLab]

theorem FolderTree.labPath_names (h : path ∈ tree.labPaths) : ∀ name ∈ path, EntryName name :=
  tree.named path (by rw [(mem_labPaths.mp h).1]; exact Option.some_ne_none _)

theorem isLabPath_ne_nil (h : isLabPath path = true) : path ≠ [] := by
  rintro rfl
  cases h

theorem FolderTree.labPath_slashFree (h : path ∈ tree.labPaths) : SlashFree path :=
  ⟨isLabPath_ne_nil (mem_labPaths.mp h).2, fun name hname => (labPath_names h name hname).2.1⟩

theorem isLabPath_append {path rest : List (List Char)} (hrest : rest ≠ []) :
    isLabPath (path ++ rest) = isLabPath rest := by
  rw [isLabPath, isLabPath, List.getLast?_append_of_ne_nil _ hrest]

theorem FolderTree.labPaths_missing (tree : FolderTree) {dest : List (List Char)}
    (hmissing : tree.entry dest = none) : ∀ path ∈ tree.labPaths, ¬ dest <+: path := by
  intro path hpath hp
  refine tree.entry_of_prefix hp ?_ hmissing
  rw [(mem_labPaths.mp hpath).1]
  exact Option.some_ne_none _

/-- The labs after a move of a folder. -/
theorem FolderTree.labPaths_move_folder {source dest : List (List Char)}
    (h : tree.MovesTo source dest) (hfolder : tree.entry source = some .folder) :
    (tree.move source dest h).labPaths = rebase source dest '' tree.labPaths := by
  have hrest : ∀ rest, tree.entry (source ++ rest) = some .file → rest ≠ [] := by
    rintro rest hfile rfl
    rw [List.append_nil, hfolder] at hfile
    cases hfile
  ext path
  rw [mem_labPaths]
  change tree.movedEntry source dest path = some .file ∧ isLabPath path = true ↔ _
  constructor
  · rintro ⟨hfile, hlab⟩
    unfold movedEntry at hfile
    split at hfile
    next hdest =>
      obtain ⟨rest, rfl⟩ := hdest
      rw [List.drop_left] at hfile
      have hne := hrest rest hfile
      refine ⟨source ++ rest, mem_labPaths.mpr ⟨hfile, ?_⟩, rebase_below _ _ _⟩
      rwa [isLabPath_append hne] at hlab ⊢
    next =>
      split at hfile
      next => cases hfile
      next hout =>
        split at hfile
        next => cases hfile
        next => exact ⟨path, mem_labPaths.mpr ⟨hfile, hlab⟩, rebase_apart dest hout⟩
  · rintro ⟨from', hfrom, rfl⟩
    obtain ⟨hfile, hlab⟩ := mem_labPaths.mp hfrom
    by_cases hbelow : source <+: from'
    · obtain ⟨rest, rfl⟩ := hbelow
      have hne := hrest rest hfile
      rw [rebase_below, movedEntry, if_pos (List.prefix_append _ _), List.drop_left]
      refine ⟨hfile, ?_⟩
      rwa [isLabPath_append hne] at hlab ⊢
    · rw [rebase_apart dest hbelow, movedEntry,
        if_neg (tree.labPaths_missing h.missing from' hfrom), if_neg hbelow,
        if_neg (fun hp => h.noFile from' (List.mem_inits _ _ |>.mpr hp) hfile)]
      exact ⟨hfile, hlab⟩

/-- A file has nothing below it. -/
theorem FolderTree.eq_of_file {source path : List (List Char)}
    (hfile : tree.entry source = some .file) (h : tree.entry path ≠ none) (hp : source <+: path) :
    path = source := by
  obtain ⟨rest, rfl⟩ := hp
  by_contra hne
  have hrest : rest ≠ [] := fun he => hne (by rw [he, List.append_nil])
  rw [tree.folder_of_prefix hrest h] at hfile
  cases hfile

/-- The labs after a move of a file. -/
theorem FolderTree.labPaths_move_file {source dest : List (List Char)}
    (h : tree.MovesTo source dest) (hfile : tree.entry source = some .file) :
    (tree.move source dest h).labPaths =
      {path | path ∈ tree.labPaths ∧ path ≠ source ∨ path = dest ∧ isLabPath dest = true} := by
  ext path
  rw [mem_labPaths]
  change tree.movedEntry source dest path = some .file ∧ isLabPath path = true ↔
    path ∈ tree.labPaths ∧ path ≠ source ∨ path = dest ∧ isLabPath dest = true
  by_cases hdest : path = dest
  · subst hdest
    have hout : path ∉ tree.labPaths := fun hp => by
      have he := (mem_labPaths.mp hp).1
      rw [h.missing] at he
      cases he
    simp [movedEntry, hfile, hout]
  · rw [or_iff_left (fun he => hdest he.1), mem_labPaths]
    unfold movedEntry
    split
    next hp =>
      obtain ⟨rest, rfl⟩ := hp
      have hrest : rest ≠ [] := fun he => hdest (by rw [he, List.append_nil])
      rw [List.drop_left]
      constructor
      · rintro ⟨he, _⟩
        have hsame := eq_of_file hfile (by rw [he]; exact Option.some_ne_none _)
          (List.prefix_append source rest)
        exact absurd (List.append_right_eq_self.mp hsame) hrest
      · rintro ⟨⟨he, hlab⟩, _⟩
        exact absurd (List.prefix_append dest rest)
          (tree.labPaths_missing h.missing _ (mem_labPaths.mpr ⟨he, hlab⟩))
    next =>
      split
      next hs =>
        refine ⟨fun he => absurd he.1 (Option.some_ne_none _).symm, ?_⟩
        rintro ⟨⟨he, _⟩, hne⟩
        exact absurd (eq_of_file hfile (by rw [he]; exact Option.some_ne_none _) hs) hne
      next hs =>
        have hne : path ≠ source := fun he => hs (he ▸ List.prefix_refl _)
        split
        next hp =>
          refine ⟨fun he => absurd he.1 (by decide), ?_⟩
          rintro ⟨⟨he, _⟩, _⟩
          exact absurd he (h.noFile path ((List.mem_inits _ _).mpr hp))
        next => simp [hne]

theorem FolderTree.labPaths_rmtree (tree : FolderTree) (target : List (List Char)) :
    (tree.rmtree target).labPaths = {path | path ∈ tree.labPaths ∧ ¬ target <+: path} := by
  ext path
  rw [mem_labPaths]
  change (if target <+: path then none else tree.entry path) = some .file ∧ isLabPath path = true ↔
    path ∈ tree.labPaths ∧ ¬ target <+: path
  rw [mem_labPaths]
  split
  next hp => simp [hp]
  next hp => simp [hp]

/-- The filenames of the rows. -/
def FolderSite.filenames (site : FolderSite) : Set String :=
  {filename | ∃ lab ∈ site.labs, lab.filename = filename}

theorem FolderSite.inStep_iff :
    site.InStep ↔ site.filenames = pathText '' site.tree.labPaths := by
  unfold InStep filenames
  rw [Set.ext_iff]
  rfl

theorem FolderSite.InStep.finite (h : site.InStep) :
    site.tree.labPaths.Finite := by
  have hfilenames : (pathText '' site.tree.labPaths).Finite := by
    rw [← FolderSite.inStep_iff.mp h]
    refine Set.Finite.subset (List.finite_toSet (site.labs.map FolderLab.filename)) ?_
    rintro filename ⟨lab, hlab, rfl⟩
    exact List.mem_map_of_mem hlab
  refine Set.Finite.of_finite_image hfilenames fun path hpath other hother he => ?_
  rw [← textSegments_pathText (FolderTree.labPath_slashFree hpath), he,
    textSegments_pathText (FolderTree.labPath_slashFree hother)]

/-- The filenames after the rows at or below the old prefix are renamed. -/
theorem FolderSite.InStep.renamed_filenames (h : site.InStep) (tree : FolderTree)
    {oldPrefix newPrefix : String} (hnew : newPrefix ≠ "") :
    FolderSite.filenames ⟨tree, site.labs.map (renameLab oldPrefix newPrefix)⟩ =
      pathText '' (rebase (textSegments oldPrefix) (textSegments newPrefix) ''
        site.tree.labPaths) := by
  have hrow : ∀ lab ∈ site.labs, ∃ path ∈ site.tree.labPaths, pathText path = lab.filename :=
    fun lab hlab => (h lab.filename).mp ⟨lab, hlab, rfl⟩
  have hmoved : ∀ lab : FolderLab, ∀ path ∈ site.tree.labPaths, pathText path = lab.filename →
      (renameLab oldPrefix newPrefix lab).filename =
        pathText (rebase (textSegments oldPrefix) (textSegments newPrefix) path) :=
    fun lab path hpath he => renameLab_filename hnew (FolderTree.labPath_names hpath)
      (FolderTree.labPath_slashFree hpath).1 he.symm
  ext filename
  constructor
  · rintro ⟨renamed, hrenamed, rfl⟩
    obtain ⟨lab, hlab, rfl⟩ := List.mem_map.mp hrenamed
    obtain ⟨path, hpath, he⟩ := hrow lab hlab
    exact ⟨_, Set.mem_image_of_mem _ hpath, (hmoved lab path hpath he).symm⟩
  · rintro ⟨_, ⟨path, hpath, rfl⟩, rfl⟩
    obtain ⟨lab, hlab, he⟩ := (h (pathText path)).mpr ⟨path, hpath, rfl⟩
    exact ⟨renameLab oldPrefix newPrefix lab, List.mem_map_of_mem hlab,
      hmoved lab path hpath he.symm⟩

/-- The rows are moved as the labs on disk are. A file may also lose its name as a lab, when its
row takes the filename of another lab. -/
def LabsFollow (tree : FolderTree) (source dest old new : List (List Char)) : Prop :=
  ((tree.entry source = some .file → isLabPath source = isLabPath dest) ∧
      ∀ path ∈ tree.labPaths, rebase source dest path = rebase old new path) ∨
    tree.entry source = some .file ∧ isLabPath source = true ∧ isLabPath dest = false ∧
      old = source ∧ new ∈ tree.labPaths

theorem FolderTree.labPaths_move_alike {source dest : List (List Char)}
    (h : tree.MovesTo source dest) (hfile : tree.entry source = some .file)
    (halike : isLabPath source = isLabPath dest) :
    (tree.move source dest h).labPaths = rebase source dest '' tree.labPaths := by
  have hrebase : ∀ path ∈ tree.labPaths,
      rebase source dest path = if path = source then dest else path := by
    intro path hpath
    split
    next he => rw [he, rebase_self]
    next hne =>
      refine rebase_apart dest fun hp => hne (eq_of_file hfile ?_ hp)
      rw [(mem_labPaths.mp hpath).1]
      exact Option.some_ne_none _
  rw [labPaths_move_file h hfile]
  ext path
  constructor
  · rintro (⟨hpath, hne⟩ | ⟨rfl, hlab⟩)
    · exact ⟨path, hpath, by rw [hrebase path hpath, if_neg hne]⟩
    · have hsource : source ∈ tree.labPaths := mem_labPaths.mpr ⟨hfile, halike.trans hlab⟩
      exact ⟨source, hsource, by rw [hrebase source hsource, if_pos rfl]⟩
  · rintro ⟨from', hfrom, rfl⟩
    rw [hrebase from' hfrom]
    split
    next he =>
      subst he
      exact Or.inr ⟨rfl, halike.symm.trans (mem_labPaths.mp hfrom).2⟩
    next hne => exact Or.inl ⟨hfrom, hne⟩

/-- A lab that is renamed to no lab is lost, unless its row joins that of another lab. -/
theorem FolderTree.labPaths_move_lost {source dest old new : List (List Char)}
    (h : tree.MovesTo source dest) (hfile : tree.entry source = some .file)
    (hlab : isLabPath source = true) (hlost : isLabPath dest = false)
    (hold : old <+: source → old = source) (hnew : new ≠ old) :
    (tree.move source dest h).labPaths = rebase old new '' tree.labPaths ↔
      old = source ∧ new ∈ tree.labPaths := by
  have hsource : source ∈ tree.labPaths := mem_labPaths.mpr ⟨hfile, hlab⟩
  have hmoved : (tree.move source dest h).labPaths = {path | path ∈ tree.labPaths ∧ path ≠ source} := by
    rw [labPaths_move_file h hfile]
    simp [hlost]
  rw [hmoved]
  constructor
  · intro he
    have himage : rebase old new source ∈ {path | path ∈ tree.labPaths ∧ path ≠ source} :=
      he ▸ Set.mem_image_of_mem _ hsource
    have hsame : old = source := by
      refine hold ?_
      by_contra hapart
      rw [rebase_apart new hapart] at himage
      exact himage.2 rfl
    refine ⟨hsame, ?_⟩
    rw [hsame, rebase_self] at himage
    exact himage.1
  · rintro ⟨rfl, hin⟩
    have hapart : ∀ path ∈ tree.labPaths, path ≠ old → ¬ old <+: path := by
      intro path hpath hne hp
      refine hne (eq_of_file hfile ?_ hp)
      rw [(mem_labPaths.mp hpath).1]
      exact Option.some_ne_none _
    ext path
    constructor
    · rintro ⟨hpath, hne⟩
      exact ⟨path, hpath, rebase_apart new (hapart path hpath hne)⟩
    · rintro ⟨from', hfrom, rfl⟩
      by_cases he : from' = old
      · rw [he, rebase_self]
        exact ⟨hin, hnew⟩
      · rw [rebase_apart new (hapart from' hfrom he)]
        exact ⟨hfrom, he⟩

/-- No row follows a file that becomes a lab by its new name. -/
theorem FolderTree.labPaths_move_gained {source dest old new : List (List Char)}
    (hfinite : tree.labPaths.Finite) (h : tree.MovesTo source dest)
    (hfile : tree.entry source = some .file) (hlab : isLabPath source = false)
    (hgained : isLabPath dest = true) (hnew : new ≠ old) :
    (tree.move source dest h).labPaths ≠ rebase old new '' tree.labPaths := by
  have hsource : source ∉ tree.labPaths := fun hin => by
    have he := (mem_labPaths.mp hin).2
    rw [hlab] at he
    cases he
  rw [labPaths_move_file h hfile]
  intro he
  have hdest : dest ∈ rebase old new '' tree.labPaths := he ▸ Or.inr ⟨rfl, hgained⟩
  obtain ⟨path, hpath, hto⟩ := hdest
  have hbelow : old <+: path := by
    by_contra hapart
    rw [rebase_apart new hapart] at hto
    exact tree.labPaths_missing h.missing path hpath (hto ▸ List.prefix_refl _)
  obtain ⟨rest, rfl⟩ := hbelow
  refine hnew (eq_of_shifts (hfinite.preimage fun _ _ _ _ hc => List.append_cancel_left hc)
    ⟨rest, hpath⟩ fun tail htail => ?_).symm
  have himage : old ++ tail ∈ rebase old new '' tree.labPaths :=
    he ▸ Or.inl ⟨htail, fun hs => hsource (hs ▸ htail)⟩
  obtain ⟨other, hother, hat⟩ := himage
  by_cases hunder : old <+: other
  · obtain ⟨under, rfl⟩ := hunder
    exact ⟨under, hother, by rw [← hat, rebase_below]⟩
  · rw [rebase_apart new hunder] at hat
    exact absurd (hat ▸ List.prefix_append _ _) hunder

theorem FolderTree.labPaths_move_iff {source dest old new : List (List Char)}
    (hfinite : tree.labPaths.Finite) (h : tree.MovesTo source dest)
    (hsource : tree.entry source ≠ none) (hold : old <+: source → old = source) (hnew : new ≠ old) :
    (tree.move source dest h).labPaths = rebase old new '' tree.labPaths ↔
      LabsFollow tree source dest old new := by
  have hmissing := tree.labPaths_missing h.missing
  unfold LabsFollow
  cases hkind : tree.entry source with
  | none => exact absurd hkind hsource
  | some kind =>
    cases kind with
    | folder =>
      rw [labPaths_move_folder h hkind, rebase_image_eq_iff hfinite hmissing hold hnew]
      simp
    | file =>
      by_cases halike : isLabPath source = isLabPath dest
      · rw [labPaths_move_alike h hkind halike, rebase_image_eq_iff hfinite hmissing hold hnew]
        simp [halike]
        intro hd hnd
        rw [hd] at hnd
        cases hnd
      · cases hs : isLabPath source with
        | true =>
          have hd : isLabPath dest = false := by simpa [hs] using halike
          rw [labPaths_move_lost h hkind hs hd hold hnew]
          simp [hd]
        | false =>
          have hd : isLabPath dest = true := by simpa [hs] using halike
          have hne := labPaths_move_gained hfinite h hkind hs hd hnew
          simp [hd, hne]

theorem stripChars_eq_of_ends {p : Char → Bool} {cs : List Char}
    (hhead : ∀ c, cs.head? = some c → p c = false)
    (hlast : ∀ c, cs.getLast? = some c → p c = false) : stripChars p cs = cs := by
  by_cases hne : cs = []
  · subst hne
    rfl
  · have happend := @stripChars_append p cs [] hne hhead hlast
    simpa using happend

/-- What is scoped has no slash around it. -/
theorem folderPrefix_scoped {user : UserRead} {rawPath scopedPath : String} {absolute : Bool}
    (h : scopedFolderPath user rawPath absolute = .ok scopedPath) :
    folderPrefix scopedPath = scopedPath := by
  have htrimmed : ∀ raw, stripChars (fun c => c == '/') (trimmedPath raw) = trimmedPath raw :=
    fun raw => stripChars_idem _ _
  have hroot : stripChars (fun c => c == '/') (userRoot user).toList = (userRoot user).toList := by
    unfold userRoot
    split
    next => rfl
    next => rw [String.toList_ofList, htrimmed]
  suffices hs : stripChars (fun c => c == '/') scopedPath.toList = scopedPath.toList by
    rw [folderPrefix, hs, String.ofList_toList]
  unfold scopedFolderPath scopedLabPath at h
  simp only at h
  split at h
  next => rw [← Except.ok.inj h, String.toList_ofList, htrimmed]
  next hempty =>
    split at h
    next => rw [← Except.ok.inj h, hroot]
    next hnormalized =>
      split at h
      next => rw [← Except.ok.inj h, String.toList_ofList, htrimmed]
      next =>
        split at h
        next => cases h
        next =>
          rw [← Except.ok.inj h]
          have hrootne : (userRoot user).toList ≠ [] :=
            fun he => hempty (String.toList_eq_nil_iff.mp he)
          have hrawne : trimmedPath rawPath ≠ [] :=
            fun he => hnormalized (by rw [he])
          simp only [String.toList_append, String.toList_ofList]
          refine stripChars_eq_of_ends ?_ ?_
          · intro c hc
            rw [List.append_assoc, List.head?_append_of_ne_nil _ hrootne] at hc
            exact head_of_stripChars_eq hroot hc
          · intro c hc
            rw [List.getLast?_append_of_ne_nil _ hrawne] at hc
            exact last_of_stripChars_eq (htrimmed rawPath) hc

theorem safeFolderPath_eq_ok {folderPath : String} (h : safeFolderPath folderPath = .ok path) :
    path = labPathParts folderPath := by
  unfold safeFolderPath at h
  simp only at h
  split at h
  next => cases h
  next => exact (Except.ok.inj h).symm

/-- The segments on disk are no longer than the text they are read from. -/
theorem textSegments_prefix_safe {folderPath : String} (h : safeFolderPath folderPath = .ok path)
    (hp : textSegments folderPath <+: path) :
    textSegments folderPath = path := by
  obtain ⟨rest, hrest⟩ := hp
  by_cases hnil : rest = []
  · rw [← hrest, hnil, List.append_nil]
  · exfalso
    have hfilter := @length_intercalate_le_of_sublist ['/'] _ _
      (List.filter_sublist (p := fun part => decide (part ≠ []) && decide (part ≠ ['.']))
        (l := (trimmedPath folderPath).splitOn '/'))
    rw [← labPathParts_eq, ← safeFolderPath_eq_ok h, List.intercalate_splitOn] at hfilter
    have htrim := (stripChars_sublist (fun c => c == '/')
      ((stripChars isPySpace folderPath.toList).map
        (fun c => if c == '\\' then '/' else c))).length_le
    have hstrip := (stripChars_sublist isPySpace folderPath.toList).length_le
    rw [List.length_map] at htrim
    have hjoin := congrArg List.length
      (pathText_append_toList (slashFree_textSegments folderPath).1 hnil)
    rw [pathText_textSegments, hrest, pathText, String.toList_ofList] at hjoin
    simp only [List.length_append, List.length_cons] at hjoin
    unfold trimmedPath at hfilter
    omega

/-- The rename gets as far as the move. -/
structure RenameMoves (host : FolderHost) (user : UserRead) (site : FolderSite)
    (folderPath newPath scopedOldPath scopedNewPath : String)
    (source dest : List (List Char)) : Prop where
  oldScoped : scopedFolderPath user folderPath true = .ok scopedOldPath
  newScoped : scopedFolderPath user newPath false = .ok scopedNewPath
  sourceSafe : safeFolderPath scopedOldPath = .ok source
  destSafe : safeFolderPath scopedNewPath = .ok dest
  short : host.tooLong source = false ∧ host.tooLong dest = false
  present : site.tree.entry source ≠ none
  moves : site.tree.MovesTo source dest
  parent : site.tree.entry source = some .file → site.tree.entry dest.dropLast ≠ none

theorem RenameMoves.rename_eq {host : FolderHost} {user : UserRead}
    {folderPath newPath scopedOldPath scopedNewPath : String} {source dest : List (List Char)}
    (h : RenameMoves host user site folderPath newPath scopedOldPath scopedNewPath source dest) :
    site.tree.rename host scopedOldPath scopedNewPath = .ok (site.tree.move source dest h.moves) := by
  unfold FolderTree.rename
  simp only [h.sourceSafe, h.destSafe]
  rw [if_neg (by simp [h.short.1]), if_neg h.present, if_neg (by simp [h.short.2]),
    if_neg (by simp [h.moves.missing]), dif_pos h.moves,
    if_neg (fun hp => h.parent hp.1 hp.2)]

theorem rename_ok {host : FolderHost} {tree moved : FolderTree} {oldPath newPath : String}
    (h : tree.rename host oldPath newPath = .ok moved) :
    ∃ source dest, safeFolderPath oldPath = .ok source ∧ safeFolderPath newPath = .ok dest ∧
      (host.tooLong source = false ∧ host.tooLong dest = false) ∧ tree.entry source ≠ none ∧
        tree.MovesTo source dest ∧
          (tree.entry source = some .file → tree.entry dest.dropLast ≠ none) := by
  unfold FolderTree.rename at h
  split at h
  next => cases h
  next => cases h
  next source dest hsource hdest =>
    split at h
    next => cases h
    next hlong =>
      split at h
      next => cases h
      next hpresent =>
        split at h
        next => cases h
        next hdestlong =>
          split at h
          next => cases h
          next =>
            split at h
            next hmoves =>
              split at h
              next => cases h
              next hparent =>
                exact ⟨source, dest, hsource, hdest, ⟨by simpa using hlong,
                  by simpa using hdestlong⟩, hpresent, hmoves, fun hf hn => hparent ⟨hf, hn⟩⟩
            next => cases h

theorem renameCode_ne (e : FolderError) : e.renameCode ≠ 200 := by
  cases e <;> decide

theorem deleteCode_ne (e : FolderError) : e.deleteCode ≠ 200 := by
  cases e <;> decide

/-- A rename is refused and changes nothing, or it moves what it names. -/
theorem renameFolder_cases (host : FolderHost) (user : UserRead) (site : FolderSite)
    (folderPath newPath : String) :
    (∃ code, code ≠ 200 ∧ renameFolder host user site folderPath newPath = (code, site) ∧
      ∀ scopedOldPath scopedNewPath source dest,
        ¬ RenameMoves host user site folderPath newPath scopedOldPath scopedNewPath source dest) ∨
    ∃ scopedOldPath scopedNewPath source dest,
      ∃ h : RenameMoves host user site folderPath newPath scopedOldPath scopedNewPath source dest,
        renameFolder host user site folderPath newPath =
          if site.labs.all (filenameFits scopedOldPath scopedNewPath) then
            (200, ⟨site.tree.move source dest h.moves,
              site.labs.map (renameLab scopedOldPath scopedNewPath)⟩)
          else (500, ⟨site.tree.move source dest h.moves, site.labs⟩) := by
  by_cases hmoves : ∃ scopedOldPath scopedNewPath source dest,
      RenameMoves host user site folderPath newPath scopedOldPath scopedNewPath source dest
  · right
    obtain ⟨scopedOldPath, scopedNewPath, source, dest, h⟩ := hmoves
    refine ⟨scopedOldPath, scopedNewPath, source, dest, h, ?_⟩
    unfold renameFolder
    simp only [h.oldScoped, h.newScoped, h.rename_eq, folderPrefix_scoped h.oldScoped,
      folderPrefix_scoped h.newScoped]
  · left
    unfold renameFolder
    split
    next scopedOldPath scopedNewPath hold hnew =>
      split
      next e _ => exact ⟨e.renameCode, renameCode_ne e, rfl,
        fun a b c d h => hmoves ⟨a, b, c, d, h⟩⟩
      next tree htree =>
        obtain ⟨source, dest, hsource, hdest, hshort, hpresent, hto, hparent⟩ := rename_ok htree
        exact absurd ⟨scopedOldPath, scopedNewPath, source, dest, hold, hnew, hsource, hdest,
          hshort, hpresent, hto, hparent⟩ hmoves
    next => exact ⟨_, renameCode_ne .permission, rfl, fun a b c d h => hmoves ⟨a, b, c, d, h⟩⟩

/-- The deletion gets as far as the removal. -/
structure DeleteRemoves (host : FolderHost) (user : UserRead) (site : FolderSite)
    (folderPath scopedPath : String) (target : List (List Char)) : Prop where
  within : scopedFolderPath user folderPath true = .ok scopedPath
  unreferenced : host.scopeCheck scopedPath = .ok ()
  safe : safeFolderPath scopedPath = .ok target
  short : host.tooLong target = false
  folder : site.tree.entry target = some .folder

/-- A deletion is refused and changes nothing, or it removes what it names. -/
theorem deleteFolder_cases (host : FolderHost) (user : UserRead) (site : FolderSite)
    (folderPath : String) :
    (∃ code, code ≠ 200 ∧ deleteFolder host user site folderPath = (code, site) ∧
      ∀ scopedPath target, ¬ DeleteRemoves host user site folderPath scopedPath target) ∨
    ∃ scopedPath target, DeleteRemoves host user site folderPath scopedPath target ∧
      deleteFolder host user site folderPath =
        (200, ⟨site.tree.rmtree target,
          site.labs.filter (fun lab => !atOrBelow scopedPath lab.filename)⟩) := by
  by_cases hremoves : ∃ scopedPath target,
      DeleteRemoves host user site folderPath scopedPath target
  · right
    obtain ⟨scopedPath, target, h⟩ := hremoves
    refine ⟨scopedPath, target, h, ?_⟩
    have hdelete : site.tree.delete host scopedPath = .ok (site.tree.rmtree target) := by
      simp [FolderTree.delete, h.safe, h.short, h.folder]
    unfold deleteFolder
    simp only [h.within, h.unreferenced, hdelete, folderPrefix_scoped h.within]
  · left
    unfold deleteFolder
    split
    next => exact ⟨_, deleteCode_ne .permission, rfl, fun a b h => hremoves ⟨a, b, h⟩⟩
    next scopedPath hscoped =>
      split
      next e _ => exact ⟨_, deleteCode_ne e, rfl, fun a b h => hremoves ⟨a, b, h⟩⟩
      next hcheck =>
        split
        next e _ => exact ⟨_, deleteCode_ne e, rfl, fun a b h => hremoves ⟨a, b, h⟩⟩
        next tree htree =>
          unfold FolderTree.delete at htree
          split at htree
          next => cases htree
          next target hsafe =>
            split at htree
            next => cases htree
            next hshort =>
              split at htree
              next => cases htree
              next =>
                split at htree
                next => cases htree
                next hfolder =>
                  exact absurd ⟨scopedPath, target, hscoped, hcheck, hsafe,
                    by simpa using hshort, by simpa using hfolder⟩ hremoves

/-- The rows that stay under their filenames have the path of it. -/
def OthersPathed (site : FolderSite) (folderPrefix : String) : Prop :=
  ∀ lab ∈ site.labs, atOrBelow folderPrefix lab.filename = false → lab.path = "/" ++ lab.filename

/-- No filename grows out of its column. -/
def FilenamesFit (site : FolderSite) (oldPrefix newPrefix : String) : Prop :=
  ∀ lab ∈ site.labs, atOrBelow oldPrefix lab.filename = true →
    lab.filename.length + newPrefix.length ≤ 255 + oldPrefix.length

theorem renamedFilename_length {oldPrefix newPrefix : String} (hnew : newPrefix ≠ "")
    (hnames : ∀ name ∈ path, EntryName name) (hbelow : textSegments oldPrefix <+: path) :
    (renamedFilename oldPrefix newPrefix (pathText path)).length + oldPrefix.length =
      (pathText path).length + newPrefix.length := by
  obtain ⟨rest, rfl⟩ := hbelow
  rw [renamedFilename_below hnew fun name hname => hnames name (List.mem_append_right _ hname)]
  by_cases hrest : rest = []
  · rw [hrest, List.append_nil, List.append_nil, pathText_textSegments, pathText_textSegments]
    omega
  · have hold := pathText_append_toList (slashFree_textSegments oldPrefix).1 hrest
    have hto := pathText_append_toList (slashFree_textSegments newPrefix).1 hrest
    rw [pathText_textSegments] at hold hto
    have holdlen := congrArg List.length hold
    have htolen := congrArg List.length hto
    simp only [List.length_append, String.length_toList] at holdlen htolen
    omega

theorem FolderSite.InStep.filenamesFit_iff (h : site.InStep) {oldPrefix newPrefix : String}
    (hnew : newPrefix ≠ "") :
    site.labs.all (filenameFits oldPrefix newPrefix) = true ↔
      FilenamesFit site oldPrefix newPrefix := by
  rw [List.all_eq_true]
  refine forall₂_congr fun lab hlab => ?_
  obtain ⟨path, hpath, he⟩ := (h lab.filename).mp ⟨lab, hlab, rfl⟩
  unfold filenameFits
  cases hbelow : atOrBelow oldPrefix lab.filename with
  | false => simp
  | true =>
    rw [← he, atOrBelow_pathText (FolderTree.labPath_slashFree hpath)] at hbelow
    have hlength := renamedFilename_length hnew (FolderTree.labPath_names hpath) hbelow
    rw [he] at hlength
    simp only [Bool.not_true, Bool.false_or, decide_eq_true_eq, forall_const]
    omega

theorem RenameMoves.new_ne_empty {host : FolderHost} {user : UserRead}
    {folderPath newPath scopedOldPath scopedNewPath : String} {source dest : List (List Char)}
    (h : RenameMoves host user site folderPath newPath scopedOldPath scopedNewPath source dest) :
    scopedNewPath ≠ "" := by
  rintro rfl
  have hdest : dest = [] := (safeFolderPath_eq_ok h.destSafe).trans (by decide)
  have hmissing := h.moves.missing
  rw [hdest] at hmissing
  exact site.tree.entry_of_prefix List.nil_prefix h.present hmissing

theorem RenameMoves.new_ne_old {host : FolderHost} {user : UserRead}
    {folderPath newPath scopedOldPath scopedNewPath : String} {source dest : List (List Char)}
    (h : RenameMoves host user site folderPath newPath scopedOldPath scopedNewPath source dest) :
    textSegments scopedNewPath ≠ textSegments scopedOldPath := by
  intro he
  have htext : scopedNewPath = scopedOldPath := by
    rw [← pathText_textSegments scopedNewPath, he, pathText_textSegments]
  have hsame : source = dest := by
    rw [safeFolderPath_eq_ok h.sourceSafe, safeFolderPath_eq_ok h.destSafe, htext]
  exact h.present (hsame ▸ h.moves.missing)

/-- The rows follow a request on disk: what a rename matches is what it moves and fits its column,
and what a deletion matches is what it removes. -/
def FolderRequest.RowsFollow (host : FolderHost) (user : UserRead) (site : FolderSite) :
    FolderRequest → Prop
  | .rename folderPath newPath =>
    ∀ scopedOldPath scopedNewPath source dest,
      RenameMoves host user site folderPath newPath scopedOldPath scopedNewPath source dest →
        FilenamesFit site scopedOldPath scopedNewPath ∧ OthersPathed site scopedOldPath ∧
          LabsFollow site.tree source dest (textSegments scopedOldPath)
            (textSegments scopedNewPath)
  | .delete folderPath =>
    ∀ scopedPath target, DeleteRemoves host user site folderPath scopedPath target →
      OthersPathed site scopedPath ∧
        ∀ path ∈ site.tree.labPaths, target <+: path ↔ textSegments scopedPath <+: path

theorem keepsInStep_refused {code : Nat} (h : code ≠ 200) :
    KeepsInStep site (code, site) :=
  ⟨fun he => absurd he h, fun _ => rfl⟩

theorem keepsInStep_done {site after : FolderSite} :
    KeepsInStep site (200, after) ↔
      after.InStep ∧ ∀ lab ∈ after.labs, lab.path = "/" ++ lab.filename :=
  ⟨fun h => h.success rfl, fun h => ⟨fun _ => h, fun hne => absurd rfl hne⟩⟩

theorem renameLab_path (oldPrefix newPrefix : String) (lab : FolderLab) :
    (renameLab oldPrefix newPrefix lab).path = "/" ++ (renameLab oldPrefix newPrefix lab).filename ↔
      (atOrBelow oldPrefix lab.filename = false → lab.path = "/" ++ lab.filename) := by
  unfold renameLab
  cases atOrBelow oldPrefix lab.filename <;> simp

theorem rename_keepsInStep_iff (host : FolderHost) (user : UserRead) (hstep : site.InStep)
    (folderPath newPath : String) :
    KeepsInStep site (renameFolder host user site folderPath newPath) ↔
      (FolderRequest.rename folderPath newPath).RowsFollow host user site := by
  rcases renameFolder_cases host user site folderPath newPath with
    ⟨code, hcode, he, hnone⟩ | ⟨scopedOldPath, scopedNewPath, source, dest, h, he⟩
  · rw [he]
    exact ⟨fun _ a b c d hm => absurd hm (hnone a b c d), fun _ => keepsInStep_refused hcode⟩
  · have hnew := h.new_ne_empty
    have hfollow : (FolderRequest.rename folderPath newPath).RowsFollow host user site ↔
        FilenamesFit site scopedOldPath scopedNewPath ∧ OthersPathed site scopedOldPath ∧
          LabsFollow site.tree source dest (textSegments scopedOldPath)
            (textSegments scopedNewPath) := by
      refine ⟨fun hall => hall _ _ _ _ h, ?_⟩
      rintro hone old new start place hm
      obtain rfl := Except.ok.inj (h.oldScoped.symm.trans hm.oldScoped)
      obtain rfl := Except.ok.inj (h.newScoped.symm.trans hm.newScoped)
      obtain rfl := Except.ok.inj (h.sourceSafe.symm.trans hm.sourceSafe)
      obtain rfl := Except.ok.inj (h.destSafe.symm.trans hm.destSafe)
      exact hone
    rw [he, hfollow, ← hstep.filenamesFit_iff hnew]
    by_cases hfits : site.labs.all (filenameFits scopedOldPath scopedNewPath) = true
    · have hpaths : (∀ lab ∈ site.labs.map (renameLab scopedOldPath scopedNewPath),
          lab.path = "/" ++ lab.filename) ↔ OthersPathed site scopedOldPath := by
        rw [List.forall_mem_map]
        exact forall₂_congr fun lab _ => renameLab_path scopedOldPath scopedNewPath lab
      have hrebased : ∀ path ∈ rebase (textSegments scopedOldPath) (textSegments scopedNewPath) ''
          site.tree.labPaths, SlashFree path := by
        rintro _ ⟨path, hpath, rfl⟩
        have hfree := FolderTree.labPath_slashFree hpath
        unfold rebase
        split
        next =>
          exact (slashFree_textSegments _).append fun name hname =>
            hfree.2 name (List.mem_of_mem_drop hname)
        next => exact hfree
      rw [if_pos hfits, keepsInStep_done, hpaths, FolderSite.inStep_iff,
        hstep.renamed_filenames _ hnew,
        pathText_image_eq_iff hrebased fun path hpath => FolderTree.labPath_slashFree hpath,
        eq_comm, FolderTree.labPaths_move_iff hstep.finite h.moves h.present
          (textSegments_prefix_safe h.sourceSafe) h.new_ne_old]
      simp [hfits, and_comm]
    · rw [if_neg hfits]
      refine ⟨fun hk => ?_, fun hall => absurd hall.1 hfits⟩
      have hcode : (500 : Nat) ≠ 200 := by decide
      have htree := congrArg FolderSite.tree (hk.failure hcode)
      have hentry : site.tree.movedEntry source dest source = site.tree.entry source :=
        congrFun (congrArg FolderTree.entry htree) source
      rw [FolderTree.movedEntry,
        if_neg (fun hp => site.tree.entry_of_prefix hp h.present h.moves.missing),
        if_pos (List.prefix_refl _)] at hentry
      exact absurd hentry.symm h.present

theorem FolderSite.InStep.kept_filenames (h : site.InStep) (tree : FolderTree)
    (folderPrefix : String) :
    FolderSite.filenames
        ⟨tree, site.labs.filter (fun lab => !atOrBelow folderPrefix lab.filename)⟩ =
      pathText '' {path | path ∈ site.tree.labPaths ∧ ¬ textSegments folderPrefix <+: path} := by
  ext filename
  constructor
  · rintro ⟨lab, hlab, rfl⟩
    obtain ⟨hin, hkept⟩ := List.mem_filter.mp hlab
    obtain ⟨path, hpath, he⟩ := (h lab.filename).mp ⟨lab, hin, rfl⟩
    refine ⟨path, ⟨hpath, fun hp => ?_⟩, he⟩
    rw [← atOrBelow_pathText (FolderTree.labPath_slashFree hpath), he] at hp
    simp [hp] at hkept
  · rintro ⟨path, ⟨hpath, hout⟩, rfl⟩
    obtain ⟨lab, hlab, he⟩ := (h (pathText path)).mpr ⟨path, hpath, rfl⟩
    refine ⟨lab, List.mem_filter.mpr ⟨hlab, ?_⟩, he⟩
    rw [← atOrBelow_pathText (FolderTree.labPath_slashFree hpath), Bool.not_eq_true] at hout
    rw [he, hout]
    rfl

theorem delete_keepsInStep_iff (host : FolderHost) (user : UserRead) (hstep : site.InStep)
    (folderPath : String) :
    KeepsInStep site (deleteFolder host user site folderPath) ↔
      (FolderRequest.delete folderPath).RowsFollow host user site := by
  rcases deleteFolder_cases host user site folderPath with
    ⟨code, hcode, he, hnone⟩ | ⟨scopedPath, target, h, he⟩
  · rw [he]
    exact ⟨fun _ a b hm => absurd hm (hnone a b), fun _ => keepsInStep_refused hcode⟩
  · have hfollow : (FolderRequest.delete folderPath).RowsFollow host user site ↔
        OthersPathed site scopedPath ∧
          ∀ path ∈ site.tree.labPaths, target <+: path ↔ textSegments scopedPath <+: path := by
      refine ⟨fun hall => hall _ _ h, ?_⟩
      rintro hone text place hm
      obtain rfl := Except.ok.inj (h.within.symm.trans hm.within)
      obtain rfl := Except.ok.inj (h.safe.symm.trans hm.safe)
      exact hone
    have hpaths : (∀ lab ∈ site.labs.filter (fun lab => !atOrBelow scopedPath lab.filename),
        lab.path = "/" ++ lab.filename) ↔ OthersPathed site scopedPath := by
      simp only [List.mem_filter, Bool.not_eq_true', and_imp]
      rfl
    have hkept : ∀ path ∈ {path | path ∈ site.tree.labPaths ∧ ¬ textSegments scopedPath <+: path},
        SlashFree path := fun path hpath => FolderTree.labPath_slashFree hpath.1
    rw [he, hfollow, keepsInStep_done, hpaths, FolderSite.inStep_iff, hstep.kept_filenames,
      pathText_image_eq_iff hkept fun path hpath => FolderTree.labPath_slashFree hpath,
      FolderTree.labPaths_rmtree, and_comm]
    refine and_congr_right fun _ => ?_
    rw [Set.ext_iff]
    refine forall_congr' fun path => ?_
    simp only [Set.mem_ofPred_eq, and_congr_right_iff, not_iff_not]
    exact imp_congr_right fun _ => iff_comm

/-- Disk and rows are in step after a request exactly when the rows follow it. -/
theorem folder_request_in_step_iff (host : FolderHost) (user : UserRead) {site : FolderSite}
    (hstep : site.InStep) (request : FolderRequest) :
    KeepsInStep site (request.handle host user site) ↔ request.RowsFollow host user site := by
  cases request with
  | rename folderPath newPath => exact rename_keepsInStep_iff host user hstep folderPath newPath
  | delete folderPath => exact delete_keepsInStep_iff host user hstep folderPath

/-- A folder with one lab in it. -/
def lectureTree : FolderTree where
  entry path :=
    if path = [] ∨ path = ["a".toList] then some .folder
    else if path = ["a".toList, "x.json".toList] then some .file else none
  closed := by
    rintro path name h
    rcases path with _ | ⟨first, _ | ⟨second, rest⟩⟩
    · rfl
    · obtain ⟨rfl, _⟩ : first = ['a'] ∧ name = ['x', '.', 'j', 's', 'o', 'n'] := by simpa using h
      rfl
    · simp at h
  named := by
    intro path h
    split at h
    next hp => rcases hp with rfl | rfl <;> decide
    next =>
      split at h
      next hp =>
        subst hp
        decide
      next => exact absurd rfl h

def lectureSite : FolderSite := ⟨lectureTree, [⟨"a/x.json", "/a/x.json"⟩]⟩

theorem lectureSite_inStep : lectureSite.InStep := by
  have hlabs : lectureTree.labPaths = {["a".toList, "x.json".toList]} := by
    ext path
    rw [FolderTree.mem_labPaths, Set.mem_singleton_iff]
    constructor
    · rintro ⟨hfile, _⟩
      change (if path = [] ∨ path = ["a".toList] then some EntryKind.folder
        else if path = ["a".toList, "x.json".toList] then some .file else none) = some .file at hfile
      split at hfile
      next => cases hfile
      next =>
        split at hfile
        next hp => exact hp
        next => cases hfile
    · rintro rfl
      decide
  rw [FolderSite.inStep_iff]
  change _ = pathText '' lectureTree.labPaths
  rw [hlabs, Set.image_singleton]
  ext filename
  simp only [FolderSite.filenames, lectureSite, List.mem_singleton, exists_eq_left,
    Set.mem_ofPred_eq, Set.mem_singleton_iff]
  exact eq_comm

def plainHost : FolderHost := ⟨fun _ => false, fun _ => .ok ()⟩

def rootUser : UserRead := ⟨"admin", "admin", "/"⟩

theorem lecture_rename_in_step :
    lectureSite.InStep ∧ KeepsInStep lectureSite
      ((FolderRequest.rename "a" "b").handle plainHost rootUser lectureSite) := by
  refine ⟨lectureSite_inStep, (folder_request_in_step_iff plainHost rootUser lectureSite_inStep
    (.rename "a" "b")).mpr ?_⟩
  intro oldPath newPath source dest h
  obtain rfl : "a" = oldPath := Except.ok.inj h.oldScoped
  obtain rfl : "b" = newPath := Except.ok.inj h.newScoped
  obtain rfl : ["a".toList] = source := Except.ok.inj h.sourceSafe
  obtain rfl : ["b".toList] = dest := Except.ok.inj h.destSafe
  refine ⟨?_, ?_, Or.inl ⟨fun hfile => ?_, fun _ _ => rfl⟩⟩
  · intro lab hlab _
    rw [List.mem_singleton.mp hlab]
    decide
  · intro lab hlab _
    rw [List.mem_singleton.mp hlab]
    decide
  · exact absurd hfile (by decide)

/-- A dot segment names the folder on disk and no row. -/
theorem dot_segment_leaves_the_rows :
    lectureSite.InStep ∧
      ¬ KeepsInStep lectureSite
        ((FolderRequest.rename "a/." "b").handle plainHost rootUser lectureSite) ∧
      ¬ KeepsInStep lectureSite
        ((FolderRequest.delete "a/.").handle plainHost rootUser lectureSite) := by
  have hlost : ∀ answer : Nat × FolderSite, answer.1 = 200 →
      ⟨"a/x.json", "/a/x.json"⟩ ∈ answer.2.labs →
        answer.2.tree.entry ["a".toList, "x.json".toList] = none →
          ¬ KeepsInStep lectureSite answer := by
    intro answer hcode hlab hgone hk
    obtain ⟨path, hpath, he⟩ := ((hk.success hcode).1 "a/x.json").mp ⟨_, hlab, rfl⟩
    have hsegments := textSegments_pathText (FolderTree.labPath_slashFree hpath)
    rw [he] at hsegments
    have hfile := (FolderTree.mem_labPaths.mp hpath).1
    rw [← hsegments] at hfile
    exact absurd (hgone.symm.trans hfile) (by decide)
  refine ⟨lectureSite_inStep, hlost _ ?_ ?_ ?_, hlost _ ?_ ?_ ?_⟩
  all_goals decide

end NovaVe
