import Mathlib.Data.List.Dedup
import Mathlib.Data.List.Induction
import Mathlib.Data.List.Lex
import Mathlib.Data.List.Sort
import NovaVe.DockerMarkers

namespace NovaVe

abbrev ImageId := { id : List Char // id ≠ [] }

/-- The local images: the tagged entries and the repositories of those without a tag. -/
structure LocalImages where
  tags : Dict RepoTag ImageId
  bare : List (List Char × ImageId) := []

/-- The columns that are read of a line of `docker image ls`. -/
structure ImageRow where
  id : List Char
  repository : List Char
  tag : List Char
deriving DecidableEq, Repr

def noneText : List Char := "<none>".toList

def LocalImages.rows (images : LocalImages) : List ImageRow :=
  images.tags.entries.map (fun entry => ⟨entry.2.val, entry.1.repository, entry.1.tag⟩) ++
    images.bare.map (fun entry => ⟨entry.2.val, entry.1, noneText⟩)

def ImageRow.reference (row : ImageRow) : List Char :=
  if row.tag ≠ [] ∧ row.tag ≠ noneText then row.repository ++ ':' :: row.tag else row.repository

structure ImageRecord where
  imageId : List Char
  repoTags : List (List Char) := []
  markerTags : List (List Char) := []
deriving DecidableEq, Repr

def ImageRecord.marked (record : ImageRecord) : Bool := decide (record.markerTags ≠ [])

def addUnique (xs : List (List Char)) (x : List Char) : List (List Char) :=
  if xs.contains x then xs else xs ++ [x]

def ImageRecord.add (record : ImageRecord) (reference : List Char) : ImageRecord :=
  if isMarkerTag reference then
    { record with markerTags := addUnique record.markerTags reference }
  else { record with repoTags := addUnique record.repoTags reference }

/-- The row names an image of a repository. -/
def ImageRow.Named (row : ImageRow) : Prop :=
  row.id ≠ [] ∧ row.repository ≠ [] ∧ row.repository ≠ noneText

instance (row : ImageRow) : Decidable row.Named :=
  inferInstanceAs (Decidable (row.id ≠ [] ∧ row.repository ≠ [] ∧ row.repository ≠ noneText))

def addRow (records : Dict (List Char) ImageRecord) (row : ImageRow) :
    Dict (List Char) ImageRecord :=
  if row.Named then
    records.set row.id (((records.get? row.id).getD { imageId := row.id }).add row.reference)
  else records

def readRows (rows : List ImageRow) : Dict (List Char) ImageRecord := rows.foldl addRow Dict.empty

/-- `list_all_images`. -/
def listAllImages (images : LocalImages) : List ImageRecord :=
  (readRows images.rows).entries.map Prod.snd

/-- What a record adds to the names of the catalog. -/
def ImageRecord.names (record : ImageRecord) : List (List Char) :=
  if record.marked then if record.repoTags ≠ [] then record.repoTags else record.markerTags else []

/-- `list_marked_image_names`. -/
def listMarkedImageNames (images : LocalImages) : List (List Char) :=
  ((listAllImages images).flatMap ImageRecord.names).dedup.insertionSort
    (fun a b => a.map (fun c => c.toLower.toNat) ≤ b.map (fun c => c.toLower.toNat))

/-- The image is offered in the catalog. -/
def isListed (images : LocalImages) (id : ImageId) : Bool :=
  (listAllImages images).any (fun record => decide (record.imageId = id.val) && record.marked)

/-- The image a reference names. -/
def imageOf (docker : Docker) (images : LocalImages) (reference : List Char) : Option ImageId :=
  images.tags.get? (docker.listed reference)

/-- `docker tag`: a target that is there moves. -/
def dockerTag (docker : Docker) (images : LocalImages) (source target : List Char) :
    Option LocalImages :=
  if validReference docker target then
    (imageOf docker images source).map
      (fun id => { images with tags := images.tags.set (docker.listed target) id })
  else none

/-- `docker rmi` of a tag; one that is not there is reported as such. -/
def dockerRmi (docker : Docker) (images : LocalImages) (target : List Char) : Option LocalImages :=
  if validReference docker target then
    some { images with tags := images.tags.pop (docker.listed target) }
  else none

/-- `mark`; `none` when it raises. -/
def mark (docker : Docker) (images : LocalImages) (reference : List Char) :
    Option (LocalImages × List Char) :=
  if reference = [] then none
  else if imageOf docker images reference = none then none
  else (dockerTag docker images reference (markerFor reference)).map
    (fun images => (images, markerFor reference))

/-- The tag that `unmark` removes. -/
def markerOf (reference : List Char) : List Char :=
  if isMarkerTag reference then reference else markerFor reference

/-- `unmark`; `none` when it raises. -/
def unmark (docker : Docker) (images : LocalImages) (reference : List Char) :
    Option (LocalImages × List Char) :=
  (dockerRmi docker images (markerOf reference)).map (fun images => (images, markerOf reference))

inductive ImageCall
  | mark (reference : List Char)
  | unmark (reference : List Char)
deriving DecidableEq, Repr

def ImageCall.reference : ImageCall → List Char
  | .mark reference | .unmark reference => reference

/-- The images after a call; one that raises leaves them. -/
def ImageCall.apply (docker : Docker) (images : LocalImages) : ImageCall → LocalImages
  | .mark reference => ((NovaVe.mark docker images reference).map Prod.fst).getD images
  | .unmark reference => ((NovaVe.unmark docker images reference).map Prod.fst).getD images

def runCalls (docker : Docker) (images : LocalImages) (calls : List ImageCall) : LocalImages :=
  calls.foldl (ImageCall.apply docker) images

theorem runCalls_append (docker : Docker) (images : LocalImages) (calls more : List ImageCall) :
    runCalls docker images (calls ++ more) = runCalls docker (runCalls docker images calls) more :=
  List.foldl_append

theorem mem_addUnique {xs : List (List Char)} {x y : List Char} :
    y ∈ addUnique xs x ↔ y ∈ xs ∨ y = x := by
  unfold addUnique
  split
  next h =>
    rw [List.contains_iff_mem] at h
    refine ⟨Or.inl, ?_⟩
    rintro (hy | rfl)
    · exact hy
    · exact h
  next => simp

/-- What the rows say of an image is what its record holds. -/
structure RecordOf (rows : List ImageRow) (id : List Char) (record : ImageRecord) : Prop where
  imageId : record.imageId = id
  repoTags : ∀ name, name ∈ record.repoTags ↔
    ∃ row ∈ rows, row.Named ∧ row.id = id ∧ row.reference = name ∧ isMarkerTag name = false
  markerTags : ∀ name, name ∈ record.markerTags ↔
    ∃ row ∈ rows, row.Named ∧ row.id = id ∧ row.reference = name ∧ isMarkerTag name = true

theorem readRows_append (rows : List ImageRow) (row : ImageRow) :
    readRows (rows ++ [row]) = addRow (readRows rows) row := by
  rw [readRows, List.foldl_append]
  rfl

theorem ImageRecord.add_imageId (record : ImageRecord) (reference : List Char) :
    (record.add reference).imageId = record.imageId := by
  unfold ImageRecord.add
  split <;> rfl

theorem mem_add_repoTags {record : ImageRecord} {reference name : List Char} :
    name ∈ (record.add reference).repoTags ↔
      name ∈ record.repoTags ∨ (reference = name ∧ isMarkerTag name = false) := by
  unfold ImageRecord.add
  split
  next h =>
    refine ⟨Or.inl, ?_⟩
    rintro (hm | ⟨rfl, hf⟩)
    · exact hm
    · exact absurd (hf.symm.trans h) (by decide)
  next h =>
    simp only [mem_addUnique]
    refine or_congr_right ⟨?_, fun h => h.1.symm⟩
    rintro rfl
    exact ⟨rfl, by simpa using h⟩

theorem mem_add_markerTags {record : ImageRecord} {reference name : List Char} :
    name ∈ (record.add reference).markerTags ↔
      name ∈ record.markerTags ∨ (reference = name ∧ isMarkerTag name = true) := by
  unfold ImageRecord.add
  split
  next h =>
    simp only [mem_addUnique]
    refine or_congr_right ⟨?_, fun h => h.1.symm⟩
    rintro rfl
    exact ⟨rfl, h⟩
  next h =>
    refine ⟨Or.inl, ?_⟩
    rintro (hm | ⟨rfl, ht⟩)
    · exact hm
    · exact absurd ht h

theorem exists_mem_concat {α : Type} {P : α → Prop} {xs : List α} {x : α} :
    (∃ y ∈ xs ++ [x], P y) ↔ (∃ y ∈ xs, P y) ∨ P x := by
  simp [or_and_right, exists_or]

theorem RecordOf.add {rows : List ImageRow} {row : ImageRow} {record : ImageRecord}
    (h : RecordOf rows row.id record) (hnamed : row.Named) :
    RecordOf (rows ++ [row]) row.id (record.add row.reference) := by
  refine ⟨?_, ?_, ?_⟩
  · rw [ImageRecord.add_imageId, h.imageId]
  · intro name
    rw [mem_add_repoTags, h.repoTags, exists_mem_concat]
    simp [hnamed]
  · intro name
    rw [mem_add_markerTags, h.markerTags, exists_mem_concat]
    simp [hnamed]

theorem RecordOf.other {rows : List ImageRow} {row : ImageRow} {id : List Char}
    {record : ImageRecord} (h : RecordOf rows id record) (hnot : ¬ (row.Named ∧ row.id = id)) :
    RecordOf (rows ++ [row]) id record := by
  refine ⟨h.imageId, ?_, ?_⟩
  · intro name
    rw [h.repoTags, exists_mem_concat]
    exact ⟨Or.inl, fun hname => hname.resolve_right fun hr => hnot ⟨hr.1, hr.2.1⟩⟩
  · intro name
    rw [h.markerTags, exists_mem_concat]
    exact ⟨Or.inl, fun hname => hname.resolve_right fun hr => hnot ⟨hr.1, hr.2.1⟩⟩

theorem recordOf_new {rows : List ImageRow} {id : List Char}
    (h : ∀ row ∈ rows, row.Named → row.id ≠ id) : RecordOf rows id { imageId := id } := by
  refine ⟨rfl, ?_, ?_⟩
  · intro name
    refine ⟨fun hm => absurd hm List.not_mem_nil, ?_⟩
    rintro ⟨row, hrow, hnamed, hid, -⟩
    exact absurd hid (h row hrow hnamed)
  · intro name
    refine ⟨fun hm => absurd hm List.not_mem_nil, ?_⟩
    rintro ⟨row, hrow, hnamed, hid, -⟩
    exact absurd hid (h row hrow hnamed)

/-- A record holds the rows of its image, and an image with a row has one. -/
theorem readRows_spec (rows : List ImageRow) (id : List Char) :
    (∀ record, (readRows rows).get? id = some record → RecordOf rows id record) ∧
      ((readRows rows).get? id = none → ∀ row ∈ rows, row.Named → row.id ≠ id) := by
  induction rows using List.reverseRecOn with
  | nil =>
    refine ⟨?_, fun _ row h => absurd h List.not_mem_nil⟩
    intro record h
    cases h
  | append_singleton rows row ih =>
    have hother (hnot : ¬ (row.Named ∧ row.id = id)) :
        (∀ record, (readRows rows).get? id = some record → RecordOf (rows ++ [row]) id record) ∧
          ((readRows rows).get? id = none → ∀ r ∈ rows ++ [row], r.Named → r.id ≠ id) := by
      refine ⟨fun record hget => (ih.1 record hget).other hnot, ?_⟩
      intro hget r hr hnamed he
      rcases List.mem_append.mp hr with hr | hr
      · exact ih.2 hget r hr hnamed he
      · obtain rfl := List.mem_singleton.mp hr
        exact hnot ⟨hnamed, he⟩
    rw [readRows_append]
    unfold addRow
    split
    next hnamed =>
      rw [Dict.get?_set]
      split
      next hid =>
        subst hid
        refine ⟨?_, fun h => by cases h⟩
        intro record hget
        cases Option.some.inj hget
        refine RecordOf.add ?_ hnamed
        cases hold : (readRows rows).get? row.id with
        | some old => exact ih.1 old hold
        | none => exact recordOf_new (ih.2 hold)
      next hid => exact hother fun h => hid h.2
    next hnamed => exact hother fun h => hnamed h.1

theorem mem_listAllImages {images : LocalImages} {record : ImageRecord} :
    record ∈ listAllImages images ↔ ∃ id, (readRows images.rows).get? id = some record := by
  unfold listAllImages
  rw [List.mem_map]
  constructor
  · rintro ⟨entry, hentry, rfl⟩
    exact ⟨entry.1, assocGet_of_mem (readRows images.rows).keysNodup hentry⟩
  · rintro ⟨id, hget⟩
    exact ⟨(id, record), mem_of_assocGet hget, rfl⟩

/-- An image with a named row has a record. -/
theorem exists_record {images : LocalImages} {row : ImageRow} (hrow : row ∈ images.rows)
    (hnamed : row.Named) :
    ∃ record ∈ listAllImages images, RecordOf images.rows row.id record := by
  obtain ⟨hsome, hnone⟩ := readRows_spec images.rows row.id
  cases hget : (readRows images.rows).get? row.id with
  | none => exact absurd rfl (hnone hget row hrow hnamed)
  | some record => exact ⟨record, mem_listAllImages.mpr ⟨_, hget⟩, hsome record hget⟩

def RepoTag.text (key : RepoTag) : List Char := key.repository ++ ':' :: key.tag

/-- The row of a tagged entry. -/
def RepoTag.row (key : RepoTag) (id : ImageId) : ImageRow := ⟨id.val, key.repository, key.tag⟩

theorem RepoTag.row_named (key : RepoTag) (id : ImageId) : (key.row id).Named :=
  ⟨id.property, key.repositoryOk⟩

theorem RepoTag.row_reference (key : RepoTag) (id : ImageId) :
    (key.row id).reference = key.text := by
  have htag : key.tag ≠ [] ∧ key.tag ≠ noneText := by
    refine ⟨validTag_ne_nil key.tagOk, ?_⟩
    intro he
    have hvalid := key.tagOk
    rw [he] at hvalid
    exact absurd hvalid (by decide)
  rw [ImageRow.reference]
  exact if_pos htag

theorem mem_rows {images : LocalImages} {row : ImageRow} :
    row ∈ images.rows ↔ (∃ key id, images.tags.get? key = some id ∧ row = key.row id) ∨
      ∃ entry ∈ images.bare, row = ⟨entry.2.val, entry.1, noneText⟩ := by
  unfold LocalImages.rows
  rw [List.mem_append, List.mem_map, List.mem_map]
  refine or_congr ⟨?_, ?_⟩ ⟨?_, ?_⟩
  · rintro ⟨entry, hentry, rfl⟩
    exact ⟨entry.1, entry.2, assocGet_of_mem images.tags.keysNodup hentry, rfl⟩
  · rintro ⟨key, id, hget, rfl⟩
    exact ⟨(key, id), mem_of_assocGet hget, rfl⟩
  · rintro ⟨entry, hentry, rfl⟩
    exact ⟨entry, hentry, rfl⟩
  · rintro ⟨entry, hentry, rfl⟩
    exact ⟨entry, hentry, rfl⟩

/-- An image is offered exactly when one of its rows is a marker. -/
theorem isListed_iff {images : LocalImages} {id : ImageId} :
    isListed images id = true ↔
      ∃ row ∈ images.rows, row.Named ∧ row.id = id.val ∧ isMarkerTag row.reference = true := by
  unfold isListed
  simp only [List.any_eq_true, Bool.and_eq_true, decide_eq_true_eq, ImageRecord.marked]
  constructor
  · rintro ⟨record, hrecord, hid, hmarked⟩
    obtain ⟨key, hget⟩ := mem_listAllImages.mp hrecord
    have hspec := (readRows_spec images.rows key).1 record hget
    obtain ⟨name, hname⟩ := List.exists_mem_of_ne_nil _ hmarked
    obtain ⟨row, hrow, hnamed, hrowid, hreference, hmarker⟩ := (hspec.markerTags name).mp hname
    exact ⟨row, hrow, hnamed, by rw [hrowid, ← hspec.imageId, hid], by rw [hreference, hmarker]⟩
  · rintro ⟨row, hrow, hnamed, hid, hmarker⟩
    obtain ⟨record, hrecord, hspec⟩ := exists_record hrow hnamed
    have hmem := (hspec.markerTags row.reference).mpr ⟨row, hrow, hnamed, rfl, rfl, hmarker⟩
    exact ⟨record, hrecord, by rw [hspec.imageId, hid], List.ne_nil_of_mem hmem⟩

/-- The tags of an image decide whether it is offered. -/
theorem isListed_congr {images next : LocalImages} {id : ImageId} (hbare : next.bare = images.bare)
    (htags : ∀ key, next.tags.get? key = some id ↔ images.tags.get? key = some id) :
    isListed next id = isListed images id := by
  have himp {images next : LocalImages} (hbare : next.bare = images.bare)
      (htags : ∀ key, images.tags.get? key = some id → next.tags.get? key = some id)
      (h : isListed images id = true) : isListed next id = true := by
    obtain ⟨row, hrow, hnamed, hid, hmarker⟩ := isListed_iff.mp h
    refine isListed_iff.mpr ⟨row, mem_rows.mpr ?_, hnamed, hid, hmarker⟩
    rcases mem_rows.mp hrow with ⟨key, other, hget, rfl⟩ | hin
    · obtain rfl : other = id := Subtype.ext hid
      exact Or.inl ⟨key, other, htags key hget, rfl⟩
    · exact Or.inr (by rwa [hbare])
  rw [Bool.eq_iff_iff]
  exact ⟨himp hbare.symm fun key => (htags key).mp, himp hbare fun key => (htags key).mpr⟩

/-- A name of an image that has a marker is in the catalog. -/
theorem mem_listMarkedImageNames {images : LocalImages} {key marker : RepoTag} {id : ImageId}
    (hkey : images.tags.get? key = some id) (hplain : isMarkerTag key.text = false)
    (hmarkerKey : images.tags.get? marker = some id) (hmarker : isMarkerTag marker.text = true) :
    key.text ∈ listMarkedImageNames images := by
  have hrow : key.row id ∈ images.rows := mem_rows.mpr (Or.inl ⟨key, id, hkey, rfl⟩)
  have hmarkerRow : marker.row id ∈ images.rows :=
    mem_rows.mpr (Or.inl ⟨marker, id, hmarkerKey, rfl⟩)
  obtain ⟨record, hrecord, hspec⟩ := exists_record hrow (key.row_named id)
  have hrepo : key.text ∈ record.repoTags :=
    (hspec.repoTags key.text).mpr
      ⟨key.row id, hrow, key.row_named id, rfl, key.row_reference id, hplain⟩
  have hmarked : record.markerTags ≠ [] :=
    List.ne_nil_of_mem ((hspec.markerTags marker.text).mpr
      ⟨marker.row id, hmarkerRow, marker.row_named id, rfl, marker.row_reference id, hmarker⟩)
  have hname : key.text ∈ record.names := by
    rw [ImageRecord.names, ImageRecord.marked, if_pos (decide_eq_true hmarked),
      if_pos (List.ne_nil_of_mem hrepo)]
    exact hrepo
  unfold listMarkedImageNames
  rw [List.mem_insertionSort, List.mem_dedup]
  exact List.mem_flatMap.mpr ⟨record, hrecord, hname⟩

end NovaVe
