import NovaVe.MarkedImages

namespace NovaVe

/-- Docker lists a name of two components as it is written, where the first is no host and not
the namespace of the official images. -/
def Docker.ListsAsWritten (docker : Docker) : Prop :=
  ∀ reference first second tag, validReference docker reference = true →
    referenceComponents reference = [first, second] → referenceTag reference = some tag →
      isHostPart first = false → first ≠ "library".toList →
        (docker.listed reference).repository = first ++ '/' :: second ∧
          (docker.listed reference).tag = tag

/-- The image whose mark a call is about. -/
def ImageCall.subject (docker : Docker) (images : LocalImages) : ImageCall → Option ImageId
  | .mark reference => imageOf docker images reference
  | .unmark reference =>
    (imageOf docker images reference).or (imageOf docker images (markerOf reference))

/-- What a call has to meet: no port in its name, a marker that docker takes and that is on no
other image, and for a mark a reference that is no marker and is written as docker lists it. -/
structure CallMeets (docker : Docker) (images : LocalImages) (call : ImageCall) : Prop where
  readable : isMarkerTag call.reference = false →
    ':' ∉ referenceName call.reference ∧
      docker.fits none (12 + (referenceName call.reference).length) = true
  own : ∀ id, imageOf docker images (markerOf call.reference) = some id →
    call.subject docker images = some id
  written : ∀ reference, call = .mark reference →
    (docker.listed reference).text = reference ∧ isMarkerTag reference = false

/-- Every call of a run meets it in the state it finds. -/
def CallsMeet (docker : Docker) (images : LocalImages) : List ImageCall → Prop
  | [] => True
  | call :: calls => CallMeets docker images call ∧ CallsMeet docker (call.apply docker images) calls

/-- No call of a run unmarks the image. -/
def NotUnmarked (docker : Docker) (images : LocalImages) (id : ImageId) : List ImageCall → Prop
  | [] => True
  | call :: calls =>
    (∀ reference, call = .unmark reference → call.subject docker images ≠ some id) ∧
      NotUnmarked docker (call.apply docker images) id calls

/-- What the marks of a run are for. -/
structure MarkingSound (docker : Docker) (images : LocalImages) (calls : List ImageCall) : Prop where
  markers : ∀ call ∈ calls, isMarkerTag call.reference = false →
    OneSegmentMarker docker (markerFor call.reference)
  kept : ∀ before reference after, calls = before ++ .mark reference :: after →
    ∀ id, imageOf docker (runCalls docker images before) reference = some id →
      NotUnmarked docker (runCalls docker images (before ++ [.mark reference])) id after →
        reference ∈ listMarkedImageNames (runCalls docker images calls)
  others : ∀ before call after, calls = before ++ call :: after →
    ∀ id, call.subject docker (runCalls docker images before) ≠ some id →
      isListed (runCalls docker images (before ++ [call])) id =
        isListed (runCalls docker images before) id

theorem callsMeet_append {docker : Docker} {images : LocalImages} {calls more : List ImageCall}
    (h : CallsMeet docker images (calls ++ more)) :
    CallsMeet docker (runCalls docker images calls) more := by
  induction calls generalizing images with
  | nil => exact h
  | cons call calls ih => exact ih h.2

/-- What a call does to the tags: nothing, or it puts the marker on its image, or takes it away. -/
theorem apply_cases (docker : Docker) (images : LocalImages) (call : ImageCall) :
    call.apply docker images = images ∨
      (∃ reference id, call = .mark reference ∧ imageOf docker images reference = some id ∧
        call.apply docker images =
          { images with tags := images.tags.set (docker.listed (markerFor reference)) id }) ∨
      ∃ reference, call = .unmark reference ∧
        call.apply docker images =
          { images with tags := images.tags.pop (docker.listed (markerOf reference)) } := by
  cases call with
  | mark reference =>
    cases hmark : mark docker images reference with
    | none => exact Or.inl (by simp [ImageCall.apply, hmark])
    | some result =>
      refine Or.inr (Or.inl ?_)
      have hmark' := hmark
      unfold mark dockerTag at hmark'
      split at hmark'
      next => cases hmark'
      next =>
        split at hmark'
        next => cases hmark'
        next =>
          split at hmark'
          next =>
            obtain ⟨next, hnext, rfl⟩ := Option.map_eq_some_iff.mp hmark'
            obtain ⟨id, hid, rfl⟩ := Option.map_eq_some_iff.mp hnext
            exact ⟨reference, id, rfl, hid, by simp [ImageCall.apply, hmark]⟩
          next => cases hmark'
  | unmark reference =>
    cases hunmark : unmark docker images reference with
    | none => exact Or.inl (by simp [ImageCall.apply, hunmark])
    | some result =>
      refine Or.inr (Or.inr ⟨reference, rfl, ?_⟩)
      have hunmark' := hunmark
      unfold unmark dockerRmi at hunmark'
      split at hunmark'
      next =>
        cases Option.some.inj hunmark'
        simp [ImageCall.apply, hunmark]
      next => cases hunmark'

/-- A call that meets its condition moves no tag from or to another image. -/
theorem apply_tags {docker : Docker} {images : LocalImages} {call : ImageCall}
    (h : CallMeets docker images call) {id : ImageId} (hid : call.subject docker images ≠ some id)
    (key : RepoTag) :
    (call.apply docker images).tags.get? key = some id ↔ images.tags.get? key = some id := by
  rcases apply_cases docker images call with hsame | ⟨reference, target, rfl, htarget, hset⟩ |
      ⟨reference, rfl, hpop⟩
  · rw [hsame]
  · have hmarker := h.own id
    have hplain : ¬ isMarkerTag reference = true := by simp [(h.written reference rfl).2]
    have hof : markerOf reference = markerFor reference := if_neg hplain
    rw [ImageCall.reference, hof] at hmarker
    rw [hset, Dict.get?_set]
    split
    next hkey =>
      subst hkey
      refine ⟨?_, fun hget => absurd (hmarker hget) hid⟩
      intro he
      exact absurd (htarget.trans he) hid
    next => rfl
  · rw [hpop, Dict.get?_pop]
    split
    next hkey =>
      subst hkey
      exact ⟨fun he => (Option.some_ne_none _ he.symm).elim,
        fun hget => absurd (h.own id hget) hid⟩
    next => rfl

theorem apply_bare (docker : Docker) (images : LocalImages) (call : ImageCall) :
    (call.apply docker images).bare = images.bare := by
  rcases apply_cases docker images call with hsame | ⟨_, _, _, _, hset⟩ | ⟨_, _, hpop⟩
  · rw [hsame]
  · rw [hset]
  · rw [hpop]

/-- A call that does not unmark the image takes no tag from it. -/
theorem apply_keeps {docker : Docker} {images : LocalImages} {call : ImageCall}
    (h : CallMeets docker images call) {id : ImageId}
    (hnot : ∀ reference, call = .unmark reference → call.subject docker images ≠ some id)
    {key : RepoTag} (hkey : images.tags.get? key = some id) :
    (call.apply docker images).tags.get? key = some id := by
  by_cases hsubject : call.subject docker images = some id
  · rcases apply_cases docker images call with hsame | ⟨reference, target, rfl, htarget, hset⟩ |
        ⟨reference, rfl, hpop⟩
    · rwa [hsame]
    · obtain rfl : target = id := Option.some.inj (htarget.symm.trans hsubject)
      rw [hset, Dict.get?_set]
      split
      next => rfl
      next => exact hkey
    · exact absurd hsubject (hnot reference rfl)
  · exact (apply_tags h hsubject key).mpr hkey

theorem runCalls_keeps {docker : Docker} {images : LocalImages} {calls : List ImageCall}
    (h : CallsMeet docker images calls) {id : ImageId} (hnot : NotUnmarked docker images id calls)
    {key : RepoTag} (hkey : images.tags.get? key = some id) :
    (runCalls docker images calls).tags.get? key = some id := by
  induction calls generalizing images with
  | nil => exact hkey
  | cons call calls ih => exact ih h.2 hnot.2 (apply_keeps h.1 hnot.1 hkey)

/-- A marker of one segment is listed as it is written. -/
theorem listed_marker {docker : Docker} (hdocker : docker.ListsAsWritten) {marker : List Char}
    (h : OneSegmentMarker docker marker) : (docker.listed marker).text = marker := by
  obtain ⟨hvalid, segment, tag, hcomponents, htag⟩ := h
  obtain ⟨hrepository, hlisted⟩ :=
    hdocker marker markerNamespace segment tag hvalid hcomponents htag (by decide) (by decide)
  have hmarker := reference_eq marker
  rw [htag, referenceName, hcomponents, List.intercalate_cons_cons,
    List.intercalate_singleton] at hmarker
  rw [RepoTag.text, hrepository, hlisted, hmarker]
  simp [tagText]

theorem isMarkerTag_markerFor (reference : List Char) : isMarkerTag (markerFor reference) = true := by
  unfold isMarkerTag markerFor
  dsimp only
  rw [List.isPrefixOf_iff_prefix, List.append_assoc]
  exact List.prefix_append markerPrefix _

/-- After a mark the reference and its marker are on one image. -/
theorem mark_tags {docker : Docker} {images : LocalImages} {reference : List Char} {id : ImageId}
    (hne : reference ≠ []) (hvalid : validReference docker (markerFor reference) = true)
    (hid : imageOf docker images reference = some id) :
    ((ImageCall.mark reference).apply docker images).tags.get? (docker.listed reference) = some id ∧
      ((ImageCall.mark reference).apply docker images).tags.get?
        (docker.listed (markerFor reference)) = some id := by
  have happly : (ImageCall.mark reference).apply docker images =
      { images with tags := images.tags.set (docker.listed (markerFor reference)) id } := by
    simp [ImageCall.apply, mark, dockerTag, hne, hid, hvalid]
  rw [happly]
  refine ⟨?_, Dict.get?_set_self _ _ _⟩
  rw [Dict.get?_set]
  split
  next => rfl
  next => exact hid

theorem reference_ne_nil {docker : Docker} {reference : List Char}
    (h : validReference docker reference = true) : reference ≠ [] := by
  rintro rfl
  have hpath := (validReference_iff.mp h).path [] (by decide)
  exact absurd hpath (by decide)

/-- The marker of a valid reference is valid exactly without a port and within docker's length, and
in a run whose calls meet their conditions the marks are sound. -/
theorem marking_sound {docker : Docker} (hdocker : docker.ListsAsWritten) :
    (∀ reference, validReference docker reference = true →
      (OneSegmentMarker docker (markerFor reference) ↔
        ':' ∉ referenceName reference ∧
          docker.fits none (12 + (referenceName reference).length) = true)) ∧
    ∀ images calls, (∀ call ∈ calls, validReference docker call.reference = true) →
      CallsMeet docker images calls → MarkingSound docker images calls := by
  refine ⟨fun reference h => oneSegmentMarker_iff h, ?_⟩
  intro images calls hvalid hmeets
  have hstep {before after : List ImageCall} {call : ImageCall}
      (he : calls = before ++ call :: after) :
      CallMeets docker (runCalls docker images before) call ∧
        CallsMeet docker (call.apply docker (runCalls docker images before)) after := by
    rw [he] at hmeets
    exact callsMeet_append hmeets
  have hsplit (before : List ImageCall) (call : ImageCall) :
      runCalls docker images (before ++ [call]) =
        call.apply docker (runCalls docker images before) := runCalls_append _ _ _ _
  have hmarker {before after : List ImageCall} {call : ImageCall}
      (he : calls = before ++ call :: after) (hplain : isMarkerTag call.reference = false) :
      OneSegmentMarker docker (markerFor call.reference) :=
    (oneSegmentMarker_iff (hvalid call (by simp [he]))).mpr ((hstep he).1.readable hplain)
  refine ⟨?_, ?_, ?_⟩
  · intro call hcall hplain
    obtain ⟨before, after, he⟩ := List.append_of_mem hcall
    exact hmarker he hplain
  · intro before reference after he id hid hnot
    obtain ⟨hwritten, hplain⟩ := (hstep he).1.written reference rfl
    have hone := hmarker he hplain
    rw [ImageCall.reference] at hone
    have hmem : ImageCall.mark reference ∈ calls := he ▸ List.mem_append_right _ List.mem_cons_self
    have hok := hvalid _ hmem
    rw [ImageCall.reference] at hok
    have hne := reference_ne_nil hok
    obtain ⟨hkey, hmark⟩ := mark_tags hne hone.1 hid
    rw [hsplit] at hnot
    have hrun : runCalls docker images calls =
        runCalls docker ((ImageCall.mark reference).apply docker (runCalls docker images before))
          after := by
      rw [he, runCalls_append]
      rfl
    rw [hrun]
    have hkeep := @runCalls_keeps docker _ after (hstep he).2 id hnot
    have hname := mem_listMarkedImageNames (hkeep hkey) (by rwa [hwritten]) (hkeep hmark)
      (by rw [listed_marker hdocker hone]; exact isMarkerTag_markerFor reference)
    rwa [hwritten] at hname
  · intro before call after he id hid
    rw [hsplit]
    exact isListed_congr (apply_bare _ _ _) (apply_tags (hstep he).1 hid)

/-- A docker without official images that takes names of 255 characters. -/
def plainListed (reference : List Char) : RepoTag :=
  if h : (referenceName reference ≠ [] ∧ referenceName reference ≠ noneText) ∧
      validTag (markerTagOf reference) = true then
    ⟨referenceName reference, markerTagOf reference, h.1, h.2⟩
  else ⟨"untitled".toList, "latest".toList, by decide, by decide⟩

def plainDocker : Docker where
  fits := fun _ length => decide (length ≤ 255)
  listed := plainListed

theorem plainDocker_listsAsWritten : plainDocker.ListsAsWritten := by
  intro reference first second tag hvalid hcomponents htag _ _
  have hname : referenceName reference = first ++ '/' :: second := by
    rw [referenceName, hcomponents, List.intercalate_cons_cons, List.intercalate_singleton]
    simp
  have hslash : '/' ∈ referenceName reference := by simp [hname]
  have hok : (referenceName reference ≠ [] ∧ referenceName reference ≠ noneText) ∧
      validTag (markerTagOf reference) = true := by
    refine ⟨⟨List.ne_nil_of_mem hslash, ?_⟩, (validReference_iff.mp hvalid).markerTag_valid⟩
    intro he
    rw [he] at hslash
    exact absurd hslash (by decide)
  have hlisted : plainDocker.listed reference =
      ⟨referenceName reference, markerTagOf reference, hok.1, hok.2⟩ := dif_pos hok
  rw [hlisted]
  exact ⟨hname, by simp [markerTagOf, htag]⟩

def twoImages (first second : RepoTag) : LocalImages where
  tags := (Dict.empty.set first ⟨"sha256:aa".toList, by decide⟩).set second
    ⟨"sha256:bb".toList, by decide⟩

def alpineCalls : List ImageCall :=
  [.mark "gcr.io/foo:dev".toList, .mark "alpine:3.22".toList, .unmark "alpine:3.22".toList]

theorem own_of {x y : Option ImageId} (h : x = none ∨ x = y) :
    ∀ id, x = some id → y = some id := by
  rintro id rfl
  exact (h.resolve_left (Option.some_ne_none id)).symm

theorem alpine_marks_sound :
    MarkingSound plainDocker
      (twoImages (plainListed "gcr.io/foo:dev".toList) (plainListed "alpine:3.22".toList))
      alpineCalls := by
  refine (marking_sound plainDocker_listsAsWritten).2 _ _ (by decide)
    ⟨⟨by decide, own_of (by decide), ?_⟩, ⟨by decide, own_of (by decide), ?_⟩,
      ⟨by decide, own_of (by decide), ?_⟩, trivial⟩
  · intro reference he
    cases he
    decide
  · intro reference he
    cases he
    decide
  · intro reference he
    cases he

/-- A registry port ends up in no valid marker, and two names with one marker take it from each
other. -/
theorem shared_marker_moves :
    validReference plainDocker "localhost:5000/foo:1".toList = true ∧
      ¬ OneSegmentMarker plainDocker (markerFor "localhost:5000/foo:1".toList) ∧
      validReference plainDocker "a/b:1".toList = true ∧
      validReference plainDocker "a_b:1".toList = true ∧
      ¬ MarkingSound plainDocker
        (twoImages (plainListed "a/b:1".toList) (plainListed "a_b:1".toList))
        [.mark "a/b:1".toList, .mark "a_b:1".toList] := by
  refine ⟨by decide, ?_, by decide, by decide, ?_⟩
  · rintro ⟨hvalid, -⟩
    revert hvalid
    decide
  · intro h
    have hnot (reference : List Char) (he : ImageCall.mark "a_b:1".toList = .unmark reference) :
        False := by
      cases he
    have hmem := h.kept [] "a/b:1".toList [.mark "a_b:1".toList] rfl ⟨"sha256:aa".toList, by decide⟩
      (by decide) ⟨fun reference he => (hnot reference he).elim, trivial⟩
    revert hmem
    decide

end NovaVe
