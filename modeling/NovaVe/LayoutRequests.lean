import NovaVe.LabJsonIdentity

namespace NovaVe

variable {py : PyValues}

def layoutTopAllowed : List String := ["nodes", "networks", "viewport", "defaults"]

/-- `_LAYOUT_NODE_ALLOWED` and `_LAYOUT_NETWORK_ALLOWED`. -/
def layoutItemAllowed : List String := ["id", "left", "top"]

def layoutViewportAllowed : List String := ["x", "y", "zoom"]

def layoutDefaultsAllowed : List String := ["link_style"]

def forbiddenKeys (allowed : List String) (path : String) (fields : Fields) : List String :=
  ((fields.map Prod.fst).filter (fun key => decide (key ∉ allowed))).map (fun key => path ++ key)

/-- The forbidden paths in a list of items. -/
def forbiddenItems (part : String) : Option JsonValue → List String
  | some (.arr entries) => entries.flatMap (fun entry =>
    match entry with
    | .obj fields => forbiddenKeys layoutItemAllowed (part ++ "[*].") fields
    | _ => [part ++ "[*]"])
  | none | some .null => []
  | some _ => [part]

def forbiddenFields (part : String) (allowed : List String) : Option JsonValue → List String
  | some (.obj fields) => forbiddenKeys allowed (part ++ ".") fields
  | none | some .null => []
  | some _ => [part]

/-- The items, each where it comes first. -/
def firstOccurrences (items : List String) : List String :=
  items.foldl (fun unique item => if item ∈ unique then unique else unique ++ [item]) []

/-- `_layout_validate_and_collect_forbidden`. -/
def layoutForbidden (body : Fields) : List String :=
  firstOccurrences (forbiddenKeys layoutTopAllowed "" body ++
    forbiddenItems "nodes" (assocGet body "nodes") ++
      forbiddenItems "networks" (assocGet body "networks") ++
        forbiddenFields "viewport" layoutViewportAllowed (assocGet body "viewport") ++
          forbiddenFields "defaults" layoutDefaultsAllowed (assocGet body "defaults"))

def moveField (py : PyValues) (entry : Fields) (item : Fields) (field : String) : Option Fields :=
  match assocGet entry field with
  | none => some item
  | some value => (value.cast py).get?.map (fun n => assocSet item field (.int n))

/-- An entry of `nodes` or `networks`, after the identities of those that were moved before. -/
def moveEntry (py : PyValues) (part : String) (state : Fields × List Int) (value : JsonValue) :
    Option (Fields × List Int) := do
  let (data, ids) := state
  let entry ← value.fields?
  match fieldOr entry "id" .null with
  | .null => return (data, ids)
  | id =>
    let items ← (fieldOrElse py data part (.obj [])).fields?
    match assocGet items (id.shown py) with
    | some (.obj item) =>
      let item ← moveField py entry item "left"
      let item ← moveField py entry item "top"
      let moved ← (id.cast py).get?
      return (assocSet data part (.obj (assocSet items (id.shown py) (.obj item))), ids ++ [moved])
    | _ => return (data, ids)

def layoutEntries (py : PyValues) (body : Fields) (part : String) : Option (List JsonValue) :=
  (fieldOrElse py body part (.arr [])).items?

def moveEntries (py : PyValues) (part : String) (body data : Fields) :
    Option (Fields × List Int) := do
  let entries ← layoutEntries py body part
  entries.foldlM (moveEntry py part) (data, [])

/-- `{**held, **extra}`. -/
def mergeFields (held extra : Fields) : Fields :=
  extra.foldl (fun fields entry => assocSet fields entry.1 entry.2) held

def mergePart (py : PyValues) (part : String) (body data : Fields) : Option Fields :=
  match assocGet body part with
  | some (.obj extra) => do
    let held ← (fieldOrElse py data part (.obj [])).fields?
    return assocSet data part (.obj (mergeFields held extra))
  | _ => some data

/-- What is written for a layout, with the identities that were moved; `none` is a failure of the
request. -/
def layoutData (py : PyValues) (body data : Fields) : Option (Fields × List Int × List Int) := do
  let (data, nodeIds) ← moveEntries py "nodes" body data
  let (data, networkIds) ← moveEntries py "networks" body data
  let data ← mergePart py "viewport" body data
  let data ← mergePart py "defaults" body data
  return (assocPop data "topology", nodeIds, networkIds)

inductive LayoutResult
  | forbidden (fields : List String)
  | failed
  | updated (data : Fields) (nodeIds networkIds : List Int)

/-- `put_layout`, for a lab that can be read. -/
def putLayout (py : PyValues) (body data : Fields) : LayoutResult :=
  if layoutForbidden body = [] then
    match layoutData py body data with
    | some (data, nodeIds, networkIds) => .updated data nodeIds networkIds
    | none => .failed
  else .forbidden (layoutForbidden body)

/-- What a layout may not have, by the text that names it. -/
inductive Forbids (body : Fields) : String → Prop
  | key {key : String} : key ∈ body.map Prod.fst → key ∉ layoutTopAllowed → Forbids body key
  | items {part : String} {value : JsonValue} : part ∈ ["nodes", "networks"] →
      assocGet body part = some value → value ≠ .null → (∀ entries, value ≠ .arr entries) →
      Forbids body part
  | item {part : String} {entries : List JsonValue} {value : JsonValue} :
      part ∈ ["nodes", "networks"] → assocGet body part = some (.arr entries) → value ∈ entries →
      (∀ fields, value ≠ .obj fields) → Forbids body (part ++ "[*]")
  | itemField {part key : String} {entries : List JsonValue} {fields : Fields} :
      part ∈ ["nodes", "networks"] → assocGet body part = some (.arr entries) →
      .obj fields ∈ entries → key ∈ fields.map Prod.fst → key ∉ layoutItemAllowed →
      Forbids body (part ++ "[*]." ++ key)
  | fields {part : String} {value : JsonValue} : part ∈ ["viewport", "defaults"] →
      assocGet body part = some value → value ≠ .null → (∀ fields, value ≠ .obj fields) →
      Forbids body part
  | field {part key : String} {fields : Fields} {allowed : List String} :
      (part, allowed) ∈ [("viewport", layoutViewportAllowed), ("defaults", layoutDefaultsAllowed)] →
      assocGet body part = some (.obj fields) → key ∈ fields.map Prod.fst → key ∉ allowed →
      Forbids body (part ++ "." ++ key)

theorem firstOccurrences_spec (items : List String) : (firstOccurrences items).Nodup ∧
    ∀ item, item ∈ firstOccurrences items ↔ item ∈ items := by
  unfold firstOccurrences
  induction items using List.reverseRecOn with
  | nil => exact ⟨List.nodup_nil, fun _ => Iff.rfl⟩
  | append_singleton items last ih =>
    obtain ⟨hnodup, hmem⟩ := ih
    rw [List.foldl_append, List.foldl_cons, List.foldl_nil]
    split
    next hold =>
      refine ⟨hnodup, fun item => (hmem item).trans ?_⟩
      rw [List.mem_append, List.mem_singleton]
      constructor
      · exact Or.inl
      · rintro (hin | rfl)
        · exact hin
        · exact (hmem _).mp hold
    next hnew =>
      refine ⟨List.nodup_append.mpr ⟨hnodup, List.nodup_singleton last, ?_⟩, fun item => ?_⟩
      · intro item hitem other hother heq
        obtain rfl := List.mem_singleton.mp hother
        exact hnew (heq ▸ hitem)
      · rw [List.mem_append, List.mem_append, hmem item]

theorem mem_forbiddenKeys {allowed : List String} {path text : String} {fields : Fields} :
    text ∈ forbiddenKeys allowed path fields ↔
      ∃ key ∈ fields.map Prod.fst, key ∉ allowed ∧ path ++ key = text := by
  unfold forbiddenKeys
  rw [List.mem_map]
  refine exists_congr fun key => ?_
  rw [List.mem_filter, decide_eq_true_eq, and_assoc]

theorem mem_forbiddenItems {part text : String} {value : Option JsonValue} :
    text ∈ forbiddenItems part value ↔
      (∃ held, value = some held ∧ held ≠ .null ∧ (∀ entries, held ≠ .arr entries) ∧ part = text) ∨
      ∃ entries, value = some (.arr entries) ∧ ∃ entry ∈ entries,
        ((∀ fields, entry ≠ .obj fields) ∧ part ++ "[*]" = text) ∨
        ∃ fields, entry = .obj fields ∧ ∃ key ∈ fields.map Prod.fst, key ∉ layoutItemAllowed ∧
          part ++ "[*]." ++ key = text := by
  unfold forbiddenItems
  split
  next entries =>
    rw [List.mem_flatMap]
    constructor
    · rintro ⟨entry, hentry, hin⟩
      refine Or.inr ⟨entries, rfl, entry, hentry, ?_⟩
      split at hin
      next fields => exact Or.inr ⟨fields, rfl, mem_forbiddenKeys.mp hin⟩
      next hnone => exact Or.inl ⟨fun fields h => hnone fields h, (List.mem_singleton.mp hin).symm⟩
    · rintro (⟨held, heq, -, hnone, -⟩ | ⟨others, heq, entry, hentry, hin⟩)
      · exact absurd (Option.some.inj heq).symm (hnone entries)
      · cases heq
        refine ⟨entry, hentry, ?_⟩
        rcases hin with ⟨hnone, rfl⟩ | ⟨fields, rfl, hkey⟩
        · split
          next fields => exact absurd rfl (hnone fields)
          next => exact List.mem_singleton.mpr rfl
        · exact mem_forbiddenKeys.mpr hkey
  next => simp
  next => simp
  next held hnone hnull =>
    rw [List.mem_singleton]
    constructor
    · rintro rfl
      exact Or.inl ⟨held, rfl, hnull, hnone, rfl⟩
    · rintro (⟨-, -, -, -, rfl⟩ | ⟨entries, heq, -⟩)
      · rfl
      · exact absurd (Option.some.inj heq) (hnone entries)

theorem mem_forbiddenFields {part text : String} {allowed : List String}
    {value : Option JsonValue} : text ∈ forbiddenFields part allowed value ↔
      (∃ held, value = some held ∧ held ≠ .null ∧ (∀ fields, held ≠ .obj fields) ∧ part = text) ∨
      ∃ fields, value = some (.obj fields) ∧ ∃ key ∈ fields.map Prod.fst, key ∉ allowed ∧
        part ++ "." ++ key = text := by
  unfold forbiddenFields
  split
  next fields =>
    rw [mem_forbiddenKeys]
    constructor
    · exact fun h => Or.inr ⟨fields, rfl, h⟩
    · rintro (⟨held, heq, -, hnone, -⟩ | ⟨others, heq, hkey⟩)
      · exact absurd (Option.some.inj heq).symm (hnone fields)
      · cases heq
        exact hkey
  next => simp
  next => simp
  next held hnone hnull =>
    rw [List.mem_singleton]
    constructor
    · rintro rfl
      exact Or.inl ⟨held, rfl, hnull, hnone, rfl⟩
    · rintro (⟨-, -, -, -, rfl⟩ | ⟨fields, heq, -⟩)
      · rfl
      · exact absurd (Option.some.inj heq) (hnone fields)

/-- The paths that are named are those that are forbidden. -/
theorem mem_layoutForbidden (body : Fields) (text : String) :
    text ∈ layoutForbidden body ↔ Forbids body text := by
  unfold layoutForbidden
  rw [(firstOccurrences_spec _).2 text, List.mem_append, List.mem_append, List.mem_append,
    List.mem_append, mem_forbiddenKeys, mem_forbiddenItems, mem_forbiddenItems,
    mem_forbiddenFields, mem_forbiddenFields]
  have hnodes : "nodes" ∈ ["nodes", "networks"] := by decide
  have hnetworks : "networks" ∈ ["nodes", "networks"] := by decide
  have hitems : ∀ part ∈ ["nodes", "networks"],
      ((∃ held, assocGet body part = some held ∧ held ≠ .null ∧ (∀ entries, held ≠ .arr entries) ∧
        part = text) ∨
      ∃ entries, assocGet body part = some (.arr entries) ∧ ∃ entry ∈ entries,
        ((∀ fields, entry ≠ .obj fields) ∧ part ++ "[*]" = text) ∨
        ∃ fields, entry = .obj fields ∧ ∃ key ∈ fields.map Prod.fst, key ∉ layoutItemAllowed ∧
          part ++ "[*]." ++ key = text) → Forbids body text := by
    rintro part hpart (⟨held, hget, hnull, hnone, rfl⟩ | ⟨entries, hget, entry, hentry, h⟩)
    · exact Forbids.items hpart hget hnull hnone
    · rcases h with ⟨hnone, rfl⟩ | ⟨fields, rfl, key, hkey, hnot, rfl⟩
      · exact Forbids.item hpart hget hentry hnone
      · exact Forbids.itemField hpart hget hentry hkey hnot
  have hfields : ∀ part allowed, (part, allowed) ∈ [("viewport", layoutViewportAllowed),
      ("defaults", layoutDefaultsAllowed)] →
      ((∃ held, assocGet body part = some held ∧ held ≠ .null ∧ (∀ fields, held ≠ .obj fields) ∧
        part = text) ∨
      ∃ fields, assocGet body part = some (.obj fields) ∧ ∃ key ∈ fields.map Prod.fst,
        key ∉ allowed ∧ part ++ "." ++ key = text) → Forbids body text := by
    rintro part allowed hpart
      (⟨held, hget, hnull, hnone, rfl⟩ | ⟨fields, hget, key, hkey, hnot, rfl⟩)
    · have hmem : part ∈ ["viewport", "defaults"] := by
        have hmap := List.mem_map_of_mem (f := Prod.fst) hpart
        exact hmap
      exact Forbids.fields hmem hget hnull hnone
    · exact Forbids.field hpart hget hkey hnot
  constructor
  · rintro ((((⟨key, hkey, hnot, htext⟩ | h) | h) | h) | h)
    · rw [String.empty_append] at htext
      exact htext ▸ Forbids.key hkey hnot
    · exact hitems _ hnodes h
    · exact hitems _ hnetworks h
    · exact hfields _ _ List.mem_cons_self h
    · exact hfields _ _ (List.mem_cons_of_mem _ List.mem_cons_self) h
  · intro h
    cases h with
    | key hkey hnot => exact Or.inl (Or.inl (Or.inl (Or.inl ⟨_, hkey, hnot, String.empty_append⟩)))
    | items hpart hget hnull hnone =>
      rcases List.mem_cons.mp hpart with rfl | hlast
      · exact Or.inl (Or.inl (Or.inl (Or.inr (Or.inl ⟨_, hget, hnull, hnone, rfl⟩))))
      · obtain rfl := List.mem_singleton.mp hlast
        exact Or.inl (Or.inl (Or.inr (Or.inl ⟨_, hget, hnull, hnone, rfl⟩)))
    | item hpart hget hentry hnone =>
      rcases List.mem_cons.mp hpart with rfl | hlast
      · exact Or.inl (Or.inl (Or.inl (Or.inr (Or.inr ⟨_, hget, _, hentry, Or.inl ⟨hnone, rfl⟩⟩))))
      · obtain rfl := List.mem_singleton.mp hlast
        exact Or.inl (Or.inl (Or.inr (Or.inr ⟨_, hget, _, hentry, Or.inl ⟨hnone, rfl⟩⟩)))
    | itemField hpart hget hentry hkey hnot =>
      rcases List.mem_cons.mp hpart with rfl | hlast
      · exact Or.inl (Or.inl (Or.inl (Or.inr (Or.inr
          ⟨_, hget, _, hentry, Or.inr ⟨_, rfl, _, hkey, hnot, rfl⟩⟩))))
      · obtain rfl := List.mem_singleton.mp hlast
        exact Or.inl (Or.inl (Or.inr (Or.inr
          ⟨_, hget, _, hentry, Or.inr ⟨_, rfl, _, hkey, hnot, rfl⟩⟩)))
    | fields hpart hget hnull hnone =>
      rcases List.mem_cons.mp hpart with rfl | hlast
      · exact Or.inl (Or.inr (Or.inl ⟨_, hget, hnull, hnone, rfl⟩))
      · obtain rfl := List.mem_singleton.mp hlast
        exact Or.inr (Or.inl ⟨_, hget, hnull, hnone, rfl⟩)
    | field hpart hget hkey hnot =>
      rcases List.mem_cons.mp hpart with heq | hlast
      · cases heq
        exact Or.inl (Or.inr (Or.inr ⟨_, hget, _, hkey, hnot, rfl⟩))
      · cases List.mem_singleton.mp hlast
        exact Or.inr (Or.inr ⟨_, hget, _, hkey, hnot, rfl⟩)

/-- The entry is for the item at this key. -/
def movesKey (py : PyValues) (entry : Fields) (key : String) : Bool :=
  match fieldOr entry "id" .null with
  | .null => false
  | id => decide (id.shown py = key)

/-- Where an entry puts the item at a key. -/
def entryMoves (py : PyValues) (value : JsonValue) (key field : String) : Option JsonValue :=
  match value with
  | .obj entry =>
    if movesKey py entry key && decide (field ∈ ["left", "top"]) then
      (assocGet entry field).bind (fun value => (value.cast py).get?.map .int)
    else none
  | _ => none

/-- Where the last of some entries that says so puts the item at a key. -/
def lastMoves (py : PyValues) (entries : List JsonValue) (key field : String) : Option JsonValue :=
  entries.foldl (fun last entry => (entryMoves py entry key field).or last) none

/-- An item has the fields it is given; what is no record stays as it is. -/
def ItemMoved (moves : String → Option JsonValue) (before after : Option JsonValue) : Prop :=
  match before with
  | some (.obj item) => ∃ moved, after = some (.obj moved) ∧
      ∀ field, assocGet moved field = (moves field).or (assocGet item field)
  | other => after = other

/-- A part has the items it had, moved. -/
def PartMoved (moves : String → String → Option JsonValue) (before after : Option JsonValue) :
    Prop :=
  match before with
  | some (.obj items) => ∃ moved, after = some (.obj moved) ∧
      moved.map Prod.fst = items.map Prod.fst ∧
      ∀ key, ItemMoved (moves key) (assocGet items key) (assocGet moved key)
  | other => after = other

theorem ItemMoved.same {moves : String → Option JsonValue} {item : Option JsonValue}
    (h : ∀ field, moves field = none) : ItemMoved moves item item := by
  unfold ItemMoved
  split
  next held => exact ⟨held, rfl, fun field => by rw [h field, Option.none_or]⟩
  next => rfl

theorem ItemMoved.trans {moves more : String → Option JsonValue}
    {before between after : Option JsonValue} (h : ItemMoved moves before between)
    (h' : ItemMoved more between after) :
    ItemMoved (fun field => (more field).or (moves field)) before after := by
  unfold ItemMoved at h ⊢
  split at h
  next item =>
    obtain ⟨moved, rfl, hmoved⟩ := h
    obtain ⟨last, rfl, hlast⟩ := h'
    exact ⟨last, rfl, fun field => by rw [hlast, hmoved, Option.or_assoc]⟩
  next hnone =>
    subst h
    unfold ItemMoved at h'
    split at h'
    next item => exact absurd rfl (hnone item)
    next => exact h'

theorem PartMoved.trans {moves more : String → String → Option JsonValue}
    {before between after : Option JsonValue} (h : PartMoved moves before between)
    (h' : PartMoved more between after) :
    PartMoved (fun key field => (more key field).or (moves key field)) before after := by
  unfold PartMoved at h ⊢
  split at h
  next items =>
    obtain ⟨moved, rfl, hkeys, hmoved⟩ := h
    obtain ⟨last, rfl, hkeys', hlast⟩ := h'
    exact ⟨last, rfl, hkeys'.trans hkeys, fun key => (hmoved key).trans (hlast key)⟩
  next hnone =>
    subst h
    unfold PartMoved at h'
    split at h'
    next items => exact absurd rfl (hnone items)
    next => exact h'

theorem PartMoved.congr {moves more : String → String → Option JsonValue}
    {before after : Option JsonValue} (h : PartMoved moves before after)
    (heq : ∀ key field, more key field = moves key field) : PartMoved more before after := by
  have hsame : more = moves := funext fun key => funext fun field => heq key field
  exact hsame ▸ h

theorem PartMoved.same {moves : String → String → Option JsonValue} {part : Option JsonValue}
    (h : ∀ items, part = some (.obj items) → ∀ key item, assocGet items key = some (.obj item) →
      ∀ field, moves key field = none) : PartMoved moves part part := by
  unfold PartMoved
  split
  next items =>
    refine ⟨items, rfl, rfl, fun key => ?_⟩
    unfold ItemMoved
    split
    next item hitem =>
      exact ⟨item, hitem, fun field => by rw [h items rfl key item hitem field, Option.none_or]⟩
    next => rfl
  next => rfl

/-- The field of an item after an entry. -/
theorem moveField_get {entry item after : Fields} {field : String}
    (h : moveField py entry item field = some after) (other : String) :
    assocGet after other = if field = other then
        ((assocGet entry field).bind (fun value => (value.cast py).get?.map .int)).or
          (assocGet item other)
      else assocGet item other := by
  unfold moveField at h
  split at h
  next hnone =>
    obtain rfl := Option.some.inj h
    rw [hnone, Option.bind_none, Option.none_or, ite_self]
  next value hvalue =>
    obtain ⟨n, hn, rfl⟩ := Option.map_eq_some_iff.mp h
    rw [assocGet_set, hvalue, Option.bind_some, hn]
    rfl

theorem moved_fields {entry item between after : Fields}
    (hleft : moveField py entry item "left" = some between)
    (htop : moveField py entry between "top" = some after) (field : String) :
    assocGet after field = (if field ∈ ["left", "top"] then
        (assocGet entry field).bind (fun value => (value.cast py).get?.map .int)
      else none).or (assocGet item field) := by
  rw [moveField_get htop, moveField_get hleft]
  by_cases ht : "top" = field
  · subst ht
    rfl
  · by_cases hl : "left" = field
    · subst hl
      rfl
    · simp [ht, hl, Ne.symm ht, Ne.symm hl]

/-- What `data.get(part) or {}` reads. -/
theorem fieldOrEmpty_cases {data items : Fields} {part : String}
    (h : (fieldOrElse py data part (.obj [])).fields? = some items) :
    assocGet data part = some (.obj items) ∨
      items = [] ∧ ∀ held, assocGet data part = some (.obj held) → held = [] := by
  unfold fieldOrElse fieldOr JsonValue.orElse at h
  cases hget : assocGet data part with
  | none =>
    rw [hget] at h
    cases h
    exact Or.inr ⟨rfl, fun _ hheld => by cases hheld⟩
  | some value =>
    rw [hget, Option.getD_some] at h
    split at h
    next =>
      cases value <;> cases h
      exact Or.inl rfl
    next hempty =>
      cases h
      refine Or.inr ⟨rfl, fun held hheld => ?_⟩
      obtain rfl := Option.some.inj hheld
      simpa [JsonValue.truthy] using hempty

theorem movesKey_eq {entry : Fields} (h : fieldOr entry "id" .null ≠ .null) (key : String) :
    movesKey py entry key = decide ((fieldOr entry "id" .null).shown py = key) := by
  unfold movesKey
  split
  next hid => exact absurd hid h
  next => rfl

theorem entryMoves_none {entry : Fields} {key : String} (h : movesKey py entry key = false)
    (field : String) :
    entryMoves py (.obj entry) key field = none := by
  unfold entryMoves
  dsimp only
  rw [h, Bool.false_and, if_neg Bool.false_ne_true]

theorem entryMoves_some {entry : Fields} {key : String} (h : movesKey py entry key = true)
    (field : String) :
    entryMoves py (.obj entry) key field = if field ∈ ["left", "top"] then
      (assocGet entry field).bind (fun value => (value.cast py).get?.map .int) else none := by
  unfold entryMoves
  dsimp only
  rw [h, Bool.true_and]
  simp only [decide_eq_true_eq]

/-- The item that an entry is for has the fields of the entry, and the others stay. -/
theorem moved_items {entry items item between last : Fields} {id : String}
    (hkey : ∀ key, movesKey py entry key = decide (id = key))
    (hitem : assocGet items id = some (.obj item))
    (hleft : moveField py entry item "left" = some between)
    (htop : moveField py entry between "top" = some last) :
    PartMoved (entryMoves py (.obj entry)) (some (.obj items))
      (some (.obj (assocSet items id (.obj last)))) := by
  refine ⟨_, rfl, ?_, fun key => ?_⟩
  · rw [assocSet_keys, if_pos (assocGet_isSome_iff.mp (hitem ▸ rfl))]
  · rw [assocGet_set]
    split
    next heq =>
      rw [← heq, hitem]
      refine ⟨last, rfl, fun field => ?_⟩
      rw [moved_fields hleft htop field, entryMoves_some (by rw [hkey, decide_eq_true rfl])]
    next hne =>
      refine ItemMoved.same fun field => entryMoves_none ?_ field
      rw [hkey, decide_eq_false hne]

/-- The step: an entry moves its item and leaves the rest of the lab. -/
theorem moveEntry_law {part : String} {data after : Fields} {ids ids' : List Int}
    {value : JsonValue} (h : moveEntry py part (data, ids) value = some (after, ids')) :
    (∀ other, other ≠ part → assocGet after other = assocGet data other) ∧
      PartMoved (entryMoves py value) (assocGet data part) (assocGet after part) := by
  unfold moveEntry at h
  obtain ⟨entry, hentry, hmove⟩ := Option.bind_eq_some_iff.mp h
  clear h
  obtain rfl : value = .obj entry := by
    cases value <;> cases hentry
    rfl
  split at hmove
  next hid =>
    cases hmove
    refine ⟨fun _ _ => rfl, PartMoved.same fun items _ key item _ field => entryMoves_none ?_ field⟩
    unfold movesKey
    rw [hid]
  next id hnull =>
    have hkey := @movesKey_eq py entry hnull
    obtain ⟨items, hitems, hfound⟩ := Option.bind_eq_some_iff.mp hmove
    have hread := fieldOrEmpty_cases hitems
    split at hfound
    next item hitem =>
      obtain ⟨between, hleft, hnext⟩ := Option.bind_eq_some_iff.mp hfound
      obtain ⟨last, htop, hlast⟩ := Option.bind_eq_some_iff.mp hnext
      obtain ⟨moved, -, hend⟩ := Option.bind_eq_some_iff.mp hlast
      cases hend
      have hpart : assocGet data part = some (.obj items) := by
        rcases hread with hpart | ⟨rfl, -⟩
        · exact hpart
        · cases hitem
      refine ⟨fun other hne => by rw [assocGet_set, if_neg (Ne.symm hne)], ?_⟩
      rw [hpart, assocGet_set, if_pos rfl]
      exact moved_items hkey hitem hleft htop
    next hnone =>
      cases hfound
      refine ⟨fun _ _ => rfl, PartMoved.same fun held hget key item hitem field =>
        entryMoves_none ?_ field⟩
      -- the item that is moved is none of those there
      have hsame : held = items := by
        rcases hread with hpart | ⟨rfl, hempty⟩
        · cases hget.symm.trans hpart
          rfl
        · exact hempty held hget
      rw [hkey]
      refine decide_eq_false ?_
      rintro rfl
      exact hnone item (hsame ▸ hitem)

theorem lastMoves_append (py : PyValues) (entries : List JsonValue) (entry : JsonValue)
    (key field : String) : lastMoves py (entries ++ [entry]) key field =
      (entryMoves py entry key field).or (lastMoves py entries key field) := by
  unfold lastMoves
  rw [List.foldl_append, List.foldl_cons, List.foldl_nil]

/-- The run over the entries. -/
theorem moveEntries_law {part : String} {entries : List JsonValue} {data after : Fields}
    {ids : List Int} (h : entries.foldlM (moveEntry py part) (data, []) = some (after, ids)) :
    (∀ other, other ≠ part → assocGet after other = assocGet data other) ∧
      PartMoved (lastMoves py entries) (assocGet data part) (assocGet after part) := by
  induction entries using List.reverseRecOn generalizing after ids with
  | nil =>
    cases h
    exact ⟨fun _ _ => rfl, PartMoved.same fun _ _ _ _ _ _ => rfl⟩
  | append_singleton entries last ih =>
    rw [List.foldlM_append] at h
    obtain ⟨⟨between, ids'⟩, hbefore, hlast⟩ := Option.bind_eq_some_iff.mp h
    obtain ⟨⟨final, ids''⟩, hmove, hend⟩ := Option.bind_eq_some_iff.mp hlast
    cases hend
    obtain ⟨hframe, hmoved⟩ := ih hbefore
    obtain ⟨hframe', hmoved'⟩ := moveEntry_law hmove
    refine ⟨fun other hne => (hframe' other hne).trans (hframe other hne), ?_⟩
    exact (hmoved.trans hmoved').congr fun key field => lastMoves_append py entries last key field

theorem assocGet_mergeFields (held extra : Fields) (field : String) :
    assocGet (mergeFields held extra) field =
      (assocGet extra.reverse field).or (assocGet held field) := by
  unfold mergeFields
  induction extra using List.reverseRecOn with
  | nil => rfl
  | append_singleton extra last ih =>
    rw [List.foldl_append, List.foldl_cons, List.foldl_nil, assocGet_set, ih,
      List.reverse_append, List.reverse_singleton, List.singleton_append, assocGet]
    split
    next => rfl
    next => rfl

/-- A part has the fields that the layout has for it, and its own. -/
def PartMerged (extra before after : Option JsonValue) : Prop :=
  match extra with
  | some (.obj fields) => ∃ merged, after = some (.obj merged) ∧ ∀ field,
      assocGet merged field = (assocGet fields.reverse field).or
        ((before.bind JsonValue.fields?).bind (fun held => assocGet held field))
  | _ => after = before

theorem mergePart_law {part : String} {body data after : Fields}
    (h : mergePart py part body data = some after) :
    (∀ other, other ≠ part → assocGet after other = assocGet data other) ∧
      PartMerged (assocGet body part) (assocGet data part) (assocGet after part) := by
  unfold mergePart at h
  unfold PartMerged
  split at h
  next extra hextra =>
    obtain ⟨held, hheld, hafter⟩ := Option.bind_eq_some_iff.mp h
    cases hafter
    refine ⟨fun other hne => by rw [assocGet_set, if_neg (Ne.symm hne)], ?_⟩
    refine ⟨_, by rw [assocGet_set, if_pos rfl], fun field => ?_⟩
    have hbefore : assocGet held field =
        ((assocGet data part).bind JsonValue.fields?).bind (fun held => assocGet held field) := by
      rcases fieldOrEmpty_cases hheld with hpart | ⟨rfl, hempty⟩
      · rw [hpart]
        rfl
      · cases hget : (assocGet data part).bind JsonValue.fields? with
        | none => rfl
        | some fields =>
          obtain ⟨value, hvalue, hfields⟩ := Option.bind_eq_some_iff.mp hget
          obtain rfl : value = .obj fields := by
            cases value <;> cases hfields
            rfl
          rw [hempty fields hvalue]
          rfl
    rw [assocGet_mergeFields, hbefore]
  next hnone =>
    cases h
    exact ⟨fun _ _ => rfl, rfl⟩

/-- A layout moves items and nothing else: the rest of the lab is as it was, nodes and networks keep
all but their place, which is the last that the layout has for them, and the canvas has the fields
of the layout. -/
theorem layout_law {py : PyValues} {body data after : Fields} {nodeIds networkIds : List Int}
    (h : putLayout py body data = .updated after nodeIds networkIds) :
    (∀ text, ¬ Forbids body text) ∧
    (∀ key, key ∉ ["nodes", "networks", "viewport", "defaults", "topology"] →
      assocGet after key = assocGet data key) ∧
    assocGet after "topology" = none ∧
    (∀ part ∈ ["nodes", "networks"], ∃ entries, layoutEntries py body part = some entries ∧
      PartMoved (lastMoves py entries) (assocGet data part) (assocGet after part)) ∧
    ∀ part ∈ ["viewport", "defaults"],
      PartMerged (assocGet body part) (assocGet data part) (assocGet after part) := by
  unfold putLayout at h
  split at h
  next hallowed =>
    split at h
    next last nodes networks hdata =>
      cases h
      unfold layoutData at hdata
      obtain ⟨⟨one, ids⟩, hnodes, hdata⟩ := Option.bind_eq_some_iff.mp hdata
      obtain ⟨⟨two, ids'⟩, hnetworks, hdata⟩ := Option.bind_eq_some_iff.mp hdata
      obtain ⟨three, hviewport, hdata⟩ := Option.bind_eq_some_iff.mp hdata
      obtain ⟨four, hdefaults, hdata⟩ := Option.bind_eq_some_iff.mp hdata
      cases hdata
      obtain ⟨entries, hentries, hmoves⟩ := Option.bind_eq_some_iff.mp hnodes
      obtain ⟨entries', hentries', hmoves'⟩ := Option.bind_eq_some_iff.mp hnetworks
      obtain ⟨hframe, hmoved⟩ := moveEntries_law hmoves
      obtain ⟨hframe', hmoved'⟩ := moveEntries_law hmoves'
      obtain ⟨hkept, hmerged⟩ := mergePart_law hviewport
      obtain ⟨hkept', hmerged'⟩ := mergePart_law hdefaults
      have hpop : ∀ key, key ≠ "topology" → assocGet (assocPop four "topology") key =
          assocGet four key := fun key hne => by rw [assocGet_pop, if_neg (Ne.symm hne)]
      refine ⟨?_, ?_, by rw [assocGet_pop, if_pos rfl], ?_, ?_⟩
      · intro text hforbids
        have hmem := (mem_layoutForbidden body text).mpr hforbids
        rw [hallowed] at hmem
        cases hmem
      · intro key hkey
        simp only [List.mem_cons, List.not_mem_nil, or_false, not_or] at hkey
        obtain ⟨hn, hw, hv, hd, ht⟩ := hkey
        rw [hpop key ht, hkept' key hd, hkept key hv, hframe' key hw, hframe key hn]
      · intro part hpart
        rcases List.mem_cons.mp hpart with rfl | hlast
        · refine ⟨entries, hentries, ?_⟩
          rw [hpop _ (by decide), hkept' _ (by decide), hkept _ (by decide),
            hframe' _ (by decide)]
          exact hmoved
        · obtain rfl := List.mem_singleton.mp hlast
          refine ⟨entries', hentries', ?_⟩
          rw [hpop _ (by decide), hkept' _ (by decide), hkept _ (by decide),
            ← hframe "networks" (by decide)]
          exact hmoved'
      · intro part hpart
        rcases List.mem_cons.mp hpart with rfl | hlast
        · rw [hpop _ (by decide), hkept' _ (by decide), ← hframe "viewport" (by decide),
            ← hframe' "viewport" (by decide)]
          exact hmerged
        · obtain rfl := List.mem_singleton.mp hlast
          rw [hpop _ (by decide), ← hframe "defaults" (by decide),
            ← hframe' "defaults" (by decide), ← hkept "defaults" (by decide)]
          exact hmerged'
    next => cases h
  next => cases h

/-- A lab with two nodes and a canvas. -/
def placedLab : Fields :=
  [("schema", .int 2), ("nodes", .obj [("1", .obj [("name", .str "R1"), ("left", .int 10)]),
      ("2", .obj [("name", .str "R2"), ("left", .int 20)])]),
    ("viewport", .obj [("x", .int 0), ("zoom", .int 1)]), ("topology", .arr [])]

/-- The first node is moved twice. -/
def placedBody : Fields :=
  [("nodes", .arr [.obj [("id", .int 1), ("left", .int 30), ("top", .int 40)],
      .obj [("id", .int 1), ("left", .int 50)]]),
    ("viewport", .obj [("x", .int 5)])]

def placedAfter : Fields :=
  [("schema", .int 2), ("nodes", .obj [
      ("1", .obj [("name", .str "R1"), ("left", .int 50), ("top", .int 40)]),
      ("2", .obj [("name", .str "R2"), ("left", .int 20)])]),
    ("viewport", .obj [("x", .int 5), ("zoom", .int 1)])]

theorem placed_lab_moved :
    putLayout plainPy placedBody placedLab = .updated placedAfter [1, 1] [] ∧
      (∀ text, ¬ Forbids placedBody text) ∧ assocGet placedAfter "schema" = some (.int 2) := by
  have hupdated : putLayout plainPy placedBody placedLab = .updated placedAfter [1, 1] [] := by
    rfl
  obtain ⟨hallowed, hkept, _⟩ := layout_law hupdated
  exact ⟨hupdated, hallowed, hkept "schema" (by decide)⟩

/-- A layout is refused exactly where it has what it may not have, and each such path is named,
once. -/
theorem layout_refused (py : PyValues) (body data : Fields) :
    ((∃ fields, putLayout py body data = .forbidden fields) ↔ ∃ text, Forbids body text) ∧
      ∀ fields, putLayout py body data = .forbidden fields →
        fields.Nodup ∧ ∀ text, text ∈ fields ↔ Forbids body text := by
  constructor
  · unfold putLayout
    split
    next hallowed =>
      constructor
      · rintro ⟨fields, h⟩
        split at h
        next => cases h
        next => cases h
      · rintro ⟨text, hforbids⟩
        have hmem := (mem_layoutForbidden body text).mpr hforbids
        rw [hallowed] at hmem
        cases hmem
    next hsome =>
      refine ⟨fun _ => ?_, fun _ => ⟨_, rfl⟩⟩
      obtain ⟨text, hmem⟩ := List.exists_mem_of_ne_nil _ hsome
      exact ⟨text, (mem_layoutForbidden body text).mp hmem⟩
  · intro fields h
    unfold putLayout at h
    split at h
    next =>
      split at h
      next => cases h
      next => cases h
    next =>
      cases h
      exact ⟨(firstOccurrences_spec _).1, mem_layoutForbidden body⟩

end NovaVe
