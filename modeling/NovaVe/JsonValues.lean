import Mathlib.Data.List.Infix
import NovaVe.Topology

namespace NovaVe

/-- A value as `json.load` gives it; an object keeps its keys in order, a float keeps its text. -/
inductive JsonValue
  | null
  | bool (b : Bool)
  | int (n : Int)
  | float (text : String)
  | str (text : String)
  | arr (items : List JsonValue)
  | obj (fields : List (String × JsonValue))

abbrev Fields := List (String × JsonValue)

/-- What `int(value)` comes to: an integer, a `TypeError` or `ValueError`, or an `OverflowError`. -/
inductive IntCast
  | value (n : Int)
  | refused
  | overflow
deriving DecidableEq, Repr

def IntCast.get? : IntCast → Option Int
  | .value n => some n
  | .refused | .overflow => none

/-- What Python makes of floats, and of lists and objects as text. -/
structure PyValues where
  truncate : String → IntCast
  floatTruth : String → Bool
  floatEq : String → Int → Bool
  repr : JsonValue → String

/-- `bool(value)`. -/
def JsonValue.truthy (py : PyValues) : JsonValue → Bool
  | .null => false
  | .bool b => b
  | .int n => decide (n ≠ 0)
  | .float text => py.floatTruth text
  | .str text => decide (text ≠ "")
  | .arr items => !items.isEmpty
  | .obj fields => !fields.isEmpty

/-- `value == n`. -/
def JsonValue.equalsInt (py : PyValues) (n : Int) : JsonValue → Bool
  | .bool b => decide ((if b then 1 else 0) = n)
  | .int m => decide (m = n)
  | .float text => py.floatEq text n
  | _ => false

/-- `str(value)`. -/
def JsonValue.shown (py : PyValues) : JsonValue → String
  | .null => "None"
  | .bool b => if b then "True" else "False"
  | .int n => toString n
  | .str text => text
  | value => py.repr value

/-- `int(value)`. -/
def JsonValue.cast (py : PyValues) : JsonValue → IntCast
  | .bool b => .value (if b then 1 else 0)
  | .int n => .value n
  | .float text => py.truncate text
  | .str text =>
    match pyInt text with
    | some n => .value n
    | none => .refused
  | .null | .arr _ | .obj _ => .refused

/-- The value where a dictionary is needed; anything else has no `get`. -/
def JsonValue.fields? : JsonValue → Option Fields
  | .obj fields => some fields
  | _ => none

/-- The items a `for` goes over; a number or a flag is not iterable. -/
def JsonValue.items? : JsonValue → Option (List JsonValue)
  | .arr items => some items
  | .str text => some (text.toList.map (fun c => .str (String.ofList [c])))
  | .obj fields => some (fields.map (fun entry => .str entry.1))
  | _ => none

def JsonValue.isText (text : String) : JsonValue → Bool
  | .str other => decide (other = text)
  | _ => false

/-- `key in value`. -/
def JsonValue.holds (key : String) : JsonValue → Option Bool
  | .obj fields => some (assocGet fields key).isSome
  | .arr items => some (items.any (JsonValue.isText key))
  | .str text => some (decide (key.toList <:+: text.toList))
  | _ => none

/-- `value or default`. -/
def JsonValue.orElse (py : PyValues) (value default : JsonValue) : JsonValue :=
  if value.truthy py then value else default

/-- `fields.get(key, default)`. -/
def fieldOr (fields : Fields) (key : String) (default : JsonValue) : JsonValue :=
  (assocGet fields key).getD default

/-- `fields.get(key, default) or default`. -/
def fieldOrElse (py : PyValues) (fields : Fields) (key : String) (default : JsonValue) : JsonValue :=
  (fieldOr fields key default).orElse py default

/-- The values at a key, changed in place. -/
def mapField (key : String) (f : JsonValue → JsonValue) (fields : Fields) : Fields :=
  fields.map (fun entry => if entry.1 = key then (entry.1, f entry.2) else entry)

/-- The items of a list, changed in place; other values have none. -/
def mapItems (f : JsonValue → JsonValue) : JsonValue → JsonValue
  | .arr items => .arr (items.map f)
  | value => value

/-- The values of a dictionary, changed in place. -/
def mapValues (f : JsonValue → JsonValue) : JsonValue → JsonValue
  | .obj fields => .obj (fields.map (fun entry => (entry.1, f entry.2)))
  | value => value

/-- `fields.setdefault(key, value)`. -/
def setDefault (key : String) (value : JsonValue) (fields : Fields) : Fields :=
  if (assocGet fields key).isSome then fields else assocSet fields key value

theorem assocPop_set_ne {α : Type} (entries : List (String × α)) {k j : String} (v : α)
    (hne : j ≠ k) : assocPop (assocSet entries j v) k = assocSet (assocPop entries k) j v := by
  induction entries with
  | nil => simp [assocSet, assocPop, hne]
  | cons entry rest ih =>
    obtain ⟨key, value⟩ := entry
    by_cases hj : key = j
    · subst hj
      simp [assocSet, assocPop, hne]
    · by_cases hk : key = k
      · simp [assocSet, assocPop, hk, ih, Ne.symm hne]
      · simp [assocSet, assocPop, hj, hk, ih]

theorem assocPop_idem {α : Type} (entries : List (String × α)) (k : String) :
    assocPop (assocPop entries k) k = assocPop entries k := by
  induction entries with
  | nil => rfl
  | cons entry rest ih =>
    obtain ⟨key, value⟩ := entry
    by_cases hk : key = k
    · simp [assocPop, hk, ih]
    · simp [assocPop, hk, ih]

theorem assocPop_mapField (fields : Fields) (key popped : String) (f : JsonValue → JsonValue) :
    assocPop (mapField key f fields) popped = mapField key f (assocPop fields popped) := by
  induction fields with
  | nil => rfl
  | cons entry rest ih =>
    obtain ⟨k, v⟩ := entry
    unfold mapField at ih ⊢
    by_cases hpop : k = popped
    · by_cases hkey : k = key <;> simp_all [assocPop]
    · by_cases hkey : k = key <;> simp_all [assocPop]

theorem mapField_mapField (fields : Fields) (key : String) (f g : JsonValue → JsonValue) :
    mapField key f (mapField key g fields) = mapField key (f ∘ g) fields := by
  unfold mapField
  rw [List.map_map]
  apply List.map_congr_left
  intro entry _
  by_cases hkey : entry.1 = key
  · simp [hkey]
  · simp [hkey]

theorem mapField_comm (fields : Fields) {key other : String} (f g : JsonValue → JsonValue)
    (hne : key ≠ other) :
    mapField key f (mapField other g fields) = mapField other g (mapField key f fields) := by
  unfold mapField
  rw [List.map_map, List.map_map]
  apply List.map_congr_left
  intro entry _
  by_cases hkey : entry.1 = key
  · simp [hkey, hne]
  · by_cases hother : entry.1 = other
    · simp [hother, Ne.symm hne]
    · simp [hkey, hother]

theorem mapField_set_ne (fields : Fields) {key other : String} (f : JsonValue → JsonValue)
    (v : JsonValue) (hne : other ≠ key) :
    mapField key f (assocSet fields other v) = assocSet (mapField key f fields) other v := by
  induction fields with
  | nil => simp [mapField, assocSet, hne]
  | cons entry rest ih =>
    obtain ⟨k, w⟩ := entry
    unfold mapField at ih ⊢
    by_cases hother : k = other
    · subst hother
      simp [assocSet, hne]
    · by_cases hkey : k = key
      · simp [assocSet, hkey, ih, Ne.symm hne]
      · simp [assocSet, hother, hkey, ih]

/-- A value that is changed to the same as the one it replaces makes no difference. -/
theorem mapField_set (fields : Fields) {key : String} (f : JsonValue → JsonValue)
    {v w : JsonValue} (hget : assocGet fields key = some v) (hsame : f w = f v) :
    mapField key f (assocSet fields key w) = mapField key f fields := by
  induction fields with
  | nil => cases hget
  | cons entry rest ih =>
    obtain ⟨k, u⟩ := entry
    by_cases hkey : k = key
    · simp only [assocGet, hkey, if_true, Option.some.injEq] at hget
      subst hget
      simp [mapField, assocSet, hkey, hsame]
    · simp only [assocGet, hkey, if_false] at hget
      have hrest := ih hget
      unfold mapField at hrest ⊢
      simp [assocSet, hkey, hrest]

theorem assocGet_mapField (fields : Fields) (key other : String) (f : JsonValue → JsonValue) :
    assocGet (mapField key f fields) other =
      if key = other then (assocGet fields other).map f else assocGet fields other := by
  induction fields with
  | nil => by_cases h : key = other <;> simp [mapField, assocGet, h]
  | cons entry rest ih =>
    obtain ⟨k, v⟩ := entry
    unfold mapField at ih ⊢
    by_cases hkey : k = key
    · subst hkey
      by_cases hother : k = other
      · simp [assocGet, hother]
      · simp [assocGet, hother, ih]
    · by_cases hother : k = other
      · subst hother
        simp [assocGet, hkey, Ne.symm hkey]
      · simp [assocGet, hkey, hother, ih]

end NovaVe
