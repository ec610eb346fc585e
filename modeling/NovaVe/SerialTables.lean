import NovaVe.Dict

namespace NovaVe

variable {α : Type} {p : α → Bool}

/-- Rows under serial numbers, in the order of their insertion. -/
structure SerialTable (α : Type) where
  rows : Dict Nat α
  serial : Nat
  below : ∀ id, (rows.get? id).isSome = true → id < serial

def SerialTable.empty {α : Type} : SerialTable α where
  rows := Dict.empty
  serial := 1
  below := fun _ h => absurd h Bool.false_ne_true

def SerialTable.get? {α : Type} (t : SerialTable α) (id : Nat) : Option α := t.rows.get? id

/-- The number of the first row with a property. -/
def SerialTable.find {α : Type} (t : SerialTable α) (p : α → Bool) : Option Nat :=
  (t.rows.entries.find? (fun entry => p entry.2)).map Prod.fst

def SerialTable.insert {α : Type} (t : SerialTable α) (a : α) : SerialTable α where
  rows := t.rows.set t.serial a
  serial := t.serial + 1
  below id h := by
    rw [Dict.get?_set] at h
    split at h
    next heq => exact heq ▸ Nat.lt_succ_self t.serial
    next => exact Nat.lt_succ_of_lt (t.below id h)

def SerialTable.modify {α : Type} (t : SerialTable α) (id : Nat) (f : α → α) : SerialTable α where
  rows := t.rows.modify id f
  serial := t.serial
  below other h := by
    rw [Dict.get?_modify] at h
    split at h
    next => exact t.below other (by simpa using h)
    next => exact t.below other h

/-- The row with a property, inserted where there is none. -/
def SerialTable.ensure {α : Type} (t : SerialTable α) (p : α → Bool) (a : α) :
    Nat × SerialTable α :=
  match t.find p with
  | some id => (id, t)
  | none => (t.serial, t.insert a)

theorem SerialTable.get?_serial (t : SerialTable α) {id : Nat} (h : t.serial ≤ id) :
    t.get? id = none := by
  rw [← Option.not_isSome_iff_eq_none]
  intro hid
  have := t.below id hid
  omega

theorem SerialTable.get?_insert (t : SerialTable α) (a : α) (id : Nat) :
    (t.insert a).get? id = if t.serial = id then some a else t.get? id := Dict.get?_set _ _ _ _

theorem SerialTable.get?_modify (t : SerialTable α) (id other : Nat) (f : α → α) :
    (t.modify id f).get? other = if id = other then (t.get? other).map f else t.get? other :=
  Dict.get?_modify _ _ _ _

theorem assocSet_new {κ α : Type} [DecidableEq κ] {entries : List (κ × α)} {k : κ}
    (h : assocGet entries k = none) (v : α) : assocSet entries k v = entries ++ [(k, v)] := by
  induction entries with
  | nil => rfl
  | cons entry rest ih =>
    obtain ⟨key, value⟩ := entry
    unfold assocGet at h
    unfold assocSet
    split at h
    next => cases h
    next hne => rw [if_neg hne, ih h, List.cons_append]

theorem SerialTable.entries_insert (t : SerialTable α) (a : α) :
    (t.insert a).rows.entries = t.rows.entries ++ [(t.serial, a)] :=
  assocSet_new (t.get?_serial (Nat.le_refl _)) a

theorem SerialTable.find_some {t : SerialTable α} {id : Nat} (h : t.find p = some id) :
    ∃ a, t.get? id = some a ∧ p a = true := by
  obtain ⟨⟨key, a⟩, hfound, rfl⟩ := Option.map_eq_some_iff.mp h
  exact ⟨a, assocGet_of_mem t.rows.keysNodup (List.mem_of_find?_eq_some hfound),
    by simpa using List.find?_some hfound⟩

/-- An inserted row comes after all the others. -/
theorem SerialTable.find_insert {t : SerialTable α} {id : Nat} (h : t.find p = some id) (a : α) :
    (t.insert a).find p = some id := by
  obtain ⟨entry, hfound, rfl⟩ := Option.map_eq_some_iff.mp h
  unfold SerialTable.find
  rw [t.entries_insert, List.find?_append, hfound]
  rfl

theorem SerialTable.find_insert_new {t : SerialTable α} {a : α} (h : t.find p = none)
    (ha : p a = true) : (t.insert a).find p = some t.serial := by
  unfold SerialTable.find at h ⊢
  rw [t.entries_insert, List.find?_append, Option.map_eq_none_iff.mp h]
  simp [ha]

theorem SerialTable.find_ensure (t : SerialTable α) {a : α} (ha : p a = true) :
    (t.ensure p a).2.find p = some (t.ensure p a).1 := by
  unfold SerialTable.ensure
  cases h : t.find p with
  | some id => exact h
  | none => exact SerialTable.find_insert_new h ha

/-- What is found stays found when other rows are ensured. -/
theorem SerialTable.find_keeps {t : SerialTable α} {id : Nat} (h : t.find p = some id)
    (q : α → Bool) (a : α) : (t.ensure q a).2.find p = some id := by
  unfold SerialTable.ensure
  cases t.find q with
  | some other => exact h
  | none => exact SerialTable.find_insert h a

theorem SerialTable.get?_ensure {t : SerialTable α} {a b : α} {id : Nat}
    (h : (t.ensure p a).2.get? id = some b) :
    t.get? id = some b ∨ id = (t.ensure p a).1 ∧ b = a ∧ t.serial = id := by
  unfold SerialTable.ensure at h ⊢
  cases hfound : t.find p with
  | some other =>
    rw [hfound] at h
    exact Or.inl h
  | none =>
    rw [hfound] at h
    simp only [SerialTable.get?_insert] at h
    split at h
    next heq => exact Or.inr ⟨heq.symm, (Option.some.inj h).symm, heq⟩
    next => exact Or.inl h

theorem SerialTable.ensure_keeps {t : SerialTable α} {b : α} {id : Nat} (h : t.get? id = some b)
    (p : α → Bool) (a : α) : (t.ensure p a).2.get? id = some b := by
  unfold SerialTable.ensure
  cases t.find p with
  | some other => exact h
  | none =>
    simp only [SerialTable.get?_insert]
    rw [if_neg]
    · exact h
    · rintro rfl
      rw [t.get?_serial (Nat.le_refl _)] at h
      cases h

theorem SerialTable.ensure_row (t : SerialTable α) {a : α} (ha : p a = true) :
    ∃ b, (t.ensure p a).2.get? (t.ensure p a).1 = some b ∧ p b = true :=
  SerialTable.find_some (t.find_ensure ha)

theorem find_assocSet {κ α : Type} [DecidableEq κ] {entries : List (κ × α)} {k : κ} {v w : α}
    (h : assocGet entries k = some w) {p : α → Bool} (hp : p v = p w) :
    ((assocSet entries k v).find? (fun entry => p entry.2)).map Prod.fst =
      (entries.find? (fun entry => p entry.2)).map Prod.fst := by
  induction entries with
  | nil => cases h
  | cons entry rest ih =>
    obtain ⟨key, value⟩ := entry
    unfold assocGet at h
    unfold assocSet
    split at h
    next heq =>
      obtain rfl := Option.some.inj h
      rw [if_pos heq, List.find?_cons, List.find?_cons]
      simp only [hp]
      cases p value <;> rfl
    next hne =>
      rw [if_neg hne, List.find?_cons, List.find?_cons]
      simp only
      cases p value with
      | true => rfl
      | false => exact ih h

/-- A change that a property does not see leaves what is found. -/
theorem SerialTable.find_modify (t : SerialTable α) {f : α → α} (hf : ∀ a, p (f a) = p a) (id : Nat) :
    (t.modify id f).find p = t.find p := by
  unfold SerialTable.find SerialTable.modify Dict.modify
  simp only
  cases hget : t.rows.get? id with
  | none => rfl
  | some a => exact find_assocSet hget (hf a)

end NovaVe
