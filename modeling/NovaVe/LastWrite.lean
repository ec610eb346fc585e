import Mathlib.Data.List.Basic
import Mathlib.Data.List.Induction
import Mathlib.Logic.Function.Basic

namespace NovaVe

/-- The last element of a list with a property. -/
def LastWith {α : Type} (p : α → Prop) (x : α) (xs : List α) : Prop :=
  ∃ before after, xs = before ++ x :: after ∧ p x ∧ ∀ y ∈ after, ¬ p y

theorem not_lastWith_nil {α : Type} {p : α → Prop} {x : α} : ¬ LastWith p x [] := by
  intro h
  obtain ⟨before, after, hxs, _⟩ := h
  cases before <;> cases hxs

theorem LastWith.mem {α : Type} {p : α → Prop} {x : α} {xs : List α} (h : LastWith p x xs) :
    x ∈ xs ∧ p x := by
  obtain ⟨before, after, rfl, hx, _⟩ := h
  exact ⟨List.mem_append_right _ List.mem_cons_self, hx⟩

theorem lastWith_append_singleton {α : Type} {p : α → Prop} {x y : α} {xs : List α} :
    LastWith p x (xs ++ [y]) ↔ (p y ∧ x = y) ∨ (¬ p y ∧ LastWith p x xs) := by
  constructor
  · intro h
    obtain ⟨before, after, hxs, hx, hafter⟩ := h
    cases after using List.reverseRecOn with
    | nil =>
      obtain ⟨_, hlast⟩ := List.append_inj' hxs rfl
      obtain rfl : y = x := List.singleton_inj.mp hlast
      exact Or.inl ⟨hx, rfl⟩
    | append_singleton rest z =>
      have hsplit : xs ++ [y] = (before ++ x :: rest) ++ [z] := by
        rw [hxs, List.append_assoc]
        rfl
      obtain ⟨hinit, hlast⟩ := List.append_inj' hsplit rfl
      obtain rfl : y = z := List.singleton_inj.mp hlast
      refine Or.inr ⟨hafter y (List.mem_append_right _ (List.mem_singleton.mpr rfl)), ?_⟩
      exact ⟨before, rest, hinit, hx, fun w hw => hafter w (List.mem_append_left _ hw)⟩
  · intro h
    rcases h with ⟨hy, rfl⟩ | ⟨hy, before, after, rfl, hx, hafter⟩
    · exact ⟨xs, [], rfl, hy, fun _ hm => by cases hm⟩
    · refine ⟨before, after ++ [y], by rw [List.append_assoc]; rfl, hx, ?_⟩
      intro w hw
      rcases List.mem_append.mp hw with hold | hnew
      · exact hafter w hold
      · rw [List.mem_singleton.mp hnew]
        exact hy

theorem exists_lastWith {α : Type} {p : α → Prop} {xs : List α} :
    (∃ x ∈ xs, p x) ↔ ∃ x, LastWith p x xs := by
  constructor
  · intro h
    induction xs using List.reverseRecOn with
    | nil =>
      obtain ⟨_, hx, _⟩ := h
      cases hx
    | append_singleton rest y ih =>
      by_cases hy : p y
      · exact ⟨y, lastWith_append_singleton.mpr (Or.inl ⟨hy, rfl⟩)⟩
      · obtain ⟨x, hx, hp⟩ := h
        rcases List.mem_append.mp hx with hold | hnew
        · obtain ⟨z, hz⟩ := ih ⟨x, hold, hp⟩
          exact ⟨z, lastWith_append_singleton.mpr (Or.inr ⟨hy, hz⟩)⟩
        · rw [List.mem_singleton.mp hnew] at hp
          exact absurd hp hy
  · intro h
    obtain ⟨x, hx⟩ := h
    exact ⟨x, hx.mem⟩

/-- The map that a list of writes builds. -/
def writeAll {κ α : Type} [DecidableEq κ] (writes : List (κ × α)) : κ → Option α :=
  writes.foldl (fun (found : κ → Option α) w => Function.update found w.1 (some w.2)) (fun _ => none)

/-- The value of a key is that of the last write to it. -/
theorem writeAll_eq_some {κ α : Type} [DecidableEq κ] {writes : List (κ × α)} {k : κ} {v : α} :
    writeAll writes k = some v ↔ LastWith (fun w => w.1 = k) (k, v) writes := by
  unfold writeAll
  induction writes using List.reverseRecOn with
  | nil =>
    constructor
    · intro h
      cases h
    · intro h
      exact absurd h not_lastWith_nil
  | append_singleton rest w ih =>
    obtain ⟨j, u⟩ := w
    rw [List.foldl_append, lastWith_append_singleton]
    simp only [List.foldl_cons, List.foldl_nil]
    by_cases hj : k = j
    · subst hj
      rw [Function.update_self]
      constructor
      · intro h
        exact Or.inl ⟨rfl, by rw [Option.some.inj h]⟩
      · intro h
        rcases h with ⟨_, h⟩ | ⟨hne, _⟩
        · cases h
          rfl
        · exact absurd rfl hne
    · rw [Function.update_of_ne hj, ih]
      constructor
      · intro h
        exact Or.inr ⟨Ne.symm hj, h⟩
      · intro h
        rcases h with ⟨he, _⟩ | ⟨_, h⟩
        · exact absurd he.symm hj
        · exact h

theorem writeAll_isSome {κ α : Type} [DecidableEq κ] {writes : List (κ × α)} {k : κ} :
    (∃ v, writeAll writes k = some v) ↔ ∃ w ∈ writes, w.1 = k := by
  rw [exists_lastWith]
  constructor
  · intro h
    obtain ⟨v, hv⟩ := h
    exact ⟨(k, v), writeAll_eq_some.mp hv⟩
  · intro h
    obtain ⟨⟨j, v⟩, hw⟩ := h
    obtain rfl : j = k := hw.mem.2
    exact ⟨v, writeAll_eq_some.mpr hw⟩

end NovaVe
