import Mathlib.Data.List.Induction

namespace NovaVe

/-- The runs of a labelled step relation, with the actions taken, oldest first. -/
inductive Run {σ α : Type} (step : σ → α → σ → Prop) (s : σ) : List α → σ → Prop
  | start : Run step s [] s
  | next {t u : σ} {as : List α} {a : α} :
      Run step s as t → step t a u → Run step s (as ++ [a]) u

/-- The step relation restricted to the actions that meet a condition on the state before. -/
def Guarded {σ α : Type} (step : σ → α → σ → Prop) (ok : σ → α → Prop) : σ → α → σ → Prop :=
  fun s a t => ok s a ∧ step s a t

theorem Run.mono {σ α : Type} {step step' : σ → α → σ → Prop}
    (h : ∀ s a t, step s a t → step' s a t) {s t : σ} {as : List α} (run : Run step s as t) :
    Run step' s as t := by
  induction run with
  | start => exact Run.start
  | next _ hstep ih => exact Run.next ih (h _ _ _ hstep)

theorem Run.of_guarded {σ α : Type} {step : σ → α → σ → Prop} {ok : σ → α → Prop}
    {s t : σ} {as : List α} (run : Run (Guarded step ok) s as t) : Run step s as t :=
  run.mono (fun _ _ _ h => h.2)

/-- What holds at the start and is kept by every step holds at the end of every run. -/
theorem Run.invariant {σ α : Type} {step : σ → α → σ → Prop} {inv : σ → Prop}
    (preserves : ∀ s a t, inv s → step s a t → inv t)
    {s t : σ} {as : List α} (run : Run step s as t) (hs : inv s) : inv t := by
  induction run with
  | start => exact hs
  | next _ hstep ih => exact preserves _ _ _ ih hstep

theorem Run.eq_of_nil {σ α : Type} {step : σ → α → σ → Prop} {s t : σ} (run : Run step s [] t) :
    t = s := by
  generalize hnil : ([] : List α) = as at run
  cases run with
  | start => rfl
  | next _ _ => simp at hnil

theorem Run.trans {σ α : Type} {step : σ → α → σ → Prop} {s t u : σ} {as bs : List α}
    (first : Run step s as t) (second : Run step t bs u) : Run step s (as ++ bs) u := by
  induction second with
  | start => simpa using first
  | next _ hstep ih =>
    rw [← List.append_assoc]
    exact Run.next ih hstep

theorem Run.single {σ α : Type} {step : σ → α → σ → Prop} {s t : σ} {a : α} (h : step s a t) :
    Run step s [a] t :=
  @Run.next σ α step s s t [] a Run.start h

theorem Run.cons {σ α : Type} {step : σ → α → σ → Prop} {s t u : σ} {a : α} {as : List α}
    (h : step s a t) (run : Run step t as u) : Run step s (a :: as) u :=
  (Run.single h).trans run

/-- A deterministic step, as a relation. -/
def stepOf {σ α : Type} (f : σ → α → σ) : σ → α → σ → Prop :=
  fun s a t => f s a = t

/-- The run rule for a step that is a function, when its actions meet their conditions. -/
theorem Run.guarded_invariant {σ α : Type} {f : σ → α → σ} {ok : σ → α → Prop} {inv : σ → Prop}
    (keeps : ∀ s a, inv s → ok s a → inv (f s a)) {s t : σ} {as : List α}
    (run : Run (Guarded (stepOf f) ok) s as t) (hs : inv s) : inv t := by
  refine run.invariant (fun before a after h hguarded => ?_) hs
  obtain ⟨hok, hstep⟩ := hguarded
  have hafter : f before a = after := hstep
  rw [← hafter]
  exact keeps before a h hok

theorem run_stepOf_iff {σ α : Type} {f : σ → α → σ} {s t : σ} {as : List α} :
    Run (stepOf f) s as t ↔ as.foldl f s = t := by
  constructor
  · intro run
    induction run with
    | start => rfl
    | next _ hstep ih => rw [List.foldl_append, ih]; exact hstep
  · intro h
    subst h
    induction as using List.reverseRecOn with
    | nil => exact Run.start
    | append_singleton bs b ih =>
      refine Run.next ih ?_
      simp [stepOf, List.foldl_append]

/-- A run whose actions meet their conditions can be stopped after any number of them. -/
theorem Run.take {σ α : Type} {f : σ → α → σ} {ok : σ → α → Prop} {s t : σ} {as : List α}
    (run : Run (Guarded (stepOf f) ok) s as t) (n : Nat) :
    Run (Guarded (stepOf f) ok) s (as.take n) ((as.take n).foldl f s) := by
  induction run with
  | start =>
    rw [List.take_nil]
    exact Run.start
  | @next t u as a run hstep ih =>
    by_cases hn : n ≤ as.length
    · rw [List.take_append_of_le_length hn]
      exact ih
    · rw [List.take_of_length_le (by simp only [List.length_append, List.length_singleton]; omega)]
      rw [run_stepOf_iff.mp (Run.next run hstep).of_guarded]
      exact Run.next run hstep

/-- The actions of a partial step that can all be taken make a run. -/
theorem run_of_foldlM {σ α : Type} {f : σ → α → Option σ} {s t : σ} {as : List α}
    (h : as.foldlM f s = some t) : Run (fun s a t => f s a = some t) s as t := by
  induction as generalizing s with
  | nil =>
    cases h
    exact Run.start
  | cons a rest ih =>
    rw [List.foldlM_cons] at h
    obtain ⟨u, hu, hrest⟩ := Option.bind_eq_some_iff.mp h
    exact Run.cons hu (ih hrest)

theorem bind_eq_ok {ε α β : Type} {x : Except ε α} {f : α → Except ε β} {b : β} :
    (x >>= f) = .ok b ↔ ∃ a, x = .ok a ∧ f a = .ok b := by
  cases x with
  | error e =>
    constructor
    · intro h; cases h
    · rintro ⟨a, h, _⟩; cases h
  | ok a =>
    constructor
    · intro h; exact ⟨a, rfl, h⟩
    · rintro ⟨_, ha, h⟩; cases ha; exact h

/-- The state after an operation that leaves it unchanged when it is refused. -/
def afterwards {ε σ : Type} (s : σ) : Except ε σ → σ
  | .ok s' => s'
  | .error _ => s

theorem afterwards_inv {ε σ : Type} {inv : σ → Prop} {s : σ} {r : Except ε σ} (hs : inv s)
    (h : ∀ s', r = .ok s' → inv s') : inv (afterwards s r) := by
  cases r with
  | ok s' => exact h s' rfl
  | error e => exact hs

/-- A value that is watched in the states of a run: an event starts it, stops it or moves it. -/
structure Watched (σ α β : Type) where
  step : σ → α → σ
  value : σ → Option β
  starts : σ → α → Option β
  stops : σ → α → Bool
  moves : α → β → β
  value_step : ∀ s a, value (step s a) =
    match starts s a with
    | some b => some b
    | none => if stops s a then none else (value s).map (moves a)

def Watched.run {σ α β : Type} (w : Watched σ α β) (s : σ) (history : List α) : σ :=
  history.foldl w.step s

/-- No event of a run starts or stops the value. -/
def Watched.Quiet {σ α β : Type} (w : Watched σ α β) : σ → List α → Prop
  | _, [] => True
  | s, a :: history => w.starts s a = none ∧ w.stops s a = false ∧ w.Quiet (w.step s a) history

def Watched.moved {σ α β : Type} (w : Watched σ α β) (b : β) (history : List α) : β :=
  history.foldl (fun b a => w.moves a b) b

theorem Watched.value_run_from {σ α β : Type} (w : Watched σ α β) (s : σ) (history : List α)
    (b : β) : w.value (w.run s history) = some b ↔
      (∃ before a after first, history = before ++ a :: after ∧
        w.starts (w.run s before) a = some first ∧
          w.Quiet (w.step (w.run s before) a) after ∧ b = w.moved first after) ∨
        w.Quiet s history ∧ ∃ c, w.value s = some c ∧ b = w.moved c history := by
  induction history generalizing s with
  | nil =>
    constructor
    · exact fun h => Or.inr ⟨trivial, b, h, rfl⟩
    · rintro (⟨before, a, after, first, h, _⟩ | ⟨_, c, h, rfl⟩)
      · exact absurd h.symm (List.append_ne_nil_of_right_ne_nil before (List.cons_ne_nil a after))
      · exact h
  | cons a history ih =>
    refine (ih (w.step s a)).trans ⟨?_, ?_⟩
    · rintro (⟨before, a', after, first, rfl, hstart, hquiet, rfl⟩ | ⟨hquiet, c, hc, rfl⟩)
      · exact Or.inl ⟨a :: before, a', after, first, rfl, hstart, hquiet, rfl⟩
      · rw [w.value_step] at hc
        split at hc
        next first hstart =>
          obtain rfl := Option.some.inj hc
          exact Or.inl ⟨[], a, history, first, rfl, hstart, hquiet, rfl⟩
        next hstart =>
          split at hc
          next => cases hc
          next hstop =>
            obtain ⟨d, hd, rfl⟩ := Option.map_eq_some_iff.mp hc
            exact Or.inr ⟨⟨hstart, Bool.not_eq_true _ ▸ hstop, hquiet⟩, d, hd, rfl⟩
    · rintro (⟨before, a', after, first, hsplit, hstart, hquiet, rfl⟩ | ⟨hquiet, c, hc, rfl⟩)
      · rcases before with _ | ⟨head, before⟩
        · obtain ⟨rfl, rfl⟩ := List.cons.inj hsplit
          refine Or.inr ⟨hquiet, first, ?_, rfl⟩
          rw [w.value_step, show w.starts s a = some first from hstart]
        · obtain ⟨rfl, rfl⟩ := List.cons.inj hsplit
          exact Or.inl ⟨before, a', after, first, rfl, hstart, hquiet, rfl⟩
      · refine Or.inr ⟨hquiet.2.2, w.moves a c, ?_, rfl⟩
        simp [w.value_step, hquiet.1, hquiet.2.1, hc]

/-- A run that begins without the value has it exactly where a start was not undone. -/
theorem Watched.value_run {σ α β : Type} (w : Watched σ α β) {s : σ} (hs : w.value s = none)
    (history : List α) (b : β) : w.value (w.run s history) = some b ↔
      ∃ before a after first, history = before ++ a :: after ∧
        w.starts (w.run s before) a = some first ∧
          w.Quiet (w.step (w.run s before) a) after ∧ b = w.moved first after := by
  refine (w.value_run_from s history b).trans ⟨?_, Or.inl⟩
  rintro (h | ⟨_, c, hc, _⟩)
  · exact h
  · rw [hs] at hc
    cases hc

/-- What holds after a run and did not before came about at one of its events. -/
theorem foldl_arises {σ α : Type} {step : σ → α → σ} (P : σ → Prop) {s : σ} {history : List α}
    (h : P (history.foldl step s)) (hs : ¬ P s) : ∃ before a after, history = before ++ a :: after ∧
      ¬ P (before.foldl step s) ∧ P (step (before.foldl step s) a) := by
  induction history generalizing s with
  | nil => exact absurd h hs
  | cons a history ih =>
    by_cases hfirst : P (step s a)
    · exact ⟨[], a, history, rfl, hs, hfirst⟩
    · obtain ⟨before, a', after, rfl, hbefore, hstep⟩ := ih h hfirst
      exact ⟨a :: before, a', after, rfl, hbefore, hstep⟩

/-- What a run changes, one of its events changes. -/
theorem foldl_changed {σ α β : Type} {step : σ → α → σ} (look : σ → β) {s : σ} {history : List α}
    (h : look (history.foldl step s) ≠ look s) : ∃ before a after,
      history = before ++ a :: after ∧
        look (step (before.foldl step s) a) ≠ look (before.foldl step s) := by
  obtain ⟨before, a, after, rfl, hbefore, hstep⟩ :=
    foldl_arises (fun t => look t ≠ look s) h (fun hne => hne rfl)
  exact ⟨before, a, after, rfl, fun heq => hstep (heq.trans (not_not.mp hbefore))⟩

end NovaVe
