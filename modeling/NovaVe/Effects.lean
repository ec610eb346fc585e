import Mathlib.Init

namespace NovaVe

variable {ε σ α : Type} {m : EStateM ε σ α} {rel : σ → σ → Prop}

/-- Run from a state, a program returns or raises as told; the state survives an exception. -/
def Ends {ε σ α : Type} (m : EStateM ε σ α) (s : σ) (returns : α → σ → Prop)
    (raises : ε → σ → Prop) : Prop :=
  match m.run s with
  | .ok a t => returns a t
  | .error e t => raises e t

/-- The body, and the clean-up before the exception goes on. -/
def onRaise {ε σ α : Type} (body : EStateM ε σ α) (cleanup : EStateM ε σ Unit) : EStateM ε σ α :=
  tryCatch body (fun e => do cleanup; throw e)

/-- A best-effort step: whatever it raises is dropped. -/
def swallow {ε σ : Type} (m : EStateM ε σ Unit) : EStateM ε σ Unit :=
  tryCatch m (fun _ => pure ())

/-- The exception as a value, for a loop that keeps what it has done so far. -/
def attempt {ε σ α : Type} (m : EStateM ε σ α) : EStateM ε σ (Except ε α) :=
  tryCatch (do let a ← m; pure (.ok a)) (fun e => pure (.error e))

theorem Ends.mono {s : σ} {returns returns' : α → σ → Prop} {raises raises' : ε → σ → Prop}
    (h : Ends m s returns raises) (hok : ∀ a t, returns a t → returns' a t)
    (herr : ∀ e t, raises e t → raises' e t) :
    Ends m s returns' raises' := by
  unfold Ends at h ⊢
  split
  next a t heq => rw [heq] at h; exact hok a t h
  next e t heq => rw [heq] at h; exact herr e t h

theorem Ends.and {s : σ} {returns returns' : α → σ → Prop} {raises raises' : ε → σ → Prop}
    (h : Ends m s returns raises) (h' : Ends m s returns' raises') :
    Ends m s (fun a t => returns a t ∧ returns' a t) (fun e t => raises e t ∧ raises' e t) := by
  unfold Ends at h h' ⊢
  split
  next a t heq => rw [heq] at h h'; exact ⟨h, h'⟩
  next e t heq => rw [heq] at h h'; exact ⟨h, h'⟩

/-- What a program does on the way decides what else can be said of it. -/
theorem Ends.iff_of {s : σ} {known returns : α → σ → Prop} {p : Prop}
    (h : Ends m s known (fun _ _ => False)) (hiff : ∀ a t, known a t → (returns a t ↔ p)) :
    Ends m s returns (fun _ _ => False) ↔ p := by
  unfold Ends at h ⊢
  split
  next a t heq => rw [heq] at h; exact hiff a t h
  next e t heq => rw [heq] at h; exact h.elim

/-- A program has one outcome. -/
theorem not_ends {s : σ} {returns : α → σ → Prop} {raises : ε → σ → Prop}
    (h : ¬ Ends m s returns raises) :
    Ends m s (fun a t => ¬ returns a t) (fun e t => ¬ raises e t) := by
  unfold Ends at h ⊢
  cases hrun : m.run s with
  | ok a t =>
    rw [hrun] at h
    exact h
  | error e t =>
    rw [hrun] at h
    exact h

@[simp] theorem ends_pure {ε σ α : Type} (a : α) (s : σ) (returns : α → σ → Prop)
    (raises : ε → σ → Prop) :
    Ends (pure a : EStateM ε σ α) s returns raises ↔ returns a s := Iff.rfl

@[simp] theorem ends_throw {ε σ α : Type} (e : ε) (s : σ) (returns : α → σ → Prop)
    (raises : ε → σ → Prop) :
    Ends (throw e : EStateM ε σ α) s returns raises ↔ raises e s := Iff.rfl

@[simp] theorem ends_get {ε σ : Type} (s : σ) (returns : σ → σ → Prop) (raises : ε → σ → Prop) :
    Ends (get : EStateM ε σ σ) s returns raises ↔ returns s s := Iff.rfl

@[simp] theorem ends_set {ε σ : Type} (t s : σ) (returns : PUnit → σ → Prop)
    (raises : ε → σ → Prop) :
    Ends (set t : EStateM ε σ PUnit) s returns raises ↔ returns ⟨⟩ t := Iff.rfl

@[simp] theorem ends_modify {ε σ : Type} (f : σ → σ) (s : σ) (returns : PUnit → σ → Prop)
    (raises : ε → σ → Prop) :
    Ends (modify f : EStateM ε σ PUnit) s returns raises ↔ returns ⟨⟩ (f s) := Iff.rfl

@[simp] theorem ends_bind {ε σ α β : Type} (m : EStateM ε σ α) (f : α → EStateM ε σ β) (s : σ)
    (returns : β → σ → Prop) (raises : ε → σ → Prop) :
    Ends (m >>= f) s returns raises ↔ Ends m s (fun a t => Ends (f a) t returns raises) raises := by
  unfold Ends
  change (match EStateM.bind m f s with
    | .ok b t => returns b t
    | .error e t => raises e t) ↔ _
  unfold EStateM.bind EStateM.run
  cases m s <;> exact Iff.rfl

@[simp] theorem ends_tryCatch {ε σ α : Type} (m : EStateM ε σ α) (f : ε → EStateM ε σ α) (s : σ)
    (returns : α → σ → Prop) (raises : ε → σ → Prop) :
    Ends (tryCatch m f) s returns raises ↔
      Ends m s returns (fun e t => Ends (f e) t returns raises) := by
  unfold Ends
  change (match EStateM.tryCatch m f s with
    | .ok b t => returns b t
    | .error e t => raises e t) ↔ _
  unfold EStateM.tryCatch EStateM.run
  cases m s <;> exact Iff.rfl

@[simp] theorem ends_onRaise {ε σ α : Type} (body : EStateM ε σ α) (cleanup : EStateM ε σ Unit)
    (s : σ) (returns : α → σ → Prop) (raises : ε → σ → Prop) :
    Ends (onRaise body cleanup) s returns raises ↔
      Ends body s returns (fun e t => Ends cleanup t (fun _ u => raises e u) raises) := by
  simp [onRaise]

@[simp] theorem ends_swallow {ε σ : Type} (m : EStateM ε σ Unit) (s : σ)
    (returns : Unit → σ → Prop) (raises : ε → σ → Prop) :
    Ends (swallow m) s returns raises ↔ Ends m s returns (fun _ t => returns () t) := by
  simp [swallow]

@[simp] theorem ends_attempt {ε σ α : Type} (m : EStateM ε σ α) (s : σ)
    (returns : Except ε α → σ → Prop) (raises : ε → σ → Prop) :
    Ends (attempt m) s returns raises ↔
      Ends m s (fun a t => returns (.ok a) t) (fun e t => returns (.error e) t) := by
  simp only [attempt, ends_tryCatch, ends_bind, ends_pure]

/-- The state in which a program ends, whether it returns or raises. -/
def endState {ε σ α : Type} (m : EStateM ε σ α) (s : σ) : σ :=
  match m.run s with
  | .ok _ t => t
  | .error _ t => t

theorem Ends.endState {s : σ} {post : σ → Prop}
    (h : Ends m s (fun _ t => post t) (fun _ t => post t)) : post (endState m s) := by
  unfold Ends at h
  unfold NovaVe.endState
  cases hrun : m.run s with
  | ok a t =>
    rw [hrun] at h
    exact h
  | error e t =>
    rw [hrun] at h
    exact h

/-- The state in which a program raises. -/
def raisedState {ε σ α : Type} (m : EStateM ε σ α) (s : σ) : Option σ :=
  match m.run s with
  | .ok _ _ => none
  | .error _ t => some t

theorem Ends.raised {s t : σ} {returns : α → σ → Prop} {raises : ε → σ → Prop}
    (h : Ends m s returns raises) (ht : raisedState m s = some t) :
    ∃ e, raises e t := by
  unfold Ends at h
  unfold raisedState at ht
  cases hrun : m.run s with
  | ok a u =>
    rw [hrun] at ht
    cases ht
  | error e u =>
    rw [hrun] at h ht
    cases ht
    exact ⟨e, h⟩

/-- A loop whose body acts on a part of the state as a function does, acts on it as the fold. -/
theorem ends_forM_fold {ε σ α β : Type} (good : σ → Prop) (view : σ → β) (g : β → α → β)
    {f : α → EStateM ε σ PUnit} {raises : ε → σ → Prop} {xs : List α}
    (h : ∀ x ∈ xs, ∀ s, good s → Ends (f x) s (fun _ t => good t ∧ view t = g (view s) x) raises)
    {s : σ} (hs : good s) :
    Ends (xs.forM f) s (fun _ t => good t ∧ view t = xs.foldl g (view s)) raises := by
  induction xs generalizing s with
  | nil => exact ⟨hs, rfl⟩
  | cons x rest ih =>
    change Ends (f x >>= fun _ => rest.forM f) s _ _
    rw [ends_bind]
    refine (h x List.mem_cons_self s hs).mono (fun _ t ht => ?_) (fun _ _ he => he)
    have hrest := @ih (fun y hy => h y (List.mem_cons_of_mem x hy)) t ht.1
    rw [ht.2] at hrest
    exact hrest

/-- Whether it returns or raises, a program takes every state to one related to it. -/
def Frames {ε σ α : Type} (rel : σ → σ → Prop) (m : EStateM ε σ α) : Prop :=
  ∀ s, Ends m s (fun _ t => rel s t) (fun _ t => rel s t)

/-- A relation that holds of no change and composes. -/
structure Composes {σ : Type} (rel : σ → σ → Prop) : Prop where
  refl : ∀ s, rel s s
  trans : ∀ s t u, rel s t → rel t u → rel s u

theorem Frames.pure (h : Composes rel) (a : α) :
    Frames rel (Pure.pure a : EStateM ε σ α) := fun s => h.refl s

theorem Frames.throw (h : Composes rel) (e : ε) :
    Frames rel (MonadExcept.throw e : EStateM ε σ α) := fun s => h.refl s

theorem Frames.get {ε σ : Type} {rel : σ → σ → Prop} (h : Composes rel) :
    Frames rel (MonadState.get : EStateM ε σ σ) := fun s => h.refl s

theorem Frames.modify {ε σ : Type} {rel : σ → σ → Prop} {f : σ → σ} (h : ∀ s, rel s (f s)) :
    Frames rel (modify f : EStateM ε σ PUnit) := h

theorem Frames.bind {ε σ α β : Type} {rel : σ → σ → Prop} {m : EStateM ε σ α}
    {f : α → EStateM ε σ β} (h : Composes rel) (hm : Frames rel m) (hf : ∀ a, Frames rel (f a)) :
    Frames rel (m >>= f) := by
  intro s
  rw [ends_bind]
  refine (hm s).mono (fun a t ht => ?_) (fun _ _ ht => ht)
  exact (hf a t).mono (fun _ u hu => h.trans s t u ht hu) (fun _ u hu => h.trans s t u ht hu)

theorem Frames.tryCatch {f : ε → EStateM ε σ α} (h : Composes rel) (hm : Frames rel m)
    (hf : ∀ e, Frames rel (f e)) :
    Frames rel (tryCatch m f) := by
  intro s
  rw [ends_tryCatch]
  refine (hm s).mono (fun _ _ ht => ht) (fun e t ht => ?_)
  exact (hf e t).mono (fun _ u hu => h.trans s t u ht hu) (fun _ u hu => h.trans s t u ht hu)

theorem Frames.onRaise {body : EStateM ε σ α} {cleanup : EStateM ε σ Unit} (h : Composes rel)
    (hb : Frames rel body) (hc : Frames rel cleanup) : Frames rel (onRaise body cleanup) :=
  Frames.tryCatch h hb (fun e => Frames.bind h hc (fun _ => Frames.throw h e))

theorem Frames.swallow {ε σ : Type} {rel : σ → σ → Prop} {m : EStateM ε σ Unit}
    (h : Composes rel) (hm : Frames rel m) : Frames rel (swallow m) :=
  Frames.tryCatch h hm (fun _ => Frames.pure h ())

theorem Frames.attempt (h : Composes rel) (hm : Frames rel m) : Frames rel (attempt m) :=
  Frames.tryCatch h (Frames.bind h hm (fun a => Frames.pure h (Except.ok a)))
    (fun e => Frames.pure h (Except.error e))

/-- What follows an attempt is framed for a value and for an exception. -/
theorem Frames.attemptThen {ε σ α β : Type} {rel : σ → σ → Prop} {m : EStateM ε σ α}
    {f : Except ε α → EStateM ε σ β} (h : Composes rel) (hm : Frames rel m)
    (hok : ∀ a, Frames rel (f (.ok a))) (herr : ∀ e, Frames rel (f (.error e))) :
    Frames rel (NovaVe.attempt m >>= f) := by
  refine Frames.bind h (Frames.attempt h hm) (fun made => ?_)
  cases made with
  | ok a => exact hok a
  | error e => exact herr e

/-- A framed program, run from a state that was reached by related steps. -/
theorem Frames.onward {s t : σ} (hm : Frames rel m) (h : Composes rel) (hst : rel s t) :
    Ends m t (fun _ u => rel s u) (fun _ u => rel s u) :=
  (hm t).mono (fun _ u hu => h.trans s t u hst hu) (fun _ u hu => h.trans s t u hst hu)

theorem Frames.forM {f : α → EStateM ε σ PUnit} {xs : List α} (h : Composes rel)
    (hf : ∀ x ∈ xs, Frames rel (f x)) : Frames rel (xs.forM f) := by
  induction xs with
  | nil => exact Frames.pure h PUnit.unit
  | cons x rest ih =>
    change Frames rel (f x >>= fun _ => rest.forM f)
    exact Frames.bind h (hf x List.mem_cons_self)
      (fun _ => ih (fun y hy => hf y (List.mem_cons_of_mem x hy)))

/-- A framed program, with what is known of the value it returns. -/
def Yields {ε σ α : Type} (rel : σ → σ → Prop) (m : EStateM ε σ α) (post : α → Prop) : Prop :=
  ∀ s, Ends m s (fun a t => rel s t ∧ post a) (fun _ t => rel s t)

theorem Yields.pure (h : Composes rel) {post : α → Prop} {a : α} (ha : post a) :
    Yields rel (Pure.pure a : EStateM ε σ α) post := fun s => ⟨h.refl s, ha⟩

theorem Yields.frames {post : α → Prop} (hm : Yields rel m post) : Frames rel m :=
  fun s => (hm s).mono (fun _ _ ht => ht.1) (fun _ _ ht => ht)

theorem Frames.yields (hm : Frames rel m) : Yields rel m (fun _ => True) :=
  fun s => (hm s).mono (fun _ _ ht => ⟨ht, trivial⟩) (fun _ _ ht => ht)

/-- What the first part returns is known to the second. -/
theorem Yields.bind {ε σ α β : Type} {rel : σ → σ → Prop} {m : EStateM ε σ α}
    {f : α → EStateM ε σ β} {post : α → Prop} {post' : β → Prop} (h : Composes rel)
    (hm : Yields rel m post) (hf : ∀ a, post a → Yields rel (f a) post') :
    Yields rel (m >>= f) post' := by
  intro s
  rw [ends_bind]
  refine (hm s).mono (fun a t ht => ?_) (fun _ _ ht => ht)
  exact (hf a ht.2 t).mono (fun _ u hu => ⟨h.trans s t u ht.1 hu.1, hu.2⟩)
    (fun _ u hu => h.trans s t u ht.1 hu)

theorem Yields.bindFrames {ε σ α β : Type} {rel : σ → σ → Prop} {m : EStateM ε σ α}
    {f : α → EStateM ε σ β} {post : α → Prop} (h : Composes rel) (hm : Yields rel m post)
    (hf : ∀ a, post a → Frames rel (f a)) : Frames rel (m >>= f) :=
  (Yields.bind h hm (fun a ha => (hf a ha).yields)).frames

/-- An invariant, as a relation. -/
theorem composes_invariant {σ : Type} (inv : σ → Prop) : Composes (fun s t => inv s → inv t) :=
  ⟨fun _ h => h, fun _ _ _ hst htu h => htu (hst h)⟩

/-- A part of the state that is left alone, as a relation. -/
theorem composes_same {σ α : Type} (f : σ → α) : Composes (fun s t => f t = f s) :=
  ⟨fun _ => rfl, fun _ _ _ hst htu => htu.trans hst⟩

theorem Composes.and {σ : Type} {rel rel' : σ → σ → Prop} (h : Composes rel) (h' : Composes rel') :
    Composes (fun s t => rel s t ∧ rel' s t) :=
  ⟨fun s => ⟨h.refl s, h'.refl s⟩,
    fun s t u hst htu => ⟨h.trans s t u hst.1 htu.1, h'.trans s t u hst.2 htu.2⟩⟩

end NovaVe
