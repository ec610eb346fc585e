import NovaVe.EventLoop

namespace NovaVe

structure LoopInv {L R : Type} [LT R] (kinds : LockKinds L R) (s : LoopState L) : Prop where
  disciplined : ∀ (i : Nat) (t : LoopTask L), s.tasks[i]? = some t →
    Disciplined (rulesOn kinds t.runsOn) t.code t.frames
  light : ∀ i t, s.Suspended i t → ∀ lock ∈ heldLocks t.frames, kinds.kind lock ≠ .brief
  apart : ∀ i t, s.Suspended i t → s.FilesApart kinds i
  current : ∀ i, s.running = some i → ∃ t, s.tasks[i]? = some t ∧ t.runsOn = .loop

theorem LoopState.put_get? {L : Type} {s : LoopState L} {i j : Nat} {t t' u : LoopTask L}
    (hi : s.tasks[i]? = some t) (hj : (s.put i t').tasks[j]? = some u) :
    j = i ∧ u = t' ∨ j ≠ i ∧ s.tasks[j]? = some u := by
  have hlt : i < s.tasks.length := (List.getElem?_eq_some_iff.mp hi).1
  simp only [LoopState.put, List.getElem?_set] at hj
  split at hj
  next he => exact Or.inl ⟨he.symm, (Option.some.inj hj).symm⟩
  next hne => exact Or.inr ⟨fun he => hne he.symm, hj⟩

theorem LoopState.put_get?_ne {L : Type} {s : LoopState L} {i j : Nat} (t' : LoopTask L)
    (hne : j ≠ i) : (s.put i t').tasks[j]? = s.tasks[j]? := by
  simp only [LoopState.put]
  exact List.getElem?_set_ne (fun he => hne he.symm)

theorem LoopState.put_get?_self {L : Type} {s : LoopState L} {i : Nat} {t : LoopTask L}
    (t' : LoopTask L) (hi : s.tasks[i]? = some t) : (s.put i t').tasks[i]? = some t' := by
  have hlt : i < s.tasks.length := (List.getElem?_eq_some_iff.mp hi).1
  simp only [LoopState.put]
  exact List.getElem?_set_self hlt

/-- A task goes on: it asks for less, and off the loop it gets a mutex at most. -/
theorem LoopInv.put {L R : Type} [LT R] {kinds : LockKinds L R} {s : LoopState L} {i : Nat}
    {t : LoopTask L} {code : LockProg L} {frames : List (LockFrame L)} (h : LoopInv kinds s)
    (hi : s.tasks[i]? = some t) (hdisc : Disciplined (rulesOn kinds t.runsOn) code frames)
    (hpending : pendingLocks code frames ⊆ pendingLocks t.code t.frames)
    (hheld : s.Suspended i t → ∀ lock ∈ heldLocks frames,
      lock ∈ heldLocks t.frames ∨ kinds.kind lock = .mutex) :
    LoopInv kinds (s.put i ⟨t.runsOn, code, frames⟩) := by
  constructor
  · intro j u hj
    rcases LoopState.put_get? hi hj with ⟨_, hu⟩ | ⟨_, hj⟩
    · subst hu
      exact hdisc
    · exact h.disciplined j u hj
  · intro j u ⟨hj, hloop, hout⟩ lock hlock
    rcases LoopState.put_get? hi hj with ⟨he, hu⟩ | ⟨_, hj⟩
    · subst he hu
      rcases hheld ⟨hi, hloop, hout⟩ lock hlock with hold | hkind
      · exact h.light j t ⟨hi, hloop, hout⟩ lock hold
      · rw [hkind]
        exact fun he => LockKind.noConfusion he
    · exact h.light j u ⟨hj, hloop, hout⟩ lock hlock
  · intro j u hsusp v hv lock hlock hfile k w hk hw hwloop hmem
    have hout : s.running ≠ some j := hsusp.2.2
    obtain ⟨w', hw', hwloop', hmem'⟩ : ∃ w', s.tasks[k]? = some w' ∧ w'.runsOn = .loop ∧
        lock ∈ pendingLocks w'.code w'.frames := by
      rcases LoopState.put_get? hi hw with ⟨he, hu⟩ | ⟨_, hw⟩
      · subst he hu
        exact ⟨t, hi, hwloop, hpending hmem⟩
      · exact ⟨w, hw, hwloop, hmem⟩
    rcases LoopState.put_get? hi hv with ⟨he, hu⟩ | ⟨hne, hv⟩
    · subst he hu
      have hloop : t.runsOn = .loop := by
        rcases LoopState.put_get? hi hsusp.1 with ⟨_, hu⟩ | ⟨hne, _⟩
        · have hl := hsusp.2.1
          rw [hu] at hl
          exact hl
        · exact absurd rfl hne
      have hsusp' : s.Suspended j t := ⟨hi, hloop, hout⟩
      rcases hheld hsusp' lock hlock with hold | hkind
      · exact h.apart j t hsusp' t hi lock hold hfile k w' hk hw' hwloop' hmem'
      · rw [hfile] at hkind
        exact LockKind.noConfusion hkind
    · have hsusp' : s.Suspended j u := by
        rcases LoopState.put_get? hi hsusp.1 with ⟨he, _⟩ | ⟨_, hj⟩
        · exact absurd he hne
        · exact ⟨hj, hsusp.2.1, hout⟩
      exact h.apart j u hsusp' v hv lock hlock hfile k w' hk hw' hwloop' hmem'
  · intro j hj
    obtain ⟨u, hu, hloop⟩ := h.current j hj
    by_cases he : j = i
    · subst he
      rw [hi] at hu
      cases hu
      exact ⟨_, LoopState.put_get?_self _ hi, hloop⟩
    · exact ⟨u, (LoopState.put_get?_ne _ he).trans hu, hloop⟩

/-- The task on the loop gives it up. -/
theorem LoopInv.release {L R : Type} [LT R] {kinds : LockKinds L R} {s : LoopState L} {i : Nat}
    {t : LoopTask L} (h : LoopInv kinds s) (hi : s.tasks[i]? = some t)
    (hlight : ∀ lock ∈ heldLocks t.frames, kinds.kind lock ≠ .brief)
    (hrun : s.running = some i) (hapart : s.FilesApart kinds i) :
    LoopInv kinds { s with running := none } := by
  have hsusp : ∀ j u, ({ s with running := none } : LoopState L).Suspended j u →
      j = i ∨ s.Suspended j u := by
    intro j u ⟨hj, hloop, _⟩
    by_cases he : j = i
    · exact Or.inl he
    · refine Or.inr ⟨hj, hloop, fun hr => he ?_⟩
      exact Option.some.inj (hr.symm.trans hrun)
  constructor
  · exact h.disciplined
  · intro j u hu lock hlock
    rcases hsusp j u hu with he | hu'
    · subst he
      have hut : u = t := Option.some.inj (hu.1.symm.trans hi)
      subst hut
      exact hlight lock hlock
    · exact h.light j u hu' lock hlock
  · intro j u hu
    rcases hsusp j u hu with he | hu'
    · subst he
      exact hapart
    · exact h.apart j u hu'
  · intro j hj
    cases hj

theorem LoopInv.enter {L R : Type} [LT R] {kinds : LockKinds L R} {s : LoopState L} {i : Nat}
    {t : LoopTask L} (h : LoopInv kinds s) (hi : s.tasks[i]? = some t) (hloop : t.runsOn = .loop)
    (hfree : s.running = none) : LoopInv kinds { s with running := some i } := by
  have hsusp : ∀ j u, ({ s with running := some i } : LoopState L).Suspended j u →
      s.Suspended j u := by
    intro j u ⟨hj, hl, _⟩
    refine ⟨hj, hl, ?_⟩
    rw [hfree]
    exact fun hr => Option.noConfusion rfl (heq_of_eq hr)
  constructor
  · exact h.disciplined
  · exact fun j u hu => h.light j u (hsusp j u hu)
  · exact fun j u hu => h.apart j u (hsusp j u hu)
  · intro j hj
    cases hj
    exact ⟨t, hi, hloop⟩

theorem LoopInv.arrive {L R : Type} [LT R] {kinds : LockKinds L R} {s : LoopState L}
    (h : LoopInv kinds s) {runsOn : RunsOn} {code : LockProg L}
    (hrules : code.Follows (rulesOn kinds runsOn) [])
    (hapart : runsOn = .loop → ∀ i t, s.Suspended i t → ∀ lock ∈ heldLocks t.frames,
      kinds.kind lock = .file → lock ∉ code.locks) :
    LoopInv kinds { s with tasks := s.tasks ++ [⟨runsOn, code, []⟩] } := by
  have hget : ∀ (j : Nat) (u : LoopTask L), (s.tasks ++ [⟨runsOn, code, []⟩])[j]? = some u →
      s.tasks[j]? = some u ∨ u = ⟨runsOn, code, []⟩ := by
    intro j u hj
    rcases Nat.lt_or_ge j s.tasks.length with hlt | hge
    · rw [List.getElem?_append_left hlt] at hj
      exact Or.inl hj
    · rw [List.getElem?_append_right hge, List.getElem?_singleton] at hj
      split at hj
      · exact Or.inr (Option.some.inj hj).symm
      · cases hj
  constructor
  · intro j u hj
    rcases hget j u hj with hj | hu
    · exact h.disciplined j u hj
    · subst hu
      exact Disciplined.start hrules
  · intro j u ⟨hj, hloop, hout⟩ lock hlock
    rcases hget j u hj with hj | hu
    · exact h.light j u ⟨hj, hloop, hout⟩ lock hlock
    · subst hu
      exact absurd hlock List.not_mem_nil
  · intro j u ⟨hj, hloop, hout⟩ v hv lock hlock hfile k w hk hw hwloop
    have hjv : v = u := Option.some.inj (hv.symm.trans hj)
    subst hjv
    rcases hget j v hj with hj' | hu
    · rcases hget k w hw with hw' | hu
      · exact h.apart j v ⟨hj', hloop, hout⟩ v hj' lock hlock hfile k w hk hw' hwloop
      · subst hu
        exact hapart hwloop j v ⟨hj', hloop, hout⟩ lock hlock hfile
    · subst hu
      exact absurd hlock List.not_mem_nil
  · intro j hj
    obtain ⟨u, hu, hloop⟩ := h.current j hj
    have hlt : j < s.tasks.length := (List.getElem?_eq_some_iff.mp hu).1
    exact ⟨u, by rw [List.getElem?_append_left hlt]; exact hu, hloop⟩

theorem LoopState.Active.not_suspended {L : Type} {s : LoopState L} {i : Nat} {t : LoopTask L}
    (h : s.Active i t) : ¬ s.Suspended i t :=
  fun hs => hs.2.2 (h.2 hs.2.1)

theorem LoopInv.loop_disciplined {L R : Type} [LT R] {kinds : LockKinds L R} {s : LoopState L}
    (h : LoopInv kinds s) {i : Nat} {t : LoopTask L} (hi : s.tasks[i]? = some t)
    (hloop : t.runsOn = .loop) : Disciplined (loopRules kinds) t.code t.frames := by
  have hd := h.disciplined i t hi
  rw [hloop] at hd
  exact hd

theorem LoopInv.current_loop {L R : Type} [LT R] {kinds : LockKinds L R} {s : LoopState L}
    (h : LoopInv kinds s) {i : Nat} {t : LoopTask L} (hi : s.tasks[i]? = some t)
    (hrun : s.running = some i) : t.runsOn = .loop := by
  obtain ⟨u, hu, hloop⟩ := h.current i hrun
  rw [hi] at hu
  cases hu
  exact hloop

/-- What every step of a considerate run keeps. -/
theorem LoopInv.step {L R ρ : Type} [LT R] {kinds : LockKinds L R}
    {program : ρ → RunsOn × LockProg L} {s s' : LoopState L} {a : LoopAct ρ} (h : LoopInv kinds s)
    (hok : Considerate kinds program s a)
    (hrules : ∀ request, a = .arrive request →
      (program request).2.Follows (rulesOn kinds (program request).1) [])
    (hstep : LoopStep kinds program s a s') : LoopInv kinds s' := by
  cases hstep with
  | arrive request => exact h.arrive (hrules request rfl) hok
  | enter hi hloop hfree => exact h.enter hi hloop hfree
  | advance hi hstep =>
    exact h.put hi.1 ((h.disciplined _ _ hi.1).advance hstep) hstep.pending
      (fun hs => absurd hs hi.not_suspended)
  | @take i t wait lock body hi hcode hfree =>
    have hd := h.disciplined _ _ hi.1
    rw [hcode] at hd
    refine h.put hi.1 hd.take ?_ (fun hs => absurd hs hi.not_suspended)
    rw [hcode]
    exact pendingLocks_take
  | @grant i t lock body hi hout hcode hfree =>
    have hd := h.disciplined _ _ hi
    rw [hcode] at hd
    refine h.put hi hd.take ?_ ?_
    · rw [hcode]
      exact pendingLocks_take
    · intro hs other hother
      have hd := h.loop_disciplined hi hs.2.1
      rw [hcode] at hd
      rcases List.mem_cons.mp hother with he | hrest
      · exact Or.inr (he ▸ hd.code.1.1)
      · exact Or.inl hrest
  | @proceed i t hi hcode =>
    exact h.put hi.1 (h.disciplined _ _ hi.1).skip (pendingLocks_of_no_locks rfl)
      (fun hs => absurd hs hi.not_suspended)
  | @yield i t hi hrun hcode =>
    have hloop := h.current_loop hi hrun
    have hd := h.loop_disciplined hi hloop
    rw [hcode] at hd
    have hput : LoopInv kinds (s.put i ⟨t.runsOn, .skip, t.frames⟩) :=
      h.put hi (h.disciplined _ _ hi).skip (pendingLocks_of_no_locks rfl)
        (fun hs => absurd hrun hs.2.2)
    refine hput.release (LoopState.put_get?_self _ hi) hd.code hrun ?_
    intro v hv lock hlock hfile k w hk hw hwloop
    rw [LoopState.put_get?_self _ hi] at hv
    cases hv
    rw [LoopState.put_get?_ne _ hk] at hw
    exact hok t hi lock hlock hfile k w hk hw hwloop
  | @wait i j t lock body hi hrun hcode hblocked =>
    have hd := h.loop_disciplined hi (h.current_loop hi hrun)
    rw [hcode] at hd
    exact h.release hi (fun other hother => (hd.code.1.2 other hother).1) hrun hok
  | fail hi =>
    exact h.put hi (h.disciplined _ _ hi).raise (pendingLocks_of_no_locks rfl)
      (fun _ _ hlock => Or.inl hlock)
  | @finish i t hi hrun hcode hframes =>
    have hnone : heldLocks t.frames = [] := by rw [hframes]; rfl
    refine h.release hi ?_ hrun ?_
    · intro lock hlock
      rw [hnone] at hlock
      exact absurd hlock List.not_mem_nil
    · intro v hv lock hlock
      rw [hi] at hv
      cases hv
      rw [hnone] at hlock
      exact absurd hlock List.not_mem_nil

end NovaVe
