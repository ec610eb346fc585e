import NovaVe.EventLoopSafety

namespace NovaVe

variable {L R : Type} {s : LoopState L} {kinds : LockKinds L R}

theorem LoopState.Waits.unique {L : Type} {s : LoopState L} {i : Nat} {w w' : Wait} {lock lock' : L}
    (h : s.Waits i w lock) (h' : s.Waits i w' lock') : w = w' ∧ lock = lock' := by
  obtain ⟨t, body, hi, hcode, _⟩ := h
  obtain ⟨t', body', hi', hcode', _⟩ := h'
  have ht : t = t' := Option.some.inj (hi.symm.trans hi')
  subst ht
  rw [hcode] at hcode'
  cases hcode'
  exact ⟨rfl, rfl⟩

/-- A worker that holds a lock waits for nothing. -/
theorem LoopInv.worker_idle [LT R] (h : LoopInv kinds s) {i : Nat} {t : LoopTask L} {wait : Wait}
    {lock other : L} (hi : s.tasks[i]? = some t) (hworker : t.runsOn = .worker)
    (hwaits : s.Waits i wait lock) :
    other ∉ heldLocks t.frames := by
  intro hheld
  obtain ⟨u, body, hu, hcode, _⟩ := hwaits
  have hut : t = u := Option.some.inj (hi.symm.trans hu)
  subst hut
  have hd := h.disciplined i t hi
  rw [hworker, hcode] at hd
  have hnone : heldLocks t.frames = [] := hd.code.1.1
  rw [hnone] at hheld
  exact List.not_mem_nil hheld

/-- A task that waits for a lock and is on the loop is kept from it by a worker. -/
theorem LoopInv.blocked_by_worker [LT R] (h : LoopInv kinds s) {i j : Nat} {lock : L}
    (hwaits : s.Waits i .blocking lock) (hrun : s.running = some i)
    (hblocks : s.Blocks kinds i lock j) :
    ∃ u, s.tasks[j]? = some u ∧ u.runsOn = .worker := by
  obtain ⟨t, u, hi, hj, hheld, hother⟩ := hblocks
  obtain ⟨t', body, hi', hcode, _⟩ := hwaits
  have htt : t = t' := Option.some.inj (hi.symm.trans hi')
  subst htt
  refine ⟨u, hj, ?_⟩
  cases hon : u.runsOn with
  | worker => rfl
  | loop =>
    exfalso
    have hloop := h.current_loop hi hrun
    have hd := h.loop_disciplined hi hloop
    rw [hcode] at hd
    have hasks : kinds.kind lock ≠ .mutex ∧ (lock ∈ heldLocks t.frames → kinds.reentrant lock) :=
      hd.code.1
    by_cases he : i = j
    · subst he
      have hut : t = u := Option.some.inj (hi.symm.trans hj)
      subst hut
      exact hother ⟨hasks.2 hheld, Or.inl rfl⟩
    · have hsusp : s.Suspended j u := by
        refine ⟨hj, hon, fun hr => he ?_⟩
        exact Option.some.inj (hrun.symm.trans hr)
      cases hk : kinds.kind lock with
      | mutex => exact hasks.1 hk
      | brief => exact h.light j u hsusp lock hheld hk
      | file =>
        refine h.apart j u hsusp u hj lock hheld hk i t he hi hloop ?_
        rw [mem_pendingLocks, hcode]
        exact Or.inl List.mem_cons_self

/-- A worker is kept from a brief lock only, which no suspended task holds. -/
theorem LoopInv.worker_waits [LT R] (h : LoopInv kinds s) {i : Nat} {t : LoopTask L} {wait : Wait}
    {lock : L} (hi : s.tasks[i]? = some t) (hworker : t.runsOn = .worker)
    (hwaits : s.Waits i wait lock) :
    kinds.kind lock = .brief := by
  obtain ⟨u, body, hu, hcode, _⟩ := hwaits
  have hut : t = u := Option.some.inj (hi.symm.trans hu)
  subst hut
  have hd := h.disciplined i t hi
  rw [hworker, hcode] at hd
  exact hd.code.1.2.2

/-- Three waiting tasks in a row: the first two await mutexes, in increasing order. -/
theorem LoopInv.mutexes_increase [LT R] (h : LoopInv kinds s) {i j k m : Nat}
    (hij : s.WaitsFor kinds i j) (hjk : s.WaitsFor kinds j k) (hkm : s.WaitsFor kinds k m) :
    ∃ lock lock', s.Waits i .awaiting lock ∧ s.Waits j .awaiting lock' ∧
      kinds.rank lock < kinds.rank lock' := by
  obtain ⟨wi, li, hwi, hbi⟩ := hij
  obtain ⟨wj, lj, hwj, hbj⟩ := hjk
  obtain ⟨wk, lk, hwk, _⟩ := hkm
  obtain ⟨ti, tj, hi, hj, hheldj, _⟩ := hbi
  have hjloop : tj.runsOn = .loop := by
    cases hon : tj.runsOn with
    | loop => rfl
    | worker => exact absurd hheldj (h.worker_idle hj hon hwj)
  have hjwait : wj = .awaiting := by
    cases hw : wj with
    | awaiting => rfl
    | blocking =>
      exfalso
      rw [hw] at hwj
      obtain ⟨t', body, hj', hcode, hrun⟩ := hwj
      have htt : tj = t' := Option.some.inj (hj.symm.trans hj')
      subst htt
      obtain ⟨u, hk, hworker⟩ := h.blocked_by_worker ⟨tj, body, hj, hcode, hrun⟩ (hrun hjloop) hbj
      obtain ⟨tj', tk, _, hk', hheldk, _⟩ := hbj
      have hku : tk = u := Option.some.inj (hk'.symm.trans hk)
      subst hku
      exact absurd hheldk (h.worker_idle hk hworker hwk)
  subst hjwait
  obtain ⟨t', bodyj, hj', hcodej, hout⟩ := hwj
  have htt : tj = t' := Option.some.inj (hj.symm.trans hj')
  subst htt
  have hdj := h.loop_disciplined hj hjloop
  rw [hcodej] at hdj
  have hheld := hdj.code.1.2 li hheldj
  have hiloop : ti.runsOn = .loop := by
    cases hon : ti.runsOn with
    | loop => rfl
    | worker => exact absurd (h.worker_waits hi hon hwi) hheld.1
  have hiwait : wi = .awaiting := by
    cases hw : wi with
    | awaiting => rfl
    | blocking =>
      exfalso
      rw [hw] at hwi
      obtain ⟨t', body, hi', hcode, hrun⟩ := hwi
      have htt : ti = t' := Option.some.inj (hi.symm.trans hi')
      subst htt
      obtain ⟨u, hju, hworker⟩ := h.blocked_by_worker ⟨ti, body, hi, hcode, hrun⟩ (hrun hiloop)
        ⟨ti, tj, hi, hj, hheldj, by assumption⟩
      have hju' : tj = u := Option.some.inj (hj.symm.trans hju)
      rw [hju', hworker] at hjloop
      cases hjloop
  subst hiwait
  obtain ⟨t', bodyi, hi', hcodei, houti⟩ := hwi
  have htt : ti = t' := Option.some.inj (hi.symm.trans hi')
  subst htt
  have hdi := h.loop_disciplined hi hiloop
  rw [hcodei] at hdi
  exact ⟨li, lj, ⟨ti, bodyi, hi, hcodei, houti⟩, ⟨tj, bodyj, hj, hcodej, hout⟩,
    hheld.2 hdi.code.1.1⟩

/-- Along a chain of waiting tasks the awaited mutexes increase. -/
theorem LoopInv.chain_increases [Preorder R] (h : LoopInv kinds s) {i j : Nat}
    (hij : Relation.TransGen (s.WaitsFor kinds) i j) :
    ∀ k m, s.WaitsFor kinds j k → s.WaitsFor kinds k m →
      ∃ lock lock', s.Waits i .awaiting lock ∧ s.Waits j .awaiting lock' ∧
        kinds.rank lock < kinds.rank lock' := by
  induction hij with
  | single hij => exact fun k m hjk hkm => h.mutexes_increase hij hjk hkm
  | tail hib hbc ih =>
    intro k m hck hkm
    obtain ⟨li, lb, hli, hlb, hlt⟩ := ih _ _ hbc hck
    obtain ⟨lb', lc, hlb', hlc, hlt'⟩ := h.mutexes_increase hbc hck hkm
    obtain ⟨_, he⟩ := hlb.unique hlb'
    subst he
    exact ⟨li, lc, hli, hlc, lt_trans hlt hlt'⟩

theorem LoopInv.acyclic [Preorder R] (h : LoopInv kinds s) (i : Nat) :
    ¬ Relation.TransGen (s.WaitsFor kinds) i i := by
  intro hcycle
  obtain ⟨k, hik, hki⟩ := Relation.TransGen.head'_iff.mp hcycle
  obtain ⟨m, hkm⟩ : ∃ m, s.WaitsFor kinds k m := by
    rcases Relation.ReflTransGen.cases_head hki with he | ⟨m, hkm, _⟩
    · subst he
      exact ⟨k, hik⟩
    · exact ⟨m, hkm⟩
  obtain ⟨lock, lock', hlock, hlock', hlt⟩ := h.chain_increases hcycle k m hik hkm
  obtain ⟨_, he⟩ := hlock.unique hlock'
  subst he
  exact lt_irrefl _ hlt

theorem LoopState.WaitsFor.lt {i j : Nat} (h : s.WaitsFor kinds i j) : j < s.tasks.length := by
  obtain ⟨_, _, _, _, _, _, hj, _⟩ := h
  exact (List.getElem?_eq_some_iff.mp hj).1

/-- Where nobody waits in a circle, every chain of waiting tasks ends. -/
theorem LoopState.chain_ends (hacyclic : ∀ i, ¬ Relation.TransGen (s.WaitsFor kinds) i i) {j : Nat}
    (hj : j < s.tasks.length) :
    ∃ k, Relation.ReflTransGen (s.WaitsFor kinds) j k ∧ ∀ m, ¬ s.WaitsFor kinds k m := by
  let after : Fin s.tasks.length → Fin s.tasks.length → Prop :=
    fun a b => Relation.TransGen (s.WaitsFor kinds) b a
  have htrans : IsTrans (Fin s.tasks.length) after := ⟨fun _ _ _ hab hbc => hbc.trans hab⟩
  have hirrefl : Std.Irrefl after := ⟨fun a => hacyclic a⟩
  have hwf : WellFounded after := Finite.wellFounded_of_trans_of_irrefl after
  have key : ∀ a : Fin s.tasks.length,
      ∃ k, Relation.ReflTransGen (s.WaitsFor kinds) a k ∧ ∀ m, ¬ s.WaitsFor kinds k m := by
    intro a
    induction a using hwf.induction with
    | h a ih =>
      by_cases hsome : ∃ m, s.WaitsFor kinds a m
      · obtain ⟨m, ham⟩ := hsome
        obtain ⟨k, hmk, hk⟩ := ih ⟨m, ham.lt⟩ (Relation.TransGen.single ham)
        exact ⟨k, Relation.ReflTransGen.head ham hmk, hk⟩
      · exact ⟨a, Relation.ReflTransGen.refl, fun m hm => hsome ⟨m, hm⟩⟩
  exact key ⟨j, hj⟩

theorem LoopInv.noStall [Preorder R] (h : LoopInv kinds s) : s.NoStall kinds := by
  refine ⟨h.acyclic, ?_, ?_⟩
  · intro i j lock t hwaits hrun hfile hj hloop hout hheld
    obtain ⟨u, body, hi, hcode, _⟩ := hwaits
    have hne : i ≠ j := fun he => hout (he ▸ hrun)
    refine h.apart j t ⟨hj, hloop, hout⟩ t hj lock hheld hfile i u hne hi
      (h.current_loop hi hrun) ?_
    rw [mem_pendingLocks, hcode]
    exact Or.inl List.mem_cons_self
  · intro i j hij
    exact LoopState.chain_ends h.acyclic hij.lt

theorem LoopInv.start [LT R] (kinds : LockKinds L R) :
    LoopInv kinds ({} : LoopState L) := by
  constructor
  · intro i t hi
    simp at hi
  · intro i t hs
    exact absurd hs.1 (by simp)
  · intro i t hs
    exact absurd hs.1 (by simp)
  · intro i hi
    cases hi

/-- In a run whose tasks keep to the rules and are considerate, nothing stalls. -/
theorem noStall_of_run {L R ρ : Type} [Preorder R] {kinds : LockKinds L R}
    {program : ρ → RunsOn × LockProg L} {ok : LoopState L → LoopAct ρ → Prop}
    (hok : ∀ s a, ok s a → Considerate kinds program s a)
    (hrules : ∀ s request, ok s (.arrive request) →
      (program request).2.Follows (rulesOn kinds (program request).1) [])
    {s : LoopState L} {as : List (LoopAct ρ)}
    (run : Run (Guarded (LoopStep kinds program) ok) {} as s) : s.NoStall kinds := by
  have hinv : LoopInv kinds s := by
    refine Run.invariant ?_ run (LoopInv.start kinds)
    intro s a t hs hstep
    refine hs.step (hok s a hstep.1) ?_ hstep.2
    intro request he
    subst he
    exact hrules s request hstep.1
  exact hinv.noStall

end NovaVe
