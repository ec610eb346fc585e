import NovaVe.QemuNics

namespace NovaVe

/-- Nothing that does not fail ends so. -/
def Unanswered (w t : World) : Prop := Moves w t (fun _ _ => False)

theorem Unanswered.moves {w t : World} (h : Unanswered w t) (rel : QemuNics → QemuNics → Prop) :
    Moves w t rel := Moves.mono h (fun _ _ hf => hf.elim)

theorem unanswered_after {w : World} {c : HostCall} (h : ∀ q q', ¬ Answer w q c q') :
    Unanswered w (w.after c) := (moves_after w c).mono (fun q q' ha => h q q' ha)

theorem Moves.unanswered {w t u : World} {rel : QemuNics → QemuNics → Prop} (h : Moves w t rel)
    (h' : Unanswered t u) : Unanswered w u := h.trans h' (fun _ _ _ _ hf => hf)

theorem update_eq_self {α : Type} [DecidableEq α] {f : α → Bool} {a : α} (h : f a = false) :
    Function.update f a false = f := by
  rw [← h]
  exact Function.update_eq_self a f

/-- A query of the device: it is as the guest has it, and does not raise. -/
theorem qemuDeviceGone_moves (nodeId : Int) (w : World) :
    Ends (qemuDeviceGone nodeId) w
      (fun gone t => Moves w t (fun q q' => PolledAnswer q nodeId (!gone) q'))
      (fun _ t => Unanswered w t) := by
  unfold qemuDeviceGone
  rw [ends_bind]
  refine (moves_call (.queryPci nodeId) w).mono ?_ ?_
  · rintro reply t ⟨hreply, _, rfl⟩
    have hmoves := moves_after w (.queryPci nodeId)
    by_cases herror : reply.qmpError = true
    · rw [if_pos herror]
      refine unanswered_after ?_
      rintro q q' ⟨_, hnone, _⟩
      rw [← hreply, herror] at hnone
      cases hnone
    · rw [if_neg herror]
      refine hmoves.mono ?_
      rintro q q' ⟨_, _, hpolled⟩
      rw [← hreply] at hpolled
      rw [Bool.not_not]
      exact hpolled
  · rintro e t ⟨hraised, rfl⟩
    refine unanswered_after ?_
    rintro q q' ⟨hnone, _⟩
    rw [hraised] at hnone
    cases hnone

/-- The poll for a device to go ends when the guest lets it go in time. -/
theorem pollDevice_gone (nodeId : Int) (polls : Nat) (w : World) :
    Ends (pollDevice nodeId true polls) w
      (fun gone t => Moves w t (fun q q' => ∀ i k, q.pending nodeId = some (i, k) → k < polls →
        gone = true ∧ q'.devices (nodeId, i) = false))
      (fun _ t => Unanswered w t) := by
  induction polls generalizing w with
  | zero =>
    refine (Moves.refl w).mono ?_
    intro q q' _ i k _ hlt
    omega
  | succ polls ih =>
    unfold pollDevice
    rw [ends_bind]
    refine (qemuDeviceGone_moves nodeId w).mono ?_ (fun _ _ h => h)
    intro gone t hmoves
    cases gone with
    | true =>
      rw [if_pos rfl]
      refine hmoves.mono ?_
      intro q q' hpolled i k hpending _
      unfold PolledAnswer at hpolled
      rw [hpending] at hpolled
      cases k with
      | zero =>
        obtain ⟨_, rfl⟩ := hpolled
        exact ⟨rfl, Function.update_self _ _ _⟩
      | succ k => cases hpolled.1
    | false =>
      rw [if_neg (by decide)]
      refine (ih t).mono ?_ (fun _ _ h => hmoves.unanswered h)
      intro gone u hrest
      refine hmoves.trans hrest ?_
      intro q between q' hpolled hlater i k hpending hlt
      unfold PolledAnswer at hpolled
      rw [hpending] at hpolled
      cases k with
      | zero => cases hpolled.1
      | succ k =>
        obtain ⟨_, rfl⟩ := hpolled
        exact hlater i k (Function.update_self _ _ _) (by omega)

/-- The poll for a device to appear finds none where there is none. -/
theorem pollDevice_absent (nodeId : Int) (polls : Nat) (w : World) :
    Ends (pollDevice nodeId false polls) w
      (fun _ t => Moves w t (fun q q' => ∀ i, q.pending nodeId = some (i, 0) →
        q.devices (nodeId, i) = false → q' = q))
      (fun _ t => Unanswered w t) := by
  induction polls generalizing w with
  | zero =>
    refine (Moves.refl w).mono ?_
    intro q q' hsame i _ _
    exact hsame
  | succ polls ih =>
    unfold pollDevice
    rw [ends_bind]
    refine (qemuDeviceGone_moves nodeId w).mono ?_ (fun _ _ h => h)
    intro gone t hmoves
    have hsame : ∀ q q', PolledAnswer q nodeId (!gone) q' → ∀ i, q.pending nodeId = some (i, 0) →
        q.devices (nodeId, i) = false → q' = q := by
      intro q q' hpolled i hpending habsent
      unfold PolledAnswer at hpolled
      rw [hpending] at hpolled
      rw [hpolled.2, update_eq_self habsent]
    cases gone with
    | false =>
      rw [if_pos rfl]
      exact hmoves.mono hsame
    | true =>
      rw [if_neg (by decide)]
      refine (ih t).mono ?_ (fun _ _ h => hmoves.unanswered h)
      intro gone u hrest
      refine hmoves.trans hrest ?_
      intro q between q' hpolled hlater i hpending habsent
      have heq := hsame q between hpolled i hpending habsent
      subst heq
      exact hlater i hpending habsent

theorem unanswered_raised {w : World} {c : HostCall} {e : Exc}
    (hraised : (w.replies.headD {}).raised = some e)
    (h : ∀ q q', Answer w q c q' → (w.replies.headD {}).raised = none) : Unanswered w (w.after c) := by
  refine unanswered_after ?_
  intro q q' hanswer
  have hnone := h q q' hanswer
  rw [hraised] at hnone
  cases hnone

theorem deviceDel_raised {w : World} {nodeId i : Int} (q q' : QemuNics)
    (h : Answer w q (.deviceDel nodeId i) q') : (w.replies.headD {}).raised = none := h.1

/-- What a first `device_del` that is refused leaves of the device when nothing fails. -/
theorem deviceDel_refused {w : World} {nodeId i : Int} {q q' : QemuNics}
    (h : Answer w q (.deviceDel nodeId i) q') (herror : (w.replies.headD {}).qmpError = true) :
    (w.replies.headD {}).deviceNotFound = true ∧ q.devices (nodeId, i) = false ∧
      q'.devices (nodeId, i) = false ∧ q'.pending nodeId = some (i, 0) := by
  rcases h.2 with ⟨_, hnone, _⟩ | ⟨habsent, _, hnotFound, rfl⟩
  · rw [herror] at hnone
    cases hnone
  · exact ⟨hnotFound, habsent, habsent, Function.update_self _ _ _⟩

theorem deviceDel_accepted {w : World} {nodeId i : Int} {q q' : QemuNics}
    (h : Answer w q (.deviceDel nodeId i) q') (herror : (w.replies.headD {}).qmpError = false) :
    ∃ k < 16, q'.pending nodeId = some (i, k) := by
  rcases h.2 with ⟨_, _, k, hk, rfl⟩ | ⟨_, hsome, _⟩
  · exact ⟨k, hk, Function.update_self _ _ _⟩
  · rw [herror] at hsome
    cases hsome

/-- After the first step the device is gone, or its guest has been told. -/
theorem deviceDelStep_moves (nodeId i : Int) (w : World) :
    Ends (deviceDelStep nodeId i) w
      (fun gone t => Moves w t (fun _ q' =>
        (gone = true ∧ q'.devices (nodeId, i) = false) ∨
          (gone = false ∧ ∃ k < 16, q'.pending nodeId = some (i, k))))
      (fun _ t => Unanswered w t) := by
  unfold deviceDelStep
  rw [ends_bind]
  refine (moves_call (.deviceDel nodeId i) w).mono ?_
    (fun e t ht => ht.2 ▸ unanswered_raised ht.1 deviceDel_raised)
  rintro reply t ⟨hreply, _, rfl⟩
  have hfirst := moves_after w (.deviceDel nodeId i)
  by_cases herror : reply.qmpError = true
  · rw [if_neg (by rw [herror]; decide)]
    rw [hreply] at herror
    by_cases hnotFound : reply.deviceNotFound = true
    · rw [if_neg (by rw [hnotFound]; decide), ends_bind]
      refine (pollDevice_absent nodeId 20 _).mono ?_ (fun _ _ h => hfirst.unanswered h)
      intro gone u hpolled
      -- The device is still absent when it is asked for again.
      have hagain : Moves w u (fun _ q' => q'.devices (nodeId, i) = false) := by
        refine hfirst.trans hpolled ?_
        intro q between q' hanswer hsame
        obtain ⟨_, _, habsent, hpending⟩ := deviceDel_refused hanswer herror
        rw [hsame i hpending habsent]
        exact habsent
      rw [ends_bind]
      refine (moves_call (.deviceDel nodeId i) u).mono ?_ ?_
      · rintro retry v ⟨hretry, _, rfl⟩
        have hsecond := moves_after u (.deviceDel nodeId i)
        by_cases hretryError : retry.qmpError = true
        · rw [if_neg (by rw [hretryError]; decide)]
          rw [hretry] at hretryError
          by_cases hretryGone : retry.deviceNotFound = true
          · rw [if_pos hretryGone]
            refine hagain.trans hsecond ?_
            intro q between q' _ hanswer
            exact Or.inl ⟨rfl, (deviceDel_refused hanswer hretryError).2.2.1⟩
          · rw [if_neg hretryGone]
            refine hagain.trans hsecond ?_
            intro q between q' _ hanswer
            apply hretryGone
            rw [hretry]
            exact (deviceDel_refused hanswer hretryError).1
        · rw [if_pos (by simpa using hretryError)]
          have haccepted : (u.replies.headD {}).qmpError = false := by
            rw [← hretry]
            simpa using hretryError
          refine hagain.trans hsecond ?_
          intro q between q' _ hanswer
          exact Or.inr ⟨rfl, deviceDel_accepted hanswer haccepted⟩
      · rintro e v ⟨hraised, rfl⟩
        exact hagain.unanswered (unanswered_raised hraised deviceDel_raised)
    · rw [if_pos (by simpa using hnotFound)]
      refine hfirst.mono ?_
      intro q q' hanswer
      apply hnotFound
      rw [hreply]
      exact (deviceDel_refused hanswer herror).1
  · rw [if_pos (by simpa using herror)]
    have haccepted : (w.replies.headD {}).qmpError = false := by
      rw [← hreply]
      simpa using herror
    refine hfirst.mono ?_
    intro q q' hanswer
    exact Or.inr ⟨rfl, deviceDel_accepted hanswer haccepted⟩

/-- A port that is deleted, or was gone already, is gone. -/
theorem portGone_moves {c : HostCall} {port : Port} (hc : c = .tapDel port ∨ c = .linkDel port)
    (w : World) :
    Ends (tryCatch (run c) (fun e => if e = .hostNetEinval then pure () else throw e)) w
      (fun _ t => Moves w t (fun q q' => q' = q ∧ t.host.ports.get? port = none))
      (fun _ t => Unanswered w t) := by
  have hanswer : ∀ q q', Answer w q c q' → q' = q ∧
      (((w.host.ports.get? port).isSome ∧ (w.replies.headD {}).raised = none ∧
          (w.replies.headD {}).applied = true) ∨
        (w.host.ports.get? port = none ∧ (w.replies.headD {}).raised = some .hostNetEinval)) := by
    intro q q' h
    rcases hc with rfl | rfl
    · exact h
    · exact h
  have hpop : c.effect w.host = { w.host with ports := w.host.ports.pop port } := by
    rcases hc with rfl | rfl
    · rfl
    · rfl
  have hgone : ∀ q q', Answer w q c q' → q' = q ∧ (w.after c).host.ports.get? port = none := by
    intro q q' h
    obtain ⟨hsame, ⟨_, _, happlied⟩ | ⟨hnone, _⟩⟩ := hanswer q q' h
    · refine ⟨hsame, ?_⟩
      unfold World.after
      dsimp only
      rw [if_pos happlied, hpop, Dict.get?_pop, if_pos rfl]
    · refine ⟨hsame, ?_⟩
      unfold World.after
      dsimp only
      split
      next => rw [hpop, Dict.get?_pop, if_pos rfl]
      next => exact hnone
  rw [ends_tryCatch]
  refine (moves_run c w).mono ?_ ?_
  · rintro _ t ⟨_, rfl⟩
    exact (moves_after w c).mono hgone
  · rintro e t ⟨hraised, rfl⟩
    by_cases heinval : e = .hostNetEinval
    · rw [if_pos heinval]
      exact (moves_after w c).mono hgone
    · rw [if_neg heinval]
      refine (moves_after w c).mono ?_
      intro q q' h
      obtain ⟨_, ⟨_, hnone, _⟩ | ⟨_, hsome⟩⟩ := hanswer q q' h
      · rw [hraised] at hnone
        cases hnone
      · rw [hraised] at hsome
        exact heinval (Option.some.inj hsome)

/-- The netdev and the TAP of a NIC are removed. -/
theorem removeNetdev_moves (nodeId i : Int) (tap : Port) (w : World) :
    Ends (removeNetdev nodeId i tap) w
      (fun _ t => Moves w t (fun q q' => q'.netdevs (nodeId, i) = false ∧ q'.devices = q.devices ∧
        t.host.ports.get? tap = none))
      (fun _ t => Unanswered w t) := by
  have hanswer : ∀ q q', Answer w q (.netdevDel nodeId i) q' →
      q'.netdevs (nodeId, i) = false ∧ q'.devices = q.devices ∧
        ((w.replies.headD {}).qmpError = true → (w.replies.headD {}).deviceNotFound = true) := by
    rintro q q' ⟨_, ⟨_, hnone, rfl⟩ | ⟨habsent, _, hnotFound, rfl⟩⟩
    · refine ⟨Function.update_self _ _ _, rfl, fun herror => ?_⟩
      rw [herror] at hnone
      cases hnone
    · exact ⟨habsent, rfl, fun _ => hnotFound⟩
  have hfirst := moves_after w (.netdevDel nodeId i)
  -- The deferred error of the `netdev_del` is raised after the TAP is gone.
  have htap : ∀ (failed : Option Exc) (last : Unit → HostM Unit),
      last () = failed.elim (pure ()) throw →
      Moves w (w.after (.netdevDel nodeId i)) (fun q q' => failed = none ∧
        q'.netdevs (nodeId, i) = false ∧ q'.devices = q.devices) →
      Ends (tryCatch (run (.tapDel tap))
        (fun e => if e = .hostNetEinval then pure () else throw e) >>= last)
        (w.after (.netdevDel nodeId i))
        (fun _ t => Moves w t (fun q q' => q'.netdevs (nodeId, i) = false ∧ q'.devices = q.devices ∧
          t.host.ports.get? tap = none))
        (fun _ t => Unanswered w t) := by
    intro failed last hlast hmoves
    rw [ends_bind]
    refine (portGone_moves (Or.inl rfl) _).mono ?_ (fun _ _ h => hmoves.unanswered h)
    intro _ t hdown
    have hboth : Moves w t (fun q q' => failed = none ∧ q'.netdevs (nodeId, i) = false ∧
        q'.devices = q.devices ∧ t.host.ports.get? tap = none) := by
      refine hmoves.trans hdown ?_
      rintro q between q' ⟨hnone, hnetdev, hdevices⟩ ⟨rfl, hport⟩
      exact ⟨hnone, hnetdev, hdevices, hport⟩
    rw [hlast]
    cases failed with
    | some e =>
      refine hboth.mono ?_
      rintro q q' ⟨hnone, _⟩
      cases hnone
    | none => exact hboth.mono (fun q q' h => h.2)
  unfold removeNetdev
  rw [ends_bind, ends_tryCatch, ends_bind]
  refine (moves_call (.netdevDel nodeId i) w).mono ?_ ?_
  · rintro reply t ⟨hreply, _, rfl⟩
    by_cases herror : reply.qmpError ∧ !reply.deviceNotFound
    · rw [if_pos herror, ends_pure]
      refine htap (some _) _ rfl ?_
      refine hfirst.mono ?_
      intro q q' h
      have hnotFound := (hanswer q q' h).2.2 (hreply ▸ herror.1)
      have hfalse := herror.2
      rw [hreply, hnotFound] at hfalse
      cases hfalse
    · rw [if_neg herror, ends_pure]
      refine htap none _ rfl ?_
      refine hfirst.mono ?_
      intro q q' h
      obtain ⟨hnetdev, hdevices, _⟩ := hanswer q q' h
      exact ⟨rfl, hnetdev, hdevices⟩
  · rintro e t ⟨hraised, rfl⟩
    have hun : Unanswered w (w.after (.netdevDel nodeId i)) :=
      unanswered_raised hraised (fun q q' h => h.1)
    by_cases htimeout : e = .qmpTimeout
    · rw [if_pos htimeout, ends_pure]
      exact htap (some e) _ rfl (hun.moves _)
    · rw [if_neg htimeout]
      exact hun

/-- A hot-remove on which nothing fails leaves nothing of the NIC. -/
theorem hotRemoveNic_moves (nodeId i : Int) (tap : Port) (w : World) :
    Ends (hotRemoveNic nodeId i tap) w
      (fun forced t => Moves w t (fun _ q' => forced = false ∧ q'.devices (nodeId, i) = false ∧
        q'.netdevs (nodeId, i) = false ∧ t.host.ports.get? tap = none))
      (fun _ t => Unanswered w t) := by
  unfold hotRemoveNic
  rw [ends_bind]
  refine (deviceDelStep_moves nodeId i w).mono ?_ (fun _ _ h => h)
  intro alreadyGone t hstep
  have hpolled : Ends (if alreadyGone then pure true else pollDevice nodeId true 16 : HostM Bool) t
      (fun gone u => Moves w u (fun _ q' => gone = true ∧ q'.devices (nodeId, i) = false))
      (fun _ u => Unanswered w u) := by
    cases alreadyGone with
    | true =>
      rw [if_pos rfl]
      refine hstep.mono ?_
      rintro q q' (⟨_, habsent⟩ | ⟨hfalse, _⟩)
      · exact ⟨rfl, habsent⟩
      · cases hfalse
    | false =>
      rw [if_neg (by decide)]
      refine (pollDevice_gone nodeId 16 t).mono ?_ (fun _ _ h => hstep.unanswered h)
      intro gone u hpoll
      refine hstep.trans hpoll ?_
      rintro q between q' (⟨htrue, _⟩ | ⟨_, k, hk, hpending⟩) hgone
      · cases htrue
      · exact hgone i k hpending hk
  rw [ends_bind]
  refine hpolled.mono ?_ (fun _ _ h => h)
  intro gone u hgone
  cases gone with
  | true =>
    rw [if_pos rfl, ends_bind]
    refine (removeNetdev_moves nodeId i tap u).mono ?_ (fun _ _ h => hgone.unanswered h)
    intro _ v hremoved
    refine hgone.trans hremoved ?_
    rintro q between q' ⟨_, habsent⟩ ⟨hnetdev, hdevices, hport⟩
    rw [← hdevices] at habsent
    exact ⟨rfl, habsent, hnetdev, hport⟩
  | false =>
    rw [if_neg (by decide), ends_bind]
    have hnever : Unanswered w u := hgone.mono (fun q q' h => by cases h.1)
    refine (moves_run (.linkNomaster tap) u).mono ?_ ?_
    · rintro _ v ⟨_, rfl⟩
      have hafter : Unanswered w (u.after (.linkNomaster tap)) :=
        Moves.trans hnever (moves_after u (.linkNomaster tap)) (fun _ _ _ hf _ => hf)
      exact (hafter.moves _).aside rfl rfl rfl
    · rintro e v ⟨_, rfl⟩
      exact Moves.trans hnever (moves_after u (.linkNomaster tap)) (fun _ _ _ hf _ => hf)

end NovaVe
