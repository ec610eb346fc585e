import NovaVe.DeletionDetach

namespace NovaVe

/-- A detach makes no port and no NIC, whatever the host and QEMU answer. -/
theorem frames_detachInterface_sheds (mine : Port → Prop) (kind : RuntimeKind) (nodeId i : Int)
    (expectedGeneration : Option Int) :
    Frames (Shedding mine) (detachInterface kind nodeId i expectedGeneration) := by
  have h := workings_shedding mine
  intro w
  unfold detachInterface
  split
  next =>
    exact (detachDockerInterface_spec h expectedGeneration (fun _ _ _ _ _ => trivial)).mono
      (fun _ _ ht => ht.1) (fun _ _ ht => ht.1)
  next =>
    refine (detachQemuInterface_spec h expectedGeneration trivial (fun r entry _ _ _ => ?_)).mono
      (fun _ _ ht => ht.1) (fun _ _ ht => ht.1)
    exact frames_detachNic h.toCommands.sameRuntimes
      (fun _ => ⟨⟨trivial, trivial, trivial⟩, trivial⟩) trivial trivial

theorem Unanswered.later {mine : Port → Prop} {w t u : World} (h : Unanswered w t)
    (h' : Shedding mine t u) : Unanswered w u := Moves.trans h h'.nics (fun _ _ _ hf _ => hf)

/-- Nothing is left of any attachment of the link. -/
def AllFreed (expectedGeneration : Option Int) (w : World) (keys : List (Int × Int)) (host : Host)
    (q : QemuNics) : Prop :=
  ∀ key ∈ keys, ∀ r entry, Running expectedGeneration w key r entry → Freed r.kind entry key host q

/-- The detach of an endpoint, in all that it does. -/
theorem detachInterface_spec {expectedGeneration : Option Int} {w : World} {key : Int × Int}
    {r : NodeRuntime} {entry : Attachment} (h : Running expectedGeneration w key r entry)
    (mine : Port → Prop) :
    Ends (detachInterface r.kind key.1 key.2 expectedGeneration) w
      (fun _ t => Shedding mine w t ∧ Moves w t (fun _ q' => Freed r.kind entry key t.host q') ∧
        ∃ r', r.Dropped r' key.2 ∧ t.runtimes = w.runtimes.set key.1 r')
      (fun _ t => Shedding mine w t ∧ Unanswered w t ∧ t.runtimes = w.runtimes) :=
  (frames_detachInterface_sheds mine _ _ _ _ w).and
    ((detachInterface_moves h).and (detachInterface_dropped h))

/-- Each of the endpoints is attached on a running node. -/
def AllRunning (expectedGeneration : Option Int) (w : World) (keys : List (Int × Int)) : Prop :=
  ∀ key ∈ keys, ∃ r entry, Running expectedGeneration w key r entry

theorem AllRunning.same {expectedGeneration : Option Int} {w t : World} {keys : List (Int × Int)}
    (h : AllRunning expectedGeneration w keys) (hsame : t.runtimes = w.runtimes) :
    AllRunning expectedGeneration t keys := by
  intro key hkey
  obtain ⟨r, entry, hrunning⟩ := h key hkey
  exact ⟨r, entry, running_same hrunning hsame⟩

/-- The detach of one endpoint leaves the others as they are. -/
theorem AllRunning.dropped {expectedGeneration : Option Int} {w t : World} {keys : List (Int × Int)}
    {key : Int × Int} {r r' : NodeRuntime} (h : AllRunning expectedGeneration w keys)
    (hnot : key ∉ keys) (hget : w.runtimes.get? key.1 = some r) (hr' : r.Dropped r' key.2)
    (hset : t.runtimes = w.runtimes.set key.1 r') : AllRunning expectedGeneration t keys := by
  intro other hother
  obtain ⟨s, entry, hs⟩ := h other hother
  have hne : other ≠ key := fun heq => hnot (heq ▸ hother)
  obtain ⟨s', hs', _⟩ := running_dropped hget hr' hset hne hs
  exact ⟨s', entry, hs'⟩

/-- The detach phase on which nothing fails frees every endpoint. -/
theorem detachEndpoints_moves {expectedGeneration : Option Int} (mine : Port → Prop)
    {keys : List (Int × Int)} (hkeys : keys.Nodup) {w : World}
    (hmine : ∀ key ∈ keys, ∀ kind, mine (ownPort kind key.1 key.2))
    (h : ∀ key ∈ keys, ∃ r entry, Running expectedGeneration w key r entry)
    (primaryError : Option Exc) :
    Ends (detachEndpoints expectedGeneration primaryError keys) w
      (fun _ t => Shedding mine w t ∧
        Moves w t (fun _ q' => AllFreed expectedGeneration w keys t.host q'))
      (fun _ t => Shedding mine w t ∧ (primaryError = none → Unanswered w t)) := by
  have hcomp := composes_shedding mine
  induction keys generalizing w primaryError with
  | nil =>
    unfold detachEndpoints
    cases primaryError with
    | some e => exact ⟨hcomp.refl w, fun hnone => by cases hnone⟩
    | none =>
      refine ⟨hcomp.refl w, (Moves.refl w).mono ?_⟩
      intro q q' _ key hkey
      cases hkey
  | cons key rest ih =>
    obtain ⟨hnot, hrest⟩ := List.nodup_cons.mp hkeys
    have ihrest := fun {u : World} => @ih hrest u
      (fun other hother => hmine other (List.mem_cons_of_mem key hother))
    obtain ⟨r, entry, hrunning⟩ := h key List.mem_cons_self
    have hlater : AllRunning expectedGeneration w rest :=
      fun other hother => h other (List.mem_cons_of_mem key hother)
    rw [ends_detachEndpoints_cons hrunning.toAttached]
    refine (lowerCarrier_spec hrunning.toAttached mine).mono ?_ ?_
    · intro _ t ht
      obtain ⟨hsame, hlowered⟩ := ht
      have hthere := running_same hrunning hsame
      refine (detachInterface_spec hthere mine).mono ?_ ?_
      · intro _ u hu
        obtain ⟨hshed, hfreed, r', hr', hset⟩ := hu
        have hothers : ∀ other ∈ rest, ∀ s e, Running expectedGeneration w other s e →
            ∃ s', Running expectedGeneration u other s' e ∧ s'.kind = s.kind := by
          intro other hother s e hs
          have hne : other ≠ key := fun heq => hnot (heq ▸ hother)
          exact running_dropped hthere.record hr' hset hne (running_same hs hsame)
        refine (ihrest ((hlater.same hsame).dropped hnot hthere.record hr' hset) primaryError).mono ?_ ?_
        · intro _ v hv
          refine ⟨hcomp.trans _ _ _ (hcomp.trans _ _ _ hlowered hshed) hv.1, ?_⟩
          have hfirst : Moves w u (fun _ q' => Freed r.kind entry key u.host q') :=
            hlowered.nics.trans hfreed (fun _ _ _ _ hq => hq)
          refine hfirst.trans (hv.2.and hv.1.nics) ?_
          intro q between q' hkey hmoved other hother s e hs
          rcases List.mem_cons.mp hother with heq | hother
          · subst heq
            have hr : r = s := Option.some.inj (hrunning.record.symm.trans hs.record)
            subst hr
            have he : entry = e := Option.some.inj (hrunning.attached.symm.trans hs.attached)
            subst he
            exact hkey.later (hmine other List.mem_cons_self r.kind) hv.1.host hmoved.2
          · obtain ⟨s', hs', hkind⟩ := hothers other hother s e hs
            rw [← hkind]
            exact hmoved.1 other hother s' e hs'
        · intro _ v hv
          refine ⟨hcomp.trans _ _ _ (hcomp.trans _ _ _ hlowered hshed) hv.1, fun hnone => ?_⟩
          exact (hcomp.trans _ _ _ hlowered hshed).nics.unanswered (hv.2 hnone)
      · intro e u hu
        obtain ⟨hshed, hnever, hsame'⟩ := hu
        have hreached := hcomp.trans _ _ _ hlowered hshed
        have hun : Unanswered w u := hlowered.nics.unanswered hnever
        split
        next =>
          refine (ihrest (hlater.same (hsame'.trans hsame)) (primaryError <|> some e)).mono ?_ ?_
          · intro _ v hv
            exact ⟨hcomp.trans _ _ _ hreached hv.1, (hun.later hv.1).moves _⟩
          · intro _ v hv
            exact ⟨hcomp.trans _ _ _ hreached hv.1, fun _ => hun.later hv.1⟩
        next => exact ⟨hreached, fun _ => hun⟩
    · intro _ t ht
      exact ⟨ht.2.1, fun _ => ht.2.2⟩

/-- No endpoint is detached: the detach of each one that is tried raises. -/
def NoneDetached (expectedGeneration : Option Int) : List (Int × Int) → World → Prop
  | [], _ => True
  | key :: rest, w =>
    let kind := ((w.runtimes.get? key.1).map NodeRuntime.kind).getD .other
    Ends (lowerCarrier kind key) w
      (fun _ t => Ends (detachInterface kind key.1 key.2 expectedGeneration) t (fun _ _ => False)
        (fun e u => (e.isRuntime || e.isHostNet) = true → NoneDetached expectedGeneration rest u))
      (fun _ _ => True)

theorem noneDetached_cons {expectedGeneration : Option Int} {w : World} {key : Int × Int}
    {r : NodeRuntime} {entry : Attachment} (h : Running expectedGeneration w key r entry)
    (rest : List (Int × Int)) :
    NoneDetached expectedGeneration (key :: rest) w ↔
      Ends (lowerCarrier r.kind key) w
        (fun _ t => Ends (detachInterface r.kind key.1 key.2 expectedGeneration) t (fun _ _ => False)
          (fun e u => (e.isRuntime || e.isHostNet) = true → NoneDetached expectedGeneration rest u))
        (fun _ _ => True) := by
  rw [NoneDetached, h.record, Option.map_some, Option.getD_some]

/-- When no endpoint is detached the phase raises, and the registry is as it was. -/
theorem detachEndpoints_noneDetached {expectedGeneration : Option Int} {keys : List (Int × Int)}
    {w : World} (h : ∀ key ∈ keys, ∃ r entry, Running expectedGeneration w key r entry)
    (hnone : NoneDetached expectedGeneration keys w) {primaryError : Option Exc}
    (hsome : keys ≠ [] ∨ primaryError ≠ none) :
    Ends (detachEndpoints expectedGeneration primaryError keys) w (fun _ _ => False)
      (fun _ t => t.runtimes = w.runtimes) := by
  induction keys generalizing w primaryError with
  | nil =>
    unfold detachEndpoints
    cases primaryError with
    | some e => rfl
    | none =>
      rcases hsome with hne | hne
      · exact hne rfl
      · exact hne rfl
  | cons key rest ih =>
    obtain ⟨r, entry, hrunning⟩ := h key List.mem_cons_self
    rw [noneDetached_cons hrunning] at hnone
    rw [ends_detachEndpoints_cons hrunning.toAttached]
    refine (hnone.and (lowerCarrier_spec hrunning.toAttached (fun _ => True))).mono ?_ (fun _ t ht => ht.2.1)
    intro _ t ht
    obtain ⟨hraises, hsame, _⟩ := ht
    have hthere := running_same hrunning hsame
    refine (hraises.and (detachInterface_dropped hthere)).mono (fun _ _ hu => hu.1.elim) ?_
    intro e u hu
    obtain ⟨hlater, hsame'⟩ := hu
    split
    next htyped =>
      have hothers : ∀ other ∈ rest, ∃ s e, Running expectedGeneration u other s e := by
        intro other hother
        obtain ⟨s, e, hs⟩ := h other (List.mem_cons_of_mem key hother)
        exact ⟨s, e, running_same hs (hsame'.trans hsame)⟩
      have hkept : (primaryError <|> some e) ≠ none := by
        cases primaryError with
        | none => simp
        | some first => simp
      refine (ih hothers (hlater htyped) (Or.inr hkept)).mono (fun _ _ hf => hf) ?_
      intro _ v hv
      exact hv.trans (hsame'.trans hsame)
    next => exact hsame'.trans hsame

/-- What the registry has no entry for it has none for later. -/
def World.Fewer (w t : World) : Prop := ∀ n i, w.entryAt n i = none → t.entryAt n i = none

theorem fewer_same {w t : World} (h : t.runtimes = w.runtimes) : w.Fewer t := by
  intro n i hnone
  unfold World.entryAt at hnone ⊢
  rw [h]
  exact hnone

theorem World.Fewer.trans {w t u : World} (h : w.Fewer t) (h' : t.Fewer u) : w.Fewer u :=
  fun n i hnone => h' n i (h n i hnone)

/-- The phase goes through with every endpoint detached, or it raises with one of them detached,
unless none is. -/
theorem detachEndpoints_detached {expectedGeneration : Option Int} {keys : List (Int × Int)}
    (hkeys : keys.Nodup) {w : World}
    (h : ∀ key ∈ keys, ∃ r entry, Running expectedGeneration w key r entry)
    (primaryError : Option Exc) :
    Ends (detachEndpoints expectedGeneration primaryError keys) w
      (fun _ t => w.Fewer t ∧ primaryError = none ∧ ∀ key ∈ keys, t.entryAt key.1 key.2 = none)
      (fun _ t => w.Fewer t ∧ (NoneDetached expectedGeneration keys w ∨
        ∃ key ∈ keys, t.entryAt key.1 key.2 = none)) := by
  induction keys generalizing w primaryError with
  | nil =>
    unfold detachEndpoints
    cases primaryError with
    | some e => exact ⟨fewer_same rfl, Or.inl trivial⟩
    | none =>
      refine ⟨fewer_same rfl, rfl, ?_⟩
      intro key hkey
      cases hkey
  | cons key rest ih =>
    obtain ⟨hnot, hrest⟩ := List.nodup_cons.mp hkeys
    obtain ⟨r, entry, hrunning⟩ := h key List.mem_cons_self
    have hrunnings : AllRunning expectedGeneration w rest :=
      fun other hother => h other (List.mem_cons_of_mem key hother)
    by_cases hnone : NoneDetached expectedGeneration (key :: rest) w
    · have hne : (key :: rest) ≠ [] ∨ primaryError ≠ none := Or.inl (List.cons_ne_nil _ _)
      refine (detachEndpoints_noneDetached h hnone hne).mono (fun _ _ hf => hf.elim) ?_
      intro _ t ht
      exact ⟨fewer_same ht, Or.inl hnone⟩
    · have hsome := hnone
      rw [noneDetached_cons hrunning] at hsome
      rw [ends_detachEndpoints_cons hrunning.toAttached]
      refine ((not_ends hsome).and (lowerCarrier_spec hrunning.toAttached (fun _ => True))).mono ?_
        (fun _ _ ht => (ht.1 trivial).elim)
      intro _ t ht
      obtain ⟨hgoes, hsame, _⟩ := ht
      have hthere := running_same hrunning hsame
      refine ((not_ends hgoes).and (detachInterface_dropped hthere)).mono ?_ ?_
      · intro _ u hu
        obtain ⟨_, r', hr', hset⟩ := hu
        obtain ⟨hgone, hfewer⟩ := entryAt_dropped hthere.record hthere.distinct hr' hset
        have hothers := (hrunnings.same hsame).dropped hnot hthere.record hr' hset
        have hreached : w.Fewer u := (fewer_same hsame).trans hfewer
        refine (ih hrest hothers primaryError).mono ?_ ?_
        · intro _ v hv
          obtain ⟨hlater, hno, hall⟩ := hv
          refine ⟨hreached.trans hlater, hno, ?_⟩
          intro other hother
          rcases List.mem_cons.mp hother with heq | hother
          · rw [heq]
            exact hlater _ _ hgone
          · exact hall other hother
        · intro _ v hv
          exact ⟨hreached.trans hv.1, Or.inr ⟨key, List.mem_cons_self, hv.1 _ _ hgone⟩⟩
      · intro e u hu
        obtain ⟨hlater, hsame'⟩ := hu
        have htyped : (e.isRuntime || e.isHostNet) = true := by
          by_contra hfalse
          exact hlater (fun htrue => absurd htrue hfalse)
        have hstill : ¬ NoneDetached expectedGeneration rest u :=
          fun hstill => hlater (fun _ => hstill)
        have hreached : w.Fewer u := fewer_same (hsame'.trans hsame)
        have hothers := hrunnings.same (hsame'.trans hsame)
        rw [if_pos htyped]
        refine (ih hrest hothers (primaryError <|> some e)).mono ?_ ?_
        · intro _ v hv
          have hno := hv.2.1
          cases primaryError with
          | none => cases hno
          | some first => cases hno
        · intro _ v hv
          obtain ⟨hfewer, hstill' | ⟨other, hother, hgone⟩⟩ := hv
          · exact absurd hstill' hstill
          · exact ⟨hreached.trans hfewer, Or.inr ⟨other, List.mem_cons_of_mem key hother, hgone⟩⟩

/-- Each of the endpoints has its entry on a running node, of whatever generation. -/
def AllAttached (w : World) (keys : List (Int × Int)) : Prop :=
  ∀ key ∈ keys, ∃ r entry, Attached w key r entry

theorem AllAttached.same {w t : World} {keys : List (Int × Int)} (h : AllAttached w keys)
    (hsame : t.runtimes = w.runtimes) : AllAttached t keys := by
  intro key hkey
  obtain ⟨r, entry, hattached⟩ := h key hkey
  exact ⟨r, entry, attached_same hattached hsame⟩

theorem AllAttached.dropped {w t : World} {keys : List (Int × Int)} {key : Int × Int}
    {r r' : NodeRuntime} (h : AllAttached w keys) (hnot : key ∉ keys)
    (hget : w.runtimes.get? key.1 = some r) (hr' : r.Dropped r' key.2)
    (hset : t.runtimes = w.runtimes.set key.1 r') : AllAttached t keys := by
  intro other hother
  obtain ⟨s, entry, hs⟩ := h other hother
  obtain ⟨s', hs', _⟩ := attached_dropped hget hr' hset (fun heq => hnot (heq ▸ hother)) hs
  exact ⟨s', entry, hs'⟩

/-- The registry is as it was, or an endpoint is detached. -/
def SameOrDetached (w t : World) (keys : List (Int × Int)) : Prop :=
  t.runtimes = w.runtimes ∨ (w.Fewer t ∧ ∃ key ∈ keys, t.entryAt key.1 key.2 = none)

theorem detachEndpoints_attached {expectedGeneration : Option Int} {keys : List (Int × Int)}
    (hkeys : keys.Nodup) {w : World} (h : AllAttached w keys) (primaryError : Option Exc) :
    Ends (detachEndpoints expectedGeneration primaryError keys) w
      (fun _ t => SameOrDetached w t keys) (fun _ t => SameOrDetached w t keys) := by
  induction keys generalizing w primaryError with
  | nil =>
    unfold detachEndpoints
    cases primaryError with
    | some e => exact Or.inl rfl
    | none => exact Or.inl rfl
  | cons key rest ih =>
    obtain ⟨hnot, hrest⟩ := List.nodup_cons.mp hkeys
    obtain ⟨r, entry, hkey⟩ := h key List.mem_cons_self
    have hothers : AllAttached w rest :=
      fun other hother => h other (List.mem_cons_of_mem key hother)
    have hgrow : ∀ {u v : World}, u.runtimes = w.runtimes → SameOrDetached u v rest →
        SameOrDetached w v (key :: rest) := by
      intro u v hsame hv
      rcases hv with hv | ⟨hfewer, other, hother, hgone⟩
      · exact Or.inl (hv.trans hsame)
      · exact Or.inr ⟨(fewer_same hsame).trans hfewer, other, List.mem_cons_of_mem key hother, hgone⟩
    rw [ends_detachEndpoints_cons hkey]
    refine (lowerCarrier_spec hkey (fun _ => True)).mono ?_ (fun _ t ht => Or.inl ht.1)
    intro _ t ht
    obtain ⟨hsame, _⟩ := ht
    have hthere := attached_same hkey hsame
    refine (detachInterface_outcome hthere).mono ?_ ?_
    · rintro _ u (⟨_, hsame'⟩ | ⟨_, r', hr', hset⟩)
      · have hback := hsame'.trans hsame
        exact (ih hrest (hothers.same hback) primaryError).mono (fun _ _ hv => hgrow hback hv)
          (fun _ _ hv => hgrow hback hv)
      · obtain ⟨hgone, hfewer⟩ := entryAt_dropped hthere.record hthere.distinct hr' hset
        have hreached : w.Fewer u := (fewer_same hsame).trans hfewer
        have hafter : ∀ {v : World}, SameOrDetached u v rest →
            SameOrDetached w v (key :: rest) := by
          intro v hv
          have hlater : u.Fewer v := by
            rcases hv with hv | ⟨hv, _⟩
            · exact fewer_same hv
            · exact hv
          exact Or.inr ⟨hreached.trans hlater, key, List.mem_cons_self, hlater _ _ hgone⟩
        exact (ih hrest ((hothers.same hsame).dropped hnot hthere.record hr' hset) primaryError).mono
          (fun _ _ hv => hafter hv) (fun _ _ hv => hafter hv)
    · intro e u hsame'
      have hback := hsame'.trans hsame
      split
      next =>
        exact (ih hrest (hothers.same hback) (primaryError <|> some e)).mono
          (fun _ _ hv => hgrow hback hv) (fun _ _ hv => hgrow hback hv)
      next => exact Or.inl hback

theorem ends_call_done {w : World} (h : w.replies = []) (command : HostCall)
    (returns : Reply → World → Prop) (raises : Exc → World → Prop) :
    Ends (call command) w returns raises ↔ returns {} (w.after command) := by
  rw [ends_call, h]
  exact Iff.rfl

theorem hotRemoveNic_goes {w : World} (hw : w.replies = []) (nodeId i : Int) (tap : Port) :
    Ends (hotRemoveNic nodeId i tap) w (fun _ t => t.replies = []) (fun _ _ => False) := by
  have hdel := World.after_replies hw (.deviceDel nodeId i)
  have hquery := World.after_replies hdel (.queryPci nodeId)
  have hnetdev := World.after_replies hquery (.netdevDel nodeId i)
  unfold hotRemoveNic deviceDelStep
  rw [ends_bind, ends_bind, ends_call_done hw]
  simp only [Bool.not_false, if_true, ends_pure, Bool.false_eq_true, if_false]
  unfold pollDevice qemuDeviceGone
  rw [ends_bind, ends_bind, ends_bind, ends_call_done hdel]
  simp only [Bool.not_false, Bool.false_eq_true, if_true, if_false, ends_pure]
  unfold removeNetdev
  simp only [ends_bind, ends_tryCatch, ends_call_done hquery, Bool.false_eq_true, false_and, if_false,
    ends_pure, ends_run_done hnetdev]
  exact World.after_replies hnetdev _

/-- Where every command goes through, the detach of an endpoint does not raise. -/
theorem detachInterface_goes {expectedGeneration : Option Int} {w : World} {key : Int × Int}
    {r : NodeRuntime} {entry : Attachment} (h : Attached w key r entry) (hw : w.replies = []) :
    Ends (detachInterface r.kind key.1 key.2 expectedGeneration) w (fun _ t => t.replies = [])
      (fun _ _ => False) := by
  unfold detachInterface
  rcases h.kind with hdocker | ⟨hqemu, hsocket⟩
  · rw [if_pos hdocker]
    unfold detachDockerInterface
    rw [ends_bind, ends_runtimeRecord, h.record]
    simp only [Bool.true_or, if_true]
    rw [h.attached]
    dsimp only
    split
    next => exact hw
    next =>
      simp only [ends_bind, ends_tryCatch, ends_run_done hw, ends_editRuntime, ends_pure]
      exact World.after_replies hw (.linkDel (entry.port.getD (.veth key.1 key.2)))
  · have hmutex := World.after_replies hw (.nodeMutex key.1)
    rw [if_neg (by rw [hqemu]; decide)]
    unfold detachQemuInterface detachQemuInner
    rw [ends_bind, ends_run_done hw, ends_bind, ends_runtimeRecord, World.after_runtimes, h.record]
    simp only [Bool.true_or, if_true]
    rw [if_neg (by rw [hqemu]; decide), h.attached]
    dsimp only
    split
    next => exact hmutex
    next =>
      simp only [hsocket, Bool.not_true, Bool.false_eq_true, if_false]
      rw [ends_bind]
      unfold detachNic
      split
      next =>
        have hlink := World.after_replies hmutex (.setLink key.1 key.2 false)
        simp only [ends_bind, ends_swallow, ends_run_done hmutex, ends_run_done hlink,
          ends_editRuntime, ends_pure]
        exact World.after_replies hlink (.linkNomaster (entry.port.getD (.tap key.1 key.2)))
      next =>
        refine (hotRemoveNic_goes hmutex key.1 key.2 _).mono ?_ (fun _ _ hf => hf)
        intro _ t ht
        rw [ends_bind, ends_editRuntime, ends_pure]
        exact ht

theorem lowerCarrier_goes {w : World} {key : Int × Int} {r : NodeRuntime} {entry : Attachment}
    (h : Attached w key r entry) (hw : w.replies = []) :
    Ends (lowerCarrier r.kind key) w (fun _ t => t.replies = []) (fun _ _ => False) := by
  unfold lowerCarrier
  split
  next =>
    unfold setQemuNicLink
    rw [ends_bind, ends_runtimeRecord, h.record]
    simp only [h.alive, Bool.or_true, if_true]
    split
    next =>
      rw [ends_tryCatch, ends_run_done hw]
      exact World.after_replies hw _
    next => exact hw
  next => exact hw

/-- An endpoint whose entry is of another generation than the link's: no detach of the link takes it,
and being no boot NIC it is nothing to a reconcile. -/
def StaleEndpoint (expectedGeneration : Option Int) (w : World) (key : Int × Int) : Prop :=
  ∃ r entry, Attached w key r entry ∧ staleFor r key.2 expectedGeneration = true ∧
    (r.kind = .qemu → entry.bootNic = false)

theorem StaleEndpoint.same {expectedGeneration : Option Int} {w t : World} {key : Int × Int}
    (h : StaleEndpoint expectedGeneration w key) (hsame : t.runtimes = w.runtimes) :
    StaleEndpoint expectedGeneration t key := by
  obtain ⟨r, entry, hattached, hstale⟩ := h
  exact ⟨r, entry, attached_same hattached hsame, hstale⟩

/-- A detach phase on which nothing fails goes through, and leaves a stale endpoint. -/
theorem detachEndpoints_stale {expectedGeneration : Option Int} {keys : List (Int × Int)}
    (hkeys : keys.Nodup) {w : World} (h : AllAttached w keys) (hw : w.replies = [])
    {stale : Int × Int} (hstale : StaleEndpoint expectedGeneration w stale) :
    Ends (detachEndpoints expectedGeneration none keys) w
      (fun _ t => StaleEndpoint expectedGeneration t stale) (fun _ _ => False) := by
  induction keys generalizing w with
  | nil => exact hstale
  | cons key rest ih =>
    obtain ⟨hnot, hrest⟩ := List.nodup_cons.mp hkeys
    obtain ⟨r, entry, hkey⟩ := h key List.mem_cons_self
    have hothers : AllAttached w rest :=
      fun other hother => h other (List.mem_cons_of_mem key hother)
    rw [ends_detachEndpoints_cons hkey]
    refine ((lowerCarrier_goes hkey hw).and (lowerCarrier_spec hkey (fun _ => True))).mono ?_
      (fun _ _ hf => hf.1)
    intro _ t ht
    obtain ⟨hreplies, hsame, _⟩ := ht
    have hthere := attached_same hkey hsame
    refine ((detachInterface_goes hthere hreplies).and (detachInterface_outcome hthere)).mono ?_
      (fun _ _ hf => hf.1.elim)
    rintro _ u ⟨hreplies', ⟨_, hsame'⟩ | ⟨hfresh, r', hr', hset⟩⟩
    · have hback := hsame'.trans hsame
      exact ih hrest (hothers.same hback) hreplies' (hstale.same hback)
    · refine ih hrest ((hothers.same hsame).dropped hnot hthere.record hr' hset) hreplies' ?_
      obtain ⟨s, e, hs, hgeneration, hhot⟩ := hstale.same hsame
      have hne : stale ≠ key := by
        rintro rfl
        have hr : r = s := Option.some.inj (hthere.record.symm.trans hs.record)
        rw [← hr, hfresh] at hgeneration
        cases hgeneration
      obtain ⟨s', hs', hkind, hsame'⟩ := attached_dropped hthere.record hr' hset hne hs
      exact ⟨s', e, hs', by rw [hsame', hgeneration], by rw [hkind]; exact hhot⟩

end NovaVe
