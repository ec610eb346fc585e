import NovaVe.DeletionSteps
import NovaVe.LinkRecords
import NovaVe.TokenSteps

namespace NovaVe

variable {mine : Port → Prop} {w t : World} {entry : Attachment} {key : Int × Int} {r : NodeRuntime}

/-- No NIC appears in QEMU. -/
structure Sheds (q q' : QemuNics) : Prop where
  devices : ∀ key, q'.devices key = true → q.devices key = true
  netdevs : ∀ key, q'.netdevs key = true → q.netdevs key = true

theorem Sheds.refl (q : QemuNics) : Sheds q q := ⟨fun _ h => h, fun _ h => h⟩

theorem Sheds.trans {q r s : QemuNics} (h : Sheds q r) (h' : Sheds r s) : Sheds q s :=
  ⟨fun key hs => h.devices key (h'.devices key hs), fun key hs => h.netdevs key (h'.netdevs key hs)⟩

/-- A port that is gone stays so, and so does one that is on no bridge. -/
structure Host.Freer (mine : Port → Prop) (host host' : Host) : Prop where
  gone : ∀ port, mine port → host.ports.get? port = none → host'.ports.get? port = none
  loose : ∀ port, mine port → host.Loose port → host'.Loose port

theorem Host.Freer.refl (mine : Port → Prop) (host : Host) : host.Freer mine host :=
  ⟨fun _ _ h => h, fun _ _ h => h⟩

theorem Host.Freer.trans {a b c : Host} (h : a.Freer mine b) (h' : b.Freer mine c) :
    a.Freer mine c :=
  ⟨fun port hm hg => h'.gone port hm (h.gone port hm hg),
    fun port hm hl => h'.loose port hm (h.loose port hm hl)⟩

/-- The commands that neither make one of the ports, nor put it on a bridge, nor add a NIC. -/
def HostCall.harmless (mine : Port → Prop) : HostCall → Prop
  | .tapAdd port | .vethPairAdd port | .linkMaster port _ => ¬ mine port
  | .deviceAdd _ _ _ | .netdevAdd _ _ => False
  | _ => True

/-- Between two worlds nothing of the ports and the NICs appears. -/
structure Shedding (mine : Port → Prop) (w t : World) : Prop where
  host : w.host.Freer mine t.host
  nics : Moves w t Sheds

theorem update_true {α : Type} [DecidableEq α] {f : α → Bool} {a b : α}
    (h : Function.update f a false b = true) : f b = true := by
  by_cases hb : b = a
  · rw [hb, Function.update_self] at h
    cases h
  · rw [Function.update_of_ne hb] at h
    exact h

theorem sheds_of_polled {q q' : QemuNics} {nodeId : Int} {present : Bool}
    (h : PolledAnswer q nodeId present q') : Sheds q q' := by
  unfold PolledAnswer at h
  cases hpending : q.pending nodeId with
  | none =>
    rw [hpending] at h
    rw [show q' = q from h]
    exact Sheds.refl q
  | some pending =>
    obtain ⟨i, k⟩ := pending
    rw [hpending] at h
    cases k with
    | zero =>
      rw [h.2]
      exact ⟨fun key hkey => update_true hkey, fun key hkey => hkey⟩
    | succ k =>
      rw [h.2]
      exact ⟨fun key hkey => hkey, fun key hkey => hkey⟩

theorem sheds_of_answer {w : World} {q q' : QemuNics} {c : HostCall} (hc : c.harmless mine)
    (h : Answer w q c q') : Sheds q q' := by
  have hsame : q' = q → Sheds q q' := by
    intro heq
    rw [heq]
    exact Sheds.refl q
  cases c with
  | deviceDel nodeId i =>
    rcases h.2 with ⟨_, _, k, _, heq⟩ | ⟨_, _, _, heq⟩
    · rw [heq]
      exact ⟨fun _ hkey => hkey, fun _ hkey => hkey⟩
    · rw [heq]
      exact ⟨fun _ hkey => hkey, fun _ hkey => hkey⟩
  | queryPci nodeId => exact sheds_of_polled h.2.2
  | netdevDel nodeId i =>
    rcases h.2 with ⟨_, _, heq⟩ | ⟨_, _, _, heq⟩
    · rw [heq]
      exact ⟨fun _ hkey => hkey, fun _ hkey => update_true hkey⟩
    · exact hsame heq
  | deviceAdd nodeId i slot => exact hc.elim
  | netdevAdd nodeId i => exact hc.elim
  | tapDel port => exact hsame h.1
  | linkDel port => exact hsame h.1
  | _ => exact hsame h.2.2

theorem freer_pop (mine : Port → Prop) (host : Host) (port : Port) :
    host.Freer mine { host with ports := host.ports.pop port } := by
  refine ⟨fun other _ hgone => ?_, fun other _ hloose state hstate => ?_⟩
  · show (host.ports.pop port).get? other = none
    rw [Dict.get?_pop]
    split
    next => rfl
    next => exact hgone
  · have hget : (host.ports.pop port).get? other = some state := hstate
    rw [Dict.get?_pop] at hget
    split at hget
    next => cases hget
    next => exact hloose state hget

/-- An edit of a port that puts it on no bridge. -/
theorem freer_edit (mine : Port → Prop) (host : Host) (port : Port) {f : PortState → PortState}
    (hf : mine port → ∀ state, (f state).master = none ∨ (f state).master = state.master) :
    host.Freer mine (host.editPort port f) := by
  have hget : ∀ other, (host.editPort port f).ports.get? other =
      if port = other then (host.ports.get? other).map f else host.ports.get? other :=
    fun other => Dict.get?_modify _ _ _ _
  refine ⟨fun other _ hgone => ?_, fun other hmine hloose state hstate => ?_⟩
  · rw [hget, hgone]
    split
    next => rfl
    next => rfl
  · rw [hget] at hstate
    split at hstate
    next heq =>
      obtain ⟨old, hold, hnew⟩ := Option.map_eq_some_iff.mp hstate
      rw [← hnew]
      rcases hf (heq ▸ hmine) old with hnone | hsame
      · exact hnone
      · rw [hsame]
        exact hloose old hold
    next => exact hloose state hstate

theorem freer_set (host : Host) {port : Port} (hport : ¬ mine port) (state : PortState) :
    host.Freer mine { host with ports := host.ports.set port state } := by
  have hget : ∀ other, mine other →
      (host.ports.set port state).get? other = host.ports.get? other := by
    intro other hmine
    apply Dict.get?_set_ne
    intro heq
    exact hport (heq ▸ hmine)
  refine ⟨fun other hmine hgone => (hget other hmine).trans hgone, ?_⟩
  intro other hmine hloose old hold
  exact hloose old ((hget other hmine).symm.trans hold)

theorem freer_dropBridge (mine : Port → Prop) (host : Host) (bridge : String) :
    host.Freer mine (host.dropBridge bridge) := by
  have hget : ∀ other, (host.dropBridge bridge).ports.get? other = (host.ports.get? other).map
      (fun state => if state.master = some bridge then { state with master := none } else state) :=
    fun other => Dict.get?_mapValues _ _ _
  refine ⟨fun other _ hgone => ?_, fun other _ hloose state hstate => ?_⟩
  · rw [hget, hgone]
    rfl
  · rw [hget] at hstate
    obtain ⟨old, hold, hnew⟩ := Option.map_eq_some_iff.mp hstate
    have hnone := hloose old hold
    rw [← hnew, hnone, if_neg (by simp)]
    exact hnone

theorem freer_filter (mine : Port → Prop) (host : Host) (p : Port → Bool) :
    host.Freer mine { host with ports := host.ports.filterKeys p } := by
  have hget : ∀ other, (host.ports.filterKeys p).get? other =
      if p other then host.ports.get? other else none := fun other => Dict.get?_filterKeys _ _ _
  refine ⟨fun other _ hgone => ?_, fun other _ hloose state hstate => ?_⟩
  · show (host.ports.filterKeys p).get? other = none
    rw [hget, hgone, ite_self]
  · have hkept : (host.ports.filterKeys p).get? other = some state := hstate
    rw [hget] at hkept
    split at hkept
    next => exact hloose state hkept
    next => cases hkept

theorem freer_effect {c : HostCall} (hc : c.harmless mine) (host : Host) :
    host.Freer mine (c.effect host) := by
  cases c with
  | tapAdd port => exact freer_set host hc {}
  | vethPairAdd port => exact freer_set host hc {}
  | tapDel port => exact freer_pop mine host port
  | linkDel port => exact freer_pop mine host port
  | linkMaster port bridge => exact freer_edit mine host port (fun hmine => (hc hmine).elim)
  | linkNomaster port => exact freer_edit mine host port (fun _ _ => Or.inl rfl)
  | linkUp port => exact freer_edit mine host port (fun _ _ => Or.inr rfl)
  | bridgeDel bridge => exact freer_dropBridge mine host bridge
  | sweepNode nodeId => exact freer_filter mine host _
  | _ => exact ⟨fun _ _ hgone => hgone, fun _ _ hloose => hloose⟩

theorem composes_shedding (mine : Port → Prop) : Composes (Shedding mine) where
  refl := fun w => ⟨Host.Freer.refl mine w.host, (Moves.refl w).mono (fun q q' h => by
    rw [h]
    exact Sheds.refl q)⟩
  trans := fun _ _ _ h h' => ⟨h.host.trans h'.host,
    h.nics.trans h'.nics (fun _ _ _ hq hq' => hq.trans hq')⟩

theorem shedding_after {c : HostCall} (hc : c.harmless mine) (w : World) :
    Shedding mine w (w.after c) := by
  refine ⟨?_, (moves_after w c).mono (fun _ _ h => sheds_of_answer hc h)⟩
  unfold World.after
  dsimp only
  split
  next => exact freer_effect hc w.host
  next => exact Host.Freer.refl mine w.host

theorem Shedding.aside (htrace : t.trace = w.trace) (hreplies : t.replies = w.replies)
    (hhost : t.host = w.host) : Shedding mine w t := by
  have hrefl := (composes_shedding mine).refl w
  refine ⟨?_, hrefl.nics.aside htrace hreplies hhost⟩
  rw [hhost]
  exact hrefl.host

theorem workings_shedding (mine : Port → Prop) :
    Workings (HostCall.harmless mine) (Shedding mine) where
  composes := composes_shedding mine
  command := fun w _ hc => shedding_after hc w
  warning := fun _ _ => Shedding.aside rfl rfl rfl
  plannedMac := fun _ _ => Shedding.aside rfl rfl rfl
  record := fun _ _ => Shedding.aside rfl rfl rfl

theorem Freed.later {kind : RuntimeKind} {host host' : Host} {q q' : QemuNics}
    (h : Freed kind entry key host q) (hmine : mine (ownPort kind key.1 key.2))
    (hhost : host.Freer mine host') (hnics : Sheds q q') :
    Freed kind entry key host' q' := by
  unfold Freed at h ⊢
  by_cases hboot : kind = .qemu ∧ entry.bootNic
  · rw [if_pos hboot] at h ⊢
    exact hhost.loose _ hmine h
  · rw [if_neg hboot] at h ⊢
    refine ⟨hhost.gone _ hmine h.1, ?_⟩
    intro hkind
    obtain ⟨hdevice, hnetdev⟩ := h.2 hkind
    refine ⟨?_, ?_⟩
    · cases hq : q'.devices key with
      | false => rfl
      | true =>
        rw [hnics.devices key hq] at hdevice
        cases hdevice
    · cases hq : q'.netdevs key with
      | false => rfl
      | true =>
        rw [hnics.netdevs key hq] at hnetdev
        cases hnetdev

/-- What the detach of an interface changes in the record of the node. -/
structure NodeRuntime.Dropped (r r' : NodeRuntime) (i : Int) : Prop where
  kind : r'.kind = r.kind
  alive : r'.alive = r.alive
  qmpSocket : r'.qmpSocket = r.qmpSocket
  attachments : r'.attachments = r.attachments.eraseP (onInterface i)
  generation : ∀ j, j ≠ i → r'.generation j = r.generation j

theorem withoutDocker_dropped (r : NodeRuntime) (i : Int) (port : Port) :
    r.Dropped (r.withoutDockerAttachment i port) i := ⟨rfl, rfl, rfl, rfl, fun _ _ => rfl⟩

theorem withoutQemu_dropped (r : NodeRuntime) (i : Int) (entry : Attachment) (tap : Port)
    (forced : Bool) : r.Dropped ((r.withoutQemuAttachment i entry tap forced).bump i) i := by
  refine ⟨rfl, rfl, rfl, rfl, fun j hj => ?_⟩
  show ((r.generations.set i _).get? j).getD 0 = (r.generations.get? j).getD 0
  rw [Dict.get?_set_ne _ _ (Ne.symm hj)]

/-- A detach that does not raise drops the entry, or finds another generation and leaves it. -/
theorem detachInterface_outcome {expectedGeneration : Option Int} {w : World}
    (h : Attached w key r entry) :
    Ends (detachInterface r.kind key.1 key.2 expectedGeneration) w
      (fun _ t => (staleFor r key.2 expectedGeneration = true ∧ t.runtimes = w.runtimes) ∨
        (staleFor r key.2 expectedGeneration = false ∧
          ∃ r', r.Dropped r' key.2 ∧ t.runtimes = w.runtimes.set key.1 r'))
      (fun _ t => t.runtimes = w.runtimes) := by
  have hdone : ∀ {state : DetachState} {t : World} {there : NodeRuntime → Prop}
      {gone : NodeRuntime → Attachment → NodeRuntime → Prop},
      DetachDone w t key.1 key.2 expectedGeneration state there gone → there r →
      (∀ r', gone r entry r' → r.Dropped r' key.2) →
      (staleFor r key.2 expectedGeneration = true ∧ t.runtimes = w.runtimes) ∨
        (staleFor r key.2 expectedGeneration = false ∧
          ∃ r', r.Dropped r' key.2 ∧ t.runtimes = w.runtimes.set key.1 r') := by
    intro state t there gone hdone hthere hgone
    rcases hdone with ⟨_, _, hnone⟩ | ⟨r₀, e, hget, _, hentry, hcase⟩
    · have habsent := hnone r h.record hthere
      rw [h.attached] at habsent
      cases habsent
    · have hr : r = r₀ := Option.some.inj (h.record.symm.trans hget)
      subst hr
      have he : entry = e := Option.some.inj (h.attached.symm.trans hentry)
      subst he
      rcases hcase with ⟨_, hstale, hsame⟩ | ⟨_, hfresh, r', hr', hset⟩
      · exact Or.inl ⟨hstale, hsame⟩
      · exact Or.inr ⟨hfresh, r', hgone r' hr', hset⟩
  unfold detachInterface
  split
  next =>
    refine (detachDockerInterface_spec workings_true expectedGeneration
      (fun _ _ _ _ _ => trivial)).mono (fun state t ht => ?_) (fun _ _ ht => ht.2)
    refine hdone ht.2 trivial ?_
    intro r' hr'
    rw [hr']
    exact withoutDocker_dropped r key.2 _
  next hkind =>
    refine (detachQemuInterface_spec workings_true expectedGeneration trivial
      (fun r entry _ _ _ => frames_detachNic workings_true.toCommands.sameRuntimes
        (fun _ => ⟨⟨trivial, trivial, trivial⟩, trivial⟩) trivial trivial)).mono
      (fun state t ht => ?_) (fun _ _ ht => ht.2)
    have hqemu : r.kind = .qemu := (h.kind.resolve_left hkind).1
    refine hdone ht.2 hqemu ?_
    rintro r' ⟨forced, hr'⟩
    rw [hr']
    exact withoutQemu_dropped r key.2 entry _ forced

/-- A detach of a running endpoint that does not raise drops its entry. -/
theorem detachInterface_dropped {expectedGeneration : Option Int} {w : World}
    (h : Running expectedGeneration w key r entry) :
    Ends (detachInterface r.kind key.1 key.2 expectedGeneration) w
      (fun _ t => ∃ r', r.Dropped r' key.2 ∧ t.runtimes = w.runtimes.set key.1 r')
      (fun _ t => t.runtimes = w.runtimes) := by
  refine (detachInterface_outcome h.toAttached).mono ?_ (fun _ _ ht => ht)
  rintro _ t (⟨hstale, _⟩ | ⟨_, hdropped⟩)
  · rw [h.fresh] at hstale
    cases hstale
  · exact hdropped

theorem find?_eraseP_other {attachments : List Attachment} {i j : Int} (hij : j ≠ i) :
    (attachments.eraseP (onInterface i)).find? (onInterface j) =
      attachments.find? (onInterface j) := by
  apply find?_eraseP
  intro e he
  have hon := List.find?_some he
  unfold onInterface at hon ⊢
  have hindex := of_decide_eq_true hon
  simp [hindex, Ne.symm hij]

/-- The entry of the interface is gone, and no other one is there that was not. -/
theorem entryAt_dropped {r r' : NodeRuntime} (hget : w.runtimes.get? key.1 = some r)
    (hdistinct : (r.attachments.map Attachment.interfaceIndex).Nodup) (hr' : r.Dropped r' key.2)
    (hset : t.runtimes = w.runtimes.set key.1 r') :
    t.entryAt key.1 key.2 = none ∧ ∀ n i, w.entryAt n i = none → t.entryAt n i = none := by
  have hself : t.runtimes.get? key.1 = some r' := by
    rw [hset, Dict.get?_set_self]
  have hgone : t.entryAt key.1 key.2 = none := by
    rw [World.entryAt_of_get? hself]
    unfold NodeRuntime.attachment?
    rw [hr'.attachments]
    exact eraseP_onInterface hdistinct
  refine ⟨hgone, fun n i hnone => ?_⟩
  by_cases hn : key.1 = n
  · subst hn
    by_cases hi : i = key.2
    · rw [hi]
      exact hgone
    · rw [World.entryAt_of_get? hget] at hnone
      rw [World.entryAt_of_get? hself]
      unfold NodeRuntime.attachment? at hnone ⊢
      rw [hr'.attachments, find?_eraseP_other hi]
      exact hnone
  · unfold World.entryAt at hnone ⊢
    rw [hset, Dict.get?_set_ne _ _ hn]
    exact hnone

/-- The other endpoints are as they were. -/
theorem attached_dropped {key other : Int × Int} {r r' s : NodeRuntime}
    (hget : w.runtimes.get? key.1 = some r) (hr' : r.Dropped r' key.2)
    (hset : t.runtimes = w.runtimes.set key.1 r') (hne : other ≠ key) (h : Attached w other s entry) :
    ∃ s', Attached t other s' entry ∧ s'.kind = s.kind ∧
      ∀ expected, staleFor s' other.2 expected = staleFor s other.2 expected := by
  by_cases hn : key.1 = other.1
  · have hs : r = s := by
      have hsame := h.record
      rw [← hn, hget] at hsame
      exact Option.some.inj hsame
    subst hs
    have hi : other.2 ≠ key.2 := fun hi => hne (Prod.ext hn.symm hi)
    refine ⟨r', ⟨?_, ?_, ?_, ?_, ?_, ?_⟩, hr'.kind, ?_⟩
    · rw [hset, hn, Dict.get?_set_self]
    · rw [hr'.alive]
      exact h.alive
    · rw [hr'.kind, hr'.qmpSocket]
      exact h.kind
    · rw [hr'.attachments]
      exact h.distinct.sublist (List.eraseP_sublist.map _)
    · have hattached := h.attached
      unfold NodeRuntime.attachment? at hattached ⊢
      rw [hr'.attachments, find?_eraseP_other hi]
      exact hattached
    · rw [hr'.kind]
      exact h.port
    · intro expected
      unfold staleFor
      rw [hr'.generation other.2 hi]
  · refine ⟨s, ⟨?_, h.alive, h.kind, h.distinct, h.attached, h.port⟩, rfl, fun _ => rfl⟩
    rw [hset, Dict.get?_set_ne _ _ hn]
    exact h.record

theorem running_dropped {expectedGeneration : Option Int} {key other : Int × Int}
    {r r' s : NodeRuntime} (hget : w.runtimes.get? key.1 = some r) (hr' : r.Dropped r' key.2)
    (hset : t.runtimes = w.runtimes.set key.1 r') (hne : other ≠ key)
    (h : Running expectedGeneration w other s entry) :
    ∃ s', Running expectedGeneration t other s' entry ∧ s'.kind = s.kind := by
  obtain ⟨s', hs', hkind, hstale⟩ := attached_dropped hget hr' hset hne h.toAttached
  exact ⟨s', ⟨hs', by rw [hstale, h.fresh]⟩, hkind⟩

theorem attached_same (h : Attached w key r entry) (hsame : t.runtimes = w.runtimes) :
    Attached t key r entry :=
  { h with record := by rw [hsame]; exact h.record }

theorem running_same {expectedGeneration : Option Int}
    (h : Running expectedGeneration w key r entry) (hsame : t.runtimes = w.runtimes) :
    Running expectedGeneration t key r entry :=
  ⟨attached_same h.toAttached hsame, h.fresh⟩

/-- The carrier of a QEMU endpoint goes down before its detach. -/
def lowerCarrier (kind : RuntimeKind) (key : Int × Int) : HostM Unit :=
  if kind = .qemu then setQemuNicLink key.1 key.2 false else pure ()

theorem lowerCarrier_spec {w : World} (h : Attached w key r entry) (mine : Port → Prop) :
    Ends (lowerCarrier r.kind key) w (fun _ t => t.runtimes = w.runtimes ∧ Shedding mine w t)
      (fun _ t => t.runtimes = w.runtimes ∧ Shedding mine w t ∧ Unanswered w t) := by
  have hrefl := (composes_shedding mine).refl w
  unfold lowerCarrier
  split
  next hkind =>
    unfold setQemuNicLink
    rw [ends_bind, ends_runtimeRecord, h.record]
    simp only [h.alive, Bool.or_true, if_true]
    split
    next =>
      have hafter : Shedding mine w (w.after (.setLink key.1 key.2 false)) :=
        @shedding_after mine (.setLink key.1 key.2 false) trivial w
      rw [ends_tryCatch]
      refine (moves_run (.setLink key.1 key.2 false) w).mono ?_ ?_
      · intro _ t ht
        rw [ht.2]
        exact ⟨rfl, hafter⟩
      · intro e t ht
        rw [ht.2]
        split
        next => exact ⟨rfl, hafter⟩
        next => exact ⟨rfl, hafter, unanswered_raised ht.1 (fun _ _ ha => ha.1)⟩
    next => exact ⟨rfl, hrefl⟩
  next => exact ⟨rfl, hrefl⟩

/-- One endpoint of the detach phase. -/
theorem ends_detachEndpoints_cons {expectedGeneration : Option Int} {w : World}
    (h : Attached w key r entry) (primaryError : Option Exc) (rest : List (Int × Int))
    (returns : Unit → World → Prop) (raises : Exc → World → Prop) :
    Ends (detachEndpoints expectedGeneration primaryError (key :: rest)) w returns raises ↔
      Ends (lowerCarrier r.kind key) w
        (fun _ t => Ends (detachInterface r.kind key.1 key.2 expectedGeneration) t
          (fun _ u => Ends (detachEndpoints expectedGeneration primaryError rest) u returns raises)
          (fun e u => if e.isRuntime || e.isHostNet then
            Ends (detachEndpoints expectedGeneration (primaryError <|> some e) rest) u returns raises
            else raises e u)) raises := by
  have hkept : ∀ (e : Exc) (u : World),
      Ends (if e.isRuntime || e.isHostNet then
        detachEndpoints expectedGeneration (primaryError <|> some e) rest else throw e) u returns raises ↔
      if e.isRuntime || e.isHostNet then
        Ends (detachEndpoints expectedGeneration (primaryError <|> some e) rest) u returns raises
      else raises e u := by
    intro e u
    split
    next => exact Iff.rfl
    next => exact Iff.rfl
  have hother : r.kind ≠ .other := by
    rcases h.kind with hd | ⟨hq, _⟩
    · rw [hd]
      decide
    · rw [hq]
      decide
  unfold lowerCarrier
  rw [detachEndpoints, ends_bind, ends_runtimeRecord, h.record]
  simp only [Bool.true_or, if_true, if_neg hother]
  split
  next =>
    rw [ends_bind]
    simp only [ends_bind, ends_attempt, hkept]
  next =>
    simp only [ends_bind, ends_attempt, ends_pure, hkept]

end NovaVe
