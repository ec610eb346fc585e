import NovaVe.HotAttachFrames
import NovaVe.ReconcileFrames

namespace NovaVe

/-- The attachment entry of an interface in the registry. -/
def World.entryAt (w : World) (nodeId interfaceIndex : Int) : Option Attachment :=
  (w.runtimes.get? nodeId).bind (fun r => r.attachment? interfaceIndex)

/-- The generation counter of an interface; without a record it stands at zero. -/
def World.counterAt (w : World) (nodeId interfaceIndex : Int) : Int :=
  ((w.runtimes.get? nodeId).map (fun r => r.generation interfaceIndex)).getD 0

/-- The record of the node has one entry for an interface at most. -/
def World.OneEntry (w : World) (nodeId : Int) : Prop :=
  ∀ r, w.runtimes.get? nodeId = some r → (r.attachments.map Attachment.interfaceIndex).Nodup

/-- What a call that makes no attachment leaves at an interface: what was there, or no entry. -/
def World.Leaves (w t : World) (nodeId interfaceIndex : Int) : Prop :=
  w.OneEntry nodeId → t.OneEntry nodeId ∧
    ((t.entryAt nodeId interfaceIndex = w.entryAt nodeId interfaceIndex ∧
        t.counterAt nodeId interfaceIndex = w.counterAt nodeId interfaceIndex) ∨
      t.entryAt nodeId interfaceIndex = none)

theorem World.entryAt_of_get? {w : World} {nodeId : Int} {r : NodeRuntime}
    (h : w.runtimes.get? nodeId = some r) (i : Int) : w.entryAt nodeId i = r.attachment? i := by
  unfold World.entryAt
  rw [h, Option.bind_some]

theorem World.counterAt_of_get? {w : World} {nodeId : Int} {r : NodeRuntime}
    (h : w.runtimes.get? nodeId = some r) (i : Int) : w.counterAt nodeId i = r.generation i := by
  unfold World.counterAt
  rw [h, Option.map_some, Option.getD_some]

theorem leaves_of_get? {w t : World} {nodeId : Int}
    (h : t.runtimes.get? nodeId = w.runtimes.get? nodeId) (i : Int) : w.Leaves t nodeId i := by
  intro hone
  refine ⟨fun r hr => hone r (h ▸ hr), Or.inl ⟨?_, ?_⟩⟩
  · unfold World.entryAt
    rw [h]
  · unfold World.counterAt
    rw [h]

theorem leaves_of_none {w t : World} {nodeId : Int} (h : t.runtimes.get? nodeId = none) (i : Int) :
    w.Leaves t nodeId i := by
  intro _
  refine ⟨fun r hr => ?_, Or.inr ?_⟩
  · rw [h] at hr
    cases hr
  · unfold World.entryAt
    rw [h, Option.bind_none]

theorem oneEntry_of_get? {t : World} {nodeId : Int} {r : NodeRuntime}
    (h : t.runtimes.get? nodeId = some r)
    (hr : (r.attachments.map Attachment.interfaceIndex).Nodup) : t.OneEntry nodeId := by
  intro r' hr'
  obtain rfl : r = r' := Option.some.inj (h.symm.trans hr')
  exact hr

/-- The record of the node became another. -/
theorem leaves_of_set {w t : World} {nodeId i : Int} {r r' : NodeRuntime}
    (hget : w.runtimes.get? nodeId = some r) (ht : t.runtimes = w.runtimes.set nodeId r')
    (hr : (r.attachments.map Attachment.interfaceIndex).Nodup →
      (r'.attachments.map Attachment.interfaceIndex).Nodup ∧
        ((r'.attachment? i = r.attachment? i ∧ r'.generation i = r.generation i) ∨
          r'.attachment? i = none)) :
    w.Leaves t nodeId i := by
  intro hone
  have hget' : t.runtimes.get? nodeId = some r' := by rw [ht, Dict.get?_set_self]
  obtain ⟨hdistinct, hcase⟩ := hr (hone r hget)
  refine ⟨oneEntry_of_get? hget' hdistinct, ?_⟩
  rw [World.entryAt_of_get? hget', World.entryAt_of_get? hget, World.counterAt_of_get? hget',
    World.counterAt_of_get? hget]
  exact hcase

theorem Untouched.leaves {w t : World} {nodeId : Int} (h : Untouched w t nodeId) (i : Int) :
    w.Leaves t nodeId i := by
  rcases h with hsame | ⟨r, hget, _, hpop⟩
  · exact leaves_of_get? (by rw [hsame]) i
  · apply leaves_of_none
    rw [hpop, Dict.get?_pop, if_pos rfl]

/-- The one entry of an interface is gone once it is erased. -/
theorem eraseP_onInterface {attachments : List Attachment} {i : Int}
    (h : (attachments.map Attachment.interfaceIndex).Nodup) :
    (attachments.eraseP (onInterface i)).find? (onInterface i) = none := by
  induction attachments with
  | nil => rfl
  | cons entry rest ih =>
    obtain ⟨hnot, hrest⟩ := List.nodup_cons.mp h
    by_cases hi : onInterface i entry = true
    · rw [List.eraseP_cons_of_pos hi]
      apply List.find?_eq_none.mpr
      intro other hother hon
      apply hnot
      unfold onInterface at hi hon
      rw [of_decide_eq_true hi, ← of_decide_eq_true hon]
      exact List.mem_map_of_mem hother
    · rw [List.eraseP_cons_of_neg hi, List.find?_cons_of_neg hi]
      exact ih hrest

theorem DetachDone.leaves {w t : World} {nodeId i : Int} {expectedGeneration : Option Int}
    {state : DetachState} {there : NodeRuntime → Prop}
    {gone : NodeRuntime → Attachment → NodeRuntime → Prop}
    (h : DetachDone w t nodeId i expectedGeneration state there gone)
    (hgone : ∀ r entry r', gone r entry r' →
      r'.attachments = r.attachments.eraseP (onInterface i)) :
    w.Leaves t nodeId i := by
  rcases h with ⟨_, hsame, _⟩ | ⟨r, entry, hget, _, _, hcase⟩
  · exact leaves_of_get? (by rw [hsame]) i
  · rcases hcase with ⟨_, _, hsame⟩ | ⟨_, _, r', hr', hset⟩
    · exact leaves_of_get? (by rw [hsame]) i
    · refine leaves_of_set hget hset (fun hd => ?_)
      have herased := hgone r entry r' hr'
      refine ⟨?_, Or.inr ?_⟩
      · rw [herased]
        exact hd.sublist (List.eraseP_sublist.map _)
      · unfold NodeRuntime.attachment?
        rw [herased]
        exact eraseP_onInterface hd

theorem plain_true : Plain (fun _ => True) := fun _ _ => trivial

theorem detachInterface_done (kind : RuntimeKind) (nodeId i : Int) (expectedGeneration : Option Int)
    (w : World) :
    Ends (detachInterface kind nodeId i expectedGeneration) w
      (fun state t => ∃ there gone,
        DetachDone w t nodeId i expectedGeneration state there gone ∧
          ∀ r entry r', gone r entry r' → r'.attachments = r.attachments.eraseP (onInterface i))
      (fun _ t => t.runtimes = w.runtimes) := by
  unfold detachInterface
  split
  next =>
    refine (detachDockerInterface_spec workings_true expectedGeneration
      (fun _ _ _ _ _ => trivial)).mono (fun state t ht => ?_) (fun _ _ ht => ht.2)
    refine ⟨_, _, ht.2, fun r entry r' hr' => ?_⟩
    rw [hr']
    rfl
  next =>
    refine (detachQemuInterface_spec workings_true expectedGeneration trivial
      (fun r entry _ _ _ => frames_detachNic workings_true.toCommands.sameRuntimes
        (fun _ => ⟨⟨trivial, trivial, trivial⟩, trivial⟩) trivial trivial)).mono
      (fun state t ht => ?_) (fun _ _ ht => ht.2)
    refine ⟨_, _, ht.2, fun r entry r' hr' => ?_⟩
    obtain ⟨forced, rfl⟩ := hr'
    rfl

theorem detachInterface_leaves (kind : RuntimeKind) (nodeId i : Int)
    (expectedGeneration : Option Int) (w : World) :
    Ends (detachInterface kind nodeId i expectedGeneration) w (fun _ t => w.Leaves t nodeId i)
      (fun _ t => w.Leaves t nodeId i) := by
  refine (detachInterface_done kind nodeId i expectedGeneration w).mono (fun state t ht => ?_)
    (fun _ t ht => leaves_of_get? (by rw [ht]) i)
  obtain ⟨there, gone, hdone, hgone⟩ := ht
  exact hdone.leaves hgone

theorem rolledBack_attachments (r : NodeRuntime) (kind : RuntimeKind) (nodeId i : Int) :
    (r.rolledBack kind nodeId i).attachments = (r.withoutInterface i).attachments := by
  unfold NodeRuntime.rolledBack
  split
  next => rfl
  next => rfl

theorem rollbackTarget_leaves (kind : RuntimeKind) (nodeId i : Int) (w : World) :
    Ends (rollbackTarget kind nodeId i) w (fun _ t => w.Leaves t nodeId i)
      (fun _ t => w.Leaves t nodeId i) := by
  refine (rollbackTarget_spec workings_true kind (fun _ _ _ => trivial)).mono (fun _ t ht => ?_)
    (fun _ t ht => leaves_of_get? (by rw [ht.2]) i)
  have hback := ht.2
  unfold RolledBack at hback
  cases hget : w.runtimes.get? nodeId with
  | none =>
    rw [hget] at hback
    exact leaves_of_get? (by rw [hback]) i
  | some r =>
    rw [hget] at hback
    dsimp only at hback
    split at hback
    next =>
      refine leaves_of_set hget hback (fun hd => ?_)
      have hgone := rolledBack_attachments r kind nodeId i
      refine ⟨?_, Or.inr ?_⟩
      · rw [hgone]
        exact hd.sublist (List.filter_sublist.map _)
      · unfold NodeRuntime.attachment?
        rw [hgone]
        have hnone := withoutInterface_attachment? r i i
        rw [if_pos rfl] at hnone
        exact hnone
    next =>
      apply leaves_of_none
      rw [hback, Dict.get?_pop, if_pos rfl]

theorem stopNode_leaves (nodeId i : Int) (w : World) :
    Ends (stopNode nodeId) w (fun _ t => w.Leaves t nodeId i) (fun _ t => w.Leaves t nodeId i) := by
  refine (stopNode_spec workings_true plain_true nodeId w).mono (fun _ t ht => ?_)
    (fun _ t ht => leaves_of_get? (by rw [ht.2]) i)
  apply leaves_of_none
  rw [ht.2, if_pos rfl]

/-- What an attach that succeeds leaves: the entry that was there, or a new one, with the number
after the counter's. -/
def World.Attaches (w t : World) (nodeId interfaceIndex : Int) (stamp : Option Int) : Prop :=
  (w.entryAt nodeId interfaceIndex ≠ none ∧ w.Leaves t nodeId interfaceIndex) ∨
    ∃ r, w.runtimes.get? nodeId = some r ∧ r.attachment? interfaceIndex = none ∧
      stamp = some (r.generation interfaceIndex + 1) ∧ (w.OneEntry nodeId → t.OneEntry nodeId) ∧
      t.entryAt nodeId interfaceIndex ≠ none ∧
      t.counterAt nodeId interfaceIndex = r.generation interfaceIndex + 1

/-- What both kinds of attach do to the record at the interface. -/
structure NodeRuntime.Bumped (r r' : NodeRuntime) (interfaceIndex : Int) : Prop where
  entry : ∃ e : Attachment, e.interfaceIndex = interfaceIndex ∧
    r'.attachments = r.attachments ++ [e]
  generation : r'.generation interfaceIndex = r.generation interfaceIndex + 1

theorem NodeRuntime.bump_generation (r : NodeRuntime) (i : Int) :
    (r.bump i).generation i = r.generation i + 1 := by
  show ((r.generations.set i (r.generation i + 1)).get? i).getD 0 = r.generation i + 1
  rw [Dict.get?_set_self, Option.getD_some]

theorem withDockerAttachment_bumped (r : NodeRuntime) (nodeId networkId i : Int) (bridge : String) :
    r.Bumped (r.withDockerAttachment nodeId networkId i bridge) i :=
  ⟨⟨_, rfl, rfl⟩, r.bump_generation i⟩

theorem qemuAttached_bumped {r r' : NodeRuntime} {source : NicSource} {nodeId networkId i : Int}
    {bridge : String} (h : r.QemuAttached r' source nodeId networkId i bridge) : r.Bumped r' i := by
  rcases h with ⟨_, rfl⟩ | ⟨_, slot, _, rfl⟩
  · exact ⟨⟨_, rfl, rfl⟩, r.bump_generation i⟩
  · exact ⟨⟨_, rfl, rfl⟩, (r.reserveSlot slot).bump_generation i⟩

theorem attachment?_append {r r' : NodeRuntime} {i : Int} {e : Attachment}
    (he : e.interfaceIndex = i) (h : r'.attachments = r.attachments ++ [e]) :
    r'.attachment? i ≠ none := by
  unfold NodeRuntime.attachment?
  rw [h]
  intro hnone
  have hnot := List.find?_eq_none.mp hnone e (List.mem_append_right _ List.mem_cons_self)
  apply hnot
  simp [onInterface, he]

theorem nodup_append_entry {attachments : List Attachment} {e : Attachment}
    (hd : (attachments.map Attachment.interfaceIndex).Nodup)
    (hnone : attachments.find? (onInterface e.interfaceIndex) = none) :
    ((attachments ++ [e]).map Attachment.interfaceIndex).Nodup := by
  rw [List.map_append, List.map_singleton]
  refine List.nodup_append.mpr ⟨hd, List.nodup_singleton _, ?_⟩
  intro x hx y hy heq
  obtain ⟨other, hother, hindex⟩ := List.mem_map.mp hx
  have hy' := List.mem_singleton.mp hy
  apply List.find?_eq_none.mp hnone other hother
  unfold onInterface
  rw [hindex, heq, hy', decide_eq_true_eq]

theorem AttachDone.attaches {w t : World} {nodeId networkId i : Int} {stamp : Option Int}
    {new : NodeRuntime → NodeRuntime → Prop} (h : AttachDone w t nodeId networkId i stamp new)
    (hnew : ∀ r r', new r r' → r.Bumped r' i) : w.Attaches t nodeId i stamp := by
  obtain ⟨r, hget, _, hcase⟩ := h
  rcases hcase with ⟨entry, hentry, _, _, hsame⟩ | ⟨hnone, hstamp, r', hr', hset⟩
  · refine Or.inl ⟨?_, leaves_of_get? (by rw [hsame]) i⟩
    rw [World.entryAt_of_get? hget, hentry]
    simp
  · obtain ⟨⟨e, he, happend⟩, hgeneration⟩ := hnew r r' hr'
    have hget' : t.runtimes.get? nodeId = some r' := by rw [hset, Dict.get?_set_self]
    refine Or.inr ⟨r, hget, hnone, hstamp, fun hone => ?_, ?_, ?_⟩
    · apply oneEntry_of_get? hget'
      rw [happend]
      apply nodup_append_entry (hone r hget)
      rw [he]
      exact hnone
    · rw [World.entryAt_of_get? hget']
      exact attachment?_append he happend
    · rw [World.counterAt_of_get? hget', hgeneration]

theorem attachInterface_attaches (source : NicSource) (kind : RuntimeKind)
    (nodeId networkId i : Int) (bridge : String) (w : World) :
    Ends (attachInterface source kind nodeId networkId i bridge) w
      (fun stamp t => w.Attaches t nodeId i stamp) (fun _ t => w.Leaves t nodeId i) := by
  unfold attachInterface
  split
  next =>
    refine (attachDockerInterface_spec workings_true source (fun _ _ _ => trivial) networkId w).mono
      (fun stamp t ht => ht.2.attaches ?_) (fun _ t ht => ht.2.leaves i)
    rintro r r' ⟨_, rfl⟩
    exact withDockerAttachment_bumped r nodeId networkId i bridge
  next =>
    refine (attachQemuInterface_spec workings_true source (fun _ _ _ => trivial) networkId w).mono
      (fun stamp t ht => ht.2.attaches ?_) (fun _ t ht => ht.2.leaves i)
    intro r r' hr'
    exact qemuAttached_bumped hr'.2

theorem bootAttachments_nodup (bridgeName : String → Int → String) (lab : Lab) (nodeKey : Int)
    (node : Node) :
    ((bootAttachments bridgeName lab nodeKey node).map BootAttachment.interfaceIndex).Nodup := by
  unfold bootAttachments
  split
  next => exact sortByIndex_nodup (interfaceAttachments_nodup bridgeName lab nodeKey node)
  next => exact sortByIndex_nodup (linkedAttachments_nodup bridgeName lab nodeKey node)

theorem startedRecord_indices (env : StartEnv) (lab : Lab) (nodeKey : Int) (node : Node) :
    (startedRecord env lab nodeKey node).attachments.map Attachment.interfaceIndex =
      (bootAttachments env.bridgeName lab nodeKey node).map BootAttachment.interfaceIndex := by
  unfold startedRecord bootAttachments
  split
  next => simp [startedDockerRuntime, Function.comp_def]
  next => simp [startedQemuRuntime, Function.comp_def]

theorem startedRecord_generation (env : StartEnv) (lab : Lab) (nodeKey : Int) (node : Node)
    (i : Int) : (startedRecord env lab nodeKey node).generation i = 0 := by
  unfold startedRecord
  split
  next => rfl
  next => rfl

/-- A start leaves a running node alone, or makes a record whose counters stand at zero. -/
theorem startNode_starts (env : StartEnv) (lab : Lab) (nodeKey : Int) (node : Node) (i : Int)
    (w : World) :
    Ends (startNode env lab nodeKey node) w
      (fun _ t => w.Leaves t node.id i ∨
        ((∀ r, w.runtimes.get? node.id = some r → r.alive = false) ∧ t.OneEntry node.id ∧
          t.counterAt node.id i = 0))
      (fun _ t => w.Leaves t node.id i) := by
  refine (startNode_spec workings_true plain_true (fun _ _ _ _ => trivial) w).mono
    (fun _ t ht => ?_) (fun _ t ht => ht.2.leaves i)
  rcases ht.2 with ⟨r, hget, _, hsame⟩ | ⟨hdead, hlook⟩
  · exact Or.inl (leaves_of_get? (by rw [hsame]) i)
  · have hget' := hlook node.id
    rw [if_pos rfl] at hget'
    refine Or.inr ⟨hdead, oneEntry_of_get? hget' ?_, ?_⟩
    · rw [startedRecord_indices]
      exact bootAttachments_nodup env.bridgeName lab nodeKey node
    · rw [World.counterAt_of_get? hget', startedRecord_generation]

/-- What a reconcile leaves at an interface that lab.json wires: what was there, no entry, or the
entry and the counter of the link. -/
def World.Syncs (w t : World) (bridgeName : String → Int → String) (lab : Lab)
    (nodeId interfaceIndex : Int) : Prop :=
  ∃ r want, w.runtimes.get? nodeId = some r ∧ r.alive = true ∧ r.kind = .qemu ∧
    (expectedAttachments bridgeName lab nodeId r.bootEthernet).get? interfaceIndex = some want ∧
    (w.OneEntry nodeId → t.OneEntry nodeId) ∧ t.entryAt nodeId interfaceIndex ≠ none ∧
    t.counterAt nodeId interfaceIndex = want.attachGeneration

theorem reconcileStep_at {source : NicSource} {bridgeName : String → Int → String} {lab : Lab}
    {nodeId : Int} {removable : List Int} {w t : World} {r r' : NodeRuntime}
    (hget : w.runtimes.get? nodeId = some r) (halive : r.alive = true) (hkind : r.kind = .qemu)
    (ht : t.runtimes = w.runtimes.set nodeId r')
    (hstep : ReconcileStep source nodeId (expectedAttachments bridgeName lab nodeId r.bootEthernet)
      removable r r') (i : Int) :
    w.Leaves t nodeId i ∨ w.Syncs t bridgeName lab nodeId i := by
  have hget' : t.runtimes.get? nodeId = some r' := by rw [ht, Dict.get?_set_self]
  cases hwant : (expectedAttachments bridgeName lab nodeId r.bootEthernet).get? i with
  | none =>
    obtain ⟨hgeneration, hentry⟩ := hstep.other i hwant
    refine Or.inl (leaves_of_set hget ht (fun hd => ⟨hstep.distinct hd, ?_⟩))
    rcases hentry with hentry | hentry
    · exact Or.inl ⟨hentry, hgeneration⟩
    · exact Or.inr hentry.2
  | some want =>
    rcases hstep.wanted i want hwant with hsame | ⟨hentry, hgeneration⟩
    · exact Or.inl (leaves_of_set hget ht (fun hd => ⟨hstep.distinct hd, Or.inl hsame⟩))
    · refine Or.inr ⟨r, want, hget, halive, hkind, hwant, fun hone => ?_, ?_, ?_⟩
      · exact oneEntry_of_get? hget' (hstep.distinct (hone r hget))
      · rw [World.entryAt_of_get? hget', hentry]
        simp
      · rw [World.counterAt_of_get? hget', hgeneration]

theorem reconcileQemuNodeLinks_syncs (source : NicSource) (bridgeName : String → Int → String)
    (lab : Lab) (nodeId i : Int) (w : World) :
    Ends (reconcileQemuNodeLinks source bridgeName lab nodeId) w
      (fun _ t => w.Leaves t nodeId i ∨ w.Syncs t bridgeName lab nodeId i)
      (fun _ t => w.Leaves t nodeId i ∨ w.Syncs t bridgeName lab nodeId i) := by
  unfold reconcileQemuNodeLinks
  rw [ends_bind, ends_run]
  split
  next => exact Or.inl (leaves_of_get? rfl i)
  next =>
    refine (reconcileLocked_frames workings_true source bridgeName lab nodeId
      (w.after (.nodeMutex nodeId)) ⟨fun _ => trivial, fun _ => trivial,
        fun _ _ _ _ => ⟨trivial, trivial, trivial, trivial, trivial⟩⟩).mono (fun _ t ht => ?_)
      (fun _ t ht => ?_)
    all_goals
      rcases ht.2 with hsame | ⟨r, hget, _, hpop⟩ | ⟨r, r', hget, halive, hkind, hset, hstep⟩
      · exact Or.inl (leaves_of_get? (by rw [hsame, World.after_runtimes]) i)
      · refine Or.inl (leaves_of_none ?_ i)
        rw [hpop, Dict.get?_pop, if_pos rfl]
      · exact reconcileStep_at hget halive hkind hset hstep i

/-- A detach whose number is not the counter's changes neither the registry nor the host. -/
theorem detachInterface_refused {kind : RuntimeKind} {nodeId i s : Int} {w : World}
    (h : w.entryAt nodeId i ≠ none → s ≠ w.counterAt nodeId i) :
    Ends (detachInterface kind nodeId i (some s)) w
      (fun state t => (state = .absent ∨ state = .staleNoop) ∧ t.runtimes = w.runtimes ∧
        t.host = w.host)
      (fun _ t => t.runtimes = w.runtimes ∧ t.host = w.host) := by
  have hstale : ∀ r entry, w.runtimes.get? nodeId = some r → r.attachment? i = some entry →
      staleFor r i (some s) = true := by
    intro r entry hget hentry
    rw [World.entryAt_of_get? hget, World.counterAt_of_get? hget, hentry] at h
    apply decide_eq_true
    exact h (by simp)
  unfold detachInterface
  split
  next =>
    unfold detachDockerInterface
    rw [ends_bind, ends_runtimeRecord]
    cases hget : w.runtimes.get? nodeId with
    | none => exact ⟨Or.inl rfl, rfl, rfl⟩
    | some r =>
      simp only [Bool.true_or, if_true]
      cases hentry : r.attachment? i with
      | none => exact ⟨Or.inl rfl, rfl, rfl⟩
      | some entry =>
        dsimp only
        rw [if_pos (hstale r entry hget hentry)]
        exact ⟨Or.inr rfl, rfl, rfl⟩
  next =>
    have hhost : (w.after (.nodeMutex nodeId)).host = w.host := World.after_look (fun _ => rfl)
    unfold detachQemuInterface
    rw [ends_bind, ends_run]
    split
    next => exact ⟨rfl, hhost⟩
    next =>
      unfold detachQemuInner
      rw [ends_bind, ends_runtimeRecord, World.after_runtimes]
      cases hget : w.runtimes.get? nodeId with
      | none => exact ⟨Or.inl rfl, rfl, hhost⟩
      | some r =>
        simp only [Bool.true_or, if_true]
        split
        next => exact ⟨Or.inl rfl, rfl, hhost⟩
        next =>
          cases hentry : r.attachment? i with
          | none => exact ⟨Or.inl rfl, rfl, hhost⟩
          | some entry =>
            dsimp only
            rw [if_pos (hstale r entry hget hentry)]
            exact ⟨Or.inr rfl, rfl, hhost⟩

/-- A detach with the number of the counter is not stale. -/
theorem detachInterface_admitted {kind : RuntimeKind} {nodeId i g : Int} {w : World}
    (h : w.entryAt nodeId i ≠ none → g = w.counterAt nodeId i) :
    Ends (detachInterface kind nodeId i (some g)) w (fun state _ => state ≠ .staleNoop)
      (fun _ _ => True) := by
  refine (detachInterface_done kind nodeId i (some g) w).mono (fun state t ht => ?_)
    (fun _ _ _ => trivial)
  obtain ⟨there, gone, hdone, _⟩ := ht
  rcases hdone with ⟨rfl, _, _⟩ | ⟨r, entry, hget, _, hentry, hcase⟩
  · simp
  · rcases hcase with ⟨_, hstale, _⟩ | ⟨hstate, _, _⟩
    · rw [World.entryAt_of_get? hget, World.counterAt_of_get? hget, hentry] at h
      have hcounter := h (by simp)
      unfold staleFor at hstale
      simp [hcounter] at hstale
    · rcases hstate with rfl | rfl
      · simp
      · simp

end NovaVe
