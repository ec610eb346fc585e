import NovaVe.TokenLedger

namespace NovaVe

theorem ends_unstamped {α : Type} {m : HostM α} {w : World} {returns : World → Prop}
    {raises : Exc → World → Prop} (h : Ends m w (fun _ t => returns t) raises) :
    Ends (do
      let _ ← m
      pure none : HostM (Option Int)) w (fun stamp t => stamp = none ∧ returns t) raises := by
  rw [ends_bind]
  exact h.mono (fun _ _ ht => ⟨rfl, ht⟩) (fun _ _ he => he)

/-- A call that makes no attachment keeps the ledger. -/
theorem Ledger.Kept.step_leaves {nodeId i : Int} {ledger : Ledger} (h : ledger.Kept nodeId i)
    {c : TokenCall nodeId}
    (hends : Ends (c.action.run i) { ledger.world with replies := c.replies }
      (fun stamp t => stamp = none ∧ ledger.world.Leaves t nodeId i)
      (fun _ t => ledger.world.Leaves t nodeId i)) :
    (ledger.step i c).Kept nodeId i := by
  rcases Ledger.step_ends hends with ⟨stamp, t, ht, heq⟩ | ⟨_, t, ht, heq⟩
  · rw [heq]
    exact h.note_leaves c.action ht.2 (fun _ => ht.1)
  · rw [heq]
    exact h.note_leaves c.action ht (fun _ => rfl)

/-- The same of a call that may make or change one. -/
theorem Ledger.Kept.step_remade {nodeId i : Int} {ledger : Ledger} (h : ledger.Kept nodeId i)
    {c : TokenCall nodeId} {remade : World → Prop}
    (hends : Ends (c.action.run i) { ledger.world with replies := c.replies }
      (fun stamp t => stamp = none ∧ (ledger.world.Leaves t nodeId i ∨ remade t))
      (fun _ t => ledger.world.Leaves t nodeId i ∨ remade t))
    (hremade : ∀ t, remade t → t.OneEntry nodeId ∧
      (c.action.liveStamp i ledger.live none = some (t.counterAt nodeId i) ∨
        (c.action.liveStamp i ledger.live none = none ∧
          t.counterAt nodeId i ∉ ledger.issued))) :
    (ledger.step i c).Kept nodeId i := by
  have hnote : ∀ t, ledger.world.Leaves t nodeId i ∨ remade t →
      (ledger.note i c.action none t).Kept nodeId i := by
    intro t ht
    rcases ht with hleaves | hnew
    · exact h.note_leaves c.action hleaves (fun _ => rfl)
    · obtain ⟨hone, hlive⟩ := hremade t hnew
      exact h.note_remade hone hlive
  rcases Ledger.step_ends hends with ⟨stamp, t, ⟨hstamp, ht⟩, heq⟩ | ⟨_, t, ht, heq⟩
  · rw [heq, hstamp]
    exact hnote t ht
  · rw [heq]
    exact hnote t ht

theorem Ledger.Kept.step {nodeId i : Int} {ledger : Ledger} (h : ledger.Kept nodeId i)
    {c : TokenCall nodeId} (hok : TokenOk i ledger c) : (ledger.step i c).Kept nodeId i := by
  obtain ⟨action, replies⟩ := c
  cases action with
  | start env lab nodeKey node =>
    obtain ⟨node, rfl⟩ := node
    refine h.step_remade (ends_unstamped
      ((startNode_starts env lab nodeKey node i { ledger.world with replies := replies }).mono
        (fun _ _ ht => ht) (fun _ _ ht => Or.inl ht))) (fun t ht => ?_)
    obtain ⟨hdead, hone, hcounter⟩ := ht
    obtain ⟨hstamp, hzero⟩ := hok hdead
    refine ⟨hone, Or.inr ⟨hstamp, ?_⟩⟩
    rw [hcounter]
    exact hzero
  | stop =>
    exact h.step_leaves (ends_unstamped
      (stopNode_leaves nodeId i { ledger.world with replies := replies }))
  | attach source kind networkId bridge =>
    have hends := attachInterface_attaches source kind nodeId networkId i bridge
      { ledger.world with replies := replies }
    rcases @Ledger.step_ends nodeId i ledger ⟨.attach source kind networkId bridge, replies⟩ _ _
      hends with ⟨stamp, t, ht, heq⟩ | ⟨_, t, ht, heq⟩
    · rw [heq]
      exact h.note_attach ht hok
    · rw [heq]
      exact h.note_leaves _ ht (fun _ => rfl)
  | detach kind expectedGeneration =>
    exact h.step_leaves (ends_unstamped (detachInterface_leaves kind nodeId i expectedGeneration
      { ledger.world with replies := replies }))
  | rollback kind =>
    exact h.step_leaves (ends_unstamped
      (rollbackTarget_leaves kind nodeId i { ledger.world with replies := replies }))
  | reconcile source bridgeName lab =>
    refine h.step_remade (ends_unstamped (reconcileQemuNodeLinks_syncs source bridgeName lab nodeId i
      { ledger.world with replies := replies })) (fun t ht => ?_)
    obtain ⟨r, want, hget, halive, hkind, hwant, hone, _, hcounter⟩ := ht
    have hfound := hok r want hget halive hkind hwant
    refine ⟨hone h.oneEntry, ?_⟩
    rw [hcounter]
    show ledger.live.or (linkStamp lab.links nodeId i) = _ ∨ _
    cases hlive : ledger.live with
    | some g =>
      rw [hlive] at hfound
      rw [hfound]
      exact Or.inl rfl
    | none =>
      rw [hlive] at hfound
      exact hfound

/-- What the tokens are for: no two attaches get the same one, a detach with the stamp of another
link than that of the live attachment does nothing, and one with its stamp is not stale. -/
structure TokensFresh (nodeId interfaceIndex : Int) (ledger : Ledger) : Prop where
  distinct : ledger.issued.Nodup
  older : ∀ kind replies, ∀ s ∈ ledger.issued, ledger.live ≠ some s →
    Ends (detachInterface kind nodeId interfaceIndex (some s))
      { ledger.world with replies := replies }
      (fun state t => (state = .absent ∨ state = .staleNoop) ∧
        t.runtimes = ledger.world.runtimes ∧ t.host = ledger.world.host)
      (fun _ t => t.runtimes = ledger.world.runtimes ∧ t.host = ledger.world.host)
  current : ∀ kind replies g, ledger.live = some g →
    Ends (detachInterface kind nodeId interfaceIndex (some g))
      { ledger.world with replies := replies } (fun state _ => state ≠ .staleNoop)
      (fun _ _ => True)

theorem Ledger.admits_iff {ledger : Ledger} {nodeId i s : Int} :
    (ledger.fence nodeId i).admits s = true ↔
      ledger.world.entryAt nodeId i ≠ none ∧ s = ledger.world.counterAt nodeId i := by
  unfold Fence.admits Ledger.fence
  rw [Bool.and_eq_true, decide_eq_true_eq, Option.isSome_iff_ne_none]

theorem Ledger.Kept.fresh {nodeId i : Int} {ledger : Ledger} (h : ledger.Kept nodeId i) :
    TokensFresh nodeId i ledger := by
  refine ⟨h.sound.distinct, fun kind replies s hs hother => ?_, fun kind replies g hlive => ?_⟩
  · have hrefused := h.sound.refuses hs hother
    refine detachInterface_refused (fun hentry he => ?_)
    have hadmits := Ledger.admits_iff.mpr ⟨hentry, he⟩
    rw [hrefused] at hadmits
    cases hadmits
  · refine detachInterface_admitted (fun hentry => ?_)
    exact (h.sound.current (Option.isSome_iff_ne_none.mpr hentry) g hlive).symm

/-- From a node without a record, in a run whose calls keep to the condition, the tokens of an
interface are fresh at every time. -/
theorem attach_tokens_fresh {nodeId i : Int} {start ledger : Ledger} {calls : List (TokenCall nodeId)}
    (hrecord : start.world.runtimes.get? nodeId = none) (hissued : start.issued = [])
    (run : Run (Guarded (stepOf (Ledger.step i)) (TokenOk i)) start calls ledger) :
    TokensFresh nodeId i ledger := by
  have hentry : start.world.entryAt nodeId i = none := by
    unfold World.entryAt
    rw [hrecord, Option.bind_none]
  have hheld : (start.fence nodeId i).held = false := by
    show (start.world.entryAt nodeId i).isSome = false
    rw [hentry, Option.isSome_none]
  have hstart : start.Kept nodeId i := by
    refine ⟨fun r hr => ?_, ⟨?_, fun hh => ?_, fun hh => ?_⟩⟩
    · rw [hrecord] at hr
      cases hr
    · show start.issued.Nodup
      rw [hissued]
      exact List.nodup_nil
    · rw [hheld] at hh
      cases hh
    · rw [hheld] at hh
      cases hh
  have hkept := @Run.guarded_invariant _ _ _ _ (fun ledger : Ledger => ledger.Kept nodeId i)
    (fun _ _ h hok => h.step hok) _ _ _ run hstart
  exact hkept.fresh

def tokenEnv : StartEnv where
  bridgeName _ _ := "br"
  maxNics := 8
  hotplugCapable := false
  container := .absent

def containerNode : Node :=
  { id := 1, name := "r", type := .docker, interfaces := [{ index := 0, name := "eth0" }] }

/-- A lab with one container and a network, and no link. -/
def containerLab : Lab :=
  { id := "lab", nodes := Dict.empty.set 1 containerNode
    networks := Dict.empty.set 1 { id := 1, name := "lan" } }

def beforeStart : Ledger where
  world := { host := { bridges := ["br"] } }

def startContainer : TokenCall 1 where
  action := .start tokenEnv containerLab 1 ⟨containerNode, rfl⟩

def attachContainer : TokenCall 1 where
  action := .attach ⟨fun _ => none, fun _ => "", fun _ _ => ""⟩ .docker 1 "br"

def detachContainer : TokenCall 1 where
  action := .detach .docker (some 1)

theorem reattached_token_fresh :
    ([startContainer, attachContainer, detachContainer, attachContainer].foldl (Ledger.step 0)
        beforeStart).issued = [1, 2] ∧
      TokensFresh 1 0 ([startContainer, attachContainer, detachContainer, attachContainer].foldl
        (Ledger.step 0) beforeStart) := by
  have hstart : TokenOk 0 beforeStart startContainer := fun _ => ⟨rfl, List.not_mem_nil⟩
  have hattach : TokenOk 0 ([startContainer].foldl (Ledger.step 0) beforeStart)
      attachContainer := by
    have hissued : ([startContainer].foldl (Ledger.step 0) beforeStart).issued = [] := by
      decide +kernel
    intro r _ _ s hs
    rw [hissued] at hs
    cases hs
  have hagain : TokenOk 0 ([startContainer, attachContainer, detachContainer].foldl
      (Ledger.step 0) beforeStart) attachContainer := by
    have hissued : ([startContainer, attachContainer, detachContainer].foldl (Ledger.step 0)
        beforeStart).issued = [1] := by decide +kernel
    have hcounter : ([startContainer, attachContainer, detachContainer].foldl (Ledger.step 0)
        beforeStart).world.counterAt 1 0 = 1 := by decide +kernel
    intro r hget _ s hs
    rw [hissued] at hs
    rw [World.counterAt_of_get? hget] at hcounter
    have hs1 := List.mem_singleton.mp hs
    omega
  have run : Run (Guarded (stepOf (Ledger.step 0)) (TokenOk 0)) beforeStart
      [startContainer, attachContainer, detachContainer, attachContainer]
      ([startContainer, attachContainer, detachContainer, attachContainer].foldl (Ledger.step 0)
        beforeStart) :=
    Run.cons ⟨hstart, rfl⟩ (Run.cons ⟨hattach, rfl⟩ (Run.cons ⟨trivial, rfl⟩
      (Run.single ⟨hagain, rfl⟩)))
  exact ⟨by decide +kernel, attach_tokens_fresh rfl rfl run⟩

/-- A restart puts the counter back: the next attach gets the stamp of the one before it. -/
theorem restart_repeats_token :
    ¬ TokensFresh 1 0 ([startContainer, attachContainer, detachContainer, ⟨.stop, []⟩,
      startContainer, attachContainer].foldl (Ledger.step 0) beforeStart) := by
  intro h
  have hissued : ([startContainer, attachContainer, detachContainer, ⟨.stop, []⟩, startContainer,
      attachContainer].foldl (Ledger.step 0) beforeStart).issued = [1, 1] := by decide +kernel
  have hdistinct := h.distinct
  rw [hissued] at hdistinct
  simp at hdistinct

end NovaVe
