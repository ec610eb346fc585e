import Mathlib.Data.List.Nodup
import NovaVe.Runs
import NovaVe.TokenSteps

namespace NovaVe

/-- A place that one holder at a time takes. A holder may be given the next number of the counter; a
request to empty the place names a number and is refused when the counter shows another. -/
structure Fence where
  held : Bool
  counter : Int
  /-- The numbers given so far, oldest first. -/
  issued : List Int
  /-- The number that the holder shows, if it has one. -/
  live : Option Int

def Fence.admits (fence : Fence) (number : Int) : Bool :=
  fence.held && decide (number = fence.counter)

/-- The changes that keep the numbers fresh. A new number is taken above all that were given, a
holder without a number stands on a counter that was never given, and a holder with one shows the
counter. -/
inductive Fence.Step (fence : Fence) : Fence → Prop
  | same : Fence.Step fence fence
  | clear (counter : Int) :
      Fence.Step fence { fence with held := false, counter := counter, live := none }
  | issue (hnew : ∀ s ∈ fence.issued, s ≤ fence.counter) :
      Fence.Step fence
        { held := true, counter := fence.counter + 1
          issued := fence.issued ++ [fence.counter + 1], live := some (fence.counter + 1) }
  | unnumbered (counter : Int) (hnew : counter ∉ fence.issued) :
      Fence.Step fence { fence with held := true, counter := counter, live := none }
  | numbered (counter : Int) :
      Fence.Step fence { fence with held := true, counter := counter, live := some counter }

/-- No number was given twice, and the counter tells the holder from those before it. -/
structure Fence.Sound (fence : Fence) : Prop where
  distinct : fence.issued.Nodup
  current : fence.held = true → ∀ g, fence.live = some g → fence.counter = g
  unnumbered : fence.held = true → fence.live = none → fence.counter ∉ fence.issued

theorem nodup_append_above {issued : List Int} {counter : Int} (h : issued.Nodup)
    (hnew : ∀ s ∈ issued, s ≤ counter) : (issued ++ [counter + 1]).Nodup := by
  refine List.nodup_append.mpr ⟨h, List.nodup_singleton _, ?_⟩
  intro s hs t ht
  have hle := hnew s hs
  have heq := List.mem_singleton.mp ht
  omega

theorem Fence.Step.sound {fence after : Fence} (step : fence.Step after) (h : fence.Sound) :
    after.Sound := by
  cases step with
  | same => exact h
  | clear counter =>
    refine ⟨h.distinct, ?_, ?_⟩
    · intro hheld
      cases hheld
    · intro hheld
      cases hheld
  | issue hnew =>
    refine ⟨nodup_append_above h.distinct hnew, ?_, ?_⟩
    · intro _ g hlive
      exact Option.some.inj hlive
    · intro _ hlive
      cases hlive
  | unnumbered counter hnew =>
    refine ⟨h.distinct, ?_, ?_⟩
    · intro _ g hlive
      cases hlive
    · intro _ _
      exact hnew
  | numbered counter =>
    refine ⟨h.distinct, ?_, ?_⟩
    · intro _ g hlive
      exact Option.some.inj hlive
    · intro _ hlive
      cases hlive

/-- A number that the holder does not show empties nothing. -/
theorem Fence.Sound.refuses {fence : Fence} (h : fence.Sound) {s : Int} (hs : s ∈ fence.issued)
    (hother : fence.live ≠ some s) : fence.admits s = false := by
  unfold Fence.admits
  cases hheld : fence.held with
  | false => rfl
  | true =>
    have hne : s ≠ fence.counter := by
      intro he
      cases hlive : fence.live with
      | none => exact h.unnumbered hheld hlive (he ▸ hs)
      | some g =>
        have hcounter := h.current hheld g hlive
        apply hother
        rw [hlive, he, hcounter]
    simp [hne]

/-- The `attach_generation` that lab.json keeps for the last link on an interface. -/
def linkStamp (links : List Link) (nodeId interfaceIndex : Int) : Option Int :=
  links.foldl (fun last l =>
    match l.attachment? with
    | some (n, i, _) =>
      if n = nodeId ∧ i = interfaceIndex then l.runtime.attachGeneration else last
    | none => last) none

/-- The calls on one node that touch its records; the labs they read are those of their time. -/
inductive TokenAction (nodeId : Int)
  | start (env : StartEnv) (lab : Lab) (nodeKey : Int) (node : { node : Node // node.id = nodeId })
  | stop
  | attach (source : NicSource) (kind : RuntimeKind) (networkId : Int) (bridge : String)
  | detach (kind : RuntimeKind) (expectedGeneration : Option Int)
  | rollback (kind : RuntimeKind)
  | reconcile (source : NicSource) (bridgeName : String → Int → String) (lab : Lab)

/-- A call, and how its commands end. -/
structure TokenCall (nodeId : Int) where
  action : TokenAction nodeId
  replies : List Reply := []

/-- An attach returns the `attach_generation` of the entry; nothing else does. -/
def TokenAction.run {nodeId : Int} (interfaceIndex : Int) : TokenAction nodeId → HostM (Option Int)
  | .start env lab nodeKey node => do
    startNode env lab nodeKey node.1
    pure none
  | .stop => do
    stopNode nodeId
    pure none
  | .attach source kind networkId bridge =>
    attachInterface source kind nodeId networkId interfaceIndex bridge
  | .detach kind expectedGeneration => do
    let _ ← detachInterface kind nodeId interfaceIndex expectedGeneration
    pure none
  | .rollback kind => do
    rollbackTarget kind nodeId interfaceIndex
    pure none
  | .reconcile source bridgeName lab => do
    reconcileQemuNodeLinks source bridgeName lab nodeId
    pure none

/-- The stamp that belongs to an attachment which the call made or changed: that of the link in the
lab it read, or the one that the attach returned and `create_link` writes on the link. -/
def TokenAction.liveStamp {nodeId : Int} (interfaceIndex : Int) (live stamp : Option Int) :
    TokenAction nodeId → Option Int
  | .start _ lab _ _ => linkStamp lab.links nodeId interfaceIndex
  | .attach _ _ _ _ => stamp
  | .reconcile _ _ lab => live.or (linkStamp lab.links nodeId interfaceIndex)
  | _ => live

/-- The world, the stamps of all attaches that made an entry, and the stamp on the link of the
attachment that is live. -/
structure Ledger where
  world : World := {}
  issued : List Int := []
  live : Option Int := none

def Ledger.note {nodeId : Int} (ledger : Ledger) (interfaceIndex : Int)
    (action : TokenAction nodeId) (stamp : Option Int) (t : World) : Ledger :=
  { world := t
    issued := if ledger.world.entryAt nodeId interfaceIndex = none then
      ledger.issued ++ stamp.toList else ledger.issued
    live :=
      if t.entryAt nodeId interfaceIndex = none then none
      else if t.entryAt nodeId interfaceIndex = ledger.world.entryAt nodeId interfaceIndex ∧
          t.counterAt nodeId interfaceIndex = ledger.world.counterAt nodeId interfaceIndex then
        ledger.live
      else action.liveStamp interfaceIndex ledger.live stamp }

/-- One call, whether it returns or raises. -/
def Ledger.step {nodeId : Int} (interfaceIndex : Int) (ledger : Ledger) (c : TokenCall nodeId) :
    Ledger :=
  match (c.action.run interfaceIndex).run { ledger.world with replies := c.replies } with
  | .ok stamp t => ledger.note interfaceIndex c.action stamp t
  | .error _ t => ledger.note interfaceIndex c.action none t

/-- The fence that the counter of an interface makes. -/
def Ledger.fence (ledger : Ledger) (nodeId interfaceIndex : Int) : Fence :=
  { held := (ledger.world.entryAt nodeId interfaceIndex).isSome
    counter := ledger.world.counterAt nodeId interfaceIndex
    issued := ledger.issued
    live := ledger.live }

/-- When a call keeps the stamps fresh. A start that makes a record finds no stamp on the link of
the interface; an attach that makes an entry finds the counter not below a stamp given before; a
reconcile finds on the link the stamp that the attachment was given, or on an unstamped link sets
the counter to a value that was never given. -/
def TokenOk {nodeId : Int} (interfaceIndex : Int) (ledger : Ledger) (c : TokenCall nodeId) : Prop :=
  match c.action with
  | .start _ lab _ _ =>
    (∀ r, ledger.world.runtimes.get? nodeId = some r → r.alive = false) →
      linkStamp lab.links nodeId interfaceIndex = none ∧ 0 ∉ ledger.issued
  | .attach _ _ _ _ =>
    ∀ r, ledger.world.runtimes.get? nodeId = some r → r.attachment? interfaceIndex = none →
      ∀ s ∈ ledger.issued, s ≤ r.generation interfaceIndex
  | .reconcile _ bridgeName lab =>
    ∀ r want, ledger.world.runtimes.get? nodeId = some r → r.alive = true → r.kind = .qemu →
      (expectedAttachments bridgeName lab nodeId r.bootEthernet).get? interfaceIndex = some want →
      match ledger.live with
      | some g => want.attachGeneration = g
      | none =>
        linkStamp lab.links nodeId interfaceIndex = some want.attachGeneration ∨
          (linkStamp lab.links nodeId interfaceIndex = none ∧
            want.attachGeneration ∉ ledger.issued)
  | _ => True

theorem Ledger.step_ends {nodeId i : Int} {ledger : Ledger} {c : TokenCall nodeId}
    {returns : Option Int → World → Prop} {raises : Exc → World → Prop}
    (h : Ends (c.action.run i) { ledger.world with replies := c.replies } returns raises) :
    (∃ stamp t, returns stamp t ∧ ledger.step i c = ledger.note i c.action stamp t) ∨
      ∃ e t, raises e t ∧ ledger.step i c = ledger.note i c.action none t := by
  unfold Ends at h
  unfold Ledger.step
  split at h
  next stamp t hrun =>
    rw [hrun]
    exact Or.inl ⟨stamp, t, h, rfl⟩
  next e t hrun =>
    rw [hrun]
    exact Or.inr ⟨e, t, h, rfl⟩

theorem Ledger.fence_eq {nodeId i : Int} {ledger : Ledger} {fence : Fence}
    (hheld : (ledger.world.entryAt nodeId i).isSome = fence.held)
    (hcounter : ledger.world.counterAt nodeId i = fence.counter)
    (hissued : ledger.issued = fence.issued) (hlive : ledger.live = fence.live) :
    ledger.fence nodeId i = fence := by
  unfold Ledger.fence
  rw [hheld, hcounter, hissued, hlive]

/-- The record has one entry an interface, and the stamps and the counter fit. -/
structure Ledger.Kept (ledger : Ledger) (nodeId interfaceIndex : Int) : Prop where
  oneEntry : ledger.world.OneEntry nodeId
  sound : (ledger.fence nodeId interfaceIndex).Sound

theorem Ledger.note_issued {nodeId i : Int} {ledger : Ledger} (action : TokenAction nodeId)
    {stamp : Option Int} (t : World)
    (hstamp : ledger.world.entryAt nodeId i = none → stamp = none) :
    (ledger.note i action stamp t).issued = ledger.issued := by
  unfold Ledger.note
  dsimp only
  split
  next hnone => simp [hstamp hnone]
  next => rfl

theorem Ledger.Kept.note_leaves {nodeId i : Int} {ledger : Ledger} (h : ledger.Kept nodeId i)
    (action : TokenAction nodeId) {stamp : Option Int} {t : World}
    (hleaves : ledger.world.Leaves t nodeId i)
    (hstamp : ledger.world.entryAt nodeId i = none → stamp = none) :
    (ledger.note i action stamp t).Kept nodeId i := by
  obtain ⟨hone, hcase⟩ := hleaves h.oneEntry
  have hissued := ledger.note_issued action t hstamp
  refine ⟨hone, ?_⟩
  by_cases hentry : t.entryAt nodeId i = none
  · have hfence : (ledger.note i action stamp t).fence nodeId i =
        { ledger.fence nodeId i with
          held := false, counter := t.counterAt nodeId i, live := none } := by
      apply Ledger.fence_eq
      · show (t.entryAt nodeId i).isSome = false
        rw [hentry, Option.isSome_none]
      · rfl
      · exact hissued
      · exact if_pos hentry
    rw [hfence]
    exact (Fence.Step.clear (t.counterAt nodeId i)).sound h.sound
  · have hsame := hcase.resolve_right hentry
    have hfence : (ledger.note i action stamp t).fence nodeId i = ledger.fence nodeId i := by
      apply Ledger.fence_eq
      · show (t.entryAt nodeId i).isSome = (ledger.world.entryAt nodeId i).isSome
        rw [hsame.1]
      · exact hsame.2
      · exact hissued
      · show (if t.entryAt nodeId i = none then none else _) = ledger.live
        rw [if_neg hentry, if_pos hsame]
    rw [hfence]
    exact h.sound

/-- An attachment that a start or a reconcile made or changed: its link shows the counter, or nothing
while the counter is a value that was never given. -/
theorem Ledger.Kept.note_remade {nodeId i : Int} {ledger : Ledger} (h : ledger.Kept nodeId i)
    {action : TokenAction nodeId} {t : World} (hone : t.OneEntry nodeId)
    (hlive : action.liveStamp i ledger.live none = some (t.counterAt nodeId i) ∨
      (action.liveStamp i ledger.live none = none ∧
        t.counterAt nodeId i ∉ ledger.issued)) :
    (ledger.note i action none t).Kept nodeId i := by
  by_cases hentry : t.entryAt nodeId i = none
  · exact h.note_leaves action (fun _ => ⟨hone, Or.inr hentry⟩) (fun _ => rfl)
  · by_cases hsame : t.entryAt nodeId i = ledger.world.entryAt nodeId i ∧
        t.counterAt nodeId i = ledger.world.counterAt nodeId i
    · exact h.note_leaves action (fun _ => ⟨hone, Or.inl hsame⟩) (fun _ => rfl)
    · refine ⟨hone, ?_⟩
      have hfence : (ledger.note i action none t).fence nodeId i =
          { ledger.fence nodeId i with
            held := true, counter := t.counterAt nodeId i
            live := action.liveStamp i ledger.live none } := by
        apply Ledger.fence_eq
        · exact Option.isSome_iff_ne_none.mpr hentry
        · rfl
        · exact ledger.note_issued action t (fun _ => rfl)
        · show (if t.entryAt nodeId i = none then none else _) = _
          rw [if_neg hentry, if_neg hsame]
      rw [hfence]
      rcases hlive with hnumber | ⟨hnumber, hnew⟩
      · rw [hnumber]
        exact (Fence.Step.numbered (t.counterAt nodeId i)).sound h.sound
      · rw [hnumber]
        exact (Fence.Step.unnumbered (t.counterAt nodeId i) hnew).sound h.sound

/-- An attach that makes an entry takes the next number. -/
theorem Ledger.Kept.note_attach {nodeId i : Int} {ledger : Ledger} (h : ledger.Kept nodeId i)
    {source : NicSource} {kind : RuntimeKind} {networkId : Int} {bridge : String}
    {stamp : Option Int} {t : World} (hattach : ledger.world.Attaches t nodeId i stamp)
    (hok : ∀ r, ledger.world.runtimes.get? nodeId = some r → r.attachment? i = none →
      ∀ s ∈ ledger.issued, s ≤ r.generation i) :
    (ledger.note i (@TokenAction.attach nodeId source kind networkId bridge) stamp t).Kept
      nodeId i := by
  rcases hattach with ⟨hthere, hleaves⟩ | ⟨r, hget, hnone, hstamp, hone, hentry, hcounter⟩
  · exact h.note_leaves _ hleaves (fun hnone => absurd hnone hthere)
  · have hfree : ledger.world.entryAt nodeId i = none := by
      rw [World.entryAt_of_get? hget, hnone]
    have hbefore : ledger.world.counterAt nodeId i = r.generation i :=
      World.counterAt_of_get? hget i
    refine ⟨hone h.oneEntry, ?_⟩
    have hfence : (ledger.note i (@TokenAction.attach nodeId source kind networkId bridge)
        stamp t).fence nodeId i =
        { held := true, counter := (ledger.fence nodeId i).counter + 1
          issued := (ledger.fence nodeId i).issued ++ [(ledger.fence nodeId i).counter + 1]
          live := some ((ledger.fence nodeId i).counter + 1) } := by
      apply Ledger.fence_eq
      · exact Option.isSome_iff_ne_none.mpr hentry
      · show t.counterAt nodeId i = ledger.world.counterAt nodeId i + 1
        rw [hcounter, hbefore]
      · show (if ledger.world.entryAt nodeId i = none then ledger.issued ++ stamp.toList
          else ledger.issued) = ledger.issued ++ [ledger.world.counterAt nodeId i + 1]
        rw [if_pos hfree, hstamp, hbefore]
        rfl
      · have hchanged : ¬ (t.entryAt nodeId i = ledger.world.entryAt nodeId i ∧
            t.counterAt nodeId i = ledger.world.counterAt nodeId i) := by
          intro hsame
          apply hentry
          rw [hsame.1, hfree]
        show (if t.entryAt nodeId i = none then none else _) =
          some (ledger.world.counterAt nodeId i + 1)
        rw [if_neg hentry, if_neg hchanged, hbefore]
        exact hstamp
    rw [hfence]
    refine (Fence.Step.issue (fun s hs => ?_)).sound h.sound
    have hle := hok r hget hnone s hs
    show s ≤ ledger.world.counterAt nodeId i
    omega

end NovaVe
