import NovaVe.LockRequests

namespace NovaVe

/-- Nothing held is to be released before the next await. -/
def Quiet (held : List LockName) : Prop :=
  ∀ lock ∈ held, lockKinds.kind lock ≠ .brief

theorem follows_all {codes : List LockCode} {held : List LockName}
    (h : ∀ code ∈ codes, code.Follows (loopRules lockKinds) held) :
    (LockCode.all codes).Follows (loopRules lockKinds) held := by
  induction codes with
  | nil => trivial
  | cons code rest ih =>
    refine ⟨h code List.mem_cons_self, ih ?_⟩
    exact fun other hother => h other (List.mem_cons_of_mem _ hother)

theorem follows_map_all {α : Type} {f : α → LockCode} {xs : List α} {held : List LockName}
    (h : ∀ x ∈ xs, (f x).Follows (loopRules lockKinds) held) :
    (LockCode.all (xs.map f)).Follows (loopRules lockKinds) held := by
  apply follows_all
  intro code hcode
  obtain ⟨x, hx, he⟩ := List.mem_map.mp hcode
  exact he ▸ h x hx

theorem follows_bestEffort {code : LockCode} {held : List LockName}
    (h : code.Follows (loopRules lockKinds) held) :
    (bestEffort code).Follows (loopRules lockKinds) held :=
  ⟨h, trivial⟩

theorem follows_labLock {labPath : String} {body : LockCode} {held : List LockName}
    (hfree : .labLock labPath ∉ held)
    (hbody : body.Follows (loopRules lockKinds) (.labLock labPath :: held)) :
    (labLock labPath body).Follows (loopRules lockKinds) held :=
  ⟨⟨fun he => LockKind.noConfusion he, fun hmem => absurd hmem hfree⟩, hbody⟩

theorem follows_natCloudIpamLock {body : LockCode} {held : List LockName}
    (hfree : .natCloudIpamLock ∉ held)
    (hbody : body.Follows (loopRules lockKinds) (.natCloudIpamLock :: held)) :
    (natCloudIpamLock body).Follows (loopRules lockKinds) held :=
  ⟨⟨fun he => LockKind.noConfusion he, fun hmem => absurd hmem hfree⟩, hbody⟩

/-- A node mutex may be taken under anything: its thread may have it already. -/
theorem follows_acquireNodeSync {labId : String} {nodeId : Int} {body : LockCode}
    {held : List LockName}
    (hbody : body.Follows (loopRules lockKinds) (.nodeMutex labId nodeId :: held)) :
    (acquireNodeSync labId nodeId body).Follows (loopRules lockKinds) held :=
  ⟨⟨fun he => LockKind.noConfusion he, fun _ => trivial⟩, hbody⟩

theorem follows_nodes (labId : String) (nodeIds : List Int) (held : List LockName) :
    (LockCode.all (nodeIds.map (fun nodeId => acquireNodeSync labId nodeId .skip))).Follows
      (loopRules lockKinds) held := by
  apply follows_map_all
  intro nodeId _
  exact follows_acquireNodeSync trivial

theorem follows_reconcileAll (labId : String) (nodeIds : List Int) (held : List LockName) :
    (reconcileAll labId nodeIds).Follows (loopRules lockKinds) held :=
  follows_bestEffort (follows_nodes labId nodeIds held)

theorem follows_publishEvents (count : Nat) {held : List LockName} (h : Quiet held) :
    (publishEvents count).Follows (loopRules lockKinds) held := by
  apply follows_all
  intro code hcode
  rw [List.eq_of_mem_replicate hcode]
  exact h

theorem sortedKeys_pairwise {keys : List (Int × Int)} (h : keys.Nodup) :
    (sortedKeys keys).Pairwise (fun a b => toLex a < toLex b) := by
  have hle : (sortedKeys keys).Pairwise (fun a b => toLex a ≤ toLex b) := by
    have htotal : Std.Total (fun a b : Int × Int => toLex a ≤ toLex b) :=
      ⟨fun a b => le_total (toLex a) (toLex b)⟩
    have htrans : IsTrans (Int × Int) (fun a b => toLex a ≤ toLex b) :=
      ⟨fun _ _ _ hab hbc => le_trans hab hbc⟩
    exact List.pairwise_insertionSort _ keys
  have hne : (sortedKeys keys).Nodup := (List.perm_insertionSort _ keys).nodup_iff.mpr h
  refine (hle.and hne).imp ?_
  intro a b hab
  exact lt_of_le_of_ne hab.1 (fun he => hab.2 (toLex.injective he))

/-- The locks under the body of a link call: those held before and its interface mutexes. -/
def LinkHeld (labId : String) (outer inner : List LockName) : Prop :=
  ∀ lock ∈ inner, lock ∈ outer ∨ ∃ key : Int × Int, lock = .runtimeMutex labId key.1 key.2

/-- The mutexes of a call in their order, and below them only those. -/
theorem follows_acquireAll {labId : String} {keys : List (Int × Int)} {body : LockCode}
    {held : List LockName} (hsorted : keys.Pairwise (fun a b => toLex a < toLex b))
    (hquiet : Quiet held)
    (hbelow : ∀ lock ∈ held, lockKinds.kind lock = .mutex →
      ∀ key ∈ keys, lockKinds.rank lock < toLex key)
    (hbody : ∀ inner, LinkHeld labId held inner → body.Follows (loopRules lockKinds) inner) :
    (acquireAll labId keys body).Follows (loopRules lockKinds) held := by
  induction keys generalizing held with
  | nil => exact hbody held (fun lock hlock => Or.inl hlock)
  | cons key rest ih =>
    obtain ⟨hkey, hrest⟩ := List.pairwise_cons.mp hsorted
    refine ⟨⟨rfl, ?_⟩, ih hrest ?_ ?_ ?_⟩
    · intro lock hlock
      exact ⟨hquiet lock hlock, fun hk => hbelow lock hlock hk key List.mem_cons_self⟩
    · intro lock hlock
      rcases List.mem_cons.mp hlock with he | hlock
      · rw [he]
        exact fun he => LockKind.noConfusion he
      · exact hquiet lock hlock
    · intro lock hlock hk other hother
      rcases List.mem_cons.mp hlock with he | hlock
      · rw [he]
        exact hkey other hother
      · exact hbelow lock hlock hk other (List.mem_cons_of_mem _ hother)
    · intro inner hinner
      refine hbody inner (fun lock hlock => ?_)
      rcases hinner lock hlock with hlock | hmutex
      · rcases List.mem_cons.mp hlock with he | hlock
        · exact Or.inr ⟨key, he⟩
        · exact Or.inl hlock
      · exact Or.inr hmutex

/-- A link call does not ask twice for one interface, nor for the lab lock that is held while it
hot-attaches. -/
def LinkCall.SelfFree (call : LinkCall) (lockedPath : String) : Prop :=
  call.nodeKeys.Nodup ∧ ∀ nic ∈ call.hotNics, nic.plannedMac = true →
    plannedMacFile call.labs call.labId ≠ some lockedPath

def UnlinkCall.SelfFree (call : UnlinkCall) : Prop :=
  call.nodeKeys.Nodup

/-- No request waits for a lock that it has. -/
def LockRequest.SelfFree : LockRequest → Prop
  | .createLink call => call.SelfFree call.labPath
  | .deleteLink call => call.SelfFree
  | .createNodesFromPairedTemplate call =>
    (∀ link ∈ call.links, link.SelfFree call.labPath) ∧
      ∀ link ∈ call.undone, link.SelfFree ∧
        (link.ipOwner = some call.labPath → link.labPath = call.labPath)
  | _ => True

theorem LinkHeld.quiet {labId : String} {outer inner : List LockName}
    (h : LinkHeld labId outer inner) (houter : Quiet outer) : Quiet inner := by
  intro lock hlock
  rcases h lock hlock with hlock | ⟨key, he⟩
  · exact houter lock hlock
  · rw [he]
    exact fun he => LockKind.noConfusion he

theorem LinkHeld.labLock {labId : String} {outer inner : List LockName} {labPath : String}
    (h : LinkHeld labId outer inner) (houter : .labLock labPath ∉ outer) :
    .labLock labPath ∉ inner := by
  intro hmem
  rcases h _ hmem with hlock | ⟨key, he⟩
  · exact houter hlock
  · cases he

theorem LinkHeld.ipam {labId : String} {outer inner : List LockName}
    (h : LinkHeld labId outer inner) (houter : Quiet outer) : .natCloudIpamLock ∉ inner := by
  intro hmem
  exact h.quiet houter _ hmem rfl

theorem follows_persistPlannedMac {labs : Labs} {labId : String} {held : List LockName}
    (h : ∀ labPath, plannedMacFile labs labId = some labPath → .labLock labPath ∉ held) :
    (persistPlannedMacCode labs labId).Follows (loopRules lockKinds) held := by
  unfold persistPlannedMacCode
  cases hfile : plannedMacFile labs labId with
  | none => trivial
  | some labPath => exact follows_labLock (h labPath hfile) trivial

theorem follows_hotAttach {call : LinkCall} {held : List LockName}
    (h : ∀ nic ∈ call.hotNics, nic.plannedMac = true →
      ∀ labPath, plannedMacFile call.labs call.labId = some labPath → .labLock labPath ∉ held) :
    (hotAttachCode call).Follows (loopRules lockKinds) held := by
  refine ⟨follows_map_all ?_, follows_map_all ?_⟩
  · intro nic _
    apply follows_all
    intro code hcode
    rw [List.eq_of_mem_replicate hcode]
    exact follows_bestEffort (follows_acquireNodeSync trivial)
  · intro nic hnic
    refine follows_acquireNodeSync ⟨?_, ?_⟩
    · cases nic.hotPlug with
      | true => exact follows_acquireNodeSync trivial
      | false => trivial
    · cases hmac : nic.plannedMac with
      | false => trivial
      | true =>
        refine follows_bestEffort (follows_persistPlannedMac ?_)
        intro labPath hfile hmem
        rcases List.mem_cons.mp hmem with he | hmem
        · cases he
        · exact h nic hnic hmac labPath hfile hmem

theorem mem_outer {labLockHeld : Bool} {lockedPath : String} {held : List LockName}
    (h : held = if labLockHeld then [.labLock lockedPath] else []) :
    ∀ lock ∈ held, lock = .labLock lockedPath := by
  intro lock hlock
  rw [h] at hlock
  cases labLockHeld with
  | true => exact List.mem_singleton.mp hlock
  | false => exact absurd hlock List.not_mem_nil

theorem quiet_outer {lockedPath : String} {held : List LockName}
    (h : ∀ lock ∈ held, lock = .labLock lockedPath) : Quiet held := by
  intro lock hlock
  rw [h lock hlock]
  exact fun he => LockKind.noConfusion he

/-- `create_link` on its own, or under the lab lock of its caller. -/
theorem follows_createLink {call : LinkCall} {labLockHeld : Bool} {lockedPath : String}
    {held : List LockName} (h : call.SelfFree lockedPath)
    (hheld : held = if labLockHeld then [.labLock lockedPath] else [])
    (hpath : labLockHeld = false → lockedPath = call.labPath) :
    (createLinkCode call labLockHeld).Follows (loopRules lockKinds) held := by
  have honly : ∀ lock ∈ held, lock = .labLock lockedPath := mem_outer hheld
  have hquiet : Quiet held := quiet_outer honly
  refine follows_acquireAll (sortedKeys_pairwise h.1) hquiet ?_ ?_
  · intro lock hlock hk
    rw [honly lock hlock] at hk
    cases hk
  · intro inner hinner
    refine ⟨?_, follows_publishEvents call.events (hinner.quiet hquiet)⟩
    cases labLockHeld with
    | true =>
      refine ⟨follows_hotAttach ?_, follows_reconcileAll _ _ _⟩
      intro nic hnic hmac labPath hfile hmem
      rcases hinner _ hmem with hmem | ⟨key, he⟩
      · have hsame : labPath = lockedPath := LockName.labLock.inj (honly _ hmem)
        exact h.2 nic hnic hmac (hsame ▸ hfile)
      · cases he
    | false =>
      have hlocked := hpath rfl
      have hnot : ∀ labPath, LockName.labLock labPath ∉ inner := by
        intro labPath
        refine hinner.labLock ?_
        rw [hheld]
        exact List.not_mem_nil
      refine follows_labLock (hnot _) ⟨follows_hotAttach ?_, follows_reconcileAll _ _ _⟩
      intro nic hnic hmac labPath hfile hmem
      rcases List.mem_cons.mp hmem with he | hmem
      · have hsame : labPath = lockedPath := (LockName.labLock.inj he).trans hlocked.symm
        exact h.2 nic hnic hmac (hsame ▸ hfile)
      · exact hnot labPath hmem

theorem follows_releaseIp {labPath owner : String} {labLockHeld : Bool} {held : List LockName}
    (hipam : .natCloudIpamLock ∉ held)
    (hlocks : labLockHeld = false → ∀ path, .labLock path ∉ held)
    (howner : labLockHeld = true → owner ≠ labPath → .labLock owner ∉ held) :
    (releaseIpCode labPath owner labLockHeld).Follows (loopRules lockKinds) held := by
  unfold releaseIpCode
  cases labLockHeld with
  | true =>
    simp only [if_true]
    split
    · trivial
    · next hne => exact follows_labLock (howner rfl hne) trivial
  | false =>
    simp only [Bool.false_eq_true, if_false]
    have hnot : ∀ path, LockName.labLock path ∉ LockName.natCloudIpamLock :: held := by
      intro path hmem
      rcases List.mem_cons.mp hmem with he | hmem
      · cases he
      · exact hlocks rfl path hmem
    exact follows_natCloudIpamLock hipam
      ⟨follows_labLock (hnot _) trivial, follows_labLock (hnot _) trivial⟩

theorem follows_deleteLink {call : UnlinkCall} {labLockHeld : Bool} {lockedPath : String}
    {held : List LockName} (h : call.SelfFree)
    (hheld : held = if labLockHeld then [.labLock lockedPath] else [])
    (howner : labLockHeld = true → call.ipOwner = some lockedPath → call.labPath = lockedPath) :
    (deleteLinkCode call labLockHeld).Follows (loopRules lockKinds) held := by
  have honly : ∀ lock ∈ held, lock = .labLock lockedPath := mem_outer hheld
  have hquiet : Quiet held := quiet_outer honly
  refine follows_acquireAll (sortedKeys_pairwise h) hquiet ?_ ?_
  · intro lock hlock hk
    rw [honly lock hlock] at hk
    cases hk
  · intro inner hinner
    have hnone : labLockHeld = false → ∀ path, LockName.labLock path ∉ inner := by
      intro hf path
      refine hinner.labLock ?_
      rw [hheld, hf]
      exact List.not_mem_nil
    refine ⟨follows_nodes _ _ _, ?_, ?_, follows_publishEvents call.events (hinner.quiet hquiet)⟩
    · cases hip : call.ipOwner with
      | none => trivial
      | some owner =>
        refine follows_releaseIp (hinner.ipam hquiet) hnone ?_
        intro ht hne hmem
        rcases hinner _ hmem with hmem | ⟨key, he⟩
        · have hsame : owner = lockedPath := LockName.labLock.inj (honly _ hmem)
          exact hne (hsame.trans (howner ht (hsame ▸ hip)).symm)
        · cases he
    · cases labLockHeld with
      | true => exact follows_reconcileAll _ _ _
      | false => exact follows_labLock (hnone rfl _) (follows_reconcileAll _ _ _)

theorem follows_paired {call : PairedCall}
    (hlinks : ∀ link ∈ call.links, link.SelfFree call.labPath)
    (hundone : ∀ link ∈ call.undone, link.SelfFree ∧
      (link.ipOwner = some call.labPath → link.labPath = call.labPath)) :
    (pairedCode call).Follows (loopRules lockKinds) [] := by
  refine follows_labLock List.not_mem_nil ⟨follows_map_all ?_, follows_map_all ?_⟩
  · intro link hlink
    exact follows_createLink (hlinks link hlink) rfl (fun hf => Bool.noConfusion hf)
  · intro link hlink
    obtain ⟨hfree, howner⟩ := hundone link hlink
    exact follows_bestEffort (follows_deleteLink hfree rfl (fun _ => howner))

theorem follows_ensureLabBridges (labPath labId : String) (owners : List String)
    (qemuNodes : List Int) :
    (ensureLabBridgesCode labPath labId owners qemuNodes).Follows (loopRules lockKinds) [] := by
  refine ⟨follows_labLock List.not_mem_nil (follows_map_all ?_), follows_map_all ?_⟩
  · intro owner _
    split
    · trivial
    · next hne =>
      refine follows_labLock ?_ trivial
      intro hmem
      exact hne (LockName.labLock.inj (List.mem_singleton.mp hmem))
  · intro nodeId _
    exact follows_bestEffort (follows_acquireNodeSync trivial)

theorem quiet_nil : Quiet [] :=
  fun _ h => absurd h List.not_mem_nil

theorem follows_natCloud_labLock (labPath : String) :
    (natCloudIpamLock (labLock labPath .skip)).Follows (loopRules lockKinds) [] := by
  refine follows_natCloudIpamLock List.not_mem_nil (follows_labLock ?_ trivial)
  intro hmem
  cases List.mem_singleton.mp hmem

theorem follows_createNetwork (labPath : String) (natCloud : Bool) (events : Nat) :
    (createNetworkCode labPath natCloud events).Follows (loopRules lockKinds) [] := by
  refine ⟨?_, follows_publishEvents events quiet_nil⟩
  cases natCloud with
  | true => exact follows_natCloud_labLock labPath
  | false => exact follows_labLock List.not_mem_nil trivial

theorem follows_heartbeat (labPaths : List String) :
    (heartbeatCode labPaths).Follows (loopRules lockKinds) [] := by
  apply follows_map_all
  intro labPath _
  refine ⟨quiet_nil, follows_bestEffort ?_, follows_bestEffort quiet_nil⟩
  exact follows_labLock List.not_mem_nil trivial

/-- Every request that asks for no lock it has keeps to the rules of its thread. -/
theorem LockRequest.follows {request : LockRequest} (h : request.SelfFree) :
    request.program.2.Follows (rulesOn lockKinds request.program.1) [] := by
  cases request with
  | createLink call => exact follows_createLink h rfl (fun _ => rfl)
  | deleteLink call =>
    exact @follows_deleteLink call false call.labPath [] h rfl (fun hf => Bool.noConfusion hf)
  | createNodesFromPairedTemplate call => exact follows_paired h.1 h.2
  | editLab labPath events =>
    exact ⟨follows_labLock List.not_mem_nil trivial, follows_publishEvents events quiet_nil⟩
  | updateTopology labPath labId qemuNodes =>
    exact follows_labLock List.not_mem_nil (follows_reconcileAll _ _ _)
  | ensureLabBridges labPath labId owners qemuNodes => exact follows_ensureLabBridges _ _ _ _
  | createNetwork labPath natCloud events => exact follows_createNetwork _ _ _
  | deleteNetwork labPath events =>
    exact ⟨follows_natCloud_labLock labPath, follows_publishEvents events quiet_nil⟩
  | allocateIp labPath owner =>
    have hnot : ∀ path, LockName.labLock path ∉ [LockName.natCloudIpamLock] := by
      intro path hmem
      cases List.mem_singleton.mp hmem
    exact follows_natCloudIpamLock List.not_mem_nil
      ⟨follows_labLock (hnot _) trivial, follows_labLock (hnot _) trivial⟩
  | startNode labId nodeId qemu =>
    cases qemu with
    | true => exact ⟨⟨rfl, rfl, rfl⟩, trivial⟩
    | false => trivial
  | stopNode labId nodeId qemu =>
    cases qemu with
    | true => exact follows_acquireNodeSync trivial
    | false => trivial
  | heartbeat labPaths => exact follows_heartbeat labPaths

end NovaVe
