import NovaVe.DynamipsNodes

namespace NovaVe

theorem nioName_injective {labId : String} {nodeId i j : Int}
    (h : nioName labId nodeId i = nioName labId nodeId j) : i = j := by
  unfold nioName at h
  have hlist := String.ofList_inj.mp h
  rw [List.append_right_inj] at hlist
  exact intText_injective hlist

/-- Every NIO that was created is still there. -/
def NioTable.Kept (nios : NioTable) : Prop := ∀ name ∈ nios.created, name ∈ nios.present

theorem NioTable.Kept.balanced_iff {nios : NioTable} (h : nios.Kept) :
    nios.Balanced ↔ nios.created = [] := by
  constructor
  · intro hbalanced
    rw [List.eq_nil_iff_forall_not_mem]
    intro name hname
    exact hbalanced name hname (h name hname)
  · intro hnil name hname
    rw [hnil] at hname
    exact absurd hname List.not_mem_nil

theorem mem_delete {nios : NioTable} {name other : String} :
    other ∈ (nios.delete name).present ↔ other ∈ nios.present ∧ other ≠ name := by
  unfold NioTable.delete
  rw [List.mem_filter, decide_eq_true_eq]

theorem foldl_delete (names : List String) (nios : NioTable) :
    (names.foldl NioTable.delete nios).created = nios.created ∧
      ∀ other, other ∈ (names.foldl NioTable.delete nios).present ↔
        other ∈ nios.present ∧ other ∉ names := by
  induction names generalizing nios with
  | nil => simp
  | cons name rest ih =>
    obtain ⟨hcreated, hpresent⟩ := ih (nios.delete name)
    rw [List.foldl_cons]
    refine ⟨hcreated, ?_⟩
    intro other
    rw [hpresent, mem_delete, List.mem_cons, not_or]
    exact and_assoc

/-- After the sweep a name is free, and only a refusal keeps it from being created. -/
theorem create_deleted (host : DynamipsHost) (nios : NioTable) (name tap : String) :
    (nios.delete name).create host name tap =
      if host.refuses (.nioCreateTap name tap) = true then none
      else some { present := name :: (nios.delete name).present, created := nios.created ++ [name] } := by
  have hfree : (nios.delete name).present.contains name = false := by
    rw [List.contains_eq_mem, decide_eq_false_iff_not, mem_delete]
    intro h
    exact h.2 rfl
  unfold NioTable.create
  rw [hfree, Bool.false_or]
  rfl

theorem NioTable.Kept.delete {nios : NioTable} (h : nios.Kept) {name : String}
    (hnew : name ∉ nios.created) : (nios.delete name).Kept := by
  intro other hother
  refine mem_delete.mpr ⟨h other hother, ?_⟩
  intro heq
  subst heq
  exact hnew hother

theorem NioTable.Kept.create {nios : NioTable} (h : nios.Kept) {name : String}
    (hnew : name ∉ nios.created) :
    NioTable.Kept { present := name :: (nios.delete name).present, created := nios.created ++ [name] } := by
  intro other hother
  rcases List.mem_append.mp hother with hold | hlast
  · exact List.mem_cons_of_mem _ (h.delete hnew other hold)
  · rw [List.mem_singleton.mp hlast]
    exact List.mem_cons_self

/-- What the wiring of the attachments comes to, from any point of it on. -/
structure WiringResult (host : DynamipsHost) (labId : String) (nodeId : Int)
    (inventory : SlotInventory) (attachments : List BootAttachment) (done : Wired) (nios : NioTable)
    (result : Option Wired × NioTable) : Prop where
  kept : result.2.Kept
  created : ∃ made, result.2.created = nios.created ++ made ∧
    (made = [] ↔ ∀ first rest, attachments = first :: rest →
      ¬ CreatesNio host labId nodeId inventory first)
  succeeds : (∃ wired, result.1 = some wired) ↔
    ∀ attachment ∈ attachments, WiresNio host labId nodeId inventory attachment
  wired : ∀ wired, result.1 = some wired →
    wired.taps.length = done.taps.length + attachments.length ∧
      wired.nios = done.nios ++ attachments.map (fun a => nioName labId nodeId a.interfaceIndex) ∧
        result.2.created =
          nios.created ++ attachments.map (fun a => nioName labId nodeId a.interfaceIndex)

/-- The wiring ends at an attachment whose NIO is not created. -/
theorem WiringResult.refused {host : DynamipsHost} {labId : String} {nodeId : Int}
    {inventory : SlotInventory} {attachment : BootAttachment} {rest : List BootAttachment}
    {done : Wired} {nios after : NioTable} (hkept : after.Kept)
    (hcreated : after.created = nios.created)
    (hnot : ¬ CreatesNio host labId nodeId inventory attachment) :
    WiringResult host labId nodeId inventory (attachment :: rest) done nios (none, after) where
  kept := hkept
  created := by
    refine ⟨[], by rw [List.append_nil]; exact hcreated, ?_⟩
    constructor
    · intro _ first others hlist
      obtain ⟨rfl, _⟩ := List.cons.inj hlist
      exact hnot
    · intro _
      rfl
  succeeds := by
    constructor
    · intro h
      obtain ⟨wired, hwired⟩ := h
      cases hwired
    · intro h
      obtain ⟨slot, port, tap, hport, htap, hcreate, _⟩ := h attachment List.mem_cons_self
      exact absurd ⟨slot, port, tap, hport, htap, hcreate⟩ hnot
  wired := by
    intro wired hwired
    cases hwired

/-- The NIO of an attachment is created, and its binding is refused. -/
theorem WiringResult.unbound {host : DynamipsHost} {labId : String} {nodeId : Int}
    {inventory : SlotInventory} {attachment : BootAttachment} {rest : List BootAttachment}
    {done : Wired} {nios after : NioTable} {name : String} (hkept : after.Kept)
    (hcreated : after.created = nios.created ++ [name])
    (hcreates : CreatesNio host labId nodeId inventory attachment)
    (hnot : ¬ WiresNio host labId nodeId inventory attachment) :
    WiringResult host labId nodeId inventory (attachment :: rest) done nios (none, after) where
  kept := hkept
  created := by
    refine ⟨[name], hcreated, ?_⟩
    constructor
    · intro h
      cases h
    · intro h
      exact absurd hcreates (h attachment rest rfl)
  succeeds := by
    constructor
    · intro h
      obtain ⟨wired, hwired⟩ := h
      cases hwired
    · intro h
      exact absurd (h attachment List.mem_cons_self) hnot
  wired := by
    intro wired hwired
    cases hwired

/-- An attachment is wired, and the wiring goes on with the others. -/
theorem WiringResult.next {host : DynamipsHost} {labId : String} {nodeId : Int}
    {inventory : SlotInventory} {attachment : BootAttachment} {rest : List BootAttachment}
    {done : Wired} {tap : String} {nios after : NioTable} {result : Option Wired × NioTable}
    (hcreated : after.created = nios.created ++ [nioName labId nodeId attachment.interfaceIndex])
    (hcreates : CreatesNio host labId nodeId inventory attachment)
    (hwires : WiresNio host labId nodeId inventory attachment)
    (h : WiringResult host labId nodeId inventory rest
      { taps := done.taps ++ [tap]
        nios := done.nios ++ [nioName labId nodeId attachment.interfaceIndex] } after result) :
    WiringResult host labId nodeId inventory (attachment :: rest) done nios result where
  kept := h.kept
  created := by
    obtain ⟨made, hmade, _⟩ := h.created
    refine ⟨_, by rw [hmade, hcreated, List.append_assoc], ?_⟩
    constructor
    · intro hnil
      cases hnil
    · intro hnone
      exact absurd hcreates (hnone attachment rest rfl)
  succeeds := by
    rw [h.succeeds, List.forall_mem_cons]
    exact ⟨fun hrest => ⟨hwires, hrest⟩, fun hall => hall.2⟩
  wired := by
    intro wired hsome
    obtain ⟨htaps, hnios, hmade⟩ := h.wired wired hsome
    rw [List.length_append, List.length_singleton] at htaps
    rw [List.append_assoc] at hnios
    rw [hcreated, List.append_assoc] at hmade
    refine ⟨?_, hnios, hmade⟩
    rw [List.length_cons]
    omega

theorem wireAttachments_spec (host : DynamipsHost) (labId : String) (nodeId : Int)
    (inventory : SlotInventory) {attachments : List BootAttachment} {done : Wired} {nios : NioTable}
    (hkept : nios.Kept) (hdistinct : (attachments.map BootAttachment.interfaceIndex).Nodup)
    (hnew : ∀ a ∈ attachments, nioName labId nodeId a.interfaceIndex ∉ nios.created) :
    WiringResult host labId nodeId inventory attachments done nios
      (wireAttachments host labId nodeId inventory attachments done nios) := by
  induction attachments generalizing done nios with
  | nil =>
    refine ⟨hkept, ⟨[], (List.append_nil _).symm, ?_⟩, ?_, ?_⟩
    · constructor
      · intro _ first rest hlist
        cases hlist
      · intro _
        rfl
    · constructor
      · intro _ attachment hmem
        exact absurd hmem List.not_mem_nil
      · intro _
        exact ⟨done, rfl⟩
    · intro wired hwired
      cases hwired
      exact ⟨rfl, (List.append_nil _).symm, (List.append_nil _).symm⟩
  | cons attachment rest ih =>
    obtain ⟨hother, hrest⟩ := List.nodup_cons.mp hdistinct
    have hname := hnew attachment List.mem_cons_self
    unfold wireAttachments
    cases hport : resolveSlotPort inventory attachment.interfaceIndex with
    | error fault =>
      refine WiringResult.refused hkept rfl ?_
      intro h
      obtain ⟨slot, port, tap, hport', _⟩ := h
      rw [hport] at hport'
      cases hport'
    | ok found =>
      obtain ⟨slot, port⟩ := found
      dsimp only
      cases htap : host.tap attachment.interfaceIndex attachment.bridgeName with
      | none =>
        refine WiringResult.refused hkept rfl ?_
        intro h
        obtain ⟨_, _, tap, _, htap', _⟩ := h
        rw [htap] at htap'
        cases htap'
      | some tap =>
        dsimp only
        rw [create_deleted]
        by_cases hrefused : host.refuses
            (.nioCreateTap (nioName labId nodeId attachment.interfaceIndex) tap) = true
        · rw [if_pos hrefused]
          refine WiringResult.refused (hkept.delete hname) rfl ?_
          intro h
          obtain ⟨_, _, tap', _, htap', hcreate⟩ := h
          rw [htap] at htap'
          cases htap'
          rw [hrefused] at hcreate
          cases hcreate
        · rw [if_neg hrefused]
          dsimp only
          have hcreates : CreatesNio host labId nodeId inventory attachment :=
            ⟨slot, port, tap, hport, htap, by simpa using hrefused⟩
          have hafter := hkept.create hname
          by_cases hbound : host.refuses (.slotAddNioBinding (vmNameOf labId nodeId) slot port
              (nioName labId nodeId attachment.interfaceIndex)) = true
          · rw [if_pos hbound]
            refine WiringResult.unbound hafter rfl hcreates ?_
            intro h
            obtain ⟨_, _, _, hport', _, _, hbinding⟩ := h
            rw [hport] at hport'
            cases hport'
            rw [hbound] at hbinding
            cases hbinding
          · rw [if_neg hbound]
            have hwires : WiresNio host labId nodeId inventory attachment :=
              ⟨slot, port, tap, hport, htap, by simpa using hrefused, by simpa using hbound⟩
            have hlater : ∀ a ∈ rest, nioName labId nodeId a.interfaceIndex ∉
                nios.created ++ [nioName labId nodeId attachment.interfaceIndex] := by
              intro a ha hmem
              rcases List.mem_append.mp hmem with hold | hlast
              · exact hnew a (List.mem_cons_of_mem _ ha) hold
              · have hindex := nioName_injective (List.mem_singleton.mp hlast)
                exact hother (hindex ▸ List.mem_map_of_mem ha)
            exact WiringResult.next rfl hcreates hwires (ih hafter hrest hlater)

/-- The names of the NIOs of the attachments. -/
def nioNamesOf (labId : String) (nodeId : Int) (attachments : NodeAttachments) : List String :=
  attachments.list.map (fun a => nioName labId nodeId a.interfaceIndex)

/-- What a start by the launcher comes to. -/
structure LaunchResult (host : DynamipsHost) (template : DynamipsTemplate) (labId : String)
    (nodeId : Int) (attachments : NodeAttachments) (result : Option DynamipsRuntime × NioTable) :
    Prop where
  kept : result.2.Kept
  created : result.2.created = [] ↔ ¬ CreatesFirst host template labId nodeId attachments
  succeeds : (∃ runtime, result.1 = some runtime) ↔
    LauncherSucceeds host template labId nodeId attachments
  runtime : ∀ runtime, result.1 = some runtime →
    runtime.labId = labId ∧ runtime.nodeId = nodeId ∧
      runtime.tapNames.length = attachments.list.length ∧
        runtime.nioNames = some (nioNamesOf labId nodeId attachments) ∧
          result.2.created = nioNamesOf labId nodeId attachments

/-- The launcher does not get to the attachments. -/
theorem LaunchResult.unconfigured {host : DynamipsHost} {template : DynamipsTemplate}
    {labId : String} {nodeId : Int} {attachments : NodeAttachments} (present : List String)
    (hnone : configuredSlots host template labId nodeId = none) :
    LaunchResult host template labId nodeId attachments (none, ⟨present, []⟩) where
  kept := by
    intro name hname
    exact absurd hname List.not_mem_nil
  created := by
    constructor
    · intro _ h
      obtain ⟨inventory, first, rest, hslots, _⟩ := h
      rw [hnone] at hslots
      cases hslots
    · intro _
      rfl
  succeeds := by
    constructor
    · intro h
      obtain ⟨runtime, hruntime⟩ := h
      cases hruntime
    · intro h
      obtain ⟨inventory, hslots, _⟩ := h
      rw [hnone] at hslots
      cases hslots
  runtime := by
    intro runtime hruntime
    cases hruntime

/-- What the launcher does from the wiring on. -/
def finishLaunch (host : DynamipsHost) (labId : String) (nodeId : Int)
    (result : Option Wired × NioTable) : Option DynamipsRuntime × NioTable :=
  match result with
  | (none, nios) => (none, nios)
  | (some wired, nios) =>
    if !host.accepts (.vmStart (vmNameOf labId nodeId)) then (none, nios)
    else if !host.launcherRecordWritten then (none, nios)
    else
      (some { labId := labId, nodeId := nodeId, vmName := vmNameOf labId nodeId
              tapNames := wired.taps, nioNames := some wired.nios }, nios)

theorem finishLaunch_snd (host : DynamipsHost) (labId : String) (nodeId : Int)
    (result : Option Wired × NioTable) :
    (finishLaunch host labId nodeId result).2 = result.2 := by
  obtain ⟨wired, nios⟩ := result
  unfold finishLaunch
  cases wired with
  | none => rfl
  | some wired =>
    dsimp only
    split
    · rfl
    · split
      · rfl
      · rfl

theorem finishLaunch_some {host : DynamipsHost} {labId : String} {nodeId : Int}
    {result : Option Wired × NioTable} {runtime : DynamipsRuntime} :
    (finishLaunch host labId nodeId result).1 = some runtime ↔
      ∃ wired, result.1 = some wired ∧ host.refuses (.vmStart (vmNameOf labId nodeId)) = false ∧
        host.launcherRecordWritten = true ∧
          runtime = { labId := labId, nodeId := nodeId, vmName := vmNameOf labId nodeId
                      tapNames := wired.taps, nioNames := some wired.nios } := by
  obtain ⟨wired, nios⟩ := result
  unfold finishLaunch DynamipsHost.accepts
  cases wired with
  | none => simp
  | some wired =>
    cases hstart : host.refuses (.vmStart (vmNameOf labId nodeId)) with
    | true => simp
    | false =>
      cases hwritten : host.launcherRecordWritten with
      | true =>
        simp only [Bool.not_false, Bool.not_true, Bool.false_eq_true, if_false, Option.some.injEq,
          true_and, exists_eq_left']
        exact eq_comm
      | false => simp

theorem launcherStartNode_spec (host : DynamipsHost) (template : DynamipsTemplate) (labId : String)
    (nodeId : Int) (attachments : NodeAttachments) (present : List String) :
    LaunchResult host template labId nodeId attachments
      (launcherStartNode host template labId nodeId attachments.list ⟨present, []⟩) := by
  unfold launcherStartNode
  dsimp only
  cases hmade : createVm host template (vmNameOf labId nodeId) with
  | none =>
    refine LaunchResult.unconfigured present ?_
    unfold configuredSlots
    rw [hmade]
    rfl
  | some made =>
    obtain ⟨image, idlePc, consolePort⟩ := made
    dsimp only
    cases hslots : configureVm host template (vmNameOf labId nodeId) image idlePc consolePort with
    | none =>
      refine LaunchResult.unconfigured present ?_
      unfold configuredSlots
      rw [hmade]
      exact hslots
    | some inventory =>
      have hconfigured : configuredSlots host template labId nodeId = some inventory := by
        unfold configuredSlots
        rw [hmade]
        exact hslots
      have hempty : NioTable.Kept ⟨present, []⟩ := by
        intro name hname
        exact absurd hname List.not_mem_nil
      have hspec := @wireAttachments_spec host labId nodeId inventory attachments.list {}
        ⟨present, []⟩ hempty attachments.distinct (fun a _ => List.not_mem_nil)
      show LaunchResult host template labId nodeId attachments
        (finishLaunch host labId nodeId
          (wireAttachments host labId nodeId inventory attachments.list {} ⟨present, []⟩))
      generalize wireAttachments host labId nodeId inventory attachments.list {} ⟨present, []⟩ =
        result at hspec
      refine ⟨?_, ?_, ?_, ?_⟩
      · rw [finishLaunch_snd]
        exact hspec.kept
      · rw [finishLaunch_snd]
        obtain ⟨made, hcreated, hnil⟩ := hspec.created
        rw [hcreated, List.nil_append, hnil]
        constructor
        · intro h hfirst
          obtain ⟨inventory', first, rest, hslots', hlist, hcreates⟩ := hfirst
          rw [hconfigured] at hslots'
          cases hslots'
          exact h first rest hlist hcreates
        · intro h first rest hlist hcreates
          exact h ⟨inventory, first, rest, hconfigured, hlist, hcreates⟩
      · constructor
        · intro h
          obtain ⟨runtime, hruntime⟩ := h
          obtain ⟨wired, hwired, hstart, hwritten, _⟩ := finishLaunch_some.mp hruntime
          exact ⟨inventory, hconfigured, hspec.succeeds.mp ⟨wired, hwired⟩, hstart, hwritten⟩
        · intro h
          obtain ⟨inventory', hslots', hwires, hstart, hwritten⟩ := h
          rw [hconfigured] at hslots'
          cases hslots'
          obtain ⟨wired, hwired⟩ := hspec.succeeds.mpr hwires
          exact ⟨_, finishLaunch_some.mpr ⟨wired, hwired, hstart, hwritten, rfl⟩⟩
      · intro runtime hruntime
        obtain ⟨wired, hwired, _, _, rfl⟩ := finishLaunch_some.mp hruntime
        obtain ⟨htaps, hnios, hcreated⟩ := hspec.wired wired hwired
        rw [finishLaunch_snd]
        refine ⟨rfl, rfl, ?_, congrArg some hnios, hcreated⟩
        show wired.taps.length = _
        rw [htaps]
        exact Nat.zero_add _

/-- A stop through the launcher's own record sweeps every NIO that was created. -/
theorem launcherStopNode_own {runtime : DynamipsRuntime} {nios : NioTable} {names : List String}
    (hnames : runtime.nioNames = some names) (hcreated : nios.created = names) :
    (launcherStopNode runtime nios).Balanced := by
  intro name hname
  unfold launcherStopNode at hname ⊢
  rw [hnames] at hname ⊢
  dsimp only [Option.getD_some] at hname ⊢
  rw [(foldl_delete _ nios).1, hcreated] at hname
  rw [(foldl_delete _ nios).2]
  intro h
  apply h.2
  rw [if_neg (List.ne_nil_of_mem hname)]
  exact hname

/-- A stop through the stored record sweeps the NIOs of the first indices. -/
theorem launcherStopNode_stored {runtime : DynamipsRuntime} {nios : NioTable}
    {attachments : NodeAttachments} (hnames : runtime.nioNames = none) (hlab : runtime.labId ≠ "")
    (hlength : runtime.tapNames.length = attachments.list.length) (hkept : nios.Kept)
    (hcreated : nios.created = nioNamesOf runtime.labId runtime.nodeId attachments) :
    (launcherStopNode runtime nios).Balanced ↔ ∀ attachment ∈ attachments.list,
      0 ≤ attachment.interfaceIndex ∧
        attachment.interfaceIndex < attachments.list.length := by
  have hstop : launcherStopNode runtime nios =
      ((List.range attachments.list.length).map
        (fun (idx : Nat) => nioName runtime.labId runtime.nodeId idx)).foldl NioTable.delete nios := by
    unfold launcherStopNode
    rw [hnames, hlength]
    dsimp only [Option.getD_none]
    rw [if_pos rfl, if_neg hlab]
  rw [hstop]
  unfold NioTable.Balanced
  rw [(foldl_delete _ nios).1, hcreated]
  constructor
  · intro h attachment hmem
    have hname : nioName runtime.labId runtime.nodeId attachment.interfaceIndex ∈
        nioNamesOf runtime.labId runtime.nodeId attachments := List.mem_map_of_mem hmem
    have hgone := h _ hname
    rw [(foldl_delete _ nios).2] at hgone
    have hthere := hkept _ (hcreated ▸ hname)
    have hswept : nioName runtime.labId runtime.nodeId attachment.interfaceIndex ∈
        (List.range attachments.list.length).map
          (fun (idx : Nat) => nioName runtime.labId runtime.nodeId idx) := by
      by_contra hnot
      exact hgone ⟨hthere, hnot⟩
    obtain ⟨idx, hidx, heq⟩ := List.mem_map.mp hswept
    have hlt := List.mem_range.mp hidx
    have hindex := nioName_injective heq
    omega
  · intro h name hname
    obtain ⟨attachment, hmem, rfl⟩ := List.mem_map.mp hname
    obtain ⟨hlow, hhigh⟩ := h attachment hmem
    rw [(foldl_delete _ nios).2]
    intro hthere
    apply hthere.2
    refine List.mem_map.mpr ⟨attachment.interfaceIndex.toNat, List.mem_range.mpr (by omega), ?_⟩
    have hcast : ((attachment.interfaceIndex.toNat : Nat) : Int) = attachment.interfaceIndex := by
      omega
    rw [hcast]

theorem all_bridges_iff (host : DynamipsHost) (attachments : List BootAttachment) :
    attachments.all (fun a => host.bridgeExists a.bridgeName) = true ↔
      ¬ ∃ attachment ∈ attachments, host.bridgeExists attachment.bridgeName = false := by
  rw [List.all_eq_true]
  constructor
  · intro hall h
    obtain ⟨attachment, hmem, hmissing⟩ := h
    rw [hall attachment hmem] at hmissing
    cases hmissing
  · intro hnot attachment hmem
    by_contra hmissing
    exact hnot ⟨attachment, hmem, by simpa using hmissing⟩

/-- No NIO is left behind just when none is created, only the console proxy fails, or nothing fails and
the indices are those below the number of attachments. -/
theorem nios_balance_iff (host : DynamipsHost) (template : DynamipsTemplate) (labId : String)
    (nodeId : Int) (attachments : NodeAttachments) (present : List String) :
    NiosBalance host template labId nodeId attachments present ↔
      NiosSafe host template labId nodeId attachments := by
  have hspec := launcherStartNode_spec host template labId nodeId attachments present
  unfold NiosBalance NiosSafe startDynamipsNode
  by_cases hlab : labId = ""
  · rw [if_pos hlab]
    constructor
    · intro _
      exact Or.inl hlab
    · intro _ name hname
      exact absurd hname List.not_mem_nil
  rw [if_neg hlab, or_iff_right hlab]
  by_cases hbridges : attachments.list.all (fun a => host.bridgeExists a.bridgeName) = true
  · rw [if_neg (by simp [hbridges]), or_iff_right ((all_bridges_iff host attachments.list).mp hbridges)]
    generalize launcherStartNode host template labId nodeId attachments.list ⟨present, []⟩ =
      result at hspec
    obtain ⟨found, nios⟩ := result
    obtain ⟨hkept, hcreated, hsucceeds, hruntime⟩ := hspec
    cases found with
    | none =>
      have hfails : ¬ LauncherSucceeds host template labId nodeId attachments := by
        intro h
        obtain ⟨runtime, hsome⟩ := hsucceeds.mpr h
        cases hsome
      dsimp only at hkept hcreated ⊢
      rw [hkept.balanced_iff, hcreated]
      constructor
      · intro h
        exact Or.inl h
      · intro h
        rcases h with h | ⟨hruns, _⟩
        · exact h
        · exact absurd hruns hfails
    | some runtime =>
      have hruns := hsucceeds.mp ⟨runtime, rfl⟩
      obtain ⟨hruntimeLab, hruntimeNode, hlength, hnames, hall⟩ := hruntime runtime rfl
      dsimp only at hkept hcreated hall ⊢
      cases hproxy : host.proxy with
      | none =>
        dsimp only
        constructor
        · intro _
          exact Or.inr ⟨hruns, Or.inl rfl⟩
        · intro _
          exact launcherStopNode_own hnames hall
      | some pid =>
        dsimp only
        by_cases hwritten : host.runtimeWritten = true
        · rw [if_neg (by simp [hwritten])]
          dsimp only
          have hstored := @launcherStopNode_stored { runtime with nioNames := none } nios attachments
            rfl (by rw [hruntimeLab]; exact hlab) hlength hkept
            (by rw [hall, hruntimeLab, hruntimeNode])
          constructor
          · intro h
            exact Or.inr ⟨hruns, Or.inr ⟨hwritten, hstored.mp h⟩⟩
          · intro h
            rw [hstored]
            rcases h with hfirst | ⟨_, hproxy' | ⟨_, h⟩⟩
            · have hnil := hcreated.mpr hfirst
              rw [hall] at hnil
              have hempty := List.map_eq_nil_iff.mp hnil
              intro attachment hmem
              rw [hempty] at hmem
              exact absurd hmem List.not_mem_nil
            · cases hproxy'
            · exact h
        · rw [if_pos (by simp [hwritten])]
          dsimp only
          rw [hkept.balanced_iff, hcreated]
          constructor
          · intro h
            exact Or.inl h
          · intro h
            rcases h with h | ⟨_, hproxy' | ⟨hwritten', _⟩⟩
            · exact h
            · cases hproxy'
            · exact absurd hwritten' hwritten
  · rw [if_pos (by simpa using hbridges)]
    have hsome := not_not.mp (mt (all_bridges_iff host attachments.list).mpr hbridges)
    constructor
    · intro _
      exact Or.inl hsome
    · intro _ name hname
      exact absurd hname List.not_mem_nil

/-- A host on which nothing fails. -/
def willingHost : DynamipsHost where
  imagePath := some "/images/c7200.bin"
  idlePc := some "0x60608040"
  consolePort := some 40000
  vmId := 1
  hypervisorUp := true
  workDir := true
  refuses _ := false
  bridgeExists _ := true
  tap i _ := some ("tap" ++ toString i)
  launcherRecordWritten := true
  proxy := some 9
  runtimeWritten := true

/-- A card of four ports in slot 1, behind the one port of slot 0. -/
def fourPorts : DynamipsTemplate where
  platform := .c7200
  ram := some 512
  disk0 := some 64
  npe := none
  slots idx := if idx = 1 then some "PA-4E" else none

/-- Interface 1 is wired and interface 0 is not. -/
def secondOnly : NodeAttachments where
  list := [{ interfaceIndex := 1, networkId := 5, bridgeName := "nove0000n5", driver := none }]
  distinct := by decide

/-- What is left of a start and a stop is the NIO of interface 1. -/
theorem gap_leaves_nio :
    ¬ (∀ (host : DynamipsHost) (template : DynamipsTemplate) (labId : String) (nodeId : Int)
      (attachments : NodeAttachments) (present : List String),
        NiosBalance host template labId nodeId attachments present) := by
  intro h
  have hbalance := h willingHost fourPorts "lab" 3 secondOnly []
  have hstart : startDynamipsNode willingHost fourPorts "lab" 3 secondOnly.list ⟨[], []⟩ =
      (some { labId := "lab", nodeId := 3, vmName := "nv_lab_n3", tapNames := ["tap1"]
              nioNames := none },
        { present := ["nv_lab_n3_i1"], created := ["nv_lab_n3_i1"] }) := rfl
  unfold NiosBalance at hbalance
  rw [hstart] at hbalance
  exact hbalance "nv_lab_n3_i1" (by decide) (by decide)

end NovaVe
