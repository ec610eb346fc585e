import NovaVe.IpamSteps
import NovaVe.SiteOps

namespace NovaVe

variable {labHash : String → Fin 65536} {labPath : String} {labs labs' : Dict String Lab}

theorem bridgeNameOf_inj {labId labId' : String} {networkId networkId' : Int}
    (h : bridgeNameOf labHash labId networkId = bridgeNameOf labHash labId' networkId') :
    labHash labId = labHash labId' ∧ networkId = networkId' :=
  bridgeNameText_injective (String.ofList_injective h)

theorem bridgeNameOf_ne_empty (labHash : String → Fin 65536) (labId : String) (networkId : Int) :
    bridgeNameOf labHash labId networkId ≠ "" := by
  intro h
  have hlist := congrArg String.toList h
  unfold bridgeNameOf at hlist
  rw [String.toList_ofList] at hlist
  cases hlist

theorem isHostBridgeName_bridgeNameOf (labHash : String → Fin 65536) (labId : String)
    (networkId : Int) : isHostBridgeName (bridgeNameOf labHash labId networkId) = false := by
  unfold isHostBridgeName bridgeNameOf
  rw [String.toList_ofList]
  rfl

/-- One network record after another, with what the calls leave as it is: a bridge is stamped only
where none was, and then it is the generated one. -/
structure RecordKeeps (labHash : String → Fin 65536) (labId : String) (network network' : Network) :
    Prop where
  id : network'.id = network.id
  type : network'.type = network.type
  config : network'.config = network.config
  bridge : network'.runtime.bridgeName = network.runtime.bridgeName ∨
    network'.runtime.bridgeName = some (recordBridge (bridgeNameOf labHash) labId network)

theorem recordBridge_stored {bridgeName : String → Int → String} {labId bridge : String}
    {network : Network} (h : network.runtime.bridgeName = some bridge) (hne : bridge ≠ "") :
    recordBridge bridgeName labId network = bridge := by
  unfold recordBridge
  rw [h]
  exact if_neg hne

theorem recordBridge_cases (bridgeName : String → Int → String) (labId : String)
    (network : Network) :
    recordBridge bridgeName labId network = bridgeName labId network.id ∨
      network.runtime.bridgeName = some (recordBridge bridgeName labId network) ∧
        recordBridge bridgeName labId network ≠ "" := by
  cases hstored : network.runtime.bridgeName with
  | none =>
    refine Or.inl ?_
    unfold recordBridge
    rw [hstored]
    exact if_pos rfl
  | some bridge =>
    by_cases hempty : bridge = ""
    · refine Or.inl ?_
      unfold recordBridge
      rw [hstored]
      exact if_pos hempty
    · rw [recordBridge_stored hstored hempty]
      exact Or.inr ⟨rfl, hempty⟩

theorem recordBridge_ne_empty (labHash : String → Fin 65536) (labId : String) (network : Network) :
    recordBridge (bridgeNameOf labHash) labId network ≠ "" := by
  rcases recordBridge_cases (bridgeNameOf labHash) labId network with h | h
  · rw [h]
    exact bridgeNameOf_ne_empty labHash labId network.id
  · exact h.2

theorem RecordKeeps.refl (labHash : String → Fin 65536) (labId : String) (network : Network) :
    RecordKeeps labHash labId network network :=
  ⟨rfl, rfl, rfl, Or.inl rfl⟩

/-- The bridge of a record never changes. -/
theorem RecordKeeps.recordBridge_eq {labId : String} {network network' : Network}
    (h : RecordKeeps labHash labId network network') :
    recordBridge (bridgeNameOf labHash) labId network' =
      recordBridge (bridgeNameOf labHash) labId network := by
  rcases h.bridge with hsame | hstamp
  · unfold recordBridge
    rw [hsame, h.id]
  · exact recordBridge_stored hstamp (recordBridge_ne_empty labHash labId network)

theorem RecordKeeps.trans {labId : String} {first second third : Network}
    (h : RecordKeeps labHash labId first second) (h' : RecordKeeps labHash labId second third) :
    RecordKeeps labHash labId first third := by
  refine ⟨h'.id.trans h.id, h'.type.trans h.type, h'.config.trans h.config, ?_⟩
  rcases h'.bridge with hsame | hstamp
  · rw [hsame]
    exact h.bridge
  · rw [hstamp, h.recordBridge_eq]
    exact Or.inr rfl

/-- A stamped bridge stays. -/
theorem RecordKeeps.stored {labId bridge : String} {network network' : Network}
    (h : RecordKeeps labHash labId network network')
    (hstored : network.runtime.bridgeName = some bridge) (hne : bridge ≠ "") :
    network'.runtime.bridgeName = some bridge := by
  rcases h.bridge with hsame | hstamp
  · rw [hsame, hstored]
  · rw [hstamp, recordBridge_stored hstored hne]

/-- A lab after some of the calls: every network is still there. -/
structure LabKeeps (labHash : String → Fin 65536) (lab lab' : Lab) : Prop where
  id : lab'.id = lab.id
  networks : ∀ networkId network, lab.networks.get? networkId = some network →
    ∃ network', lab'.networks.get? networkId = some network' ∧
      RecordKeeps labHash lab.id network network'

theorem LabKeeps.refl (labHash : String → Fin 65536) (lab : Lab) : LabKeeps labHash lab lab :=
  ⟨rfl, fun _ network h => ⟨network, h, RecordKeeps.refl labHash lab.id network⟩⟩

theorem LabKeeps.trans {first second third : Lab} (h : LabKeeps labHash first second)
    (h' : LabKeeps labHash second third) :
    LabKeeps labHash first third := by
  refine ⟨h'.id.trans h.id, fun networkId network hget => ?_⟩
  obtain ⟨network', hget', hkeep⟩ := h.networks networkId network hget
  obtain ⟨network'', hget'', hkeep'⟩ := h'.networks networkId network' hget'
  rw [h.id] at hkeep'
  exact ⟨network'', hget'', hkeep.trans hkeep'⟩

structure LabsKeep (labHash : String → Fin 65536) (labs labs' : Dict String Lab) : Prop where
  kept : ∀ labPath lab, labs.get? labPath = some lab →
    ∃ lab', labs'.get? labPath = some lab' ∧ LabKeeps labHash lab lab'
  noMore : ∀ labPath, labs.get? labPath = none → labs'.get? labPath = none

theorem LabsKeep.refl (labHash : String → Fin 65536) (labs : Dict String Lab) :
    LabsKeep labHash labs labs :=
  ⟨fun _ lab h => ⟨lab, h, LabKeeps.refl labHash lab⟩, fun _ h => h⟩

theorem LabsKeep.trans {first second third : Dict String Lab} (h : LabsKeep labHash first second)
    (h' : LabsKeep labHash second third) :
    LabsKeep labHash first third := by
  refine ⟨fun labPath lab hget => ?_, fun labPath hnone => h'.noMore labPath (h.noMore labPath hnone)⟩
  obtain ⟨lab', hget', hkeep⟩ := h.kept labPath lab hget
  obtain ⟨lab'', hget'', hkeep'⟩ := h'.kept labPath lab' hget'
  exact ⟨lab'', hget'', hkeep.trans hkeep'⟩

theorem LabsKeep.set {labs : Dict String Lab} {lab lab' : Lab} (hget : labs.get? labPath = some lab)
    (hkeep : LabKeeps labHash lab lab') :
    LabsKeep labHash labs (labs.set labPath lab') := by
  refine ⟨fun path found hfound => ?_, fun path hnone => ?_⟩
  · rw [Dict.get?_set]
    split
    next hpath =>
      subst hpath
      obtain rfl : lab = found := Option.some.inj (hget.symm.trans hfound)
      exact ⟨lab', rfl, hkeep⟩
    next => exact ⟨found, hfound, LabKeeps.refl labHash found⟩
  · rw [Dict.get?_set]
    split
    next hpath =>
      subst hpath
      rw [hget] at hnone
      cases hnone
    next => exact hnone

/-- A lab is on a NAT cloud with a bridge: one of its networks is. -/
def OnCloud (labs : Dict String Lab) (labId cloud bridge : String) : Prop :=
  ∃ labPath lab networkId network, labs.get? labPath = some lab ∧ lab.id = labId ∧
    lab.networks.get? networkId = some network ∧ network.type = .natCloud ∧
    (cloudRef labPath lab network).cloudId = cloud ∧ network.runtime.bridgeName = some bridge

/-- The cloud is some lab's own. -/
def OwnedCloud (labs : Dict String Lab) (cloud bridge : String) : Prop :=
  ∃ labPath lab networkId network, labs.get? labPath = some lab ∧
    lab.networks.get? networkId = some network ∧ network.type = .natCloud ∧
    (cloudRef labPath lab network).isReference = false ∧
    (cloudRef labPath lab network).cloudId = cloud ∧ network.runtime.bridgeName = some bridge

/-- A lab is on a host-owned bridge: one of its networks is a bridge cloud there. -/
def OnHostCloud (labs : Dict String Lab) (labId bridge : String) : Prop :=
  isHostBridgeName bridge = true ∧ ∃ labPath lab networkId network,
    labs.get? labPath = some lab ∧ lab.id = labId ∧ lab.networks.get? networkId = some network ∧
    network.type = .bridgeCloud ∧ network.runtime.bridgeName = some bridge

/-- The bridges that the code of a lab may put an interface on: its own, those of its bridge clouds,
and those of the NAT clouds it is on. -/
def MayUse (labHash : String → Fin 65536) (labs : Dict String Lab) (labId bridge : String) : Prop :=
  (∃ networkId, bridge = bridgeNameOf labHash labId networkId) ∨ OnHostCloud labs labId bridge ∨
    bridge ≠ "" ∧ ∃ cloud, OnCloud labs labId cloud bridge ∧ OwnedCloud labs cloud bridge

theorem cloudRef_keeps {lab lab' : Lab} {network network' : Network} (hlab : lab'.id = lab.id)
    (h : RecordKeeps labHash lab.id network network') :
    (cloudRef labPath lab' network').cloudId = (cloudRef labPath lab network).cloudId ∧
      (cloudRef labPath lab' network').isReference = (cloudRef labPath lab network).isReference := by
  unfold cloudRef cloudLabId
  dsimp only
  rw [h.config, h.id, hlab]
  exact ⟨rfl, rfl⟩

theorem OnCloud.mono {labId cloud bridge : String} (hkeep : LabsKeep labHash labs labs')
    (hne : bridge ≠ "") (h : OnCloud labs labId cloud bridge) :
    OnCloud labs' labId cloud bridge := by
  obtain ⟨labPath, lab, networkId, network, hlab, hid, hnet, htype, hcloud, hbridge⟩ := h
  obtain ⟨lab', hlab', hkept⟩ := hkeep.kept labPath lab hlab
  obtain ⟨network', hnet', hrecord⟩ := hkept.networks networkId network hnet
  obtain ⟨hcloud', _⟩ := @cloudRef_keeps labHash labPath lab lab' _ _ hkept.id hrecord
  exact ⟨labPath, lab', networkId, network', hlab', hkept.id.trans hid, hnet',
    hrecord.type.trans htype, hcloud'.trans hcloud, hrecord.stored hbridge hne⟩

theorem OnHostCloud.mono {labId bridge : String} (hkeep : LabsKeep labHash labs labs')
    (h : OnHostCloud labs labId bridge) : OnHostCloud labs' labId bridge := by
  obtain ⟨hname, labPath, lab, networkId, network, hlab, hid, hnet, htype, hbridge⟩ := h
  have hne : bridge ≠ "" := by
    rintro rfl
    cases hname
  obtain ⟨lab', hlab', hkept⟩ := hkeep.kept labPath lab hlab
  obtain ⟨network', hnet', hrecord⟩ := hkept.networks networkId network hnet
  exact ⟨hname, labPath, lab', networkId, network', hlab', hkept.id.trans hid, hnet',
    hrecord.type.trans htype, hrecord.stored hbridge hne⟩

theorem OwnedCloud.mono {cloud bridge : String} (hkeep : LabsKeep labHash labs labs')
    (hne : bridge ≠ "") (h : OwnedCloud labs cloud bridge) : OwnedCloud labs' cloud bridge := by
  obtain ⟨labPath, lab, networkId, network, hlab, hnet, htype, hown, hcloud, hbridge⟩ := h
  obtain ⟨lab', hlab', hkept⟩ := hkeep.kept labPath lab hlab
  obtain ⟨network', hnet', hrecord⟩ := hkept.networks networkId network hnet
  obtain ⟨hcloud', hown'⟩ := @cloudRef_keeps labHash labPath lab lab' _ _ hkept.id hrecord
  exact ⟨labPath, lab', networkId, network', hlab', hnet', hrecord.type.trans htype,
    hown'.trans hown, hcloud'.trans hcloud, hrecord.stored hbridge hne⟩

theorem MayUse.mono {labId bridge : String} (hkeep : LabsKeep labHash labs labs')
    (h : MayUse labHash labs labId bridge) : MayUse labHash labs' labId bridge := by
  rcases h with hown | hhost | ⟨hne, cloud, hon, howned⟩
  · exact Or.inl hown
  · exact Or.inr (Or.inl (hhost.mono hkeep))
  · exact Or.inr (Or.inr ⟨hne, cloud, hon.mono hkeep hne, howned.mono hkeep hne⟩)

/-- A stored network: its key is its id, a stamped bridge is one that its lab may use, and the one
of a cloud's owner is the generated one. -/
structure StampOk (labHash : String → Fin 65536) (labs : Dict String Lab) (labPath : String)
    (lab : Lab) (networkId : Int) (network : Network) : Prop where
  id : network.id = networkId
  mayUse : ∀ bridge, network.runtime.bridgeName = some bridge → bridge ≠ "" →
    MayUse labHash labs lab.id bridge
  owner : network.type = .natCloud → (cloudRef labPath lab network).isReference = false →
    ∀ bridge, network.runtime.bridgeName = some bridge → bridge ≠ "" →
      bridge = bridgeNameOf labHash lab.id networkId

structure LabSound (labHash : String → Fin 65536) (labs : Dict String Lab) (labPath : String)
    (lab : Lab) : Prop where
  named : lab.id ≠ ""
  stamps : ∀ networkId network, lab.networks.get? networkId = some network →
    StampOk labHash labs labPath lab networkId network

theorem StampOk.mono {lab : Lab} {networkId : Int} {network : Network}
    (hkeep : LabsKeep labHash labs labs') (h : StampOk labHash labs labPath lab networkId network) :
    StampOk labHash labs' labPath lab networkId network :=
  ⟨h.id, fun bridge hb hne => (h.mayUse bridge hb hne).mono hkeep, h.owner⟩

/-- A record that the calls leave is as sound as it was. -/
theorem StampOk.keeps {labs : Dict String Lab} {lab lab' : Lab} {networkId : Int}
    {network network' : Network} (hid : lab'.id = lab.id)
    (h : StampOk labHash labs labPath lab networkId network)
    (hkeep : RecordKeeps labHash lab.id network network') :
    StampOk labHash labs labPath lab' networkId network' := by
  have hbridge : ∀ bridge, network'.runtime.bridgeName = some bridge → bridge ≠ "" →
      network.runtime.bridgeName = some bridge ∨ bridge = bridgeNameOf labHash lab.id networkId := by
    intro bridge hb hne
    rcases hkeep.bridge with hsame | hstamp
    · exact Or.inl (hsame.symm.trans hb)
    · have hrecord := Option.some.inj (hb.symm.trans hstamp)
      rcases recordBridge_cases (bridgeNameOf labHash) lab.id network with hown | ⟨hstored, _⟩
      · exact Or.inr (by rw [hrecord, hown, h.id])
      · exact Or.inl (by rw [hstored, hrecord])
  obtain ⟨_, hown⟩ := @cloudRef_keeps labHash labPath lab lab' _ _ hid hkeep
  refine ⟨hkeep.id.trans h.id, fun bridge hb hne => ?_, fun htype href bridge hb hne => ?_⟩
  · rw [hid]
    rcases hbridge bridge hb hne with hstored | hname
    · exact h.mayUse bridge hstored hne
    · exact Or.inl ⟨networkId, hname⟩
  · rw [hid]
    rcases hbridge bridge hb hne with hstored | hname
    · exact h.owner (hkeep.type.symm.trans htype) (hown.symm.trans href) bridge hstored hne
    · exact hname

theorem LabSound.mono {lab : Lab} (hkeep : LabsKeep labHash labs labs')
    (h : LabSound labHash labs labPath lab) : LabSound labHash labs' labPath lab :=
  ⟨h.named, fun networkId network hnet => (h.stamps networkId network hnet).mono hkeep⟩

/-- Every network of a sound lab has a bridge that the lab may use. -/
theorem LabSound.networkBridge_mayUse {labs : Dict String Lab} {lab : Lab}
    (h : LabSound labHash labs labPath lab) (networkId : Int) :
    MayUse labHash labs lab.id (networkBridge (bridgeNameOf labHash) lab networkId) := by
  unfold networkBridge
  dsimp only
  split
  next => exact Or.inl ⟨networkId, rfl⟩
  next hne =>
    cases hnet : lab.networks.get? networkId with
    | none =>
      rw [hnet] at hne
      exact absurd rfl hne
    | some network =>
      rw [hnet] at hne
      cases hstored : network.runtime.bridgeName with
      | none =>
        rw [Option.bind_some, hstored] at hne
        exact absurd rfl hne
      | some bridge =>
        rw [Option.bind_some, hstored] at hne ⊢
        exact (h.stamps networkId network hnet).mayUse bridge hstored hne

/-- One bridge belongs to one cloud of one lab, when no two labs share a hash. -/
theorem ownedCloud_unique {labs : Dict String Lab}
    (hsound : ∀ labPath lab, labs.get? labPath = some lab → LabSound labHash labs labPath lab)
    (hinj : ∀ labPath labPath' lab lab', labs.get? labPath = some lab →
      labs.get? labPath' = some lab' → labHash lab.id = labHash lab'.id → labPath = labPath')
    {cloud cloud' bridge : String} (hne : bridge ≠ "") (h : OwnedCloud labs cloud bridge)
    (h' : OwnedCloud labs cloud' bridge) : cloud = cloud' := by
  obtain ⟨labPath, lab, networkId, network, hlab, hnet, htype, href, hcloud, hbridge⟩ := h
  obtain ⟨labPath', lab', networkId', network', hlab', hnet', htype', href', hcloud', hbridge'⟩ := h'
  have hname := ((hsound labPath lab hlab).stamps networkId network hnet).owner htype href bridge
    hbridge hne
  have hname' := ((hsound labPath' lab' hlab').stamps networkId' network' hnet').owner htype' href'
    bridge hbridge' hne
  obtain ⟨hhash, hnumber⟩ := bridgeNameOf_inj (hname.symm.trans hname')
  have hpath := hinj labPath labPath' lab lab' hlab hlab' hhash
  subst hpath
  subst hnumber
  obtain rfl : lab = lab' := Option.some.inj (hlab.symm.trans hlab')
  obtain rfl : network = network' := Option.some.inj (hnet.symm.trans hnet')
  exact hcloud.symm.trans hcloud'

end NovaVe
