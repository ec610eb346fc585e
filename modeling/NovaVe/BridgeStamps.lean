import NovaVe.BridgeOwners
import NovaVe.IpamSafety

namespace NovaVe

/-- A change of a stored lab that keeps its networks and the soundness of their stamps. -/
structure SoundStep (labHash : String → Fin 65536) (labs : Dict String Lab) (labPath : String)
    (lab lab' : Lab) : Prop where
  keeps : LabKeeps labHash lab lab'
  sound : LabSound labHash labs labPath lab → LabSound labHash labs labPath lab'

theorem SoundStep.refl (labHash : String → Fin 65536) (labs : Dict String Lab) (labPath : String)
    (lab : Lab) : SoundStep labHash labs labPath lab lab :=
  ⟨LabKeeps.refl labHash lab, fun h => h⟩

theorem SoundStep.trans {labHash : String → Fin 65536} {labs : Dict String Lab} {labPath : String}
    {first second third : Lab} (h : SoundStep labHash labs labPath first second)
    (h' : SoundStep labHash labs labPath second third) :
    SoundStep labHash labs labPath first third :=
  ⟨h.keeps.trans h'.keeps, fun hsound => h'.sound (h.sound hsound)⟩

theorem soundStep_same {labHash : String → Fin 65536} {labs : Dict String Lab} {labPath : String}
    {lab lab' : Lab} (hid : lab'.id = lab.id) (hnets : lab'.networks = lab.networks) :
    SoundStep labHash labs labPath lab lab' := by
  refine ⟨⟨hid, fun networkId network hget => ?_⟩, fun h => ⟨?_, fun networkId network hget => ?_⟩⟩
  · rw [hnets]
    exact ⟨network, hget, RecordKeeps.refl labHash lab.id network⟩
  · rw [hid]
    exact h.named
  · rw [hnets] at hget
    exact (h.stamps networkId network hget).keeps hid (RecordKeeps.refl labHash lab.id network)

/-- One network is written: over a record that it keeps, or as a new one with a sound stamp. -/
theorem soundStep_set {labHash : String → Fin 65536} {labs : Dict String Lab} {labPath : String}
    {lab lab' : Lab} {networkId : Int} {network' : Network} (hid : lab'.id = lab.id)
    (hnets : lab'.networks = lab.networks.set networkId network')
    (hwritten : (∃ network, lab.networks.get? networkId = some network ∧
        RecordKeeps labHash lab.id network network') ∨
      lab.networks.get? networkId = none ∧ (LabSound labHash labs labPath lab →
        StampOk labHash labs labPath lab' networkId network')) :
    SoundStep labHash labs labPath lab lab' := by
  have hlook : ∀ other, lab'.networks.get? other =
      if networkId = other then some network' else lab.networks.get? other := by
    intro other
    rw [hnets, Dict.get?_set]
  refine ⟨⟨hid, fun other found hget => ?_⟩, fun h => ⟨?_, fun other found hget => ?_⟩⟩
  · rw [hlook]
    split
    next hother =>
      subst hother
      rcases hwritten with ⟨network, hold, hkeep⟩ | ⟨hnone, _⟩
      · obtain rfl : network = found := Option.some.inj (hold.symm.trans hget)
        exact ⟨network', rfl, hkeep⟩
      · rw [hnone] at hget
        cases hget
    next => exact ⟨found, hget, RecordKeeps.refl labHash lab.id found⟩
  · rw [hid]
    exact h.named
  · rw [hlook] at hget
    split at hget
    next hother =>
      subst hother
      obtain rfl : network' = found := Option.some.inj hget
      rcases hwritten with ⟨network, hold, hkeep⟩ | ⟨_, hfresh⟩
      · exact (h.stamps networkId network hold).keeps hid hkeep
      · exact hfresh h
    next => exact (h.stamps other found hget).keeps hid (RecordKeeps.refl labHash lab.id found)

/-- An edit of one network record. -/
theorem soundStep_edit {labHash : String → Fin 65536} {labs : Dict String Lab} {labPath : String}
    {lab : Lab} {networkId : Int} {f : Network → Network}
    (hkeep : ∀ network, lab.networks.get? networkId = some network →
      RecordKeeps labHash lab.id network (f network)) :
    SoundStep labHash labs labPath lab (lab.editNetwork networkId f) := by
  unfold Lab.editNetwork
  cases hget : lab.networks.get? networkId with
  | none =>
    refine soundStep_same rfl ?_
    unfold Dict.modify
    rw [hget]
  | some network =>
    rw [Dict.modify_of_get? hget]
    exact soundStep_set rfl rfl (Or.inl ⟨network, hget, hkeep network hget⟩)

theorem soundStep_stampLinks {labHash : String → Fin 65536} {labs : Dict String Lab}
    {labPath : String} (stamps : List Stamp) (lab : Lab) :
    SoundStep labHash labs labPath lab (stamps.foldl stampLinkAttachGeneration lab) := by
  induction stamps generalizing lab with
  | nil => exact SoundStep.refl labHash labs labPath lab
  | cons stamp rest ih =>
    have hone : SoundStep labHash labs labPath lab (stampLinkAttachGeneration lab stamp) := by
      unfold stampLinkAttachGeneration
      dsimp only
      split
      next => exact soundStep_same rfl rfl
      next => exact soundStep_same rfl rfl
    exact hone.trans (ih (stampLinkAttachGeneration lab stamp))

theorem recordKeeps_promote (labHash : String → Fin 65536) (labId : String) (networkId : Int)
    (network : Network) : RecordKeeps labHash labId network (promote networkId network) :=
  ⟨rfl, rfl, rfl, Or.inl rfl⟩

/-- A new link promotes a network, or makes one that has no stamp. -/
theorem soundStep_createLinkData {labHash : String → Fin 65536} {labs : Dict String Lab}
    {labPath : String} {lab : Lab} {a b : Endpoint} {style : Option String} {created : CreatedLink}
    (h : createLinkData lab a b style = .ok created) :
    SoundStep labHash labs labPath lab created.data := by
  have hmixed : ∀ networkId, createMixedLink lab a b style networkId = .ok created →
      SoundStep labHash labs labPath lab created.data := by
    intro networkId hm
    unfold createMixedLink at hm
    split at hm
    next => cases hm
    next record hget =>
      cases hm
      dsimp only
      unfold promoteAtThree
      dsimp only
      rw [hget]
      dsimp only
      split
      next =>
        exact soundStep_set rfl rfl
          (Or.inl ⟨record, hget, recordKeeps_promote labHash lab.id networkId record⟩)
      next => exact soundStep_same rfl rfl
  unfold createLinkData at h
  obtain ⟨_, _, h⟩ := bind_eq_ok.mp h
  obtain ⟨_, _, h⟩ := bind_eq_ok.mp h
  split at h
  next =>
    cases h
    refine soundStep_set rfl rfl (Or.inr ⟨Dict.get?_nextKey lab.networks, fun _ => ?_⟩)
    refine ⟨rfl, fun bridge hb => ?_, fun _ _ bridge hb => ?_⟩
    · cases hb
    · cases hb
  next => exact hmixed _ h
  next => exact hmixed _ h

theorem checkHostBridge_name {host : NetworkHost} {config : NetworkConfig}
    (h : checkHostBridge host .bridgeCloud config = .ok ()) :
    isHostBridgeName (config.hostBridge.getD "") = true := by
  unfold checkHostBridge at h
  split at h
  next => cases h
  next bridge hbridge =>
    rw [hbridge, Option.getD_some]
    split at h
    next => cases h
    next hname =>
      rw [Bool.not_eq_true', Bool.not_eq_false] at hname
      exact hname
  next hnone hsome =>
    cases hb : config.hostBridge with
    | none => exact (hnone rfl hb).elim
    | some bridge => exact (hsome bridge rfl hb).elim

/-- The stamp of a created network is one that its lab may use. -/
theorem stampOk_created {env : SiteEnv} {site : Site} {labs' : Dict String Lab} {labPath : String}
    {lab lab' : Lab} {request : NetworkCreate} {config : NetworkConfig} {bridge : Option String}
    {name : String} (hid : lab'.id = lab.id) (hlab' : labs'.get? labPath = some lab')
    (hkeep : LabsKeep env.labHash site.labs labs')
    (hconfig : normalizedConfig ((env.cloud site).host site.labs labPath lab) lab.networks request =
      .ok (config, bridge))
    (hhost : checkHostBridge ((env.cloud site).host site.labs labPath lab) request.type config =
      .ok ())
    (hnet : lab'.networks.get? lab.networks.nextKey =
      some (buildNetwork ((env.cloud site).host site.labs labPath lab) lab.id lab.networks.nextKey
        name request config bridge)) :
    StampOk env.labHash labs' labPath lab' lab.networks.nextKey
      (buildNetwork ((env.cloud site).host site.labs labPath lab) lab.id lab.networks.nextKey
        name request config bridge) := by
  have hshared : ∀ stamp, bridge = some stamp → request.type = .natCloud ∧
      ∃ cloud owner, cloud ≠ "" ∧ findNatCloudOwner site.labs cloud = some owner ∧
        config.sharedCloudId = some cloud ∧ owner.network.runtime.bridgeName = some stamp := by
    intro stamp hstamp
    subst hstamp
    by_cases htype : request.type = .natCloud
    · rw [normalizedConfig_natCloud htype] at hconfig
      exact ⟨htype, natCloudConfig_bridge hconfig⟩
    · rw [normalizedConfig_other htype] at hconfig
      cases hconfig
  refine ⟨rfl, fun stamp hstamp hne => ?_, fun htype href stamp hstamp hne => ?_⟩
  · rw [hid]
    by_cases hcloud : request.type = .bridgeCloud
    · rw [hcloud] at hhost
      have hname := checkHostBridge_name hhost
      have hvalue : stamp = config.hostBridge.getD "" := by
        unfold buildNetwork at hstamp
        simp only [hcloud] at hstamp
        exact (Option.some.inj hstamp).symm
      rw [← hvalue] at hname
      exact Or.inr (Or.inl ⟨hname, labPath, lab', _, _, hlab', hid, hnet, hcloud, hstamp⟩)
    · have hvalue : stamp = bridge.getD (bridgeNameOf env.labHash lab.id lab.networks.nextKey) := by
        unfold buildNetwork at hstamp
        dsimp only at hstamp
        split at hstamp
        next htype => exact absurd htype hcloud
        next => exact (Option.some.inj hstamp).symm
      cases hb : bridge with
      | none => exact Or.inl ⟨lab.networks.nextKey, by rw [hvalue, hb]; rfl⟩
      | some owned =>
        obtain ⟨htype, cloud, owner, hcloudNe, hfind, hcloudId, hbridge⟩ := hshared owned hb
        obtain rfl : stamp = owned := by rw [hvalue, hb]; rfl
        obtain ⟨ownerLab, key, network, hownerLab, hnetwork, hnat, href, hown, hownId⟩ :=
          cloudOwner_found hfind
        have howned : OwnedCloud site.labs cloud stamp := by
          refine ⟨owner.labPath, ownerLab, key, network, hownerLab, hnetwork, hnat, ?_, ?_, ?_⟩
          · rw [href]
            exact hown
          · rw [href]
            exact hownId
          · rw [← href] at hbridge
            exact hbridge
        refine Or.inr (Or.inr ⟨hne, cloud, ?_, howned.mono hkeep hne⟩)
        refine ⟨labPath, lab', _, _, hlab', hid, hnet, htype, ?_, hstamp⟩
        unfold cloudRef given buildNetwork
        dsimp only
        rw [hcloudId, Option.filter_some, if_pos (decide_eq_true hcloudNe)]
        rfl
  · rw [hid]
    cases hb : bridge with
    | none =>
      unfold buildNetwork at hstamp htype
      dsimp only at hstamp htype
      rw [htype, hb] at hstamp
      exact (Option.some.inj hstamp).symm
    | some owned =>
      obtain ⟨_, cloud, _, hcloudNe, _, hcloudId, _⟩ := hshared owned hb
      unfold cloudRef given buildNetwork at href
      dsimp only at href
      rw [hcloudId, Option.filter_some, if_pos (decide_eq_true hcloudNe)] at href
      cases href

end NovaVe
