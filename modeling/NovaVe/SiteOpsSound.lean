import NovaVe.SiteFrames

namespace NovaVe

/-- A sound site whose labs are still those of the site before. -/
structure SoundAfter (labHash : String → Fin 65536) (site after : Site) : Prop where
  sound : SiteSound labHash after
  keeps : LabsKeep labHash site.labs after.labs

theorem SoundAfter.trans {labHash : String → Fin 65536} {first second third : Site}
    (h : SoundAfter labHash first second) (h' : SoundAfter labHash second third) :
    SoundAfter labHash first third :=
  ⟨h'.sound, h.keeps.trans h'.keeps⟩

theorem soundAfter_same {labHash : String → Fin 65536} {site after : Site}
    (hlabs : after.labs = site.labs) (h : SiteSound labHash after) :
    SoundAfter labHash site after :=
  ⟨h, hlabs ▸ LabsKeep.refl labHash site.labs⟩

theorem soundAfter_labs {labHash : String → Fin 65536} {site : Site} {labs : Dict String Lab}
    (h : SiteSound labHash site) (hkeep : LabsKeep labHash site.labs labs)
    (hlabs : ∀ labPath lab, labs.get? labPath = some lab → LabSound labHash labs labPath lab) :
    SoundAfter labHash site { site with labs := labs } := by
  refine ⟨⟨hlabs, fun g port state bridge hget hmaster => ?_⟩, hkeep⟩
  obtain ⟨labPath, lab, hlab, hplaced, hmay⟩ := h.ports g port state bridge hget hmaster
  obtain ⟨lab', hlab', hkept⟩ := hkeep.kept labPath lab hlab
  refine ⟨labPath, lab', hlab', ?_, ?_⟩
  · rw [hkept.id]
    exact hplaced
  · rw [hkept.id]
    exact hmay.mono hkeep

/-- A stored lab is written after a change that keeps its networks. -/
theorem soundAfter_set {labHash : String → Fin 65536} {site : Site} {labPath : String}
    {lab lab' : Lab} (h : SiteSound labHash site) (hlab : site.labs.get? labPath = some lab)
    (hstep : ∀ labs, SoundStep labHash labs labPath lab lab') :
    SoundAfter labHash site { site with labs := site.labs.set labPath lab' } := by
  have hkeep := LabsKeep.set hlab (hstep site.labs).keeps
  refine soundAfter_labs h hkeep (fun path found hfound => ?_)
  rw [Dict.get?_set] at hfound
  split at hfound
  next hpath =>
    subst hpath
    obtain rfl := Option.some.inj hfound
    exact (hstep _).sound ((h.labs labPath lab hlab).mono hkeep)
  next => exact (h.labs path found hfound).mono hkeep

theorem recordKeeps_stampBridge (labHash : String → Fin 65536) (labId : String) (network : Network) :
    RecordKeeps labHash labId network
      (stampBridge (recordBridge (bridgeNameOf labHash) labId network) network) :=
  ⟨rfl, rfl, rfl, Or.inr rfl⟩

theorem recordKeeps_stampCloud (labHash : String → Fin 65536) (labId : String) (network : Network) :
    RecordKeeps labHash labId network
      (stampCloud (recordBridge (bridgeNameOf labHash) labId network) network) :=
  ⟨rfl, rfl, rfl, Or.inr rfl⟩

/-- Host code that puts no interface on a bridge may be run for any lab. -/
theorem onHost_plain {labHash : String → Fin 65536} {site : Site} {labPath : String} {lab : Lab}
    (h : SiteSound labHash site) (hlab : site.labs.get? labPath = some lab) (networkId : Int)
    {α : Type} {m : HostM α}
    (hm : ∀ ok : HostCall → Prop, Plain ok → (∀ bridge, Reshapes ok bridge) →
      Frames (Issues ok) m) :
    Ends (onHost labHash lab.id networkId m) site
      (fun _ t => t.labs = site.labs ∧ SiteSound labHash t)
      (fun _ t => t.labs = site.labs ∧ SiteSound labHash t) :=
  onHost_sound h hlab networkId (hm _ (plain_mayGive labHash site.labs lab.id)
    (reshapes_mayGive labHash site.labs lab.id))

/-- The code of a lab may give whatever its networks' bridges ask for. -/
theorem givesOnNetworks_of_sound {env : SiteEnv} {labs : Dict String Lab} {labPath : String}
    {lab : Lab} (h : LabSound env.labHash labs labPath lab) :
    GivesOnNetworks env.bridgeName lab (MayGive env.labHash labs lab.id) :=
  fun networkId port _ => mayGive_master (h.networkBridge_mayUse networkId) port

theorem createNetwork_sound {env : SiteEnv} {site : Site} (h : SiteSound env.labHash site)
    (labPath : String) (request : NetworkCreate) :
    Ends (siteCreateNetwork env labPath request) site
      (fun _ t => SoundAfter env.labHash site t) (fun _ t => SoundAfter env.labHash site t) := by
  have hsame : SoundAfter env.labHash site site := soundAfter_same rfl h
  unfold siteCreateNetwork
  rw [ends_bind, ends_get]
  split
  next lab labs hlab hcreate =>
    split
    next => exact hsame
    next network hnet =>
      obtain ⟨config, bridge, hconfig, hhost, hlabs⟩ :=
        createNetworkIn_built hlab hcreate
      rw [ends_bind]
      refine (onHost_plain h hlab network.id (fun ok hall hshape =>
        frames_provisionNetwork (workings_issues ok).toCommands hall site.fingerprints lab.id
          network (fun _ => hshape _))).mono (fun _ t ht => ?_) (fun _ t ht => soundAfter_same ht.1 ht.2)
      rw [ends_modify]
      obtain ⟨htlabs, htsound⟩ := ht
      have hnone := Dict.get?_nextKey lab.networks
      have hget : labs.get? labPath = some (lab.withNetwork (buildNetwork
          ((env.cloud site).host site.labs labPath lab) lab.id lab.networks.nextKey
          (pyStrip request.name) request config bridge)) := by
        rw [hlabs, Dict.get?_set_self]
      have hkeepLab : LabKeeps env.labHash lab (lab.withNetwork (buildNetwork
          ((env.cloud site).host site.labs labPath lab) lab.id lab.networks.nextKey
          (pyStrip request.name) request config bridge)) := by
        refine ⟨rfl, fun key found hfound => ⟨found, ?_, RecordKeeps.refl _ _ _⟩⟩
        unfold Lab.withNetwork
        rw [Dict.get?_set_ne _ _ (fun he => by rw [← he, hnone] at hfound; cases hfound)]
        exact hfound
      have hkeep : LabsKeep env.labHash site.labs labs := by
        rw [hlabs]
        exact LabsKeep.set hlab hkeepLab
      have hstamp := @stampOk_created env site labs labPath lab (lab.withNetwork _) request config
        bridge _ rfl hget hkeep hconfig hhost (Dict.get?_set_self lab.networks _ _)
      have hstep := @soundStep_set env.labHash labs labPath lab (lab.withNetwork _) _ _ rfl rfl
        (Or.inr ⟨hnone, fun _ => hstamp⟩)
      have hall : ∀ path found, labs.get? path = some found →
          LabSound env.labHash labs path found := by
        intro path found hfound
        by_cases hpath : labPath = path
        · subst hpath
          obtain rfl := Option.some.inj (hget.symm.trans hfound)
          exact hstep.sound ((h.labs labPath lab hlab).mono hkeep)
        · rw [hlabs, Dict.get?_set_ne _ _ hpath] at hfound
          exact (h.labs path found hfound).mono hkeep
      rw [← htlabs] at hkeep
      exact (soundAfter_same htlabs htsound).trans (soundAfter_labs htsound hkeep hall)
  next => exact hsame

theorem createLink_sound {env : SiteEnv} {site : Site} (h : SiteSound env.labHash site)
    (source : NicSource) (labPath : String) (a b : Endpoint) (style : Option String) :
    Ends (siteCreateLink env source labPath a b style) site
      (fun _ t => SoundAfter env.labHash site t) (fun _ t => SoundAfter env.labHash site t) := by
  have hsame : SoundAfter env.labHash site site := soundAfter_same rfl h
  unfold siteCreateLink
  rw [ends_bind, ends_get]
  split
  next => exact hsame
  next lab hlab =>
    split
    next => exact hsame
    next created hcreate =>
      have hcreated : ∀ labs, SoundStep env.labHash labs labPath lab created.data :=
        fun labs => soundStep_createLinkData hcreate
      have hdata := (hcreated site.labs).sound (h.labs labPath lab hlab)
      have hid := (hcreated site.labs).keeps.id
      dsimp only
      rw [ends_bind]
      refine (onHost_sound h hlab _ (frames_hotAttachRunningEndpoints (workings_issues _)
        (plain_mayGive env.labHash site.labs lab.id) source
        (fun l _ nodeId interfaceIndex networkId _ port _ => ?_)
        (fun networkId _ => reshapes_mayGive env.labHash site.labs lab.id _))).mono
        (fun stamps t ht => ?_) (fun _ t ht => soundAfter_same ht.1 ht.2)
      · apply mayGive_master
        unfold resolveBridgeName
        split
        next => exact Or.inl ⟨networkId, by rw [hid]; rfl⟩
        next =>
          rw [← hid]
          exact hdata.networkBridge_mayUse networkId
      · obtain ⟨htlabs, htsound⟩ := ht
        have hstep : ∀ labs, SoundStep env.labHash labs labPath lab
            (stamps.foldl stampLinkAttachGeneration created.data) :=
          fun labs => (hcreated labs).trans (soundStep_stampLinks stamps created.data)
        have htlab : t.labs.get? labPath = some lab := by rw [htlabs, hlab]
        have hafter := soundAfter_set htsound htlab hstep
        have hnew : (t.labs.set labPath (stamps.foldl stampLinkAttachGeneration
            created.data)).get? labPath = some (stamps.foldl stampLinkAttachGeneration
            created.data) := Dict.get?_set_self t.labs labPath _
        have hnewId := (hstep t.labs).keeps.id
        rw [ends_bind, ends_modify, ← hnewId]
        have hgives := givesOnNetworks_of_sound (hafter.sound.labs labPath _ hnew)
        have hbefore := (soundAfter_same htlabs htsound).trans hafter
        refine (onHost_sound hafter.sound hnew 0 (frames_reconcileAfterLink (workings_issues _)
          (plain_mayGive env.labHash _ _) hgives source)).mono
          (fun _ u hu => hbefore.trans (soundAfter_same hu.1 hu.2))
          (fun _ u hu => hbefore.trans (soundAfter_same hu.1 hu.2))

theorem startNode_sound {env : SiteEnv} {site : Site} (h : SiteSound env.labHash site)
    (maxNics : Int) (hotplugCapable : Bool) (container : Container) (labPath : String)
    (nodeKey : Int) :
    Ends (siteStartNode env maxNics hotplugCapable container labPath nodeKey) site
      (fun _ t => SoundAfter env.labHash site t) (fun _ t => SoundAfter env.labHash site t) := by
  have hsame : SoundAfter env.labHash site site := soundAfter_same rfl h
  unfold siteStartNode
  rw [ends_bind, ends_get]
  split
  next => exact hsame
  next lab hlab =>
    split
    next => exact hsame
    next node hnode =>
      have hgives := givesOnNetworks_of_sound (h.labs labPath lab hlab)
      exact (onHost_sound h hlab 0 (frames_startAnyNode (workings_issues _)
        (plain_mayGive env.labHash site.labs lab.id) hgives hnode)).mono
        (fun _ t ht => soundAfter_same ht.1 ht.2) (fun _ t ht => soundAfter_same ht.1 ht.2)

theorem reconcile_sound {env : SiteEnv} {site : Site} (h : SiteSound env.labHash site)
    (source : NicSource) (labPath : String) (nodeId : Int) :
    Ends (siteReconcile env source labPath nodeId) site
      (fun _ t => SoundAfter env.labHash site t) (fun _ t => SoundAfter env.labHash site t) := by
  unfold siteReconcile
  rw [ends_bind, ends_get]
  split
  next => exact soundAfter_same rfl h
  next lab hlab =>
    have hgives := givesOnNetworks_of_sound (h.labs labPath lab hlab)
    exact (onHost_sound h hlab 0 (frames_reconcileQemuNodeLinks (workings_issues _)
      (plain_mayGive env.labHash site.labs lab.id) hgives source nodeId)).mono
      (fun _ t ht => soundAfter_same ht.1 ht.2) (fun _ t ht => soundAfter_same ht.1 ht.2)

end NovaVe
