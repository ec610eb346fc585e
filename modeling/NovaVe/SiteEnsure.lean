import NovaVe.SiteOpsSound

namespace NovaVe

/-- What holds of the lab at hand while `ensure_lab_bridges` works on it. -/
structure AtHand (labHash : String → Fin 65536) (labPath : String) (lab data : Lab) (site after : Site) :
    Prop where
  progress : SoundAfter labHash site after
  stored : after.labs.get? labPath = some lab
  step : ∀ labs, SoundStep labHash labs labPath lab data

theorem AtHand.onHost {labHash : String → Fin 65536} {labPath : String} {lab data : Lab}
    {site t : Site} (h : AtHand labHash labPath lab data site t) (networkId : Int) {α : Type}
    {m : HostM α} (hm : ∀ ok : HostCall → Prop, Plain ok → (∀ bridge, Reshapes ok bridge) →
      Frames (Issues ok) m) :
    Ends (onHost labHash data.id networkId m) t
      (fun _ u => u.labs = t.labs ∧ AtHand labHash labPath lab data site u)
      (fun _ u => u.labs = t.labs ∧ AtHand labHash labPath lab data site u) := by
  have hid := (h.step t.labs).keeps.id
  rw [hid]
  have hkeep : ∀ u : Site, u.labs = t.labs ∧ SiteSound labHash u →
      u.labs = t.labs ∧ AtHand labHash labPath lab data site u := by
    intro u hu
    refine ⟨hu.1, h.progress.trans (soundAfter_same hu.1 hu.2), ?_, h.step⟩
    rw [hu.1]
    exact h.stored
  exact (onHost_plain h.progress.sound h.stored networkId hm).mono (fun _ u hu => hkeep u hu)
    (fun _ u hu => hkeep u hu)

/-- An edit of one of the networks at hand. -/
theorem AtHand.edit {labHash : String → Fin 65536} {labPath : String} {lab data : Lab}
    {site t : Site} (h : AtHand labHash labPath lab data site t) {networkId : Int}
    {f : Network → Network} (hf : ∀ network, data.networks.get? networkId = some network →
      RecordKeeps labHash data.id network (f network)) :
    AtHand labHash labPath lab (data.editNetwork networkId f) site t :=
  ⟨h.progress, h.stored, fun labs => (h.step labs).trans (soundStep_edit hf)⟩

theorem ensureOwnNetwork_sound {env : SiteEnv} {labPath : String} {lab data : Lab} {site t : Site}
    (h : AtHand env.labHash labPath lab data site t) (network : Network)
    (hget : data.networks.get? network.id = some network) :
    Ends (ensureOwnNetwork env data network) t
      (fun data' u => AtHand env.labHash labPath lab data' site u)
      (fun _ u => SoundAfter env.labHash site u) := by
  have hstamped : ∀ {u : Site}, AtHand env.labHash labPath lab data site u →
      AtHand env.labHash labPath lab (data.editNetwork network.id
        (stampBridge (recordBridge env.bridgeName data.id network))) site u := by
    intro u hu
    refine hu.edit (fun found hfound => ?_)
    obtain rfl : network = found := Option.some.inj (hget.symm.trans hfound)
    exact recordKeeps_stampBridge env.labHash data.id network
  have hclouded : ∀ {u : Site}, AtHand env.labHash labPath lab data site u →
      AtHand env.labHash labPath lab ((data.editNetwork network.id
        (stampBridge (recordBridge env.bridgeName data.id network))).editNetwork network.id
        (stampCloud (recordBridge env.bridgeName data.id network))) site u := by
    intro u hu
    refine (hstamped hu).edit (fun found hfound => ?_)
    have hfound' : found = stampBridge (recordBridge env.bridgeName data.id network) network := by
      unfold Lab.editNetwork at hfound
      rw [Dict.modify_of_get? hget] at hfound
      dsimp only at hfound
      rw [Dict.get?_set_self] at hfound
      exact (Option.some.inj hfound).symm
    have hsame := (recordKeeps_stampBridge env.labHash data.id network).recordBridge_eq
    rw [hfound']
    exact ⟨rfl, rfl, rfl, Or.inr (congrArg some hsame.symm)⟩
  unfold ensureOwnNetwork
  rw [ends_bind, ends_get]
  dsimp only
  rw [ends_bind]
  refine (h.onHost network.id (fun ok hall hshape =>
    frames_ensureOwnBridge (workings_issues ok).toCommands hall (hshape _).1 _)).mono
    (fun ready u hu => ?_) (fun _ u hu => hu.2.progress)
  cases ready with
  | false => exact hu.2
  | true =>
    rw [if_neg (by decide), ends_bind]
    refine (hu.2.onHost network.id (fun ok hall _ => ?_)).mono (fun _ v hv => ?_)
      (fun _ v hv => hv.2.progress)
    · split
      next =>
        exact frames_ignoreHostNet (workings_issues ok).toCommands
          (frames_run (workings_issues ok).toCommands (hall _ rfl))
      next => exact Frames.pure (workings_issues ok).composes ()
    · split
      next =>
        rw [ends_bind, ends_attempt]
        refine (hv.2.onHost network.id (fun ok hall _ =>
          frames_run (workings_issues ok).toCommands (hall _ rfl))).mono
          (fun _ w hw => hclouded hw.2) (fun _ w hw => hstamped hw.2)
      next => exact hstamped hv.2

/-- The owner of a shared cloud is stamped with its own bridge, wherever its record is. -/
theorem ensureCloudOwner_sound {env : SiteEnv} {labPath : String} {lab data : Lab} {site t : Site}
    (h : AtHand env.labHash labPath lab data site t) {owner : CloudNetworkRef} {ownerLab : Lab}
    (howner : t.labs.get? owner.labPath = some ownerLab)
    (hnet : ownerLab.networks.get? owner.networkId = some owner.network) :
    Ends (ensureCloudOwner env labPath data owner ownerLab.id) t
      (fun data' u => AtHand env.labHash labPath lab data' site u)
      (fun _ u => SoundAfter env.labHash site u) := by
  unfold ensureCloudOwner
  dsimp only
  rw [ends_bind, ends_attempt]
  refine (h.onHost owner.networkId (fun ok hall _ =>
    frames_run (workings_issues ok).toCommands (hall _ rfl))).mono (fun _ u hu => ?_)
    (fun _ u hu => hu.2)
  obtain ⟨hlabs, hat⟩ := hu
  have hkeep : ∀ network, RecordKeeps env.labHash ownerLab.id owner.network network →
      RecordKeeps env.labHash ownerLab.id network
        (stampCloud (recordBridge env.bridgeName ownerLab.id owner.network) network) := by
    intro network hrecord
    have hsame : recordBridge env.bridgeName ownerLab.id network =
        recordBridge env.bridgeName ownerLab.id owner.network := hrecord.recordBridge_eq
    rw [← hsame]
    exact recordKeeps_stampCloud env.labHash ownerLab.id network
  dsimp only
  split
  next hpath =>
    have hlab : ownerLab = lab := by
      have hstored := h.stored
      rw [← hpath, howner] at hstored
      exact Option.some.inj hstored
    have hid := (h.step t.labs).keeps.id
    refine hat.edit (fun found hfound => ?_)
    obtain ⟨network, hnetwork, hrecord⟩ :=
      (h.step t.labs).keeps.networks owner.networkId owner.network (hlab ▸ hnet)
    obtain rfl : network = found := Option.some.inj (hnetwork.symm.trans hfound)
    rw [hid, ← hlab]
    exact hkeep network (hlab ▸ hrecord)
  next hpath =>
    rw [ends_bind, ends_modify]
    have hownerAt : u.labs.get? owner.labPath = some ownerLab := by rw [hlabs, howner]
    have hedited : SoundAfter env.labHash u (u.editLab owner.labPath (fun found =>
        found.editNetwork owner.networkId
          (stampCloud (recordBridge env.bridgeName ownerLab.id owner.network)))) := by
      unfold Site.editLab
      rw [Dict.modify_of_get? hownerAt]
      refine soundAfter_set hat.progress.sound hownerAt (fun labs => soundStep_edit ?_)
      intro found hfound
      obtain rfl : owner.network = found := Option.some.inj (hnet.symm.trans hfound)
      exact hkeep _ (RecordKeeps.refl _ _ _)
    refine ⟨hat.progress.trans hedited, ?_, hat.step⟩
    unfold Site.editLab
    dsimp only
    rw [Dict.get?_modify, if_neg hpath]
    exact hat.stored

theorem ensureNetwork_sound {env : SiteEnv} {labPath : String} {lab data : Lab} {site t : Site}
    (h : AtHand env.labHash labPath lab data site t) (network : Network)
    (hget : data.networks.get? network.id = some network) :
    Ends (ensureNetwork env labPath data network) t
      (fun data' u => AtHand env.labHash labPath lab data' site u)
      (fun _ u => SoundAfter env.labHash site u) := by
  unfold ensureNetwork
  rw [ends_bind, ends_get]
  split
  next =>
    split
    next => exact h
    next owner hfind =>
      obtain ⟨ownerLab, key, found, howner, hnet, _, href, _, _⟩ := cloudOwner_found hfind
      have hsound := h.progress.sound.labs owner.labPath ownerLab howner
      have hkey := (hsound.stamps key found hnet).id
      have hid : cloudLabId owner.labPath ownerLab = ownerLab.id := if_neg hsound.named
      have hnetwork : owner.network = found ∧ owner.networkId = found.id := by
        rw [← href]
        exact ⟨rfl, rfl⟩
      dsimp only
      rw [howner, Option.map_some, Option.getD_some, hid]
      refine ensureCloudOwner_sound h howner ?_
      rw [hnetwork.1, hnetwork.2, hkey]
      exact hnet
  next =>
    split
    next =>
      rw [ends_bind]
      exact (h.onHost network.id (fun ok hall _ =>
        frames_ignoreHostNet (workings_issues ok).toCommands
          (frames_run (workings_issues ok).toCommands (hall _ rfl)))).mono
        (fun _ u hu => hu.2) (fun _ u hu => hu.2.progress)
    next => exact ensureOwnNetwork_sound h network hget

theorem ensureNetworks_sound {env : SiteEnv} {labPath : String} {lab : Lab} {site : Site}
    (ids : List Int) {data : Lab} {t : Site} (h : AtHand env.labHash labPath lab data site t) :
    Ends (ensureNetworks env labPath data ids) t
      (fun data' u => AtHand env.labHash labPath lab data' site u)
      (fun _ u => SoundAfter env.labHash site u) := by
  induction ids generalizing data t with
  | nil => exact h
  | cons networkId rest ih =>
    unfold ensureNetworks
    split
    next => exact ih h
    next network hget =>
      have hlab := h.progress.sound.labs labPath lab h.stored
      have hdata := (h.step t.labs).sound hlab
      have hid := (hdata.stamps networkId network hget).id
      rw [ends_bind]
      refine (ensureNetwork_sound h network (by rw [hid]; exact hget)).mono
        (fun _ u hu => ih hu) (fun _ u hu => hu)

theorem ensureLabBridges_sound {env : SiteEnv} {site : Site} (h : SiteSound env.labHash site)
    (source : NicSource) (labPath : String) :
    Ends (siteEnsureLabBridges env source labPath) site
      (fun _ t => SoundAfter env.labHash site t) (fun _ t => SoundAfter env.labHash site t) := by
  have hsame : SoundAfter env.labHash site site := soundAfter_same rfl h
  unfold siteEnsureLabBridges
  rw [ends_bind, ends_get]
  split
  next => exact hsame
  next lab hlab =>
    have hat : AtHand env.labHash labPath lab lab site site :=
      ⟨hsame, hlab, fun labs => SoundStep.refl env.labHash labs labPath lab⟩
    rw [ends_bind]
    refine (ensureNetworks_sound lab.networks.keys hat).mono (fun data t ht => ?_)
      (fun _ _ ht => ht)
    have hwritten := soundAfter_set ht.progress.sound ht.stored ht.step
    have hnew : (t.labs.set labPath data).get? labPath = some data :=
      Dict.get?_set_self t.labs labPath data
    have hid := (ht.step t.labs).keeps.id
    rw [ends_bind, ends_modify, ← hid]
    have hgives := givesOnNetworks_of_sound (hwritten.sound.labs labPath data hnew)
    refine (onHost_sound hwritten.sound hnew 0 (frames_reconcileQemuNicLinkState
      (workings_issues _) (plain_mayGive env.labHash _ _) hgives source)).mono
      (fun _ u hu => ?_) (fun _ u hu => ?_)
    · exact ht.progress.trans (hwritten.trans (soundAfter_same hu.1 hu.2))
    · exact ht.progress.trans (hwritten.trans (soundAfter_same hu.1 hu.2))

end NovaVe
