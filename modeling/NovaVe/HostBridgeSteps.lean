import NovaVe.HostBridgeEdits
import NovaVe.HotAttachFrames

namespace NovaVe

variable {joins : Joining} {joined : String → Joining}

/-- A part of a call, whether it returns or raises, keeps to the host's rules. -/
def Keeps (joined : String → Joining) {α : Type} (m : SiteM α) (site : Site) : Prop :=
  Ends m site (fun _ t => HostSafe joined site t) (fun _ t => HostSafe joined site t)

theorem Keeps.after {α : Type} {m : SiteM α} {site t : Site} (hsafe : HostSafe joined site t)
    (h : Keeps joined m t) :
    Ends m t (fun _ u => HostSafe joined site u) (fun _ u => HostSafe joined site u) :=
  h.mono (fun _ _ hu => hsafe.trans hu) (fun _ _ hu => hsafe.trans hu)

/-- The host code of a stored lab. -/
theorem onHost_keeps {labHash : String → Fin 65536} {site : Site} {labPath : String} {lab : Lab}
    (hlab : site.labs.get? labPath = some lab) (networkId : Int) {α : Type} {m : HostM α}
    (hm : Frames (Issues (lab.Spares (joined labPath))) m) :
    Keeps joined (onHost labHash lab.id networkId m) site :=
  (onHost_safe hlab (HostedFrom.refl lab) networkId hm).mono (fun _ _ ht => ht.2)
    (fun _ _ ht => ht.2)

theorem storeLabs_keeps {site : Site} {result : Except NetworkError (Dict String Lab)}
    (h : ∀ labs, result = .ok labs → LabsFrom joined site.labs labs) :
    Keeps joined (storeLabs result) site := by
  unfold storeLabs
  split
  next => exact HostSafe.refl site
  next labs => exact hostSafe_labs (h labs rfl) rfl

theorem startNode_keeps {env : SiteEnv} {site : Site} (h : HostLabs joined site.labs) (maxNics : Int)
    (hotplugCapable : Bool) (container : Container) (labPath : String) (nodeKey : Int) :
    Keeps joined (siteStartNode env maxNics hotplugCapable container labPath nodeKey) site := by
  unfold Keeps siteStartNode
  rw [ends_bind, ends_get]
  split
  next => exact HostSafe.refl site
  next lab hlab =>
    split
    next => exact HostSafe.refl site
    next node hnode =>
      have hgives : GivesOnNetworks env.bridgeName lab (lab.Spares (joined labPath)) :=
        givesOnNetworks_spares (h labPath lab hlab)
      have hframes := fun start hon => @frames_startAnyNode (lab.Spares (joined labPath)) _
        (workings_issues _) (plain_spares lab) start lab hon nodeKey node hnode
      exact onHost_keeps hlab 0 (hframes
        { bridgeName := env.bridgeName, maxNics, hotplugCapable, container } hgives)

theorem reconcile_keeps {env : SiteEnv} {site : Site} (h : HostLabs joined site.labs)
    (source : NicSource) (labPath : String) (nodeId : Int) :
    Keeps joined (siteReconcile env source labPath nodeId) site := by
  unfold Keeps siteReconcile
  rw [ends_bind, ends_get]
  split
  next => exact HostSafe.refl site
  next lab hlab =>
    have hgives : GivesOnNetworks env.bridgeName lab (lab.Spares (joined labPath)) :=
      givesOnNetworks_spares (h labPath lab hlab)
    refine onHost_keeps hlab 0 ?_
    exact frames_reconcileQemuNodeLinks (workings_issues _) (plain_spares lab) hgives source nodeId

theorem stopNode_keeps {env : SiteEnv} {site : Site} (labPath : String) (nodeId : Int) :
    Keeps joined (siteStopNode env labPath nodeId) site := by
  unfold Keeps siteStopNode
  rw [ends_bind, ends_get]
  split
  next => exact HostSafe.refl site
  next lab hlab =>
    refine onHost_keeps hlab 0 (fun w => ?_)
    exact (stopNode_spec (workings_issues _) (plain_spares lab) nodeId w).mono
      (fun _ _ ht => ht.1) (fun _ _ ht => ht.1)

theorem patchNetwork_keeps {env : SiteEnv} {site : Site} (h : HostLabs joined site.labs)
    (labPath : String) (networkId : Int) (patch : NetworkUpdate) :
    Keeps joined (sitePatchNetwork env labPath networkId patch) site := by
  unfold Keeps sitePatchNetwork
  rw [ends_bind, ends_get]
  refine storeLabs_keeps (fun labs hpatch => ?_)
  obtain ⟨network, network', hat, hcheck, hput, hsame⟩ := patchNetworkIn_ok hpatch
  exact labsFrom_put h hat hcheck hput hsame

theorem updateNetwork_keeps {site : Site} (h : HostLabs joined site.labs) (labPath : String)
    (networkId : Int) (patch : NetworkUpdate) :
    Keeps joined (siteUpdateNetwork labPath networkId patch) site := by
  unfold Keeps siteUpdateNetwork
  rw [ends_bind, ends_get]
  refine storeLabs_keeps (fun labs hupdate => ?_)
  obtain ⟨network, network', hat, hcheck, hput, hsame⟩ := updateNetworkIn_ok hupdate
  exact labsFrom_put h hat hcheck hput hsame

theorem networkDriver?_of_get? {lab : Lab} {networkId : Int} {network : Network}
    (h : lab.networks.get? networkId = some network) :
    networkDriver? lab networkId = network.runtime.driver := by
  unfold networkDriver?
  rw [h, Option.bind_some]

/-- A bridge that goes with its record is not the host's. -/
theorem ownsBridge_not_owned {labHash : String → Fin 65536} {lab : Lab} (hsound : lab.HostSound joins)
    {networkId : Int} {network : Network} (hget : lab.networks.get? networkId = some network)
    {sharedCloudId : String} (h : ownsBridge network sharedCloudId = true) :
    isHostOwned (networkBridge (bridgeNameOf labHash) lab networkId) = false := by
  apply networkBridge_not_owned hsound
  rw [networkDriver?_of_get? hget]
  unfold ownsBridge at h
  simp only [Bool.and_eq_true, decide_eq_true_eq] at h
  exact h.1.2

theorem frames_dropBridge {lab : Lab} {bridge : String} (h : isHostOwned bridge = false) :
    Frames (Issues (lab.Spares joins)) (ignoreHostNet (bridgeDel bridge)) :=
  frames_ignoreHostNet (workings_issues _).toCommands
    (frames_bridgeDel (workings_issues _).toCommands (reshapes_spares lab h).2)

theorem deleteNetwork_keeps {env : SiteEnv} {site : Site} (h : HostLabs joined site.labs)
    (labPath : String) (networkId : Int) : Keeps joined (siteDeleteNetwork env labPath networkId) site := by
  unfold Keeps siteDeleteNetwork
  rw [ends_bind, ends_get]
  split
  next lab labs hlab hdelete =>
    obtain ⟨found, network, hfound, hget, hpop, _⟩ := deleteNetworkIn_ok hdelete
    obtain rfl : lab = found := Option.some.inj (hlab.symm.trans hfound)
    have hsafe : HostSafe joined site { site with labs := labs } := hostSafe_labs hpop.labsFrom rfl
    rw [ends_bind, ends_modify, hget]
    dsimp only
    obtain ⟨stored, hstored, hlabs⟩ := hpop.removed
    obtain rfl : lab = stored := Option.some.inj (hlab.symm.trans hstored)
    have hpopped : labs.get? labPath = some { lab with networks := lab.networks.pop networkId } := by
      rw [hlabs]
      exact Dict.get?_set_self site.labs labPath _
    refine Keeps.after hsafe (@onHost_keeps joined env.labHash _ labPath
      { lab with networks := lab.networks.pop networkId } hpopped networkId Unit _ ?_)
    split
    next howns => exact frames_dropBridge (ownsBridge_not_owned (h labPath lab hlab) hget howns)
    next => exact Frames.pure (workings_issues _).composes ()
  next => exact HostSafe.refl site

theorem deleteLab_keeps {env : SiteEnv} {site : Site} (h : HostLabs joined site.labs) (labPath : String)
    (row : Bool) : Keeps joined (siteDeleteLab env labPath row) site := by
  unfold Keeps siteDeleteLab
  rw [ends_bind, ends_get]
  split
  next lab labs hlab hdelete =>
    have hcleanup : Frames (Issues (lab.Spares (joined labPath)))
        (if row then lab.networks.entries.forM (cleanupNetwork env lab) else pure ()) := by
      split
      next =>
        refine Frames.forM (workings_issues _).composes (fun entry hentry => ?_)
        have hget := assocGet_of_mem lab.networks.keysNodup hentry
        unfold cleanupNetwork
        dsimp only
        split
        next => exact Frames.pure (workings_issues _).composes ()
        next howns =>
          rw [Bool.not_eq_true', Bool.not_eq_false] at howns
          split
          next => exact Frames.throw (workings_issues _).composes _
          next => exact frames_dropBridge (ownsBridge_not_owned (h labPath lab hlab) hget howns)
      next => exact Frames.pure (workings_issues _).composes ()
    have hlabs : LabsFrom joined site.labs labs := by
      unfold deleteLabIn at hdelete
      split at hdelete
      next => cases hdelete
      next =>
        cases hdelete
        exact labsFrom_pop site.labs labPath
    rw [ends_bind]
    refine (onHost_safe hlab (HostedFrom.refl lab) 0 hcleanup).mono (fun _ t ht => ?_)
      (fun _ _ ht => ht.2)
    rw [ends_modify]
    have hpopped : HostSafe joined t { t with labs := labs } :=
      hostSafe_labs (by rw [ht.1]; exact hlabs) rfl
    exact ht.2.trans hpopped
  next => exact HostSafe.refl site

theorem updateTopology_keeps {env : SiteEnv} {site : Site} (h : HostLabs joined site.labs)
    (source : NicSource) (labPath : String) {payload : TopologyPayload}
    (hwithin : ∀ lab data, site.labs.get? labPath = some lab →
      updateTopology lab payload = .ok data → ∀ nodeId interfaceIndex key,
        data.Joins nodeId interfaceIndex key → joined labPath nodeId interfaceIndex key) :
    Keeps joined (siteUpdateTopology env source labPath payload) site := by
  unfold Keeps siteUpdateTopology
  rw [ends_bind, ends_get]
  split
  next => exact HostSafe.refl site
  next lab hlab =>
    split
    next => exact HostSafe.refl site
    next data hupdate =>
      have hfrom := hostedFrom_updateTopology hupdate (hwithin lab data hlab hupdate)
      have hsound := hfrom.sound (h labPath lab hlab)
      rw [ends_bind, ends_modify, ← hfrom.id]
      have hwritten := Dict.get?_set_self site.labs labPath data
      exact Keeps.after (hostSafe_set hlab hfrom)
        (onHost_keeps hwritten 0 (frames_reconcile_spares hsound source))

theorem frames_detachEndpoints {ok : HostCall → Prop} {rel : World → World → Prop}
    (h : Workings ok rel) (hall : Plain ok) (expectedGeneration : Option Int)
    (keys : List (Int × Int)) (primaryError : Option Exc) :
    Frames rel (detachEndpoints expectedGeneration primaryError keys) := by
  induction keys generalizing primaryError with
  | nil =>
    unfold detachEndpoints
    split
    next e => exact Frames.throw h.composes e
    next => exact Frames.pure h.composes ()
  | cons key rest ih =>
    unfold detachEndpoints
    refine Frames.bind h.composes (frames_runtimeRecord h _ _) (fun record => ?_)
    cases record with
    | none => exact ih _
    | some runtime =>
      have hdetach := frames_detachInterface h hall runtime.kind key.1 key.2 expectedGeneration
      have hkept : ∀ e : Exc, Frames rel (if e.isRuntime || e.isHostNet then
          detachEndpoints expectedGeneration (primaryError <|> some e) rest else throw e) := by
        intro e
        split
        next => exact ih _
        next => exact Frames.throw h.composes e
      dsimp only
      split
      next => exact ih _
      next =>
        split
        next =>
          exact Frames.bind h.composes (frames_setQemuNicLink h hall _ _ _) (fun _ =>
            Frames.attemptThen h.composes hdetach (fun _ => ih _) hkept)
        next => exact Frames.attemptThen h.composes hdetach (fun _ => ih _) hkept

theorem deleteLink_keeps {env : SiteEnv} {site : Site} (h : HostLabs joined site.labs)
    (source : NicSource) (labPath linkId : String) :
    Keeps joined (siteDeleteLink env source labPath linkId) site := by
  unfold Keeps siteDeleteLink
  rw [ends_bind, ends_get]
  split
  next => exact HostSafe.refl site
  next lab hlab =>
    split
    next => exact HostSafe.refl site
    next target _ =>
      dsimp only
      rw [ends_bind]
      refine (onHost_safe hlab (HostedFrom.refl lab) 0 (frames_detachEndpoints (workings_issues _)
        (plain_spares lab) _ target.ifaces none)).mono (fun _ t ht => ?_) (fun _ _ ht => ht.2)
      obtain ⟨htlabs, htsafe⟩ := ht
      unfold storeLabs
      cases hrelease : releaseLinkIp site.labs labPath target with
      | error e => exact htsafe
      | ok labs =>
        have hreleased : HostSafe joined site { t with labs := labs } := by
          refine htsafe.trans (hostSafe_labs ?_ rfl)
          rw [htlabs]
          exact labsFrom_releaseLinkIp hrelease
        dsimp only
        rw [ends_bind, ends_modify, ends_bind, ends_get]
        dsimp only
        split
        next => exact hreleased
        next lab' hlab' =>
          have hfrom := @hostedFrom_removeLink (joined labPath) lab' target linkId
          obtain ⟨before, hbefore, hsame⟩ := hreleased.labs labPath lab' hlab'
          obtain rfl : lab = before := Option.some.inj (hlab.symm.trans hbefore)
          have hsound := (hsame.trans hfrom).sound (h labPath lab hlab)
          rw [ends_bind, ends_modify, ← (hsame.trans hfrom).id]
          have hwritten := @hostSafe_set joined { t with labs := labs } labPath lab' _ hlab' hfrom
          exact Keeps.after (hreleased.trans hwritten)
            (onHost_keeps (Dict.get?_set_self labs labPath _) 0
              (frames_reconcile_spares hsound source))

/-- The commands of the hot-attach pass of a new link. -/
theorem frames_hotAttach_spares {env : SiteEnv} {lab : Lab} (hsound : lab.HostSound joins)
    (source : NicSource) (implicitNetwork : Option Int) {concrete : List Link}
    (hconcrete : ∀ l ∈ concrete, l ∈ lab.links) :
    Frames (Issues (lab.Spares joins))
      (hotAttachRunningEndpoints source env.bridgeName lab implicitNetwork concrete) := by
  have hgives := @givesOnNetworks_spares joins env.labHash lab hsound
  have howned : ∀ networkId, isHostOwned (env.bridgeName lab.id networkId) = false :=
    fun networkId => isHostOwned_bridgeNameOf env.labHash lab.id networkId
  refine frames_hotAttachRunningEndpoints (workings_issues _) (plain_spares lab) source
    (fun l hl nodeId interfaceIndex networkId hwired port hport => ?_) (fun networkId hown => ?_)
  · unfold resolveBridgeName
    split
    next =>
      intro verb bridge hverb hhost
      obtain ⟨_, rfl⟩ := Prod.mk.inj (Option.some.inj hverb)
      rw [howned networkId] at hhost
      cases hhost
    next =>
      refine hgives networkId port ?_
      rw [hport]
      exact ⟨l, hconcrete l hl, nodeId, interfaceIndex, hwired, Or.inl ⟨rfl, rfl⟩⟩
  · apply reshapes_spares
    unfold resolveBridgeName
    split
    next => exact howned networkId
    next himplicit =>
      rcases hown with heq | hdriver
      · exact absurd heq himplicit
      · exact networkBridge_not_owned hsound hdriver

/-- The new links are among those that are written. -/
theorem createLinkData_concrete {lab : Lab} {a b : Endpoint} {style : Option String}
    {created : CreatedLink} (h : createLinkData lab a b style = .ok created) :
    ∀ l ∈ created.concrete, l ∈ created.data.links := by
  have hmixed : ∀ networkId, createMixedLink lab a b style networkId = .ok created →
      ∀ l ∈ created.concrete, l ∈ created.data.links := by
    intro networkId hm l hl
    unfold createMixedLink at hm
    split at hm
    next => cases hm
    next record hget =>
      cases hm
      have hlast := List.mem_append_right lab.links hl
      dsimp only
      unfold promoteAtThree
      dsimp only
      rw [hget]
      dsimp only
      split
      next => exact hlast
      next => exact hlast
  unfold createLinkData at h
  obtain ⟨_, _, h⟩ := bind_eq_ok.mp h
  obtain ⟨_, _, h⟩ := bind_eq_ok.mp h
  split at h
  next =>
    cases h
    exact fun l hl => List.mem_append_right lab.links hl
  next => exact hmixed _ h
  next => exact hmixed _ h

theorem createLink_keeps {env : SiteEnv} {site : Site} (h : HostLabs joined site.labs)
    (source : NicSource) (labPath : String) {a b : Endpoint} {style : Option String}
    (hwithin : ∀ lab created, site.labs.get? labPath = some lab →
      createLinkData lab a b style = .ok created → ∀ nodeId interfaceIndex key,
        created.data.Joins nodeId interfaceIndex key → joined labPath nodeId interfaceIndex key) :
    Keeps joined (siteCreateLink env source labPath a b style) site := by
  unfold Keeps siteCreateLink
  rw [ends_bind, ends_get]
  split
  next => exact HostSafe.refl site
  next lab hlab =>
    split
    next => exact HostSafe.refl site
    next created hcreate =>
      have hfrom := hostedFrom_createLinkData hcreate (hwithin lab created hlab hcreate)
      have hsound := hfrom.sound (h labPath lab hlab)
      dsimp only
      rw [ends_bind, ← hfrom.id]
      refine (onHost_safe hlab hfrom _ (frames_hotAttach_spares hsound source
        created.implicitNetwork (createLinkData_concrete hcreate))).mono (fun stamps t ht => ?_)
        (fun _ _ ht => ht.2)
      obtain ⟨htlabs, htsafe⟩ := ht
      have hstamped := @hostedFrom_stampLinks (joined labPath) stamps created.data
      have htlab : t.labs.get? labPath = some lab := by rw [htlabs, hlab]
      have hwritten := hostSafe_set htlab (hfrom.trans hstamped)
      rw [ends_bind, ends_modify, ← hstamped.id]
      exact Keeps.after (htsafe.trans hwritten)
        (onHost_keeps (Dict.get?_set_self t.labs labPath _) 0
          (frames_reconcile_spares (hstamped.sound hsound) source))

theorem recordBridge_not_owned {labHash : String → Fin 65536} {labId : String} {network : Network}
    (h : ∀ bridge, ¬ network.OnHostBridge bridge) :
    isHostOwned (recordBridge (bridgeNameOf labHash) labId network) = false := by
  rcases recordBridge_cases (bridgeNameOf labHash) labId network with hname | ⟨hstored, _⟩
  · rw [hname]
    exact isHostOwned_bridgeNameOf labHash labId network.id
  · rw [← Bool.not_eq_true]
    exact fun howned => h _ ⟨hstored, howned⟩

/-- A stamp of a bridge that the host does not own puts no record on one that it does. -/
theorem hostedFrom_stamp {lab : Lab} {networkId : Int} {bridge : String}
    {f : Network → Network} (hf : ∀ network, (f network).runtime.bridgeName = some bridge)
    (h : isHostOwned bridge = false) : HostedFrom joins lab (lab.editNetwork networkId f) := by
  refine hostedFrom_edit (fun network other _ hon => ?_)
  obtain rfl := Option.some.inj ((hf network).symm.trans hon.stored)
  have howned := hon.owned
  rw [h] at howned
  cases howned

/-- What holds of the lab that `ensure_lab_bridges` works on. -/
structure InHand (joined : String → Joining) (labPath : String) (lab data : Lab) (site t : Site) :
    Prop where
  safe : HostSafe joined site t
  stored : t.labs.get? labPath = some lab
  step : HostedFrom (joined labPath) lab data

theorem InHand.sound {labPath : String} {lab data : Lab} {site t : Site}
    (h : InHand joined labPath lab data site t) (hsound : HostLabs joined site.labs) :
    data.HostSound (joined labPath) :=
  h.step.sound (h.safe.labs.hostLabs hsound labPath lab h.stored)

theorem InHand.onHost {labHash : String → Fin 65536} {labPath : String} {lab data : Lab}
    {site t : Site} (h : InHand joined labPath lab data site t) (networkId : Int) {α : Type}
    {m : HostM α} (hm : Frames (Issues (data.Spares (joined labPath))) m) :
    Ends (onHost labHash data.id networkId m) t
      (fun _ u => u.labs = t.labs ∧ InHand joined labPath lab data site u)
      (fun _ u => u.labs = t.labs ∧ InHand joined labPath lab data site u) := by
  have hkeep : ∀ u : Site, u.labs = t.labs ∧ HostSafe joined t u →
      u.labs = t.labs ∧ InHand joined labPath lab data site u :=
    fun u hu => ⟨hu.1, h.safe.trans hu.2, hu.1 ▸ h.stored, h.step⟩
  exact (onHost_safe h.stored h.step networkId hm).mono (fun _ u hu => hkeep u hu)
    (fun _ u hu => hkeep u hu)

theorem InHand.edit {labPath : String} {lab data data' : Lab} {site t : Site}
    (h : InHand joined labPath lab data site t) (hfrom : HostedFrom (joined labPath) data data') :
    InHand joined labPath lab data' site t := ⟨h.safe, h.stored, h.step.trans hfrom⟩

theorem frames_bridgeUp (lab : Lab) (bridge : String) :
    Frames (Issues (lab.Spares joins)) (run (.bridgeUp bridge)) :=
  frames_run (workings_issues _).toCommands (plain_spares lab _ rfl)

theorem ensureOwnNetwork_keeps {env : SiteEnv} {labPath : String} {lab data : Lab} {site t : Site}
    (h : InHand joined labPath lab data site t) {network : Network}
    (hnot : ∀ bridge, ¬ network.OnHostBridge bridge) :
    Ends (ensureOwnNetwork env data network) t
      (fun data' u => InHand joined labPath lab data' site u) (fun _ u => HostSafe joined site u) := by
  have hbridge := @recordBridge_not_owned env.labHash data.id network hnot
  have hstamp := @hostedFrom_stamp (joined labPath) data network.id _ (stampBridge _) (fun _ => rfl) hbridge
  have hcloud := fun before : Lab =>
    @hostedFrom_stamp (joined labPath) before network.id _ (stampCloud _) (fun _ => rfl) hbridge
  unfold ensureOwnNetwork
  rw [ends_bind, ends_get]
  dsimp only
  rw [ends_bind]
  refine (h.onHost network.id (frames_ensureOwnBridge (workings_issues _).toCommands
    (plain_spares data) (reshapes_spares data hbridge).1 _)).mono
    (fun ready u hu => ?_) (fun _ u hu => hu.2.safe)
  cases ready with
  | false => exact hu.2
  | true =>
    rw [if_neg (by decide), ends_bind]
    have hup : Frames (Issues (data.Spares (joined labPath)))
        (if 0 < references data.links network.id then
          ignoreHostNet (run (.bridgeUp (recordBridge env.bridgeName data.id network)))
        else pure ()) := by
      split
      next => exact frames_ignoreHostNet (workings_issues _).toCommands (frames_bridgeUp data _)
      next => exact Frames.pure (workings_issues _).composes ()
    refine (hu.2.onHost network.id hup).mono (fun _ v hv => ?_) (fun _ v hv => hv.2.safe)
    split
    next =>
      rw [ends_bind, ends_attempt]
      exact (hv.2.onHost network.id (frames_bridgeUp data _)).mono
        (fun _ w hw => (hw.2.edit hstamp).edit (hcloud _)) (fun _ w hw => hw.2.edit hstamp)
    next => exact hv.2.edit hstamp

theorem ensureCloudOwner_keeps {env : SiteEnv} {labPath ownerLabId : String} {lab data : Lab}
    {site t : Site} (h : InHand joined labPath lab data site t) {owner : CloudNetworkRef}
    (hnot : ∀ bridge, ¬ owner.network.OnHostBridge bridge) :
    Ends (ensureCloudOwner env labPath data owner ownerLabId) t
      (fun data' u => InHand joined labPath lab data' site u) (fun _ u => HostSafe joined site u) := by
  have hbridge := @recordBridge_not_owned env.labHash ownerLabId owner.network hnot
  have hstamp := fun (joins : Joining) (before : Lab) =>
    @hostedFrom_stamp joins before owner.networkId _ (stampCloud _) (fun _ => rfl) hbridge
  unfold ensureCloudOwner
  dsimp only
  rw [ends_bind, ends_attempt]
  refine (h.onHost owner.networkId (frames_bridgeUp data _)).mono (fun _ u hu => ?_)
    (fun _ u hu => hu.2)
  have hat := hu.2
  dsimp only
  split
  next => exact hat.edit (hstamp _ data)
  next hpath =>
    rw [ends_bind, ends_modify]
    have hedited : HostSafe joined u (u.editLab owner.labPath (fun found =>
        found.editNetwork owner.networkId
          (stampCloud (recordBridge env.bridgeName ownerLabId owner.network)))) := by
      refine hostSafe_labs (fun path found hget => ?_) rfl
      unfold Site.editLab at hget
      dsimp only at hget
      rw [Dict.get?_modify] at hget
      split at hget
      next heq =>
        obtain ⟨before, hbefore, hfound⟩ := Option.map_eq_some_iff.mp hget
        subst heq
        subst hfound
        exact ⟨before, hbefore, hstamp _ before⟩
      next => exact ⟨found, hget, HostedFrom.refl found⟩
    refine ⟨hat.safe.trans hedited, ?_, hat.step⟩
    unfold Site.editLab
    dsimp only
    rw [Dict.get?_modify, if_neg hpath]
    exact hat.stored

theorem ensureNetwork_keeps {env : SiteEnv} {labPath : String} {lab data : Lab} {site t : Site}
    (hsound : HostLabs joined site.labs) (h : InHand joined labPath lab data site t) {networkId : Int}
    {network : Network} (hget : data.networks.get? networkId = some network) :
    Ends (ensureNetwork env labPath data network) t
      (fun data' u => InHand joined labPath lab data' site u) (fun _ u => HostSafe joined site u) := by
  unfold ensureNetwork
  rw [ends_bind, ends_get]
  split
  next =>
    split
    next => exact h
    next owner hfind =>
      obtain ⟨ownerLab, key, found, howner, hnet, htype, href, _, _⟩ := cloudOwner_found hfind
      have hlab := h.safe.labs.hostLabs hsound owner.labPath ownerLab howner
      have hfound : owner.network = found := by
        rw [← href]
        rfl
      refine ensureCloudOwner_keeps h (fun bridge hon => ?_)
      rw [hfound] at hon
      have hcloud := (hlab.hosted key found bridge hnet hon).type
      rw [htype] at hcloud
      cases hcloud
  next =>
    split
    next =>
      rw [ends_bind]
      exact (h.onHost network.id (frames_ignoreHostNet (workings_issues _).toCommands
        (frames_run (workings_issues _).toCommands (plain_spares data _ rfl)))).mono
        (fun _ u hu => hu.2) (fun _ u hu => hu.2.safe)
    next hcloud =>
      refine ensureOwnNetwork_keeps h (fun bridge hon => ?_)
      have hdriver := ((h.sound hsound).hosted networkId network bridge hget hon).driver
      exact hcloud (Or.inl hdriver)

theorem ensureNetworks_keeps {env : SiteEnv} {labPath : String} {lab : Lab} {site : Site}
    (hsound : HostLabs joined site.labs) (ids : List Int) {data : Lab} {t : Site}
    (h : InHand joined labPath lab data site t) :
    Ends (ensureNetworks env labPath data ids) t
      (fun data' u => InHand joined labPath lab data' site u) (fun _ u => HostSafe joined site u) := by
  induction ids generalizing data t with
  | nil => exact h
  | cons networkId rest ih =>
    unfold ensureNetworks
    split
    next => exact ih h
    next network hget =>
      rw [ends_bind]
      exact (ensureNetwork_keeps hsound h hget).mono (fun _ u hu => ih hu) (fun _ u hu => hu)

theorem ensureLabBridges_keeps {env : SiteEnv} {site : Site} (h : HostLabs joined site.labs)
    (source : NicSource) (labPath : String) :
    Keeps joined (siteEnsureLabBridges env source labPath) site := by
  unfold Keeps siteEnsureLabBridges
  rw [ends_bind, ends_get]
  split
  next => exact HostSafe.refl site
  next lab hlab =>
    have hat : InHand joined labPath lab lab site site := ⟨HostSafe.refl site, hlab, HostedFrom.refl lab⟩
    rw [ends_bind]
    refine (ensureNetworks_keeps h lab.networks.keys hat).mono (fun data t ht => ?_)
      (fun _ _ ht => ht)
    have hdata := ht.sound h
    have hwritten := hostSafe_set ht.stored ht.step
    have hgives : GivesOnNetworks env.bridgeName data (data.Spares (joined labPath)) :=
      givesOnNetworks_spares hdata
    rw [ends_bind, ends_modify, ← ht.step.id]
    refine Keeps.after (ht.safe.trans hwritten)
      (onHost_keeps (Dict.get?_set_self t.labs labPath data) 0 ?_)
    exact frames_reconcileQemuNicLinkState (workings_issues _) (plain_spares data) hgives source

end NovaVe
