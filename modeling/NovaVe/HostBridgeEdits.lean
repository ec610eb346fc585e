import NovaVe.HostBridges
import NovaVe.LinkRecords

namespace NovaVe

variable {joins : Joining} {joined : String → Joining}

/-- The labs of a site name a host-owned bridge only in bridge clouds, and the interfaces of each are
joined as allowed. -/
def HostLabs (joined : String → Joining) (labs : Dict String Lab) : Prop :=
  ∀ labPath lab, labs.get? labPath = some lab → lab.HostSound (joined labPath)

/-- The later labs have their records on host-owned bridges from the earlier ones. -/
def LabsFrom (joined : String → Joining) (labs labs' : Dict String Lab) : Prop :=
  ∀ labPath lab', labs'.get? labPath = some lab' →
    ∃ lab, labs.get? labPath = some lab ∧ HostedFrom (joined labPath) lab lab'

/-- A command that a lab of the site may have given. -/
def Spared (joined : String → Joining) (labs : Dict String Lab) (command : String × HostCall) : Prop :=
  ∃ labPath lab, labs.get? labPath = some lab ∧ lab.id = command.1 ∧
    lab.Spares (joined labPath) command.2

/-- Nothing that happened in between made a record on a host-owned bridge, or touched one but for an
interface that is joined to a bridge cloud on it. -/
structure HostSafe (joined : String → Joining) (site t : Site) : Prop where
  labs : LabsFrom joined site.labs t.labs
  given : ∀ command ∈ t.given, command ∈ site.given ∨ Spared joined site.labs command

theorem LabsFrom.refl (labs : Dict String Lab) : LabsFrom joined labs labs :=
  fun _ lab h => ⟨lab, h, HostedFrom.refl lab⟩

theorem LabsFrom.trans {first second third : Dict String Lab} (h : LabsFrom joined first second)
    (h' : LabsFrom joined second third) : LabsFrom joined first third := by
  intro labPath lab'' hget
  obtain ⟨lab', hget', hfrom'⟩ := h' labPath lab'' hget
  obtain ⟨lab, hlab, hfrom⟩ := h labPath lab' hget'
  exact ⟨lab, hlab, hfrom.trans hfrom'⟩

theorem LabsFrom.hostLabs {labs labs' : Dict String Lab} (h : LabsFrom joined labs labs')
    (hsound : HostLabs joined labs) : HostLabs joined labs' := by
  intro labPath lab' hget
  obtain ⟨lab, hlab, hfrom⟩ := h labPath lab' hget
  exact hfrom.sound (hsound labPath lab hlab)

theorem LabsFrom.spared {labs labs' : Dict String Lab} (h : LabsFrom joined labs labs')
    {command : String × HostCall} (hc : Spared joined labs' command) : Spared joined labs command := by
  obtain ⟨labPath, lab', hget, hid, hspares⟩ := hc
  obtain ⟨lab, hlab, hfrom⟩ := h labPath lab' hget
  exact ⟨labPath, lab, hlab, hfrom.id ▸ hid, hfrom.spares hspares⟩

theorem LabsFrom.set {labs : Dict String Lab} {labPath : String} {lab lab' : Lab}
    (hlab : labs.get? labPath = some lab) (hfrom : HostedFrom (joined labPath) lab lab') :
    LabsFrom joined labs (labs.set labPath lab') := by
  intro path found hget
  rw [Dict.get?_set] at hget
  split at hget
  next hpath =>
    subst hpath
    obtain rfl := Option.some.inj hget
    exact ⟨lab, hlab, hfrom⟩
  next => exact ⟨found, hget, HostedFrom.refl found⟩

theorem labsFrom_pop (labs : Dict String Lab) (labPath : String) :
    LabsFrom joined labs (labs.pop labPath) := by
  intro path found hget
  rw [Dict.get?_pop] at hget
  split at hget
  next => cases hget
  next => exact ⟨found, hget, HostedFrom.refl found⟩

theorem HostSafe.refl (site : Site) : HostSafe joined site site :=
  ⟨LabsFrom.refl site.labs, fun _ hc => Or.inl hc⟩

theorem HostSafe.trans {first second third : Site} (h : HostSafe joined first second)
    (h' : HostSafe joined second third) : HostSafe joined first third := by
  refine ⟨h.labs.trans h'.labs, fun command hc => ?_⟩
  rcases h'.given command hc with hold | hnew
  · exact h.given command hold
  · exact Or.inr (h.labs.spared hnew)

theorem hostSafe_labs {site t : Site} (hlabs : LabsFrom joined site.labs t.labs)
    (hgiven : t.given = site.given) : HostSafe joined site t :=
  ⟨hlabs, fun _ hc => Or.inl (hgiven ▸ hc)⟩

/-- The labs with an edit of one of them that keeps its records on host-owned bridges. -/
theorem hostSafe_set {site : Site} {labPath : String} {lab lab' : Lab}
    (hlab : site.labs.get? labPath = some lab) (hfrom : HostedFrom (joined labPath) lab lab') :
    HostSafe joined site { site with labs := site.labs.set labPath lab' } :=
  hostSafe_labs (LabsFrom.set hlab hfrom) rfl

theorem absorb_fold_labs (labHash : String → Fin 65536) (labId : String) (networkId : Int)
    (commands : List HostCall) (site : Site) :
    (commands.foldl (Site.effect labHash labId networkId) site).labs = site.labs := by
  induction commands generalizing site with
  | nil => rfl
  | cons c rest ih => exact ih _

/-- Host code of a lab that is stored here, or that comes from one, leaves the labs as they are and
gives what that lab may give. -/
theorem onHost_safe {labHash : String → Fin 65536} {site : Site} {labPath : String} {lab data : Lab}
    (hlab : site.labs.get? labPath = some lab) (hfrom : HostedFrom (joined labPath) lab data)
    (networkId : Int) {α : Type} {m : HostM α}
    (hm : Frames (Issues (data.Spares (joined labPath))) m) :
    Ends (onHost labHash data.id networkId m) site
      (fun _ t => t.labs = site.labs ∧ HostSafe joined site t)
      (fun _ t => t.labs = site.labs ∧ HostSafe joined site t) := by
  have hafter : ∀ w, Issues (data.Spares (joined labPath)) (site.world labHash data.id) w →
      (site.absorb labHash data.id networkId w).labs = site.labs ∧
        HostSafe joined site (site.absorb labHash data.id networkId w) := by
    intro w hw
    obtain ⟨commands, htrace, hok⟩ := hw
    have hlabs : (site.absorb labHash data.id networkId w).labs = site.labs :=
      absorb_fold_labs labHash data.id networkId _ site
    refine ⟨hlabs, by rw [hlabs]; exact LabsFrom.refl site.labs, fun command hc => ?_⟩
    rcases List.mem_append.mp hc with hold | hnew
    · exact Or.inl hold
    · obtain ⟨c, hmem, rfl⟩ := List.mem_map.mp hnew
      rw [htrace] at hmem
      exact Or.inr ⟨labPath, lab, hlab, hfrom.id.symm, hfrom.spares (hok c hmem)⟩
  rw [ends_onHost]
  exact (hm _).mono (fun _ w hw => hafter w hw) (fun _ w hw => hafter w hw)

/-- What every network of a lab at hand lets its code do. -/
theorem frames_reconcile_spares {env : SiteEnv} {lab : Lab}
    (hsound : lab.HostSound joins) (source : NicSource) :
    Frames (Issues (lab.Spares joins)) (reconcileAfterLink env source lab) :=
  frames_reconcileAfterLink (workings_issues _) (plain_spares lab) (givesOnNetworks_spares hsound)
    source

theorem hostedFrom_stampLinks (stamps : List Stamp) (lab : Lab) :
    HostedFrom joins lab (stamps.foldl stampLinkAttachGeneration lab) := by
  induction stamps generalizing lab with
  | nil => exact HostedFrom.refl lab
  | cons stamp rest ih =>
    have hlinks : ∀ l' ∈ (stampLinkAttachGeneration lab stamp).links,
        ∃ l ∈ lab.links, l.attachment? = l'.attachment? := by
      intro l' hl'
      have hsame : (stampLinkAttachGeneration lab stamp).links.map Link.attachment? =
          lab.links.map Link.attachment? := by
        unfold stampLinkAttachGeneration
        dsimp only
        split
        next => exact map_modifyFirst _ (stampLink _) Link.attachment? (fun _ => rfl) _
        next => exact map_modifyFirst _ (stampLink _) Link.attachment? (fun _ => rfl) _
      have hmem := List.mem_map_of_mem (f := Link.attachment?) hl'
      rw [hsame] at hmem
      exact List.mem_map.mp hmem
    have hone : HostedFrom joins lab (stampLinkAttachGeneration lab stamp) := by
      unfold stampLinkAttachGeneration at hlinks ⊢
      dsimp only at hlinks ⊢
      split
      next hnone =>
        rw [hnone] at hlinks
        exact hostedFrom_same rfl rfl ⟨hlinks, fun key node hget => ⟨node, hget, rfl, rfl⟩⟩
      next node hnode =>
        rw [hnode] at hlinks
        refine hostedFrom_same rfl rfl ⟨hlinks, fun key node' hget => ?_⟩
        dsimp only at hget
        rw [Dict.get?_set] at hget
        split at hget
        next hkey =>
          subst hkey
          obtain rfl := Option.some.inj hget
          exact ⟨node, hnode, rfl, (map_modifyFirst
            (fun iface => decide (iface.index = stamp.interfaceIndex))
            (stampIface stamp.attachGeneration) Iface.index (fun _ => rfl) node.interfaces).symm⟩
        next => exact ⟨node', hget, rfl, rfl⟩
    exact hone.trans (ih (stampLinkAttachGeneration lab stamp))

theorem sameHost_promote (networkId : Int) (network : Network) :
    SameHost network (promote networkId network) := ⟨rfl, rfl, rfl⟩

/-- The later lab has its interfaces joined as allowed. -/
theorem HostedFrom.rewired {lab lab' wired : Lab} (h : HostedFrom joins lab lab')
    (hid : wired.id = lab'.id) (hnets : wired.networks = lab'.networks)
    (hwithin : ∀ nodeId interfaceIndex key, wired.Joins nodeId interfaceIndex key →
      joins nodeId interfaceIndex key) : HostedFrom joins lab wired :=
  ⟨hid.trans h.id, fun key network bridge hget hon => h.records key network bridge (hnets ▸ hget) hon,
    fun _ => hwithin⟩

/-- A new link promotes a network, or makes one that is on no bridge yet. -/
theorem hostedFrom_createLinkData {lab : Lab} {a b : Endpoint} {style : Option String}
    {created : CreatedLink} (h : createLinkData lab a b style = .ok created)
    (hwithin : ∀ nodeId interfaceIndex key, created.data.Joins nodeId interfaceIndex key →
      joins nodeId interfaceIndex key) : HostedFrom joins lab created.data := by
  have hmixed : ∀ networkId, createMixedLink lab a b style networkId = .ok created →
      HostedFrom joins lab created.data := by
    intro networkId hm
    unfold createMixedLink at hm
    split at hm
    next => cases hm
    next record hget =>
      have hpromoted := @hostedFrom_set joins lab networkId (promote networkId record)
        (fun _ _ => ⟨record, hget, sameHost_promote networkId record⟩)
      cases hm
      dsimp only at hwithin ⊢
      unfold promoteAtThree at hwithin ⊢
      dsimp only at hwithin ⊢
      rw [hget] at hwithin ⊢
      dsimp only at hwithin ⊢
      split
      next hthree =>
        rw [if_pos hthree] at hwithin
        exact hpromoted.rewired rfl rfl hwithin
      next hthree =>
        rw [if_neg hthree] at hwithin
        exact (HostedFrom.refl lab).rewired rfl rfl hwithin
  unfold createLinkData at h
  obtain ⟨_, _, h⟩ := bind_eq_ok.mp h
  obtain ⟨_, _, h⟩ := bind_eq_ok.mp h
  split at h
  next =>
    cases h
    have himplicit := @hostedFrom_set joins lab lab.networks.nextKey
      (buildImplicitNetwork lab.networks.nextKey) (fun bridge hon => by cases hon.stored)
    exact himplicit.rewired rfl rfl hwithin
  next => exact hmixed _ h
  next => exact hmixed _ h

/-- A request that passes the guards takes no network to the bridge clouds or away from them. -/
theorem checkNetworkPatch_bridgeCloud {via : String} {network : Network} {patch : NetworkUpdate}
    (h : checkNetworkPatch via network patch = .ok ()) (hcloud : network.type = .bridgeCloud) :
    patch.type.getD network.type = .bridgeCloud := by
  unfold checkNetworkPatch at h
  obtain ⟨_, htype, _⟩ := bind_eq_ok.mp h
  cases hnew : patch.type with
  | none => exact hcloud
  | some new =>
    rw [hnew] at htype
    unfold checkNetworkType at htype
    dsimp only at htype
    split at htype
    next => cases htype
    next hsame =>
      rw [Option.getD_some]
      by_contra hne
      apply hsame
      rw [hcloud]
      exact ⟨hne, Or.inr rfl⟩

/-- What the two update calls write on a host-owned bridge is the bridge cloud that was there. -/
theorem labsFrom_put {labs labs' : Dict String Lab} {target : String × Int}
    {via : String} {network network' : Network} {patch : NetworkUpdate} (hsound : HostLabs joined labs)
    (hat : networkAt labs target = some network)
    (hcheck : checkNetworkPatch via network patch = .ok ())
    (hput : PutNetwork labs labs' target network')
    (hsame : SameCloud (askedRecord network patch) network') : LabsFrom joined labs labs' := by
  obtain ⟨lab, hlab, hlabs⟩ := hput.written
  obtain ⟨found, hfound, hget⟩ := networkAt_eq_some_iff.mp hat
  obtain rfl := Option.some.inj (hlab.symm.trans hfound)
  rw [hlabs]
  refine LabsFrom.set hlab (hostedFrom_set (fun bridge hon => ⟨network, hget, ?_⟩))
  have hruntime : network'.runtime = network.runtime := hsame.runtime
  have hbefore : network.OnHostBridge bridge := ⟨hruntime ▸ hon.stored, hon.owned⟩
  have hcloud := (hsound target.1 lab hlab).hosted target.2 network bridge hget hbefore
  have htype : network'.type = patch.type.getD network.type := hsame.type
  refine ⟨?_, by rw [hruntime], by rw [hruntime]⟩
  rw [htype, checkNetworkPatch_bridgeCloud hcheck hcloud.type, hcloud.type]

theorem PopNetwork.labsFrom {labs labs' : Dict String Lab} {target : String × Int}
    (h : PopNetwork labs labs' target) : LabsFrom joined labs labs' := by
  obtain ⟨lab, hlab, hlabs⟩ := h.removed
  rw [hlabs]
  exact LabsFrom.set hlab (hostedFrom_pop lab target.2)

/-- `PUT /topology` writes the layout of networks and nothing else of them. -/
theorem hostedFrom_updateTopology {lab data : Lab} {payload : TopologyPayload}
    (h : updateTopology lab payload = .ok data)
    (hwithin : ∀ nodeId interfaceIndex key, data.Joins nodeId interfaceIndex key →
      joins nodeId interfaceIndex key) : HostedFrom joins lab data := by
  have hfold : ∀ (patches : List (Int × NetworkPatch)) (before : Lab),
      HostedFrom joins before { before with
        networks := patches.foldl (patchEntry applyNetworkLayout) before.networks } := by
    intro patches
    induction patches with
    | nil => exact fun before => HostedFrom.refl before
    | cons patch rest ih =>
      intro before
      have hone : HostedFrom joins before
          { before with networks := patchEntry applyNetworkLayout before.networks patch } := by
        unfold patchEntry
        split
        next => exact HostedFrom.refl before
        next network hget =>
          exact hostedFrom_set (fun _ _ => ⟨network, hget, ⟨rfl, rfl, rfl⟩⟩)
      exact hone.trans (ih _)
  have hpatched := hfold payload.networks lab
  unfold updateTopology writeLabJson at h
  split at h
  next =>
    obtain ⟨links, _, h⟩ := bind_eq_ok.mp h
    cases h
    exact hpatched.rewired rfl rfl hwithin
  next =>
    cases h
    exact hpatched.rewired rfl rfl hwithin

theorem hostedFrom_removeLink (lab : Lab) (removed : Link) (linkId : String) :
    HostedFrom joins lab (removeLink lab removed linkId) := by
  have hfold : ∀ (links : List Link) (ids : List Int) (before : Lab),
      HostedFrom joins before
        { before with networks := ids.foldl (collectImplicit links) before.networks } := by
    intro links ids
    induction ids with
    | nil => exact fun before => HostedFrom.refl before
    | cons networkId rest ih =>
      intro before
      have hone : HostedFrom joins before
          { before with networks := collectImplicit links before.networks networkId } := by
        unfold collectImplicit
        split
        next =>
          split
          next => exact hostedFrom_pop before networkId
          next => exact HostedFrom.refl before
        next => exact HostedFrom.refl before
      exact hone.trans (ih _)
  refine (hfold _ removed.networks lab).trans (hostedFrom_same rfl rfl ⟨fun l hl => ?_, ?_⟩)
  · exact ⟨l, List.mem_of_mem_eraseP ((cascade_sublist _ _ _).subset hl), rfl⟩
  · exact fun key node hget => ⟨node, hget, rfl, rfl⟩

theorem labsFrom_releaseIn {labs labs' : Dict String Lab} {target : String × Int} {ip : String}
    {flag : Bool} (h : releaseIn labs target ip = .ok (labs', flag)) : LabsFrom joined labs labs' := by
  unfold releaseIn at h
  split at h
  next => cases h
  next lab hlab =>
    split at h
    next =>
      cases h
      exact LabsFrom.refl labs
    next network hget =>
      split at h
      next =>
        cases h
        exact LabsFrom.refl labs
      next hused =>
        rw [not_not] at hused
        obtain ⟨used, _, hrelease⟩ := releaseIpFromOwner_eq hget hused
        cases h
        rw [hrelease]
        exact LabsFrom.set hlab (hostedFrom_set (fun _ _ => ⟨network, hget, ⟨rfl, rfl, rfl⟩⟩))

theorem labsFrom_releaseLinkIp {labs labs' : Dict String Lab} {labPath : String} {target : Link}
    (h : releaseLinkIp labs labPath target = .ok labs') : LabsFrom joined labs labs' := by
  unfold releaseLinkIp at h
  split at h
  next ip networkId _ _ _ =>
    split at h
    next =>
      cases h
      exact LabsFrom.refl labs
    next =>
      cases hrelease : NetworkService.releaseIp false labs labPath networkId ip with
      | error e =>
        rw [hrelease] at h
        cases h
      | ok released =>
        rw [hrelease] at h
        cases h
        unfold NetworkService.releaseIp at hrelease
        obtain ⟨place, _, hrelease⟩ := bind_eq_ok.mp hrelease
        cases place with
        | none =>
          cases hrelease
          exact LabsFrom.refl labs
        | some place => exact labsFrom_releaseIn hrelease
  next =>
    cases h
    exact LabsFrom.refl labs

end NovaVe
