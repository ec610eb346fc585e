import NovaVe.BridgeStamps
import NovaVe.HostBridgeSteps
import NovaVe.LabIsolation

namespace NovaVe

variable {joined : String → Joining}

/-- A built network is on a host-owned bridge only as the bridge cloud that was asked for. -/
theorem buildNetwork_onHostBridge {env : SiteEnv} {site : Site} {labPath name stamp : String}
    {lab : Lab} {request : NetworkCreate} {config : NetworkConfig} {bridge : Option String}
    (hsound : HostLabs joined site.labs)
    (hconfig : normalizedConfig ((env.cloud site).host site.labs labPath lab) lab.networks request =
      .ok (config, bridge))
    (hhost : checkHostBridge ((env.cloud site).host site.labs labPath lab) request.type config =
      .ok ())
    (hon : (buildNetwork ((env.cloud site).host site.labs labPath lab) lab.id lab.networks.nextKey
      name request config bridge).OnHostBridge stamp) :
    (buildNetwork ((env.cloud site).host site.labs labPath lab) lab.id lab.networks.nextKey
        name request config bridge).IsBridgeCloud stamp ∧
      request.type = .bridgeCloud ∧ request.config.hostBridge = some stamp := by
  have hstored := hon.stored
  unfold buildNetwork at hstored
  dsimp only at hstored
  split at hstored
  next hcloud =>
    have hvalue := Option.some.inj hstored
    rw [hcloud] at hhost
    have hname := checkHostBridge_name hhost
    rw [hvalue] at hname
    rw [normalizedConfig_other (by rw [hcloud]; decide)] at hconfig
    obtain ⟨rfl, _⟩ := Prod.mk.inj (Except.ok.inj hconfig)
    have hasked : request.config.hostBridge = some stamp := by
      cases hb : request.config.hostBridge with
      | none =>
        rw [hb] at hvalue
        subst hvalue
        cases hname
      | some asked =>
        rw [hb] at hvalue
        exact congrArg some hvalue
    refine ⟨⟨hcloud, ?_, hname⟩, hcloud, hasked⟩
    unfold buildNetwork
    dsimp only
    rw [hcloud]
    rfl
  next hcloud =>
    have hvalue := Option.some.inj hstored
    have howned := hon.owned
    rw [← hvalue] at howned
    cases hb : bridge with
    | none =>
      rw [hb] at howned
      have hgenerated := isHostOwned_bridgeNameOf env.labHash lab.id lab.networks.nextKey
      exact absurd (hgenerated.symm.trans howned) (by decide)
    | some owned =>
      subst hb
      by_cases hnat : request.type = .natCloud
      · rw [normalizedConfig_natCloud hnat] at hconfig
        obtain ⟨cloud, owner, _, hfind, _, hbridge⟩ := natCloudConfig_bridge hconfig
        obtain ⟨ownerLab, key, found, howner, hnet, htype, href, _, _⟩ := cloudOwner_found hfind
        have hfound : owner.network = found := by
          rw [← href]
          rfl
        rw [hfound] at hbridge
        have hcloudType := ((hsound owner.labPath ownerLab howner).hosted key found owned hnet
          ⟨hbridge, howned⟩).type
        rw [htype] at hcloudType
        cases hcloudType
      · rw [normalizedConfig_other hnat] at hconfig
        cases hconfig

/-- A record on a host-owned bridge is an old one, or one of the bridge clouds that were made. -/
def FromOrMade (made : BridgeClouds) (site t : Site) : Prop :=
  ∀ labPath lab' key network bridge, t.labs.get? labPath = some lab' →
    lab'.networks.get? key = some network → network.OnHostBridge bridge →
    (∃ lab before, site.labs.get? labPath = some lab ∧ lab.id = lab'.id ∧
      lab.networks.get? key = some before ∧ SameHost before network) ∨
    (network.IsBridgeCloud bridge ∧ (lab'.id, key, bridge) ∈ made)

theorem LabsFrom.fromOrMade {site t : Site} (h : LabsFrom joined site.labs t.labs) (made : BridgeClouds) :
    FromOrMade made site t := by
  intro labPath lab' key network bridge hlab' hget hon
  obtain ⟨lab, hlab, hfrom⟩ := h labPath lab' hlab'
  obtain ⟨before, hbefore, hsame⟩ := hfrom.records key network bridge hget hon
  exact Or.inl ⟨lab, before, hlab, hfrom.id.symm, hbefore, hsame⟩

/-- What a call may do: its new records and its commands. -/
structure CallSafe (joined : String → Joining) (made : BridgeClouds) (site t : Site) : Prop where
  records : FromOrMade made site t
  given : ∀ command ∈ t.given, command ∈ site.given ∨ Spared joined site.labs command

theorem HostSafe.callSafe {site t : Site} (h : HostSafe joined site t) (made : BridgeClouds) :
    CallSafe joined made site t := ⟨h.labs.fromOrMade made, h.given⟩

theorem createNetwork_callSafe {env : SiteEnv} {site : Site} (h : HostLabs joined site.labs)
    (labPath : String) (request : NetworkCreate) :
    Ends (siteCreateNetwork env labPath request) site
      (fun _ t => CallSafe joined ((ApiCall.site (.createNetwork labPath request)).madeCloud site) site t)
      (fun _ t => HostSafe joined site t) := by
  unfold siteCreateNetwork
  rw [ends_bind, ends_get]
  split
  next lab labs hlab hcreate =>
    split
    next => exact HostSafe.refl site
    next network hnet =>
      obtain ⟨config, bridge, hconfig, hhost, hlabs⟩ := createNetworkIn_built hlab hcreate
      have hbuilt : network = buildNetwork ((env.cloud site).host site.labs labPath lab) lab.id
          lab.networks.nextKey (pyStrip request.name) request config bridge := by
        rw [hlabs, Dict.get?_set_self, Option.bind_some] at hnet
        unfold Lab.withNetwork at hnet
        rw [Dict.get?_set_self] at hnet
        exact (Option.some.inj hnet).symm
      have hcloud : ∀ stamp, network.OnHostBridge stamp → network.IsBridgeCloud stamp ∧
          request.type = .bridgeCloud ∧ request.config.hostBridge = some stamp := by
        intro stamp hon
        rw [hbuilt] at hon ⊢
        exact buildNetwork_onHostBridge h hconfig hhost hon
      have htype : network.type = request.type := by
        rw [hbuilt]
        rfl
      have hprovision : Frames (Issues (lab.Spares (joined labPath)))
          (provisionNetwork site.fingerprints lab.id network) := by
        refine frames_provisionNetwork (workings_issues _).toCommands (plain_spares lab) _ _ _
          (fun hne => reshapes_spares lab ?_)
        rw [← Bool.not_eq_true]
        intro howned
        cases hstored : network.runtime.bridgeName with
        | none =>
          rw [hstored] at howned
          cases howned
        | some stamp =>
          rw [hstored] at howned
          exact hne (hcloud stamp ⟨hstored, howned⟩).1.type
      rw [ends_bind]
      refine (onHost_safe hlab (HostedFrom.refl lab) network.id hprovision).mono
        (fun _ t ht => ?_) (fun _ t ht => ht.2)
      rw [ends_modify]
      refine ⟨fun path lab' key found stamp hlab' hget hon => ?_, ht.2.given⟩
      dsimp only at hlab'
      rw [hlabs, Dict.get?_set] at hlab'
      split at hlab'
      next hpath =>
        subst hpath
        obtain rfl := Option.some.inj hlab'
        unfold Lab.withNetwork at hget
        rw [Dict.get?_set, ← hbuilt] at hget
        split at hget
        next hkey =>
          subst hkey
          obtain rfl := Option.some.inj hget
          obtain ⟨his, hasked, hbridge⟩ := hcloud stamp hon
          refine Or.inr ⟨his, ?_⟩
          unfold ApiCall.madeCloud
          dsimp only
          rw [hlab, hasked, hbridge]
          exact List.mem_singleton_self _
        next => exact Or.inl ⟨lab, found, hlab, rfl, hget, SameHost.refl found⟩
      next => exact Or.inl ⟨lab', found, hlab', rfl, hget, SameHost.refl found⟩
  next => exact HostSafe.refl site

theorem createLab_callSafe {site : Site} (labPath labId : String) (labMeta : Dict String String) :
    Ends (siteCreateLab labPath labId labMeta) site
      (fun _ t => CallSafe joined [] site t)
      (fun _ t => HostSafe joined site t) := by
  unfold siteCreateLab storeLabs
  rw [ends_bind, ends_get]
  cases hlab : site.labs.get? labPath with
  | some lab => exact HostSafe.refl site
  | none =>
    dsimp only
    rw [ends_modify]
    refine ⟨fun path lab' key network bridge hlab' hget hon => ?_, fun _ hc => Or.inl hc⟩
    dsimp only at hlab'
    rw [Dict.get?_set] at hlab'
    split at hlab'
    next =>
      obtain rfl := Option.some.inj hlab'
      cases hget
    next => exact Or.inl ⟨lab', network, hlab', rfl, hget, SameHost.refl network⟩

theorem Keeps.callSafe {m : SiteM Unit} {site : Site} (h : Keeps joined m site) (made : BridgeClouds) :
    Ends m site (fun _ t => CallSafe joined made site t) (fun _ t => HostSafe joined site t) :=
  h.mono (fun _ _ ht => ht.callSafe made) (fun _ _ ht => ht)

/-- Every call, whether it returns or raises. -/
theorem program_callSafe {env : SiteEnv} {site : Site} (call : ApiCall)
    (h : HostLabs (call.Joined site.labs) site.labs) :
    Ends (call.program env) site
      (fun _ t => CallSafe (call.Joined site.labs) (call.madeCloud site) site t)
      (fun _ t => HostSafe (call.Joined site.labs) site t) := by
  cases call with
  | site call =>
    cases call with
    | createNetwork labPath request => exact createNetwork_callSafe h labPath request
    | createLink source labPath a b style =>
      refine (createLink_keeps h source labPath
        (fun lab created hlab hcreate nodeId interfaceIndex key hjoins => ?_)).callSafe _
      refine ⟨lab, hlab, Or.inr ⟨created.data, ?_, hjoins⟩⟩
      unfold ApiCall.wired?
      dsimp only
      rw [if_pos rfl, hcreate]
      rfl
    | ensureLabBridges source labPath => exact (ensureLabBridges_keeps h source labPath).callSafe _
    | startNode maxNics hotplugCapable container labPath nodeKey =>
      exact (startNode_keeps h maxNics hotplugCapable container labPath nodeKey).callSafe _
    | reconcile source labPath nodeId => exact (reconcile_keeps h source labPath nodeId).callSafe _
  | createLab labPath labId labMeta => exact createLab_callSafe labPath labId labMeta
  | patchNetwork labPath networkId patch =>
    exact (patchNetwork_keeps h labPath networkId patch).callSafe _
  | updateNetwork labPath networkId patch =>
    exact (updateNetwork_keeps h labPath networkId patch).callSafe _
  | deleteNetwork labPath networkId => exact (deleteNetwork_keeps h labPath networkId).callSafe _
  | updateTopology source labPath payload =>
    refine (updateTopology_keeps h source labPath
      (fun lab data hlab hupdate nodeId interfaceIndex key hjoins => ?_)).callSafe _
    refine ⟨lab, hlab, Or.inr ⟨data, ?_, hjoins⟩⟩
    unfold ApiCall.wired?
    dsimp only
    rw [if_pos rfl, hupdate]
    rfl
  | deleteLink source labPath linkId => exact (deleteLink_keeps h source labPath linkId).callSafe _
  | stopNode labPath nodeId => exact (stopNode_keeps labPath nodeId).callSafe _
  | deleteLab labPath row => exact (deleteLab_keeps h labPath row).callSafe _

/-- The stored records on host-owned bridges are the bridge clouds that were created there. -/
def OnlyCreated (s : CloudSite) : Prop :=
  ∀ labPath lab key network bridge, s.site.labs.get? labPath = some lab →
    lab.networks.get? key = some network → network.OnHostBridge bridge →
    network.IsBridgeCloud bridge ∧ (lab.id, key, bridge) ∈ s.created

theorem OnlyCreated.hostLabs {s : CloudSite} (h : OnlyCreated s) (call : ApiCall) :
    HostLabs (call.Joined s.site.labs) s.site.labs :=
  fun labPath lab hlab => ⟨fun key network bridge hget hon =>
    (h labPath lab key network bridge hlab hget hon).1,
    fun _ _ _ hjoins => ⟨lab, hlab, Or.inl hjoins⟩⟩

theorem OnlyCreated.step {s : CloudSite} {t : Site} {made : BridgeClouds} (h : OnlyCreated s)
    (hrecords : FromOrMade made s.site t) :
    OnlyCreated { site := t, created := s.created ++ made } := by
  intro labPath lab' key network bridge hlab' hget hon
  rcases hrecords labPath lab' key network bridge hlab' hget hon with
    ⟨lab, before, hlab, hid, hbefore, hsame⟩ | ⟨hcloud, hmade⟩
  · obtain ⟨hcloud, hmem⟩ := h labPath lab key before bridge hlab hbefore
      ⟨hsame.bridge ▸ hon.stored, hon.owned⟩
    rw [hid] at hmem
    exact ⟨⟨hsame.type.trans hcloud.type, hsame.driver.trans hcloud.driver, hcloud.name⟩,
      List.mem_append_left made hmem⟩
  · exact ⟨hcloud, List.mem_append_right s.created hmade⟩

/-- One call keeps the records, and gives only commands that the labs before it may give. -/
theorem apiStep_safe {env : SiteEnv} {s : CloudSite} (h : OnlyCreated s)
    (call : ApiCall × List Reply) :
    OnlyCreated (apiStep env s call) ∧
      ∀ command ∈ (apiStep env s call).site.given,
        Spared (call.1.Joined s.site.labs) s.site.labs command := by
  have hends := @program_callSafe env { s.site with replies := call.2, given := [] } call.1
    (h.hostLabs call.1)
  unfold Ends at hends
  unfold apiStep
  split
  next heq =>
    rw [heq] at hends
    exact ⟨h.step hends.records,
      fun command hc => (hends.given command hc).resolve_left List.not_mem_nil⟩
  next heq =>
    rw [heq] at hends
    have hkept := h.step (hends.labs.fromOrMade [])
    rw [List.append_nil] at hkept
    exact ⟨hkept, fun command hc => (hends.given command hc).resolve_left List.not_mem_nil⟩

/-- One of the calls was a `create_network` of a bridge cloud on the bridge. -/
def Asked (calls : List (ApiCall × List Reply)) (bridge : String) : Prop :=
  ∃ labPath request replies, (ApiCall.site (.createNetwork labPath request), replies) ∈ calls ∧
    request.type = .bridgeCloud ∧ request.config.hostBridge = some bridge

/-- The lab has a network that was created as a bridge cloud on the bridge, and the interface is
joined to that network, by the stored lab or by the links that the call asks for. -/
def OnBehalf (s : CloudSite) (call : ApiCall) (labId : String) (port : Port) (bridge : String) :
    Prop :=
  ∃ labPath lab key network, s.site.labs.get? labPath = some lab ∧ lab.id = labId ∧
    lab.networks.get? key = some network ∧ network.type = .bridgeCloud ∧
    network.runtime.bridgeName = some bridge ∧ (labId, key, bridge) ∈ s.created ∧
    call.Joined s.site.labs labPath port.interface.1 port.interface.2 key

theorem asked_of_madeCloud {site : Site} {call : ApiCall} {cloud : String × Int × String}
    (h : cloud ∈ call.madeCloud site) (replies : List Reply) : Asked [(call, replies)] cloud.2.2 := by
  unfold ApiCall.madeCloud at h
  split at h
  next labPath request =>
    split at h
    next lab bridge hlab htype hbridge =>
      obtain rfl := List.mem_singleton.mp h
      exact ⟨labPath, request, replies, List.mem_singleton_self _, htype, hbridge⟩
    next => cases h
  next => cases h

theorem created_asked {env : SiteEnv} {start : Site} {calls : List (ApiCall × List Reply)}
    {s : CloudSite} (run : Run (stepOf (apiStep env)) { site := start } calls s) :
    ∀ cloud ∈ s.created, Asked calls cloud.2.2 := by
  induction run with
  | start => exact fun cloud hc => absurd hc List.not_mem_nil
  | @next t u calls call _ hstep ih =>
    have hmono : ∀ {some : List (ApiCall × List Reply)} {bridge : String}, Asked some bridge →
        (∀ c ∈ some, c ∈ calls ++ [call]) → Asked (calls ++ [call]) bridge := by
      intro some bridge hasked hsub
      obtain ⟨labPath, request, replies, hmem, hrest⟩ := hasked
      exact ⟨labPath, request, replies, hsub _ hmem, hrest⟩
    have hold : ∀ cloud ∈ t.created, Asked (calls ++ [call]) cloud.2.2 :=
      fun cloud hc => hmono (ih cloud hc) (fun c hmem => List.mem_append_left [call] hmem)
    intro cloud hc
    rw [← hstep] at hc
    unfold apiStep at hc
    split at hc
    next =>
      rcases List.mem_append.mp hc with hbefore | hmade
      · exact hold cloud hbefore
      · exact hmono (asked_of_madeCloud hmade call.2) (fun c hmem => List.mem_append_right calls hmem)
    next => exact hold cloud hc

/-- On a host whose stored labs start without records on host-owned bridges: after any sequence of
calls, and whatever the host answers, the next call adds, deletes and fills no host-owned bridge,
but that an interface is put on it for a bridge cloud that was created there and that it is joined
to. -/
theorem host_bridges_spared_of_run {env : SiteEnv} {start : Site}
    {calls : List (ApiCall × List Reply)} {s : CloudSite}
    (hstart : ∀ labPath lab key network bridge, start.labs.get? labPath = some lab →
      lab.networks.get? key = some network → ¬ network.OnHostBridge bridge)
    (run : Run (stepOf (apiStep env)) { site := start } calls s) (call : ApiCall × List Reply) :
    ∀ command ∈ (apiStep env s call).site.given, ∀ verb bridge,
      command.2.bridgeVerb? = some (verb, bridge) → isHostOwned bridge = true →
      verb = .linkMasterHost ∧ Asked calls bridge ∧ ∃ port,
        command.2 = .linkMaster port bridge ∧ OnBehalf s call.1 command.1 port bridge := by
  have hnone : OnlyCreated { site := start } :=
    fun labPath lab key network bridge hlab hget hon =>
      absurd hon (hstart labPath lab key network bridge hlab hget)
  have hcreated : OnlyCreated s := by
    refine @Run.invariant _ _ _ OnlyCreated (fun before next after hbefore hstep => ?_) _ _ _ run
      hnone
    rw [← hstep]
    exact (apiStep_safe hbefore next).1
  intro command hgiven verb bridge hverb howned
  obtain ⟨labPath, lab, hlab, hid, hspares⟩ := (apiStep_safe hcreated call).2 command hgiven
  obtain ⟨hhost, port, hcall, key, network, hget, htype, hstored, hjoined⟩ :=
    hspares verb bridge hverb howned
  have hmem := (hcreated labPath lab key network bridge hlab hget ⟨hstored, howned⟩).2
  rw [hid] at hmem
  exact ⟨hhost, created_asked run _ hmem, port, hcall,
    labPath, lab, key, network, hlab, hid, hget, htype, hstored, hmem, hjoined⟩

/-- A lab with one node, on a host with a physical bridge. -/
def uplinkStart : Site :=
  { labs := Dict.empty.set "a.json" { id := "a", nodes := Dict.empty.set 1 (oneNicNode 1) }
    bridges := ["br-eth0"] }

/-- A bridge cloud is made on the physical bridge, and the node is wired to it. -/
def uplinkCalls : List (ApiCall × List Reply) :=
  [(.site (.createNetwork "a.json"
      { name := "uplink", type := .bridgeCloud, config := { hostBridge := some "br-eth0" } }), []),
    (.site (.createLink plainSource "a.json" (.node 1 0) (.network 1) none), [])]

def uplinkWired : CloudSite := uplinkCalls.foldl (apiStep separateEnv) { site := uplinkStart }

def startCall : ApiCall := .site (.startNode 8 false .absent "a.json" 1)

/-- Started, the node's interface is put on the physical bridge, for the network made there that it
is linked to. -/
theorem uplink_spared : Asked uplinkCalls "br-eth0" ∧
    OnBehalf uplinkWired startCall "a" (.tap 1 0) "br-eth0" := by
  have hstart : ∀ labPath lab key network bridge, uplinkStart.labs.get? labPath = some lab →
      lab.networks.get? key = some network → ¬ network.OnHostBridge bridge := by
    intro labPath lab key network bridge hlab hget
    unfold uplinkStart at hlab
    dsimp only at hlab
    rw [Dict.get?_set] at hlab
    split at hlab
    next =>
      obtain rfl := Option.some.inj hlab
      cases hget
    next => cases hlab
  have hgiven : ("a", HostCall.linkMaster (.tap 1 0) "br-eth0") ∈
      (apiStep separateEnv uplinkWired (startCall, [])).site.given := by decide +kernel
  obtain ⟨_, hasked, port, hport, hbehalf⟩ := host_bridges_spared_of_run hstart
    (run_stepOf_iff.mpr rfl) (startCall, []) _ hgiven .linkMasterHost "br-eth0" (by decide +kernel)
    (by decide +kernel)
  obtain ⟨rfl, _⟩ := HostCall.linkMaster.inj hport
  exact ⟨hasked, hbehalf⟩

end NovaVe
