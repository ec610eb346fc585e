import NovaVe.Runs
import NovaVe.SiteEnsure

namespace NovaVe

/-- A call, whether it returns or raises, keeps the site sound. -/
theorem siteStep_sound {env : SiteEnv} {site : Site} (h : SiteSound env.labHash site)
    (call : SiteCall × List Reply) : SoundAfter env.labHash site (siteStep env site call) := by
  obtain ⟨call, replies⟩ := call
  have hreplies : SiteSound env.labHash { site with replies := replies } := ⟨h.labs, h.ports⟩
  have hcall : Ends (call.program env) { site with replies := replies }
      (fun _ t => SoundAfter env.labHash { site with replies := replies } t)
      (fun _ t => SoundAfter env.labHash { site with replies := replies } t) := by
    cases call with
    | createNetwork labPath request => exact createNetwork_sound hreplies labPath request
    | createLink source labPath a b style => exact createLink_sound hreplies source labPath a b style
    | ensureLabBridges source labPath => exact ensureLabBridges_sound hreplies source labPath
    | startNode maxNics hotplugCapable container labPath nodeKey =>
      exact startNode_sound hreplies maxNics hotplugCapable container labPath nodeKey
    | reconcile source labPath nodeId => exact reconcile_sound hreplies source labPath nodeId
  unfold siteStep
  dsimp only
  unfold Ends at hcall
  split
  next heq =>
    rw [heq] at hcall
    exact ⟨hcall.sound, hcall.keeps⟩
  next heq =>
    rw [heq] at hcall
    exact ⟨hcall.sound, hcall.keeps⟩

theorem HashesDiffer.keeps {labHash : String → Fin 65536} {labs labs' : Dict String Lab}
    (h : HashesDiffer labHash labs) (hkeep : LabsKeep labHash labs labs') :
    HashesDiffer labHash labs' := by
  have hbefore : ∀ labPath lab', labs'.get? labPath = some lab' →
      ∃ lab, labs.get? labPath = some lab ∧ lab'.id = lab.id := by
    intro labPath lab' hlab'
    cases hlab : labs.get? labPath with
    | none =>
      rw [hkeep.noMore labPath hlab] at hlab'
      cases hlab'
    | some lab =>
      obtain ⟨kept, hkept, hstep⟩ := hkeep.kept labPath lab hlab
      obtain rfl := Option.some.inj (hkept.symm.trans hlab')
      exact ⟨lab, rfl, hstep.id⟩
  intro path path' lab lab' hlab hlab' hhash
  obtain ⟨old, hold, hid⟩ := hbefore path lab hlab
  obtain ⟨old', hold', hid'⟩ := hbefore path' lab' hlab'
  rw [hid, hid'] at hhash
  exact h path path' old old' hold hold' hhash

/-- The labs of a host on which nothing has run yet: a bridge that is stamped in a lab is one that
the lab may use, and no interface is on a bridge. -/
structure Site.Fresh (labHash : String → Fin 65536) (site : Site) : Prop where
  labs : ∀ labPath lab, site.labs.get? labPath = some lab → LabSound labHash site.labs labPath lab
  free : ∀ h port state, (site.ports h).get? port = some state → state.master = none

/-- As long as no two labs share a hash, the labs of a host stay isolated from each other, over any
sequence of calls and whatever the host answers. -/
theorem labs_isolated {env : SiteEnv} {start site : Site} {calls : List (SiteCall × List Reply)}
    (hfresh : start.Fresh env.labHash) (hhashes : HashesDiffer env.labHash start.labs)
    (run : Run (stepOf (siteStep env)) start calls site) : Isolated site := by
  have hstart : SoundAfter env.labHash start start := by
    refine soundAfter_same rfl ⟨hfresh.labs, fun h port state bridge hget hmaster => ?_⟩
    rw [hfresh.free h port state hget] at hmaster
    cases hmaster
  have hrun : SoundAfter env.labHash start site := by
    refine @Run.invariant _ _ _ (SoundAfter env.labHash start) (fun s call t hs hstep => ?_) _ _ _
      run hstart
    have hcall := siteStep_sound hs.sound call
    rw [hstep] at hcall
    exact hs.trans hcall
  exact isolated_of_sound hrun.sound (hhashes.keeps hrun.keeps)

def oneNicNode (nodeId : Int) : Node :=
  { id := nodeId, name := "vm", type := .qemu, interfaces := [{ index := 0, name := "eth0" }] }

/-- One node on one network. -/
def oneLinkLab (labId : String) (nodeId : Int) : Lab :=
  { id := labId
    nodes := Dict.empty.set nodeId (oneNicNode nodeId)
    networks := Dict.empty.set 1 { id := 1, name := "lan" }
    links := [{ id := "lnk_001", from_ := .node nodeId 0, to_ := .network 1 }] }

theorem oneLinkLab_sound (labHash : String → Fin 65536) (labs : Dict String Lab) (labPath : String)
    {labId : String} (hid : labId ≠ "") (nodeId : Int) :
    LabSound labHash labs labPath (oneLinkLab labId nodeId) := by
  refine ⟨hid, fun networkId network hget => ?_⟩
  have hlook : (if 1 = networkId then some { id := 1, name := "lan" } else none) =
      some network := by
    rw [← hget]
    exact (Dict.get?_set Dict.empty 1 networkId _).symm
  split at hlook
  next hkey =>
    obtain rfl := Option.some.inj hlook
    refine ⟨hkey, fun bridge hb => ?_, fun _ _ bridge hb => ?_⟩
    · cases hb
    · cases hb
  next => cases hlook

def twoLabs : Site :=
  { labs := (Dict.empty.set "a.json" (oneLinkLab "a" 1)).set "b.json" (oneLinkLab "b" 2) }

theorem twoLabs_lab {labPath : String} {lab : Lab} (h : twoLabs.labs.get? labPath = some lab) :
    (labPath = "a.json" ∧ lab = oneLinkLab "a" 1) ∨ (labPath = "b.json" ∧ lab = oneLinkLab "b" 2) := by
  unfold twoLabs at h
  dsimp only at h
  rw [Dict.get?_set, Dict.get?_set] at h
  split at h
  next hpath => exact Or.inr ⟨hpath.symm, (Option.some.inj h).symm⟩
  next =>
    split at h
    next hpath => exact Or.inl ⟨hpath.symm, (Option.some.inj h).symm⟩
    next => cases h

theorem twoLabs_fresh (labHash : String → Fin 65536) : twoLabs.Fresh labHash := by
  refine ⟨fun labPath lab hlab => ?_, fun h port state hget => by cases hget⟩
  rcases twoLabs_lab hlab with ⟨_, rfl⟩ | ⟨_, rfl⟩
  · exact oneLinkLab_sound labHash twoLabs.labs labPath (by decide) 1
  · exact oneLinkLab_sound labHash twoLabs.labs labPath (by decide) 2

/-- Labs differ by their ids. -/
def LabsDiffer (labs : Dict String Lab) : Prop :=
  ∀ labPath labPath' lab lab', labs.get? labPath = some lab → labs.get? labPath' = some lab' →
    lab.id = lab'.id → labPath = labPath'

theorem twoLabs_differ {α : Type} {f : String → α} (h : f "a" ≠ f "b")
    {labPath labPath' : String} {lab lab' : Lab} (hlab : twoLabs.labs.get? labPath = some lab)
    (hlab' : twoLabs.labs.get? labPath' = some lab') (heq : f lab.id = f lab'.id) :
    labPath = labPath' := by
  rcases twoLabs_lab hlab with ⟨rfl, rfl⟩ | ⟨rfl, rfl⟩
  · rcases twoLabs_lab hlab' with ⟨rfl, rfl⟩ | ⟨rfl, rfl⟩
    · rfl
    · exact absurd heq h
  · rcases twoLabs_lab hlab' with ⟨rfl, rfl⟩ | ⟨rfl, rfl⟩
    · exact absurd heq.symm h
    · rfl

def plainSource : NicSource :=
  { driver := fun _ => none, nicModel := fun _ => "e1000", plannedMac := fun _ _ => "" }

/-- The bridges of lab `a` are made, then a node of each lab is started. -/
def twoStarts : List (SiteCall × List Reply) :=
  [(.ensureLabBridges plainSource "a.json", []), (.startNode 8 false .absent "a.json" 1, []),
    (.startNode 8 false .absent "b.json" 2, [])]

def separateEnv : SiteEnv :=
  { labHash := fun labId => if labId = "a" then 1 else 0, natCloudPool := "10.255.0.0/16"
    lower := fun text => text }

theorem twoStarts_isolated :
    Isolated (twoStarts.foldl (siteStep separateEnv) twoLabs) :=
  labs_isolated (twoLabs_fresh separateEnv.labHash)
    (fun _ _ _ _ hlab hlab' heq => twoLabs_differ (by decide) hlab hlab' heq)
    (run_stepOf_iff.mpr rfl)

def collidingEnv : SiteEnv := { separateEnv with labHash := fun _ => 0 }

def mixedSite : Site := twoStarts.foldl (siteStep collidingEnv) twoLabs

/-- Both TAPs are on one bridge, and neither lab has a cloud. -/
theorem mixedSite_ports :
    ((mixedSite.ports 0).get? (.tap 1 0)).map PortState.master = some (some "nove0000n1") ∧
      ((mixedSite.ports 0).get? (.tap 2 0)).map PortState.master = some (some "nove0000n1") ∧
      mixedSite.placedBy 0 (.tap 1 0) = some "a" ∧ mixedSite.placedBy 0 (.tap 2 0) = some "b" ∧
      mixedSite.labs.entries.all (fun entry => entry.2.networks.entries.all (fun record =>
        decide (record.2.type ≠ .natCloud ∧ record.2.type ≠ .bridgeCloud))) = true := by
  decide +kernel

theorem mixedSite_off_clouds {labPath : String} {lab : Lab} {networkId : Int} {network : Network}
    (hlab : mixedSite.labs.get? labPath = some lab)
    (hnet : lab.networks.get? networkId = some network) :
    network.type ≠ .natCloud ∧ network.type ≠ .bridgeCloud := by
  have hall := mixedSite_ports.2.2.2.2
  have hrecords := List.all_eq_true.mp hall _ (Dict.mem_entries_of_get? hlab)
  have hrecord := List.all_eq_true.mp hrecords _ (Dict.mem_entries_of_get? hnet)
  exact of_decide_eq_true hrecord

theorem colliding_labs_mix :
    ¬∀ (env : SiteEnv) (start site : Site) (calls : List (SiteCall × List Reply)),
      LabsDiffer start.labs → start.Fresh env.labHash →
      Run (stepOf (siteStep env)) start calls site → Isolated site := by
  intro h
  obtain ⟨hfirst, hsecond, hplaced, hplaced', _⟩ := mixedSite_ports
  obtain ⟨state, hport, hmaster⟩ := Option.map_eq_some_iff.mp hfirst
  obtain ⟨state', hport', hmaster'⟩ := Option.map_eq_some_iff.mp hsecond
  have hisolated := h collidingEnv twoLabs mixedSite twoStarts
    (fun _ _ _ _ hlab hlab' heq => @twoLabs_differ _ id (by decide) _ _ _ _ hlab hlab' heq)
    (twoLabs_fresh collidingEnv.labHash) (run_stepOf_iff.mpr rfl)
  rcases hisolated 0 0 _ _ state state' _ "a" "b" hport hport' hmaster hmaster' hplaced hplaced'
    (by decide) with ⟨⟨_, _, _, _, _, hlab, _, hnet, htype, _⟩, _⟩ |
      ⟨_, ⟨_, _, _, _, hlab, _, hnet, htype, _, _⟩, _⟩
  · exact (mixedSite_off_clouds hlab hnet).2 htype
  · exact (mixedSite_off_clouds hlab hnet).1 htype

end NovaVe
