import NovaVe.BridgeStamps
import NovaVe.HotAttachFrames

namespace NovaVe

/-- No bridge has interfaces of two labs, unless both labs have a bridge cloud on it or are on one NAT
cloud whose bridge it is. -/
def Isolated (site : Site) : Prop :=
  ∀ h h' port port' state state' bridge labId labId',
    (site.ports h).get? port = some state → (site.ports h').get? port' = some state' →
    state.master = some bridge → state'.master = some bridge →
    site.placedBy h port = some labId → site.placedBy h' port' = some labId' → labId ≠ labId' →
    (OnHostCloud site.labs labId bridge ∧ OnHostCloud site.labs labId' bridge) ∨
      ∃ cloud, OnCloud site.labs labId cloud bridge ∧ OnCloud site.labs labId' cloud bridge

structure SiteSound (labHash : String → Fin 65536) (site : Site) : Prop where
  labs : ∀ labPath lab, site.labs.get? labPath = some lab → LabSound labHash site.labs labPath lab
  ports : ∀ h port state bridge, (site.ports h).get? port = some state →
    state.master = some bridge → ∃ labPath lab, site.labs.get? labPath = some lab ∧
      site.placedBy h port = some lab.id ∧ MayUse labHash site.labs lab.id bridge

/-- Different labs of the site have different hashes. -/
def HashesDiffer (labHash : String → Fin 65536) (labs : Dict String Lab) : Prop :=
  ∀ labPath labPath' lab lab', labs.get? labPath = some lab → labs.get? labPath' = some lab' →
    labHash lab.id = labHash lab'.id → labPath = labPath'

theorem OwnedCloud.onCloud {labHash : String → Fin 65536} {labs : Dict String Lab}
    (hsound : ∀ labPath lab, labs.get? labPath = some lab → LabSound labHash labs labPath lab)
    (hinj : HashesDiffer labHash labs) {labPath : String} {lab : Lab}
    (hlab : labs.get? labPath = some lab) {networkId : Int} {cloud : String}
    (hne : bridgeNameOf labHash lab.id networkId ≠ "")
    (h : OwnedCloud labs cloud (bridgeNameOf labHash lab.id networkId)) :
    OnCloud labs lab.id cloud (bridgeNameOf labHash lab.id networkId) := by
  obtain ⟨ownerPath, owner, key, network, howner, hnet, htype, href, hcloud, hbridge⟩ := h
  have hname := ((hsound ownerPath owner howner).stamps key network hnet).owner htype href _
    hbridge hne
  obtain ⟨hhash, _⟩ := bridgeNameOf_inj hname
  obtain rfl := hinj labPath ownerPath lab owner hlab howner hhash
  obtain rfl : lab = owner := Option.some.inj (hlab.symm.trans howner)
  exact ⟨labPath, lab, key, network, hlab, rfl, hnet, htype, hcloud, hbridge⟩

/-- The bridge of a NAT cloud is a generated one. -/
theorem OwnedCloud.not_host {labHash : String → Fin 65536} {labs : Dict String Lab}
    (hsound : ∀ labPath lab, labs.get? labPath = some lab → LabSound labHash labs labPath lab)
    {cloud bridge : String} (hne : bridge ≠ "") (h : OwnedCloud labs cloud bridge) :
    isHostBridgeName bridge = false := by
  obtain ⟨labPath, lab, key, network, hlab, hnet, htype, href, _, hbridge⟩ := h
  rw [((hsound labPath lab hlab).stamps key network hnet).owner htype href _ hbridge hne]
  exact isHostBridgeName_bridgeNameOf labHash lab.id key

/-- A sound site is isolated as long as no two of its labs share a hash. -/
theorem isolated_of_sound {labHash : String → Fin 65536} {site : Site}
    (h : SiteSound labHash site) (hinj : HashesDiffer labHash site.labs) : Isolated site := by
  intro g g' port port' state state' bridge labId labId' hport hport' hmaster hmaster' hplaced
    hplaced' hne
  obtain ⟨path, lab, hlab, hown, hmay⟩ := h.ports g port state bridge hport hmaster
  obtain ⟨path', lab', hlab', hown', hmay'⟩ := h.ports g' port' state' bridge hport' hmaster'
  obtain rfl : labId = lab.id := Option.some.inj (hplaced.symm.trans hown)
  obtain rfl : labId' = lab'.id := Option.some.inj (hplaced'.symm.trans hown')
  rcases hmay with ⟨networkId, rfl⟩ | hhost | ⟨hbridge, cloud, hon, howned⟩
  · rcases hmay' with ⟨networkId', hname⟩ | hhost | ⟨hbridge, cloud, hon, howned⟩
    · obtain ⟨hhash, _⟩ := bridgeNameOf_inj hname
      obtain rfl := hinj path path' lab lab' hlab hlab' hhash
      obtain rfl : lab = lab' := Option.some.inj (hlab.symm.trans hlab')
      exact absurd rfl hne
    · have hname := isHostBridgeName_bridgeNameOf labHash lab.id networkId
      exact absurd (hname.symm.trans hhost.1) Bool.false_ne_true
    · exact Or.inr ⟨cloud, howned.onCloud h.labs hinj hlab hbridge, hon⟩
  · rcases hmay' with ⟨networkId', rfl⟩ | hhost' | ⟨hbridge, _, _, howned'⟩
    · have hname := isHostBridgeName_bridgeNameOf labHash lab'.id networkId'
      exact absurd (hname.symm.trans hhost.1) Bool.false_ne_true
    · exact Or.inl ⟨hhost, hhost'⟩
    · exact absurd ((howned'.not_host h.labs hbridge).symm.trans hhost.1) Bool.false_ne_true
  · rcases hmay' with ⟨networkId', rfl⟩ | hhost | ⟨_, cloud', hon', howned'⟩
    · exact Or.inr ⟨cloud, hon, howned.onCloud h.labs hinj hlab' hbridge⟩
    · exact absurd ((howned.not_host h.labs hbridge).symm.trans hhost.1) Bool.false_ne_true
    · obtain rfl := ownedCloud_unique h.labs hinj hbridge howned howned'
      exact Or.inr ⟨cloud, hon, hon'⟩

/-- Whatever is on a bridge afterwards was on it before. -/
def MastersFrom (ports ports' : Dict Port PortState) : Prop :=
  ∀ port state bridge, ports'.get? port = some state → state.master = some bridge →
    ∃ before, ports.get? port = some before ∧ before.master = some bridge

theorem MastersFrom.refl (ports : Dict Port PortState) : MastersFrom ports ports :=
  fun _ state _ hget hmaster => ⟨state, hget, hmaster⟩

theorem mastersFrom_set_new (ports : Dict Port PortState) (added : Port) :
    MastersFrom ports (ports.set added {}) := by
  intro port state bridge hget hmaster
  rw [Dict.get?_set] at hget
  split at hget
  next =>
    obtain rfl := Option.some.inj hget
    cases hmaster
  next => exact ⟨state, hget, hmaster⟩

theorem mastersFrom_pop (ports : Dict Port PortState) (dropped : Port) :
    MastersFrom ports (ports.pop dropped) := by
  intro port state bridge hget hmaster
  rw [Dict.get?_pop] at hget
  split at hget
  next => cases hget
  next => exact ⟨state, hget, hmaster⟩

theorem mastersFrom_filterKeys (ports : Dict Port PortState) (keep : Port → Bool) :
    MastersFrom ports (ports.filterKeys keep) := by
  intro port state bridge hget hmaster
  rw [Dict.get?_filterKeys] at hget
  split at hget
  next => exact ⟨state, hget, hmaster⟩
  next => cases hget

theorem mastersFrom_modify (ports : Dict Port PortState) (edited : Port)
    {f : PortState → PortState} (hf : ∀ st bridge, (f st).master = some bridge →
      st.master = some bridge) : MastersFrom ports (ports.modify edited f) := by
  intro port state bridge hget hmaster
  rw [Dict.get?_modify] at hget
  split at hget
  next =>
    obtain ⟨before, hbefore, hstate⟩ := Option.map_eq_some_iff.mp hget
    exact ⟨before, hbefore, hf before bridge (by rw [hstate]; exact hmaster)⟩
  next => exact ⟨state, hget, hmaster⟩

theorem mastersFrom_freed (ports : Dict Port PortState) (deleted : String) :
    MastersFrom ports (ports.mapValues (fun state =>
      if state.master = some deleted then { state with master := none } else state)) := by
  intro port state bridge hget hmaster
  rw [Dict.get?_mapValues] at hget
  obtain ⟨before, hbefore, hstate⟩ := Option.map_eq_some_iff.mp hget
  refine ⟨before, hbefore, ?_⟩
  split at hstate
  next =>
    obtain rfl := hstate
    cases hmaster
  next =>
    obtain rfl := hstate
    exact hmaster

theorem effect_mastersFrom {c : HostCall} (host : Host) (h : c.placed? = none) :
    MastersFrom host.ports (c.effect host).ports := by
  cases c with
  | tapAdd added => exact mastersFrom_set_new host.ports added
  | vethPairAdd added => exact mastersFrom_set_new host.ports added
  | tapDel dropped => exact mastersFrom_pop host.ports dropped
  | linkDel dropped => exact mastersFrom_pop host.ports dropped
  | linkNomaster edited =>
    refine mastersFrom_modify host.ports edited (fun st bridge hb => ?_)
    cases hb
  | linkUp edited => exact mastersFrom_modify host.ports edited (fun _ _ hb => hb)
  | bridgeDel deleted => exact mastersFrom_freed host.ports deleted
  | sweepNode nodeId => exact mastersFrom_filterKeys host.ports _
  | linkMaster placed target => cases h
  | _ => exact MastersFrom.refl host.ports

theorem elsewhere_mastersFrom (c : HostCall) (ports : Dict Port PortState) :
    MastersFrom ports (c.elsewhere ports) := by
  unfold HostCall.elsewhere
  split
  next deleted => exact mastersFrom_freed ports deleted
  next => exact MastersFrom.refl ports

/-- Where an interface is on a bridge after a command: the command put it there, or it was there. -/
theorem effect_master {c : HostCall} {host : Host} {port : Port} {state : PortState}
    {bridge : String} (hget : (c.effect host).ports.get? port = some state)
    (hmaster : state.master = some bridge) :
    (c.placed? = some port ∧ c.master? = some bridge) ∨
      (c.placed? ≠ some port ∧ ∃ before, host.ports.get? port = some before ∧
        before.master = some bridge) := by
  cases hplaced : c.placed? with
  | none =>
    refine Or.inr ⟨fun hsome => ?_, effect_mastersFrom host hplaced port state bridge hget hmaster⟩
    cases hsome
  | some placed =>
    cases c <;> simp only [HostCall.placed?, reduceCtorEq, Option.some.injEq] at hplaced
    subst hplaced
    next placed target =>
      have hmodified : (host.ports.modify placed
          (fun state => { state with master := some target })).get? port = some state := hget
      rw [Dict.get?_modify] at hmodified
      split at hmodified
      next hport =>
        obtain ⟨before, _, hstate⟩ := Option.map_eq_some_iff.mp hmodified
        obtain rfl := hstate
        exact Or.inl ⟨congrArg some hport, hmaster⟩
      next hport =>
        exact Or.inr ⟨fun heq => hport (Option.some.inj heq), state, hmodified, hmaster⟩

/-- The commands that a lab may give: those that put an interface on a bridge it may use. -/
def MayGive (labHash : String → Fin 65536) (labs : Dict String Lab) (labId : String)
    (c : HostCall) : Prop :=
  ∀ bridge, c.master? = some bridge → MayUse labHash labs labId bridge

theorem plain_mayGive (labHash : String → Fin 65536) (labs : Dict String Lab) (labId : String) :
    Plain (MayGive labHash labs labId) := by
  intro c hnone bridge hsome
  cases c <;> simp only [HostCall.master?, HostCall.bridge?, reduceCtorEq] at hnone hsome

/-- Adding and deleting bridges puts no interface anywhere. -/
theorem reshapes_mayGive (labHash : String → Fin 65536) (labs : Dict String Lab)
    (labId bridge : String) : Reshapes (MayGive labHash labs labId) bridge :=
  ⟨fun _ hsome => (by cases hsome), fun _ hsome => (by cases hsome)⟩

theorem mayGive_master {labHash : String → Fin 65536} {labs : Dict String Lab} {labId bridge : String}
    (h : MayUse labHash labs labId bridge) (port : Port) :
    MayGive labHash labs labId (.linkMaster port bridge) := by
  intro b hb
  obtain rfl := Option.some.inj hb
  exact h

theorem effect_sound {labHash : String → Fin 65536} {site : Site} {labPath : String} {lab : Lab}
    (hlab : site.labs.get? labPath = some lab) (networkId : Int) {c : HostCall}
    (hc : MayGive labHash site.labs lab.id c) (h : SiteSound labHash site) :
    SiteSound labHash (site.effect labHash lab.id networkId c) := by
  refine ⟨h.labs, fun g port state bridge hget hmaster => ?_⟩
  have hports : ((if g = labHash lab.id then (c.effect (site.host (labHash lab.id))).ports
      else c.elsewhere (site.ports g)).get? port) = some state := hget
  have hplaced : (site.effect labHash lab.id networkId c).placedBy g port =
      if g = labHash lab.id ∧ c.placed? = some port then some lab.id else site.placedBy g port := rfl
  rw [hplaced]
  split at hports
  next hg =>
    subst hg
    rcases effect_master hports hmaster with ⟨hput, hbridge⟩ | ⟨hnot, before, hbefore, hold⟩
    · rw [if_pos ⟨rfl, hput⟩]
      exact ⟨labPath, lab, hlab, rfl, hc bridge hbridge⟩
    · rw [if_neg (fun hboth => hnot hboth.2)]
      exact h.ports (labHash lab.id) port before bridge hbefore hold
  next hg =>
    obtain ⟨before, hbefore, hold⟩ :=
      elsewhere_mastersFrom c (site.ports g) port state bridge hports hmaster
    rw [if_neg (fun hboth => hg hboth.1)]
    exact h.ports g port before bridge hbefore hold

/-- The code of a lab on the host, whatever is answered: the site stays sound, and the stored labs
stay as they are. -/
theorem onHost_sound {labHash : String → Fin 65536} {site : Site} {labPath : String} {lab : Lab}
    (h : SiteSound labHash site) (hlab : site.labs.get? labPath = some lab) (networkId : Int)
    {α : Type} {m : HostM α} (hm : Frames (Issues (MayGive labHash site.labs lab.id)) m) :
    Ends (onHost labHash lab.id networkId m) site
      (fun _ t => t.labs = site.labs ∧ SiteSound labHash t)
      (fun _ t => t.labs = site.labs ∧ SiteSound labHash t) := by
  have hframes := @frames_onHost labHash lab.id networkId (MayGive labHash site.labs lab.id)
    (fun s => s.labs = site.labs ∧ SiteSound labHash s)
    (fun s c hc hs => by
      obtain ⟨hlabs, hsound⟩ := hs
      rw [← hlabs] at hlab hc
      exact ⟨hlabs, effect_sound hlab networkId hc hsound⟩)
    (fun s runtimes given replies hs => ⟨hs.1, hs.2.labs, hs.2.ports⟩) α m hm site
  exact hframes.mono (fun _ _ ht => ht ⟨rfl, h⟩) (fun _ _ ht => ht ⟨rfl, h⟩)

end NovaVe
