import NovaVe.BridgeRollback
import NovaVe.Runs

namespace NovaVe

/-- When a command for a NAT cloud raises, the bridge was there before the call, the handlers catch
the exception and write the lab file back, and the clean-up takes away what the commands set up; and
the last write of the lab file goes through. -/
structure CloudUndone (script : NetScript) (own : OwnBridge) (config : NetworkConfig)
    (s : NetCall) : Prop where
  failed : ∀ e, script.natFailure config = some e →
    script.RollsBack e ∧
      (script.found own s = true ∨ (script.addEnd own s).took = false) ∧
      ∀ step ∈ script.natRan config, (script.step step).took = true →
        ∀ part, step.makes = some part → script.cleans part
  saved : script.natFailure config = none → script.passes .finalWrite

/-- A failure of the call leaves nothing behind. -/
structure FailureUndone (script : NetScript) (own : OwnBridge) (network : Network)
    (s : NetCall) : Prop where
  bridge : network.ownsBridge = true → BridgeUndone script own s
  cloud : network.ownsCloud = true → script.BridgeStands own s →
    CloudUndone script own network.config s

/-- What follows the provisioning. -/
theorem ends_finished_iff {env : NetEnv} {own : OwnBridge} {network : Network} {data lab : Lab}
    {s t : NetCall} (h : Provisioned own data s t) (hlab : s.labJson = some lab)
    (hne : data ≠ lab) :
    Ends (env.finish network data) t (fun _ _ => True) (fun _ u => CallUndone s u) ↔
      (network.ownsCloud = true → env.script.passes .finalWrite) := by
  unfold NetEnv.finish
  cases howns : network.ownsCloud with
  | false =>
    simp only [Bool.false_eq_true, false_implies, iff_true]
    show Ends (modify _ >>= _) t _ _
    rw [ends_bind, ends_modify, ends_pure]
    trivial
  | true =>
    simp only [if_true, ends_bind, ends_writeLabStep, ends_modify, ends_pure, forall_const]
    constructor
    · intro hends
      unfold NetScript.passes
      cases hwrite : (env.script.step .finalWrite).raises with
      | none => rfl
      | some e =>
        exact absurd (hends.2 e hwrite) (not_callUndone_of_raise h hlab hne .finalWrite)
    · intro hpasses
      refine ⟨fun _ => trivial, ?_⟩
      intro e hraises
      unfold NetScript.passes at hpasses
      rw [hpasses] at hraises
      cases hraises

/-- A NAT cloud on a bridge that stands. -/
theorem ends_cloud_iff {env : NetEnv} {own : OwnBridge} {network : Network} {data lab : Lab}
    {s u : NetCall} (h : Provisioned own data s u) (hlab : s.labJson = some lab)
    (hdata : data.withoutNetwork network.id = lab) (hne : data ≠ lab)
    (howns : network.ownsCloud = true) (hholds : u.Holds)
    (hmade : ∀ thing ∈ u.made, thing = (own.name, .bridge)) (returns : Unit → NetCall → Prop) :
    Ends (ensureNatCloud env.script own network.config) u
        (fun _ t => Ends (env.finish network data) t (fun _ _ => True) (fun _ v => CallUndone s v))
        (fun e t => Ends (provisionFailed env.script own network data e) t returns
          (fun _ v => CallUndone s v)) ↔
      (∀ e, env.script.natFailure network.config = some e → env.script.RollsBack e ∧ u.made = ∅ ∧
        ∀ step ∈ env.script.natRan network.config, (env.script.step step).took = true →
          ∀ part, step.makes = some part → env.script.cleans part) ∧
      (env.script.natFailure network.config = none → env.script.passes .finalWrite) := by
  have hspares : ∀ step ∈ env.script.natRan network.config, step.removes ≠ some .bridge := by
    intro step hstep hbridge
    have hpart := (natSteps_removes (mem_natRan hstep) hbridge).1
    cases hpart
  have hclash : ∀ step ∈ env.script.natRan network.config, ∀ part, step.removes = some part →
      (own.name, part) ∉ u.made ∧
        ∀ other ∈ env.script.natRan network.config, other.makes ≠ some part := by
    intro step hstep part hpart
    obtain ⟨heq, hothers⟩ := natSteps_removes (mem_natRan hstep) hpart
    refine ⟨?_, fun other hother => hothers other (mem_natRan hother)⟩
    intro hold
    rw [heq] at hold
    have hthing := hmade _ hold
    cases hthing
  have hafter := @Provisioned.foldl env.script own data s u h _ hspares
  have hstays := @NetCall.Holds.foldl env.script own _ u hholds hclash
  have hlater := mem_foldl_made env.script own (env.script.natRan network.config) u
  rw [ends_ensureNatCloud, and_comm]
  generalize (env.script.natRan network.config).foldl (NetCall.stepped env.script own) u = t
    at hafter hstays hlater ⊢
  refine and_congr ?_ ?_
  · refine forall_congr' (fun e => forall_congr' (fun hfailure => ?_))
    rw [ends_provisionFailed_iff hafter hlab hdata hne]
    refine and_congr_right (fun _ => ?_)
    constructor
    · intro htidies
      refine ⟨?_, ?_⟩
      · rw [Finset.eq_empty_iff_forall_notMem]
        intro thing hthing
        have hstill := (hlater thing).mpr (Or.inl hthing)
        have hclean := (htidies thing hstill (hstays thing hstill)).2.2
        rw [hmade thing hthing] at hclean
        exact hclean
      · intro step hstep htook part hmakes
        have hnew := (hlater (own.name, part)).mpr (Or.inr ⟨step, hstep, htook, part, hmakes, rfl⟩)
        exact (htidies _ hnew (hstays _ hnew)).2.2
    · intro hcleans thing hthere _
      have hclean : env.script.cleans thing.2 := by
        have hcase := (hlater thing).mp hthere
        rw [hcleans.1] at hcase
        rcases hcase with hold | hnew
        · exact absurd hold (Finset.notMem_empty thing)
        · obtain ⟨step, hstep, htook, part, hmakes, hthing⟩ := hnew
          rw [hthing]
          exact hcleans.2 step hstep htook part hmakes
      exact ⟨howns, natFailure_ne_ownership hfailure, hclean⟩
  · refine forall_congr' (fun _ => ?_)
    rw [ends_finished_iff hafter hlab hne]
    simp [howns]

theorem Network.ownsBridge_of_ownsCloud {network : Network} (h : network.ownsCloud = true) :
    network.ownsBridge = true := by
  unfold Network.ownsCloud at h
  unfold Network.ownsBridge
  rw [Bool.and_eq_true, decide_eq_true_eq, decide_eq_true_eq] at h
  simp [h.1, h.2]

/-- The bridge on which a NAT cloud is set up, and what is set up so far. -/
theorem ends_standing_iff {env : NetEnv} {own : OwnBridge} {network : Network} {data lab : Lab}
    {s : NetCall} (hlab : s.labJson = some lab) (hdata : data.withoutNetwork network.id = lab)
    (hne : data ≠ lab) (howns : network.ownsCloud = true) (failed : Unit → NetCall → Prop) :
    Ends (ensureNatCloud env.script own network.config)
        (if env.script.found own s then s.written data
          else (env.script.added own (s.written data)).stepped env.script own .fingerprintWrite)
        (fun _ t => Ends (env.finish network data) t (fun _ _ => True) (fun _ v => CallUndone s v))
        (fun e t => Ends (provisionFailed env.script own network data e) t failed
          (fun _ v => CallUndone s v)) ↔
      CloudUndone env.script own network.config s := by
  cases hfound : env.script.found own s with
  | true =>
    have hholds : (s.written data).Holds := by
      intro thing hmade
      exact absurd hmade (Finset.notMem_empty thing)
    rw [if_pos rfl, ends_cloud_iff (provisioned_written own data s) hlab hdata hne howns hholds
      (fun thing hmade => absurd hmade (Finset.notMem_empty thing))]
    constructor
    · intro hboth
      refine { failed := ?_, saved := hboth.2 }
      intro e he
      obtain ⟨hrolls, _, hcleans⟩ := hboth.1 e he
      exact ⟨hrolls, Or.inl hfound, hcleans⟩
    · intro hundone
      refine ⟨?_, hundone.saved⟩
      intro e he
      obtain ⟨hrolls, _, hcleans⟩ := hundone.failed e he
      exact ⟨hrolls, rfl, hcleans⟩
  | false =>
    have hend : env.script.addEnd own (s.written data) = env.script.addEnd own s := rfl
    have hstamped := @Provisioned.stepped env.script own data s _
      ((provisioned_written own data s).added env.script) .fingerprintWrite
      (by simp [NetStep.removes])
    have hmade : ∀ thing, thing ∈ ((env.script.added own (s.written data)).stepped env.script own
        .fingerprintWrite).made ↔
        (env.script.addEnd own s).took = true ∧ thing = (own.name, .bridge) := by
      intro thing
      rw [NetCall.mem_stepped_made, NetScript.mem_added_made, hend]
      simp [NetStep.makes, NetCall.written]
    have hholds : ((env.script.added own (s.written data)).stepped env.script own
        .fingerprintWrite).Holds := by
      intro thing hthing
      rw [NetCall.mem_stepped_present, NetScript.mem_added_present, hend]
      refine Or.inl ⟨Or.inr ((hmade thing).mp hthing), ?_⟩
      simp [NetStep.removes]
    have hempty : ((env.script.added own (s.written data)).stepped env.script own
        .fingerprintWrite).made = ∅ ↔ (env.script.addEnd own s).took = false := by
      rw [Finset.eq_empty_iff_forall_notMem]
      simp [hmade]
    rw [if_neg (by simp), ends_cloud_iff hstamped hlab hdata hne howns hholds
      (fun thing hthing => ((hmade thing).mp hthing).2), hempty]
    constructor
    · intro hboth
      refine { failed := ?_, saved := hboth.2 }
      intro e he
      obtain ⟨hrolls, htook, hcleans⟩ := hboth.1 e he
      exact ⟨hrolls, Or.inr htook, hcleans⟩
    · intro hundone
      refine ⟨?_, hundone.saved⟩
      intro e he
      obtain ⟨hrolls, htook, hcleans⟩ := hundone.failed e he
      rcases htook with hthere | hnot
      · rw [hfound] at hthere
        cases hthere
      · exact ⟨hrolls, hnot, hcleans⟩

/-- The provisioning, its handlers and what follows. -/
theorem ends_provisioned_iff {env : NetEnv} {own : OwnBridge} {network : Network} {data lab : Lab}
    {s : NetCall} (hlab : s.labJson = some lab) (hdata : data.withoutNetwork network.id = lab)
    (hne : data ≠ lab) :
    Ends (do
        tryCatch (provision env.script own network) (provisionFailed env.script own network data)
        env.finish network data) (s.written data) (fun _ _ => True) (fun _ t => CallUndone s t) ↔
      FailureUndone env.script own network s := by
  rw [ends_bind, ends_tryCatch]
  cases hbridge : network.ownsBridge with
  | false =>
    have hcloud : network.ownsCloud = false := by
      cases howns : network.ownsCloud with
      | false => rfl
      | true =>
        have htrue := Network.ownsBridge_of_ownsCloud howns
        rw [hbridge] at htrue
        cases htrue
    have hnothing : provision env.script own network = pure () := by
      unfold provision
      rw [hbridge, hcloud]
      rfl
    rw [hnothing, ends_pure, ends_finished_iff (provisioned_written own data s) hlab hne]
    constructor
    · intro _
      refine { bridge := ?_, cloud := ?_ }
      · intro hown
        rw [hbridge] at hown
        cases hown
      · intro hown
        rw [hcloud] at hown
        cases hown
    · intro _ hown
      rw [hcloud] at hown
      cases hown
  | true =>
    cases howns : network.ownsCloud with
    | false =>
      have honly : provision env.script own network =
          (provisionOwnBridge env.script own >>= fun _ => pure ()) := by
        unfold provision
        rw [hbridge, howns]
        rfl
      rw [honly, ends_bind, ends_bridge_iff hlab hdata hne, ends_pure,
        ends_finished_iff (provisioned_standing own data s) hlab hne]
      constructor
      · intro hboth
        refine { bridge := fun _ => hboth.1, cloud := ?_ }
        intro hown
        rw [howns] at hown
        cases hown
      · intro hundone
        refine ⟨hundone.bridge hbridge, ?_⟩
        intro _ hown
        rw [howns] at hown
        cases hown
    | true =>
      have hboth : provision env.script own network =
          (provisionOwnBridge env.script own >>= fun _ =>
            ensureNatCloud env.script own network.config) := by
        unfold provision
        rw [hbridge, howns]
        rfl
      rw [hboth, ends_bind, ends_bridge_iff hlab hdata hne, ends_standing_iff hlab hdata hne howns]
      constructor
      · intro hundone
        exact { bridge := fun _ => hundone.1, cloud := fun _ => hundone.2 }
      · intro hundone
        exact ⟨hundone.bridge hbridge, hundone.cloud howns⟩

/-- A call leaves nothing behind when it raises exactly when its failure is undone. -/
theorem create_network_undone_iff (env : NetEnv) (s : NetCall) (request : NetworkCreate) :
    Ends (env.createNetwork request) s (fun _ _ => True) (fun _ t => CallUndone s t) ↔
      ∀ lab network, s.labJson = some lab →
        prepareNetwork (env.host s lab) lab request = .ok network →
          FailureUndone env.script (lab.ownBridge network) network s := by
  unfold NetEnv.createNetwork
  rw [ends_bind, ends_get, ends_bind, ends_set]
  have hrefused : ∀ file, s.labJson = file → CallUndone s { s with labJson := file, made := ∅ } := by
    intro file hfile
    refine { labJson := hfile.symm, registry := rfl, gone := ?_, kept := fun _ hname => hname }
    intro thing hmade
    exact absurd hmade (Finset.notMem_empty thing)
  cases hlab : s.labJson with
  | none =>
    dsimp only
    rw [ends_throw]
    refine iff_of_true (hrefused none hlab) ?_
    intro lab network hsome
    cases hsome
  | some lab =>
    dsimp only
    cases hprepare : prepareNetwork (env.host s lab) lab request with
    | error e =>
      dsimp only
      rw [ends_throw]
      refine iff_of_true (hrefused (some lab) hlab) ?_
      intro lab' network hsome hok
      cases hsome
      rw [hprepare] at hok
      cases hok
    | ok network =>
      dsimp only
      have hid : network.id = lab.networks.nextKey := by
        obtain ⟨-, config, bridge, -, -, rfl⟩ := prepareNetwork_ok hprepare
        rfl
      have hfresh : lab.networks.get? network.id = none := by
        rw [hid]
        exact Dict.get?_nextKey lab.networks
      have hdata : ({ lab with networks := lab.networks.set network.id network } : Lab).withoutNetwork
          network.id = lab := by
        unfold Lab.withoutNetwork
        dsimp only
        rw [Dict.pop_set_fresh hfresh]
      have hne : ({ lab with networks := lab.networks.set network.id network } : Lab) ≠ lab := by
        intro heq
        have hget := congrArg (fun l : Lab => l.networks.get? network.id) heq
        dsimp only at hget
        rw [Dict.get?_set_self, hfresh] at hget
        cases hget
      rw [ends_bind, ends_set]
      have hiff := @ends_provisioned_iff env (lab.ownBridge network) network _ lab s hlab hdata hne
      refine Iff.trans hiff ?_
      constructor
      · intro hundone lab' network' hsome hok
        cases hsome
        rw [hprepare] at hok
        cases hok
        exact hundone
      · intro hall
        exact hall lab network rfl hprepare

/-- An empty lab on a host with nothing on it. -/
def freshCall : NetCall := { labJson := some { id := "lab" } }

/-- `nft` refuses the NAT rule; all else goes through. -/
def natRefused : NetEnv :=
  { labHash := fun _ => ⟨1, by decide⟩, natCloudPool := "10.255.0.0/16", lower := id
    labs := Dict.empty, labPath := "lab.json"
    script := { step := fun step =>
      if step = .natApply then { raises := some .hostNet, took := false } else {} } }

def newCloudRequest : NetworkCreate :=
  { name := "cloud", type := .natCloud, config := { cidr := some "10.255.0.0/24", dhcp := true } }

/-- The bridge that was added for the cloud is still there. -/
theorem cloud_bridge_left_behind :
    ¬Ends (natRefused.createNetwork newCloudRequest) freshCall (fun _ _ => True)
      (fun _ t => CallUndone freshCall t) := by
  intro hends
  have hleft : (raisedState (natRefused.createNetwork newCloudRequest) freshCall).any
      (fun t => decide (("nove0001n1", BridgePart.bridge) ∈ t.made) &&
        decide (("nove0001n1", BridgePart.bridge) ∈ t.present)) = true := by decide +kernel
  obtain ⟨t, hraised, hboth⟩ := (Option.any_eq_true _ _).mp hleft
  rw [Bool.and_eq_true, decide_eq_true_eq, decide_eq_true_eq] at hboth
  obtain ⟨_, hundone⟩ := hends.raised hraised
  exact hundone.gone _ hboth.1 hboth.2

end NovaVe
