import NovaVe.ProvisioningUndo

namespace NovaVe

/-- The bridge of the new network comes about. -/
def NetScript.BridgeStands (script : NetScript) (own : OwnBridge) (s : NetCall) : Prop :=
  script.passes .bridgeExists ∧
    (script.found own s = true → script.passes .fingerprintCheck ∧ own.marked s) ∧
    (script.found own s = false →
      (script.addEnd own s).raises = none ∧ script.passes .fingerprintWrite)

/-- When a step for the bridge raises, the handlers catch it and write the lab file back, and a
bridge that was added is taken away. -/
structure BridgeUndone (script : NetScript) (own : OwnBridge) (s : NetCall) : Prop where
  probed : ∀ e, (script.step .bridgeExists).raises = some e → script.RollsBack (.step e)
  checked : script.passes .bridgeExists → script.found own s = true →
    ∀ e, (script.step .fingerprintCheck).raises = some e → script.RollsBack (.step e)
  foreign : script.passes .bridgeExists → script.found own s = true →
    script.passes .fingerprintCheck → ¬own.marked s →
      script.RollsBack (.network (.bridgeOwnership own.name))
  added : script.passes .bridgeExists → script.found own s = false →
    ∀ e, (script.addEnd own s).raises = some e →
      script.RollsBack (.step e) ∧ (script.addEnd own s).took = false
  stamped : script.passes .bridgeExists → script.found own s = false →
    (script.addEnd own s).raises = none →
      ∀ e, (script.step .fingerprintWrite).raises = some e →
        script.RollsBack (.step (script.stampError e)) ∧
          ((script.addEnd own s).took = true → (script.step .bridgeDel).took = true)

theorem NetScript.addEnd_of_passes {script : NetScript} {own : OwnBridge} {s : NetCall}
    (h : (script.addEnd own s).raises = none) : (own.name, .bridge) ∉ s.present := by
  intro hpresent
  unfold NetScript.addEnd at h
  rw [if_pos hpresent] at h
  cases h

theorem NetScript.mem_added_made (script : NetScript) (own : OwnBridge) (s : NetCall)
    (thing : String × BridgePart) :
    thing ∈ (script.added own s).made ↔
      thing ∈ s.made ∨ (script.addEnd own s).took = true ∧ thing = (own.name, .bridge) := by
  unfold NetScript.added
  cases (script.addEnd own s).took with
  | false => simp
  | true => simp [NetCall.effect, NetStep.makes, NetStep.removes, NetCall.make, or_comm]

theorem NetScript.mem_added_present (script : NetScript) (own : OwnBridge) (s : NetCall)
    (thing : String × BridgePart) :
    thing ∈ (script.added own s).present ↔
      thing ∈ s.present ∨ (script.addEnd own s).took = true ∧ thing = (own.name, .bridge) := by
  unfold NetScript.added
  cases (script.addEnd own s).took with
  | false => simp
  | true => simp [NetCall.effect, NetStep.makes, NetStep.removes, NetCall.make, or_comm]

theorem Provisioned.added {own : OwnBridge} {data : Lab} {s t : NetCall}
    (h : Provisioned own data s t) (script : NetScript) :
    Provisioned own data s (script.added own t) where
  labJson := by
    rw [← h.labJson]
    unfold NetScript.added
    split
    next => rfl
    next => rfl
  registry := by
    rw [← h.registry]
    unfold NetScript.added
    split
    next => rfl
    next => rfl
  own thing hmade := by
    rcases (script.mem_added_made own t thing).mp hmade with hold | hnew
    · exact h.own thing hold
    · rw [hnew.2]
  kept name hname := (script.mem_added_present own t _).mpr (Or.inl (h.kept name hname))

/-- The state in which the provisioning starts. -/
def NetCall.written (s : NetCall) (data : Lab) : NetCall :=
  { s with labJson := some data, made := ∅ }

theorem provisioned_written (own : OwnBridge) (data : Lab) (s : NetCall) :
    Provisioned own data s (s.written data) where
  labJson := rfl
  registry := rfl
  own thing hmade := absurd hmade (Finset.notMem_empty thing)
  kept _ hname := hname

/-- The state in which the bridge stands. -/
theorem provisioned_standing {env : NetEnv} (own : OwnBridge) (data : Lab) (s : NetCall) :
    Provisioned own data s (if env.script.found own s then s.written data
      else (env.script.added own (s.written data)).stepped env.script own .fingerprintWrite) := by
  split
  next => exact provisioned_written own data s
  next =>
    apply ((provisioned_written own data s).added env.script).stepped
    simp [NetStep.removes]

/-- Nothing is set up yet. -/
theorem ends_failed_written {env : NetEnv} {own : OwnBridge} {network : Network} {data lab : Lab}
    {s : NetCall} (hlab : s.labJson = some lab) (hdata : data.withoutNetwork network.id = lab)
    (hne : data ≠ lab) (e : ProvisionError) (returns : Unit → NetCall → Prop) :
    Ends (provisionFailed env.script own network data e) (s.written data) returns
        (fun _ u => CallUndone s u) ↔ env.script.RollsBack e := by
  rw [ends_provisionFailed_iff (provisioned_written own data s) hlab hdata hne]
  refine and_iff_left ?_
  intro thing hmade
  exact absurd hmade (Finset.notMem_empty thing)

/-- `bridge_add` raised: the bridge stays if it was made nonetheless. -/
theorem ends_failed_added {env : NetEnv} {own : OwnBridge} {network : Network} {data lab : Lab}
    {s : NetCall} (hlab : s.labJson = some lab) (hdata : data.withoutNetwork network.id = lab)
    (hne : data ≠ lab) (e : ProvisionError) (returns : Unit → NetCall → Prop) :
    Ends (provisionFailed env.script own network data e) (env.script.added own (s.written data))
        returns (fun _ u => CallUndone s u) ↔
      env.script.RollsBack e ∧ (env.script.addEnd own s).took = false := by
  have hadded := (provisioned_written own data s).added env.script
  rw [ends_provisionFailed_iff hadded hlab hdata hne]
  refine and_congr_right (fun _ => ?_)
  constructor
  · intro htidies
    cases htook : (env.script.addEnd own s).took with
    | false => rfl
    | true =>
      have hmade := (env.script.mem_added_made own (s.written data) (own.name, .bridge)).mpr
        (Or.inr ⟨htook, rfl⟩)
      have hpresent := (env.script.mem_added_present own (s.written data) (own.name, .bridge)).mpr
        (Or.inr ⟨htook, rfl⟩)
      exact (htidies _ hmade hpresent).2.2.elim
  · intro htook thing hmade
    have hcase := (env.script.mem_added_made own (s.written data) thing).mp hmade
    rcases hcase with hold | hnew
    · exact absurd hold (Finset.notMem_empty thing)
    · have htrue : (env.script.addEnd own s).took = true := hnew.1
      rw [htook] at htrue
      cases htrue

/-- The fingerprint could not be written: the bridge stays unless it is deleted. -/
theorem ends_failed_stamped {env : NetEnv} {own : OwnBridge} {network : Network} {data lab : Lab}
    {s : NetCall} (hlab : s.labJson = some lab) (hdata : data.withoutNetwork network.id = lab)
    (hne : data ≠ lab) (hadd : (env.script.addEnd own s).raises = none) (e : ProvisionError)
    (returns : Unit → NetCall → Prop) :
    Ends (provisionFailed env.script own network data e)
        (((env.script.added own (s.written data)).stepped env.script own .fingerprintWrite).stepped
          env.script own .bridgeDel) returns (fun _ u => CallUndone s u) ↔
      env.script.RollsBack e ∧ ((env.script.addEnd own s).took = true →
        (env.script.step .bridgeDel).took = true) := by
  have habsent := NetScript.addEnd_of_passes hadd
  have hstamped := @Provisioned.stepped env.script own data s _
    ((provisioned_written own data s).added env.script) .fingerprintWrite (by simp [NetStep.removes])
  have hend : env.script.addEnd own (s.written data) = env.script.addEnd own s := rfl
  have hmade : ∀ thing, thing ∈ (((env.script.added own (s.written data)).stepped env.script own
      .fingerprintWrite).stepped env.script own .bridgeDel).made ↔
      (env.script.addEnd own s).took = true ∧ thing = (own.name, .bridge) := by
    intro thing
    rw [NetCall.mem_stepped_made, NetCall.mem_stepped_made, NetScript.mem_added_made, hend]
    simp [NetStep.makes, NetCall.written]
  have hpresent : ∀ thing, thing ∈ (((env.script.added own (s.written data)).stepped env.script own
      .fingerprintWrite).stepped env.script own .bridgeDel).present ↔
      (thing ∈ s.present ∨ (env.script.addEnd own s).took = true ∧ thing = (own.name, .bridge)) ∧
        ¬((env.script.step .bridgeDel).took = true ∧ thing = (own.name, .bridge)) := by
    intro thing
    rw [NetCall.mem_stepped_present, NetCall.mem_stepped_present, NetScript.mem_added_present, hend]
    simp [NetStep.makes, NetStep.removes, NetCall.written]
  have hafter : Provisioned own data s (((env.script.added own (s.written data)).stepped env.script
      own .fingerprintWrite).stepped env.script own .bridgeDel) := by
    refine { labJson := ?_, registry := ?_, own := ?_, kept := ?_ }
    · rw [NetCall.stepped_labJson]
      exact hstamped.labJson
    · rw [NetCall.stepped_registry]
      exact hstamped.registry
    · intro thing hthing
      rw [((hmade thing).mp hthing).2]
    · intro name hname
      refine (hpresent (name, .bridge)).mpr ⟨Or.inl hname, ?_⟩
      intro hdeleted
      rw [hdeleted.2] at hname
      exact habsent hname
  rw [ends_provisionFailed_iff hafter hlab hdata hne]
  refine and_congr_right (fun _ => ?_)
  constructor
  · intro htidies htook
    by_contra hleft
    refine (htidies (own.name, .bridge) ((hmade _).mpr ⟨htook, rfl⟩) ?_).2.2
    refine (hpresent _).mpr ⟨Or.inr ⟨htook, rfl⟩, ?_⟩
    intro hdeleted
    exact hleft hdeleted.1
  · intro hdeletes thing hthing hthere
    obtain ⟨htook, heq⟩ := (hmade thing).mp hthing
    exact absurd ⟨hdeletes htook, heq⟩ ((hpresent thing).mp hthere).2

theorem NetScript.BridgeStands.of_found {script : NetScript} {own : OwnBridge} {s : NetCall}
    (hpass : script.passes .bridgeExists) (hthere : script.found own s = true)
    (hcheck : script.passes .fingerprintCheck) (hsame : own.marked s) :
    script.BridgeStands own s := by
  refine ⟨hpass, fun _ => ⟨hcheck, hsame⟩, ?_⟩
  intro habsent
  rw [hthere] at habsent
  cases habsent

theorem NetScript.BridgeStands.of_made {script : NetScript} {own : OwnBridge} {s : NetCall}
    (hpass : script.passes .bridgeExists) (hthere : script.found own s = false)
    (hadd : (script.addEnd own s).raises = none) (hstamp : script.passes .fingerprintWrite) :
    script.BridgeStands own s := by
  refine ⟨hpass, ?_, fun _ => ⟨hadd, hstamp⟩⟩
  intro hpresent
  rw [hthere] at hpresent
  cases hpresent

/-- How the call ends on the way to its bridge. -/
theorem ends_bridge_iff {env : NetEnv} {own : OwnBridge} {network : Network} {data lab : Lab}
    {s : NetCall} (hlab : s.labJson = some lab) (hdata : data.withoutNetwork network.id = lab)
    (hne : data ≠ lab) (failed : Unit → NetCall → Prop) (returns : Unit → NetCall → Prop) :
    Ends (provisionOwnBridge env.script own) (s.written data) returns
        (fun e t => Ends (provisionFailed env.script own network data e) t failed
          (fun _ u => CallUndone s u)) ↔
      BridgeUndone env.script own s ∧ (env.script.BridgeStands own s →
        returns () (if env.script.found own s then s.written data
          else (env.script.added own (s.written data)).stepped env.script own .fingerprintWrite)) := by
  have hend : env.script.addEnd own (s.written data) = env.script.addEnd own s := rfl
  have hfound : env.script.found own (s.written data) = env.script.found own s := rfl
  have hmarked : own.marked (s.written data) ↔ own.marked s := Iff.rfl
  have hwritten := @ends_failed_written env own network data lab s hlab hdata hne
  have hadded := @ends_failed_added env own network data lab s hlab hdata hne
  have hstamped := @ends_failed_stamped env own network data lab s hlab hdata hne
  rw [ends_provisionOwnBridge, ends_checkOwnBridge, ends_makeOwnBridge, hend, hfound, hmarked]
  constructor
  · intro hends
    obtain ⟨hprobe, hrest⟩ := hends
    refine ⟨?_, ?_⟩
    · refine { probed := ?_, checked := ?_, foreign := ?_, added := ?_, stamped := ?_ }
      · intro e he
        exact (hwritten (.step e) failed).mp (hprobe e he)
      · intro hpass hthere e he
        exact (hwritten (.step e) failed).mp (((hrest hpass).1 hthere).1 e he)
      · intro hpass hthere hcheck hforeign
        exact (hwritten _ failed).mp ((((hrest hpass).1 hthere).2 hcheck).1 hforeign)
      · intro hpass hthere e he
        exact (hadded (.step e) failed).mp (((hrest hpass).2 hthere).1 e he)
      · intro hpass hthere hadd e he
        exact (hstamped hadd _ failed).mp ((((hrest hpass).2 hthere).2 hadd).2 e he)
    · intro hstands
      obtain ⟨hpass, hcheck, hmake⟩ := hstands
      cases hthere : env.script.found own s with
      | true =>
        obtain ⟨hchecks, hsame⟩ := hcheck hthere
        exact (((hrest hpass).1 hthere).2 hchecks).2 hsame
      | false =>
        obtain ⟨hadd, hstamp⟩ := hmake hthere
        exact (((hrest hpass).2 hthere).2 hadd).1 hstamp
  · intro hboth
    obtain ⟨hundone, hstands⟩ := hboth
    refine ⟨?_, ?_⟩
    · intro e he
      exact (hwritten (.step e) failed).mpr (hundone.probed e he)
    · intro hpass
      refine ⟨?_, ?_⟩
      · intro hthere
        refine ⟨?_, ?_⟩
        · intro e he
          exact (hwritten (.step e) failed).mpr (hundone.checked hpass hthere e he)
        · intro hcheck
          refine ⟨?_, ?_⟩
          · intro hforeign
            exact (hwritten _ failed).mpr (hundone.foreign hpass hthere hcheck hforeign)
          · intro hsame
            have hreturns := hstands (.of_found hpass hthere hcheck hsame)
            rw [hthere] at hreturns
            exact hreturns
      · intro hthere
        refine ⟨?_, ?_⟩
        · intro e he
          exact (hadded (.step e) failed).mpr (hundone.added hpass hthere e he)
        · intro hadd
          refine ⟨?_, ?_⟩
          · intro hstamp
            have hreturns := hstands (.of_made hpass hthere hadd hstamp)
            rw [hthere] at hreturns
            exact hreturns
          · intro e he
            exact (hstamped hadd _ failed).mpr (hundone.stamped hpass hthere hadd e he)

end NovaVe
