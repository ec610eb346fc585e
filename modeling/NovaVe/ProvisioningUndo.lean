import NovaVe.ProvisioningPrograms

namespace NovaVe

/-- After a call that raises: the lab file and the registry are those of before, nothing that the
call set up is there, and the bridges of before are. -/
structure CallUndone (s t : NetCall) : Prop where
  labJson : t.labJson = s.labJson
  registry : t.registry = s.registry
  gone : ∀ thing ∈ t.made, thing ∉ t.present
  kept : ∀ name, (name, BridgePart.bridge) ∈ s.present → (name, BridgePart.bridge) ∈ t.present

/-- The exception is one that the handlers catch, and they can write the lab file. -/
def NetScript.RollsBack (script : NetScript) (e : ProvisionError) : Prop :=
  e ≠ .step .other ∧ script.passes .rollbackWrite

/-- The handlers take the part away, after this exception. -/
def NetScript.Tidies (script : NetScript) (network : Network) (e : ProvisionError)
    (part : BridgePart) : Prop :=
  network.ownsCloud = true ∧ (∀ bridge, e ≠ .network (.bridgeOwnership bridge)) ∧
    script.cleans part

/-- Where the body of the `try` may raise: the record is written, the registry as before, and what
is set up belongs to the bridge of the call. -/
structure Provisioned (own : OwnBridge) (data : Lab) (s t : NetCall) : Prop where
  labJson : t.labJson = some data
  registry : t.registry = s.registry
  own : ∀ thing ∈ t.made, thing.1 = own.name
  kept : ∀ name, (name, BridgePart.bridge) ∈ s.present → (name, BridgePart.bridge) ∈ t.present

theorem callUndone_written_iff {own : OwnBridge} {data lab : Lab} {s t : NetCall}
    (h : Provisioned own data s t) (hlab : s.labJson = some lab) :
    CallUndone s { t with labJson := some lab } ↔ ∀ thing ∈ t.made, thing ∉ t.present := by
  constructor
  · intro hundone
    exact hundone.gone
  · intro hgone
    exact { labJson := hlab.symm, registry := h.registry, gone := hgone, kept := h.kept }

theorem callUndone_cleaned_iff {script : NetScript} {own : OwnBridge} {data lab : Lab}
    {s t : NetCall} (h : Provisioned own data s t) (hlab : s.labJson = some lab) :
    CallUndone s (script.cleanupRan.foldl (NetCall.stepped script own)
        { t with labJson := some lab }) ↔
      ∀ thing ∈ t.made, thing ∈ t.present → script.cleans thing.2 := by
  constructor
  · intro hundone thing hmade hpresent
    have hname := h.own thing hmade
    obtain ⟨name, part⟩ := thing
    dsimp only at hname
    subst hname
    by_contra hleft
    refine hundone.gone (own.name, part) ?_ ?_
    · rw [mem_cleanup_made]
      exact hmade
    · rw [mem_cleanup_present]
      exact ⟨hpresent, hleft⟩
  · intro hcleans
    refine { labJson := ?_, registry := ?_, gone := ?_, kept := ?_ }
    · rw [foldl_stepped_labJson]
      exact hlab.symm
    · rw [foldl_stepped_registry]
      exact h.registry
    · intro thing hmade hpresent
      rw [mem_cleanup_made] at hmade
      have hname := h.own thing hmade
      obtain ⟨name, part⟩ := thing
      dsimp only at hname
      subst hname
      rw [mem_cleanup_present] at hpresent
      exact hpresent.2 (hcleans (own.name, part) hmade hpresent.1)
    · intro name hname
      apply foldl_keeps_bridge script own (fun step hstep => (cleanupRan_spares hstep).2)
      exact h.kept name hname

/-- A lab file that is not written back is not as before. -/
theorem not_callUndone_of_raise {script : NetScript} {own : OwnBridge} {data lab : Lab}
    {s t : NetCall} (h : Provisioned own data s t) (hlab : s.labJson = some lab)
    (hne : data ≠ lab) (step : NetStep) :
    ¬CallUndone s (if (script.step step).took then { t with labJson := none } else t) := by
  intro hundone
  have hfile := hundone.labJson
  rw [hlab] at hfile
  split at hfile
  next => cases hfile
  next =>
    rw [h.labJson] at hfile
    exact hne (Option.some.inj hfile)

/-- What the handlers of the refusals and of the host errors leave. -/
theorem ends_rollBack_iff {script : NetScript} {own : OwnBridge} {network : Network}
    {data lab : Lab} {s t : NetCall} (h : Provisioned own data s t) (hlab : s.labJson = some lab)
    (hdata : data.withoutNetwork network.id = lab) (hne : data ≠ lab) :
    Ends (rollBack script own network data) t (fun _ u => CallUndone s u)
        (fun _ u => CallUndone s u) ↔
      script.passes .rollbackWrite ∧ ∀ thing ∈ t.made, thing ∈ t.present →
        network.ownsCloud = true ∧ script.cleans thing.2 := by
  unfold rollBack
  rw [ends_bind, ends_writeLabStep, hdata]
  cases hwrite : (script.step .rollbackWrite).raises with
  | some e =>
    constructor
    · intro hends
      exact absurd (hends.2 e rfl) (not_callUndone_of_raise h hlab hne .rollbackWrite)
    · intro hundone
      have hpasses := hundone.1
      unfold NetScript.passes at hpasses
      rw [hwrite] at hpasses
      cases hpasses
  | none =>
    have hpasses : script.passes .rollbackWrite := hwrite
    simp only [hpasses, forall_const, reduceCtorEq, false_implies, implies_true, and_true,
      true_and]
    cases howns : network.ownsCloud with
    | false =>
      show CallUndone s _ ↔ _
      rw [callUndone_written_iff h hlab]
      simp
    | true =>
      show Ends (cleanupNatCloud script own) _ _ _ ↔ _
      rw [ends_cleanupNatCloud, callUndone_cleaned_iff h hlab]
      simp

/-- What the handlers leave. -/
theorem ends_provisionFailed_iff {script : NetScript} {own : OwnBridge} {network : Network}
    {data lab : Lab} {s t : NetCall} (h : Provisioned own data s t) (hlab : s.labJson = some lab)
    (hdata : data.withoutNetwork network.id = lab) (hne : data ≠ lab) (e : ProvisionError)
    (returns : Unit → NetCall → Prop) :
    Ends (provisionFailed script own network data e) t returns (fun _ u => CallUndone s u) ↔
      script.RollsBack e ∧
        ∀ thing ∈ t.made, thing ∈ t.present → script.Tidies network e thing.2 := by
  have hrollBack : ∀ raised, e ≠ .step .other →
      (∀ bridge, e ≠ .network (.bridgeOwnership bridge)) →
      (Ends (rollBack script own network data >>= fun _ => throw raised) t returns
          (fun _ u => CallUndone s u) ↔ script.RollsBack e ∧
        ∀ thing ∈ t.made, thing ∈ t.present → script.Tidies network e thing.2) := by
    intro raised hother hownership
    rw [ends_bind]
    simp only [ends_throw]
    rw [ends_rollBack_iff h hlab hdata hne]
    unfold NetScript.RollsBack NetScript.Tidies
    simp [hother, hownership]
  cases e with
  | network refused =>
    cases refused with
    | service code message => exact hrollBack _ (by simp) (by simp)
    | bridgeOwnership bridge =>
      unfold provisionFailed NetScript.RollsBack NetScript.Tidies
      rw [ends_bind, ends_writeLabStep, hdata]
      simp only [ends_throw]
      cases hwrite : (script.step .rollbackWrite).raises with
      | some e =>
        constructor
        · intro hends
          exact absurd (hends.2 e rfl) (not_callUndone_of_raise h hlab hne .rollbackWrite)
        · intro hundone
          have hpasses := hundone.1.2
          unfold NetScript.passes at hpasses
          rw [hwrite] at hpasses
          cases hpasses
      | none =>
        have hpasses : script.passes .rollbackWrite := hwrite
        simp only [hpasses, forall_const, reduceCtorEq, false_implies, implies_true, and_true]
        rw [callUndone_written_iff h hlab]
        simp
  | step raised =>
    cases raised with
    | hostNet => exact hrollBack _ (by simp) (by simp)
    | os => exact hrollBack _ (by simp) (by simp)
    | other =>
      unfold provisionFailed NetScript.RollsBack
      rw [ends_throw]
      constructor
      · intro hundone
        have hfile := hundone.labJson
        rw [hlab, h.labJson] at hfile
        exact absurd (Option.some.inj hfile) hne
      · intro hrolls
        exact absurd rfl hrolls.1.1

theorem Provisioned.stepped {script : NetScript} {own : OwnBridge} {data : Lab} {s t : NetCall}
    (h : Provisioned own data s t) {step : NetStep} (hstep : step.removes ≠ some .bridge) :
    Provisioned own data s (t.stepped script own step) where
  labJson := (NetCall.stepped_labJson script own t step).trans h.labJson
  registry := (NetCall.stepped_registry script own t step).trans h.registry
  own thing hmade := by
    rcases (NetCall.mem_stepped_made script own t step thing).mp hmade with hold | hnew
    · exact h.own thing hold
    · obtain ⟨_, part, _, hthing⟩ := hnew
      rw [hthing]
  kept name hname := by
    rw [NetCall.mem_stepped_present]
    refine Or.inl ⟨h.kept name hname, ?_⟩
    intro hremoved
    obtain ⟨_, part, hpart, hthing⟩ := hremoved
    cases hthing
    exact hstep hpart

theorem Provisioned.foldl {script : NetScript} {own : OwnBridge} {data : Lab} {s t : NetCall}
    (h : Provisioned own data s t) {steps : List NetStep}
    (hsteps : ∀ step ∈ steps, step.removes ≠ some .bridge) :
    Provisioned own data s (steps.foldl (NetCall.stepped script own) t) := by
  induction steps generalizing t with
  | nil => exact h
  | cons step rest ih =>
    rw [List.foldl_cons]
    apply ih
    · exact h.stepped (hsteps step List.mem_cons_self)
    · intro other hother
      exact hsteps other (List.mem_cons_of_mem step hother)

end NovaVe
