import NovaVe.Provisioning

namespace NovaVe

/-- The step does not raise. -/
def NetScript.passes (script : NetScript) (step : NetStep) : Prop :=
  (script.step step).raises = none

/-- What the steps raise, one after the other. -/
def NetScript.failure (script : NetScript) : List NetStep → Option StepError
  | [] => none
  | step :: rest =>
    match (script.step step).raises with
    | some e => some e
    | none => script.failure rest

/-- The steps that are taken: those before the first that raises, and that one. -/
def NetScript.ran (script : NetScript) : List NetStep → List NetStep
  | [] => []
  | step :: rest =>
    match (script.step step).raises with
    | some _ => [step]
    | none => step :: script.ran rest

theorem ends_hostStep (script : NetScript) (own : OwnBridge) (step : NetStep) (s : NetCall)
    (returns : Unit → NetCall → Prop) (raises : ProvisionError → NetCall → Prop) :
    Ends (hostStep script own step) s returns raises ↔
      (script.passes step → returns () (s.stepped script own step)) ∧
        ∀ e, (script.step step).raises = some e →
          raises (.step e) (s.stepped script own step) := by
  have hrun : (hostStep script own step).run s = hostStep script own step s := rfl
  unfold Ends NetScript.passes
  rw [hrun]
  unfold hostStep
  cases hraises : (script.step step).raises with
  | none => simp
  | some e => simp

theorem ends_writeLabStep (script : NetScript) (step : NetStep) (data : Lab) (s : NetCall)
    (returns : Unit → NetCall → Prop) (raises : ProvisionError → NetCall → Prop) :
    Ends (writeLabStep script step data) s returns raises ↔
      (script.passes step → returns () { s with labJson := some data }) ∧
        ∀ e, (script.step step).raises = some e →
          raises (.step e)
            (if (script.step step).took then { s with labJson := none } else s) := by
  have hrun : (writeLabStep script step data).run s = writeLabStep script step data s := rfl
  unfold Ends NetScript.passes
  rw [hrun]
  unfold writeLabStep
  cases hraises : (script.step step).raises with
  | none => simp
  | some e => simp

theorem ends_steps (script : NetScript) (own : OwnBridge) (steps : List NetStep) (s : NetCall)
    (returns : Unit → NetCall → Prop) (raises : ProvisionError → NetCall → Prop) :
    Ends (steps.forM (hostStep script own)) s returns raises ↔
      (script.failure steps = none →
        returns () ((script.ran steps).foldl (NetCall.stepped script own) s)) ∧
      ∀ e, script.failure steps = some e →
        raises (.step e) ((script.ran steps).foldl (NetCall.stepped script own) s) := by
  induction steps generalizing s with
  | nil =>
    show returns () s ↔ _
    simp [NetScript.failure, NetScript.ran]
  | cons step rest ih =>
    have hcons : (step :: rest).forM (hostStep script own) =
        (hostStep script own step >>= fun _ => rest.forM (hostStep script own)) := rfl
    rw [hcons, ends_bind, ends_hostStep]
    unfold NetScript.failure NetScript.ran NetScript.passes
    cases hraises : (script.step step).raises with
    | none =>
      simp only [forall_const, reduceCtorEq, false_implies, implies_true, and_true]
      exact ih _
    | some e => simp

theorem NetCall.stepped_labJson (script : NetScript) (own : OwnBridge) (s : NetCall)
    (step : NetStep) : (s.stepped script own step).labJson = s.labJson := by
  unfold NetCall.stepped
  split
  next => cases step <;> rfl
  next => rfl

theorem NetCall.stepped_registry (script : NetScript) (own : OwnBridge) (s : NetCall)
    (step : NetStep) : (s.stepped script own step).registry = s.registry := by
  unfold NetCall.stepped
  split
  next => cases step <;> rfl
  next => rfl

/-- A step sets up its part when it takes. -/
theorem NetCall.mem_stepped_made (script : NetScript) (own : OwnBridge) (s : NetCall)
    (step : NetStep) (thing : String × BridgePart) :
    thing ∈ (s.stepped script own step).made ↔
      thing ∈ s.made ∨ (script.step step).took = true ∧
        ∃ part, step.makes = some part ∧ thing = (own.name, part) := by
  unfold NetCall.stepped
  cases htook : (script.step step).took with
  | false => simp
  | true =>
    cases step <;>
      simp [NetCall.effect, NetStep.makes, NetStep.removes, NetCall.make, NetCall.remove, or_comm]

/-- What is on the host after a step. -/
theorem NetCall.mem_stepped_present (script : NetScript) (own : OwnBridge) (s : NetCall)
    (step : NetStep) (thing : String × BridgePart) :
    thing ∈ (s.stepped script own step).present ↔
      (thing ∈ s.present ∧ ¬((script.step step).took = true ∧
        ∃ part, step.removes = some part ∧ thing = (own.name, part))) ∨
      (script.step step).took = true ∧
        ∃ part, step.makes = some part ∧ thing = (own.name, part) := by
  unfold NetCall.stepped
  cases htook : (script.step step).took with
  | false => simp
  | true =>
    cases step <;>
      simp [NetCall.effect, NetStep.makes, NetStep.removes, NetCall.make, NetCall.remove, or_comm,
        and_comm]

theorem foldl_stepped_labJson (script : NetScript) (own : OwnBridge) (steps : List NetStep)
    (s : NetCall) : (steps.foldl (NetCall.stepped script own) s).labJson = s.labJson :=
  foldl_keeps NetCall.labJson (NetCall.stepped_labJson script own) steps s

theorem foldl_stepped_registry (script : NetScript) (own : OwnBridge) (steps : List NetStep)
    (s : NetCall) : (steps.foldl (NetCall.stepped script own) s).registry = s.registry :=
  foldl_keeps NetCall.registry (NetCall.stepped_registry script own) steps s

theorem mem_foldl_made (script : NetScript) (own : OwnBridge) (steps : List NetStep) (s : NetCall)
    (thing : String × BridgePart) :
    thing ∈ (steps.foldl (NetCall.stepped script own) s).made ↔
      thing ∈ s.made ∨ ∃ step ∈ steps, (script.step step).took = true ∧
        ∃ part, step.makes = some part ∧ thing = (own.name, part) := by
  induction steps generalizing s with
  | nil => simp
  | cons step rest ih =>
    rw [List.foldl_cons, ih, NetCall.mem_stepped_made, List.exists_mem_cons_iff, or_assoc]

/-- Steps that remove no bridge leave the bridges that are there. -/
theorem foldl_keeps_bridge (script : NetScript) (own : OwnBridge) {steps : List NetStep}
    (hsteps : ∀ step ∈ steps, step.removes ≠ some .bridge) {s : NetCall} {name : String}
    (h : (name, .bridge) ∈ s.present) :
    (name, .bridge) ∈ (steps.foldl (NetCall.stepped script own) s).present := by
  induction steps generalizing s with
  | nil => exact h
  | cons step rest ih =>
    rw [List.foldl_cons]
    apply ih (fun other hother => hsteps other (List.mem_cons_of_mem step hother))
    rw [NetCall.mem_stepped_present]
    refine Or.inl ⟨h, ?_⟩
    intro hremoved
    obtain ⟨_, part, hpart, hname⟩ := hremoved
    cases hname
    exact hsteps step List.mem_cons_self hpart

/-- What the call has set up is there. -/
def NetCall.Holds (s : NetCall) : Prop := ∀ thing ∈ s.made, thing ∈ s.present

/-- It stays there while the steps take away no part that is set up or that one of them sets up. -/
theorem NetCall.Holds.foldl {script : NetScript} {own : OwnBridge} {steps : List NetStep}
    {s : NetCall} (h : s.Holds)
    (hsteps : ∀ step ∈ steps, ∀ part, step.removes = some part →
      (own.name, part) ∉ s.made ∧ ∀ other ∈ steps, other.makes ≠ some part) :
    (steps.foldl (NetCall.stepped script own) s).Holds := by
  induction steps generalizing s with
  | nil => exact h
  | cons step rest ih =>
    rw [List.foldl_cons]
    refine ih ?_ ?_
    · intro thing hthing
      rw [NetCall.mem_stepped_present]
      rcases (NetCall.mem_stepped_made script own s step thing).mp hthing with hold | hnew
      · refine Or.inl ⟨h thing hold, ?_⟩
        intro hremoved
        obtain ⟨_, part, hpart, hname⟩ := hremoved
        rw [hname] at hold
        exact (hsteps step List.mem_cons_self part hpart).1 hold
      · exact Or.inr hnew
    · intro other hother part hpart
      have hrest := hsteps other (List.mem_cons_of_mem step hother) part hpart
      refine ⟨?_, fun third hthird => hrest.2 third (List.mem_cons_of_mem step hthird)⟩
      intro hmade
      rcases (NetCall.mem_stepped_made script own s step _).mp hmade with hold | hnew
      · exact hrest.1 hold
      · obtain ⟨_, made, hmakes, hname⟩ := hnew
        cases hname
        exact hrest.2 step List.mem_cons_self hmakes

/-- The clean-up goes on after the step. -/
def NetScript.goesOn (script : NetScript) (step : NetStep) : Bool :=
  match (script.step step).raises with
  | none | some .hostNet => true
  | _ => false

/-- The part is taken away by the clean-up of a NAT cloud, which leaves the bridge. -/
def NetScript.cleans (script : NetScript) : BridgePart → Prop
  | .bridge => False
  | .dhcpServer => (script.step .cleanupDnsmasqStop).took = true
  | .forwardRule =>
    script.goesOn .cleanupDnsmasqStop = true ∧ (script.step .cleanupForwardRemove).took = true
  | .natRule =>
    script.goesOn .cleanupDnsmasqStop = true ∧ script.goesOn .cleanupForwardRemove = true ∧
      (script.step .cleanupNatRemove).took = true

/-- The steps of the clean-up that are taken. -/
def NetScript.cleanupRan (script : NetScript) : List NetStep :=
  if script.goesOn .cleanupDnsmasqStop then
    if script.goesOn .cleanupForwardRemove then
      [.cleanupDnsmasqStop, .cleanupForwardRemove, .cleanupNatRemove]
    else [.cleanupDnsmasqStop, .cleanupForwardRemove]
  else [.cleanupDnsmasqStop]

theorem ends_ignoreHostNetStep (script : NetScript) (own : OwnBridge) (step : NetStep)
    (s : NetCall) (returns : Unit → NetCall → Prop) (raises : ProvisionError → NetCall → Prop) :
    Ends (ignoreHostNetStep (hostStep script own step)) s returns raises ↔
      (script.goesOn step = true → returns () (s.stepped script own step)) ∧
        ∀ e, (script.step step).raises = some e → e ≠ .hostNet →
          raises (.step e) (s.stepped script own step) := by
  unfold ignoreHostNetStep NetScript.goesOn
  rw [ends_tryCatch, ends_hostStep]
  unfold NetScript.passes
  cases hraises : (script.step step).raises with
  | none => simp
  | some e => cases e <;> simp

/-- A step of the clean-up, when the exception does not matter. -/
theorem ends_cleanupStep (script : NetScript) (own : OwnBridge) (step : NetStep) (s : NetCall)
    (returns raises : NetCall → Prop) :
    Ends (ignoreHostNetStep (hostStep script own step)) s (fun _ t => returns t)
        (fun _ t => raises t) ↔
      if script.goesOn step then returns (s.stepped script own step)
      else raises (s.stepped script own step) := by
  rw [ends_ignoreHostNetStep]
  unfold NetScript.goesOn
  cases hraises : (script.step step).raises with
  | none => simp
  | some e => cases e <;> simp

theorem ends_cleanupNatCloud (script : NetScript) (own : OwnBridge) (s : NetCall)
    (post : NetCall → Prop) :
    Ends (cleanupNatCloud script own) s (fun _ t => post t) (fun _ t => post t) ↔
      post (script.cleanupRan.foldl (NetCall.stepped script own) s) := by
  unfold cleanupNatCloud NetScript.cleanupRan
  simp only [ends_bind, ends_cleanupStep]
  split
  next =>
    split
    next =>
      rw [ite_self]
      rfl
    next => rfl
  next => rfl

/-- What of the bridge is left after the clean-up. -/
theorem mem_cleanup_present (script : NetScript) (own : OwnBridge) (s : NetCall)
    (part : BridgePart) :
    (own.name, part) ∈ (script.cleanupRan.foldl (NetCall.stepped script own) s).present ↔
      (own.name, part) ∈ s.present ∧ ¬script.cleans part := by
  unfold NetScript.cleanupRan NetScript.cleans
  cases hdns : script.goesOn .cleanupDnsmasqStop with
  | false =>
    cases part <;> simp [NetCall.mem_stepped_present, NetStep.makes, NetStep.removes]
  | true =>
    cases hforward : script.goesOn .cleanupForwardRemove with
    | false =>
      cases part <;> simp [NetCall.mem_stepped_present, NetStep.makes, NetStep.removes]
    | true =>
      cases part <;> simp [NetCall.mem_stepped_present, NetStep.makes, NetStep.removes]

/-- The clean-up sets up nothing and takes no bridge away. -/
theorem cleanupRan_spares {script : NetScript} {step : NetStep} (h : step ∈ script.cleanupRan) :
    step.makes = none ∧ step.removes ≠ some .bridge := by
  have hclean : step = .cleanupDnsmasqStop ∨ step = .cleanupForwardRemove ∨
      step = .cleanupNatRemove := by
    unfold NetScript.cleanupRan at h
    split at h
    next =>
      split at h
      next => simpa using h
      next =>
        rcases List.mem_pair.mp h with heq | heq
        · exact Or.inl heq
        · exact Or.inr (Or.inl heq)
    next => exact Or.inl (List.mem_singleton.mp h)
  rcases hclean with heq | heq | heq
  · subst heq
    simp [NetStep.makes, NetStep.removes]
  · subst heq
    simp [NetStep.makes, NetStep.removes]
  · subst heq
    simp [NetStep.makes, NetStep.removes]

theorem mem_cleanup_made (script : NetScript) (own : OwnBridge) (s : NetCall)
    (thing : String × BridgePart) :
    thing ∈ (script.cleanupRan.foldl (NetCall.stepped script own) s).made ↔ thing ∈ s.made := by
  rw [mem_foldl_made]
  constructor
  · intro hmade
    rcases hmade with hold | hnew
    · exact hold
    · obtain ⟨step, hstep, _, part, hmakes, _⟩ := hnew
      rw [(cleanupRan_spares hstep).1] at hmakes
      cases hmakes
  · intro hold
    exact Or.inl hold

end NovaVe
