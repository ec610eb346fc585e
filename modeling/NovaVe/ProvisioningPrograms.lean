import NovaVe.ProvisioningSteps

namespace NovaVe

/-- What `bridge_exists` answers. -/
def NetScript.found (script : NetScript) (own : OwnBridge) (s : NetCall) : Bool :=
  !script.ipMissing && decide ((own.name, .bridge) ∈ s.present)

/-- How `bridge_add` ends: a bridge that is there cannot be added. -/
def NetScript.addEnd (script : NetScript) (own : OwnBridge) (s : NetCall) : StepEnd :=
  if (own.name, .bridge) ∈ s.present then { raises := some .hostNet, took := false }
  else script.step .bridgeAdd

/-- The state after `bridge_add`. -/
def NetScript.added (script : NetScript) (own : OwnBridge) (s : NetCall) : NetCall :=
  if (script.addEnd own s).took then s.effect own .bridgeAdd else s

/-- The fingerprint of a bridge that is there is the wanted one. -/
def OwnBridge.marked (own : OwnBridge) (s : NetCall) : Prop :=
  fingerprintStatus s.fingerprints own.name own.mark.labId own.mark.networkId = .same

/-- What goes on when the fingerprint of a new bridge cannot be written. -/
def NetScript.stampError (script : NetScript) (e : StepError) : StepError :=
  match (script.step .bridgeDel).raises with
  | some .os => .os
  | some .other => .other
  | _ => e

/-- A step that only looks. -/
theorem NetCall.stepped_look {script : NetScript} {own : OwnBridge} {s : NetCall} {step : NetStep}
    (h : s.effect own step = s) : s.stepped script own step = s := by
  unfold NetCall.stepped
  split
  next => exact h
  next => rfl

theorem ends_bridgeFound (script : NetScript) (own : OwnBridge) (s : NetCall)
    (returns : Bool → NetCall → Prop) (raises : ProvisionError → NetCall → Prop) :
    Ends (bridgeFound script own) s returns raises ↔
      (script.passes .bridgeExists → returns (script.found own s) s) ∧
        ∀ e, (script.step .bridgeExists).raises = some e → raises (.step e) s := by
  have hlook : s.stepped script own .bridgeExists = s := NetCall.stepped_look rfl
  unfold bridgeFound
  rw [ends_bind, ends_hostStep, hlook]
  rfl

theorem ends_addBridge (script : NetScript) (own : OwnBridge) (s : NetCall)
    (returns : Unit → NetCall → Prop) (raises : ProvisionError → NetCall → Prop) :
    Ends (addBridge script own) s returns raises ↔
      ((script.addEnd own s).raises = none → returns () (script.added own s)) ∧
        ∀ e, (script.addEnd own s).raises = some e → raises (.step e) (script.added own s) := by
  unfold addBridge NetScript.added NetScript.addEnd
  rw [ends_bind, ends_get]
  split
  next =>
    rw [ends_throw]
    simp
  next =>
    rw [ends_hostStep]
    rfl

theorem ends_checkOwnBridge (script : NetScript) (own : OwnBridge) (s : NetCall)
    (returns : Unit → NetCall → Prop) (raises : ProvisionError → NetCall → Prop) :
    Ends (checkOwnBridge script own) s returns raises ↔
      (∀ e, (script.step .fingerprintCheck).raises = some e → raises (.step e) s) ∧
      (script.passes .fingerprintCheck →
        (¬own.marked s → raises (.network (.bridgeOwnership own.name)) s) ∧
        (own.marked s → returns () s)) := by
  have hlook : s.stepped script own .fingerprintCheck = s := NetCall.stepped_look rfl
  unfold checkOwnBridge OwnBridge.marked
  rw [ends_bind, ends_hostStep, hlook, ends_bind, ends_get]
  split
  next hsame =>
    rw [ends_pure]
    simp [hsame, and_comm]
  next hother =>
    rw [ends_throw]
    simp [hother, and_comm]

theorem ends_makeOwnBridge (script : NetScript) (own : OwnBridge) (s : NetCall)
    (returns : Unit → NetCall → Prop) (raises : ProvisionError → NetCall → Prop) :
    Ends (makeOwnBridge script own) s returns raises ↔
      (∀ e, (script.addEnd own s).raises = some e → raises (.step e) (script.added own s)) ∧
      ((script.addEnd own s).raises = none →
        (script.passes .fingerprintWrite →
          returns () ((script.added own s).stepped script own .fingerprintWrite)) ∧
        ∀ e, (script.step .fingerprintWrite).raises = some e →
          raises (.step (script.stampError e))
            (((script.added own s).stepped script own .fingerprintWrite).stepped script own
              .bridgeDel)) := by
  unfold makeOwnBridge
  rw [ends_bind, ends_addBridge, ends_onRaise, ends_hostStep]
  simp only [ends_ignoreHostNetStep]
  unfold NetScript.goesOn NetScript.stampError
  rw [and_comm]
  cases hdel : (script.step .bridgeDel).raises with
  | none => simp
  | some raised => cases raised <;> simp

/-- How the bridge of a new network comes about. -/
theorem ends_provisionOwnBridge (script : NetScript) (own : OwnBridge) (s : NetCall)
    (returns : Unit → NetCall → Prop) (raises : ProvisionError → NetCall → Prop) :
    Ends (provisionOwnBridge script own) s returns raises ↔
      (∀ e, (script.step .bridgeExists).raises = some e → raises (.step e) s) ∧
      (script.passes .bridgeExists →
        (script.found own s = true → Ends (checkOwnBridge script own) s returns raises) ∧
        (script.found own s = false → Ends (makeOwnBridge script own) s returns raises)) := by
  unfold provisionOwnBridge
  rw [ends_bind, ends_bridgeFound]
  cases script.found own s with
  | true => simp [and_comm]
  | false => simp [and_comm]

/-- The commands of a NAT cloud that is its own owner, when its gateway and its way out are there. -/
def natSteps (config : NetworkConfig) : List NetStep :=
  [.bridgeAddrAdd, .linkUp, .ipv4ForwardEnable, .natApply, .forwardApply,
    if config.dhcp then .dnsmasqStart else .dnsmasqStop]

/-- Why the way out of a NAT cloud is not there. -/
def NetScript.egressRefusal (script : NetScript) (config : NetworkConfig) : Option ProvisionError :=
  if pyStrip (config.egressInterface.getD "") = "" then
    match (script.step .defaultEgressIface).raises with
    | some e => some (.step e)
    | none =>
      if pyStrip script.egress = "" then
        some (.network (.service 409 "Host has no default-route interface for NAT-Cloud egress."))
      else none
  else none

/-- Why a NAT cloud is not set up at all. -/
def NetScript.natRefusal (script : NetScript) (config : NetworkConfig) : Option ProvisionError :=
  match bridgeGatewayCidr config with
  | .error e => some (.network e)
  | .ok _ => script.egressRefusal config

/-- What setting up a NAT cloud raises. -/
def NetScript.natFailure (script : NetScript) (config : NetworkConfig) : Option ProvisionError :=
  match script.natRefusal config with
  | some e => some e
  | none => (script.failure (natSteps config)).map .step

/-- The commands that are given for it. -/
def NetScript.natRan (script : NetScript) (config : NetworkConfig) : List NetStep :=
  match script.natRefusal config with
  | some _ => []
  | none => script.ran (natSteps config)

theorem ends_egressInterface (script : NetScript) (own : OwnBridge) (config : NetworkConfig)
    (s : NetCall) (returns : Unit → NetCall → Prop) (raises : ProvisionError → NetCall → Prop) :
    Ends (egressInterface script own config) s returns raises ↔
      (script.egressRefusal config = none → returns () s) ∧
        ∀ e, script.egressRefusal config = some e → raises e s := by
  have hlook : s.stepped script own .defaultEgressIface = s := NetCall.stepped_look rfl
  unfold egressInterface NetScript.egressRefusal
  split
  next =>
    rw [ends_bind, ends_hostStep, hlook]
    unfold NetScript.passes
    cases hraises : (script.step .defaultEgressIface).raises with
    | some e => simp
    | none =>
      split
      next =>
        rw [ends_throw]
        simp
      next =>
        rw [ends_pure]
        simp
  next =>
    rw [ends_pure]
    simp

theorem ends_ensureNatCloud (script : NetScript) (own : OwnBridge) (config : NetworkConfig)
    (s : NetCall) (returns : Unit → NetCall → Prop) (raises : ProvisionError → NetCall → Prop) :
    Ends (ensureNatCloud script own config) s returns raises ↔
      (script.natFailure config = none →
        returns () ((script.natRan config).foldl (NetCall.stepped script own) s)) ∧
      ∀ e, script.natFailure config = some e →
        raises e ((script.natRan config).foldl (NetCall.stepped script own) s) := by
  have hsteps : ∀ t : NetCall, Ends ((natSteps config).forM (hostStep script own)) t returns raises ↔
      Ends (do
        hostStep script own .bridgeAddrAdd
        hostStep script own .linkUp
        hostStep script own .ipv4ForwardEnable
        hostStep script own .natApply
        hostStep script own .forwardApply
        if config.dhcp then hostStep script own .dnsmasqStart
        else hostStep script own .dnsmasqStop) t returns raises := by
    intro t
    have hcons : ∀ (step : NetStep) (rest : List NetStep),
        (step :: rest).forM (hostStep script own) =
          (hostStep script own step >>= fun _ => rest.forM (hostStep script own)) := by
      intro step rest
      rfl
    have hnil : ([] : List NetStep).forM (hostStep script own) = pure () := rfl
    unfold natSteps
    cases config.dhcp with
    | true => simp only [hcons, hnil, ends_bind, ends_pure, if_true]
    | false => simp only [hcons, hnil, ends_bind, ends_pure, Bool.false_eq_true, if_false]
  unfold ensureNatCloud NetScript.natFailure NetScript.natRan NetScript.natRefusal
  cases hgateway : bridgeGatewayCidr config with
  | error e =>
    show Ends (throw _) s returns raises ↔ _
    rw [ends_throw]
    simp
  | ok cidr =>
    dsimp only
    rw [ends_bind, ends_egressInterface]
    cases hegress : script.egressRefusal config with
    | some e => simp
    | none =>
      simp only [forall_const, reduceCtorEq, false_implies, implies_true, and_true]
      rw [← hsteps, ends_steps]
      cases script.failure (natSteps config) with
      | none => simp
      | some e => simp

theorem mem_ran {script : NetScript} {steps : List NetStep} {step : NetStep}
    (h : step ∈ script.ran steps) : step ∈ steps := by
  induction steps with
  | nil => cases h
  | cons first rest ih =>
    unfold NetScript.ran at h
    split at h
    next =>
      rw [List.mem_singleton.mp h]
      exact List.mem_cons_self
    next =>
      rcases List.mem_cons.mp h with heq | hrest
      · rw [heq]
        exact List.mem_cons_self
      · exact List.mem_cons_of_mem first (ih hrest)

theorem mem_natRan {script : NetScript} {config : NetworkConfig} {step : NetStep}
    (h : step ∈ script.natRan config) : step ∈ natSteps config := by
  unfold NetScript.natRan at h
  split at h
  next => cases h
  next => exact mem_ran h

/-- The commands of a NAT cloud take no bridge away, nor a part that one of them sets up. -/
theorem natSteps_removes {config : NetworkConfig} {step : NetStep} (h : step ∈ natSteps config)
    {part : BridgePart} (hpart : step.removes = some part) :
    part = .dhcpServer ∧ ∀ other ∈ natSteps config, other.makes ≠ some part := by
  unfold natSteps at h ⊢
  cases hdhcp : config.dhcp with
  | true =>
    rw [hdhcp] at h
    simp only [if_true, List.mem_cons, List.not_mem_nil, or_false] at h
    rcases h with heq | heq | heq | heq | heq | heq <;> (subst heq; cases hpart)
  | false =>
    rw [hdhcp] at h
    simp only [Bool.false_eq_true, if_false, List.mem_cons, List.not_mem_nil, or_false] at h
    rcases h with heq | heq | heq | heq | heq | heq <;> (subst heq; cases hpart)
    refine ⟨rfl, ?_⟩
    intro other hother
    simp only [Bool.false_eq_true, if_false, List.mem_cons, List.not_mem_nil, or_false] at hother
    rcases hother with heq | heq | heq | heq | heq | heq <;> (subst heq; simp [NetStep.makes])

theorem bridgeGatewayCidr_error {config : NetworkConfig} {e : NetworkError}
    (h : bridgeGatewayCidr config = .error e) : ∀ bridge, e ≠ .bridgeOwnership bridge := by
  intro bridge hownership
  subst hownership
  unfold bridgeGatewayCidr at h
  cases hcidr : validateCidr config.cidr with
  | error refused =>
    rw [hcidr] at h
    cases h
    unfold validateCidr at hcidr
    dsimp only at hcidr
    split at hcidr
    next => cases hcidr
    next =>
      split at hcidr
      next => cases hcidr
      next => cases hcidr
  | ok cidr =>
    rw [hcidr] at h
    cases hgateway : validateIpv4 config.gateway "config.gateway" with
    | error refused =>
      rw [hgateway] at h
      cases h
      unfold validateIpv4 at hgateway
      dsimp only at hgateway
      split at hgateway
      next => cases hgateway
      next =>
        split at hgateway
        next => cases hgateway
        next => cases hgateway
    | ok gateway =>
      rw [hgateway] at h
      cases h

theorem egressRefusal_ne_ownership {script : NetScript} {config : NetworkConfig}
    {e : ProvisionError} (h : script.egressRefusal config = some e) :
    ∀ bridge, e ≠ .network (.bridgeOwnership bridge) := by
  intro bridge hownership
  subst hownership
  unfold NetScript.egressRefusal at h
  split at h
  next =>
    split at h
    next => cases h
    next =>
      split at h
      next => cases h
      next => cases h
  next => cases h

theorem natFailure_ne_ownership {script : NetScript} {config : NetworkConfig} {e : ProvisionError}
    (h : script.natFailure config = some e) : ∀ bridge, e ≠ .network (.bridgeOwnership bridge) := by
  unfold NetScript.natFailure at h
  split at h
  next refused hrefused =>
    cases h
    unfold NetScript.natRefusal at hrefused
    split at hrefused
    next gateway hgateway =>
      intro bridge hownership
      cases hrefused
      exact bridgeGatewayCidr_error hgateway bridge (ProvisionError.network.inj hownership)
    next => exact egressRefusal_ne_ownership hrefused
  next =>
    intro bridge hownership
    obtain ⟨step, _, hstep⟩ := Option.map_eq_some_iff.mp h
    rw [hownership] at hstep
    cases hstep

end NovaVe
