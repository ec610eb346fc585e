import NovaVe.NetHelper

namespace NovaVe

/-- The pidfile of a bridge holds no pid, or that of a process whose command line can be read and
either mentions no dnsmasq, so that the helper refuses, or is the one of the bridge's server. -/
def Machine.PidfileOk (env : HelperEnv) (machine : Machine) (bridge : String) : Prop :=
  ∀ pid, machine.dnsmasqPid bridge = some pid → fitsPid pid = true →
    ∃ args, machine.cmdline pid = .content args ∧
      ((args ≠ [] ∧ args.any (mentions "dnsmasq") = false) ∨
        (1 < pid ∧ servesBridge env bridge args = true))

/-- When a verb may be called: the pidfile is in order, and a command line that mentions the console
proxy is that of a process which runs it. -/
def HelperCall.Safe (env : HelperEnv) (machine : Machine) : HelperCall → Prop
  | .dnsmasqStart bridge gateway dhcpStart dhcpEnd =>
    ∀ first last, isBridgeName bridge = true → (ipv4Value gateway).isSome →
      ipv4Value dhcpStart = some first → ipv4Value dhcpEnd = some last → first ≤ last →
      machine.PidfileOk env bridge
  | .dnsmasqStop bridge => isBridgeName bridge = true → machine.PidfileOk env bridge
  | .consoleProxyStop pidText =>
    ∀ args, isPidText pidText.toList = true → 1 < Nat.ofDigitChars 10 pidText.toList 0 →
      machine.cmdline (Nat.ofDigitChars 10 pidText.toList 0) = .content args →
      args.any (mentions "nova-ve-console-proxy") = true → runsConsoleProxy env args = true
  | .qemuProcessSignal _ _ | .other _ => True

/-- What has to hold of the signals of a list, for an identity of the command line. -/
def Justified (machine : Machine) (identity : Int → List String → Prop) (sent : List SentSignal) :
    Prop :=
  ∀ signal ∈ sent, 1 < signal.target.pid ∧
    ∃ args, machine.cmdline signal.target.pid = .content args ∧ identity signal.target.pid args

theorem justified_nil (machine : Machine) (identity : Int → List String → Prop) :
    Justified machine identity [] :=
  fun _ h => absurd h List.not_mem_nil

theorem justified_singleton {machine : Machine} {identity : Int → List String → Prop}
    {signal : SentSignal} :
    Justified machine identity [signal] ↔ 1 < signal.target.pid ∧
      ∃ args, machine.cmdline signal.target.pid = .content args ∧
        identity signal.target.pid args := by
  simp [Justified]

theorem dnsmasqStopBridge_justified (env : HelperEnv) (machine : Machine) (bridge : String) :
    Justified machine (fun _ args => servesBridge env bridge args = true)
      (dnsmasqStopBridge machine bridge) ↔ machine.PidfileOk env bridge := by
  unfold dnsmasqStopBridge Machine.PidfileOk
  cases hpid : machine.dnsmasqPid bridge with
  | none =>
    refine iff_of_true (justified_nil machine _) (fun pid h => ?_)
    cases h
  | some pid =>
    dsimp only
    by_cases hfits : fitsPid pid = true
    · have hsent : Justified machine (fun _ args => servesBridge env bridge args = true)
          (if fitsPid pid then [{ target := .process pid, number := 15 }] else []) ↔
          1 < pid ∧ ∃ args, machine.cmdline pid = .content args ∧
            servesBridge env bridge args = true := by
        rw [if_pos hfits]
        exact justified_singleton
      constructor
      · intro h pid' hpid' _
        obtain rfl : pid = pid' := Option.some.inj hpid'
        have hunread : (∀ args, machine.cmdline pid ≠ .content args) →
            ¬ Justified machine (fun _ args => servesBridge env bridge args = true)
              (if fitsPid pid then [{ target := .process pid, number := 15 }] else []) := by
          intro hno hj
          obtain ⟨_, args, hread, _⟩ := hsent.mp hj
          exact hno args hread
        cases hread : machine.cmdline pid with
        | content args =>
          rw [hread] at h
          dsimp only at h
          by_cases hrefused : args ≠ [] ∧ args.any (mentions "dnsmasq") = false
          · exact ⟨args, rfl, Or.inl hrefused⟩
          · rw [if_neg hrefused, hsent] at h
            obtain ⟨hlt, args', hread', hconf⟩ := h
            obtain rfl : args = args' := ProcRead.content.inj (hread.symm.trans hread')
            exact ⟨args, rfl, Or.inr ⟨hlt, hconf⟩⟩
        | notFound | permission | otherError =>
          rw [hread] at h
          exact absurd h (hunread (fun _ he => by simp [hread] at he))
      · intro h
        obtain ⟨args, hread, hcase⟩ := h pid rfl hfits
        rw [hread]
        dsimp only
        by_cases hrefused : args ≠ [] ∧ args.any (mentions "dnsmasq") = false
        · rw [if_pos hrefused]
          exact justified_nil machine _
        · rw [if_neg hrefused, hsent]
          obtain ⟨hlt, hconf⟩ := hcase.resolve_left hrefused
          exact ⟨hlt, args, hread, hconf⟩
    · refine iff_of_true ?_ (fun pid' hpid' hfits' => ?_)
      · rw [if_neg hfits, ite_self]
        exact justified_nil machine _
      · obtain rfl : pid = pid' := Option.some.inj hpid'
        exact absurd hfits' hfits

theorem killUntilGone_target {pid : Int} {gone : Nat → Bool} {k : Nat} {numbers : List Nat}
    {signal : SentSignal} (h : signal ∈ killUntilGone pid gone k numbers) :
    signal.target = .process pid := by
  induction numbers generalizing k with
  | nil => cases h
  | cons number rest ih =>
    unfold killUntilGone at h
    rcases List.mem_cons.mp h with rfl | hrest
    · rfl
    · split at hrest
      next => cases hrest
      next => exact ih hrest

theorem killUntilGone_justified {machine : Machine} {identity : Int → List String → Prop} {pid : Int}
    (gone : Nat → Bool) (k number : Nat) (rest : List Nat) :
    Justified machine identity (killUntilGone pid gone k (number :: rest)) ↔
      1 < pid ∧ ∃ args, machine.cmdline pid = .content args ∧ identity pid args := by
  constructor
  · intro h
    have hfirst : { target := .process pid, number := number } ∈
        killUntilGone pid gone k (number :: rest) := by
      unfold killUntilGone
      exact List.mem_cons_self
    exact h _ hfirst
  · intro h signal hm
    rw [killUntilGone_target hm]
    exact h

theorem consoleProxyStop_justified (env : HelperEnv) (machine : Machine) (pidText : String) :
    Justified machine (fun _ args => runsConsoleProxy env args = true)
      (consoleProxyStop machine pidText).sent ↔
      (HelperCall.consoleProxyStop pidText).Safe env machine := by
  unfold consoleProxyStop HelperCall.Safe
  by_cases htext : isPidText pidText.toList = true
  · simp only [htext, Bool.not_true, Bool.false_eq_true, if_false, true_implies]
    split
    next hle =>
      refine iff_of_true (justified_nil machine _) (fun args hlt => ?_)
      omega
    next hlt =>
      have hone : 1 < Nat.ofDigitChars 10 pidText.toList 0 := by omega
      cases hread : machine.cmdline (Nat.ofDigitChars 10 pidText.toList 0) with
      | content args =>
        dsimp only
        split
        next hnone =>
          refine iff_of_true (justified_nil machine _) (fun args' _ hargs hany => ?_)
          obtain rfl : args = args' := ProcRead.content.inj hargs
          rw [hnone] at hany
          cases hany
        next hsome =>
          rw [killUntilGone_justified]
          constructor
          · rintro ⟨_, args', hread', hbin⟩ args'' _ hargs _
            obtain rfl : args = args'' := ProcRead.content.inj hargs
            obtain rfl : args = args' := ProcRead.content.inj (hread.symm.trans hread')
            exact hbin
          · intro h
            have hbin := h args hone rfl (by simpa using hsome)
            exact ⟨by omega, args, hread, hbin⟩
      | notFound => exact iff_of_true (justified_nil machine _) (fun _ _ h => by cases h)
      | permission => exact iff_of_true (justified_nil machine _) (fun _ _ h => by cases h)
      | otherError => exact iff_of_true (justified_nil machine _) (fun _ _ h => by cases h)
  · have hfalse : isPidText pidText.toList = false := by simpa using htext
    simp only [hfalse, Bool.not_false, if_true, Bool.false_eq_true, false_implies, implies_true,
      iff_true]
    exact justified_nil machine _

theorem validatePidShape_ge {text : String} {pid : Int} (h : validatePidShape text = some pid) :
    10 ≤ pid := by
  unfold validatePidShape at h
  dsimp only at h
  split at h
  next =>
    split at h
    next => cases h
    next hge =>
      obtain rfl := Option.some.inj h
      omega
  next => cases h

/-- A signal to a QEMU process group always meets the test of the registry and the command line. -/
theorem qemuProcessSignal_justified (env : HelperEnv) (machine : Machine) (pidText signal : String) :
    SignalsJustified env machine (.qemuProcessSignal pidText signal) := by
  intro sent hsent
  simp only [HelperCall.run, qemuProcessSignal] at hsent
  split at hsent
  next => cases hsent
  next pid entry hauthorized =>
    simp only [Machine.authorizePidEntry, Option.bind_eq_bind, Option.bind_eq_some_iff] at hauthorized
    obtain ⟨pid', hshape, entry', hlookup, hfound⟩ := hauthorized
    split at hfound
    next =>
      obtain ⟨rfl, rfl⟩ := Prod.mk.inj (Option.some.inj hfound)
      have hge := validatePidShape_ge hshape
      split at hsent
      next => cases hsent
      next hkind =>
        split at hsent
        next args hread =>
          have htarget : qemuCmdlineMatches env entry' args = true →
              1 < pid' ∧ ∃ args, machine.cmdline pid' = .content args ∧
                (HelperCall.qemuProcessSignal pidText signal).Identifies env machine pid' args :=
            fun hmatch => ⟨by omega, args, hread, entry', hlookup, not_not.mp hkind, hmatch⟩
          split at hsent
          next => cases hsent
          next hmatch =>
            have hgood := htarget (by simpa using hmatch)
            split at hsent
            next =>
              obtain rfl := List.mem_singleton.mp hsent
              exact hgood
            next =>
              split at hsent
              next =>
                obtain rfl := List.mem_singleton.mp hsent
                exact hgood
              next => cases hsent
        next => cases hsent
    next => cases hfound

/-- Every signal of a verb is justified exactly when the verb may be called. -/
theorem helper_signals_justified_iff (env : HelperEnv) (machine : Machine) (call : HelperCall) :
    SignalsJustified env machine call ↔ call.Safe env machine := by
  cases call with
  | dnsmasqStop bridge =>
    simp only [SignalsJustified, HelperCall.run, dnsmasqStop, HelperCall.Safe]
    cases hname : isBridgeName bridge with
    | true =>
      simp only [if_true, true_implies]
      exact dnsmasqStopBridge_justified env machine bridge
    | false =>
      refine iff_of_true (justified_nil machine _) (fun h => ?_)
      cases h
  | dnsmasqStart bridge gateway dhcpStart dhcpEnd =>
    simp only [SignalsJustified, HelperCall.run, dnsmasqStart, HelperCall.Safe]
    split
    next gatewayValue first last hname hgateway hfirst hlast =>
      split
      next hlt =>
        refine iff_of_true (justified_nil machine _) (fun first' last' _ _ hfirst' hlast' hle => ?_)
        obtain rfl : first = first' := Option.some.inj (hfirst.symm.trans hfirst')
        obtain rfl : last = last' := Option.some.inj (hlast.symm.trans hlast')
        omega
      next hle =>
        refine (dnsmasqStopBridge_justified env machine bridge).trans ?_
        constructor
        · exact fun h _ _ _ _ _ _ _ => h
        · exact fun h => h first last hname (by rw [hgateway]; rfl) hfirst hlast (by omega)
    next hrefused =>
      refine iff_of_true (justified_nil machine _)
        (fun first last hname hgateway hfirst hlast _ => ?_)
      obtain ⟨value, hvalue⟩ := Option.isSome_iff_exists.mp hgateway
      exact absurd hlast (hrefused value first last hname hvalue hfirst)
  | consoleProxyStop pidText => exact consoleProxyStop_justified env machine pidText
  | qemuProcessSignal pidText signal =>
    exact iff_of_true (qemuProcessSignal_justified env machine pidText signal) trivial
  | other args => exact iff_of_true (justified_nil machine _) trivial

def helperEnv : HelperEnv :=
  { runtimeRoot := "/var/lib/nova-ve"
    dnsmasqBin := "dnsmasq"
    consoleProxyBin := "/opt/nova-ve/bin/nova-ve-console-proxy.py" }

/-- A pidfile that holds `-1`: there is no such process, so that no command line can be read. -/
def strayPidfile : Machine :=
  { pidfile := fun _ => some "-1\n", registry := none, cmdline := fun _ => .notFound
    procText := fun _ _ => "", gone := fun _ => false }

/-- Stopping the server of a bridge may signal every process of the machine. -/
theorem stray_pidfile_signals_all :
    ¬ ∀ (env : HelperEnv) (machine : Machine) (call : HelperCall),
      SignalsJustified env machine call := by
  intro h
  have hsent : { target := .process (-1), number := 15 } ∈
      ((HelperCall.dnsmasqStop "nove00ffn1").run helperEnv strayPidfile).sent := by decide +kernel
  obtain ⟨hpid, _⟩ := h helperEnv strayPidfile (.dnsmasqStop "nove00ffn1") _ hsent
  exact absurd hpid (by decide)

end NovaVe
