import NovaVe.Reconciled

namespace NovaVe

variable {runtime : NodeRuntime} {source : NicSource} {nodeId : Int}
  {bridgeName : String → Int → String} {lab : Lab}

theorem linkedHost_eq_self {nodeId i : Int} {want : Expected} {host : Host}
    (hport : host.ports.get? (.tap nodeId i) = some { master := some want.bridgeName, up := true })
    (hcarrier : host.carrier.get? (nodeId, i) = some true) :
    linkedHost nodeId host (i, want) = host := by
  have hmaster : host.ports.modify (.tap nodeId i)
      (fun state => { state with master := some want.bridgeName }) = host.ports := by
    refine Dict.modify_eq_self (fun state hs => ?_)
    rw [hport] at hs
    cases hs
    rfl
  have hup : host.ports.modify (.tap nodeId i) (fun state => { state with up := true }) =
      host.ports := by
    refine Dict.modify_eq_self (fun state hs => ?_)
    rw [hport] at hs
    cases hs
    rfl
  unfold linkedHost
  simp only [hport, Option.isSome_some, if_true, HostCall.effect, Host.editPort, hmaster, hup,
    Dict.set_get hcarrier]

theorem pinnedHost_eq_self {nodeId i : Int} {host : Host}
    (hport : ∀ state, host.ports.get? (.tap nodeId i) = some state → state.master = none)
    (hcarrier : host.carrier.get? (nodeId, i) = some false) : pinnedHost nodeId host i = host := by
  have hmaster : host.ports.modify (.tap nodeId i) (fun state => { state with master := none }) =
      host.ports := by
    refine Dict.modify_eq_self (fun state hs => ?_)
    have := hport state hs
    cases state
    simp_all
  unfold pinnedHost
  simp only [HostCall.effect, Host.editPort, Dict.set_get hcarrier, hmaster]

/-- The interfaces that phases 2 and 3 pin down. -/
def pinnedIndices (source : NicSource) (nodeId : Int) (expected : Dict Int Expected)
    (runtime : NodeRuntime) : List Int :=
  unlinkedIndices expected (runtime.applied source nodeId expected) ++
    removedIndices expected runtime

theorem reconciledHost_eq (source : NicSource) (nodeId : Int) (expected : Dict Int Expected)
    (runtime : NodeRuntime) (host : Host) :
    reconciledHost source nodeId expected runtime host =
      (pinnedIndices source nodeId expected runtime).foldl (pinnedHost nodeId)
        (expected.entries.foldl (linkedHost nodeId) host) := by
  unfold reconciledHost pinnedIndices removedIndices
  rw [List.foldl_append, List.foldl_map]

theorem mem_unlinkedIndices {expected : Dict Int Expected} {i : Int} :
    i ∈ unlinkedIndices expected runtime ↔
      (0 ≤ i ∧ i < runtime.bootEthernet) ∧ expected.get? i = none ∧
        i ∉ recordedBootIndices runtime := by
  have hrange : i ∈ (List.range runtime.bootEthernet.toNat).map (fun (i : Nat) => (i : Int)) ↔
      0 ≤ i ∧ i < runtime.bootEthernet := by
    rw [List.mem_map]
    constructor
    · rintro ⟨n, hn, rfl⟩
      rw [List.mem_range] at hn
      omega
    · rintro ⟨h0, hi⟩
      exact ⟨i.toNat, List.mem_range.mpr (by omega), by omega⟩
  unfold unlinkedIndices
  rw [List.mem_filter, hrange]
  simp

/-- What is pinned down: every boot interface that is not expected, and nothing that is. -/
theorem pinnedIndices_spec (source : NicSource) (nodeId : Int) (expected : Dict Int Expected)
    (h : (runtime.attachments.map Attachment.interfaceIndex).Nodup) :
    (∀ i ∈ pinnedIndices source nodeId expected runtime, expected.get? i = none) ∧
      ∀ i, 0 ≤ i → i < runtime.bootEthernet → expected.get? i = none →
        i ∈ pinnedIndices source nodeId expected runtime := by
  have hboot := applied_bootEthernet source nodeId expected runtime
  constructor
  · intro i hi
    rcases List.mem_append.mp hi with hu | hr
    · exact (mem_unlinkedIndices.mp hu).2.1
    · exact (mem_removedIndices.mp hr).1
  · intro i h0 hi hnone
    rw [pinnedIndices, List.mem_append]
    by_cases hrec : i ∈ recordedBootIndices (runtime.applied source nodeId expected)
    · right
      obtain ⟨a, ha, rfl⟩ := List.mem_map.mp hrec
      obtain ⟨hm, hp⟩ := List.mem_filter.mp ha
      rw [Bool.and_eq_true] at hp
      rcases (mem_applied_iff expected.keysNodup h).mp hm with ⟨want, hwant, _⟩ | ⟨hr, _⟩
      · have hsome : expected.get? a.interfaceIndex = some want := hwant
        rw [hnone] at hsome
        cases hsome
      · exact mem_removedIndices.mpr ⟨hnone, hi, a, hr, rfl, hp.1⟩
    · left
      rw [mem_unlinkedIndices, hboot]
      exact ⟨⟨h0, hi⟩, hnone, hrec⟩

/-- The TAP of an interface after a reconcile. -/
theorem reconciledHost_tap (source : NicSource) (nodeId : Int) (expected : Dict Int Expected)
    (runtime : NodeRuntime) (host : Host) (i : Int) :
    (reconciledHost source nodeId expected runtime host).ports.get? (.tap nodeId i) =
      let linked := ((expected.get? i).map (fun want =>
        ({ master := some want.bridgeName, up := true } : PortState))).or
          (host.ports.get? (.tap nodeId i))
      if i ∈ pinnedIndices source nodeId expected runtime then
        linked.map (fun state => { state with master := none })
      else linked := by
  rw [reconciledHost_eq, foldl_marked (fun (h : Host) j => h.ports.get? (.tap nodeId j))
    (g := Option.map (fun state => { state with master := none })),
    foldl_keyed (fun (h : Host) j => h.ports.get? (.tap nodeId j))
      (fun _ want => ({ master := some want.bridgeName, up := true } : PortState))]
  · rfl
  · intro h wanted j
    rw [linkedHost_ports]
    simp
  · exact expected.keysNodup
  · intro state
    cases state <;> rfl
  · intro h j j'
    rw [pinnedHost_ports]
    simp

/-- The carrier of an interface after a reconcile. -/
theorem reconciledHost_carrier (source : NicSource) (nodeId : Int) (expected : Dict Int Expected)
    (runtime : NodeRuntime) (host : Host) (i : Int) :
    (reconciledHost source nodeId expected runtime host).carrier.get? (nodeId, i) =
      if i ∈ pinnedIndices source nodeId expected runtime then some false
      else ((expected.get? i).map (fun _ => true)).or (host.carrier.get? (nodeId, i)) := by
  rw [reconciledHost_eq, foldl_marked (fun (h : Host) j => h.carrier.get? (nodeId, j))
    (g := fun _ => some false),
    foldl_keyed (fun (h : Host) j => h.carrier.get? (nodeId, j)) (fun _ _ => true)]
  · rfl
  · intro h wanted j
    rw [linkedHost_carrier]
    simp
  · exact expected.keysNodup
  · intro _
    rfl
  · intro h j j'
    rw [pinnedHost_carrier]
    simp

/-- A second reconcile leaves the host as it is. -/
theorem reconciledHost_idem {expected : Dict Int Expected} {r : NodeRuntime} {host : Host}
    (h : (r.attachments.map Attachment.interfaceIndex).Nodup) :
    reconciledHost source nodeId expected (reconciledRecord source nodeId expected r)
        (reconciledHost source nodeId expected r host) =
      reconciledHost source nodeId expected r host := by
  obtain ⟨hpinned, hall⟩ := pinnedIndices_spec source nodeId expected h
  have htap := reconciledHost_tap source nodeId expected r host
  have hcarrier := reconciledHost_carrier source nodeId expected r host
  have hboot := reconciledRecord_bootEthernet source nodeId expected r
  have hremove := toRemove_reconciled source nodeId expected h
  generalize reconciledRecord source nodeId expected r = r' at *
  generalize reconciledHost source nodeId expected r host = host' at *
  have hlinked : expected.entries.foldl (linkedHost nodeId) host' = host' := by
    refine foldl_fixed ?_
    rintro ⟨i, want⟩ hm
    have hget : expected.get? i = some want := assocGet_of_mem expected.keysNodup hm
    have hout : i ∉ pinnedIndices source nodeId expected r := by
      intro hi
      rw [hpinned i hi] at hget
      cases hget
    refine linkedHost_eq_self ?_ ?_
    · simp [htap, hout, hget]
    · simp [hcarrier, hout, hget]
  rw [reconciledHost_eq, hlinked]
  refine foldl_fixed (fun i hi => ?_)
  have hin : i ∈ pinnedIndices source nodeId expected r := by
    rw [pinnedIndices, removedIndices, hremove, List.map_nil, List.append_nil,
      mem_unlinkedIndices, applied_bootEthernet, hboot] at hi
    exact hall i hi.1.1 hi.1.2 hi.2.1
  refine pinnedHost_eq_self (fun state hs => ?_) ?_
  · rw [htap] at hs
    simp only [hin, if_true, Option.map_eq_some_iff] at hs
    obtain ⟨_, _, rfl⟩ := hs
    rfl
  · simp [hcarrier, hin]

/-- What a reconcile of a node is for: its boot interfaces are those of the links, on the record and
on the host, and the others are down. -/
structure Converged (bridgeName : String → Int → String) (lab : Lab) (nodeId : Int)
    (before after : NodeRuntime) (host : Host) : Prop where
  records : ∀ i k, i < before.bootEthernet →
    ((∃ entry ∈ after.attachments, entry.interfaceIndex = i ∧ entry.networkId = k) ↔
      lab.Wired nodeId i k)
  linked : ∀ i k, i < before.bootEthernet → lab.Wired nodeId i k →
    (∀ entry ∈ after.attachments, entry.interfaceIndex = i →
      entry.bridgeName = networkBridge bridgeName lab k) ∧
    host.ports.get? (.tap nodeId i) =
      some { master := some (networkBridge bridgeName lab k), up := true } ∧
    host.carrier.get? (nodeId, i) = some true
  unlinked : ∀ i, 0 ≤ i → i < before.bootEthernet → (∀ k, ¬lab.Wired nodeId i k) →
    (host.ports.get? (.tap nodeId i)).bind PortState.master = none ∧
    host.carrier.get? (nodeId, i) = some false
  hotplug : after.attachments.filter (fun entry => decide (before.bootEthernet ≤ entry.interfaceIndex)) =
    before.attachments.filter (fun entry => decide (before.bootEthernet ≤ entry.interfaceIndex))

/-- When a reconcile gets there: no boot interface has links to two networks, and an entry of a boot
interface without the boot NIC flag has a link. -/
structure Reconcilable (lab : Lab) (nodeId : Int) (runtime : NodeRuntime) : Prop where
  oneNetwork : ∀ i k k', i < runtime.bootEthernet → lab.Wired nodeId i k → lab.Wired nodeId i k' →
    k = k'
  flagged : ∀ entry ∈ runtime.attachments, entry.interfaceIndex < runtime.bootEthernet →
    entry.bootNic = false → ∃ k, lab.Wired nodeId entry.interfaceIndex k

theorem wired_of_expected {nodeId bootEthernet i : Int} {want : Expected} (hi : i < bootEthernet)
    (h : (expectedAttachments bridgeName lab nodeId bootEthernet).get? i = some want) :
    lab.Wired nodeId i want.networkId ∧ want.place = networkPlace bridgeName lab want.networkId := by
  have hplace := expectedAttachments_get? bridgeName lab nodeId hi
  rw [h, Option.map_some] at hplace
  obtain ⟨k, hk, heq⟩ := Option.map_eq_some_iff.mp hplace.symm
  obtain rfl : k = want.networkId := congrArg Prod.fst heq
  exact ⟨wiredNetwork_wired hk, heq.symm⟩

theorem expected_of_wired {nodeId bootEthernet i k : Int} (hi : i < bootEthernet)
    (h : lab.Wired nodeId i k) :
    ∃ want, (expectedAttachments bridgeName lab nodeId bootEthernet).get? i = some want := by
  obtain ⟨l, hm, hl⟩ := h
  obtain ⟨k', hk'⟩ := Option.isSome_iff_exists.mp (wiredNetwork_isSome hm hl)
  have hplace := expectedAttachments_get? bridgeName lab nodeId hi
  rw [hk', Option.map_some] at hplace
  obtain ⟨want, hwant, _⟩ := Option.map_eq_some_iff.mp hplace
  exact ⟨want, hwant⟩

theorem reconcilable_of_converged {host : Host}
    (hnodup : (runtime.attachments.map Attachment.interfaceIndex).Nodup)
    (h : Converged bridgeName lab nodeId runtime (reconciledRecord source nodeId
      (expectedAttachments bridgeName lab nodeId runtime.bootEthernet) runtime) host) :
    Reconcilable lab nodeId runtime := by
  constructor
  · intro i k k' hi hk hk'
    obtain ⟨a, ha, hai, rfl⟩ := (h.records i k hi).mpr hk
    obtain ⟨a', ha', hai', rfl⟩ := (h.records i k' hi).mpr hk'
    rw [List.inj_on_of_nodup_map (reconciled_nodup hnodup) ha ha' (hai.trans hai'.symm)]
  · intro a ha hi hflag
    cases hexp : (expectedAttachments bridgeName lab nodeId runtime.bootEthernet).get?
        a.interfaceIndex with
    | some want => exact ⟨want.networkId, (wired_of_expected hi hexp).1⟩
    | none =>
      have hkept := (@mem_reconciled_iff source nodeId _ _ a hnodup).mpr
        (Or.inr ⟨ha, hexp, fun ht => by rw [hflag] at ht; cases ht⟩)
      exact ⟨a.networkId, (h.records _ _ hi).mp ⟨a, hkept, rfl, rfl⟩⟩

theorem converged_of_reconcilable {host : Host}
    (hnodup : (runtime.attachments.map Attachment.interfaceIndex).Nodup)
    (h : Reconcilable lab nodeId runtime) :
    let expected := expectedAttachments bridgeName lab nodeId runtime.bootEthernet
    Converged bridgeName lab nodeId runtime (reconciledRecord source nodeId expected runtime)
      (reconciledHost source nodeId expected runtime host) := by
  intro expected
  obtain ⟨hpinned, hall⟩ := pinnedIndices_spec source nodeId expected hnodup
  have hwant : ∀ i k, i < runtime.bootEthernet → lab.Wired nodeId i k →
      ∃ want, expected.get? i = some want ∧ want.networkId = k ∧
        want.bridgeName = networkBridge bridgeName lab k := by
    intro i k hi hk
    obtain ⟨want, hget⟩ := @expected_of_wired bridgeName lab nodeId _ i k hi hk
    obtain ⟨hw, hplace⟩ := wired_of_expected hi hget
    obtain rfl := h.oneNetwork i k want.networkId hi hk hw
    exact ⟨want, hget, rfl, congrArg (fun place => place.2.1) hplace⟩
  have hentry : ∀ a ∈ (reconciledRecord source nodeId expected runtime).attachments,
      a.interfaceIndex < runtime.bootEthernet →
      ∃ want, expected.get? a.interfaceIndex = some want ∧
        a = expectedRecord source nodeId a.interfaceIndex want := by
    intro a ha hi
    rcases (mem_reconciled_iff hnodup).mp ha with hleft | ⟨hm, hnone, hflag⟩
    · exact hleft
    · have hunflagged : a.bootNic = false := by
        cases hb : a.bootNic with
        | false => rfl
        | true =>
          have := hflag hb
          omega
      obtain ⟨k, hk⟩ := h.flagged a hm hi hunflagged
      obtain ⟨want, hget, _⟩ := hwant _ k hi hk
      rw [hnone] at hget
      cases hget
  refine ⟨?_, ?_, ?_, ?_⟩
  · intro i k hi
    constructor
    · rintro ⟨a, ha, rfl, rfl⟩
      obtain ⟨want, hget, hrec⟩ := hentry a ha hi
      have hnetwork : a.networkId = want.networkId := by rw [hrec]; rfl
      rw [hnetwork]
      exact (wired_of_expected hi hget).1
    · intro hk
      obtain ⟨want, hget, rfl, _⟩ := hwant i k hi hk
      exact ⟨expectedRecord source nodeId i want,
        (mem_reconciled_iff hnodup).mpr (Or.inl ⟨want, hget, rfl⟩), rfl, rfl⟩
  · intro i k hi hk
    obtain ⟨want, hget, _, hbridge⟩ := hwant i k hi hk
    have hout : i ∉ pinnedIndices source nodeId expected runtime := by
      intro hp
      rw [hpinned i hp] at hget
      cases hget
    refine ⟨?_, ?_, ?_⟩
    · rintro a ha rfl
      obtain ⟨want', hget', hrec⟩ := hentry a ha hi
      obtain rfl : want = want' := Option.some.inj (hget.symm.trans hget')
      rw [hrec]
      exact hbridge
    · simp [reconciledHost_tap, hout, hget, hbridge]
    · simp [reconciledHost_carrier, hout, hget]
  · intro i h0 hi hno
    have hnone : expected.get? i = none := by
      cases hget : expected.get? i with
      | none => rfl
      | some want => exact absurd (wired_of_expected hi hget).1 (hno want.networkId)
    have hin := hall i h0 hi hnone
    refine ⟨?_, ?_⟩
    · rw [reconciledHost_tap]
      simp only [hin, if_true, hnone]
      cases host.ports.get? (.tap nodeId i) <;> rfl
    · simp [reconciledHost_carrier, hin]
  · exact reconciled_hotplug (fun i => expectedAttachments_lt)

/-- A reconcile reaches its goal, and another one right after it changes nothing. -/
def ReconcileConverges (source : NicSource) (bridgeName : String → Int → String) (lab : Lab)
    (nodeId : Int) (runtime : NodeRuntime) (w : World) : Prop :=
  Ends (reconcileQemuNodeLinks source bridgeName lab nodeId) w
    (fun _ t => (∃ after, t.runtimes = w.runtimes.set nodeId after ∧
        Converged bridgeName lab nodeId runtime after t.host) ∧
      Ends (reconcileQemuNodeLinks source bridgeName lab nodeId) t
        (fun _ u => u.runtimes = t.runtimes ∧ u.host = t.host) (fun _ _ => False))
    (fun _ _ => False)

theorem NodeRuntime.AsWritten.reconciled {expected : Dict Int Expected}
    (h : runtime.AsWritten nodeId) :
    (reconciledRecord source nodeId expected runtime).AsWritten nodeId := by
  have hkeeps : ∀ {α : Type} (g : NodeRuntime → α),
      (∀ r i, g (NodeRuntime.withoutInterface r i) = g r) →
      (∀ r wanted, g (NodeRuntime.withExpected r source nodeId wanted) = g r) →
      g (reconciledRecord source nodeId expected runtime) = g runtime := fun g hdrop hset =>
    (reconciledRecord_applied g hdrop).trans (foldl_keeps g hset _ _)
  refine ⟨?_, ?_, ?_, reconciled_nodup h.oneEntry, ?_⟩
  · exact (hkeeps NodeRuntime.alive (fun _ _ => rfl) (fun _ _ => rfl)).trans h.alive
  · exact (hkeeps NodeRuntime.kind (fun _ _ => rfl) (fun _ _ => rfl)).trans h.kind
  · exact (hkeeps NodeRuntime.qmpSocket (fun _ _ => rfl) (fun _ _ => rfl)).trans h.qmpSocket
  · intro a ha
    rcases (mem_reconciled_iff h.oneEntry).mp ha with ⟨want, _, hrec⟩ | ⟨hm, _⟩
    · right
      rw [hrec]
      rfl
    · exact h.port a hm

/-- The whole of a reconcile, with the node mutex, when everything goes through. -/
theorem reconcileQemuNodeLinks_ends {w : World} (hw : w.replies = [])
    (hget : w.runtimes.get? nodeId = some runtime) (hwritten : runtime.AsWritten nodeId)
    (hpermit : ∀ wanted ∈ (expectedAttachments bridgeName lab nodeId runtime.bootEthernet).entries,
      wanted.2.Permitted) :
    Ends (reconcileQemuNodeLinks source bridgeName lab nodeId) w
      (fun _ t =>
        let expected := expectedAttachments bridgeName lab nodeId runtime.bootEthernet
        t.replies = [] ∧
        t.runtimes = w.runtimes.set nodeId (reconciledRecord source nodeId expected runtime) ∧
        t.host = reconciledHost source nodeId expected runtime w.host)
      (fun _ _ => False) := by
  unfold reconcileQemuNodeLinks
  rw [ends_bind, ends_run_done hw]
  have hhost : (w.after (.nodeMutex nodeId)).host = w.host := World.after_host hw _
  have hlocked := @reconcileLocked_ends source bridgeName lab nodeId runtime
    (w.after (.nodeMutex nodeId)) (World.after_replies hw _) hget hwritten hpermit
  rw [hhost] at hlocked
  exact hlocked

/-- A reconcile comes down to its effect on the record and on the host. -/
theorem reconcileConverges_iff_converged {w : World} (hw : w.replies = [])
    (hget : w.runtimes.get? nodeId = some runtime) (hwritten : runtime.AsWritten nodeId)
    (hpermit : ∀ wanted ∈ (expectedAttachments bridgeName lab nodeId runtime.bootEthernet).entries,
      wanted.2.Permitted) :
    let expected := expectedAttachments bridgeName lab nodeId runtime.bootEthernet
    ReconcileConverges source bridgeName lab nodeId runtime w ↔
      Converged bridgeName lab nodeId runtime (reconciledRecord source nodeId expected runtime)
        (reconciledHost source nodeId expected runtime w.host) := by
  intro expected
  refine (reconcileQemuNodeLinks_ends hw hget hwritten hpermit).iff_of ?_
  rintro _ t ⟨htreplies, htruntimes, hthost⟩
  have hsame : ∀ after, t.runtimes = w.runtimes.set nodeId after →
      after = reconciledRecord source nodeId expected runtime := by
    intro after h
    have hget' := congrArg (fun d => Dict.get? d nodeId) (htruntimes.symm.trans h)
    simpa using hget'.symm
  constructor
  · rintro ⟨⟨after, hafter, hconv⟩, _⟩
    rw [hsame after hafter, hthost] at hconv
    exact hconv
  · intro hconv
    refine ⟨⟨_, htruntimes, ?_⟩, ?_⟩
    · rw [hthost]
      exact hconv
    · have htget : t.runtimes.get? nodeId = some (reconciledRecord source nodeId expected runtime) := by
        rw [htruntimes, Dict.get?_set_self]
      have hboot := reconciledRecord_bootEthernet source nodeId expected runtime
      refine (reconcileQemuNodeLinks_ends htreplies htget hwritten.reconciled ?_).mono ?_
        (fun _ _ he => he)
      · rw [hboot]
        exact hpermit
      · rintro _ u ⟨_, huruntimes, huhost⟩
        rw [hboot] at huruntimes huhost
        refine ⟨?_, ?_⟩
        · rw [huruntimes, reconciledRecord_idem hwritten.oneEntry, Dict.set_get htget]
        · rw [huhost, hthost, reconciledHost_idem hwritten.oneEntry]

/-- A reconcile that meets no failure gets the node where its links are, for good, if and only if
the record and the links let it. -/
theorem reconcile_converges_iff {source : NicSource} {bridgeName : String → Int → String}
    {lab : Lab} {nodeId : Int} {runtime : NodeRuntime} {w : World} (hw : w.replies = [])
    (hget : w.runtimes.get? nodeId = some runtime) (hwritten : runtime.AsWritten nodeId)
    (hpermit : ∀ wanted ∈ (expectedAttachments bridgeName lab nodeId runtime.bootEthernet).entries,
      wanted.2.Permitted) :
    ReconcileConverges source bridgeName lab nodeId runtime w ↔ Reconcilable lab nodeId runtime :=
  (reconcileConverges_iff_converged hw hget hwritten hpermit).trans
    ⟨reconcilable_of_converged hwritten.oneEntry, converged_of_reconcilable hwritten.oneEntry⟩

/-- The record of a started node with two NICs, the first on network 1: start sets no flag. -/
def startedRuntime : NodeRuntime :=
  { kind := .qemu, hotplugCapable := true, bootEthernet := 2
    tapNames := [.tap 1 0, .tap 1 1]
    attachments := [{ interfaceIndex := 0, networkId := 1, bridgeName := "nvelabn1"
                      port := some (.tap 1 0) }] }

def startedWorld : World :=
  { runtimes := Dict.empty.set 1 startedRuntime
    host := { bridges := ["nvelabn1"]
              ports := (Dict.empty.set (.tap 1 0) { master := some "nvelabn1", up := true }).set
                (.tap 1 1) {}
              carrier := Dict.empty.set (1, 1) false } }

def unlinkedLab : Lab :=
  { id := "lab"
    nodes := Dict.empty.set 1 { id := 1, name := "r1", type := .qemu
                                interfaces := [{ index := 0, name := "Gi1" },
                                  { index := 1, name := "Gi2" }] }
    networks := Dict.empty.set 1 { id := 1, name := "lan", type := .linuxBridge
                                   runtime := { bridgeName := some "nvelabn1" } }
    links := [] }

def linkedLab : Lab :=
  { unlinkedLab with links := [{ id := "lnk_001", from_ := .node 1 0, to_ := .network 1 }] }

theorem startedRuntime_asWritten : startedRuntime.AsWritten 1 := by
  refine ⟨rfl, rfl, rfl, by decide, ?_⟩
  intro entry hm
  obtain rfl := List.mem_singleton.mp hm
  exact Or.inr rfl

theorem linkedLab_permitted (wanted : Int × Expected)
    (hm : wanted ∈ (expectedAttachments plainBridgeName linkedLab 1 2).entries) :
    wanted.2.Permitted := by
  have hbridge : wanted.2.bridgeName = "nvelabn1" := by
    obtain rfl := List.mem_singleton.mp hm
    rfl
  unfold Expected.Permitted
  rw [hbridge]
  intro h
  exact absurd h (by decide)

def plainNicSource : NicSource :=
  { driver := fun _ => none, nicModel := fun _ => "e1000", plannedMac := fun _ _ => "" }

theorem linkedLab_wired {i k : Int} (h : linkedLab.Wired 1 i k) : i = 0 ∧ k = 1 := by
  obtain ⟨l, hm, hl⟩ := h
  obtain rfl := List.mem_singleton.mp hm
  cases hl
  exact ⟨rfl, rfl⟩

theorem linkedLab_reconcilable : Reconcilable linkedLab 1 startedRuntime := by
  refine ⟨?_, ?_⟩
  · intro i k k' _ hk hk'
    rw [(linkedLab_wired hk).2, (linkedLab_wired hk').2]
  · intro entry hm _ _
    obtain rfl := List.mem_singleton.mp hm
    exact ⟨1, _, List.mem_singleton.mpr rfl, rfl⟩

/-- A started node whose link is still there. -/
theorem reconcile_converges_after_start :
    ReconcileConverges plainNicSource plainBridgeName linkedLab 1 startedRuntime startedWorld := by
  have hget : startedWorld.runtimes.get? 1 = some startedRuntime := rfl
  have hreplies : startedWorld.replies = [] := rfl
  rw [reconcile_converges_iff hreplies hget startedRuntime_asWritten linkedLab_permitted]
  exact linkedLab_reconcilable

/-- The entry that a start wrote outlives its link. -/
theorem started_entry_outlives_its_link :
    ¬ReconcileConverges plainNicSource plainBridgeName unlinkedLab 1 startedRuntime startedWorld := by
  intro h
  have hconv := (reconcileConverges_iff_converged rfl rfl startedRuntime_asWritten
    (fun _ hm => by cases hm)).mp h
  have hok := reconcilable_of_converged startedRuntime_asWritten.oneEntry hconv
  obtain ⟨k, l, hm, _⟩ := hok.flagged _ List.mem_cons_self (by decide) rfl
  cases hm

end NovaVe
