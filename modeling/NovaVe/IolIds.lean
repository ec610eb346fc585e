import NovaVe.Dict
import NovaVe.Runs

namespace NovaVe

structure IolNode where
  labId : String
  nodeId : Int
deriving DecidableEq

/-- A process of an IOL image: its number stands for the PID with its creation time. -/
structure IolProcess where
  number : Nat
  node : IolNode
  applicationId : Nat
deriving DecidableEq

/-- What `_active_iol_application_ids` reads of a record. -/
structure IolRuntime where
  kind : String := "iol"
  process : Nat
  applicationId : Nat
deriving DecidableEq

/-- How far a start has come: it is to drop a dead record that it found, has found none, has its
application id, or has its process. -/
inductive IolPhase
  | stale
  | checked
  | chosen (applicationId : Nat)
  | launched (process applicationId : Nat)
deriving DecidableEq

structure IolStart where
  node : IolNode
  phase : IolPhase
deriving DecidableEq

/-- A stop: the process it is to end, and after that the record it is to drop. -/
structure IolStop where
  node : IolNode
  process : Option Nat
deriving DecidableEq

/-- The registry, the processes that run, and the starts and stops in their threads. -/
structure IolHost where
  registry : Dict IolNode IolRuntime := Dict.empty
  live : List IolProcess := []
  starts : Dict Nat IolStart := Dict.empty
  stops : Dict Nat IolStop := Dict.empty
  processes : Nat := 0
deriving DecidableEq

def IolHost.isRuntimeAlive (h : IolHost) (runtime : IolRuntime) : Bool :=
  h.live.any (fun p => p.number == runtime.process)

/-- `_active_iol_application_ids`. -/
def IolHost.activeIolApplicationIds (h : IolHost) : List Nat :=
  ((h.registry.entries.map Prod.snd).filter
    (fun runtime => runtime.kind == "iol" && h.isRuntimeAlive runtime)).map IolRuntime.applicationId

/-- `IolLauncher.application_id`; `digest` gives the first two bytes of the SHA-256 of a text. -/
def iolApplicationId (digest : String → Nat × Nat) (node : IolNode) (activeIds : List Nat) :
    Option Nat :=
  let bytes := digest (node.labId ++ ":" ++ toString node.nodeId)
  let start := (256 * bytes.1 + bytes.2) % 512 + 1
  ((List.range 512).map (fun offset => (start + offset - 1) % 512 + 1)).find?
    (fun candidate => !activeIds.contains candidate)

/-- The processes after one has ended. -/
def IolHost.ended (h : IolHost) (process : Nat) : List IolProcess :=
  h.live.filter (fun p => p.number != process)

/-- The moves of a start after its check. -/
inductive IolMove
  | forget | choose | launch | publish | fail
deriving DecidableEq

inductive IolAction
  | check (thread : Nat) (node : IolNode)
  | start (thread : Nat) (move : IolMove)
  | find (thread : Nat) (node : IolNode)
  | stop (thread : Nat)
  | exit (process : Nat)
deriving DecidableEq

/-- The check of a start finds a running record, and the start is done, or a dead one or none. -/
def IolHost.check (h : IolHost) (thread : Nat) (node : IolNode) : IolHost :=
  match h.registry.get? node with
  | none => { h with starts := h.starts.set thread ⟨node, .checked⟩ }
  | some runtime =>
    if h.isRuntimeAlive runtime then h
    else { h with starts := h.starts.set thread ⟨node, .stale⟩ }

/-- A stop of a node without a record is done at once. -/
def IolHost.find (h : IolHost) (thread : Nat) (node : IolNode) : IolHost :=
  match h.registry.get? node with
  | none => h
  | some runtime =>
    let process := if h.isRuntimeAlive runtime then some runtime.process else none
    { h with stops := h.stops.set thread ⟨node, process⟩ }

/-- A start without a free application id raises. One that fails after its launch ends its process. -/
def IolHost.advance (digest : String → Nat × Nat) (h : IolHost) (thread : Nat) (node : IolNode) :
    IolPhase → IolMove → Option IolHost
  | .stale, .forget =>
    some { h with
      registry := h.registry.pop node, starts := h.starts.set thread ⟨node, .checked⟩ }
  | .checked, .choose =>
    match iolApplicationId digest node h.activeIolApplicationIds with
    | none => some { h with starts := h.starts.pop thread }
    | some applicationId =>
      some { h with starts := h.starts.set thread ⟨node, .chosen applicationId⟩ }
  | .chosen applicationId, .launch =>
    some { h with
      live := h.live ++ [⟨h.processes, node, applicationId⟩], processes := h.processes + 1
      starts := h.starts.set thread ⟨node, .launched h.processes applicationId⟩ }
  | .launched process applicationId, .publish =>
    some { h with
      registry := h.registry.set node { process := process, applicationId := applicationId }
      starts := h.starts.pop thread }
  | .launched process _, .fail =>
    some { h with live := h.ended process, starts := h.starts.pop thread }
  | _, .fail => some { h with starts := h.starts.pop thread }
  | _, _ => none

/-- A stop ends the process of the record that it found, and then drops the record of the node. -/
def IolHost.stop (h : IolHost) (thread : Nat) (s : IolStop) : IolHost :=
  match s.process with
  | some process => { h with live := h.ended process, stops := h.stops.set thread ⟨s.node, none⟩ }
  | none => { h with registry := h.registry.pop s.node, stops := h.stops.pop thread }

/-- The host after an action of a thread; none when the thread is not at it. -/
def iolStep (digest : String → Nat × Nat) (h : IolHost) : IolAction → Option IolHost
  | .check thread node => if h.starts.get? thread = none then some (h.check thread node) else none
  | .start thread move =>
    match h.starts.get? thread with
    | none => none
    | some s => h.advance digest thread s.node s.phase move
  | .find thread node => if h.stops.get? thread = none then some (h.find thread node) else none
  | .stop thread => (h.stops.get? thread).map (h.stop thread)
  | .exit process => some { h with live := h.ended process }

/-- The application id that a start has in hand. -/
def IolPhase.id? : IolPhase → Option Nat
  | .chosen applicationId => some applicationId
  | .launched _ applicationId => some applicationId
  | _ => none

/-- The record of a node is not that of a running process. -/
def IolHost.RecordDead (h : IolHost) (node : IolNode) : Prop :=
  ∀ runtime, h.registry.get? node = some runtime → h.isRuntimeAlive runtime = false

/-- A start reads the used ids while no other has one in hand, and no step drops or replaces the
record of a process that runs. -/
def IolOk (h : IolHost) : IolAction → Prop
  | .start thread .forget =>
    ∀ s, h.starts.get? thread = some s → h.RecordDead s.node
  | .start _ .choose =>
    ∀ other s, h.starts.get? other = some s → s.phase.id? = none
  | .start thread .publish =>
    ∀ s, h.starts.get? thread = some s → h.RecordDead s.node
  | .stop thread =>
    ∀ s, h.stops.get? thread = some s → s.process = none → h.RecordDead s.node
  | _ => True

/-- No two processes share an application id, and a start is refused one only when processes that
run have them all. -/
structure IolHost.IdsSound (h : IolHost) (digest : String → Nat × Nat) : Prop where
  distinct : ∀ p ∈ h.live, ∀ q ∈ h.live, p.applicationId = q.applicationId → p = q
  refused : ∀ node, iolApplicationId digest node h.activeIolApplicationIds = none →
    ∀ applicationId, 1 ≤ applicationId → applicationId ≤ 512 →
      ∃ p ∈ h.live, p.applicationId = applicationId

/-- Each process is known by its record or to the start that launched it. -/
structure IolHost.Kept (h : IolHost) : Prop where
  numbered : ∀ p ∈ h.live, p.number < h.processes
  distinct : ∀ p ∈ h.live, ∀ q ∈ h.live, p.applicationId = q.applicationId → p = q
  known : ∀ p ∈ h.live,
    (∃ r, h.registry.get? p.node = some r ∧ r.kind = "iol" ∧ r.process = p.number ∧
      r.applicationId = p.applicationId) ∨
    (∃ t s, h.starts.get? t = some s ∧ s.node = p.node ∧
      s.phase = .launched p.number p.applicationId)
  records : ∀ node r, h.registry.get? node = some r →
    r.process < h.processes ∧ ∀ p ∈ h.live, p.number = r.process → p.applicationId = r.applicationId
  launched : ∀ t s n a, h.starts.get? t = some s → s.phase = .launched n a →
    n < h.processes ∧ ∀ p ∈ h.live, p.number = n → p.applicationId = a
  chosen : ∀ t s a, h.starts.get? t = some s → s.phase = .chosen a →
    ∀ p ∈ h.live, p.applicationId ≠ a
  single : ∀ t t' s s', h.starts.get? t = some s → h.starts.get? t' = some s' →
    s.phase.id?.isSome = true → s'.phase.id?.isSome = true → t = t'

theorem isRuntimeAlive_iff {h : IolHost} {r : IolRuntime} :
    h.isRuntimeAlive r = true ↔ ∃ p ∈ h.live, p.number = r.process := by
  unfold IolHost.isRuntimeAlive
  rw [List.any_eq_true]
  constructor
  · intro hany
    obtain ⟨p, hp, heq⟩ := hany
    exact ⟨p, hp, by simpa using heq⟩
  · intro hex
    obtain ⟨p, hp, heq⟩ := hex
    exact ⟨p, hp, by simpa using heq⟩

theorem IolHost.RecordDead.not_live {h : IolHost} {node : IolNode} (hdead : h.RecordDead node)
    {r : IolRuntime} (hr : h.registry.get? node = some r) {p : IolProcess} (hp : p ∈ h.live) :
    r.process ≠ p.number := by
  intro heq
  have halive : h.isRuntimeAlive r = true := isRuntimeAlive_iff.mpr ⟨p, hp, heq.symm⟩
  rw [hdead r hr] at halive
  cases halive

theorem mem_activeIolApplicationIds {h : IolHost} {a : Nat} :
    a ∈ h.activeIolApplicationIds ↔
      ∃ node r, h.registry.get? node = some r ∧ r.kind = "iol" ∧ h.isRuntimeAlive r = true ∧
        r.applicationId = a := by
  unfold IolHost.activeIolApplicationIds
  rw [List.mem_map]
  constructor
  · intro hmem
    obtain ⟨r, hr, ha⟩ := hmem
    obtain ⟨hr, hkind⟩ := List.mem_filter.mp hr
    obtain ⟨entry, hentry, hsnd⟩ := List.mem_map.mp hr
    rw [Bool.and_eq_true] at hkind
    obtain ⟨node, r'⟩ := entry
    have hsame : r' = r := hsnd
    subst hsame
    exact ⟨node, r', assocGet_of_mem h.registry.keysNodup hentry, by simpa using hkind.1, hkind.2, ha⟩
  · intro hex
    obtain ⟨node, r, hget, hkind, halive, ha⟩ := hex
    refine ⟨r, List.mem_filter.mpr ⟨?_, ?_⟩, ha⟩
    · exact List.mem_map.mpr ⟨(node, r), mem_of_assocGet hget, rfl⟩
    · rw [hkind, halive]
      rfl

/-- The search gives an id that is not used. -/
theorem iolApplicationId_some {digest : String → Nat × Nat} {node : IolNode} {active : List Nat}
    {a : Nat} (h : iolApplicationId digest node active = some a) : a ∉ active := by
  have hfree := List.find?_some h
  simpa using hfree

/-- The search goes through all of the ids. -/
theorem iolApplicationId_none {digest : String → Nat × Nat} {node : IolNode} {active : List Nat}
    (h : iolApplicationId digest node active = none) {a : Nat} (hlow : 1 ≤ a) (hhigh : a ≤ 512) :
    a ∈ active := by
  unfold iolApplicationId at h
  generalize hbytes : digest (node.labId ++ ":" ++ toString node.nodeId) = bytes at h
  have hall := List.find?_eq_none.mp h
  have hmem : a ∈ (List.range 512).map (fun offset =>
      ((256 * bytes.1 + bytes.2) % 512 + 1 + offset - 1) % 512 + 1) := by
    refine List.mem_map.mpr ⟨(a + 511 - (256 * bytes.1 + bytes.2) % 512) % 512, ?_, ?_⟩
    · rw [List.mem_range]
      omega
    · show ((256 * bytes.1 + bytes.2) % 512 + 1 +
        (a + 511 - (256 * bytes.1 + bytes.2) % 512) % 512 - 1) % 512 + 1 = a
      omega
  have hused := hall a hmem
  simpa using hused

/-- Processes end. -/
theorem IolHost.Kept.ended {h : IolHost} (hk : h.Kept) (process : Nat) :
    ({ h with live := h.ended process } : IolHost).Kept := by
  have hsub : ∀ p ∈ h.ended process, p ∈ h.live := fun p hp => (List.mem_filter.mp hp).1
  refine ⟨?_, ?_, ?_, ?_, ?_, ?_, hk.single⟩
  · intro p hp
    exact hk.numbered p (hsub p hp)
  · intro p hp q hq
    exact hk.distinct p (hsub p hp) q (hsub q hq)
  · intro p hp
    exact hk.known p (hsub p hp)
  · intro node r hr
    exact ⟨(hk.records node r hr).1, fun p hp => (hk.records node r hr).2 p (hsub p hp)⟩
  · intro t s n a hs hphase
    obtain ⟨hbound, hid⟩ := hk.launched t s n a hs hphase
    exact ⟨hbound, fun p hp => hid p (hsub p hp)⟩
  · intro t s a hs hphase p hp
    exact hk.chosen t s a hs hphase p (hsub p hp)

/-- The starts change, and none takes an id or forgets a process that runs. -/
theorem IolHost.Kept.restart {h : IolHost} (hk : h.Kept) {starts : Dict Nat IolStart}
    (hold : ∀ t s, starts.get? t = some s → s.phase.id?.isSome = true → h.starts.get? t = some s)
    (hkeep : ∀ p ∈ h.live, ∀ t s, h.starts.get? t = some s →
      s.phase = .launched p.number p.applicationId → starts.get? t = some s) :
    ({ h with starts := starts } : IolHost).Kept := by
  refine ⟨hk.numbered, hk.distinct, ?_, hk.records, ?_, ?_, ?_⟩
  · intro p hp
    rcases hk.known p hp with hrecord | ⟨t, s, hs, hnode, hphase⟩
    · exact Or.inl hrecord
    · exact Or.inr ⟨t, s, hkeep p hp t s hs hphase, hnode, hphase⟩
  · intro t s n a hs hphase
    exact hk.launched t s n a (hold t s hs (by rw [hphase]; rfl)) hphase
  · intro t s a hs hphase
    exact hk.chosen t s a (hold t s hs (by rw [hphase]; rfl)) hphase
  · intro t t' s s' hs hs' hid hid'
    exact hk.single t t' s s' (hold t s hs hid) (hold t' s' hs' hid') hid hid'

/-- A start turns to a phase without an id from one that has launched no process. -/
theorem IolHost.Kept.set_idle {h : IolHost} (hk : h.Kept) {thread : Nat} (s' : IolStart)
    (hidle : s'.phase.id? = none)
    (hbefore : ∀ s n a, h.starts.get? thread = some s → s.phase ≠ .launched n a) :
    ({ h with starts := h.starts.set thread s' } : IolHost).Kept := by
  apply hk.restart
  · intro t s hs hid
    rw [Dict.get?_set] at hs
    split at hs
    next =>
      cases hs
      rw [hidle] at hid
      cases hid
    next => exact hs
  · intro p _ t s hs hphase
    rw [Dict.get?_set]
    split
    next heq =>
      subst heq
      exact absurd hphase (hbefore s _ _ hs)
    next => exact hs

/-- A start that has no process that runs is over. -/
theorem IolHost.Kept.pop_start {h : IolHost} (hk : h.Kept) {thread : Nat}
    (hbefore : ∀ p ∈ h.live, ∀ s, h.starts.get? thread = some s →
      s.phase ≠ .launched p.number p.applicationId) :
    ({ h with starts := h.starts.pop thread } : IolHost).Kept := by
  apply hk.restart
  · intro t s hs _
    rw [Dict.get?_pop] at hs
    split at hs
    next => cases hs
    next => exact hs
  · intro p hp t s hs hphase
    rw [Dict.get?_pop]
    split
    next heq =>
      subst heq
      exact absurd hphase (hbefore p hp s hs)
    next => exact hs

/-- A record of no running process is dropped. -/
theorem IolHost.Kept.drop {h : IolHost} (hk : h.Kept) {node : IolNode} (hdead : h.RecordDead node) :
    ({ h with registry := h.registry.pop node } : IolHost).Kept := by
  refine ⟨hk.numbered, hk.distinct, ?_, ?_, hk.launched, hk.chosen, hk.single⟩
  · intro p hp
    rcases hk.known p hp with ⟨r, hr, hkind, hprocess, hid⟩ | hstart
    · apply Or.inl
      refine ⟨r, ?_, hkind, hprocess, hid⟩
      show (h.registry.pop node).get? p.node = some r
      rw [Dict.get?_pop]
      split
      next heq =>
        subst heq
        exact absurd hprocess (hdead.not_live hr hp)
      next => exact hr
    · exact Or.inr hstart
  · intro n r hr
    have hget : (h.registry.pop node).get? n = some r := hr
    rw [Dict.get?_pop] at hget
    split at hget
    next => cases hget
    next => exact hk.records n r hget

/-- A start takes an id that no process has. -/
theorem IolHost.Kept.choose {h : IolHost} (hk : h.Kept) {digest : String → Nat × Nat} {thread a : Nat}
    {node : IolNode}
    (hfree : ∀ other s, h.starts.get? other = some s → s.phase.id? = none)
    (ha : iolApplicationId digest node h.activeIolApplicationIds = some a) :
    ({ h with starts := h.starts.set thread ⟨node, .chosen a⟩ } : IolHost).Kept := by
  have hnew : ∀ p ∈ h.live, p.applicationId ≠ a := by
    intro p hp heq
    rcases hk.known p hp with ⟨r, hr, hkind, hprocess, hid⟩ | ⟨t, s, hs, _, hphase⟩
    · apply iolApplicationId_some ha
      refine mem_activeIolApplicationIds.mpr ⟨p.node, r, hr, hkind, ?_, hid.trans heq⟩
      exact isRuntimeAlive_iff.mpr ⟨p, hp, hprocess.symm⟩
    · have hnone := hfree t s hs
      rw [hphase] at hnone
      cases hnone
  have hold : ∀ t s, (h.starts.set thread ⟨node, .chosen a⟩).get? t = some s → t ≠ thread →
      s.phase.id? = none := by
    intro t s hs ht
    rw [Dict.get?_set_ne _ _ (fun heq => ht heq.symm)] at hs
    exact hfree t s hs
  have hself : ∀ s, (h.starts.set thread ⟨node, .chosen a⟩).get? thread = some s →
      s.phase = .chosen a := by
    intro s hs
    rw [Dict.get?_set_self] at hs
    cases hs
    rfl
  refine ⟨hk.numbered, hk.distinct, ?_, hk.records, ?_, ?_, ?_⟩
  · intro p hp
    rcases hk.known p hp with hrecord | ⟨t, s, hs, _, hphase⟩
    · exact Or.inl hrecord
    · have hnone := hfree t s hs
      rw [hphase] at hnone
      cases hnone
  · intro t s n b hs hphase
    by_cases ht : t = thread
    · subst ht
      rw [hself s hs] at hphase
      cases hphase
    · have hnone := hold t s hs ht
      rw [hphase] at hnone
      cases hnone
  · intro t s b hs hphase p hp
    by_cases ht : t = thread
    · subst ht
      rw [hself s hs] at hphase
      cases hphase
      exact hnew p hp
    · have hnone := hold t s hs ht
      rw [hphase] at hnone
      cases hnone
  · intro t t' s s' hs hs' hid hid'
    have hthread : ∀ u v, (h.starts.set thread ⟨node, .chosen a⟩).get? u = some v →
        v.phase.id?.isSome = true → u = thread := by
      intro u v hv hsome
      by_contra hu
      rw [hold u v hv hu] at hsome
      cases hsome
    rw [hthread t s hs hid, hthread t' s' hs' hid']

/-- A start launches its process. -/
theorem IolHost.Kept.launch {h : IolHost} (hk : h.Kept) {thread a : Nat} {s : IolStart}
    (hs : h.starts.get? thread = some s) (hphase : s.phase = .chosen a) :
    ({ h with
      live := h.live ++ [⟨h.processes, s.node, a⟩], processes := h.processes + 1
      starts := h.starts.set thread ⟨s.node, .launched h.processes a⟩ } : IolHost).Kept := by
  have honly : ∀ t u, h.starts.get? t = some u → u.phase.id?.isSome = true → t = thread := by
    intro t u hu hid
    exact hk.single t thread u s hu hs hid (by rw [hphase]; rfl)
  have hnot : ∀ t u n b, h.starts.get? t = some u → u.phase ≠ .launched n b := by
    intro t u n b hu hlaunched
    have ht := honly t u hu (by rw [hlaunched]; rfl)
    subst ht
    rw [hs] at hu
    cases hu
    rw [hphase] at hlaunched
    cases hlaunched
  have hget : ∀ t u, (h.starts.set thread ⟨s.node, .launched h.processes a⟩).get? t = some u →
      u.phase.id?.isSome = true → t = thread ∧ u = ⟨s.node, .launched h.processes a⟩ := by
    intro t u hu hid
    rw [Dict.get?_set] at hu
    split at hu
    next heq =>
      cases hu
      exact ⟨heq.symm, rfl⟩
    next hne => exact absurd (honly t u hu hid).symm hne
  have hmem : ∀ p ∈ h.live ++ [⟨h.processes, s.node, a⟩],
      p ∈ h.live ∨ p = ⟨h.processes, s.node, a⟩ := by
    intro p hp
    rcases List.mem_append.mp hp with hp | hp
    · exact Or.inl hp
    · exact Or.inr (List.mem_singleton.mp hp)
  have hfresh : ∀ p ∈ h.live, p.applicationId ≠ a := hk.chosen thread s a hs hphase
  refine ⟨?_, ?_, ?_, ?_, ?_, ?_, ?_⟩
  · intro p hp
    rcases hmem p hp with hp | rfl
    · have hlt := hk.numbered p hp
      show p.number < h.processes + 1
      omega
    · show h.processes < h.processes + 1
      omega
  · intro p hp q hq heq
    rcases hmem p hp with hp | rfl
    · rcases hmem q hq with hq | rfl
      · exact hk.distinct p hp q hq heq
      · exact absurd heq (hfresh p hp)
    · rcases hmem q hq with hq | rfl
      · exact absurd heq.symm (hfresh q hq)
      · rfl
  · intro p hp
    rcases hmem p hp with hp | rfl
    · rcases hk.known p hp with hrecord | ⟨t, u, hu, _, hlaunched⟩
      · exact Or.inl hrecord
      · exact absurd hlaunched (hnot t u _ _ hu)
    · exact Or.inr ⟨thread, _, Dict.get?_set_self _ _ _, rfl, rfl⟩
  · intro node r hr
    obtain ⟨hlt, hid⟩ := hk.records node r hr
    refine ⟨?_, fun p hp heq => ?_⟩
    · show r.process < h.processes + 1
      omega
    · rcases hmem p hp with hp | rfl
      · exact hid p hp heq
      · have heq' : h.processes = r.process := heq
        omega
  · intro t u n b hu hlaunched
    obtain ⟨_, hu'⟩ := hget t u hu (by rw [hlaunched]; rfl)
    rw [hu'] at hlaunched
    cases hlaunched
    refine ⟨?_, fun p hp heq => ?_⟩
    · show h.processes < h.processes + 1
      omega
    · rcases hmem p hp with hp | rfl
      · have hlt := hk.numbered p hp
        omega
      · rfl
  · intro t u b hu hchosen
    obtain ⟨_, hu'⟩ := hget t u hu (by rw [hchosen]; rfl)
    rw [hu'] at hchosen
    cases hchosen
  · intro t t' u u' hu hu' hid hid'
    rw [(hget t u hu hid).1, (hget t' u' hu' hid').1]

/-- A start puts its record in the registry. -/
theorem IolHost.Kept.publish {h : IolHost} (hk : h.Kept) {thread process a : Nat} {s : IolStart}
    (hs : h.starts.get? thread = some s) (hphase : s.phase = .launched process a)
    (hdead : h.RecordDead s.node) :
    ({ h with
      registry := h.registry.set s.node { process := process, applicationId := a }
      starts := h.starts.pop thread } : IolHost).Kept := by
  obtain ⟨hbound, hid⟩ := hk.launched thread s process a hs hphase
  have hold : ∀ t u, (h.starts.pop thread).get? t = some u → h.starts.get? t = some u := by
    intro t u hu
    rw [Dict.get?_pop] at hu
    split at hu
    next => cases hu
    next => exact hu
  refine ⟨hk.numbered, hk.distinct, ?_, ?_, ?_, ?_, ?_⟩
  · intro p hp
    rcases hk.known p hp with ⟨r, hr, hkind, hprocess, hrid⟩ | ⟨t, u, hu, hnode, hlaunched⟩
    · apply Or.inl
      refine ⟨r, ?_, hkind, hprocess, hrid⟩
      show (h.registry.set s.node _).get? p.node = some r
      rw [Dict.get?_set]
      split
      next heq =>
        rw [← heq] at hr
        exact absurd hprocess (hdead.not_live hr hp)
      next => exact hr
    · by_cases ht : t = thread
      · subst ht
        rw [hs] at hu
        cases hu
        rw [hphase] at hlaunched
        cases hlaunched
        apply Or.inl
        refine ⟨{ process := p.number, applicationId := p.applicationId }, ?_, rfl, rfl, rfl⟩
        show (h.registry.set s.node _).get? p.node = _
        rw [← hnode, Dict.get?_set_self]
      · apply Or.inr
        refine ⟨t, u, ?_, hnode, hlaunched⟩
        show (h.starts.pop thread).get? t = some u
        rw [Dict.get?_pop_ne _ (fun heq => ht heq.symm)]
        exact hu
  · intro node r hr
    have hget : (h.registry.set s.node { process := process, applicationId := a }).get? node =
        some r := hr
    rw [Dict.get?_set] at hget
    split at hget
    next =>
      cases hget
      exact ⟨hbound, hid⟩
    next => exact hk.records node r hget
  · intro t u n b hu hlaunched
    exact hk.launched t u n b (hold t u hu) hlaunched
  · intro t u b hu hchosen
    exact hk.chosen t u b (hold t u hu) hchosen
  · intro t t' u u' hu hu' hsome hsome'
    exact hk.single t t' u u' (hold t u hu) (hold t' u' hu') hsome hsome'

theorem IolHost.Kept.check {h : IolHost} (hk : h.Kept) {thread : Nat}
    (hfree : h.starts.get? thread = none) (node : IolNode) : (h.check thread node).Kept := by
  have hbefore : ∀ s n a, h.starts.get? thread = some s → s.phase ≠ .launched n a := by
    intro s n a hs
    rw [hfree] at hs
    cases hs
  unfold IolHost.check
  cases h.registry.get? node with
  | none => exact hk.set_idle _ rfl hbefore
  | some r =>
    dsimp only
    split
    next => exact hk
    next => exact hk.set_idle _ rfl hbefore

theorem IolHost.Kept.advance {h t : IolHost} (hk : h.Kept) {digest : String → Nat × Nat}
    {thread : Nat} {s : IolStart} (hs : h.starts.get? thread = some s) {move : IolMove}
    (hok : IolOk h (.start thread move))
    (hstep : h.advance digest thread s.node s.phase move = some t) : t.Kept := by
  have hgot : ∀ u, h.starts.get? thread = some u → u.phase = s.phase := by
    intro u hu
    rw [hs] at hu
    cases hu
    rfl
  cases hphase : s.phase with
  | stale =>
    rw [hphase] at hstep hgot
    cases move with
    | forget =>
      have he := Option.some.inj hstep
      subst he
      refine (hk.drop (hok s hs)).set_idle _ rfl (fun u n a hu hl => ?_)
      rw [hgot u hu] at hl
      cases hl
    | fail =>
      have he := Option.some.inj hstep
      subst he
      refine hk.pop_start (fun p _ u hu hl => ?_)
      rw [hgot u hu] at hl
      cases hl
    | choose => cases hstep
    | launch => cases hstep
    | publish => cases hstep
  | checked =>
    rw [hphase] at hstep hgot
    have hidle : ∀ p ∈ h.live, ∀ u, h.starts.get? thread = some u →
        u.phase ≠ .launched p.number p.applicationId := by
      intro p _ u hu hl
      rw [hgot u hu] at hl
      cases hl
    cases move with
    | forget => cases hstep
    | fail =>
      have he := Option.some.inj hstep
      subst he
      exact hk.pop_start hidle
    | choose =>
      unfold IolHost.advance at hstep
      dsimp only at hstep
      cases ha : iolApplicationId digest s.node h.activeIolApplicationIds with
      | none =>
        rw [ha] at hstep
        have he := Option.some.inj hstep
        subst he
        exact hk.pop_start hidle
      | some a =>
        rw [ha] at hstep
        have he := Option.some.inj hstep
        subst he
        exact hk.choose hok ha
    | launch => cases hstep
    | publish => cases hstep
  | chosen a =>
    rw [hphase] at hstep hgot
    cases move with
    | forget => cases hstep
    | fail =>
      have he := Option.some.inj hstep
      subst he
      refine hk.pop_start (fun p _ u hu hl => ?_)
      rw [hgot u hu] at hl
      cases hl
    | choose => cases hstep
    | launch =>
      have he := Option.some.inj hstep
      subst he
      exact hk.launch hs hphase
    | publish => cases hstep
  | launched process a =>
    rw [hphase] at hstep hgot
    cases move with
    | forget => cases hstep
    | fail =>
      have he := Option.some.inj hstep
      subst he
      refine (hk.ended process).pop_start (fun p hp u hu hl => ?_)
      have hne := (List.mem_filter.mp hp).2
      rw [hgot u hu] at hl
      cases hl
      simp at hne
    | choose => cases hstep
    | launch => cases hstep
    | publish =>
      have he := Option.some.inj hstep
      subst he
      exact hk.publish hs hphase (hok s hs)

theorem IolHost.Kept.step {digest : String → Nat × Nat} {h t : IolHost} (hk : h.Kept)
    {action : IolAction} (hok : IolOk h action) (hstep : iolStep digest h action = some t) :
    t.Kept := by
  cases action with
  | check thread node =>
    simp only [iolStep] at hstep
    split at hstep
    next hfree =>
      have he := Option.some.inj hstep
      subst he
      exact hk.check hfree node
    next => cases hstep
  | start thread move =>
    simp only [iolStep] at hstep
    cases hs : h.starts.get? thread with
    | none =>
      rw [hs] at hstep
      cases hstep
    | some s =>
      rw [hs] at hstep
      exact hk.advance hs hok hstep
  | find thread node =>
    simp only [iolStep] at hstep
    split at hstep
    next =>
      have he := Option.some.inj hstep
      subst he
      unfold IolHost.find
      cases h.registry.get? node with
      | none => exact hk
      | some r =>
        exact ⟨hk.numbered, hk.distinct, hk.known, hk.records, hk.launched, hk.chosen, hk.single⟩
    next => cases hstep
  | stop thread =>
    simp only [iolStep] at hstep
    obtain ⟨s, hs, he⟩ := Option.map_eq_some_iff.mp hstep
    subst he
    unfold IolHost.stop
    cases hprocess : s.process with
    | some process =>
      have hended := hk.ended process
      exact ⟨hended.numbered, hended.distinct, hended.known, hended.records, hended.launched,
        hended.chosen, hended.single⟩
    | none =>
      have hdropped := hk.drop (hok s hs hprocess)
      exact ⟨hdropped.numbered, hdropped.distinct, hdropped.known, hdropped.records,
        hdropped.launched, hdropped.chosen, hdropped.single⟩
  | exit process =>
    have he := Option.some.inj hstep
    subst he
    exact hk.ended process

theorem IolHost.Kept.idsSound {h : IolHost} (hk : h.Kept) (digest : String → Nat × Nat) :
    h.IdsSound digest := by
  refine ⟨hk.distinct, fun node hnone a hlow hhigh => ?_⟩
  have hused := iolApplicationId_none hnone hlow hhigh
  obtain ⟨key, r, hr, _, halive, ha⟩ := mem_activeIolApplicationIds.mp hused
  obtain ⟨p, hp, hprocess⟩ := isRuntimeAlive_iff.mp halive
  exact ⟨p, hp, ((hk.records key r hr).2 p hp hprocess).trans ha⟩

theorem kept_empty : ({} : IolHost).Kept := by
  refine ⟨?_, ?_, ?_, ?_, ?_, ?_, ?_⟩
  · intro p hp
    cases hp
  · intro p hp
    cases hp
  · intro p hp
    cases hp
  · intro node r hr
    cases hr
  · intro t s n a hs
    cases hs
  · intro t s a hs
    cases hs
  · intro t t' s s' hs
    cases hs

/-- In a run in which starts read the used ids one after the other, and no step drops or replaces
the record of a process that runs, no two processes share an id, and a start is refused one only
when processes that run have all of them. -/
theorem iol_ids_sound {digest : String → Nat × Nat} {h : IolHost} {actions : List IolAction}
    (run : Run (Guarded (fun before action after => iolStep digest before action = some after) IolOk)
      {} actions h) : h.IdsSound digest := by
  have hkept : h.Kept := by
    refine run.invariant (fun before action after hk hstep => ?_) kept_empty
    exact hk.step hstep.1 hstep.2
  exact hkept.idsSound digest

/-- The first bytes of the SHA-256 of `demo:1` and `demo:3`. -/
def demoDigest (text : String) : Nat × Nat :=
  if text = "demo:1" then (41, 19) else if text = "demo:3" then (47, 19) else (0, 0)

def afterIolActions (actions : List IolAction) : IolHost :=
  actions.foldl (fun h action => (iolStep demoDigest h action).getD h) {}

/-- A node starts, and another after it. -/
def startsInTurn : List IolAction :=
  [.check 0 ⟨"demo", 1⟩, .start 0 .choose, .start 0 .launch, .start 0 .publish,
    .check 1 ⟨"demo", 3⟩, .start 1 .choose, .start 1 .launch, .start 1 .publish]

/-- Both starts read the used ids before one of them has a record. -/
def startsAtOnce : List IolAction :=
  [.check 0 ⟨"demo", 1⟩, .check 1 ⟨"demo", 3⟩, .start 0 .choose, .start 1 .choose,
    .start 0 .launch, .start 1 .launch]

theorem starts_in_turn_sound :
    (afterIolActions startsInTurn).live.map IolProcess.applicationId = [276, 277] ∧
      (afterIolActions startsInTurn).IdsSound demoDigest := by
  have hstep : ∀ k < 8, iolStep demoDigest (afterIolActions (startsInTurn.take k))
      (startsInTurn.getD k (.exit 0)) = some (afterIolActions (startsInTurn.take (k + 1))) := by
    decide +kernel
  have hchoose : ∀ k ∈ [1, 5], ∀ e ∈ (afterIolActions (startsInTurn.take k)).starts.entries,
      e.2.phase.id? = none := by decide +kernel
  have hidle : ∀ k ∈ [1, 5], ∀ other s,
      (afterIolActions (startsInTurn.take k)).starts.get? other = some s → s.phase.id? = none :=
    fun k hk other s hs => hchoose k hk (other, s) (mem_of_assocGet hs)
  have hempty : ∀ e ∈ [(0, 3), (1, 7)], ((afterIolActions (startsInTurn.take e.2)).starts.get? e.1).all
      (fun s => ((afterIolActions (startsInTurn.take e.2)).registry.get? s.node).isNone) = true := by
    decide +kernel
  have hpublish : ∀ e ∈ [(0, 3), (1, 7)], ∀ s,
      (afterIolActions (startsInTurn.take e.2)).starts.get? e.1 = some s →
        (afterIolActions (startsInTurn.take e.2)).RecordDead s.node := by
    intro e he s hs r hr
    have hnone := hempty e he
    rw [hs, Option.all_some, hr] at hnone
    cases hnone
  have run : Run (Guarded (fun before action after =>
      iolStep demoDigest before action = some after) IolOk) {} startsInTurn
      (afterIolActions startsInTurn) :=
    Run.cons ⟨trivial, hstep 0 (by omega)⟩
      (Run.cons ⟨hidle 1 (by simp), hstep 1 (by omega)⟩
      (Run.cons ⟨trivial, hstep 2 (by omega)⟩
      (Run.cons ⟨hpublish (0, 3) (by simp), hstep 3 (by omega)⟩
      (Run.cons ⟨trivial, hstep 4 (by omega)⟩
      (Run.cons ⟨hidle 5 (by simp), hstep 5 (by omega)⟩
      (Run.cons ⟨trivial, hstep 6 (by omega)⟩
      (Run.single ⟨hpublish (1, 7) (by simp), hstep 7 (by omega)⟩)))))))
  exact ⟨by decide +kernel, iol_ids_sound run⟩

theorem starts_at_once_share_id :
    ¬ ∀ actions h, Run (fun before action after => iolStep demoDigest before action = some after)
      {} actions h → h.IdsSound demoDigest := by
  intro hall
  have run : Run (fun before action after => iolStep demoDigest before action = some after)
      {} startsAtOnce (afterIolActions startsAtOnce) := by
    have hstep : ∀ k < 6, iolStep demoDigest (afterIolActions (startsAtOnce.take k))
        (startsAtOnce.getD k (.exit 0)) = some (afterIolActions (startsAtOnce.take (k + 1))) := by
      decide +kernel
    exact Run.cons (hstep 0 (by omega)) (Run.cons (hstep 1 (by omega))
      (Run.cons (hstep 2 (by omega)) (Run.cons (hstep 3 (by omega))
      (Run.cons (hstep 4 (by omega)) (Run.single (hstep 5 (by omega)))))))
  have hlive : (afterIolActions startsAtOnce).live =
      [⟨0, ⟨"demo", 1⟩, 276⟩, ⟨1, ⟨"demo", 3⟩, 276⟩] := by decide +kernel
  have hsame := (hall _ _ run).distinct ⟨0, ⟨"demo", 1⟩, 276⟩ (by rw [hlive]; simp)
    ⟨1, ⟨"demo", 3⟩, 276⟩ (by rw [hlive]; simp) rfl
  cases hsame

end NovaVe
