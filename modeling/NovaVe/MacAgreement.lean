import NovaVe.MacRegistry

namespace NovaVe

/-- What happens to the lab files once the registry is built: a service writes one and calls
`_recompute_mac_registry`, another writer does not, or the file is removed. -/
inductive MacEvent
  | saved (path : String) (data : Lab)
  | written (path : String) (data : Lab)
  | removed (path : String)

/-- The lab files by path, and the registry. -/
structure MacWorld where
  labs : String → Option Lab
  entries : MacEntries

def MacWorld.step (lower : String → String) (s : MacWorld) : MacEvent → MacWorld
  | .saved path data =>
    { labs := Function.update s.labs path (some data)
      entries := recomputeForLab lower s.entries path data }
  | .written path data => { s with labs := Function.update s.labs path (some data) }
  | .removed path => { s with labs := Function.update s.labs path none }

/-- `rebuild_all` over a directory, then the events. -/
def macWorldAfter (lower : String → String) (files : List LabFile) (events : List MacEvent) : MacWorld :=
  events.foldl (MacWorld.step lower)
    { labs := fun path => (files.find? (fun file => decide (file.path = path))).bind LabFile.data
      entries := rebuildAll lower (fun _ => none) files }

/-- An interface of some lab, named by the path of the lab, is linked to a network and has a planned
address. -/
def MacWorld.Plans (lower : String → String) (s : MacWorld) (key : MacKey) (owner : MacOwner) : Prop :=
  ∃ lab, s.labs owner.labId = some lab ∧ lab.PlansMac lower key (owner.nodeId, owner.interfaceIndex)

/-- A conflict is found exactly when another interface plans the address on the network. -/
def MacWorld.Agrees (lower : String → String) (s : MacWorld) : Prop :=
  ∀ networkId planned ownerKey,
    (checkCollision lower s.entries networkId (some planned) ownerKey).isSome ↔
      ∃ owner, s.Plans lower (networkId, normalizeMac lower planned) owner ∧ ownerKey ≠ some owner

def MacEvent.call? : MacEvent → Option (String × Lab)
  | .saved path data => some (path, data)
  | _ => none

/-- The calls of `recompute_for_lab`, oldest first. -/
def recomputeCalls (files : List LabFile) (events : List MacEvent) : List (String × Lab) :=
  rebuildCalls files ++ events.filterMap MacEvent.call?

/-- Nothing plans the address and no registration of it is left, or one interface alone plans it and
the last call that concerns its registration is the one that made it. -/
def MacKeySettled (lower : String → String) (s : MacWorld) (calls : List (String × Lab))
    (key : MacKey) : Prop :=
  ((∀ owner, ¬ s.Plans lower key owner) ∧ ∀ owner, ¬ LastRegistered lower calls key owner) ∨
    ∃ owner, (∀ other, s.Plans lower key other ↔ other = owner) ∧
      LastRegistered lower calls key owner

theorem macWorldAfter_entries (lower : String → String) (files : List LabFile)
    (events : List MacEvent) :
    (macWorldAfter lower files events).entries =
      recomputeAll lower (fun _ => none) (recomputeCalls files events) := by
  induction events using List.reverseRecOn with
  | nil =>
    unfold recomputeCalls
    rw [List.filterMap_nil, List.append_nil]
    rfl
  | append_singleton rest event ih =>
    unfold macWorldAfter at ih ⊢
    unfold recomputeCalls at ih ⊢
    rw [List.foldl_append, List.filterMap_append, ← List.append_assoc]
    cases event with
    | saved path data =>
      unfold recomputeAll at ih ⊢
      rw [List.foldl_append, ← ih]
      rfl
    | written path data =>
      rw [show [MacEvent.written path data].filterMap MacEvent.call? = [] from rfl, List.append_nil]
      exact ih
    | removed path =>
      rw [show [MacEvent.removed path].filterMap MacEvent.call? = [] from rfl, List.append_nil]
      exact ih

theorem macWorldAfter_registered {lower : String → String} {files : List LabFile}
    {events : List MacEvent} {key : MacKey} {owner : MacOwner} :
    (macWorldAfter lower files events).entries key = some owner ↔
      LastRegistered lower (recomputeCalls files events) key owner := by
  rw [macWorldAfter_entries]
  exact recomputeAll_eq_some

/-- The address of a key that is planned or registered is a normalised one and not empty. -/
theorem plannedAt_normalized {lower : String → String} {lab : Lab} {nodeId interfaceIndex : Int}
    {mac : String} (h : plannedAt lower lab nodeId interfaceIndex = some mac) :
    ∃ planned, normalizeMac lower planned = mac := by
  unfold plannedAt at h
  split at h
  next => cases h
  next planned _ =>
    dsimp only at h
    split at h
    next => cases h
    next =>
      cases h
      exact ⟨planned, rfl⟩

theorem LastRegistered.plansMac {lower : String → String} {calls : List (String × Lab)} {key : MacKey}
    {owner : MacOwner} (h : LastRegistered lower calls key owner) :
    ∃ lab : Lab, lab.PlansMac lower key (owner.nodeId, owner.interfaceIndex) := by
  obtain ⟨lab, _, hlast⟩ := h
  exact ⟨lab, mem_declaredMacs.mp hlast.mem.1⟩

theorem MacWorld.Agrees.settled {lower : String → String} {s : MacWorld} {calls : List (String × Lab)}
    (hentries : ∀ key owner, s.entries key = some owner ↔ LastRegistered lower calls key owner)
    (h : s.Agrees lower) (key : MacKey) : MacKeySettled lower s calls key := by
  obtain ⟨networkId, mac⟩ := key
  by_cases hnormal : ∃ planned, normalizeMac lower planned = mac
  · obtain ⟨planned, rfl⟩ := hnormal
    cases hentry : s.entries (networkId, normalizeMac lower planned) with
    | none =>
      left
      constructor
      · intro owner hplans
        have hsome := (h networkId planned none).mpr ⟨owner, hplans, fun he => by cases he⟩
        obtain ⟨_, other, hother, _⟩ := checkCollision_isSome.mp hsome
        rw [hentry] at hother
        cases hother
      · intro owner hlast
        rw [← hentries, hentry] at hlast
        cases hlast
    | some owner =>
      right
      have hlast := (hentries _ _).mp hentry
      obtain ⟨lab, hmac, _⟩ := hlast.plansMac
      have hempty : normalizeMac lower planned ≠ "" := plannedAt_ne_empty hmac
      have honly : ∀ other, s.Plans lower (networkId, normalizeMac lower planned) other →
          other = owner := by
        intro other hother
        by_contra hne
        have hsome := (h networkId planned (some owner)).mpr
          ⟨other, hother, fun he => hne (Option.some.inj he).symm⟩
        obtain ⟨_, found, hfound, hdiffers⟩ := checkCollision_isSome.mp hsome
        rw [hentry] at hfound
        exact hdiffers hfound
      refine ⟨owner, ?_, hlast⟩
      intro other
      constructor
      · exact honly other
      · intro he
        have hsome : (checkCollision lower s.entries networkId (some planned) none).isSome :=
          checkCollision_isSome.mpr ⟨hempty, owner, hentry, fun he => by cases he⟩
        obtain ⟨found, hfound, _⟩ := (h networkId planned none).mp hsome
        rw [he, ← honly found hfound]
        exact hfound
  · left
    constructor
    · intro owner hplans
      obtain ⟨_, _, hmac, _⟩ := hplans
      exact hnormal (plannedAt_normalized hmac)
    · intro owner hlast
      obtain ⟨_, hmac, _⟩ := hlast.plansMac
      exact hnormal (plannedAt_normalized hmac)

theorem MacWorld.agrees_of_settled {lower : String → String} {s : MacWorld}
    {calls : List (String × Lab)}
    (hentries : ∀ key owner, s.entries key = some owner ↔ LastRegistered lower calls key owner)
    (h : ∀ key, MacKeySettled lower s calls key) : s.Agrees lower := by
  intro networkId planned ownerKey
  rw [checkCollision_isSome]
  rcases h (networkId, normalizeMac lower planned) with ⟨hnone, hunregistered⟩ | ⟨owner, honly, hlast⟩
  · constructor
    · intro hcollides
      obtain ⟨_, owner, hentry, _⟩ := hcollides
      exact absurd ((hentries _ _).mp hentry) (hunregistered owner)
    · intro hother
      obtain ⟨owner, hplans, _⟩ := hother
      exact absurd hplans (hnone owner)
  · have hentry := (hentries _ _).mpr hlast
    constructor
    · intro hcollides
      obtain ⟨_, found, hfound, hdiffers⟩ := hcollides
      obtain rfl : owner = found := Option.some.inj (hentry.symm.trans hfound)
      exact ⟨owner, (honly owner).mpr rfl, hdiffers⟩
    · intro hother
      obtain ⟨other, hplans, hdiffers⟩ := hother
      obtain rfl : other = owner := (honly other).mp hplans
      obtain ⟨_, _, hmac, _⟩ := hplans
      exact ⟨plannedAt_ne_empty hmac, other, hentry, hdiffers⟩

/-- The registry agrees with the labs exactly when every address on every network is settled. -/
theorem mac_registry_agrees_iff (lower : String → String) (files : List LabFile)
    (events : List MacEvent) :
    (macWorldAfter lower files events).Agrees lower ↔
      ∀ key, MacKeySettled lower (macWorldAfter lower files events) (recomputeCalls files events)
        key := by
  have hentries : ∀ key owner, (macWorldAfter lower files events).entries key = some owner ↔
      LastRegistered lower (recomputeCalls files events) key owner :=
    fun _ _ => macWorldAfter_registered
  exact ⟨fun h key => h.settled hentries key, MacWorld.agrees_of_settled hentries⟩

/-- A lab with one linked interface that has a planned address. -/
def oneMacLab : Lab :=
  { id := "lab"
    nodes := Dict.empty.set 1 { id := 1, name := "r1", type := .qemu, interfaces :=
      [{ index := 0, name := "eth0", plannedMac := some "50:00:00:00:00:01" }] }
    networks := Dict.empty.set 1 { id := 1, name := "lan" }
    links := [{ id := "lnk_001", from_ := .node 1 0, to_ := .network 1 }] }

/-- After a restart an interface collides with itself. -/
theorem rebuilt_registry_names_the_stem :
    ¬ (macWorldAfter id [⟨"a.json", some oneMacLab⟩] []).Agrees id := by
  intro h
  have hcollides : (checkCollision id (macWorldAfter id [⟨"a.json", some oneMacLab⟩] []).entries 1
      (some "50:00:00:00:00:01") (some ⟨"a.json", 1, 0⟩)).isSome := by decide +kernel
  obtain ⟨⟨labId, nodeId, interfaceIndex⟩, ⟨lab, hlab, _, l, hl, hattached⟩, hne⟩ :=
    (h 1 "50:00:00:00:00:01" (some ⟨"a.json", 1, 0⟩)).mp hcollides
  have hpath : labId = "a.json" ∧ lab = oneMacLab := by
    change ([(⟨"a.json", some oneMacLab⟩ : LabFile)].find?
      (fun file => decide (file.path = labId))).bind LabFile.data = some lab at hlab
    by_cases he : "a.json" = labId
    · rw [List.find?_cons_of_pos (by simpa using he)] at hlab
      exact ⟨he.symm, (Option.some.inj hlab).symm⟩
    · rw [List.find?_cons_of_neg (by simpa using he)] at hlab
      cases hlab
  obtain ⟨rfl, rfl⟩ := hpath
  obtain rfl := List.mem_singleton.mp hl
  cases hattached
  exact hne rfl

end NovaVe
