import NovaVe.LastWrite
import NovaVe.Lab
import NovaVe.Texts
import Mathlib.Data.List.Lex
import Mathlib.Data.List.Sort
import Mathlib.Data.String.Basic

namespace NovaVe

/-- `OwnerKey`. -/
structure MacOwner where
  labId : String
  nodeId : Int
  interfaceIndex : Int
deriving DecidableEq, Repr

/-- `RegistryKey`: a network id and a normalised address. -/
abbrev MacKey := Int × String

abbrev MacEntries := MacKey → Option MacOwner

/-- `_normalize_mac`; `lower` is `str.lower`. -/
def normalizeMac (lower : String → String) (mac : String) : String := lower (pyStrip mac)

def checkCollision (lower : String → String) (entries : MacEntries) (networkId : Int)
    (plannedMac : Option String) (ownerKey : Option MacOwner) : Option MacOwner :=
  match plannedMac with
  | none => none
  | some planned =>
    let mac := normalizeMac lower planned
    if mac = "" then none
    else
      match entries (networkId, mac) with
      | none => none
      | some existing => if ownerKey = some existing then none else some existing

/-- The entry of `interfaces[]` at a list position. -/
def Lab.interfaceAt (lab : Lab) (nodeId interfaceIndex : Int) : Option Iface :=
  if interfaceIndex < 0 then none
  else (lab.nodes.get? nodeId).bind (fun node => node.interfaces[interfaceIndex.toNat]?)

/-- The address planned for an interface, normalised, unless it is empty. -/
def plannedAt (lower : String → String) (lab : Lab) (nodeId interfaceIndex : Int) : Option String :=
  match (lab.interfaceAt nodeId interfaceIndex).bind Iface.plannedMac with
  | none => none
  | some planned =>
    let mac := normalizeMac lower planned
    if planned = "" ∨ mac = "" then none else some mac

/-- What `recompute_for_lab` registers for one link. -/
def declaredBy (lower : String → String) (lab : Lab) (l : Link) : Option (MacKey × Int × Int) :=
  match l.attachment? with
  | none => none
  | some (nodeId, interfaceIndex, networkId) =>
    (plannedAt lower lab nodeId interfaceIndex).map
      (fun mac => ((networkId, mac), nodeId, interfaceIndex))

/-- The registrations of a lab, in link order. -/
def declaredMacs (lower : String → String) (lab : Lab) : List (MacKey × Int × Int) :=
  lab.links.filterMap (declaredBy lower lab)

def recomputeForLab (lower : String → String) (entries : MacEntries) (labId : String) (lab : Lab) :
    MacEntries :=
  let fresh := writeAll (declaredMacs lower lab)
  fun key =>
    match fresh key with
    | some (nodeId, interfaceIndex) => some ⟨labId, nodeId, interfaceIndex⟩
    | none =>
      match entries key with
      | none => none
      | some owner => if owner.labId = labId then none else some owner

/-- A `*.json` file below the labs directory; `none` when it is not a lab that can be read. -/
structure LabFile where
  path : String
  data : Option Lab

/-- `PurePath.stem`. -/
def pathStem (path : String) : String :=
  let name := ((path.toList.splitOn '/').getLast?).getD []
  let dot := name.length - (name.reverse.takeWhile (fun c => decide (c ≠ '.'))).length - 1
  if 0 < dot ∧ dot < name.length - 1 then String.ofList (name.take dot) else String.ofList name

/-- `sorted(labs_path.rglob("*.json"))`: by the parts of the paths. -/
def sortedLabFiles (files : List LabFile) : List LabFile :=
  files.insertionSort (fun a b => a.path.splitOn "/" ≤ b.path.splitOn "/")

/-- The calls of `recompute_for_lab` that `rebuild_all` makes. -/
def rebuildCalls (files : List LabFile) : List (String × Lab) :=
  (sortedLabFiles files).filterMap
    (fun file => file.data.map (fun lab => (pathStem file.path, lab)))

def recomputeAll (lower : String → String) (entries : MacEntries) (calls : List (String × Lab)) :
    MacEntries :=
  calls.foldl (fun found call => recomputeForLab lower found call.1 call.2) entries

/-- `rebuild_all`. -/
def rebuildAll (lower : String → String) (entries : MacEntries) (files : List LabFile) : MacEntries :=
  recomputeAll lower entries (rebuildCalls files)

/-- An interface that is linked to a network and has a planned address. -/
def Lab.PlansMac (lower : String → String) (lab : Lab) (key : MacKey) (iface : Int × Int) : Prop :=
  plannedAt lower lab iface.1 iface.2 = some key.2 ∧
    ∃ l ∈ lab.links, l.attachment? = some (iface.1, iface.2, key.1)

theorem mem_declaredMacs {lower : String → String} {lab : Lab} {key : MacKey} {iface : Int × Int} :
    (key, iface) ∈ declaredMacs lower lab ↔ lab.PlansMac lower key iface := by
  unfold declaredMacs Lab.PlansMac
  rw [List.mem_filterMap]
  constructor
  · intro h
    obtain ⟨l, hl, hdeclared⟩ := h
    unfold declaredBy at hdeclared
    split at hdeclared
    next => cases hdeclared
    next nodeId interfaceIndex networkId hattached =>
      obtain ⟨mac, hmac, hpair⟩ := Option.map_eq_some_iff.mp hdeclared
      cases hpair
      exact ⟨hmac, l, hl, hattached⟩
  · intro h
    obtain ⟨hmac, l, hl, hattached⟩ := h
    refine ⟨l, hl, ?_⟩
    unfold declaredBy
    rw [hattached]
    dsimp only
    rw [hmac]
    rfl

theorem plannedAt_ne_empty {lower : String → String} {lab : Lab} {nodeId interfaceIndex : Int}
    {mac : String} (h : plannedAt lower lab nodeId interfaceIndex = some mac) : mac ≠ "" := by
  unfold plannedAt at h
  split at h
  next => cases h
  next =>
    dsimp only at h
    split at h
    next => cases h
    next hne =>
      cases h
      exact fun he => hne (Or.inr he)

/-- `check_collision` answers exactly when the entry has another owner. -/
theorem checkCollision_isSome {lower : String → String} {entries : MacEntries} {networkId : Int}
    {planned : String} {ownerKey : Option MacOwner} :
    (checkCollision lower entries networkId (some planned) ownerKey).isSome ↔
      normalizeMac lower planned ≠ "" ∧
        ∃ owner, entries (networkId, normalizeMac lower planned) = some owner ∧
          ownerKey ≠ some owner := by
  unfold checkCollision
  dsimp only
  by_cases hempty : normalizeMac lower planned = ""
  · simp [hempty]
  · rw [if_neg hempty]
    cases entries (networkId, normalizeMac lower planned) with
    | none => simp
    | some existing =>
      by_cases hsame : ownerKey = some existing
      · simp [hsame]
      · simp [hsame, hempty]

/-- A call of `recompute_for_lab` that concerns a registration: it registers the key again, or it is
for the lab that owns it. -/
def Concerns (lower : String → String) (key : MacKey) (labId : String) (call : String × Lab) : Prop :=
  call.1 = labId ∨ ∃ iface, call.2.PlansMac lower key iface

/-- The last call that concerns the registration made it. -/
def LastRegistered (lower : String → String) (calls : List (String × Lab)) (key : MacKey)
    (owner : MacOwner) : Prop :=
  ∃ lab, LastWith (Concerns lower key owner.labId) (owner.labId, lab) calls ∧
    LastWith (fun d => d.1 = key) (key, owner.nodeId, owner.interfaceIndex) (declaredMacs lower lab)

theorem recomputeForLab_plans {lower : String → String} {entries : MacEntries} {labId : String}
    {lab : Lab} {key : MacKey} {owner : MacOwner} (h : ∃ iface, lab.PlansMac lower key iface) :
    recomputeForLab lower entries labId lab key = some owner ↔
      owner.labId = labId ∧
        LastWith (fun d => d.1 = key) (key, owner.nodeId, owner.interfaceIndex)
          (declaredMacs lower lab) := by
  obtain ⟨iface, hiface⟩ := h
  obtain ⟨⟨nodeId, interfaceIndex⟩, hfresh⟩ := writeAll_isSome.mpr
    ⟨(key, iface), mem_declaredMacs.mpr hiface, rfl⟩
  unfold recomputeForLab
  rw [← writeAll_eq_some, hfresh]
  obtain ⟨ownerLab, ownerNode, ownerIndex⟩ := owner
  constructor
  · intro h
    cases h
    exact ⟨rfl, rfl⟩
  · intro h
    obtain ⟨rfl, h⟩ := h
    cases h
    rfl

theorem recomputeForLab_keeps {lower : String → String} {entries : MacEntries} {labId : String}
    {lab : Lab} {key : MacKey} {owner : MacOwner} (h : ¬ ∃ iface, lab.PlansMac lower key iface) :
    recomputeForLab lower entries labId lab key = some owner ↔
      entries key = some owner ∧ owner.labId ≠ labId := by
  have hfresh : writeAll (declaredMacs lower lab) key = none := by
    rw [Option.eq_none_iff_forall_ne_some]
    intro iface hsome
    obtain ⟨⟨j, v⟩, hw, hj⟩ := writeAll_isSome.mp ⟨iface, hsome⟩
    obtain rfl : j = key := hj
    exact h ⟨v, mem_declaredMacs.mp hw⟩
  unfold recomputeForLab
  rw [hfresh]
  cases entries key with
  | none => simp
  | some old =>
    by_cases hsame : old.labId = labId
    · simp only [hsame, if_true, Option.some.injEq]
      constructor
      · intro he
        cases he
      · intro he
        obtain ⟨rfl, hne⟩ := he
        exact absurd hsame hne
    · simp only [hsame, if_false, Option.some.injEq]
      constructor
      · intro he
        exact ⟨he, he ▸ hsame⟩
      · intro he
        exact he.1

/-- What the registry holds for a key after a series of recomputations. -/
theorem recomputeAll_eq_some {lower : String → String} {calls : List (String × Lab)} {key : MacKey}
    {owner : MacOwner} :
    recomputeAll lower (fun _ => none) calls key = some owner ↔
      LastRegistered lower calls key owner := by
  induction calls using List.reverseRecOn with
  | nil =>
    constructor
    · intro h
      cases h
    · intro h
      obtain ⟨lab, hlast, _⟩ := h
      exact absurd hlast not_lastWith_nil
  | append_singleton rest call ih =>
    obtain ⟨labId, lab⟩ := call
    have hstep : recomputeAll lower (fun _ => none) (rest ++ [(labId, lab)]) =
        recomputeForLab lower (recomputeAll lower (fun _ => none) rest) labId lab := by
      unfold recomputeAll
      rw [List.foldl_append]
      rfl
    rw [hstep]
    by_cases hplans : ∃ iface, lab.PlansMac lower key iface
    · rw [recomputeForLab_plans hplans]
      constructor
      · intro h
        obtain ⟨rfl, hdeclared⟩ := h
        exact ⟨lab, lastWith_append_singleton.mpr (Or.inl ⟨Or.inr hplans, rfl⟩), hdeclared⟩
      · intro h
        obtain ⟨other, hlast, hdeclared⟩ := h
        rcases lastWith_append_singleton.mp hlast with ⟨_, hcall⟩ | ⟨hnot, _⟩
        · obtain ⟨hid, rfl⟩ := Prod.mk.inj hcall
          exact ⟨hid, hdeclared⟩
        · exact absurd (Or.inr hplans) hnot
    · rw [recomputeForLab_keeps hplans, ih]
      constructor
      · intro h
        obtain ⟨⟨other, hlast, hdeclared⟩, hne⟩ := h
        refine ⟨other, lastWith_append_singleton.mpr (Or.inr ⟨?_, hlast⟩), hdeclared⟩
        intro hconcerns
        rcases hconcerns with hid | hagain
        · exact hne hid.symm
        · exact hplans hagain
      · intro h
        obtain ⟨other, hlast, hdeclared⟩ := h
        rcases lastWith_append_singleton.mp hlast with ⟨_, hcall⟩ | ⟨hnot, hrest⟩
        · obtain ⟨_, rfl⟩ := Prod.mk.inj hcall
          exact absurd ⟨_, mem_declaredMacs.mp hdeclared.mem.1⟩ hplans
        · refine ⟨⟨other, hrest, hdeclared⟩, ?_⟩
          intro hid
          exact hnot (Or.inl hid.symm)

end NovaVe
