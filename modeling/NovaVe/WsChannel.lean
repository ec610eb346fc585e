import NovaVe.Dict
import NovaVe.LabPaths

namespace NovaVe

/-- A lab as it is stored: its path under the labs directory and the `id` in its JSON. -/
structure StoredLab where
  path : String
  jsonId : String
deriving DecidableEq, Repr

/-- `str(data.get("id", "")).strip()`. -/
def StoredLab.labId (lab : StoredLab) : String := pyStrip lab.jsonId

/-- `_runtime_mutex_lab_id`: the id as it stands, or the path. -/
def runtimeMutexLabId (lab : StoredLab) : String :=
  if lab.jsonId = "" then lab.path else lab.jsonId

/-- The events published about a lab. -/
inductive LabEvent
  | linkCreated | linkUpdated | linkDeleted
  | networkCreated | networkPromoted | networkUpdated | networkDeleted
  | interfaceUpdated | layoutUpdated
  | nodeStatusReconciled
  | liveMacCadence | liveMacRead
  | nodeWarning
  | discoveredLink | linkDivergent
deriving DecidableEq, Repr

/-- The key a publisher passes to `ws_hub.publish`, if it publishes at all. -/
def eventChannel (lab : StoredLab) : LabEvent → Option String
  | .linkCreated | .linkUpdated | .linkDeleted
  | .networkCreated | .networkPromoted | .networkUpdated | .networkDeleted
  | .interfaceUpdated | .layoutUpdated => some lab.path
  -- the heartbeat, the start of a node and the discovery skip a lab without an id
  | .nodeStatusReconciled | .liveMacCadence | .discoveredLink | .linkDivergent =>
    if lab.labId = "" then none else some lab.labId
  | .liveMacRead => some lab.labId
  | .nodeWarning => some (runtimeMutexLabId lab)

/-- `get_discovery_generation`. -/
def getDiscoveryGeneration (generations : Dict String Nat) (key : String) : Nat :=
  (generations.get? key).getD 0

/-- What `_discover_lab` does to the counters at the start of a cycle. -/
def bumpDiscoveryGeneration (generations : Dict String Nat) (lab : StoredLab) : Dict String Nat :=
  generations.set lab.labId (getDiscoveryGeneration generations lab.labId + 1)

/-- The route `/ws/labs/{lab}`: the parameter is one path segment, whatever the client quoted. -/
structure SegmentRoute (route : String → Option String) : Prop where
  segment : ∀ s, s ≠ "" → '/' ∉ s.toList → route s = some s
  slashed : ∀ s, '/' ∈ s.toList → route s = none

/-- All that is published about the lab reaches a client that opened it as `opened`, and the
generation in its snapshot is the counter of the lab. -/
def ChannelsAgree (route : String → Option String) (lab : StoredLab) (opened : String) : Prop :=
  (∀ event key, eventChannel lab event = some key → route opened = some key) ∧
    ∀ generations key, route opened = some key →
      getDiscoveryGeneration generations key = getDiscoveryGeneration generations lab.labId

theorem intercalate_ne_nil {parts : List (List Char)} (h : parts ≠ [])
    (hne : ∀ part ∈ parts, part ≠ []) : List.intercalate ['/'] parts ≠ [] := by
  cases parts with
  | nil => exact absurd rfl h
  | cons part rest =>
    have hp := hne part List.mem_cons_self
    cases rest with
    | nil => simpa [List.intercalate] using hp
    | cons next rest => simp [List.intercalate, hp]

theorem normalizeRelativeLabPath_ne_empty {rawPath path : String}
    (h : normalizeRelativeLabPath rawPath = some path) : path ≠ "" := by
  obtain ⟨hne, _, hpath⟩ := normalizeRelativeLabPath_eq_some h
  rintro rfl
  exact intercalate_ne_nil hne (fun part hm => labPathParts_ne_nil_of_mem hm) hpath.symm

/-- The channels agree exactly for a lab in the labs directory itself that is opened under its
path and whose JSON id is that path. -/
theorem channelsAgree_iff {route : String → Option String} (hroute : SegmentRoute route)
    {lab : StoredLab} {opened : String} (hopen : normalizeRelativeLabPath opened = some lab.path) :
    ChannelsAgree route lab opened ↔
      '/' ∉ opened.toList ∧ opened = lab.path ∧ lab.jsonId = lab.path ∧
        pyStrip lab.jsonId = lab.jsonId := by
  have hpath : lab.path ≠ "" := normalizeRelativeLabPath_ne_empty hopen
  constructor
  · rintro ⟨hevents, _⟩
    have hlink : route opened = some lab.path := hevents .linkCreated lab.path rfl
    have hmac : route opened = some lab.labId := hevents .liveMacRead lab.labId rfl
    have hwarn : route opened = some (runtimeMutexLabId lab) := hevents .nodeWarning _ rfl
    have hid : lab.labId = lab.path := Option.some.inj (hmac.symm.trans hlink)
    have hkey : runtimeMutexLabId lab = lab.path := Option.some.inj (hwarn.symm.trans hlink)
    have hslash : '/' ∉ opened.toList := by
      intro hm
      rw [hroute.slashed opened hm] at hlink
      cases hlink
    have hopened : opened ≠ "" := by
      rintro rfl
      have hnone : normalizeRelativeLabPath "" = none := by decide
      rw [hnone] at hopen
      cases hopen
    have hsame : opened = lab.path :=
      Option.some.inj ((hroute.segment opened hopened hslash).symm.trans hlink)
    have hjson : lab.jsonId = lab.path := by
      unfold runtimeMutexLabId at hkey
      split at hkey
      next hempty =>
        have hlabId : lab.labId = "" := by
          rw [StoredLab.labId, hempty]
          rfl
        exact absurd (hid.symm.trans hlabId) hpath
      next => exact hkey
    exact ⟨hslash, hsame, hjson, hid.trans hjson.symm⟩
  · rintro ⟨hslash, hopened, hjson, hstrip⟩
    have hid : lab.labId = lab.path := hstrip.trans hjson
    have hkey : runtimeMutexLabId lab = lab.path := by
      unfold runtimeMutexLabId
      split
      next => rfl
      next => exact hjson
    have hroutes : route opened = some lab.path := by
      rw [hopened]
      exact hroute.segment lab.path hpath (hopened ▸ hslash)
    refine ⟨?_, ?_⟩
    · intro event key hevent
      rw [hroutes]
      cases event <;> simp_all [eventChannel]
    · intro generations key hk
      rw [hroutes] at hk
      rw [hid, Option.some.inj hk]

/-- The route as it matches decoded paths. -/
def labRoute (s : String) : Option String :=
  if s = "" ∨ '/' ∈ s.toList then none else some s

theorem segmentRoute_labRoute : SegmentRoute labRoute where
  segment _ hne hs := if_neg (fun h => h.elim hne hs)
  slashed _ h := if_pos (Or.inr h)

theorem channelsAgree_flat_lab :
    ChannelsAgree labRoute ⟨"alpha.json", "alpha.json"⟩ "alpha.json" :=
  (channelsAgree_iff segmentRoute_labRoute (by decide)).mpr (by decide)

/-- A lab as the lab service creates it: the id is not the path. Its live MAC events go to another
channel, and after a discovery cycle its snapshot still carries generation 0. -/
theorem channels_disagree_for_created_lab :
    normalizeRelativeLabPath "alpha.json" = some "alpha.json" ∧
      ¬ChannelsAgree labRoute ⟨"alpha.json", "1c2d9f60"⟩ "alpha.json" ∧
      getDiscoveryGeneration
        (bumpDiscoveryGeneration Dict.empty ⟨"alpha.json", "1c2d9f60"⟩) "alpha.json" = 0 := by
  refine ⟨by decide, fun h => ?_, by decide⟩
  have hmac := h.1 .liveMacRead _ rfl
  revert hmac
  decide

end NovaVe
