import Mathlib.Data.List.Dedup
import Mathlib.Data.List.Flatten
import Mathlib.Data.List.Sort
import Mathlib.Data.String.Basic
import NovaVe.LabJsonIdentity

namespace NovaVe

/-- A sweep is repeated until one changes nothing. -/
def untilStable {σ ε : Type} (sweep : σ → Except ε (σ × Bool)) : Nat → σ → Except ε σ
  | 0, s => .ok s
  | rounds + 1, s =>
    match sweep s with
    | .error e => .error e
    | .ok (next, changed) => if changed then untilStable sweep rounds next else .ok next

/-- With more rounds than what a change uses up, the last sweep has changed nothing. -/
theorem untilStable_stable {σ ε : Type} {sweep : σ → Except ε (σ × Bool)} {size : σ → Nat}
    (hless : ∀ s next, sweep s = .ok (next, true) → size next < size s)
    (hsame : ∀ s next, sweep s = .ok (next, false) → next = s) {rounds : Nat} {s result : σ}
    (hrounds : size s < rounds) (h : untilStable sweep rounds s = .ok result) :
    sweep result = .ok (result, false) := by
  induction rounds generalizing s with
  | zero => omega
  | succ rounds ih =>
    unfold untilStable at h
    split at h
    next => cases h
    next after changed hs =>
      cases changed with
      | true =>
        have hlt := hless s after hs
        exact ih (by omega) h
      | false =>
        have hafter := hsame s after hs
        rw [hafter] at h hs
        cases h
        exact hs

theorem untilStable_keeps {σ ε : Type} {sweep : σ → Except ε (σ × Bool)} {P : σ → Prop}
    (hkeep : ∀ s next changed, sweep s = .ok (next, changed) → P s → P next) {rounds : Nat}
    {s result : σ} (h : untilStable sweep rounds s = .ok result) (hs : P s) : P result := by
  induction rounds generalizing s with
  | zero =>
    cases h
    exact hs
  | succ rounds ih =>
    unfold untilStable at h
    split at h
    next => cases h
    next after changed hn =>
      cases changed with
      | true => exact ih h (hkeep s after true hn hs)
      | false =>
        cases h
        exact hkeep s _ false hn hs

theorem untilStable_returns {σ ε : Type} {sweep : σ → Except ε (σ × Bool)} {P : σ → Prop}
    (hreturn : ∀ s, P s → ∃ after, sweep s = .ok after ∧ P after.1) {rounds : Nat} {s : σ}
    (hs : P s) : ∃ result, untilStable sweep rounds s = .ok result := by
  induction rounds generalizing s with
  | zero => exact ⟨s, rfl⟩
  | succ rounds ih =>
    obtain ⟨⟨after, changed⟩, hsweep, hafter⟩ := hreturn s hs
    unfold untilStable
    rw [hsweep]
    cases changed with
    | true => exact ih hafter
    | false => exact ⟨after, rfl⟩

/-- What ends `repair`: a link that is no mapping, a wrong collection, an infinite number. -/
inductive RepairFault
  | attribute | type | overflow
deriving DecidableEq, Repr

/-- `link.get("from")` and `link.get("to")`, where they are mappings. -/
def endpointFields (link : Fields) : List Fields :=
  ["from", "to"].filterMap (fun key => (fieldOr link key .null).fields?)

/-- The interface of an endpoint; what cannot be read as one is passed over. -/
def ifaceKey (py : PyValues) (ep : Fields) : Option (Int × Int) := do
  let nodeId ← assocGet ep "node_id"
  let node ← (nodeId.cast py).get?
  let index ← ((fieldOr ep "interface_index" (.int 0)).cast py).get?
  return (node, index)

def ifaceKeyOverflows (py : PyValues) (ep : Fields) : Bool :=
  match assocGet ep "node_id" with
  | none => false
  | some nodeId => decide (nodeId.cast py = .overflow) ||
      ((nodeId.cast py).get?.isSome &&
        decide ((fieldOr ep "interface_index" (.int 0)).cast py = .overflow))

/-- `_iface_key_for_link`. -/
def ifaceKeys (py : PyValues) (link : Fields) : List (Int × Int) :=
  (endpointFields link).filterMap (ifaceKey py)

/-- `int(ep.get("network_id", 0) or 0)`. -/
def networkRef (py : PyValues) (ep : Fields) : IntCast :=
  (fieldOrElse py ep "network_id" (.int 0)).cast py

/-- `_refcount`. -/
def recordRefcount (py : PyValues) (links : List Fields) (networkId : Int) : Nat :=
  ((links.flatMap endpointFields).filter (fun ep => decide (networkRef py ep = .value networkId))).length

def refOverflows (py : PyValues) (links : List Fields) : Bool :=
  (links.flatMap endpointFields).any (fun ep => decide (networkRef py ep = .overflow))

/-- `_link_id_sort_key`. -/
def linkIdSortKey (linkId : String) : Nat × String :=
  ((linkIdNumber linkId).getD 1000000000, linkId)

def keyAtMost (a b : Nat × String) : Bool :=
  decide (a.1 < b.1) || (decide (a.1 = b.1) && decide (a.2 ≤ b.2))

/-- `str(link.get("id"))`. -/
def linkIdText (py : PyValues) (link : Fields) : String := (fieldOr link "id" .null).shown py

/-- `by_iface[key]`: a link once for each of its ends on the interface. -/
def linkGroup (py : PyValues) (links : List Fields) (key : Int × Int) : List Fields :=
  links.flatMap (fun link => List.replicate ((ifaceKeys py link).count key) link)

/-- The newest first. -/
def sortedGroup (py : PyValues) (links : List Fields) (key : Int × Int) : List Fields :=
  (linkGroup py links key).insertionSort (fun a b =>
    keyAtMost (linkIdSortKey (linkIdText py b)) (linkIdSortKey (linkIdText py a)) = true)

/-- The ids of all links of an interface but the newest. -/
def dupDrop (py : PyValues) (links : List Fields) : List String :=
  (links.flatMap (ifaceKeys py)).dedup.flatMap (fun key =>
    ((sortedGroup py links key).drop 1).map (linkIdText py))

def isStale (py : PyValues) (links : List Fields) (link : Fields) : Bool :=
  (dupDrop py links).contains (linkIdText py link)

/-- What `repair` works on. -/
structure Repairing where
  links : List Fields
  networks : List (String × JsonValue)
  removedLinks : List Fields
  removedNetworks : List JsonValue

/-- `record.get("implicit") is True`. -/
def recordImplicit (record : JsonValue) : Bool :=
  match record.fields?.bind (assocGet · "implicit") with
  | some (.bool b) => b
  | _ => false

/-- `"network_id" in ep and int(ep["network_id"]) == net_id`. -/
def touchesNetwork (py : PyValues) (networkId : Int) (link : Fields) : Bool :=
  (endpointFields link).any (fun ep => (assocGet ep "network_id").any (fun value =>
    decide (value.cast py = .value networkId)))

/-- Whether an implicit network has to go. -/
def isOrphan (py : PyValues) (links : List Fields) (entry : String × JsonValue) :
    Except RepairFault Bool :=
  if recordImplicit entry.2 then
    match pyInt entry.1 with
    | none => .ok false
    | some networkId =>
      if refOverflows py links then .error .overflow
      else .ok (decide (recordRefcount py links networkId ≠ 2))
  else .ok false

/-- A network goes with the links on it. -/
def Repairing.drop (py : PyValues) (s : Repairing) (entry : String × JsonValue) : Repairing :=
  match pyInt entry.1 with
  | none => s
  | some networkId =>
    { links := s.links.filter (fun link => !touchesNetwork py networkId link)
      networks := assocPop s.networks entry.1
      removedLinks := s.removedLinks ++ s.links.filter (touchesNetwork py networkId)
      removedNetworks := s.removedNetworks ++ [entry.2] }

def orphanStep (py : PyValues) (state : Repairing × Bool) (entry : String × JsonValue) :
    Except RepairFault (Repairing × Bool) := do
  if ← isOrphan py state.1.links entry then return (state.1.drop py entry, true)
  else return state

/-- One round of the loop, over the networks it starts with. -/
def sweepNetworks (py : PyValues) (s : Repairing) : Except RepairFault (Repairing × Bool) :=
  s.networks.foldlM (orphanStep py) (s, false)

/-- `list(lab_data.get("links", []) or [])`, each of them a mapping. -/
def labLinks (py : PyValues) (lab : Fields) : Except RepairFault (List Fields) :=
  match (fieldOrElse py lab "links" (.arr [])).items? with
  | none => .error .type
  | some items =>
    if items.all (fun item => item.fields?.isSome) then .ok (items.filterMap JsonValue.fields?)
    else .error .attribute

/-- `dict(lab_data.get("networks", {}) or {})`. -/
def labNetworks (py : PyValues) (lab : Fields) : Except RepairFault (List (String × JsonValue)) :=
  match fieldOrElse py lab "networks" (.obj []) with
  | .obj networks => .ok networks
  | _ => .error .type

/-- The first pass. -/
def dropStale (py : PyValues) (links : List Fields) (networks : List (String × JsonValue)) :
    Except RepairFault Repairing :=
  if (links.flatMap endpointFields).any (ifaceKeyOverflows py) then .error .overflow
  else .ok
    { links := links.filter (fun link => !isStale py links link)
      networks
      removedLinks := links.filter (isStale py links)
      removedNetworks := [] }

/-- `repair`, less the writing of the lab. -/
def repairParts (py : PyValues) (links : List Fields) (networks : List (String × JsonValue)) :
    Except RepairFault Repairing := do
  let s ← dropStale py links networks
  untilStable (sweepNetworks py) (networks.length + 1) s

/-- `repair`: the lab, the removed links and the removed networks. -/
def repair (py : PyValues) (lab : Fields) :
    Except RepairFault (Fields × List Fields × List JsonValue) := do
  let links ← labLinks py lab
  let networks ← labNetworks py lab
  let s ← repairParts py links networks
  return (assocSet (assocSet lab "links" (.arr (s.links.map JsonValue.obj))) "networks"
    (.obj s.networks), s.removedLinks, s.removedNetworks)

theorem count_flatMap_ifaceKeys (py : PyValues) (links : List Fields) (key : Int × Int) :
    (links.flatMap (ifaceKeys py)).count key = (linkGroup py links key).length := by
  rw [List.count_flatMap, linkGroup, List.length_flatMap]
  congr 1
  exact List.map_congr_left fun link _ => by simp

theorem linkGroup_filter (py : PyValues) (p : Fields → Bool) (links : List Fields)
    (key : Int × Int) :
    linkGroup py (links.filter p) key = (linkGroup py links key).filter p := by
  unfold linkGroup
  induction links with
  | nil => rfl
  | cons link links ih =>
    rw [List.flatMap_cons, List.filter_append, ← ih, List.filter_replicate]
    by_cases hp : p link = true
    · rw [List.filter_cons_of_pos hp, List.flatMap_cons, if_pos hp]
    · rw [List.filter_cons_of_neg hp, if_neg hp, List.nil_append]

theorem mem_linkGroup {py : PyValues} {links : List Fields} {key : Int × Int} {link : Fields}
    (h : link ∈ linkGroup py links key) : link ∈ links ∧ key ∈ ifaceKeys py link := by
  obtain ⟨source, hsource, hin⟩ := List.mem_flatMap.mp h
  rw [List.eq_of_mem_replicate hin]
  exact ⟨hsource, List.count_pos_iff.mp (Nat.pos_of_ne_zero (List.mem_replicate.mp hin).1)⟩

theorem mem_dupDrop_of_tail {py : PyValues} {links : List Fields} {key : Int × Int} {link : Fields}
    (h : link ∈ (sortedGroup py links key).drop 1) : isStale py links link = true := by
  rw [isStale, List.contains_iff_mem, dupDrop, List.mem_flatMap]
  refine ⟨key, ?_, List.mem_map_of_mem h⟩
  have hgroup : link ∈ linkGroup py links key :=
    (List.perm_insertionSort _ _).subset (List.mem_of_mem_drop h)
  rw [List.mem_dedup, List.mem_flatMap]
  exact ⟨link, mem_linkGroup hgroup⟩

/-- Of an interface at most one end stays. -/
theorem nodup_ifaceKeys_of_kept (py : PyValues) (links : List Fields) :
    ((links.filter (fun link => !isStale py links link)).flatMap (ifaceKeys py)).Nodup := by
  rw [List.nodup_iff_count_le_one]
  intro key
  rw [count_flatMap_ifaceKeys, linkGroup_filter]
  have hperm : ((linkGroup py links key).filter (fun link => !isStale py links link)).Perm
      ((sortedGroup py links key).filter (fun link => !isStale py links link)) :=
    ((List.perm_insertionSort _ _).filter _).symm
  rw [hperm.length_eq]
  cases hg : sortedGroup py links key with
  | nil => exact Nat.zero_le _
  | cons first rest =>
    have hrest : rest.filter (fun link => !isStale py links link) = [] := by
      rw [List.filter_eq_nil_iff]
      intro link hlink
      have hstale := @mem_dupDrop_of_tail py links key link (by rwa [hg])
      simp [hstale]
    have hlength := (List.filter_sublist (p := fun link => !isStale py links link)
      (l := [first])).length_le
    rw [← List.singleton_append, List.filter_append, hrest, List.append_nil]
    exact hlength

/-- Nothing is stale where no interface is used twice. -/
theorem isStale_of_nodup {py : PyValues} {links : List Fields}
    (h : (links.flatMap (ifaceKeys py)).Nodup) (link : Fields) : isStale py links link = false := by
  have hdrop : dupDrop py links = [] := by
    rw [dupDrop, List.flatMap_eq_nil_iff]
    intro key _
    have hlength : (sortedGroup py links key).length ≤ 1 := by
      rw [sortedGroup, List.length_insertionSort, ← count_flatMap_ifaceKeys]
      exact List.nodup_iff_count_le_one.mp h key
    rw [List.drop_eq_nil_of_le hlength, List.map_nil]
  simp [isStale, hdrop]

theorem isOrphan_ok {py : PyValues} {links : List Fields} {entry : String × JsonValue} {b : Bool}
    (h : isOrphan py links entry = .ok b) :
    b = true ↔ ∃ networkId, recordImplicit entry.2 = true ∧ pyInt entry.1 = some networkId ∧
      recordRefcount py links networkId ≠ 2 := by
  unfold isOrphan at h
  split at h
  next himplicit =>
    split at h
    next hnone =>
      cases h
      simp [hnone]
    next networkId hsome =>
      split at h
      next => cases h
      next =>
        cases h
        simp [himplicit, hsome]
  next himplicit =>
    cases h
    simp [himplicit]

theorem orphanStep_cases {py : PyValues} {state after : Repairing × Bool}
    {entry : String × JsonValue} (h : orphanStep py state entry = .ok after) :
    (isOrphan py state.1.links entry = .ok true ∧ after = (state.1.drop py entry, true)) ∨
      (isOrphan py state.1.links entry = .ok false ∧ after = state) := by
  unfold orphanStep at h
  cases ho : isOrphan py state.1.links entry with
  | error e =>
    rw [ho] at h
    cases h
  | ok b =>
    rw [ho] at h
    cases b with
    | true =>
      cases h
      exact Or.inl ⟨rfl, rfl⟩
    | false =>
      cases h
      exact Or.inr ⟨rfl, rfl⟩

theorem orphanStep_same {py : PyValues} {state : Repairing × Bool} {entry : String × JsonValue}
    (h : isOrphan py state.1.links entry = .ok false) : orphanStep py state entry = .ok state := by
  unfold orphanStep
  rw [h]
  rfl

theorem orphanSteps_changed {py : PyValues} {entries : List (String × JsonValue)} {s : Repairing}
    {after : Repairing × Bool} (h : entries.foldlM (orphanStep py) (s, true) = .ok after) :
    after.2 = true := by
  induction entries generalizing s with
  | nil =>
    cases h
    rfl
  | cons entry entries ih =>
    rw [List.foldlM_cons] at h
    cases hstep : orphanStep py (s, true) entry with
    | error e =>
      rw [hstep] at h
      cases h
    | ok next' =>
      rw [hstep] at h
      rcases orphanStep_cases hstep with ⟨_, rfl⟩ | ⟨_, rfl⟩
      · exact ih h
      · exact ih h

/-- A round that changes nothing has found no orphan. -/
theorem orphanSteps_same {py : PyValues} {entries : List (String × JsonValue)} {s after : Repairing} :
    entries.foldlM (orphanStep py) (s, false) = .ok (after, false) ↔
      after = s ∧ ∀ entry ∈ entries, isOrphan py s.links entry = .ok false := by
  induction entries with
  | nil =>
    refine ⟨fun h => ?_, fun h => by rw [h.1]; rfl⟩
    cases h
    exact ⟨rfl, by simp⟩
  | cons entry entries ih =>
    rw [List.foldlM_cons]
    cases hstep : orphanStep py (s, false) entry with
    | error e =>
      refine ⟨fun h => (by cases h), fun h => ?_⟩
      have hsame := @orphanStep_same py (s, false) entry (h.2 entry List.mem_cons_self)
      rw [hsame] at hstep
      cases hstep
    | ok next' =>
      rcases orphanStep_cases hstep with ⟨ho, rfl⟩ | ⟨ho, rfl⟩
      · refine ⟨fun h => ?_, fun h => ?_⟩
        · have htrue := orphanSteps_changed h
          cases htrue
        · have hentry := h.2 entry List.mem_cons_self
          rw [ho] at hentry
          cases hentry
      · refine ih.trans (and_congr_right fun _ => ?_)
        simp [ho]

theorem sweepNetworks_same {py : PyValues} {s after : Repairing} :
    sweepNetworks py s = .ok (after, false) ↔
      after = s ∧ ∀ entry ∈ s.networks, isOrphan py s.links entry = .ok false :=
  orphanSteps_same

theorem drop_networks {py : PyValues} {s : Repairing} {entry : String × JsonValue}
    (h : isOrphan py s.links entry = .ok true) :
    (s.drop py entry).networks = assocPop s.networks entry.1 := by
  obtain ⟨networkId, _, hid, _⟩ := (isOrphan_ok h).mp rfl
  simp [Repairing.drop, hid]

/-- What each network that is dropped keeps, a whole round keeps. -/
theorem orphanSteps_keeps {py : PyValues} {P : Repairing → Prop}
    {entries : List (String × JsonValue)}
    (hkeep : ∀ s, ∀ entry ∈ entries, isOrphan py s.links entry = .ok true → P s →
      P (s.drop py entry))
    {state after : Repairing × Bool} (h : entries.foldlM (orphanStep py) state = .ok after)
    (hs : P state.1) : P after.1 := by
  induction entries generalizing state with
  | nil =>
    cases h
    exact hs
  | cons entry entries ih =>
    rw [List.foldlM_cons] at h
    cases hstep : orphanStep py state entry with
    | error e =>
      rw [hstep] at h
      cases h
    | ok next' =>
      rw [hstep] at h
      refine ih (fun s e he => hkeep s e (List.mem_cons_of_mem _ he)) h ?_
      rcases orphanStep_cases hstep with ⟨ho, rfl⟩ | ⟨_, rfl⟩
      · exact hkeep state.1 entry List.mem_cons_self ho hs
      · exact hs

theorem assocPop_length_lt {entries : List (String × JsonValue)} {entry : String × JsonValue}
    (h : entry ∈ entries) : (assocPop entries entry.1).length < entries.length := by
  have hsub := assocPop_sublist entries entry.1
  refine lt_of_le_of_ne hsub.length_le fun he => ?_
  have hsame := hsub.eq_of_length he
  have hsome : (assocGet entries entry.1).isSome :=
    assocGet_isSome_iff.mpr (List.mem_map_of_mem h)
  rw [← hsame, assocGet_pop, if_pos rfl] at hsome
  cases hsome

theorem drop_length_le (py : PyValues) (s : Repairing) (entry : String × JsonValue) :
    (s.drop py entry).networks.length ≤ s.networks.length := by
  unfold Repairing.drop
  split
  next => exact Nat.le_refl _
  next => exact (assocPop_sublist _ _).length_le

/-- A round that changes something loses a network. -/
theorem orphanSteps_shrinks {py : PyValues} {entries : List (String × JsonValue)}
    {s : Repairing} {after : Repairing} (hin : ∀ entry ∈ entries, entry ∈ s.networks)
    (h : entries.foldlM (orphanStep py) (s, false) = .ok (after, true)) :
    after.networks.length < s.networks.length := by
  induction entries with
  | nil => cases h
  | cons entry entries ih =>
    rw [List.foldlM_cons] at h
    cases hstep : orphanStep py (s, false) entry with
    | error e =>
      rw [hstep] at h
      cases h
    | ok next' =>
      rw [hstep] at h
      rcases orphanStep_cases hstep with ⟨ho, rfl⟩ | ⟨_, rfl⟩
      · have hless : (s.drop py entry).networks.length < s.networks.length := by
          rw [drop_networks ho]
          exact assocPop_length_lt (hin entry List.mem_cons_self)
        refine Nat.lt_of_le_of_lt ?_ hless
        exact orphanSteps_keeps
          (P := fun r => r.networks.length ≤ (s.drop py entry).networks.length)
          (fun r e _ _ hr => Nat.le_trans (drop_length_le py r e) hr) h (Nat.le_refl _)
      · exact ih (fun e he => hin e (List.mem_cons_of_mem _ he)) h

/-- The networks that are gone: implicit ones with an integer id, whose key and whose links are no
longer there, each reported once. -/
structure NetworksGone (py : PyValues) (networks : List (String × JsonValue)) (result : Repairing)
    (gone : List (String × JsonValue)) : Prop where
  whole : (gone ++ result.networks).Perm networks
  reported : result.removedNetworks = gone.map Prod.snd
  implicit : ∀ entry ∈ gone, recordImplicit entry.2 = true
  absent : ∀ entry ∈ gone, entry.1 ∉ result.networks.map Prod.fst
  unlinked : ∀ entry ∈ gone, ∃ networkId, pyInt entry.1 = some networkId ∧
    ∀ link ∈ result.links, touchesNetwork py networkId link = false

/-- What `repair` promises of its output. -/
structure RepairLaw (py : PyValues) (links : List Fields) (networks : List (String × JsonValue))
    (result : Repairing) : Prop where
  distinct : (result.links.flatMap (ifaceKeys py)).Nodup
  paired : ∀ entry ∈ result.networks, ∀ networkId, recordImplicit entry.2 = true →
    pyInt entry.1 = some networkId → recordRefcount py result.links networkId = 2
  order : result.links.Sublist links ∧ result.networks.Sublist networks
  reported : (result.removedLinks ++ result.links).Perm links
  gone : ∃ gone, NetworksGone py networks result gone
  again : repairParts py result.links result.networks =
    .ok ⟨result.links, result.networks, [], []⟩

/-- Between the first pass and the end. -/
structure RepairPending (py : PyValues) (links : List Fields) (networks : List (String × JsonValue))
    (s : Repairing) : Prop where
  order : s.networks.Sublist networks
  reported : (s.removedLinks ++ s.links).Perm links
  gone : ∃ gone, NetworksGone py networks s gone

theorem assocPop_eq_filter (entries : List (String × JsonValue)) (key : String) :
    assocPop entries key = entries.filter (fun entry => decide (entry.1 ≠ key)) := by
  induction entries with
  | nil => rfl
  | cons entry rest ih =>
    obtain ⟨other, value⟩ := entry
    by_cases hkey : other = key <;> simp [assocPop, hkey, ih]

theorem assocPop_perm {entries : List (String × JsonValue)}
    (hkeys : (entries.map Prod.fst).Nodup) {entry : String × JsonValue} (h : entry ∈ entries) :
    (entry :: assocPop entries entry.1).Perm entries := by
  induction entries with
  | nil => cases h
  | cons head rest ih =>
    rw [List.map_cons, List.nodup_cons] at hkeys
    rw [assocPop_eq_filter]
    rcases List.mem_cons.mp h with rfl | hrest
    · have hkeep : rest.filter (fun other => decide (other.1 ≠ entry.1)) = rest := by
        rw [List.filter_eq_self]
        intro other hother
        have hne : other.1 ≠ entry.1 := fun he => hkeys.1 (he ▸ List.mem_map_of_mem hother)
        simpa using hne
      rw [List.filter_cons_of_neg (by simp), hkeep]
    · have hne : head.1 ≠ entry.1 := fun he => hkeys.1 (he ▸ List.mem_map_of_mem hrest)
      rw [List.filter_cons_of_pos (by simpa using hne), ← assocPop_eq_filter]
      exact (List.Perm.swap head entry _).trans ((ih hkeys.2 hrest).cons head)

theorem NetworksGone.drop {py : PyValues} {networks : List (String × JsonValue)}
    (hkeys : (networks.map Prod.fst).Nodup) {s : Repairing} {entry : String × JsonValue}
    {gone : List (String × JsonValue)} {networkId : Int} (hentry : entry ∈ s.networks)
    (himplicit : recordImplicit entry.2 = true) (hid : pyInt entry.1 = some networkId)
    (horder : s.networks.Sublist networks) (h : NetworksGone py networks s gone) :
    NetworksGone py networks (s.drop py entry) (gone ++ [entry]) := by
  have hpop := assocPop_perm (hkeys.sublist (horder.map Prod.fst)) hentry
  have habsent : entry.1 ∉ (assocPop s.networks entry.1).map Prod.fst := by
    rw [assocPop_eq_filter]
    simp
  have hall : ∀ P : String × JsonValue → Prop, (∀ e ∈ gone, P e) → P entry →
      ∀ e ∈ gone ++ [entry], P e := by
    intro P hold hnew e he
    rcases List.mem_append.mp he with he | he
    · exact hold e he
    · rw [List.mem_singleton.mp he]
      exact hnew
  refine ⟨?_, ?_, hall _ h.implicit himplicit, hall _ ?_ ?_, hall _ ?_ ?_⟩ <;>
    simp only [Repairing.drop, hid]
  · rw [List.append_assoc]
    exact (List.Perm.append_left gone hpop).trans h.whole
  · rw [h.reported, List.map_append]
    rfl
  · intro e he hin
    exact h.absent e he (((assocPop_sublist _ _).map Prod.fst).subset hin)
  · exact habsent
  · intro e he
    obtain ⟨id, hid, hfree⟩ := h.unlinked e he
    exact ⟨id, hid, fun link hlink => hfree link (List.mem_of_mem_filter hlink)⟩
  · refine ⟨networkId, rfl, fun link hlink => ?_⟩
    simpa using (List.mem_filter.mp hlink).2

theorem RepairPending.drop {py : PyValues} {links : List Fields}
    {networks : List (String × JsonValue)} (hkeys : (networks.map Prod.fst).Nodup) {s : Repairing}
    {entry : String × JsonValue} (hentry : entry ∈ s.networks)
    (ho : isOrphan py s.links entry = .ok true) (h : RepairPending py links networks s) :
    RepairPending py links networks (s.drop py entry) := by
  obtain ⟨networkId, himplicit, hid, _⟩ := (isOrphan_ok ho).mp rfl
  obtain ⟨gone, hgone⟩ := h.gone
  refine ⟨?_, ?_, gone ++ [entry], hgone.drop hkeys hentry himplicit hid h.order⟩ <;>
    simp only [Repairing.drop, hid]
  · exact (assocPop_sublist _ _).trans h.order
  · refine List.Perm.trans ?_ h.reported
    rw [List.append_assoc]
    refine List.Perm.append_left _ ?_
    exact List.filter_append_perm _ _

theorem orphanSteps_pending {py : PyValues} {links : List Fields}
    {networks : List (String × JsonValue)} (hkeys : (networks.map Prod.fst).Nodup)
    {entries : List (String × JsonValue)} (hentries : (entries.map Prod.fst).Nodup)
    {state after : Repairing × Bool} (hin : ∀ entry ∈ entries, entry ∈ state.1.networks)
    (h : entries.foldlM (orphanStep py) state = .ok after)
    (hs : RepairPending py links networks state.1) :
    RepairPending py links networks after.1 := by
  induction entries generalizing state with
  | nil =>
    cases h
    exact hs
  | cons entry entries ih =>
    rw [List.map_cons, List.nodup_cons] at hentries
    rw [List.foldlM_cons] at h
    cases hstep : orphanStep py state entry with
    | error e =>
      rw [hstep] at h
      cases h
    | ok next' =>
      rw [hstep] at h
      rcases orphanStep_cases hstep with ⟨ho, rfl⟩ | ⟨_, rfl⟩
      · refine ih hentries.2 ?_ h (hs.drop hkeys (hin entry List.mem_cons_self) ho)
        intro other hother
        have hne : other.1 ≠ entry.1 := by
          intro he
          exact hentries.1 (he ▸ List.mem_map_of_mem hother)
        rw [drop_networks ho, assocPop_eq_filter]
        exact List.mem_filter.mpr ⟨hin other (List.mem_cons_of_mem _ hother), by simpa using hne⟩
      · exact ih hentries.2 (fun other hother => hin other (List.mem_cons_of_mem _ hother)) h hs

theorem drop_links_sublist (py : PyValues) (s : Repairing) (entry : String × JsonValue) :
    (s.drop py entry).links.Sublist s.links := by
  unfold Repairing.drop
  split
  next => exact List.Sublist.refl _
  next => exact List.filter_sublist

/-- A lab without corruption is left as it is. -/
theorem repairParts_clean {py : PyValues} {links : List Fields}
    {networks : List (String × JsonValue)}
    (hread : (links.flatMap endpointFields).any (ifaceKeyOverflows py) = false)
    (hdistinct : (links.flatMap (ifaceKeys py)).Nodup)
    (hpaired : ∀ entry ∈ networks, isOrphan py links entry = .ok false) :
    repairParts py links networks = .ok ⟨links, networks, [], []⟩ := by
  have hfirst : dropStale py links networks = .ok ⟨links, networks, [], []⟩ := by
    unfold dropStale
    rw [if_neg (by rw [hread]; exact Bool.false_ne_true)]
    simp [isStale_of_nodup hdistinct]
  have hsweep : sweepNetworks py ⟨links, networks, [], []⟩ =
      .ok (⟨links, networks, [], []⟩, false) := sweepNetworks_same.mpr ⟨rfl, hpaired⟩
  unfold repairParts
  rw [hfirst]
  change untilStable (sweepNetworks py) (networks.length + 1) ⟨links, networks, [], []⟩ = _
  unfold untilStable
  rw [hsweep]
  rfl

theorem repairParts_law {py : PyValues} {links : List Fields} {networks : List (String × JsonValue)}
    (hkeys : (networks.map Prod.fst).Nodup) {result : Repairing}
    (h : repairParts py links networks = .ok result) : RepairLaw py links networks result := by
  unfold repairParts at h
  cases hfirst : dropStale py links networks with
  | error e =>
    rw [hfirst] at h
    cases h
  | ok s =>
    rw [hfirst] at h
    change untilStable (sweepNetworks py) (networks.length + 1) s = .ok result at h
    unfold dropStale at hfirst
    split at hfirst
    next => cases hfirst
    next hread =>
      cases hfirst
      have hsub : result.links.Sublist (links.filter (fun link => !isStale py links link)) :=
        untilStable_keeps
          (P := fun r => r.links.Sublist (links.filter (fun link => !isStale py links link)))
          (fun s next' changed hs hr => orphanSteps_keeps
            (P := fun r => r.links.Sublist (links.filter (fun link => !isStale py links link)))
            (fun r e _ _ hr => (drop_links_sublist py r e).trans hr) hs hr) h
          (List.Sublist.refl _)
      have hpending : RepairPending py links networks result := by
        refine untilStable_keeps (fun s next' changed hs hr => ?_) h
          ⟨List.Sublist.refl _, List.filter_append_perm _ _, [], List.Perm.refl _, rfl, by simp,
            by simp, by simp⟩
        exact orphanSteps_pending hkeys (hkeys.sublist (hr.order.map Prod.fst))
          (fun _ hentry => hentry) hs hr
      have hstable := untilStable_stable
        (fun s next' hs => orphanSteps_shrinks (fun _ he => he) hs)
        (fun s next' hs => (sweepNetworks_same.mp hs).1) (Nat.lt_succ_self _) h
      have hnone := (sweepNetworks_same.mp hstable).2
      have hdistinct : (result.links.flatMap (ifaceKeys py)).Nodup :=
        (nodup_ifaceKeys_of_kept py links).sublist (hsub.flatMap _)
      have hlinks := hsub.trans List.filter_sublist
      refine ⟨hdistinct, ?_, ⟨hlinks, hpending.order⟩, hpending.reported, hpending.gone,
        ?_⟩
      · intro entry hentry networkId himplicit hid
        by_contra hne
        have ho := (isOrphan_ok (hnone entry hentry)).mpr ⟨networkId, himplicit, hid, hne⟩
        cases ho
      · refine repairParts_clean ?_ hdistinct hnone
        rw [Bool.not_eq_true] at hread
        rw [List.any_eq_false] at hread ⊢
        exact fun ep hep => hread ep ((hlinks.flatMap _).subset hep)

theorem keyAtMost_trans {a b c : Nat × String} (hab : keyAtMost a b = true)
    (hbc : keyAtMost b c = true) : keyAtMost a c = true := by
  simp only [keyAtMost, Bool.or_eq_true, Bool.and_eq_true, decide_eq_true_eq] at hab hbc ⊢
  rcases hab with hab | ⟨hab, hab'⟩ <;> rcases hbc with hbc | ⟨hbc, hbc'⟩
  · omega
  · omega
  · omega
  · exact Or.inr ⟨hab.trans hbc, hab'.trans hbc'⟩

theorem keyAtMost_total (a b : Nat × String) :
    keyAtMost a b = true ∨ keyAtMost b a = true := by
  simp only [keyAtMost, Bool.or_eq_true, Bool.and_eq_true, decide_eq_true_eq]
  rcases Nat.lt_trichotomy a.1 b.1 with hlt | he | hgt
  · exact Or.inl (Or.inl hlt)
  · rcases le_total a.2 b.2 with hle | hle
    · exact Or.inl (Or.inr ⟨he, hle⟩)
    · exact Or.inr (Or.inr ⟨he.symm, hle⟩)
  · exact Or.inr (Or.inl hgt)

theorem sortedGroup_pairwise (py : PyValues) (links : List Fields) (key : Int × Int) :
    (sortedGroup py links key).Pairwise (fun a b =>
      keyAtMost (linkIdSortKey (linkIdText py b)) (linkIdSortKey (linkIdText py a)) = true) := by
  have htotal : Std.Total (fun a b : Fields =>
      keyAtMost (linkIdSortKey (linkIdText py b)) (linkIdSortKey (linkIdText py a)) = true) :=
    ⟨fun a b => keyAtMost_total _ _⟩
  have htrans : IsTrans Fields (fun a b =>
      keyAtMost (linkIdSortKey (linkIdText py b)) (linkIdSortKey (linkIdText py a)) = true) :=
    ⟨fun a b c hab hbc => keyAtMost_trans hbc hab⟩
  exact List.pairwise_insertionSort _ _

theorem mem_around {before after : List Fields} {link other : Fields}
    (h : other ∈ before ++ link :: after) (hne : other ≠ link) : other ∈ before ++ after := by
  rcases List.mem_append.mp h with hbefore | hlast
  · exact List.mem_append_left _ hbefore
  · exact List.mem_append_right _ ((List.mem_cons.mp hlast).resolve_left hne)

/-- Of the links with the id of a link the group has that link, and only once. -/
theorem linkGroup_once {py : PyValues} {before after : List Fields} {link : Fields}
    (hown : (ifaceKeys py link).Nodup)
    (hother : ∀ other ∈ before ++ after, linkIdText py other ≠ linkIdText py link)
    (key : Int × Int) :
    ((linkGroup py (before ++ link :: after) key).filter
      (fun l => decide (linkIdText py l = linkIdText py link))).length ≤ 1 := by
  have hnone : ∀ list : List Fields, (∀ other ∈ list, linkIdText py other ≠ linkIdText py link) →
      (linkGroup py list key).filter (fun l => decide (linkIdText py l = linkIdText py link)) =
        [] := by
    intro list hlist
    rw [← linkGroup_filter, List.filter_eq_nil_iff.mpr fun l hl => by simpa using hlist l hl]
    rfl
  have hsplit : linkGroup py (before ++ link :: after) key = linkGroup py before key ++
      (List.replicate ((ifaceKeys py link).count key) link ++ linkGroup py after key) := by
    simp [linkGroup]
  rw [hsplit, List.filter_append, List.filter_append,
    hnone before fun l hl => hother l (List.mem_append_left _ hl),
    hnone after fun l hl => hother l (List.mem_append_right _ hl),
    List.nil_append, List.append_nil, List.filter_replicate]
  split
  next =>
    rw [List.length_replicate]
    exact List.nodup_iff_count_le_one.mp hown key
  next => exact Nat.zero_le _

/-- A link that is the newest on each of its interfaces is not stale. -/
theorem newest_not_stale {py : PyValues} {before after : List Fields} {link : Fields}
    (hown : (ifaceKeys py link).Nodup)
    (hnewest : ∀ other ∈ before ++ after, linkIdText py other ≠ linkIdText py link ∧
      ∀ key ∈ ifaceKeys py link, key ∈ ifaceKeys py other →
        keyAtMost (linkIdSortKey (linkIdText py link)) (linkIdSortKey (linkIdText py other)) =
          false) :
    isStale py (before ++ link :: after) link = false := by
  by_contra hstale
  rw [Bool.not_eq_false, isStale, List.contains_iff_mem, dupDrop, List.mem_flatMap] at hstale
  obtain ⟨key, _, hdrop⟩ := hstale
  obtain ⟨late, hlate, hid⟩ := List.mem_map.mp hdrop
  cases hg : sortedGroup py (before ++ link :: after) key with
  | nil => simp [hg] at hlate
  | cons first rest =>
    rw [hg, List.drop_one, List.tail_cons] at hlate
    have hperm : (linkGroup py (before ++ link :: after) key).Perm (first :: rest) := by
      rw [← hg]
      exact (List.perm_insertionSort _ _).symm
    have hsort := sortedGroup_pairwise py (before ++ link :: after) key
    rw [hg] at hsort
    have hcount := linkGroup_once hown (fun other hin => (hnewest other hin).1) key
    have hfirst : linkIdText py first ≠ linkIdText py link := by
      intro hsame
      rw [(hperm.filter _).length_eq, List.filter_cons_of_pos (by simpa using hsame)] at hcount
      have hin : late ∈ rest.filter (fun l => decide (linkIdText py l = linkIdText py link)) :=
        List.mem_filter.mpr ⟨hlate, by simpa using hid⟩
      have hpos := List.length_pos_of_mem hin
      simp only [List.length_cons] at hcount
      omega
    have hmem : ∀ l ∈ first :: rest, l ∈ before ++ link :: after ∧ key ∈ ifaceKeys py l :=
      fun l hl => mem_linkGroup (hperm.mem_iff.mpr hl)
    obtain ⟨hlatein, hlatekey⟩ := hmem late (List.mem_cons_of_mem _ hlate)
    obtain rfl : late = link := by
      by_contra hne
      exact (hnewest late (mem_around hlatein hne)).1 hid
    obtain ⟨hfirstin, hfirstkey⟩ := hmem first List.mem_cons_self
    have hrest : first ∈ before ++ after := by
      refine mem_around hfirstin ?_
      rintro rfl
      exact hfirst rfl
    have hold := (hnewest first hrest).2 key hlatekey hfirstkey
    have hsorted := (List.pairwise_cons.mp hsort).1 late hlate
    rw [hold] at hsorted
    cases hsorted

/-- No number of an endpoint is an infinity. -/
def FiniteNumbers (py : PyValues) (links : List Fields) : Prop :=
  ∀ ep ∈ links.flatMap endpointFields, ifaceKeyOverflows py ep = false ∧ networkRef py ep ≠ .overflow

theorem FiniteNumbers.sublist {py : PyValues} {links kept : List Fields}
    (h : FiniteNumbers py links) (hsub : kept.Sublist links) : FiniteNumbers py kept :=
  fun ep hep => h ep ((hsub.flatMap _).subset hep)

theorem isOrphan_returns {py : PyValues} {links : List Fields} (h : FiniteNumbers py links)
    (entry : String × JsonValue) : ∃ b, isOrphan py links entry = .ok b := by
  have hfinite : refOverflows py links = false := by
    rw [refOverflows, List.any_eq_false]
    intro ep hep
    simpa using (h ep hep).2
  unfold isOrphan
  split
  next =>
    split
    next => exact ⟨false, rfl⟩
    next => exact ⟨_, if_neg (by rw [hfinite]; exact Bool.false_ne_true)⟩
  next => exact ⟨false, rfl⟩

theorem orphanSteps_returns {py : PyValues} {entries : List (String × JsonValue)}
    {state : Repairing × Bool} (h : FiniteNumbers py state.1.links) :
    ∃ after, entries.foldlM (orphanStep py) state = .ok after ∧
      FiniteNumbers py after.1.links := by
  induction entries generalizing state with
  | nil => exact ⟨state, rfl, h⟩
  | cons entry entries ih =>
    rw [List.foldlM_cons]
    obtain ⟨b, hb⟩ := isOrphan_returns h entry
    unfold orphanStep
    rw [hb]
    cases b with
    | true => exact ih (h.sublist (drop_links_sublist py state.1 entry))
    | false => exact ih h

theorem repairParts_returns {py : PyValues} {links : List Fields}
    (networks : List (String × JsonValue)) (h : FiniteNumbers py links) :
    ∃ result, repairParts py links networks = .ok result := by
  have hread : (links.flatMap endpointFields).any (ifaceKeyOverflows py) = false :=
    List.any_eq_false.mpr fun ep hep => by simp [(h ep hep).1]
  unfold repairParts dropStale
  rw [if_neg (by rw [hread]; exact Bool.false_ne_true)]
  exact untilStable_returns (P := fun s => FiniteNumbers py s.links)
    (fun s hs => @orphanSteps_returns py s.networks (s, false) hs) (h.sublist List.filter_sublist)

theorem items_filterMap_obj (links : List Fields) :
    (links.map JsonValue.obj).filterMap JsonValue.fields? = links := by
  rw [List.filterMap_map]
  exact List.filterMap_some

theorem labLinks_set {py : PyValues} {lab : Fields} {links : List Fields}
    (h : assocGet lab "links" = some (.arr (links.map .obj))) : labLinks py lab = .ok links := by
  have hall : (links.map JsonValue.obj).all (fun item => item.fields?.isSome) = true := by
    simp [JsonValue.fields?]
  unfold labLinks fieldOrElse fieldOr JsonValue.orElse
  rw [h, Option.getD_some]
  cases links with
  | nil => rfl
  | cons link links =>
    simp only [JsonValue.truthy, List.map_cons, List.isEmpty_cons, Bool.not_false, if_true,
      JsonValue.items?]
    rw [List.map_cons] at hall
    rw [if_pos hall, ← List.map_cons, items_filterMap_obj]

theorem labNetworks_set {py : PyValues} {lab : Fields} {networks : List (String × JsonValue)}
    (h : assocGet lab "networks" = some (.obj networks)) : labNetworks py lab = .ok networks := by
  unfold labNetworks fieldOrElse fieldOr JsonValue.orElse
  rw [h, Option.getD_some]
  cases networks with
  | nil => rfl
  | cons entry networks => rfl

/-- A lab that can be read is repaired: no interface is used twice, every implicit network has
two endpoints, what is gone is reported, and a second repair changes nothing. -/
theorem repair_law {py : PyValues} {lab : Fields} {links : List Fields}
    {networks : List (String × JsonValue)} (hlinks : labLinks py lab = .ok links)
    (hnetworks : labNetworks py lab = .ok networks) (hkeys : (networks.map Prod.fst).Nodup)
    (hfinite : FiniteNumbers py links) :
    ∃ repaired result, repair py lab = .ok (repaired, result.removedLinks, result.removedNetworks) ∧
      RepairLaw py links networks result ∧ labLinks py repaired = .ok result.links ∧
        labNetworks py repaired = .ok result.networks ∧
          repair py repaired = .ok (repaired, [], []) ∧
            ∀ key, key ≠ "links" → key ≠ "networks" → assocGet repaired key = assocGet lab key := by
  obtain ⟨result, hresult⟩ := repairParts_returns networks hfinite
  have hlaw := repairParts_law hkeys hresult
  let repaired := assocSet (assocSet lab "links" (.arr (result.links.map JsonValue.obj))) "networks"
    (.obj result.networks)
  have hgetlinks : assocGet repaired "links" = some (.arr (result.links.map .obj)) := by
    simp [repaired, assocGet_set]
  have hgetnetworks : assocGet repaired "networks" = some (.obj result.networks) := by
    simp [repaired, assocGet_set]
  refine ⟨repaired, result, ?_, hlaw, labLinks_set hgetlinks, labNetworks_set hgetnetworks, ?_, ?_⟩
  · unfold repair
    rw [hlinks, hnetworks]
    change (do
      let s ← repairParts py links networks
      return (_, _, _)) = _
    rw [hresult]
    rfl
  · unfold repair
    rw [labLinks_set hgetlinks, labNetworks_set hgetnetworks]
    change (do
      let s ← repairParts py result.links result.networks
      return (assocSet (assocSet repaired "links" (.arr (s.links.map JsonValue.obj))) "networks"
        (.obj s.networks), s.removedLinks, s.removedNetworks)) = _
    rw [hlaw.again]
    change Except.ok (assocSet (assocSet repaired "links" (.arr (result.links.map JsonValue.obj)))
      "networks" (.obj result.networks), _, _) = _
    rw [assocSet_get hgetlinks, assocSet_get hgetnetworks]
  · intro key hl hn
    simp only [repaired, assocGet_set, if_neg (Ne.symm hl), if_neg (Ne.symm hn)]

/-- A link of the first interface of a node to a network. -/
def bridgeLink (id : String) (node network : Int) : Fields :=
  [("id", .str id), ("from", .obj [("node_id", .int node)]),
    ("to", .obj [("network_id", .int network)])]

def sharedLinks : List Fields :=
  [bridgeLink "lnk_001" 1 1, bridgeLink "lnk_002" 1 2, bridgeLink "lnk_003" 2 2]

def sharedNetworks : List (String × JsonValue) :=
  [("1", .obj [("implicit", .bool true)]), ("2", .obj [("implicit", .bool true)])]

def sharedLab : Fields :=
  [("links", .arr (sharedLinks.map .obj)), ("networks", .obj sharedNetworks)]

theorem sharedLinks_finite : FiniteNumbers plainPy sharedLinks := by
  unfold FiniteNumbers
  decide

theorem shared_interface_repaired :
    ∃ repaired result,
      repair plainPy sharedLab = .ok (repaired, result.removedLinks, result.removedNetworks) ∧
        RepairLaw plainPy sharedLinks sharedNetworks result := by
  obtain ⟨repaired, result, hrepair, hlaw, _⟩ := @repair_law plainPy sharedLab sharedLinks
    sharedNetworks rfl rfl (by decide) sharedLinks_finite
  exact ⟨repaired, result, hrepair, hlaw⟩

/-- A link that is the newest on each of its interfaces goes only with a network it is on. -/
theorem newest_link_stays {py : PyValues} {before after : List Fields} {link : Fields}
    {networks : List (String × JsonValue)} {result : Repairing}
    (hown : (ifaceKeys py link).Nodup)
    (hnewest : ∀ other ∈ before ++ after, linkIdText py other ≠ linkIdText py link ∧
      ∀ key ∈ ifaceKeys py link, key ∈ ifaceKeys py other →
        keyAtMost (linkIdSortKey (linkIdText py link)) (linkIdSortKey (linkIdText py other)) =
          false)
    (h : repairParts py (before ++ link :: after) networks = .ok result) :
    link ∈ result.links ∨ ∃ entry ∈ networks, entry.2 ∈ result.removedNetworks ∧
      entry.1 ∉ result.networks.map Prod.fst ∧
      ∃ networkId, pyInt entry.1 = some networkId ∧ touchesNetwork py networkId link = true := by
  have hstay := newest_not_stale hown hnewest
  let P : Repairing → Prop := fun s => s.networks.Sublist networks ∧
    (link ∈ s.links ∨ ∃ entry ∈ networks, entry.2 ∈ s.removedNetworks ∧
      entry.1 ∉ s.networks.map Prod.fst ∧ ∃ networkId, pyInt entry.1 = some networkId ∧ touchesNetwork py networkId link = true)
  have hdrop : ∀ s, ∀ entry ∈ networks, isOrphan py s.links entry = .ok true → P s →
      P (s.drop py entry) := by
    rintro s entry hentry ho ⟨hsub, hs⟩
    obtain ⟨networkId, _, hid, _⟩ := (isOrphan_ok ho).mp rfl
    refine ⟨?_, ?_⟩ <;> simp only [Repairing.drop, hid]
    · exact (assocPop_sublist _ _).trans hsub
    · rcases hs with hin | ⟨gone, hgone, hrecord, habsent, hon⟩
      · by_cases htouch : touchesNetwork py networkId link = true
        · refine Or.inr ⟨entry, hentry, by simp, ?_, networkId, hid, htouch⟩
          rw [assocPop_eq_filter]
          simp
        · exact Or.inl (List.mem_filter.mpr ⟨hin, by simpa using htouch⟩)
      · refine Or.inr ⟨gone, hgone, List.mem_append_left _ hrecord, ?_, hon⟩
        exact fun hin => habsent (((assocPop_sublist _ _).map Prod.fst).subset hin)
  unfold repairParts dropStale at h
  split at h
  next => cases h
  next =>
    have hresult := untilStable_keeps (P := P) (fun s after changed hs hP =>
      orphanSteps_keeps (P := P) (fun r e he => hdrop r e (hP.1.subset he)) hs hP) h
      ⟨List.Sublist.refl _, Or.inl (List.mem_filter.mpr ⟨by simp, by rw [hstay]; rfl⟩)⟩
    exact hresult.2

theorem newer_link_stays :
    ∃ result, repairParts plainPy sharedLinks sharedNetworks = .ok result ∧
      (bridgeLink "lnk_002" 1 2 ∈ result.links ∨
        ∃ entry ∈ sharedNetworks, entry.2 ∈ result.removedNetworks ∧
          entry.1 ∉ result.networks.map Prod.fst ∧ ∃ networkId, pyInt entry.1 = some networkId ∧
            touchesNetwork plainPy networkId (bridgeLink "lnk_002" 1 2) = true) := by
  obtain ⟨result, hresult⟩ := repairParts_returns sharedNetworks sharedLinks_finite
  refine ⟨result, hresult, ?_⟩
  exact @newest_link_stays plainPy [bridgeLink "lnk_001" 1 1] [bridgeLink "lnk_003" 2 2]
    (bridgeLink "lnk_002" 1 2) sharedNetworks result (by decide) (by decide) hresult

end NovaVe
