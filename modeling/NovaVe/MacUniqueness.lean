import NovaVe.PlannedMacs
import NovaVe.Runs

namespace NovaVe

/-- A lab and the registry. -/
structure MacLab where
  lab : Lab
  entries : MacEntries

inductive MacLabAction
  | patch (nodeId interfaceIndex : Int) (body : IfacePatch)
  | createLink (a b : Endpoint) (style : Option String) (hotAttach : Option (List Stamp))
  | deleteLink (linkId : String) (detached : Bool)
  | persist (mac : PlannedMac)
  | restart (others : List LabFile)
  | elsewhere (labPath : String) (data : Lab)

structure MacLabEnv where
  lower : String → String
  labPath : String
  owner : String → Option IpamTarget

def MacLabEnv.recompute (env : MacLabEnv) (entries : MacEntries) (lab : Lab) : MacEntries :=
  recomputeForLab env.lower entries env.labPath lab

def MacLabEnv.step (env : MacLabEnv) (s : MacLab) : MacLabAction → MacLab
  | .patch nodeId interfaceIndex body =>
    match patchNodeInterface env.lower env.labPath s.entries s.lab nodeId interfaceIndex body with
    | .error _ => s
    | .ok lab => ⟨lab, env.recompute s.entries lab⟩
  | .createLink a b style hotAttach =>
    match createLinkData s.lab a b style with
    | .error _ => s
    | .ok created =>
      let entries := env.recompute s.entries created.data
      match createLink s.lab a b style hotAttach with
      -- the snapshot is written back and registered again
      | .error _ => { s with entries := env.recompute entries s.lab }
      | .ok lab => ⟨lab, entries⟩
  | .deleteLink linkId detached =>
    match deleteLinkLocked env.owner s.lab linkId detached with
    | .ok (some deleted) => ⟨deleted.data, env.recompute s.entries deleted.data⟩
    | _ => s
  -- no recomputation
  | .persist mac =>
    match setPlannedMac mac s.lab with
    | .error _ => s
    | .ok lab => { s with lab := lab }
  | .restart others =>
    { s with entries := rebuildAll env.lower (fun _ => none) (⟨env.labPath, some s.lab⟩ :: others) }
  | .elsewhere labPath data =>
    if labPath = env.labPath then s
    else { s with entries := recomputeForLab env.lower s.entries labPath data }

def Lab.Attached (lab : Lab) (nodeId interfaceIndex networkId : Int) : Prop :=
  some (nodeId, interfaceIndex, networkId) ∈ lab.links.map Link.attachment?

/-- No two interfaces of a lab that are linked to one network have the same planned address. -/
def Lab.MacsDiffer (lower : String → String) (lab : Lab) : Prop :=
  ∀ key iface other, lab.PlansMac lower key iface → lab.PlansMac lower key other → iface = other

/-- A PATCH that would repeat an address on a network of the interface finds another owner of it
registered; and neither a link nor a persisted address repeats one. -/
def MacLabEnv.MacOk (env : MacLabEnv) (s : MacLab) : MacLabAction → Prop
  | .patch nodeId interfaceIndex body =>
    ∀ given, body.plannedMac = some (some given) → given ≠ "" →
      ∀ networkId other, s.lab.Attached nodeId interfaceIndex networkId →
        other ≠ (nodeId, interfaceIndex) →
        s.lab.PlansMac env.lower
          (networkId, normalizeMac env.lower (normalizeMac env.lower given)) other →
          derivedNetworkId s.lab.links nodeId interfaceIndex.toNat ≠ 0 ∧
            ∃ owner, s.entries (derivedNetworkId s.lab.links nodeId interfaceIndex.toNat,
                normalizeMac env.lower (normalizeMac env.lower given)) = some owner ∧
              owner ≠ ⟨env.labPath, nodeId, interfaceIndex⟩
  | .createLink a b _ (some _) =>
    LinkAccepted s.lab a b → ∀ nodeId interfaceIndex networkId mac,
      (nodeId, interfaceIndex, networkId) ∈ newAttachments s.lab a b →
      plannedAt env.lower s.lab nodeId interfaceIndex = some mac →
        (∀ other, s.lab.PlansMac env.lower (networkId, mac) other →
          other = (nodeId, interfaceIndex)) ∧
        ∀ otherNode otherIndex, (otherNode, otherIndex, networkId) ∈ newAttachments s.lab a b →
          plannedAt env.lower s.lab otherNode otherIndex = some mac →
            (otherNode, otherIndex) = (nodeId, interfaceIndex)
  | .persist mac =>
    ∀ node position, s.lab.nodes.get? mac.nodeId = some node →
      lookupInterface node.interfaces mac.interfaceIndex = some position →
      (node.interfaces[position]?.bind Iface.plannedMac).getD "" = "" →
        ∀ networkId other, s.lab.Attached mac.nodeId position networkId →
          s.lab.PlansMac env.lower (networkId, normalizeMac env.lower mac.plannedMac) other →
            other = (mac.nodeId, (position : Int))
  | _ => True

theorem plannedAt_eq_some {lower : String → String} {lab : Lab} {nodeId interfaceIndex : Int}
    {mac : String} :
    plannedAt lower lab nodeId interfaceIndex = some mac ↔
      ∃ text, (lab.interfaceAt nodeId interfaceIndex).bind Iface.plannedMac = some text ∧
        text ≠ "" ∧ normalizeMac lower text = mac ∧ mac ≠ "" := by
  unfold plannedAt
  cases (lab.interfaceAt nodeId interfaceIndex).bind Iface.plannedMac with
  | none => simp
  | some text =>
    dsimp only
    by_cases hempty : text = "" ∨ normalizeMac lower text = ""
    · rw [if_pos hempty]
      constructor
      · intro h
        cases h
      · intro h
        obtain ⟨other, hother, hne, rfl, hmac⟩ := h
        cases hother
        rcases hempty with he | he
        · exact absurd he hne
        · exact absurd he hmac
    · rw [if_neg hempty]
      obtain ⟨hne, hmac⟩ := not_or.mp hempty
      constructor
      · intro h
        cases h
        exact ⟨text, rfl, hne, rfl, hmac⟩
      · intro h
        obtain ⟨other, hother, _, rfl, _⟩ := h
        cases hother
        rfl

/-- The addresses stay different when an interface is given one that no other interface of its
networks has. -/
theorem Lab.MacsDiffer.setInterface {lower : String → String} {lab : Lab} (h : lab.MacsDiffer lower)
    {nodeId : Int} {node : Node} (hget : lab.nodes.get? nodeId = some node) {position : Nat}
    (hposition : position < node.interfaces.length) {f : Iface → Iface} {planned : Option String}
    (hf : ∀ iface, (f iface).plannedMac = planned)
    (hnew : ∀ text networkId other, planned = some text → text ≠ "" →
      lab.Attached nodeId position networkId → other ≠ (nodeId, (position : Int)) →
        ¬ lab.PlansMac lower (networkId, normalizeMac lower text) other) :
    (lab.setInterface nodeId node position f).MacsDiffer lower := by
  have hother : ∀ {key iface}, iface ≠ (nodeId, (position : Int)) →
      (lab.setInterface nodeId node position f).PlansMac lower key iface →
        lab.PlansMac lower key iface := by
    intro key iface hne hplans
    obtain ⟨hmac, hattached⟩ := hplans
    obtain ⟨text, htext, hrest⟩ := plannedAt_eq_some.mp hmac
    rw [setInterface_plannedMac hget hposition hf,
      if_neg (fun he => hne (Prod.ext he.1 he.2))] at htext
    exact ⟨plannedAt_eq_some.mpr ⟨text, htext, hrest⟩, hattached⟩
  have hself : ∀ {key other}, other ≠ (nodeId, (position : Int)) →
      (lab.setInterface nodeId node position f).PlansMac lower key (nodeId, (position : Int)) →
        ¬ (lab.setInterface nodeId node position f).PlansMac lower key other := by
    intro key other hne hplans hagain
    obtain ⟨hmac, hattached⟩ := plansMac_iff.mp hplans
    obtain ⟨text, htext, htextne, hnormal, _⟩ := plannedAt_eq_some.mp hmac
    rw [setInterface_plannedMac hget hposition hf, if_pos ⟨rfl, rfl⟩] at htext
    have hold := hother hne hagain
    obtain ⟨networkId, mac⟩ := key
    subst hnormal
    exact hnew text networkId other htext htextne hattached hne hold
  intro key iface other hiface hplans
  by_cases hi : iface = (nodeId, (position : Int))
  · subst hi
    by_contra hne
    exact hself (Ne.symm hne) hiface hplans
  · by_cases ho : other = (nodeId, (position : Int))
    · subst ho
      exact absurd hiface (hself hi hplans)
    · exact h key iface other (hother hi hiface) (hother ho hplans)

theorem lookupInterface_lt {interfaces : List Iface} {interfaceIndex : Int} {position : Nat}
    (h : lookupInterface interfaces interfaceIndex = some position) : position < interfaces.length := by
  unfold lookupInterface at h
  split at h
  next hrange =>
    cases h
    omega
  next => exact (List.findIdx?_eq_some_iff_getElem.mp h).1

theorem MacLabEnv.patch_differ {env : MacLabEnv} {s : MacLab} (h : s.lab.MacsDiffer env.lower)
    {nodeId interfaceIndex : Int} {body : IfacePatch} {lab : Lab}
    (hok : env.MacOk s (.patch nodeId interfaceIndex body))
    (hpatch : patchNodeInterface env.lower env.labPath s.entries s.lab nodeId interfaceIndex body =
      .ok lab) : lab.MacsDiffer env.lower := by
  unfold patchNodeInterface at hpatch
  split at hpatch
  next => cases hpatch
  next node hget =>
    split at hpatch
    next => cases hpatch
    next hrange =>
      dsimp only at hpatch
      split at hpatch
      next => cases hpatch
      next mac hmac =>
        cases hpatch
        have hposition : interfaceIndex.toNat < node.interfaces.length := by omega
        have hindex : ((interfaceIndex.toNat : Nat) : Int) = interfaceIndex := by omega
        refine h.setInterface hget hposition (fun _ => rfl) ?_
        intro text networkId other htext htextne hattached hne hplans
        rw [hindex] at hattached hne
        have hcurrent : mac = (s.lab.interfaceAt nodeId interfaceIndex).bind Iface.plannedMac →
            False := by
          intro hsame
          rw [hsame] at htext
          have hmacne : normalizeMac env.lower text ≠ "" := plannedAt_ne_empty hplans.1
          have hself : s.lab.PlansMac env.lower (networkId, normalizeMac env.lower text)
              (nodeId, interfaceIndex) :=
            plansMac_iff.mpr
              ⟨plannedAt_eq_some.mpr ⟨text, htext, htextne, rfl, hmacne⟩, hattached⟩
          exact hne (h _ _ _ hplans hself)
        unfold patchedMac at hmac
        split at hmac
        next => exact hcurrent (Except.ok.inj hmac).symm
        next =>
          rw [← Except.ok.inj hmac] at htext
          cases htext
        next given hgiven =>
          split at hmac
          next => exact hcurrent (Except.ok.inj hmac).symm
          next hgivenne =>
            dsimp only at hmac
            split at hmac
            next => cases hmac
            next hfree =>
              rw [← Except.ok.inj hmac] at htext
              obtain rfl : normalizeMac env.lower given = text := Option.some.inj htext
              obtain ⟨hderived, owner, howner, hdiffers⟩ :=
                hok given hgiven hgivenne networkId other hattached hne hplans
              apply hfree
              refine ⟨hderived, checkCollision_isSome.mpr
                ⟨plannedAt_ne_empty hplans.1, owner, howner, ?_⟩⟩
              intro he
              exact hdiffers (Option.some.inj he).symm

theorem MacLabEnv.persist_differ {env : MacLabEnv} {s : MacLab} (h : s.lab.MacsDiffer env.lower)
    {mac : PlannedMac} {lab : Lab} (hok : env.MacOk s (.persist mac))
    (hset : setPlannedMac mac s.lab = .ok lab) : lab.MacsDiffer env.lower := by
  unfold setPlannedMac at hset
  split at hset
  next => cases hset
  next node hget =>
    split at hset
    next => cases hset
    next position hlookup =>
      split at hset
      next => cases hset
      next hempty =>
        cases hset
        refine Lab.MacsDiffer.setInterface h hget (lookupInterface_lt hlookup) (fun _ => rfl) ?_
        intro text networkId other htext _ hattached hne hplans
        obtain rfl : mac.plannedMac = text := Option.some.inj htext
        exact hne (hok node position hget hlookup (not_not.mp hempty) networkId other hattached hplans)

theorem MacLabEnv.createLink_differ {env : MacLabEnv} {s : MacLab} (h : s.lab.MacsDiffer env.lower)
    {a b : Endpoint} {style : Option String} {hotAttach : Option (List Stamp)} {lab : Lab}
    (hok : env.MacOk s (.createLink a b style hotAttach))
    (hcreate : createLink s.lab a b style hotAttach = .ok lab) : lab.MacsDiffer env.lower := by
  obtain ⟨haccepted, hplans⟩ := @createLink_plansMac env.lower _ _ _ _ _ _ hcreate
  cases hotAttach with
  | none =>
    unfold createLink at hcreate
    split at hcreate <;> cases hcreate
  | some stamps =>
    intro key iface other hiface hother
    rcases hplans key iface hiface with hold | ⟨hmac, hnew⟩
    · rcases hplans key other hother with hold' | ⟨hmac', hnew'⟩
      · exact h key iface other hold hold'
      · exact (hok haccepted _ _ _ _ hnew' hmac').1 iface hold
    · rcases hplans key other hother with hold' | ⟨hmac', hnew'⟩
      · exact ((hok haccepted _ _ _ _ hnew hmac).1 other hold').symm
      · exact ((hok haccepted _ _ _ _ hnew hmac).2 _ _ hnew' hmac').symm

theorem MacLabEnv.step_differ {env : MacLabEnv} {s : MacLab} (h : s.lab.MacsDiffer env.lower)
    {a : MacLabAction} (hok : env.MacOk s a) : (env.step s a).lab.MacsDiffer env.lower := by
  cases a with
  | patch nodeId interfaceIndex body =>
    simp only [MacLabEnv.step]
    split
    next => exact h
    next lab hpatch => exact MacLabEnv.patch_differ h hok hpatch
  | createLink a b style hotAttach =>
    simp only [MacLabEnv.step]
    split
    next => exact h
    next =>
      split
      next => exact h
      next lab hcreate => exact MacLabEnv.createLink_differ h hok hcreate
  | deleteLink linkId detached =>
    simp only [MacLabEnv.step]
    split
    next deleted hdelete =>
      have hlab := deleteLinkLocked_lab hdelete
      intro key iface other hiface hother
      exact h key iface other (deleteLink_plansMac hlab hiface) (deleteLink_plansMac hlab hother)
    next => exact h
  | persist mac =>
    simp only [MacLabEnv.step]
    split
    next => exact h
    next lab hset => exact MacLabEnv.persist_differ h hok hset
  | restart others => exact h
  | elsewhere labPath data =>
    simp only [MacLabEnv.step]
    split
    next => exact h
    next => exact h

/-- From a lab without links, in a run whose steps keep to the condition, no two interfaces linked to
one network ever have the same planned address. -/
theorem planned_macs_differ {env : MacLabEnv} {start s : MacLab} {actions : List MacLabAction}
    (hempty : start.lab.links = [])
    (run : Run (Guarded (stepOf env.step) env.MacOk) start actions s) :
    s.lab.MacsDiffer env.lower := by
  have hstart : start.lab.MacsDiffer env.lower := by
    intro key iface other hiface
    obtain ⟨_, l, hl, _⟩ := hiface
    rw [hempty] at hl
    cases hl
  exact @Run.guarded_invariant _ _ _ _ (fun s : MacLab => s.lab.MacsDiffer env.lower)
    (fun _ _ h hok => MacLabEnv.step_differ h hok) _ _ _ run hstart

def oneNic (nodeId : Int) : Node :=
  { id := nodeId, name := "r", type := .qemu, interfaces := [{ index := 0, name := "eth0" }] }

/-- Two nodes with one interface each, and a network. -/
def twoNics : MacLab where
  lab :=
    { id := "lab"
      nodes := (Dict.empty.set 1 (oneNic 1)).set 2 (oneNic 2)
      networks := Dict.empty.set 1 { id := 1, name := "lan" } }
  entries _ := none

def nicsEnv : MacLabEnv where
  lower := id
  labPath := "a.json"
  owner _ := none

def planMac (nodeId : Int) : MacLabAction :=
  .patch nodeId 0 { plannedMac := some (some "50:00:00:00:00:01") }

def linkNic (nodeId : Int) : MacLabAction :=
  .createLink (.node nodeId 0) (.network 1) none (some [])

def planMacAs (nodeId : Int) (mac : String) : MacLabAction :=
  .patch nodeId 0 { plannedMac := some (some mac) }

/-- Two interfaces with addresses of their own are linked to one network; then one of them is to get
the address of the other. -/
def plannedApart : List MacLabAction :=
  [planMacAs 1 "50:00:00:00:00:01", planMacAs 2 "50:00:00:00:00:02", linkNic 1, linkNic 2,
    planMacAs 2 "50:00:00:00:00:01"]

def apartAfter (n : Nat) : MacLab := (plannedApart.take n).foldl nicsEnv.step twoNics

/-- A link that brings an address which the network does not have yet. -/
theorem linkNic_ok {s : MacLab} {nodeId : Int}
    (h : ∀ entry ∈ declaredMacs id s.lab, entry.1.1 = 1 →
      plannedAt id s.lab nodeId 0 ≠ some entry.1.2) : nicsEnv.MacOk s (linkNic nodeId) := by
  intro _ n i k mac hnew hplanned
  cases List.mem_singleton.mp hnew
  constructor
  · intro other hother
    exact absurd hplanned (h _ (mem_declaredMacs.mpr hother) rfl)
  · intro n' i' hnew' _
    cases List.mem_singleton.mp hnew'
    rfl

theorem planMacAs_ok {s : MacLab} {nodeId : Int} {mac : String}
    (h : s.lab.links.map Link.attachment? = []) : nicsEnv.MacOk s (planMacAs nodeId mac) := by
  intro _ _ _ _ _ hattached
  unfold Lab.Attached at hattached
  rw [h] at hattached
  cases hattached

theorem macs_planned_apart_differ :
    (apartAfter 5).lab.MacsDiffer id ∧
      declaredMacs id (apartAfter 5).lab =
        [((1, "50:00:00:00:00:01"), (1, 0)), ((1, "50:00:00:00:00:02"), (2, 0))] := by
  have hrefused : nicsEnv.MacOk (apartAfter 4) (planMacAs 2 "50:00:00:00:00:01") := by
    intro given hgiven _ _ _ _ _ _
    cases hgiven
    refine ⟨by decide +kernel, ⟨"a.json", 1, 0⟩, by decide +kernel, by decide⟩
  have run : Run (Guarded (stepOf nicsEnv.step) nicsEnv.MacOk) twoNics plannedApart
      (apartAfter 5) :=
    Run.cons ⟨planMacAs_ok (by decide), rfl⟩ (Run.cons ⟨planMacAs_ok (by decide +kernel), rfl⟩
      (Run.cons ⟨linkNic_ok (by decide +kernel), rfl⟩
        (Run.cons ⟨linkNic_ok (by decide +kernel), rfl⟩ (Run.single ⟨hrefused, rfl⟩))))
  exact ⟨planned_macs_differ rfl run, by decide +kernel⟩

/-- An address planned twice before the interfaces are linked is found by no check. -/
theorem links_join_equal_macs :
    ¬ ([planMac 1, planMac 2, linkNic 1, linkNic 2].foldl nicsEnv.step twoNics).lab.MacsDiffer id := by
  intro h
  have hplans : ∀ n ∈ [(1 : Int), 2],
      ([planMac 1, planMac 2, linkNic 1, linkNic 2].foldl nicsEnv.step twoNics).lab.PlansMac id
        (1, "50:00:00:00:00:01") (n, 0) := by
    intro n hn
    rw [plansMac_iff]
    rcases List.mem_pair.mp hn with rfl | rfl
    · decide +kernel
    · decide +kernel
  have hsame := h _ _ _ (hplans 1 List.mem_cons_self)
    (hplans 2 (List.mem_cons_of_mem _ (List.mem_singleton.mpr rfl)))
  exact absurd hsame (by decide)

end NovaVe
