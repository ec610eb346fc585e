import NovaVe.GraphRuns
import NovaVe.Promotion
import NovaVe.Texts

namespace NovaVe

/-- What the checks rely on of `str.lower`: it makes no text empty, and white space has no case. -/
structure CaseLaw (lower : String → String) : Prop where
  empty : ∀ text, lower text = "" → text = ""
  strip : ∀ text, lower (pyStrip text) = pyStrip (lower text)

/-- The calls of a run that name networks. -/
inductive NameCall
  | createLink (a b : Endpoint) (style : Option String) (hotAttach : Option (List Stamp))
  | createNetwork (host : NetworkHost) (request : NetworkCreate)
  | patchNetwork (host : NetworkHost) (networkId : Int) (patch : NetworkUpdate)
  | updateTopology (payload : TopologyPayload)

/-- The host with the text functions of the standard library. -/
def NetworkHost.withTexts (host : NetworkHost) (lower : String → String) : NetworkHost :=
  { host with strip := pyStrip, lower := lower }

/-- The lab a call writes, if it is not refused. -/
def written (lower : String → String) (data : Lab) : NameCall → Option Lab
  | .createLink a b style hotAttach => (createLink data a b style hotAttach).toOption
  | .createNetwork host request => (createNetwork (host.withTexts lower) data request).toOption
  | .patchNetwork host networkId patch =>
    (patchNetwork (host.withTexts lower) data networkId patch).toOption
  | .updateTopology payload => (updateTopology data payload).toOption

def nameStep (lower : String → String) (data : Lab) (call : NameCall) : Lab :=
  (written lower data call).getD data

/-- No other explicit network has the name, in whatever case. -/
def NameFree (lower : String → String) (networks : Dict Int Network) (networkId : Int)
    (name : String) : Prop :=
  ∀ other network, other ≠ networkId → networks.get? other = some network →
    network.implicit = false → lower network.name ≠ lower name

/-- The explicit networks have non-empty names, distinct in whatever case. -/
def NamesOk (lower : String → String) (networks : Dict Int Network) : Prop :=
  ∀ networkId network, networks.get? networkId = some network → network.implicit = false →
    network.name ≠ "" ∧ NameFree lower networks networkId network.name

/-- The name `PUT /topology` leaves a network with: the last one sent for it, or its own. -/
def nameSent (payload : TopologyPayload) (networkId : Int) (name : String) : String :=
  ((payload.networks.filterMap (fun patch =>
    if patch.1 = networkId then patch.2.name else none)).getLast?).getD name

/-- Under which an accepted call keeps the names non-empty and distinct. -/
def KeepsNames (lower : String → String) (data : Lab) : NameCall → Prop
  | .createLink a b _ _ => ∀ networkId network, Promotes data a b networkId →
      data.networks.get? networkId = some network →
        NameFree lower data.networks networkId (promote networkId network).name
  | .createNetwork _ _ => True
  | .patchNetwork _ networkId patch => ∀ network raw,
      data.networks.get? networkId = some network → patch.name = some (some raw) →
        (network.implicit = false → pyStrip raw ≠ "") ∧
        (pyStrip raw ≠ "" → ∀ other record, other ≠ networkId →
          data.networks.get? other = some record → record.implicit = false →
            record.id = networkId → lower record.name ≠ lower (pyStrip raw))
  | .updateTopology payload => ∀ networkId network,
      data.networks.get? networkId = some network → network.implicit = false →
        nameSent payload networkId network.name ≠ "" ∧
        ∀ other record, other ≠ networkId → data.networks.get? other = some record →
          record.implicit = false →
            lower (nameSent payload other record.name) ≠
              lower (nameSent payload networkId network.name)

/-- A call the code accepts meets the condition. -/
def NameCallOk (lower : String → String) (data : Lab) (call : NameCall) : Prop :=
  (written lower data call).isSome → KeepsNames lower data call

theorem nameFree_set {lower : String → String} {networks : Dict Int Network} {networkId : Int}
    {network : Network} {name : String} :
    NameFree lower (networks.set networkId network) networkId name ↔
      NameFree lower networks networkId name := by
  constructor
  · intro h other record hne hget
    apply h other record hne
    rw [Dict.get?_set_ne _ _ (Ne.symm hne)]
    exact hget
  · intro h other record hne hget
    rw [Dict.get?_set_ne _ _ (Ne.symm hne)] at hget
    exact h other record hne hget

/-- Writing one record keeps the names in order when its own name is, and only then. -/
theorem namesOk_set {lower : String → String} {networks : Dict Int Network} {networkId : Int}
    {network : Network} (h : NamesOk lower networks) :
    NamesOk lower (networks.set networkId network) ↔
      (network.implicit = false →
        network.name ≠ "" ∧ NameFree lower networks networkId network.name) := by
  constructor
  · intro hset hexplicit
    obtain ⟨hname, hfree⟩ := hset networkId network (Dict.get?_set_self _ _ _) hexplicit
    exact ⟨hname, nameFree_set.mp hfree⟩
  · intro hnew k record hget hexplicit
    by_cases hk : networkId = k
    · subst hk
      rw [Dict.get?_set_self] at hget
      cases hget
      obtain ⟨hname, hfree⟩ := hnew hexplicit
      exact ⟨hname, nameFree_set.mpr hfree⟩
    · rw [Dict.get?_set_ne _ _ hk] at hget
      obtain ⟨hname, hfree⟩ := h k record hget hexplicit
      refine ⟨hname, ?_⟩
      intro other record' hne hget' hexplicit'
      by_cases hother : networkId = other
      · subst hother
        rw [Dict.get?_set_self] at hget'
        cases hget'
        obtain ⟨_, hfree'⟩ := hnew hexplicit'
        exact (hfree' k record (Ne.symm hk) hget hexplicit).symm
      · rw [Dict.get?_set_ne _ _ hother] at hget'
        exact hfree other record' hne hget' hexplicit'

/-- What the name check of `create_network` and `patch_network` finds out. -/
theorem nameFree_of_not_in_use {lower : String → String} (hlower : CaseLaw lower)
    {host : NetworkHost} {networks : Dict Int Network} {name : String} {excludeId : Option Int}
    (hstripped : pyStrip name = name) (hname : name ≠ "")
    (h : networkNameInUse (host.withTexts lower) networks name excludeId = false)
    {other : Int} {record : Network} (hget : networks.get? other = some record)
    (hexplicit : record.implicit = false) (hid : some record.id ≠ excludeId) :
    lower record.name ≠ lower name := by
  intro heq
  have htarget : lower (pyStrip name) ≠ "" := by
    rw [hstripped]
    intro hempty
    exact hname (hlower.empty _ hempty)
  have hmem := Dict.mem_entries_of_get? hget
  have hkey : lower (pyStrip record.name) = lower (pyStrip name) := by
    rw [hlower.strip, hlower.strip, heq]
  have hfound : networks.entries.any (fun entry =>
      !entry.2.implicit && decide (some entry.2.id ≠ excludeId) &&
        decide (lower (pyStrip entry.2.name) = lower (pyStrip name))) = true := by
    refine List.any_eq_true.mpr ⟨(other, record), hmem, ?_⟩
    simp [hexplicit, hid, hkey]
  unfold networkNameInUse at h
  rw [show (host.withTexts lower).lower ((host.withTexts lower).strip name) =
    lower (pyStrip name) from rfl] at h
  dsimp only at h
  rw [if_neg htarget] at h
  exact absurd (hfound.symm.trans h) (by decide)

theorem createNetwork_named {lower : String → String} {host : NetworkHost} {data data' : Lab}
    {request : NetworkCreate}
    (h : createNetwork (host.withTexts lower) data request = .ok data') :
    ∃ network, network.name = pyStrip request.name ∧ pyStrip request.name ≠ "" ∧
      networkNameInUse (host.withTexts lower) data.networks (pyStrip request.name) none = false ∧
      data'.networks = data.networks.set data.networks.nextKey network := by
  obtain ⟨network, runtime, hprepare, -, rfl⟩ := createNetwork_prepared h
  obtain ⟨hcheck, config, bridge, -, -, rfl⟩ := prepareNetwork_ok hprepare
  have hstrip : (host.withTexts lower).strip request.name = pyStrip request.name := rfl
  rw [hstrip] at hcheck
  unfold checkName at hcheck
  by_cases hempty : pyStrip request.name = ""
  · rw [if_pos hempty] at hcheck
    cases hcheck
  · rw [if_neg hempty] at hcheck
    cases huse : networkNameInUse (host.withTexts lower) data.networks (pyStrip request.name)
        none with
    | true =>
      rw [huse, if_pos rfl] at hcheck
      cases hcheck
    | false => exact ⟨_, rfl, hempty, rfl, rfl⟩

theorem createNetwork_namesOk {lower : String → String} (hlower : CaseLaw lower)
    {host : NetworkHost} {data data' : Lab} {request : NetworkCreate}
    (hnames : NamesOk lower data.networks)
    (h : createNetwork (host.withTexts lower) data request = .ok data') :
    NamesOk lower data'.networks := by
  obtain ⟨network, hname, hne, huse, hset⟩ := createNetwork_named h
  rw [hset]
  apply (namesOk_set hnames).mpr
  intro _
  rw [hname]
  refine ⟨hne, ?_⟩
  intro other record _ hget hexplicit
  exact nameFree_of_not_in_use hlower (pyStrip_idem _) hne huse hget hexplicit (by simp)

/-- A new link changes the names only through the promotion. -/
theorem createLink_namesOk_iff {lower : String → String} {data data' : Lab} {a b : Endpoint}
    {style : Option String} {hotAttach : Option (List Stamp)}
    (hnames : NamesOk lower data.networks)
    (h : createLink data a b style hotAttach = .ok data') :
    NamesOk lower data'.networks ↔
      KeepsNames lower data (.createLink a b style hotAttach) := by
  cases createLink_made h with
  | bridge hnone hset _ =>
    constructor
    · intro _ k network hpromotes _
      have hfirst := hpromotes.1
      rw [hnone] at hfirst
      cases hfirst
    · intro _
      rw [hset]
      apply (namesOk_set hnames).mpr
      intro hexplicit
      cases hexplicit
  | plain _ hnot hsame _ =>
    constructor
    · intro _ k network hpromotes _
      exact absurd hpromotes (hnot k)
    · intro _
      rw [hsame]
      exact hnames
  | promoted networkId record hpromotes hstored hset _ =>
    obtain ⟨hexplicit, _, hname⟩ := promote_explicit networkId record
    rw [hset, namesOk_set hnames]
    constructor
    · intro hnew k network hpromotes' hget
      have heq : networkId = k := Option.some.inj (hpromotes.1.symm.trans hpromotes'.1)
      subst heq
      have hsame : record = network := Option.some.inj (hstored.symm.trans hget)
      subst hsame
      exact (hnew hexplicit).2
    · intro hkeeps _
      exact ⟨hname, hkeeps networkId record hpromotes hstored⟩

end NovaVe
