import NovaVe.NetworkNames
import NovaVe.WriterRuns

namespace NovaVe

/-- The name and the flag `patch_network` leaves the record with. -/
theorem renameNetwork_ok {host : NetworkHost} {networks : Dict Int Network} {networkId : Int}
    {network renamed : Network} {name : Option (Option String)}
    (h : renameNetwork host networks networkId network name = .ok renamed) :
    ((∀ raw, name ≠ some (some raw)) ∧ renamed = network) ∨
    ∃ raw, name = some (some raw) ∧ renamed.name = host.strip raw ∧
      (host.strip raw ≠ "" →
        networkNameInUse host networks (host.strip raw) (some networkId) = false) ∧
      (renamed.implicit = false ↔ network.implicit = false ∨ host.strip raw ≠ "") := by
  cases name with
  | none =>
    cases h
    exact Or.inl ⟨fun raw hraw => (by cases hraw), rfl⟩
  | some sent =>
    cases sent with
    | none =>
      left
      unfold renameNetwork at h
      by_cases himplicit : network.implicit = true
      · rw [if_pos himplicit] at h
        cases h
        exact ⟨fun raw hraw => (by cases hraw), rfl⟩
      · rw [if_neg himplicit] at h
        cases h
    | some raw =>
      right
      refine ⟨raw, rfl, ?_⟩
      unfold renameNetwork at h
      dsimp only at h
      by_cases huse : host.strip raw ≠ "" ∧
          networkNameInUse host networks (host.strip raw) (some networkId) = true
      · rw [if_pos huse] at h
        cases h
      · rw [if_neg huse] at h
        have hfree : host.strip raw ≠ "" →
            networkNameInUse host networks (host.strip raw) (some networkId) = false := by
          intro hne
          apply Bool.eq_false_iff.mpr
          intro hin
          exact huse ⟨hne, hin⟩
        by_cases hpromoted : host.strip raw ≠ "" ∧ network.implicit = true
        · rw [if_pos hpromoted] at h
          cases h
          exact ⟨rfl, hfree, fun _ => Or.inr hpromoted.1, fun _ => rfl⟩
        · rw [if_neg hpromoted] at h
          cases h
          refine ⟨rfl, hfree, fun hflag => Or.inl hflag, ?_⟩
          rintro (hflag | hne)
          · exact hflag
          · apply Bool.eq_false_iff.mpr
            intro hflag
            exact hpromoted ⟨hne, hflag⟩

theorem patchNetwork_ok {host : NetworkHost} {data data' : Lab} {networkId : Int}
    {patch : NetworkUpdate} (h : patchNetwork host data networkId patch = .ok data') :
    ∃ network renamed, data.networks.get? networkId = some network ∧
      renameNetwork host data.networks networkId network patch.name = .ok renamed ∧
      data'.networks = data.networks.set networkId (applyNetworkPatch renamed patch) := by
  unfold patchNetwork at h
  cases hget : data.networks.get? networkId with
  | none =>
    rw [hget] at h
    cases h
  | some network =>
    rw [hget] at h
    obtain ⟨renamed, hrenamed, h⟩ := bind_eq_ok.mp h
    obtain ⟨_, _, h⟩ := bind_eq_ok.mp h
    cases h
    exact ⟨network, renamed, rfl, hrenamed, rfl⟩

theorem patchNetwork_namesOk_iff {lower : String → String} (hlower : CaseLaw lower)
    {host : NetworkHost} {data data' : Lab} {networkId : Int} {patch : NetworkUpdate}
    (hnames : NamesOk lower data.networks)
    (h : patchNetwork (host.withTexts lower) data networkId patch = .ok data') :
    NamesOk lower data'.networks ↔ KeepsNames lower data (.patchNetwork host networkId patch) := by
  obtain ⟨network, renamed, hget, hrenamed, hset⟩ := patchNetwork_ok h
  rw [hset, namesOk_set hnames]
  rcases renameNetwork_ok hrenamed with ⟨hsent, heq⟩ | ⟨raw, hsent, hname, hfree, hflag⟩
  · subst heq
    constructor
    · intro _ record raw _ hraw
      exact absurd hraw (hsent raw)
    · intro _ hexplicit
      exact hnames networkId renamed hget hexplicit
  · have hname' : (applyNetworkPatch renamed patch).name = pyStrip raw := hname
    have hflag' : (applyNetworkPatch renamed patch).implicit = false ↔
        network.implicit = false ∨ pyStrip raw ≠ "" := hflag
    rw [hname', hflag']
    constructor
    · intro hnew record raw' hget' hraw
      have hsame : network = record := Option.some.inj (hget.symm.trans hget')
      subst hsame
      rw [hsent] at hraw
      cases hraw
      refine ⟨fun hexplicit => (hnew (Or.inl hexplicit)).1, ?_⟩
      intro hne other record hother hget'' hexplicit _
      exact (hnew (Or.inr hne)).2 other record hother hget'' hexplicit
    · intro hkeeps hexplicit
      obtain ⟨hblank, hclash⟩ := hkeeps network raw hget hsent
      have hne : pyStrip raw ≠ "" := hexplicit.elim hblank id
      refine ⟨hne, ?_⟩
      intro other record hother hget' hexplicit'
      by_cases hid : record.id = networkId
      · exact hclash hne other record hother hget' hexplicit' hid
      · have hnot : some record.id ≠ some networkId := fun heq => hid (Option.some.inj heq)
        exact nameFree_of_not_in_use hlower (pyStrip_idem raw) hne (hfree hne) hget' hexplicit'
          hnot

theorem updateTopology_networks {data data' : Lab} {payload : TopologyPayload}
    (h : updateTopology data payload = .ok data') :
    data'.networks = payload.networks.foldl (patchEntry applyNetworkLayout) data.networks := by
  unfold updateTopology writeLabJson at h
  split at h
  next =>
    obtain ⟨links, _, h⟩ := bind_eq_ok.mp h
    cases h
    rfl
  next =>
    cases h
    rfl

/-- The name and the flag of a network after the patches of a `PUT /topology`. -/
theorem foldl_patchEntry_name (patches : List (Int × NetworkPatch)) (networks : Dict Int Network)
    (k : Int) :
    ((patches.foldl (patchEntry applyNetworkLayout) networks).get? k).map
        (fun network => (network.name, network.implicit)) =
      (networks.get? k).map (fun network =>
        (((patches.filterMap (fun patch =>
          if patch.1 = k then patch.2.name else none)).getLast?).getD network.name,
          network.implicit)) := by
  induction patches generalizing networks with
  | nil => rfl
  | cons patch rest ih =>
    rw [List.foldl_cons, ih, patchEntry_get?, List.filterMap_cons]
    by_cases hk : patch.1 = k
    · rw [if_pos hk, if_pos hk, Option.map_map]
      cases hsent : patch.2.name with
      | none =>
        have hname : ∀ network, (applyNetworkLayout network patch.2).name = network.name := by
          intro network
          simp [applyNetworkLayout, hsent]
        simp only [Function.comp_def, hname]
        rfl
      | some name =>
        have hname : ∀ network, (applyNetworkLayout network patch.2).name = name := by
          intro network
          simp [applyNetworkLayout, hsent]
        simp only [Function.comp_def, hname, List.getLast?_cons, Option.getD_some]
        rfl
    · rw [if_neg hk, if_neg hk]

theorem updateTopology_record {data data' : Lab} {payload : TopologyPayload}
    (h : updateTopology data payload = .ok data') (k : Int) :
    (data'.networks.get? k).map (fun network => (network.name, network.implicit)) =
      (data.networks.get? k).map (fun network =>
        (nameSent payload k network.name, network.implicit)) := by
  rw [updateTopology_networks h]
  exact foldl_patchEntry_name payload.networks data.networks k

theorem updateTopology_explicit {data data' : Lab} {payload : TopologyPayload}
    (h : updateTopology data payload = .ok data') {k : Int} {record : Network}
    (hget : data'.networks.get? k = some record) (hexplicit : record.implicit = false) :
    ∃ network, data.networks.get? k = some network ∧ network.implicit = false ∧
      record.name = nameSent payload k network.name := by
  have hmap := updateTopology_record h k
  rw [hget, Option.map_some] at hmap
  obtain ⟨network, hold, heq⟩ := Option.map_eq_some_iff.mp hmap.symm
  obtain ⟨hname, hflag⟩ := Prod.mk.inj heq
  exact ⟨network, hold, hflag.trans hexplicit, hname.symm⟩

theorem updateTopology_explicit_of {data data' : Lab} {payload : TopologyPayload}
    (h : updateTopology data payload = .ok data') {k : Int} {network : Network}
    (hget : data.networks.get? k = some network) (hexplicit : network.implicit = false) :
    ∃ record, data'.networks.get? k = some record ∧ record.implicit = false ∧
      record.name = nameSent payload k network.name := by
  have hmap := updateTopology_record h k
  rw [hget, Option.map_some] at hmap
  obtain ⟨record, hnew, heq⟩ := Option.map_eq_some_iff.mp hmap
  obtain ⟨hname, hflag⟩ := Prod.mk.inj heq
  exact ⟨record, hnew, hflag.trans hexplicit, hname⟩

theorem updateTopology_namesOk_iff {lower : String → String} {data data' : Lab}
    {payload : TopologyPayload} (h : updateTopology data payload = .ok data') :
    NamesOk lower data'.networks ↔ KeepsNames lower data (.updateTopology payload) := by
  constructor
  · intro hnames k network hget hexplicit
    obtain ⟨record, hnew, hflag, hname⟩ := updateTopology_explicit_of h hget hexplicit
    obtain ⟨hne, hfree⟩ := hnames k record hnew hflag
    rw [hname] at hne hfree
    refine ⟨hne, ?_⟩
    intro other old hother hold hold'
    obtain ⟨record', hnew', hflag', hname'⟩ := updateTopology_explicit_of h hold hold'
    have hdistinct := hfree other record' hother hnew' hflag'
    rw [hname'] at hdistinct
    exact hdistinct
  · intro hkeeps k record hget hflag
    obtain ⟨network, hold, hexplicit, hname⟩ := updateTopology_explicit h hget hflag
    obtain ⟨hne, hfree⟩ := hkeeps k network hold hexplicit
    rw [hname]
    refine ⟨hne, ?_⟩
    intro other record' hother hget' hflag'
    obtain ⟨network', hold', hexplicit', hname'⟩ := updateTopology_explicit h hget' hflag'
    rw [hname']
    exact hfree other network' hother hold' hexplicit'

theorem toOption_ok {ε α : Type} {r : Except ε α} {x : α} (h : r.toOption = some x) :
    r = .ok x := by
  cases r with
  | error e => cases h
  | ok y =>
    cases h
    rfl

/-- An accepted call keeps the names in order exactly under its condition. -/
theorem written_namesOk_iff {lower : String → String} (hlower : CaseLaw lower) {data data' : Lab}
    {call : NameCall} (hnames : NamesOk lower data.networks)
    (h : written lower data call = some data') :
    NamesOk lower data'.networks ↔ KeepsNames lower data call := by
  cases call with
  | createLink a b style hotAttach => exact createLink_namesOk_iff hnames (toOption_ok h)
  | createNetwork host request =>
    have hkept := createNetwork_namesOk hlower hnames (toOption_ok h)
    exact ⟨fun _ => trivial, fun _ => hkept⟩
  | patchNetwork host networkId patch =>
    exact patchNetwork_namesOk_iff hlower hnames (toOption_ok h)
  | updateTopology payload => exact updateTopology_namesOk_iff (toOption_ok h)

theorem nameStep_namesOk_iff {lower : String → String} (hlower : CaseLaw lower) {data : Lab}
    {call : NameCall} (hnames : NamesOk lower data.networks) :
    NamesOk lower (nameStep lower data call).networks ↔ NameCallOk lower data call := by
  unfold nameStep NameCallOk
  cases hwritten : written lower data call with
  | none =>
    constructor
    · intro _ hsome
      cases hsome
    · intro _
      exact hnames
  | some data' =>
    have hiff := written_namesOk_iff hlower hnames hwritten
    constructor
    · intro hkept _
      exact hiff.mp hkept
    · intro hok
      exact hiff.mpr (hok rfl)

/-- `str.lower` on texts of ASCII characters. -/
def asciiLower (text : String) : String := String.ofList (text.toList.map Char.toLower)

theorem toLower_toNat (c : Char) :
    c.toLower.toNat = if 65 ≤ c.toNat ∧ c.toNat ≤ 90 then c.toNat + 32 else c.toNat := by
  have hbounds : (c.val ≥ 'A'.val ∧ c.val ≤ 'Z'.val) ↔ 65 ≤ c.toNat ∧ c.toNat ≤ 90 := by
    rw [ge_iff_le, UInt32.le_iff_toNat_le, UInt32.le_iff_toNat_le]
    rfl
  unfold Char.toLower
  by_cases hupper : c.val ≥ 'A'.val ∧ c.val ≤ 'Z'.val
  · rw [dif_pos hupper, if_pos (hbounds.mp hupper)]
    have hle := (hbounds.mp hupper).2
    show (c.val + ('a'.val - 'A'.val)).toNat = c.toNat + 32
    have hsum : ('a'.val - 'A'.val).toNat = 32 := by decide
    rw [UInt32.toNat_add, hsum]
    have hval : c.val.toNat = c.toNat := rfl
    omega
  · rw [dif_neg hupper, if_neg (mt hbounds.mpr hupper)]

/-- Lowering a character makes it no white space and takes it from none. -/
theorem isPySpace_toLower (c : Char) : isPySpace c.toLower = isPySpace c := by
  have hlower := toLower_toNat c
  unfold isPySpace
  rw [hlower]
  by_cases hupper : 65 ≤ c.toNat ∧ c.toNat ≤ 90
  · rw [if_pos hupper]
    obtain ⟨hge, hle⟩ := hupper
    apply Bool.eq_iff_iff.mpr
    simp only [Bool.or_eq_true, Bool.and_eq_true, decide_eq_true_eq, beq_iff_eq]
    omega
  · rw [if_neg hupper]

theorem stripChars_map {p : Char → Bool} {f : Char → Char} (h : ∀ c, p (f c) = p c)
    (cs : List Char) : stripChars p (cs.map f) = (stripChars p cs).map f := by
  have hcomp : p ∘ f = p := funext h
  unfold stripChars
  rw [List.dropWhile_map, hcomp, ← List.map_reverse, List.dropWhile_map, hcomp, List.map_reverse]

theorem asciiLower_caseLaw : CaseLaw asciiLower := by
  refine ⟨?_, ?_⟩
  · intro text h
    have hlist := congrArg String.toList h
    simpa [asciiLower] using hlist
  · intro text
    unfold asciiLower pyStrip
    rw [String.toList_ofList, String.toList_ofList, stripChars_map isPySpace_toLower]

theorem namesOk_empty (lower : String → String) : NamesOk lower Dict.empty := by
  intro k network hget
  cases hget

/-- The promotion check is enough exactly when the new link brings its first network, and no other
implicit one, to three references, and the names of the explicit networks stay in order in every
run of calls that meet their conditions, which are exact for each call. -/
theorem promotion_and_names_iff (lower : String → String) (hlower : CaseLaw lower) :
    (∀ (data data' : Lab) (a b : Endpoint) (style : Option String)
        (hotAttach : Option (List Stamp)), createLink data a b style hotAttach = .ok data' →
      (PromotesShared data data' ↔ PromotionCovers data a b)) ∧
    (∀ (data : Lab) (call : NameCall), NamesOk lower data.networks →
      (NamesOk lower (nameStep lower data call).networks ↔ NameCallOk lower data call)) ∧
    (∀ (data data' : Lab) (calls : List NameCall), NamesOk lower data.networks →
      Run (Guarded (stepOf (nameStep lower)) (NameCallOk lower)) data calls data' →
        NamesOk lower data'.networks) := by
  refine ⟨?_, ?_, ?_⟩
  · intro data data' a b style hotAttach h
    exact (createLink_made h).promotesShared_iff
  · intro data call hnames
    exact nameStep_namesOk_iff hlower hnames
  · intro data data' calls hnames run
    have hkeeps : ∀ lab call, NamesOk lower lab.networks → NameCallOk lower lab call →
        NamesOk lower (nameStep lower lab call).networks := by
      intro lab call hok hcall
      exact (nameStep_namesOk_iff hlower hok).mpr hcall
    exact @Run.guarded_invariant _ _ _ _ (fun lab : Lab => NamesOk lower lab.networks) hkeeps _ _ _
      run hnames

theorem nameFree_of_entries {lower : String → String} {networks : Dict Int Network}
    {networkId : Int} {name : String}
    (h : ∀ entry ∈ networks.entries, entry.1 ≠ networkId → entry.2.implicit = false →
      lower entry.2.name ≠ lower name) : NameFree lower networks networkId name := by
  intro other record hother hget hexplicit
  exact h (other, record) (Dict.mem_entries_of_get? hget) hother hexplicit

/-- Two networks are made, one is renamed, and the bridge of two nodes is promoted by a third. -/
def promotingCalls : List NameCall :=
  [.createNetwork plainNetworkHost { name := "Core" },
    .createNetwork plainNetworkHost { name := "Edge" },
    .createLink (.node 1 0) (.node 2 0) none (some []),
    .patchNetwork plainNetworkHost 1 { name := some (some "bridge-2") },
    .createLink (.node 3 0) (.network 3) none (some [])]

def afterPromotingCalls (calls : Nat) : Lab :=
  (promotingCalls.take calls).foldl (nameStep asciiLower) (emptyLabJson "lab" Dict.empty)

theorem names_in_order_with_promotion :
    (afterPromotingCalls 5).networks.entries.map (fun entry => (entry.2.name, entry.2.implicit)) =
        [("bridge-2", false), ("Edge", false), ("bridge-3", false)] ∧
      NamesOk asciiLower (afterPromotingCalls 5).networks := by
  refine ⟨by decide, ?_⟩
  obtain ⟨_, _, hruns⟩ := promotion_and_names_iff asciiLower asciiLower_caseLaw
  refine hruns (emptyLabJson "lab" Dict.empty) (afterPromotingCalls 5) promotingCalls
    (namesOk_empty asciiLower) ?_
  have hlink : NameCallOk asciiLower (afterPromotingCalls 2)
      (.createLink (.node 1 0) (.node 2 0) none (some [])) := by
    intro _ networkId network hpromotes
    cases hpromotes.1
  have hrename : NameCallOk asciiLower (afterPromotingCalls 3)
      (.patchNetwork plainNetworkHost 1 { name := some (some "bridge-2") }) := by
    intro _ network raw hget hname
    cases hget
    cases hname
    refine ⟨fun _ => by decide, ?_⟩
    intro _ other record hother hget _ hid
    have hall : ∀ entry ∈ (afterPromotingCalls 3).networks.entries, entry.2.id = entry.1 := by
      decide
    exact absurd ((hall _ (Dict.mem_entries_of_get? hget)).symm.trans hid) hother
  have hpromote : NameCallOk asciiLower (afterPromotingCalls 4)
      (.createLink (.node 3 0) (.network 3) none (some [])) := by
    intro _ networkId network hpromotes hget
    cases hpromotes.1
    cases hget
    exact nameFree_of_entries (by decide)
  exact Run.cons ⟨fun _ => trivial, rfl⟩ (Run.cons ⟨fun _ => trivial, rfl⟩
    (Run.cons ⟨hlink, rfl⟩ (Run.cons ⟨hrename, rfl⟩ (Run.single ⟨hpromote, rfl⟩))))

/-- Two pairs of linked nodes: the networks 1 and 2 are implicit, with two references each. -/
def twoPairs : Lab :=
  [NameCall.createLink (.node 1 0) (.node 2 0) none (some []),
    NameCall.createLink (.node 3 0) (.node 4 0) none (some [])].foldl (nameStep asciiLower)
      (emptyLabJson "lab" Dict.empty)

/-- A network gets the name the promotion of network 2 would use, and network 2 is promoted. -/
def bridgeTwoCalls : List NameCall :=
  [.createNetwork plainNetworkHost { name := "bridge-2" },
    .createLink (.node 1 0) (.node 2 0) none (some []),
    .createLink (.node 3 0) (.network 2) none (some [])]

/-- Linking network 1 to network 2 promotes the first only, and a promoted network gets a name
that is taken. -/
theorem promotion_and_names_not_kept :
    ¬(∀ (data data' : Lab) (a b : Endpoint) (style : Option String)
        (hotAttach : Option (List Stamp)), createLink data a b style hotAttach = .ok data' →
        PromotesShared data data') ∧
    ¬(∀ (data data' : Lab) (calls : List NameCall), NamesOk asciiLower data.networks →
        Run (stepOf (nameStep asciiLower)) data calls data' →
        NamesOk asciiLower data'.networks) := by
  constructor
  · intro hshared
    have hlink := hshared twoPairs _ (.network 1) (.network 2) none (some []) rfl
    obtain ⟨hexplicit, _, _⟩ := hlink 2 _ (Or.inr ⟨_, rfl, by decide⟩) rfl (by decide) (by decide)
    exact absurd hexplicit (by decide)
  · intro hkept
    have hnames := hkept (emptyLabJson "lab" Dict.empty) _ bridgeTwoCalls
      (namesOk_empty asciiLower) (run_stepOf_iff.mpr rfl)
    obtain ⟨_, hfree⟩ := hnames 1 _ rfl (by decide)
    exact hfree 2 _ (by decide) rfl (by decide) (by decide)

end NovaVe
