import NovaVe.LinkGraph
import NovaVe.PairedNodes

namespace NovaVe

variable {built : BuiltChildren} {data : Lab}

/-- What the two ends of a link say: a child and an interface of it. -/
def PairedLink.ends (link : PairedLink) : List (String × String) :=
  [(link.fromNode, link.fromIface), (link.toNode, link.toIface)]

def PairedTemplate.linkEnds (template : PairedTemplate) : List (String × String) :=
  template.links.reduceOption.flatMap PairedLink.ends

def resolveEnd (built : BuiltChildren) (linkEnd : String × String) : Option Endpoint :=
  resolvePairedEnd built linkEnd.1 linkEnd.2

/-- No link of the lab has the endpoint. -/
def Unwired (data : Lab) (e : Endpoint) : Prop := ∀ l ∈ data.links, e ∉ l.endpoints

/-- Two endpoints are linked to one network. -/
def Joined (data : Lab) (a b : Endpoint) : Prop :=
  ∃ networkId, (∃ l ∈ data.links, l.from_ = a ∧ l.to_ = .network networkId) ∧
    ∃ l ∈ data.links, l.from_ = b ∧ l.to_ = .network networkId

theorem resolveEnd_node {linkEnd : String × String} {e : Endpoint}
    (h : resolveEnd built linkEnd = some e) : ∃ nodeId node index,
      built.nodeIds.get? linkEnd.1 = some nodeId ∧ built.nodes.get? nodeId = some node ∧
        resolveIfaceIndex node linkEnd.2 = some index ∧ e = .node nodeId index := by
  obtain ⟨nodeId, hid, h⟩ := Option.bind_eq_some_iff.mp h
  obtain ⟨node, hnode, h⟩ := Option.bind_eq_some_iff.mp h
  obtain ⟨index, hindex, h⟩ := Option.bind_eq_some_iff.mp h
  exact ⟨nodeId, node, index, hid, hnode, hindex, (Option.some.inj h).symm⟩

theorem mem_ifaces_of_endpoint {l : Link} {n i : Int} (h : Endpoint.node n i ∈ l.endpoints) :
    (n, i) ∈ l.ifaces := List.mem_filterMap.mpr ⟨.node n i, h, rfl⟩

/-- A link between two node endpoints that no link has is not refused. -/
theorem checkConflicts_unwired {links : List Link} {n i m j : Int}
    (ha : ∀ l ∈ links, Endpoint.node n i ∉ l.endpoints)
    (hb : ∀ l ∈ links, Endpoint.node m j ∉ l.endpoints) :
    checkConflicts (.node n i) (.node m j) links = .ok () := by
  induction links with
  | nil => rfl
  | cons existing rest ih =>
    have hhead := ha existing List.mem_cons_self
    have hhead' := hb existing List.mem_cons_self
    have hpair : linkPairKey existing.from_ existing.to_ ≠ linkPairKey (.node n i) (.node m j) := by
      intro heq
      have hmem : Endpoint.node n i ∈ linkPairKey existing.from_ existing.to_ := by
        rw [heq]
        exact Sym2.mem_mk_left _ _
      rcases Sym2.mem_iff.mp hmem with hfrom | hto
      · exact hhead (by simp [Link.endpoints, hfrom])
      · exact hhead (by simp [Link.endpoints, hto])
    have hfree : existing.ifaces.find? (fun key => decide (key ∈
        [Endpoint.node n i, .node m j].filterMap Endpoint.iface?)) = none := by
      apply List.find?_eq_none.mpr
      intro key hkey hwired
      obtain ⟨e, he, hiface⟩ := List.mem_filterMap.mp hkey
      have hboth := of_decide_eq_true hwired
      have hown : key = (n, i) ∨ key = (m, j) := by
        simpa [List.filterMap_cons, Endpoint.iface?] using hboth
      cases e with
      | network networkId => cases hiface
      | node k p =>
        cases hiface
        rcases hown with heq | heq
        · cases heq
          exact hhead he
        · cases heq
          exact hhead' he
    unfold checkConflicts
    rw [if_neg hpair, hfree]
    exact ih (fun l hl => ha l (List.mem_cons_of_mem _ hl)) (fun l hl => hb l (List.mem_cons_of_mem _ hl))

/-- `create_link` between two node endpoints goes through exactly when they differ and no link has
one of them. -/
theorem createLinkData_nodes_ok_iff (data : Lab) (n i m j : Int) (style : Option String) :
    (∃ created, createLinkData data (.node n i) (.node m j) style = .ok created) ↔
      Endpoint.node n i ≠ .node m j ∧ Unwired data (.node n i) ∧ Unwired data (.node m j) := by
  constructor
  · intro h
    obtain ⟨created, h⟩ := h
    unfold createLinkData at h
    cases htake : takeMutexes (.node n i) (.node m j) with
    | error e =>
      rw [htake] at h
      cases h
    | ok _ =>
      rw [htake] at h
      cases hcheck : checkConflicts (.node n i) (.node m j) data.links with
      | error e =>
        rw [hcheck] at h
        cases h
      | ok _ =>
        refine ⟨?_, ?_, ?_⟩
        · intro heq
          unfold takeMutexes at htake
          rw [if_pos ⟨heq, rfl⟩] at htake
          cases htake
        · intro l hl he
          have hkey : (n, i) ∉ data.links.flatMap Link.ifaces := checkConflicts_ok hcheck (by
            simp [Endpoint.iface?])
          exact hkey (List.mem_flatMap.mpr ⟨l, hl, mem_ifaces_of_endpoint he⟩)
        · intro l hl he
          have hkey : (m, j) ∉ data.links.flatMap Link.ifaces := checkConflicts_ok hcheck (by
            simp [Endpoint.iface?])
          exact hkey (List.mem_flatMap.mpr ⟨l, hl, mem_ifaces_of_endpoint he⟩)
  · intro h
    obtain ⟨hne, ha, hb⟩ := h
    refine ⟨createImplicitBridge data (.node n i) (.node m j) style, ?_⟩
    unfold createLinkData takeMutexes
    rw [if_neg (fun hboth => hne hboth.1), checkConflicts_unwired ha hb]
    rfl

/-- What an accepted `create_link` between two node endpoints leaves. -/
theorem createLinkData_nodes {n i m j : Int} {style : Option String} {created : CreatedLink}
    (h : createLinkData data (.node n i) (.node m j) style = .ok created) :
    created = createImplicitBridge data (.node n i) (.node m j) style := by
  unfold createLinkData at h
  cases htake : takeMutexes (.node n i) (.node m j) with
  | error e =>
    rw [htake] at h
    cases h
  | ok _ =>
    rw [htake] at h
    cases hcheck : checkConflicts (.node n i) (.node m j) data.links with
    | error e =>
      rw [hcheck] at h
      cases h
    | ok _ =>
      rw [hcheck] at h
      exact (Except.ok.inj h).symm

theorem createImplicitBridge_joined (data : Lab) (a b : Endpoint) (style : Option String) :
    Joined (createImplicitBridge data a b style).data a b := by
  refine ⟨data.networks.nextKey, ⟨_, List.mem_append_right _ List.mem_cons_self, rfl, rfl⟩, ?_⟩
  exact ⟨_, List.mem_append_right _ (List.mem_cons_of_mem _ List.mem_cons_self), rfl, rfl⟩

/-- After a link to an implicit bridge the other node endpoints are as wired as before. -/
theorem unwired_createImplicitBridge_iff {n i m j k p : Int} {style : Option String} :
    Unwired (createImplicitBridge data (.node n i) (.node m j) style).data (.node k p) ↔
      Unwired data (.node k p) ∧ Endpoint.node k p ≠ .node n i ∧ Endpoint.node k p ≠ .node m j := by
  constructor
  · intro h
    refine ⟨fun l hl => h l (List.mem_append_left _ hl), ?_, ?_⟩
    · intro heq
      apply h _ (List.mem_append_right _ List.mem_cons_self)
      rw [heq]
      exact List.mem_cons_self
    · intro heq
      apply h _ (List.mem_append_right _ (List.mem_cons_of_mem _ List.mem_cons_self))
      rw [heq]
      exact List.mem_cons_self
  · intro h
    obtain ⟨hold, hna, hnb⟩ := h
    intro l hl he
    rcases List.mem_append.mp hl with hl | hl
    · exact hold l hl he
    · simp only [List.mem_cons, List.not_mem_nil, or_false] at hl
      rcases hl with rfl | rfl
      · rcases List.mem_pair.mp he with heq | heq
        · exact hna heq
        · cases heq
      · rcases List.mem_pair.mp he with heq | heq
        · exact hnb heq
        · cases heq

/-- The endpoints that the ends of the links stand for. -/
def wiredEnds (built : BuiltChildren) (links : List PairedLink) : List Endpoint :=
  (links.flatMap PairedLink.ends).filterMap (resolveEnd built)

theorem wiredEnds_cons {link : PairedLink} {a b : Endpoint}
    (ha : resolvePairedEnd built link.fromNode link.fromIface = some a)
    (hb : resolvePairedEnd built link.toNode link.toIface = some b) (rest : List PairedLink) :
    wiredEnds built (link :: rest) = a :: b :: wiredEnds built rest := by
  have hfrom : resolveEnd built (link.fromNode, link.fromIface) = some a := ha
  have hto : resolveEnd built (link.toNode, link.toIface) = some b := hb
  have hends : (link :: rest).flatMap PairedLink.ends = (link.fromNode, link.fromIface) ::
      (link.toNode, link.toIface) :: rest.flatMap PairedLink.ends := rfl
  unfold wiredEnds
  rw [hends, List.filterMap_cons_some hfrom, List.filterMap_cons_some hto]

theorem mem_wiredEnds {links : List PairedLink} {e : Endpoint} (h : e ∈ wiredEnds built links) :
    ∃ n i, e = .node n i := by
  obtain ⟨linkEnd, _, hresolve⟩ := List.mem_filterMap.mp h
  obtain ⟨nodeId, _, index, _, _, _, heq⟩ := resolveEnd_node hresolve
  exact ⟨nodeId, index, heq⟩

theorem addPairedLinks_refused {link : PairedLink} {a b : Endpoint} {error : LinkError}
    (ha : resolvePairedEnd built link.fromNode link.fromIface = some a)
    (hb : resolvePairedEnd built link.toNode link.toIface = some b)
    (h : createLinkData data a b none = .error error) (rest : List PairedLink) :
    addPairedLinks built data (link :: rest) = .error (.linking error) := by
  unfold addPairedLinks
  rw [ha, hb]
  dsimp only
  rw [h]

theorem addPairedLinks_created {link : PairedLink} {a b : Endpoint} {created : CreatedLink}
    (ha : resolvePairedEnd built link.fromNode link.fromIface = some a)
    (hb : resolvePairedEnd built link.toNode link.toIface = some b)
    (h : createLinkData data a b none = .ok created) (rest : List PairedLink) :
    addPairedLinks built data (link :: rest) = addPairedLinks built created.data rest := by
  conv_lhs => unfold addPairedLinks
  rw [ha, hb]
  dsimp only
  rw [h]

theorem forall_pairedEnds_cons {p : String × String → Prop} {link : PairedLink}
    {rest : List PairedLink} :
    (∀ linkEnd ∈ (link :: rest).flatMap PairedLink.ends, p linkEnd) ↔
      p (link.fromNode, link.fromIface) ∧ p (link.toNode, link.toIface) ∧
        ∀ linkEnd ∈ rest.flatMap PairedLink.ends, p linkEnd := by
  have hends : (link :: rest).flatMap PairedLink.ends = (link.fromNode, link.fromIface) ::
      (link.toNode, link.toIface) :: rest.flatMap PairedLink.ends := rfl
  rw [hends, List.forall_mem_cons, List.forall_mem_cons]

/-- An end that is not found stops the loop. -/
theorem addPairedLinks_unresolved {link : PairedLink}
    (h : resolvePairedEnd built link.fromNode link.fromIface = none ∨
      resolvePairedEnd built link.toNode link.toIface = none) (rest : List PairedLink) :
    ¬ ∃ result, addPairedLinks built data (link :: rest) = .ok result := by
  intro hok
  obtain ⟨result, hok⟩ := hok
  unfold addPairedLinks at hok
  rcases h with ha | hb
  · rw [ha] at hok
    cases hok
  · rw [hb] at hok
    cases ha : resolvePairedEnd built link.fromNode link.fromIface with
    | none =>
      rw [ha] at hok
      cases hok
    | some a =>
      rw [ha] at hok
      cases hok

/-- The loop goes on behind the bridge of its first link. -/
theorem addPairedLinks_cons_iff {link : PairedLink} {n i m j : Int}
    (ha : resolvePairedEnd built link.fromNode link.fromIface = some (.node n i))
    (hb : resolvePairedEnd built link.toNode link.toIface = some (.node m j))
    (rest : List PairedLink) :
    (∃ result, addPairedLinks built data (link :: rest) = .ok result) ↔
      (Endpoint.node n i ≠ .node m j ∧ Unwired data (.node n i) ∧ Unwired data (.node m j)) ∧
        ∃ result, addPairedLinks built
          (createImplicitBridge data (.node n i) (.node m j) none).data rest = .ok result := by
  rw [← createLinkData_nodes_ok_iff data n i m j none]
  cases hcreate : createLinkData data (.node n i) (.node m j) none with
  | error e =>
    rw [addPairedLinks_refused ha hb hcreate]
    constructor
    · intro h
      obtain ⟨_, h⟩ := h
      cases h
    · intro h
      obtain ⟨⟨_, h⟩, _⟩ := h
      cases h
  | ok created =>
    rw [addPairedLinks_created ha hb hcreate, createLinkData_nodes hcreate]
    exact (and_iff_right ⟨_, rfl⟩).symm

/-- Two new ends before others: apart from each other and from those, and all of them unwired. -/
theorem wired_cons_iff {n i m j : Int} {later : List Endpoint}
    (hlater : ∀ e ∈ later, ∃ k p, e = .node k p) :
    ((Endpoint.node n i ≠ .node m j ∧ Unwired data (.node n i) ∧ Unwired data (.node m j)) ∧
        later.Nodup ∧ ∀ e ∈ later,
          Unwired (createImplicitBridge data (.node n i) (.node m j) none).data e) ↔
      (Endpoint.node n i :: .node m j :: later).Nodup ∧
        ∀ e ∈ Endpoint.node n i :: .node m j :: later, Unwired data e := by
  have hsplit : ∀ e ∈ later,
      (Unwired (createImplicitBridge data (.node n i) (.node m j) none).data e ↔
        Unwired data e ∧ e ≠ .node n i ∧ e ≠ .node m j) := by
    intro e he
    obtain ⟨k, p, rfl⟩ := hlater e he
    exact unwired_createImplicitBridge_iff
  rw [List.nodup_cons, List.nodup_cons, List.forall_mem_cons, List.forall_mem_cons, List.mem_cons]
  constructor
  · intro h
    obtain ⟨⟨hne, hfreea, hfreeb⟩, hnodup, hfree⟩ := h
    refine ⟨⟨?_, ?_, hnodup⟩, hfreea, hfreeb, ?_⟩
    · intro hmem
      rcases hmem with heq | hmem
      · exact hne heq
      · exact ((hsplit _ hmem).mp (hfree _ hmem)).2.1 rfl
    · intro hmem
      exact ((hsplit _ hmem).mp (hfree _ hmem)).2.2 rfl
    · intro e he
      exact ((hsplit e he).mp (hfree e he)).1
  · intro h
    obtain ⟨⟨hnota, hnotb, hnodup⟩, hfreea, hfreeb, hfree⟩ := h
    refine ⟨⟨fun heq => hnota (Or.inl heq), hfreea, hfreeb⟩, hnodup, ?_⟩
    intro e he
    refine (hsplit e he).mpr ⟨hfree e he, ?_, ?_⟩
    · intro heq
      exact hnota (Or.inr (heq ▸ he))
    · intro heq
      exact hnotb (heq ▸ he)

/-- The loop over the links ends well exactly when every end is found, no two ends are one
interface, and none is wired yet. -/
theorem addPairedLinks_ok_iff {links : List PairedLink} :
    (∃ result, addPairedLinks built data links = .ok result) ↔
      (∀ linkEnd ∈ links.flatMap PairedLink.ends, (resolveEnd built linkEnd).isSome = true) ∧
        (wiredEnds built links).Nodup ∧ ∀ e ∈ wiredEnds built links, Unwired data e := by
  induction links generalizing data with
  | nil =>
    refine ⟨fun _ => ⟨?_, List.nodup_nil, ?_⟩, fun _ => ⟨data, rfl⟩⟩
    · intro linkEnd h
      cases h
    · intro e h
      cases h
  | cons link rest ih =>
    rw [forall_pairedEnds_cons]
    unfold resolveEnd
    dsimp only
    cases ha : resolvePairedEnd built link.fromNode link.fromIface with
    | none =>
      refine iff_of_false (addPairedLinks_unresolved (Or.inl ha) rest) ?_
      intro h
      cases h.1.1
    | some a =>
      cases hb : resolvePairedEnd built link.toNode link.toIface with
      | none =>
        refine iff_of_false (addPairedLinks_unresolved (Or.inr hb) rest) ?_
        intro h
        cases h.1.2.1
      | some b =>
        rw [wiredEnds_cons ha hb rest]
        obtain ⟨n, _, i, _, _, _, rfl⟩ := @resolveEnd_node built (link.fromNode, link.fromIface) a ha
        obtain ⟨m, _, j, _, _, _, rfl⟩ := @resolveEnd_node built (link.toNode, link.toIface) b hb
        rw [addPairedLinks_cons_iff ha hb, ih, ← wired_cons_iff (fun e he => mem_wiredEnds he)]
        unfold resolveEnd
        simp only [Option.isSome_some, true_and]
        exact and_left_comm

theorem Joined.mono {data next : Lab} {a b : Endpoint} (h : Joined data a b)
    (hlinks : ∀ l ∈ data.links, l ∈ next.links) : Joined next a b := by
  obtain ⟨networkId, ⟨l, hl, hfrom⟩, ⟨k, hk, hto⟩⟩ := h
  exact ⟨networkId, ⟨l, hlinks l hl, hfrom⟩, ⟨k, hlinks k hk, hto⟩⟩

/-- After the loop the ends of each link are joined, and no link is gone. -/
theorem addPairedLinks_joined {data result : Lab} {links : List PairedLink}
    (h : addPairedLinks built data links = .ok result) :
    (∀ l ∈ data.links, l ∈ result.links) ∧ ∀ link ∈ links, ∃ a b,
      resolveEnd built (link.fromNode, link.fromIface) = some a ∧
        resolveEnd built (link.toNode, link.toIface) = some b ∧ Joined result a b := by
  induction links generalizing data with
  | nil =>
    cases h
    refine ⟨fun _ hl => hl, fun link hlink => ?_⟩
    cases hlink
  | cons link rest ih =>
    cases ha : resolvePairedEnd built link.fromNode link.fromIface with
    | none =>
      unfold addPairedLinks at h
      rw [ha] at h
      cases h
    | some a =>
      cases hb : resolvePairedEnd built link.toNode link.toIface with
      | none =>
        unfold addPairedLinks at h
        rw [ha, hb] at h
        cases h
      | some b =>
        obtain ⟨n, _, i, _, _, _, rfl⟩ := @resolveEnd_node built (link.fromNode, link.fromIface) a ha
        obtain ⟨m, _, j, _, _, _, rfl⟩ := @resolveEnd_node built (link.toNode, link.toIface) b hb
        cases hcreate : createLinkData data (.node n i) (.node m j) none with
        | error e =>
          rw [addPairedLinks_refused ha hb hcreate] at h
          cases h
        | ok created =>
          rw [addPairedLinks_created ha hb hcreate] at h
          have hcreated := createLinkData_nodes hcreate
          subst hcreated
          obtain ⟨hkeep, hjoined⟩ := ih h
          refine ⟨fun l hl => hkeep l (List.mem_append_left _ hl), fun other hother => ?_⟩
          rcases List.mem_cons.mp hother with rfl | hother
          · exact ⟨_, _, ha, hb, (createImplicitBridge_joined data _ _ none).mono hkeep⟩
          · exact hjoined other hother

end NovaVe
