import NovaVe.LinkSteps

namespace NovaVe

/-- How often the two endpoints of a request name a network. -/
def namedBy (a b : Endpoint) (networkId : Int) : Nat :=
  ([a, b].filterMap Endpoint.network?).count networkId

/-- The refcount of a network once a link between the two endpoints is there. -/
def refcountWith (data : Lab) (a b : Endpoint) (networkId : Int) : Nat :=
  refcount data.links networkId +
    [a, b].countP (fun e => decide (e.networkIdOrZero = networkId))

/-- The network `create_link` promotes: the first network endpoint, implicit until now, whose
refcount is exactly three with the new link. -/
def Promotes (data : Lab) (a b : Endpoint) (networkId : Int) : Prop :=
  firstNetwork a b = some networkId ∧ data.IsImplicit networkId ∧
    refcountWith data a b networkId = 3

/-- An implicit network, or one that is not there yet. -/
def Lab.NotExplicit (data : Lab) (networkId : Int) : Prop :=
  data.networks.get? networkId = none ∨ data.IsImplicit networkId

/-- Every network that got references from the new link, that was implicit or is new, and that has
three references or more afterwards, is explicit, visible and named. -/
def PromotesShared (data data' : Lab) : Prop :=
  ∀ networkId network, data.NotExplicit networkId →
    data'.networks.get? networkId = some network →
    references data.links networkId < references data'.links networkId →
    3 ≤ references data'.links networkId →
      network.implicit = false ∧ network.visibility = true ∧ network.name ≠ ""

/-- Under which the promotion check of `create_link` is enough: it looks at one network only, and
only for a refcount of three. -/
def PromotionCovers (data : Lab) (a b : Endpoint) : Prop :=
  (firstNetwork a b = none → references data.links data.networks.nextKey = 0) ∧
  ∀ networkId, data.IsImplicit networkId → 0 < namedBy a b networkId →
    3 ≤ references data.links networkId + namedBy a b networkId → Promotes data a b networkId

theorem stampLink_endpoints (generation : Int) (l : Link) :
    (stampLink generation l).endpoints = l.endpoints := rfl

theorem stampLinkAttachGeneration_networks (data : Lab) (stamp : Stamp) :
    (stampLinkAttachGeneration data stamp).networks = data.networks := by
  unfold stampLinkAttachGeneration
  cases data.nodes.get? stamp.nodeId with
  | none => rfl
  | some node => rfl

theorem stampLinkAttachGeneration_endpoints (data : Lab) (stamp : Stamp) :
    (stampLinkAttachGeneration data stamp).links.map Link.endpoints =
      data.links.map Link.endpoints := by
  unfold stampLinkAttachGeneration
  cases data.nodes.get? stamp.nodeId with
  | none => exact map_modifyFirst _ _ _ (stampLink_endpoints _) _
  | some node => exact map_modifyFirst _ _ _ (stampLink_endpoints _) _

theorem stamps_networks (stamps : List Stamp) (data : Lab) :
    (stamps.foldl stampLinkAttachGeneration data).networks = data.networks :=
  foldl_keeps Lab.networks stampLinkAttachGeneration_networks stamps data

theorem references_of_endpoints {xs ys : List Link}
    (h : xs.map Link.endpoints = ys.map Link.endpoints) (networkId : Int) :
    references xs networkId = references ys networkId := by
  have hflat : xs.flatMap Link.networks = ys.flatMap Link.networks := by
    have hmap := congrArg (fun es => es.flatMap (List.filterMap Endpoint.network?)) h
    rw [List.flatMap_map, List.flatMap_map] at hmap
    exact hmap
  unfold references
  rw [hflat]

theorem stamps_references (stamps : List Stamp) (data : Lab) (networkId : Int) :
    references (stamps.foldl stampLinkAttachGeneration data).links networkId =
      references data.links networkId := by
  apply references_of_endpoints
  exact foldl_keeps (fun lab : Lab => lab.links.map Link.endpoints)
    stampLinkAttachGeneration_endpoints stamps data

theorem promote_explicit (networkId : Int) (network : Network) :
    (promote networkId network).implicit = false ∧
      (promote networkId network).visibility = true ∧ (promote networkId network).name ≠ "" := by
  refine ⟨rfl, rfl, ?_⟩
  unfold promote
  by_cases hname : network.name = ""
  · rw [if_pos hname]
    intro hempty
    have hlen := congrArg String.length hempty
    simp [String.length_append] at hlen
  · rw [if_neg hname]
    exact hname

theorem createLink_ok {data data' : Lab} {a b : Endpoint} {style : Option String}
    {hotAttach : Option (List Stamp)} (h : createLink data a b style hotAttach = .ok data') :
    ∃ (created : CreatedLink) (stamps : List Stamp),
      createLinkData data a b style = .ok created ∧
      data' = stamps.foldl stampLinkAttachGeneration created.data := by
  unfold createLink at h
  cases hcreated : createLinkData data a b style with
  | error e =>
    rw [hcreated] at h
    cases h
  | ok created =>
    rw [hcreated] at h
    cases hotAttach with
    | none => cases h
    | some stamps =>
      cases h
      exact ⟨created, stamps, rfl, rfl⟩

/-- What `create_link` leaves of the networks and of the references. -/
inductive LinkMade (data : Lab) (a b : Endpoint) (data' : Lab) : Prop
  | bridge (none : firstNetwork a b = none)
      (networks : data'.networks =
        data.networks.set data.networks.nextKey (buildImplicitNetwork data.networks.nextKey))
      (links : ∀ k, references data'.links k =
        references data.links k + if k = data.networks.nextKey then 2 else 0)
  | plain (some : (firstNetwork a b).isSome)
      (unpromoted : ∀ k, ¬Promotes data a b k) (networks : data'.networks = data.networks)
      (links : ∀ k, references data'.links k = references data.links k + namedBy a b k)
  | promoted (networkId : Int) (network : Network) (promotes : Promotes data a b networkId)
      (stored : data.networks.get? networkId = some network)
      (networks : data'.networks = data.networks.set networkId (promote networkId network))
      (links : ∀ k, references data'.links k = references data.links k + namedBy a b k)

theorem references_new (data : Lab) (a b : Endpoint) (id : String) (style : Option String)
    (k : Int) :
    references (data.links ++ [{ id := id, from_ := a, to_ := b, styleOverride := style }]) k =
      references data.links k + namedBy a b k := by
  rw [references_append, references_cons, references_nil]
  rfl

theorem refcount_new (data : Lab) (a b : Endpoint) (id : String) (style : Option String)
    (k : Int) :
    refcount (data.links ++ [{ id := id, from_ := a, to_ := b, styleOverride := style }]) k =
      refcountWith data a b k := by
  unfold refcount refcountWith
  rw [List.flatMap_append, List.countP_append]
  rfl

theorem createMixedLink_made {data : Lab} {a b : Endpoint} {style : Option String}
    {networkId : Int} {created : CreatedLink} (hfirst : firstNetwork a b = some networkId)
    (h : createMixedLink data a b style networkId = .ok created) :
    LinkMade data a b created.data := by
  unfold createMixedLink at h
  cases hget : data.networks.get? networkId with
  | none =>
    rw [hget] at h
    cases h
  | some record =>
    rw [hget] at h
    cases h
    dsimp only
    have hcount := refcount_new data a b (nextLinkId data.linkIds) style networkId
    have hlinks := references_new data a b (nextLinkId data.linkIds) style
    unfold promoteAtThree
    dsimp only
    rw [hget]
    dsimp only
    rw [hcount]
    by_cases hthree : record.implicit ∧ refcountWith data a b networkId = 3
    · rw [if_pos hthree]
      exact .promoted networkId record ⟨hfirst, ⟨record, hget, hthree.1⟩, hthree.2⟩ hget rfl hlinks
    · rw [if_neg hthree]
      refine .plain (by rw [hfirst]; rfl) ?_ rfl hlinks
      intro k hpromotes
      obtain ⟨hk, ⟨network, hstored, himplicit⟩, hexact⟩ := hpromotes
      have heq : networkId = k := Option.some.inj (hfirst.symm.trans hk)
      subst heq
      have hsame : record = network := Option.some.inj (hget.symm.trans hstored)
      subst hsame
      exact hthree ⟨himplicit, hexact⟩

theorem createLinkData_made {data : Lab} {a b : Endpoint} {style : Option String}
    {created : CreatedLink} (h : createLinkData data a b style = .ok created) :
    LinkMade data a b created.data := by
  unfold createLinkData at h
  obtain ⟨_, _, h⟩ := bind_eq_ok.mp h
  obtain ⟨_, _, h⟩ := bind_eq_ok.mp h
  cases a with
  | network k => exact createMixedLink_made rfl h
  | node n i =>
    cases b with
    | network k => exact createMixedLink_made rfl h
    | node m j =>
      cases h
      refine .bridge rfl rfl ?_
      intro k
      by_cases hk : k = data.networks.nextKey
      · subst hk
        rw [if_pos rfl]
        simp [createImplicitBridge, references_append, references_cons, Link.networks,
          Link.endpoints, List.filterMap_cons, Endpoint.network?]
      · rw [if_neg hk]
        simp [createImplicitBridge, references_append, references_cons, Link.networks,
          Link.endpoints, List.filterMap_cons, Endpoint.network?, Ne.symm hk]

theorem LinkMade.of_stamps {data created : Lab} {a b : Endpoint} (h : LinkMade data a b created)
    (stamps : List Stamp) :
    LinkMade data a b (stamps.foldl stampLinkAttachGeneration created) := by
  have hnetworks := stamps_networks stamps created
  have hlinks := stamps_references stamps created
  cases h with
  | bridge hnone hset hrefs =>
    exact .bridge hnone (hnetworks.trans hset) (fun k => (hlinks k).trans (hrefs k))
  | plain hsome hnot hsame hrefs =>
    exact .plain hsome hnot (hnetworks.trans hsame) (fun k => (hlinks k).trans (hrefs k))
  | promoted networkId network hpromotes hstored hset hrefs =>
    exact .promoted networkId network hpromotes hstored (hnetworks.trans hset)
      (fun k => (hlinks k).trans (hrefs k))

theorem createLink_made {data data' : Lab} {a b : Endpoint} {style : Option String}
    {hotAttach : Option (List Stamp)} (h : createLink data a b style hotAttach = .ok data') :
    LinkMade data a b data' := by
  obtain ⟨created, stamps, hcreated, heq⟩ := createLink_ok h
  subst heq
  exact (createLinkData_made hcreated).of_stamps stamps

theorem namedBy_eq_zero {a b : Endpoint} (h : firstNetwork a b = none) (k : Int) :
    namedBy a b k = 0 := by
  cases a with
  | network j => cases h
  | node n i =>
    cases b with
    | network j => cases h
    | node m j => rfl

/-- The promotion check is enough exactly under `PromotionCovers`. -/
theorem LinkMade.promotesShared_iff {data data' : Lab} {a b : Endpoint}
    (h : LinkMade data a b data') : PromotesShared data data' ↔ PromotionCovers data a b := by
  cases h with
  | bridge hnone hset hrefs =>
    have hfresh : data.networks.get? data.networks.nextKey = none := data.networks.get?_nextKey
    constructor
    · intro hshared
      refine ⟨?_, ?_⟩
      · intro _
        by_contra hpos
        have hnew := hrefs data.networks.nextKey
        rw [if_pos rfl] at hnew
        have hget : data'.networks.get? data.networks.nextKey =
            some (buildImplicitNetwork data.networks.nextKey) := by
          rw [hset, Dict.get?_set_self]
        obtain ⟨hexplicit, _, _⟩ := hshared _ _ (Or.inl hfresh) hget (by omega) (by omega)
        cases hexplicit
      · intro k _ hnamed _
        have hzero := namedBy_eq_zero hnone k
        omega
    · intro hcovers k network hnot hget hgrown hthree
      have hk := hrefs k
      by_cases heq : k = data.networks.nextKey
      · subst heq
        rw [if_pos rfl] at hk
        have hno := hcovers.1 hnone
        omega
      · rw [if_neg heq] at hk
        omega
  | plain hsome hnot hsame hrefs =>
    constructor
    · intro hshared
      refine ⟨?_, ?_⟩
      · intro hnone
        rw [hnone] at hsome
        cases hsome
      · intro k himplicit hnamed hthree
        have hk := hrefs k
        obtain ⟨network, hstored, hflag⟩ := himplicit
        have hget : data'.networks.get? k = some network := by rw [hsame, hstored]
        obtain ⟨hexplicit, _, _⟩ := hshared k network (Or.inr ⟨network, hstored, hflag⟩) hget
          (by omega) (by omega)
        rw [hflag] at hexplicit
        cases hexplicit
    · intro hcovers k network hold hget hgrown hthree
      rw [hsame] at hget
      have hk := hrefs k
      rcases hold with hnone | himplicit
      · rw [hnone] at hget
        cases hget
      · exact absurd (hcovers.2 k himplicit (by omega) (by omega)) (hnot k)
  | promoted networkId record hpromotes hstored hset hrefs =>
    constructor
    · intro hshared
      refine ⟨?_, ?_⟩
      · intro hnone
        have hfirst := hpromotes.1
        rw [hnone] at hfirst
        cases hfirst
      · intro k himplicit hnamed hthree
        have hk := hrefs k
        by_cases heq : networkId = k
        · subst heq
          exact hpromotes
        · obtain ⟨network, hold, hflag⟩ := himplicit
          have hget : data'.networks.get? k = some network := by
            rw [hset, Dict.get?_set_ne _ _ heq, hold]
          obtain ⟨hexplicit, _, _⟩ := hshared k network (Or.inr ⟨network, hold, hflag⟩) hget
            (by omega) (by omega)
          rw [hflag] at hexplicit
          cases hexplicit
    · intro hcovers k network hold hget hgrown hthree
      have hk := hrefs k
      by_cases heq : networkId = k
      · subst heq
        rw [hset, Dict.get?_set_self] at hget
        cases hget
        exact promote_explicit networkId record
      · rw [hset, Dict.get?_set_ne _ _ heq] at hget
        rcases hold with hnone | himplicit
        · rw [hnone] at hget
          cases hget
        · obtain ⟨hfirst, _, _⟩ := hcovers.2 k himplicit (by omega) (by omega)
          exact absurd (Option.some.inj (hpromotes.1.symm.trans hfirst)) heq

end NovaVe
