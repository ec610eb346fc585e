import NovaVe.LabGraph

namespace NovaVe

/-- The network whose record `create_link` looks up: the first network endpoint. -/
def firstNetwork (a b : Endpoint) : Option Int :=
  ([a, b].filterMap Endpoint.network?).head?

/-- Under which `create_link` is not refused. -/
def LinkAccepted (data : Lab) (a b : Endpoint) : Prop :=
  takeMutexes a b = .ok () ∧ checkConflicts a b data.links = .ok () ∧
    ∀ networkId, firstNetwork a b = some networkId → (data.networks.get? networkId).isSome

/-- What an accepted `create_link` does not check: the node endpoints exist, and the second network
of a link between two networks exists and is not implicit. -/
structure EndpointsOk (data : Lab) (a b : Endpoint) : Prop where
  nodes : ∀ n i, Endpoint.node n i ∈ [a, b] → (Endpoint.node n i).Exists data
  second : ∀ j k, a = .network j → b = .network k →
    (data.networks.get? k).isSome ∧ ¬data.IsImplicit k

theorem checkConflicts_ok {a b : Endpoint} {links : List Link}
    (h : checkConflicts a b links = .ok ()) {key : Int × Int}
    (hk : key ∈ [a, b].filterMap Endpoint.iface?) : key ∉ links.flatMap Link.ifaces := by
  induction links with
  | nil => exact List.not_mem_nil
  | cons existing rest ih =>
    unfold checkConflicts at h
    split at h
    next => cases h
    next =>
      split at h
      next => cases h
      next hf =>
        have hno := List.find?_eq_none.mp hf
        rw [List.flatMap_cons, List.mem_append]
        rintro (hm | hm)
        · have := hno key hm
          simp [hk] at this
        · exact ih h hm

theorem ids_append_fresh {ids : List String} {id : String} (h : ids.Nodup) (hn : id ∉ ids) :
    (ids ++ [id]).Nodup := by
  refine List.nodup_append.mpr ⟨h, List.nodup_singleton _, ?_⟩
  intro x hx y hy he
  obtain rfl := List.mem_singleton.mp hy
  exact hn (he ▸ hx)

theorem createImplicitBridge_inv {data : Lab} {n i m j : Int} {style : Option String}
    (h : GraphInv data)
    (hc : checkConflicts (.node n i) (.node m j) data.links = .ok ())
    (hne : (n, i) ≠ (m, j)) (hok : EndpointsOk data (.node n i) (.node m j)) :
    GraphInv (createImplicitBridge data (.node n i) (.node m j) style).data := by
  have hfresh : data.networks.get? data.networks.nextKey = none := data.networks.get?_nextKey
  have hpos := data.networks.nextKey_pos
  have hrefs := h.toGraphOk.references_missing hfresh
  have hid := nextLinkId_notMem data.linkIds
  have hid' := nextLinkId_notMem (data.linkIds ++ [nextLinkId data.linkIds])
  refine h.append (createImplicitBridge data (.node n i) (.node m j) style).concrete rfl
    (fun e he => exists_set_network _ _ he) ?_ ?_ ?_ ?_ ?_ ?_
  · intro l hl e he
    simp only [createImplicitBridge, List.mem_cons, List.not_mem_nil, or_false] at hl
    have hnet : (Endpoint.network data.networks.nextKey).Exists
        (createImplicitBridge data (.node n i) (.node m j) style).data := by
      simp [Endpoint.Exists, createImplicitBridge]
    rcases hl with rfl | rfl <;> rcases List.mem_pair.mp he with rfl | rfl
    · exact exists_set_network _ _ (hok.nodes _ _ List.mem_cons_self)
    · exact hnet
    · exact exists_set_network _ _ (hok.nodes _ _ (List.mem_cons_of_mem _ List.mem_cons_self))
    · exact hnet
  · change [(n, i), (m, j)].Nodup
    simpa using hne
  · intro key hk
    exact checkConflicts_ok hc hk
  · have hids := ids_append_fresh (ids_append_fresh h.ids hid) hid'
    rw [List.append_assoc] at hids
    exact hids
  · rintro k ⟨network, hget, himp⟩
    by_cases hk : k = data.networks.nextKey
    · subst hk
      refine ⟨?_, ?_⟩
      · rw [hrefs]
        simp [createImplicitBridge, references, Link.networks, Link.endpoints,
          List.filterMap_cons, Endpoint.network?]
      · intro l hl hm
        rcases List.mem_append.mp hl with hl | hl
        · have := references_pos_iff.mpr ⟨l, hl, hm⟩
          omega
        · simp only [createImplicitBridge, List.mem_cons, List.not_mem_nil, or_false] at hl
          rcases hl with rfl | rfl <;> rfl
    · have hold : data.IsImplicit k := by
        refine ⟨network, ?_, himp⟩
        simpa [createImplicitBridge, Dict.get?_set_ne _ _ (Ne.symm hk)] using hget
      refine ⟨?_, ?_⟩
      · rw [h.implicit k hold]
        simp [createImplicitBridge, references, Link.networks, Link.endpoints,
          List.filterMap_cons, Endpoint.network?, Ne.symm hk]
      · intro l hl hm
        rcases List.mem_append.mp hl with hl | hl
        · exact h.mixed l hl k hm hold
        · simp only [createImplicitBridge, List.mem_cons, List.not_mem_nil, or_false] at hl
          rcases hl with rfl | rfl <;>
            simp [Link.networks, Link.endpoints, List.filterMap_cons, Endpoint.network?] at hm <;>
            exact absurd hm hk
  · change (data.networks.set data.networks.nextKey _).get? 0 = none
    rw [Dict.get?_set_ne _ _ (by omega)]
    exact h.positive

theorem promoteAtThree_links (data : Lab) (k : Int) :
    (promoteAtThree data k).1.links = data.links := by
  unfold promoteAtThree
  split
  next => split <;> rfl
  next => rfl

theorem promoteAtThree_nodes (data : Lab) (k : Int) :
    (promoteAtThree data k).1.nodes = data.nodes := by
  unfold promoteAtThree
  split
  next => split <;> rfl
  next => rfl

theorem promoteAtThree_isSome (data : Lab) (k j : Int) :
    ((promoteAtThree data k).1.networks.get? j).isSome = (data.networks.get? j).isSome := by
  unfold promoteAtThree
  split
  next record hget =>
    split
    next =>
      rw [Dict.get?_set]
      split
      next hj => rw [← hj, hget]; rfl
      next => rfl
    next => rfl
  next => rfl

/-- A network with three references is not implicit after the promotion check. -/
theorem promoteAtThree_implicit {data : Lab} {k j : Int}
    (h : (promoteAtThree data k).1.IsImplicit j) :
    data.IsImplicit j ∧ (j = k → refcount data.links k ≠ 3) := by
  obtain ⟨network, hget, himp⟩ := h
  unfold promoteAtThree at hget
  split at hget
  next record hrec =>
    split at hget
    next hc =>
      rw [Dict.get?_set] at hget
      split at hget
      next =>
        cases hget
        exact absurd himp Bool.false_ne_true
      next hj => exact ⟨⟨network, hget, himp⟩, fun he => absurd he.symm hj⟩
    next hc =>
      refine ⟨⟨network, hget, himp⟩, ?_⟩
      rintro rfl h3
      rw [hrec] at hget
      cases hget
      exact hc ⟨himp, h3⟩
  next hnone =>
    refine ⟨⟨network, hget, himp⟩, ?_⟩
    rintro rfl
    rw [hnone] at hget
    cases hget

/-- A network of the new link is the one looked up or the second of two. -/
theorem firstNetwork_or_second {a b : Endpoint} {k j : Int} (hk : firstNetwork a b = some k)
    (hj : j ∈ [a, b].filterMap Endpoint.network?) :
    j = k ∨ (a = .network k ∧ b = .network j) := by
  cases a with
  | node n i =>
    cases b with
    | node m l => cases hk
    | network b => left; cases hk; exact List.mem_singleton.mp hj
  | network a =>
    cases hk
    cases b with
    | node m l => left; exact List.mem_singleton.mp hj
    | network b =>
      rcases List.mem_pair.mp hj with rfl | rfl
      · exact Or.inl rfl
      · exact Or.inr ⟨rfl, rfl⟩

theorem count_firstNetwork {a b : Endpoint} {k : Int} (hk : firstNetwork a b = some k)
    (hb : a = .network k → b ≠ .network k) :
    ([a, b].filterMap Endpoint.network?).count k = 1 := by
  cases a with
  | node n i =>
    cases b with
    | node m l => cases hk
    | network b => cases hk; exact List.count_singleton_self
  | network a =>
    cases hk
    cases b with
    | node m l => exact List.count_singleton_self
    | network b =>
      have hne : b ≠ k := fun he => hb rfl (he ▸ rfl)
      change [k, b].count k = 1
      simp [hne]

theorem nodup_ifaces_of_network {a b : Endpoint} {k : Int} (hk : firstNetwork a b = some k) :
    ([a, b].filterMap Endpoint.iface?).Nodup := by
  cases a with
  | node n i =>
    cases b with
    | node m l => cases hk
    | network b => exact List.nodup_singleton _
  | network a =>
    cases b with
    | node m l => exact List.nodup_singleton _
    | network b => exact List.nodup_nil

theorem createMixedLink_inv {data : Lab} {a b : Endpoint} {style : Option String} {k : Int}
    {created : CreatedLink} (h : GraphInv data)
    (hc : checkConflicts a b data.links = .ok ()) (hok : EndpointsOk data a b)
    (hk : firstNetwork a b = some k) (hd : createMixedLink data a b style k = .ok created) :
    GraphInv created.data := by
  unfold createMixedLink at hd
  split at hd
  next => cases hd
  next record hget =>
    cases hd
    let l : Link :=
      { id := nextLinkId data.linkIds, from_ := a, to_ := b, styleOverride := style }
    let data' : Lab := { data with links := data.links ++ [l] }
    have hnew : ∀ j ∈ l.networks, j = k ∨ (a = .network k ∧ b = .network j) :=
      fun j hj => firstNetwork_or_second hk hj
    have hkl : k ∈ l.networks := List.mem_of_head? hk
    have hrefs : ∀ j, references [l] j = l.networks.count j := by
      intro j
      rw [references_cons, references_nil, Nat.add_zero]
    have hnot : ∀ j, (promoteAtThree data' k).1.IsImplicit j →
        data.IsImplicit j ∧ j ∉ l.networks := by
      intro j hj
      obtain ⟨hji, h3⟩ := promoteAtThree_implicit hj
      refine ⟨hji, fun hm => ?_⟩
      rcases hnew j hm with rfl | ⟨ha, hb⟩
      · have hcount : l.networks.count j = 1 :=
          count_firstNetwork hk (fun ha hb => (hok.second j j ha hb).2 hji)
        refine h3 rfl ?_
        rw [refcount_eq_references _ (h.networkId_ne_zero hget)]
        change references (data.links ++ [l]) j = 3
        rw [references_append, h.implicit j hji, hrefs, hcount]
      · exact (hok.second k j ha hb).2 hji
    refine h.append [l] (promoteAtThree_links data' k) ?_ ?_ ?_ ?_ ?_ ?_ ?_
    · intro e he
      refine he.mono (fun n node hn => ⟨node, ?_, le_rfl⟩) (fun j hj => ?_)
      · rw [promoteAtThree_nodes]; exact hn
      · rw [promoteAtThree_isSome]; exact hj
    · intro l' hl' e he
      obtain rfl := List.mem_singleton.mp hl'
      have hex : e.Exists data := by
        cases e with
        | node n i => exact hok.nodes n i he
        | network j =>
          rcases hnew j (Link.mem_networks_iff.mpr he) with rfl | ⟨ha, hb⟩
          · simp [Endpoint.Exists, hget]
          · exact (hok.second k j ha hb).1
      refine hex.mono (fun n node hn => ⟨node, ?_, le_rfl⟩) (fun j hj => ?_)
      · rw [promoteAtThree_nodes]; exact hn
      · rw [promoteAtThree_isSome]; exact hj
    · have hif := nodup_ifaces_of_network hk
      simpa [l, Link.ifaces, Link.endpoints] using hif
    · intro key hkey
      refine checkConflicts_ok hc ?_
      simpa [l, Link.ifaces, Link.endpoints] using hkey
    · exact ids_append_fresh h.ids (nextLinkId_notMem data.linkIds)
    · intro j hj
      obtain ⟨hji, hjn⟩ := hnot j hj
      refine ⟨?_, ?_⟩
      · rw [hrefs, List.count_eq_zero_of_not_mem hjn, h.implicit j hji]
      · intro l' hl' hm
        rcases List.mem_append.mp hl' with hl' | hl'
        · exact h.mixed l' hl' j hm hji
        · obtain rfl := List.mem_singleton.mp hl'
          exact absurd hm hjn
    · have hz := promoteAtThree_isSome data' k 0
      rw [show data'.networks.get? 0 = none from h.positive] at hz
      simpa using hz

end NovaVe
