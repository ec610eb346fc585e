import NovaVe.LinkGraph
import NovaVe.Runs

namespace NovaVe

theorem map_modifyFirst {α β : Type} (p : α → Bool) (f : α → α) (g : α → β)
    (h : ∀ x, g (f x) = g x) (xs : List α) : (modifyFirst p f xs).map g = xs.map g := by
  induction xs with
  | nil => rfl
  | cons x xs ih =>
    unfold modifyFirst
    split
    next => simp [h]
    next => simp [ih]

theorem length_modifyFirst {α : Type} (p : α → Bool) (f : α → α) (xs : List α) :
    (modifyFirst p f xs).length = xs.length := by
  have h := congrArg List.length (map_modifyFirst p f (fun _ => ()) (fun _ => rfl) xs)
  simpa using h

theorem stampLinkAttachGeneration_inv {data : Lab} (stamp : Stamp) (h : GraphInv data) :
    GraphInv (stampLinkAttachGeneration data stamp) := by
  have hwires : (stampLinkAttachGeneration data stamp).wires = data.wires := by
    unfold stampLinkAttachGeneration
    dsimp only
    split <;> exact map_modifyFirst _ (stampLink stamp.attachGeneration) _ (fun _ => rfl) _
  have hnets : (stampLinkAttachGeneration data stamp).networks = data.networks := by
    unfold stampLinkAttachGeneration
    dsimp only
    split <;> rfl
  have hnodes : ∀ n node, data.nodes.get? n = some node →
      ∃ node', (stampLinkAttachGeneration data stamp).nodes.get? n = some node' ∧
        node.interfaces.length ≤ node'.interfaces.length := by
    intro n node hget
    unfold stampLinkAttachGeneration
    dsimp only
    split
    next => exact ⟨node, hget, le_rfl⟩
    next node₀ hget₀ =>
      by_cases hn : stamp.nodeId = n
      · subst hn
        rw [hget] at hget₀
        cases hget₀
        refine ⟨_, Dict.get?_set_self _ _ _, ?_⟩
        exact (length_modifyFirst _ _ _).ge
      · exact ⟨node, by rw [Dict.get?_set_ne _ _ hn]; exact hget, le_rfl⟩
  refine h.frame hwires (fun _ _ e _ he => he.mono hnodes (fun k hk => hnets ▸ hk)) ?_ ?_
  · rintro k ⟨network, hget, himp⟩
    exact ⟨network, hnets ▸ hget, himp⟩
  · rw [hnets]
    exact h.positive

theorem stamps_inv {data : Lab} (stamps : List Stamp) (h : GraphInv data) :
    GraphInv (stamps.foldl stampLinkAttachGeneration data) := by
  induction stamps generalizing data with
  | nil => exact h
  | cons stamp rest ih => exact ih (stampLinkAttachGeneration_inv stamp h)

theorem createLinkData_inv {data : Lab} {a b : Endpoint} {style : Option String}
    {created : CreatedLink} (h : GraphInv data) (hok : LinkAccepted data a b → EndpointsOk data a b)
    (hd : createLinkData data a b style = .ok created) : GraphInv created.data := by
  unfold createLinkData at hd
  obtain ⟨_, hmutex, hd⟩ := bind_eq_ok.mp hd
  obtain ⟨_, hc, hd⟩ := bind_eq_ok.mp hd
  have hmixed : ∀ k, firstNetwork a b = some k → createMixedLink data a b style k = .ok created →
      GraphInv created.data := by
    intro k hk hm
    refine createMixedLink_inv h hc (hok ⟨hmutex, hc, fun j hj => ?_⟩) hk hm
    rw [hk] at hj
    cases hj
    unfold createMixedLink at hm
    split at hm
    next => cases hm
    next record hget => simp [hget]
  cases a with
  | network k => exact hmixed k rfl hd
  | node n i =>
    cases b with
    | network k => exact hmixed k rfl hd
    | node m j =>
      cases hd
      have hne : (n, i) ≠ (m, j) := by
        intro heq
        obtain ⟨rfl, rfl⟩ := Prod.mk.inj heq
        simp [takeMutexes, Endpoint.network?] at hmutex
      exact createImplicitBridge_inv h hc hne (hok ⟨hmutex, hc, fun k hk => by cases hk⟩)

theorem createLink_inv {data data' : Lab} {a b : Endpoint} {style : Option String}
    {hotAttach : Option (List Stamp)} (h : GraphInv data)
    (hok : hotAttach.isSome → LinkAccepted data a b → EndpointsOk data a b)
    (hd : createLink data a b style hotAttach = .ok data') : GraphInv data' := by
  unfold createLink at hd
  split at hd
  next => cases hd
  next created hcreated =>
    split at hd
    next => cases hd
    next stamps =>
      cases hd
      exact stamps_inv stamps (createLinkData_inv h (hok rfl) hcreated)

theorem releaseHere_inv {data : Lab} (h : GraphInv data) (release : Option (IpamTarget × String)) :
    GraphInv (releaseHere data release) ∧ (releaseHere data release).links = data.links := by
  unfold releaseHere
  split
  next networkId ip =>
    unfold releaseIpFromOwner
    split
    next => exact ⟨h, rfl⟩
    next network hget =>
      split
      next => exact ⟨h.setNetwork hget id, rfl⟩
      next => exact ⟨h, rfl⟩
  next => exact ⟨h, rfl⟩

/-- One link goes, with its references. -/
theorem references_eraseP {p : Link → Bool} {links : List Link} {l : Link}
    (hf : links.find? p = some l) (k : Int) :
    references (links.eraseP p) k + l.networks.count k = references links k := by
  induction links with
  | nil => cases hf
  | cons x rest ih =>
    by_cases hp : p x
    · rw [List.find?_cons_of_pos hp] at hf
      cases hf
      rw [List.eraseP_cons_of_pos hp, references_cons]
      omega
    · rw [List.find?_cons_of_neg hp] at hf
      have hrest := ih hf
      rw [List.eraseP_cons_of_neg hp, references_cons, references_cons]
      omega

theorem cascadeOrphan_of_not_implicit {data : Lab} {k : Int} (h : ¬data.IsImplicit k)
    (links : List Link) : cascadeOrphan data.networks links k = links := by
  unfold cascadeOrphan
  split
  next record hget => rw [if_neg (fun hc => h ⟨record, hget, hc.1⟩)]
  next => rfl

theorem collectImplicit_of_not_implicit {data : Lab} {k : Int} (h : ¬data.IsImplicit k)
    (links : List Link) : collectImplicit links data.networks k = data.networks := by
  unfold collectImplicit
  split
  next record hget => rw [if_neg (fun hc => h ⟨record, hget, hc.1⟩)]
  next => rfl

/-- Removing a link that references no implicit network only removes the link. -/
theorem removeLink_of_not_implicit {data : Lab} {removed : Link}
    (h : ∀ k ∈ removed.networks, ¬data.IsImplicit k) (linkId : String) :
    removeLink data removed linkId =
      { data with links := data.links.eraseP (fun l => decide (l.id = linkId)) } := by
  have hc := foldl_fixed (f := cascadeOrphan data.networks)
    (b := data.links.eraseP (fun l => decide (l.id = linkId)))
    (fun k hk => cascadeOrphan_of_not_implicit (h k hk) _)
  have hn := foldl_fixed
    (f := collectImplicit (data.links.eraseP (fun l => decide (l.id = linkId))))
    (b := data.networks) (fun k hk => collectImplicit_of_not_implicit (h k hk) _)
  unfold removeLink
  simp only [hc, hn]

/-- Removing one half of an implicit bridge removes the other half and the network. -/
theorem removeLink_of_implicit {data : Lab} {removed : Link} {linkId : String} {k : Int}
    (h : GraphInv data) (hf : findLink data linkId = some removed) (hk : k ∈ removed.networks)
    (himp : data.IsImplicit k) :
    ∃ links', removeLink data removed linkId =
        { data with networks := data.networks.pop k, links := links' } ∧
      List.Sublist links' data.links ∧ references links' k = 0 ∧
      ∀ j, j ≠ k → references links' j = references data.links j := by
  obtain ⟨record, hget, hrec⟩ := himp
  have hmem : removed ∈ data.links := List.mem_of_find?_eq_some hf
  have hnets : removed.networks = [k] := h.mixed removed hmem k hk ⟨record, hget, hrec⟩
  have hk0 := h.networkId_ne_zero hget
  have htwo := h.implicit k ⟨record, hget, hrec⟩
  let rest := data.links.eraseP (fun l => decide (l.id = linkId))
  have hrest : ∀ j, references rest j + removed.networks.count j = references data.links j :=
    references_eraseP hf
  have hone : references rest k = 1 := by
    have := hrest k
    rw [hnets, List.count_singleton_self] at this
    omega
  obtain ⟨l, hl, hlk⟩ := references_pos_iff.mp (by omega : 0 < references rest k)
  obtain ⟨other, hother⟩ := Option.isSome_iff_exists.mp
    (List.find?_isSome.mpr ⟨l, hl, decide_eq_true hlk⟩ :
      (rest.find? (fun l => decide (k ∈ l.networks))).isSome)
  have hsub : List.Sublist rest data.links := List.eraseP_sublist
  have hok : k ∈ other.networks := by simpa using List.find?_some hother
  have honets : other.networks = [k] :=
    h.mixed other (hsub.subset (List.mem_of_find?_eq_some hother)) k hok ⟨record, hget, hrec⟩
  have hlinks : ∀ j, references (rest.eraseP (fun l => decide (k ∈ l.networks))) j +
      other.networks.count j = references rest j := references_eraseP hother
  have hzero : references (rest.eraseP (fun l => decide (k ∈ l.networks))) k = 0 := by
    have := hlinks k
    rw [honets, List.count_singleton_self] at this
    omega
  have hcascade : cascadeOrphan data.networks rest k =
      rest.eraseP (fun l => decide (k ∈ l.networks)) := by
    unfold cascadeOrphan
    simp only [hget]
    rw [if_pos ⟨hrec, by rw [refcount_eq_references _ hk0]; exact hone⟩]
  have hcollect : collectImplicit (rest.eraseP (fun l => decide (k ∈ l.networks))) data.networks k =
      data.networks.pop k := by
    unfold collectImplicit
    simp only [hget]
    rw [if_pos ⟨hrec, by rw [refcount_eq_references _ hk0]; exact hzero⟩]
  refine ⟨rest.eraseP (fun l => decide (k ∈ l.networks)), ?_, List.eraseP_sublist.trans hsub, hzero, ?_⟩
  · unfold removeLink
    simp only [hnets, List.foldl_cons, List.foldl_nil]
    change { data with
      links := cascadeOrphan data.networks rest k
      networks := collectImplicit (cascadeOrphan data.networks rest k) data.networks k } = _
    rw [hcascade, hcollect]
  · intro j hj
    have hc := hlinks j
    have hr := hrest j
    rw [honets, List.count_singleton, if_neg (by simpa using Ne.symm hj)] at hc
    rw [hnets, List.count_singleton, if_neg (by simpa using Ne.symm hj)] at hr
    omega

theorem removeLink_inv {data : Lab} {removed : Link} {linkId : String} (h : GraphInv data)
    (hf : findLink data linkId = some removed) : GraphInv (removeLink data removed linkId) := by
  by_cases himp : ∃ k ∈ removed.networks, data.IsImplicit k
  · obtain ⟨k, hk, himp⟩ := himp
    obtain ⟨links', hrem, hsub, hzero, hrefs⟩ := removeLink_of_implicit h hf hk himp
    rw [hrem]
    refine h.shrink hsub ?_ ?_ ?_
    · intro l hl e hle he
      cases e with
      | node n i => exact he
      | network j =>
        have hj : j ≠ k := by
          rintro rfl
          have hpos : 0 < references links' j :=
            references_pos_iff.mpr ⟨l, hl, Link.mem_networks_iff.mpr hle⟩
          omega
        simpa [Endpoint.Exists, Dict.get?_pop_ne _ (Ne.symm hj)] using he
    · rintro j ⟨network, hget, hnet⟩
      rw [Dict.get?_pop] at hget
      split at hget
      next => cases hget
      next hj => exact ⟨⟨network, hget, hnet⟩, hrefs j (Ne.symm hj)⟩
    · change (data.networks.pop k).get? 0 = none
      rw [Dict.get?_pop, h.positive, ite_self]
  · have hno : ∀ k ∈ removed.networks, ¬data.IsImplicit k :=
      fun k hk hi => himp ⟨k, hk, hi⟩
    rw [removeLink_of_not_implicit hno]
    refine h.shrink List.eraseP_sublist (fun _ _ _ _ he => he) ?_ h.positive
    intro k hk
    have hr := references_eraseP hf k
    rw [List.count_eq_zero_of_not_mem (fun hm => hno k hm hk)] at hr
    exact ⟨hk, hr⟩

theorem deleteLink_inv {owner : String → Option IpamTarget} {data data' : Lab} {linkId : String}
    {detached : Bool} (h : GraphInv data)
    (hd : deleteLink owner data linkId detached = .ok data') : GraphInv data' := by
  unfold deleteLink at hd
  split at hd
  next => cases hd; exact h
  next target hf =>
    split at hd
    next =>
      split at hd
      next => cases hd
      next release _ =>
        cases hd
        obtain ⟨hinv, hlinks⟩ := releaseHere_inv h release
        refine removeLink_inv hinv ?_
        unfold findLink
        rw [hlinks]
        exact hf
    next => cases hd

end NovaVe