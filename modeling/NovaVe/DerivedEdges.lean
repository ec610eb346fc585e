import NovaVe.CanvasEdges

namespace NovaVe

variable {req : CanvasInput} {e : CanvasEdge} {l : Link} {n : Int}

/-- The network's group is two halves that both start on a node. -/
structure MergedPair (req : CanvasInput) (networkId : Int) (a b : Link) : Prop where
  group : (pairsByNet req.networks req.links).get? networkId = some [a, b]
  left : a.from_.iface?.isSome
  right : b.from_.iface?.isSome

theorem mergedHalves_eq_some {group : List Link} {a b : Link} :
    mergedHalves group = some (a, b) ↔
      group = [a, b] ∧ a.from_.iface?.isSome ∧ b.from_.iface?.isSome := by
  rcases group with - | ⟨x, - | ⟨y, - | ⟨z, rest⟩⟩⟩ <;> simp [mergedHalves]
  constructor
  · rintro ⟨h, rfl, rfl⟩
    exact ⟨⟨rfl, rfl⟩, h⟩
  · rintro ⟨⟨rfl, rfl⟩, h⟩
    exact ⟨h, rfl, rfl⟩

theorem mergedPair_iff {networkId : Int} {a b : Link} :
    MergedPair req networkId a b ↔
      ∃ entry ∈ (pairsByNet req.networks req.links).entries,
        entry.1 = networkId ∧ mergedHalves entry.2 = some (a, b) := by
  constructor
  · rintro ⟨hgroup, ha, hb⟩
    exact ⟨(networkId, [a, b]), mem_of_assocGet hgroup, rfl,
      mergedHalves_eq_some.mpr ⟨rfl, ha, hb⟩⟩
  · rintro ⟨entry, hentry, rfl, h⟩
    obtain ⟨hgroup, ha, hb⟩ := mergedHalves_eq_some.mp h
    refine ⟨?_, ha, hb⟩
    rw [← hgroup]
    exact assocGet_of_mem (pairsByNet req.networks req.links).keysNodup hentry

theorem mem_pairEdges :
    e ∈ pairEdges req ↔ ∃ n a b, MergedPair req n a b ∧ e = pairEdge req n a b := by
  simp only [pairEdges, List.mem_filterMap, Option.map_eq_some_iff, mergedPair_iff]
  constructor
  · rintro ⟨entry, hentry, halves, hmerged, rfl⟩
    exact ⟨entry.1, halves.1, halves.2, ⟨entry, hentry, rfl, hmerged⟩, rfl⟩
  · rintro ⟨n, a, b, ⟨entry, hentry, rfl, hmerged⟩, rfl⟩
    exact ⟨entry, hentry, (a, b), hmerged, rfl⟩

theorem mem_handledImplicitLinkIds {id : String} :
    id ∈ handledImplicitLinkIds req ↔
      ∃ n a b, MergedPair req n a b ∧ (id = a.id ∨ id = b.id) := by
  simp only [handledImplicitLinkIds, List.mem_flatMap, mergedPair_iff]
  constructor
  · rintro ⟨entry, hentry, hid⟩
    cases hmerged : mergedHalves entry.2 with
    | none => simp [hmerged] at hid
    | some halves =>
      simp only [hmerged, List.mem_cons, List.not_mem_nil, or_false] at hid
      exact ⟨entry.1, halves.1, halves.2, ⟨entry, hentry, rfl, hmerged⟩, hid⟩
  · rintro ⟨n, a, b, ⟨entry, hentry, rfl, hmerged⟩, hid⟩
    exact ⟨entry, hentry, by simpa [hmerged] using hid⟩

/-- The links that are halves of an implicit network. -/
def halvesOf (req : CanvasInput) (networkId : Int) : List Link :=
  req.links.filter (fun l =>
    decide (l.id ≠ "" ∧ l.to_.network? = some networkId ∧ isImplicitNet req.networks networkId))

theorem slotNetwork_filter {networks : Int → Option NetworkShape} :
    l.slotNetwork.filter (isImplicitNet networks) = some n ↔
      l.id ≠ "" ∧ l.to_.network? = some n ∧ isImplicitNet networks n := by
  simp only [Option.filter_eq_some_iff, Link.slotNetwork]
  by_cases hid : l.id = "" <;> simp [hid]

theorem pairsByNet_get_iff {group : List Link} :
    (pairsByNet req.networks req.links).get? n = some group ↔
      group ≠ [] ∧ halvesOf req n = group := by
  simp only [pairsByNet, groupByKey_get_iff, slotNetwork_filter, halvesOf]

theorem MergedPair.halves {a b : Link} (h : MergedPair req n a b) :
    halvesOf req n = [a, b] :=
  (pairsByNet_get_iff.mp h.group).2

theorem mem_halvesOf :
    l ∈ halvesOf req n ↔
      l ∈ req.links ∧ l.id ≠ "" ∧ l.to_.network? = some n ∧ isImplicitNet req.networks n := by
  simp [halvesOf]

/-- A half of a merged pair is a link of the drawing. -/
theorem MergedPair.half {a b l : Link} (h : MergedPair req n a b) (hl : l = a ∨ l = b) :
    l ∈ halvesOf req n ∧ l.from_.iface?.isSome := by
  rw [h.halves]
  rcases hl with rfl | rfl
  · exact ⟨List.mem_cons_self, h.left⟩
  · exact ⟨List.mem_cons_of_mem _ List.mem_cons_self, h.right⟩

/-- A link is in one merged pair at most. -/
theorem MergedPair.unique {n m : Int} {a b c d l : Link} (h : MergedPair req n a b)
    (h' : MergedPair req m c d) (hl : l = a ∨ l = b) (hl' : l = c ∨ l = d) :
    n = m ∧ a = c ∧ b = d := by
  obtain ⟨-, -, hn, -⟩ := mem_halvesOf.mp (h.half hl).1
  obtain ⟨-, -, hm, -⟩ := mem_halvesOf.mp (h'.half hl').1
  obtain rfl : n = m := Option.some.inj (hn.symm.trans hm)
  have he := h.halves.symm.trans h'.halves
  simp only [List.cons.injEq, and_true] at he
  exact ⟨rfl, he⟩

/-- The edge stands for the link: it is its own edge, or names it as one of its halves. -/
def CanvasEdge.represents (e : CanvasEdge) (l : Link) : Prop :=
  match e.data.overlay with
  | .pair _ linkIds => l.id ∈ linkIds
  | .declared _ _ _ => e.id = "link:" ++ l.id
  | .discovered _ _ _ _ _ => False

def CanvasEdge.shownDivergent (e : CanvasEdge) : Prop :=
  match e.data.overlay with
  | .declared divergent _ _ => divergent = true
  | _ => False

theorem pairEdge_represents {a b l : Link} :
    (pairEdge req n a b).represents l ↔ l.id = a.id ∨ l.id = b.id := by
  simp [CanvasEdge.represents, pairEdge]

theorem linkEdge_isSome :
    (linkEdge req l).isSome ↔
      l.id ≠ "" ∧ l.id ∉ handledImplicitLinkIds req ∧ l.from_.iface?.isSome := by
  unfold linkEdge
  split
  next h => simp [h]
  next h =>
    split
    next hin => simp [hin]
    next hnot => cases hfrom : l.from_ <;> simp [h, hnot, Endpoint.iface?]

/-- What the edge of a link shows of it. -/
theorem linkEdge_shape (h : linkEdge req l = some e) :
    e.id = "link:" ++ l.id ∧
      ∃ orphan lastChecked,
        e.data.overlay = .declared (req.divergentByLinkId l.id).isSome orphan lastChecked := by
  unfold linkEdge at h
  split at h
  next => cases h
  next =>
    split at h
    next => cases h
    next =>
      cases hfrom : l.from_ with
      | network n =>
        rw [hfrom] at h
        cases h
      | node nodeId interfaceIndex =>
        rw [hfrom] at h
        cases Option.some.inj h
        exact ⟨rfl, _, _, rfl⟩

theorem linkEdge_represents {m l : Link} (h : linkEdge req m = some e) :
    e.represents l ↔ l.id = m.id := by
  obtain ⟨hid, orphan, lastChecked, hoverlay⟩ := linkEdge_shape h
  rw [CanvasEdge.represents, hoverlay]
  show e.id = "link:" ++ l.id ↔ _
  rw [hid, String.append_right_inj]
  exact eq_comm

theorem linkEdge_shownDivergent {m : Link} (h : linkEdge req m = some e) :
    e.shownDivergent ↔ (req.divergentByLinkId m.id).isSome := by
  obtain ⟨-, orphan, lastChecked, hoverlay⟩ := linkEdge_shape h
  rw [CanvasEdge.shownDivergent, hoverlay]

/-- The edge of an inferred link stands for none of the declared ones. -/
theorem discoveredEdge_shape {d : DiscoveredLink} (h : discoveredEdge req d = some e) :
    e.id = "discovered:" ++ d.iface ∧ (∀ l, ¬ e.represents l) ∧ ¬ e.shownDivergent := by
  unfold discoveredEdge at h
  split at h
  next => cases h
  next =>
    obtain ⟨nodeId, -, rfl⟩ := Option.map_eq_some_iff.mp h
    simp [CanvasEdge.represents, CanvasEdge.shownDivergent]

theorem mem_deriveEdges :
    e ∈ deriveEdges req ↔
      (∃ n a b, MergedPair req n a b ∧ e = pairEdge req n a b) ∨
        (∃ l ∈ req.links, linkEdge req l = some e) ∨
        ∃ d ∈ req.discovered, discoveredEdge req d = some e := by
  simp only [deriveEdges, List.mem_append, List.mem_filterMap, mem_pairEdges, or_assoc]

/-- A link with an id that starts on a node is drawn. -/
theorem exists_represents (hl : l ∈ req.links) (hid : l.id ≠ "") (hfrom : l.from_.iface?.isSome) :
    ∃ e ∈ deriveEdges req, e.represents l := by
  by_cases hhandled : l.id ∈ handledImplicitLinkIds req
  · obtain ⟨n, a, b, hmerged, h⟩ := mem_handledImplicitLinkIds.mp hhandled
    exact ⟨pairEdge req n a b, mem_deriveEdges.mpr (Or.inl ⟨n, a, b, hmerged, rfl⟩),
      pairEdge_represents.mpr h⟩
  · obtain ⟨e, he⟩ := Option.isSome_iff_exists.mp (linkEdge_isSome.mpr ⟨hid, hhandled, hfrom⟩)
    exact ⟨e, mem_deriveEdges.mpr (Or.inr (Or.inl ⟨l, hl, he⟩)), (linkEdge_represents he).mpr rfl⟩

/-- With distinct ids, an edge that stands for a link is its merged pair or its own edge. -/
theorem represents_cases (hids : (req.links.map Link.id).Nodup) (hl : l ∈ req.links)
    (he : e ∈ deriveEdges req) (h : e.represents l) :
    (∃ n a b, MergedPair req n a b ∧ e = pairEdge req n a b ∧ (l = a ∨ l = b)) ∨
      linkEdge req l = some e := by
  have hsame {m : Link} (hm : m ∈ req.links) (hid : l.id = m.id) : l = m :=
    List.inj_on_of_nodup_map hids hl hm hid
  rcases mem_deriveEdges.mp he with ⟨n, a, b, hmerged, rfl⟩ | ⟨m, hm, hedge⟩ | ⟨d, -, hedge⟩
  · have ha : a ∈ req.links := (mem_halvesOf.mp (hmerged.half (Or.inl rfl)).1).1
    have hb : b ∈ req.links := (mem_halvesOf.mp (hmerged.half (Or.inr rfl)).1).1
    refine Or.inl ⟨n, a, b, hmerged, rfl, ?_⟩
    rcases pairEdge_represents.mp h with hid | hid
    · exact Or.inl (hsame ha hid)
    · exact Or.inr (hsame hb hid)
  · obtain rfl : l = m := hsame hm ((linkEdge_represents hedge).mp h)
    exact Or.inr hedge
  · exact absurd h ((discoveredEdge_shape hedge).2.1 l)

/-- No link is drawn twice. -/
theorem represents_unique (hids : (req.links.map Link.id).Nodup) {e e' : CanvasEdge}
    (hl : l ∈ req.links) (he : e ∈ deriveEdges req) (he' : e' ∈ deriveEdges req)
    (h : e.represents l) (h' : e'.represents l) : e = e' := by
  have hclash {n : Int} {a b : Link} {e : CanvasEdge} (hmerged : MergedPair req n a b)
      (hhalf : l = a ∨ l = b) (hedge : linkEdge req l = some e) : False := by
    refine (linkEdge_isSome.mp (Option.isSome_of_eq_some hedge)).2.1 ?_
    refine mem_handledImplicitLinkIds.mpr ⟨n, a, b, hmerged, ?_⟩
    rcases hhalf with rfl | rfl <;> simp
  rcases represents_cases hids hl he h with ⟨n, a, b, hmerged, rfl, hhalf⟩ | hedge
  · rcases represents_cases hids hl he' h' with ⟨m, c, d, hmerged', rfl, hhalf'⟩ | hedge'
    · obtain ⟨rfl, rfl, rfl⟩ := hmerged.unique hmerged' hhalf hhalf'
      rfl
    · exact (hclash hmerged hhalf hedge').elim
  · rcases represents_cases hids hl he' h' with ⟨m, c, d, hmerged', rfl, hhalf'⟩ | hedge'
    · exact (hclash hmerged' hhalf' hedge).elim
    · exact Option.some.inj (hedge.symm.trans hedge')

theorem nodup_map_filterMap {α β κ : Type} {f : α → Option β} {key : α → κ} {id : β → String}
    {xs : List α} (hkeys : (xs.map key).Nodup)
    (h : ∀ a b x y, f a = some x → f b = some y → id x = id y → key a = key b) :
    ((xs.filterMap f).map id).Nodup := by
  rw [List.Nodup, List.pairwise_map, List.pairwise_filterMap]
  refine (List.pairwise_map.mp hkeys).imp ?_
  intro a b hab x hx y hy hid
  exact hab (h a b x y hx hy hid)

theorem numberText_injective {m n : Int} (h : numberText m = numberText n) : m = n :=
  intText_injective (String.ofList_injective h)

theorem pairEdges_ids_nodup (req : CanvasInput) : ((pairEdges req).map CanvasEdge.id).Nodup := by
  refine nodup_map_filterMap (pairsByNet req.networks req.links).keysNodup ?_
  intro entry other x y hx hy hid
  obtain ⟨halves, -, rfl⟩ := Option.map_eq_some_iff.mp hx
  obtain ⟨halves', -, rfl⟩ := Option.map_eq_some_iff.mp hy
  exact numberText_injective ((String.append_right_inj _).mp hid)

theorem linkEdges_ids_nodup (hids : (req.links.map Link.id).Nodup) :
    ((req.links.filterMap (linkEdge req)).map CanvasEdge.id).Nodup := by
  refine nodup_map_filterMap hids ?_
  intro l m x y hx hy hid
  rw [(linkEdge_shape hx).1, (linkEdge_shape hy).1] at hid
  exact (String.append_right_inj _).mp hid

theorem discoveredEdges_ids_nodup (hifaces : (req.discovered.map DiscoveredLink.iface).Nodup) :
    ((req.discovered.filterMap (discoveredEdge req)).map CanvasEdge.id).Nodup := by
  refine nodup_map_filterMap hifaces ?_
  intro d d' x y hx hy hid
  rw [(discoveredEdge_shape hx).1, (discoveredEdge_shape hy).1] at hid
  exact (String.append_right_inj _).mp hid

/-- Two texts that start with different letters differ. -/
theorem append_ne_of_head {a b s t : String} (h : a.toList.head? ≠ b.toList.head?)
    (ha : a.toList ≠ []) (hb : b.toList ≠ []) : a ++ s ≠ b ++ t := by
  intro he
  have hlists := congrArg (fun text => text.toList.head?) he
  simp only [String.toList_append, List.head?_append_of_ne_nil _ ha,
    List.head?_append_of_ne_nil _ hb] at hlists
  exact h hlists

theorem deriveEdges_ids_nodup (hids : (req.links.map Link.id).Nodup)
    (hifaces : (req.discovered.map DiscoveredLink.iface).Nodup) :
    ((deriveEdges req).map CanvasEdge.id).Nodup := by
  rw [deriveEdges, List.map_append, List.map_append, List.nodup_append, List.nodup_append]
  refine ⟨⟨pairEdges_ids_nodup req, linkEdges_ids_nodup hids, ?_⟩,
    discoveredEdges_ids_nodup hifaces, ?_⟩
  · intro x hx y hy
    obtain ⟨e, he, rfl⟩ := List.mem_map.mp hx
    obtain ⟨n, a, b, -, rfl⟩ := mem_pairEdges.mp he
    obtain ⟨e', he', rfl⟩ := List.mem_map.mp hy
    obtain ⟨l, -, hedge⟩ := List.mem_filterMap.mp he'
    rw [(linkEdge_shape hedge).1]
    exact append_ne_of_head (by decide) (by decide) (by decide)
  · intro x hx y hy
    obtain ⟨e', he', rfl⟩ := List.mem_map.mp hy
    obtain ⟨d, -, hedge⟩ := List.mem_filterMap.mp he'
    rw [(discoveredEdge_shape hedge).1]
    rcases List.mem_append.mp hx with hx | hx
    · obtain ⟨e, he, rfl⟩ := List.mem_map.mp hx
      obtain ⟨n, a, b, -, rfl⟩ := mem_pairEdges.mp he
      exact append_ne_of_head (by decide) (by decide) (by decide)
    · obtain ⟨e, he, rfl⟩ := List.mem_map.mp hx
      obtain ⟨l, -, hlink⟩ := List.mem_filterMap.mp he
      rw [(linkEdge_shape hlink).1]
      exact append_ne_of_head (by decide) (by decide) (by decide)

/-- The edges show the links: each one once, under distinct ids, with its divergence. -/
structure EdgesFaithful (req : CanvasInput) : Prop where
  once : ∀ l ∈ req.links, ∃! e, e ∈ deriveEdges req ∧ e.represents l
  ids : ((deriveEdges req).map CanvasEdge.id).Nodup
  divergence : ∀ e ∈ deriveEdges req,
    (e.shownDivergent ↔
      ∃ l ∈ req.links, e.represents l ∧ (req.divergentByLinkId l.id).isSome)

/-- Every link has an id and starts on a node, and of the networks that are implicit and
hidden none that ends exactly two links ends a divergent one. -/
structure EdgesDrawable (req : CanvasInput) : Prop where
  named : ∀ l ∈ req.links, l.id ≠ "" ∧ l.from_.iface?.isSome
  pairs : ∀ n, isImplicitNet req.networks n →
    (req.links.filter (fun l => decide (l.to_.network? = some n))).length = 2 →
      ∀ l ∈ req.links, l.to_.network? = some n → req.divergentByLinkId l.id = none

theorem EdgesFaithful.drawable (hids : (req.links.map Link.id).Nodup) (h : EdgesFaithful req) :
    EdgesDrawable req := by
  have hnamed (l : Link) (hl : l ∈ req.links) : l.id ≠ "" ∧ l.from_.iface?.isSome := by
    obtain ⟨e, ⟨he, hrep⟩, -⟩ := h.once l hl
    rcases represents_cases hids hl he hrep with ⟨n, a, b, hmerged, -, hhalf⟩ | hedge
    · obtain ⟨hmem, hfrom⟩ := hmerged.half hhalf
      exact ⟨(mem_halvesOf.mp hmem).2.1, hfrom⟩
    · obtain ⟨hid, -, hfrom⟩ := linkEdge_isSome.mp (Option.isSome_of_eq_some hedge)
      exact ⟨hid, hfrom⟩
  refine ⟨hnamed, ?_⟩
  intro n himplicit hlength l hl hto
  have hhalves : halvesOf req n = req.links.filter (fun l => decide (l.to_.network? = some n)) := by
    refine List.filter_congr ?_
    intro m hm
    simp [(hnamed m hm).1, himplicit]
  obtain ⟨a, b, hab⟩ := List.length_eq_two.mp hlength
  have hmem : l ∈ halvesOf req n := mem_halvesOf.mpr ⟨hl, (hnamed l hl).1, hto, himplicit⟩
  rw [hab] at hhalves
  have hin {m : Link} (hm : m = a ∨ m = b) : m ∈ req.links := by
    have hmem : m ∈ halvesOf req n := by
      rcases hm with rfl | rfl <;> simp [hhalves]
    exact (mem_halvesOf.mp hmem).1
  have hmerged : MergedPair req n a b :=
    ⟨pairsByNet_get_iff.mpr ⟨by simp, hhalves⟩, (hnamed a (hin (Or.inl rfl))).2,
      (hnamed b (hin (Or.inr rfl))).2⟩
  have hhalf : l.id = a.id ∨ l.id = b.id := by
    rw [hhalves] at hmem
    rcases List.mem_cons.mp hmem with rfl | hrest
    · exact Or.inl rfl
    · exact Or.inr (by rw [List.mem_singleton.mp hrest])
  have hedge : pairEdge req n a b ∈ deriveEdges req :=
    mem_deriveEdges.mpr (Or.inl ⟨n, a, b, hmerged, rfl⟩)
  cases hdiv : req.divergentByLinkId l.id with
  | none => rfl
  | some entry =>
    exact ((h.divergence _ hedge).mpr
      ⟨l, hl, pairEdge_represents.mpr hhalf, by simp [hdiv]⟩).elim

theorem EdgesDrawable.faithful (hids : (req.links.map Link.id).Nodup)
    (hifaces : (req.discovered.map DiscoveredLink.iface).Nodup) (h : EdgesDrawable req) :
    EdgesFaithful req := by
  refine ⟨?_, deriveEdges_ids_nodup hids hifaces, ?_⟩
  · intro l hl
    obtain ⟨e, he, hrep⟩ := exists_represents hl (h.named l hl).1 (h.named l hl).2
    exact ⟨e, ⟨he, hrep⟩, fun e' he' => represents_unique hids hl he'.1 he he'.2 hrep⟩
  · intro e he
    rcases mem_deriveEdges.mp he with ⟨n, a, b, hmerged, rfl⟩ | ⟨m, hm, hedge⟩ | ⟨d, -, hedge⟩
    · have himplicit := (mem_halvesOf.mp (hmerged.half (Or.inl rfl)).1).2.2.2
      have hfilter : req.links.filter (fun l => decide (l.to_.network? = some n)) = [a, b] := by
        rw [← hmerged.halves]
        refine (List.filter_congr ?_).symm
        intro m hm
        simp [(h.named m hm).1, himplicit]
      refine ⟨False.elim, ?_⟩
      rintro ⟨l, hl, hrep, hdiv⟩
      have hto : l.to_.network? = some n := by
        have hhalf {c : Link} (hc : c = a ∨ c = b) (hid : l.id = c.id) :
            l.to_.network? = some n := by
          obtain ⟨hmem, -, hnet, -⟩ := mem_halvesOf.mp (hmerged.half hc).1
          rw [List.inj_on_of_nodup_map hids hl hmem hid]
          exact hnet
        rcases pairEdge_represents.mp hrep with hid | hid
        · exact hhalf (Or.inl rfl) hid
        · exact hhalf (Or.inr rfl) hid
      rw [h.pairs n himplicit (by rw [hfilter]; rfl) l hl hto] at hdiv
      cases hdiv
    · rw [linkEdge_shownDivergent hedge]
      constructor
      · intro hdiv
        exact ⟨m, hm, (linkEdge_represents hedge).mpr rfl, hdiv⟩
      · rintro ⟨l, -, hrep, hdiv⟩
        rwa [← (linkEdge_represents hedge).mp hrep]
    · obtain ⟨-, hnone, hshown⟩ := discoveredEdge_shape hedge
      exact ⟨fun hs => absurd hs hshown, fun ⟨l, _, hrep, _⟩ => absurd hrep (hnone l)⟩

/-- The canvas shows every link, once and as it is, exactly when it can draw each of them. -/
theorem deriveEdges_faithful_iff (req : CanvasInput) (hids : (req.links.map Link.id).Nodup)
    (hifaces : (req.discovered.map DiscoveredLink.iface).Nodup) :
    EdgesFaithful req ↔ EdgesDrawable req :=
  ⟨EdgesFaithful.drawable hids, EdgesDrawable.faithful hids hifaces⟩

/-- A bridge with two halves, and a network of its own with a link that starts on it. -/
def twoHalves (divergent : String → Option DivergentEntry) : CanvasInput where
  links :=
    [{ id := "lnk_001", from_ := .node 2 0, to_ := .network 1 },
      { id := "lnk_002", from_ := .node 1 3, to_ := .network 1 },
      { id := "lnk_003", from_ := .node 1 0, to_ := .network 2 }]
  divergentByLinkId := divergent
  networks := fun n =>
    if n = 1 then some { implicit := true, visibility := false }
    else some { visibility := true }

def bridgeFirst : CanvasInput where
  links := [{ id := "lnk_001", from_ := .network 1, to_ := .node 1 0 }]
  networks := fun _ => some { visibility := true }

theorem twoHalves_faithful : EdgesFaithful (twoHalves (fun id =>
    if id = "lnk_003" then some {} else none)) := by
  refine (deriveEdges_faithful_iff _ (by decide) (by decide)).mpr ⟨by decide, ?_⟩
  intro n himplicit hlength l hl hto
  have hn : n = 1 := by
    by_contra hne
    simp [isImplicitNet, twoHalves, hne] at himplicit
  subst hn
  have hid : l.id ≠ "lnk_003" := by
    rintro he
    simp only [twoHalves, List.mem_cons, List.not_mem_nil, or_false] at hl
    rcases hl with rfl | rfl | rfl <;> simp_all [Endpoint.network?]
  exact if_neg hid

/-- A link that starts on its network is not drawn, and a merged pair hides that it diverges. -/
theorem bridgeFirst_not_drawn :
    (bridgeFirst.links.map Link.id).Nodup ∧ ¬ EdgesFaithful bridgeFirst ∧
      ¬ EdgesFaithful (twoHalves (fun id => if id = "lnk_002" then some {} else none)) := by
  refine ⟨by decide, ?_, ?_⟩
  · intro h
    obtain ⟨e, ⟨he, -⟩, -⟩ := h.once _ List.mem_cons_self
    have hnone : deriveEdges bridgeFirst = [] := by decide
    rw [hnone] at he
    cases he
  · intro h
    have hpair : ∃ e ∈ deriveEdges (twoHalves (fun id =>
        if id = "lnk_002" then some {} else none)), ¬ e.shownDivergent ∧
          e.data.overlay = .pair 1 ["lnk_001", "lnk_002"] := by
      refine ⟨_, List.mem_cons_self, id, rfl⟩
    obtain ⟨e, he, hnot, hoverlay⟩ := hpair
    refine hnot ((h.divergence e he).mpr
      ⟨{ id := "lnk_002", from_ := .node 1 3, to_ := .network 1 },
        List.mem_cons_of_mem _ List.mem_cons_self, ?_, rfl⟩)
    rw [CanvasEdge.represents, hoverlay]
    exact List.mem_cons_of_mem _ List.mem_cons_self

end NovaVe
