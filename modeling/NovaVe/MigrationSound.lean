import Mathlib.Data.List.ReduceOption
import NovaVe.MigrationKeeps

namespace NovaVe

/-- What a migration makes of an entry whose casts go through. -/
theorem migratedLink_spec {entry : TopologyEntry} (h : EntryCasts entry) (index : Nat) :
    ∃ n, intOrZero entry.networkId = .ok n ∧
      ((topologyEndpoints entry n = .ok none ∧ migratedLink index entry = .ok none) ∨
        ∃ f t l, topologyEndpoints entry n = .ok (some (f, t)) ∧
          migratedLink index entry = .ok (some l) ∧ l.from_ = f ∧ l.to_ = t ∧
            l.label = entry.label ∧ l.color = entry.color ∧ l.width = defaultWidth entry.width) := by
  obtain ⟨n, hn, ⟨metrics, hmetrics⟩, ends, hends⟩ := h
  refine ⟨n, hn, ?_⟩
  unfold migratedLink
  cases ends with
  | none =>
    left
    refine ⟨hends, ?_⟩
    simp only [hn, hmetrics, hends, Except.bind, bind]
  | some ends =>
    right
    refine ⟨ends.1, ends.2, { id := linkIdOf (index + 1), from_ := ends.1, to_ := ends.2, label := entry.label, color := entry.color, width := defaultWidth entry.width, metrics := metrics },
      hends, ?_, rfl, rfl, rfl, rfl, rfl⟩
    simp only [hn, hmetrics, hends, Except.bind, bind]

theorem entryCasts_of_ok {entry : TopologyEntry} {index : Nat} {link : Option Link}
    (h : migratedLink index entry = .ok link) : EntryCasts entry := by
  unfold migratedLink at h
  cases hn : intOrZero entry.networkId with
  | error e =>
    rw [hn] at h
    cases h
  | ok n =>
    rw [hn] at h
    cases hmetrics : topologyMetrics entry with
    | error e =>
      rw [hmetrics] at h
      cases h
    | ok metrics =>
      rw [hmetrics] at h
      cases hends : topologyEndpoints entry n with
      | error e =>
        simp only [hends, Except.bind, bind] at h
        cases h
      | ok ends => exact ⟨n, hn, ⟨metrics, hmetrics⟩, ends, hends⟩

/-- The entry of the view for a link that was made of an entry. -/
theorem view_of_made {entry : TopologyEntry} {n : Int} {f t : Endpoint} {l : Link}
    (hn : intOrZero entry.networkId = .ok n) (hends : topologyEndpoints entry n = .ok (some (f, t)))
    (hfrom : l.from_ = f) (hto : l.to_ = t) (hlabel : l.label = entry.label)
    (hcolor : l.color = entry.color) (hwidth : l.width = defaultWidth entry.width) :
    ∃ seen y x, derivedEntry l = some seen ∧ seen.wiring = some y ∧ y.Consistent ∧
      entry.wiring = some x ∧ (x.Consistent → y.Same x) := by
  obtain ⟨⟨source, i, rfl, hsource⟩, hother, x, hx, hsame⟩ := endpoints_made hn hends
  rcases hother with ⟨rfl, destination, j, rfl, hdestination⟩ | ⟨hne, rfl⟩
  · obtain ⟨seen, hseen, hwiring⟩ := wiring_nodes hfrom hto hsource hdestination
    rw [hlabel, hcolor, hwidth, defaultWidth_idem] at hwiring
    exact ⟨seen, _, x, hseen, hwiring, Or.inl ⟨rfl, rfl, rfl⟩, hx, hsame⟩
  · obtain ⟨seen, hseen, hwiring⟩ := wiring_network hfrom hto hsource hne
    rw [hlabel, hcolor, hwidth, defaultWidth_idem] at hwiring
    exact ⟨seen, _, x, hseen, hwiring, Or.inr ⟨hne, Or.inl ⟨rfl, rfl⟩⟩, hx, hsame⟩

/-- The loop over the topology ends well when the casts go through. -/
theorem topologyToLinks_ok {topology : List (Option TopologyEntry)} (index : Nat)
    (h : ∀ entry, some entry ∈ topology → EntryCasts entry) :
    ∃ links, topologyToLinks index topology = .ok links := by
  induction topology generalizing index with
  | nil => exact ⟨[], rfl⟩
  | cons entry rest ih =>
    obtain ⟨links, hlinks⟩ := ih (index + 1) (fun e he => h e (List.mem_cons_of_mem _ he))
    cases entry with
    | none => exact ⟨links, hlinks⟩
    | some entry =>
      have hmade : ∃ link, migratedLink index entry = .ok link := by
        obtain ⟨n, _, ⟨_, hlink⟩ | ⟨_, _, l, _, hlink, _⟩⟩ :=
          migratedLink_spec (h entry List.mem_cons_self) index
        · exact ⟨none, hlink⟩
        · exact ⟨some l, hlink⟩
      obtain ⟨link, hlink⟩ := hmade
      refine ⟨link.toList ++ links, ?_⟩
      unfold topologyToLinks
      rw [hlink, hlinks]
      rfl

/-- A loop that ends well has made its links entry by entry. -/
theorem topologyToLinks_cons {entry : TopologyEntry} {rest : List (Option TopologyEntry)}
    {index : Nat} {links : List Link} (h : topologyToLinks index (some entry :: rest) = .ok links) :
    ∃ link others, migratedLink index entry = .ok link ∧
      topologyToLinks (index + 1) rest = .ok others ∧ links = link.toList ++ others := by
  unfold topologyToLinks at h
  cases hlink : migratedLink index entry with
  | error e =>
    rw [hlink] at h
    cases h
  | ok link =>
    rw [hlink] at h
    cases hothers : topologyToLinks (index + 1) rest with
    | error e =>
      rw [hothers] at h
      cases h
    | ok others =>
      rw [hothers] at h
      exact ⟨link, others, rfl, rfl, (Except.ok.inj h).symm⟩

theorem casts_of_topologyToLinks {topology : List (Option TopologyEntry)} {index : Nat}
    {links : List Link} (h : topologyToLinks index topology = .ok links) :
    ∀ entry, some entry ∈ topology → EntryCasts entry := by
  induction topology generalizing index links with
  | nil =>
    intro entry hentry
    cases hentry
  | cons first rest ih =>
    intro entry hentry
    cases first with
    | none =>
      rcases List.mem_cons.mp hentry with heq | hrest
      · cases heq
      · exact ih h entry hrest
    | some first =>
      obtain ⟨link, others, hlink, hothers, _⟩ := topologyToLinks_cons h
      rcases List.mem_cons.mp hentry with heq | hrest
      · cases heq
        exact entryCasts_of_ok hlink
      · exact ih hothers entry hrest

/-- Each link comes from an entry. -/
theorem mem_topologyToLinks {topology : List (Option TopologyEntry)} {index : Nat}
    {links : List Link} (h : topologyToLinks index topology = .ok links) {l : Link} :
    l ∈ links ↔ ∃ entry position, (some entry, position) ∈ topology.zipIdx index ∧
      migratedLink position entry = .ok (some l) := by
  induction topology generalizing index links with
  | nil =>
    cases h
    simp
  | cons first rest ih =>
    rw [List.zipIdx_cons]
    cases first with
    | none =>
      have hrest : topologyToLinks (index + 1) rest = .ok links := h
      rw [ih hrest]
      simp
    | some first =>
      obtain ⟨link, others, hlink, hothers, rfl⟩ := topologyToLinks_cons h
      rw [List.mem_append, ih hothers]
      constructor
      · intro hl
        rcases hl with hl | ⟨entry, position, hmem, hmade⟩
        · have hsome := Option.mem_toList.mp hl
          refine ⟨first, index, List.mem_cons_self, ?_⟩
          rw [hlink, Option.mem_def.mp hsome]
        · exact ⟨entry, position, List.mem_cons_of_mem _ hmem, hmade⟩
      · intro hl
        obtain ⟨entry, position, hmem, hmade⟩ := hl
        rcases List.mem_cons.mp hmem with heq | hmem
        · cases heq
          left
          rw [hlink] at hmade
          rw [Except.ok.inj hmade]
          simp
        · exact Or.inr ⟨entry, position, hmem, hmade⟩

theorem topologyLink_agrees (i j : Nat) (entry : TopologyEntry) :
    (topologyLink j entry).map (Option.map Link.withoutId) =
      (migratedLink i entry).map (Option.map Link.withoutId) := by
  unfold topologyLink migratedLink
  cases intOrZero entry.networkId with
  | error e => rfl
  | ok n =>
    cases topologyMetrics entry with
    | error e => rfl
    | ok metrics =>
      cases hends : topologyEndpoints entry n with
      | error e => simp only [hends, Except.bind, bind]
      | ok ends =>
        cases ends with
        | none => simp only [hends, Except.bind, bind]
        | some ends =>
          simp only [hends, Except.bind, bind]
          rfl

/-- The script and the service make the same links of a topology, up to the ids. -/
theorem legacyTopologyToLinks_agrees (i j : Nat) (topology : List (Option TopologyEntry)) :
    (legacyTopologyToLinks j topology.reduceOption).map (List.map Link.withoutId) =
      (topologyToLinks i topology).map (List.map Link.withoutId) := by
  induction topology generalizing i j with
  | nil => rfl
  | cons entry rest ih =>
    cases entry with
    | none =>
      rw [List.reduceOption_cons_of_none]
      exact ih (i + 1) j
    | some entry =>
      rw [List.reduceOption_cons_of_some]
      have hlink := topologyLink_agrees i j entry
      have hrest := ih (i + 1) (j + 1)
      unfold legacyTopologyToLinks topologyToLinks
      cases hservice : topologyLink j entry with
      | error e =>
        cases hscript : migratedLink i entry with
        | error e' =>
          rw [hservice, hscript] at hlink
          cases hlink
          rfl
        | ok link =>
          rw [hservice, hscript] at hlink
          cases hlink
      | ok link =>
        cases hscript : migratedLink i entry with
        | error e =>
          rw [hservice, hscript] at hlink
          cases hlink
        | ok link' =>
          rw [hservice, hscript] at hlink
          have hsame : link.map Link.withoutId = link'.map Link.withoutId := Except.ok.inj hlink
          have hlists : link.toList.map Link.withoutId = link'.toList.map Link.withoutId := by
            rw [← Option.toList_map, ← Option.toList_map, hsame]
          cases hservices : legacyTopologyToLinks (j + 1) rest.reduceOption with
          | error e =>
            cases hscripts : topologyToLinks (i + 1) rest with
            | error e' =>
              rw [hservices, hscripts] at hrest
              cases hrest
              rfl
            | ok links =>
              rw [hservices, hscripts] at hrest
              cases hrest
          | ok links =>
            cases hscripts : topologyToLinks (i + 1) rest with
            | error e =>
              rw [hservices, hscripts] at hrest
              cases hrest
            | ok links' =>
              rw [hservices, hscripts] at hrest
              have hothers : links.map Link.withoutId = links'.map Link.withoutId :=
                Except.ok.inj hrest
              show Except.ok ((link.toList ++ links).map Link.withoutId) =
                Except.ok ((link'.toList ++ links').map Link.withoutId)
              rw [List.map_append, List.map_append, hlists, hothers]

/-- The migrated document has the topology of the old one, the links are those of the service, and
a second migration changes nothing. -/
def MigrationPreserves (doc : LabDocument) : Prop :=
  ∃ out, migrateLab doc = .ok out ∧ TopologyKept doc (legacyView out) ∧
    (legacyTopologyToLinks 0 doc.topology.reduceOption).map (List.map Link.withoutId) =
      .ok (out.links.map Link.withoutId) ∧
    migrateLab out = .ok out

theorem migrateLab_links {doc out : LabDocument} (hv1 : doc.schema ≠ some 2)
    (h : migrateLab doc = .ok out) :
    topologyToLinks 0 doc.topology = .ok out.links ∧ out.schema = some 2 := by
  unfold migrateLab at h
  rw [if_neg hv1] at h
  cases hlinks : topologyToLinks 0 doc.topology with
  | error e =>
    rw [hlinks] at h
    cases h
  | ok links =>
    rw [hlinks] at h
    cases h
    exact ⟨rfl, rfl⟩

/-- Every entry of the view comes from an entry of the topology. -/
theorem mem_view_of_links {topology : List (Option TopologyEntry)} {links : List Link}
    (h : topologyToLinks 0 topology = .ok links) {seen : TopologyEntry}
    (hseen : seen ∈ links.filterMap derivedEntry) :
    ∃ entry y x, some entry ∈ topology ∧ seen.wiring = some y ∧ y.Consistent ∧
      entry.wiring = some x ∧ (x.Consistent → y.Same x) := by
  obtain ⟨l, hl, hderived⟩ := List.mem_filterMap.mp hseen
  obtain ⟨entry, position, hmem, hmade⟩ := (mem_topologyToLinks h).mp hl
  have hentry : some entry ∈ topology := List.fst_mem_of_mem_zipIdx hmem
  obtain ⟨n, hn, ⟨_, hnone⟩ | ⟨f, t, l', hends, hlink, hf, ht, hlabel, hcolor, hwidth⟩⟩ :=
    migratedLink_spec (casts_of_topologyToLinks h entry hentry) position
  · rw [hmade] at hnone
    cases hnone
  · rw [hmade] at hlink
    cases hlink
    obtain ⟨seen', y, x, hseen', hy, hcons, hx, hsame⟩ :=
      view_of_made hn hends hf ht hlabel hcolor hwidth
    rw [hderived] at hseen'
    cases hseen'
    exact ⟨entry, y, x, hentry, hy, hcons, hx, hsame⟩

/-- A consistent entry is in the view of the links made of the topology. -/
theorem consistent_in_view {topology : List (Option TopologyEntry)} {links : List Link}
    (h : topologyToLinks 0 topology = .ok links) {entry : TopologyEntry}
    (hentry : some entry ∈ topology) {x : Wiring} (hx : entry.wiring = some x)
    (hcons : x.Consistent) :
    ∃ seen ∈ links.filterMap derivedEntry, ∃ y, seen.wiring = some y ∧ y.Same x := by
  obtain ⟨position, hposition, hat⟩ := List.getElem_of_mem hentry
  have hmem : (some entry, position) ∈ topology.zipIdx := by
    apply List.mk_mem_zipIdx_iff_getElem?.mpr
    rw [List.getElem?_eq_getElem hposition, hat]
  obtain ⟨n, hn, ⟨hunmade, _⟩ | ⟨f, t, l, hends, hlink, hf, ht, hlabel, hcolor, hwidth⟩⟩ :=
    migratedLink_spec (casts_of_topologyToLinks h entry hentry) position
  · exact absurd hcons (endpoints_unmade hn hunmade hx)
  · have hl := (mem_topologyToLinks h).mpr ⟨entry, position, hmem, hlink⟩
    obtain ⟨seen, y, x', hseen, hy, _, hx', hsame⟩ :=
      view_of_made hn hends hf ht hlabel hcolor hwidth
    rw [hx] at hx'
    cases hx'
    exact ⟨seen, List.mem_filterMap.mpr ⟨l, hl, hseen⟩, y, hy, hsame hcons⟩

theorem kept_of_migratable {doc out : LabDocument} (hm : Migratable doc)
    (h : topologyToLinks 0 doc.topology = .ok out.links) : TopologyKept doc (legacyView out) := by
  refine ⟨?_, ?_, ?_⟩
  · intro entry x hentry hx
    exact consistent_in_view h hentry hx (hm.consistent entry x hentry hx)
  · intro nodeId index networkId hattached
    obtain ⟨entry, x, hentry, hx, hjoins⟩ := hm.covered nodeId index networkId hattached
    obtain ⟨seen, hseen, y, hy, hsame⟩ :=
      consistent_in_view h hentry hx (hm.consistent entry x hentry hx)
    exact ⟨seen, hseen, y, hy, hsame.joins.mpr hjoins⟩
  · intro seen hseen
    obtain ⟨entry, y, x, hentry, hy, _, hx, hsame⟩ := mem_view_of_links h hseen
    have hcons := hm.consistent entry x hentry hx
    exact ⟨y, hy, Or.inl ⟨entry, x, hentry, hx, hsame hcons⟩⟩

theorem migratable_of_kept {doc out : LabDocument}
    (h : topologyToLinks 0 doc.topology = .ok out.links)
    (hk : TopologyKept doc (legacyView out)) : Migratable doc := by
  -- What the view has is consistent, so what it has to show is consistent too.
  have hconsistent : ∀ entry x, some entry ∈ doc.topology → entry.wiring = some x →
      x.Consistent := by
    intro entry x hentry hx
    obtain ⟨seen, hseen, y, hy, hsame⟩ := hk.entries entry x hentry hx
    obtain ⟨_, y', _, _, hy', hcons, _⟩ := mem_view_of_links h hseen
    rw [hy] at hy'
    cases hy'
    exact hsame.consistent hcons
  refine ⟨casts_of_topologyToLinks h, hconsistent, ?_⟩
  intro nodeId index networkId hattached
  obtain ⟨seen, hseen, y, hy, hjoins⟩ := hk.interfaces nodeId index networkId hattached
  obtain ⟨entry, y', x, hentry, hy', _, hx, hsame⟩ := mem_view_of_links h hseen
  rw [hy] at hy'
  cases hy'
  have hxy := hsame (hconsistent entry x hentry hx)
  exact ⟨entry, x, hentry, hx, hxy.joins.mp hjoins⟩

/-- A migration preserves the topology just when the casts go through, no entry says more than a
link can, and every attached interface has an entry of its own. -/
theorem migration_preserves_iff (doc : LabDocument) (hv1 : doc.schema ≠ some 2) :
    MigrationPreserves doc ↔ Migratable doc := by
  constructor
  · rintro ⟨out, hout, hkept, _, _⟩
    exact migratable_of_kept (migrateLab_links hv1 hout).1 hkept
  · intro hm
    obtain ⟨links, hlinks⟩ := topologyToLinks_ok 0 hm.casts
    have hmigrated : ∃ out, migrateLab doc = .ok out := by
      unfold migrateLab
      rw [if_neg hv1, hlinks]
      exact ⟨_, rfl⟩
    obtain ⟨out, hout⟩ := hmigrated
    obtain ⟨hmade, hschema⟩ := migrateLab_links hv1 hout
    refine ⟨out, hout, kept_of_migratable hm hmade, ?_, ?_⟩
    · rw [legacyTopologyToLinks_agrees 0 0, hmade]
      rfl
    · unfold migrateLab
      rw [if_pos hschema]

/-- A v1 lab with one entry, and its interface on the network of that entry. -/
def entryDocument : LabDocument :=
  { nodes := [(1, some { interfaces := [some { networkId := some 1 }] })]
    networks := [(1, some { type := "bridge", count := some 1 })]
    topology := [some { source := "node1", destination := "network1", networkId := some (.num 1)
                        sourceInterfaceId := some (.num 0) }] }

/-- A v1 lab whose interface names a network that no topology entry joins it to. -/
def bareDocument : LabDocument := { entryDocument with topology := [] }

theorem entryDocument_preserved : MigrationPreserves entryDocument := by
  refine (migration_preserves_iff entryDocument (by decide)).mpr ⟨?_, ?_, ?_⟩
  · intro entry hentry
    obtain rfl := Option.some.inj (List.mem_singleton.mp hentry)
    exact ⟨1, rfl, ⟨_, rfl⟩, _, rfl⟩
  · intro entry x hentry hx
    obtain rfl := Option.some.inj (List.mem_singleton.mp hentry)
    obtain rfl := Option.some.inj hx
    exact Or.inr ⟨by decide, Or.inl ⟨rfl, rfl⟩⟩
  · intro nodeId index networkId hattached
    have heq : (nodeId, index, networkId) = (1, 0, 1) := List.mem_singleton.mp hattached
    cases heq
    exact ⟨_, _, List.mem_singleton.mpr rfl, rfl, Or.inl ⟨rfl, rfl⟩⟩

theorem bareDocument_not_preserved :
    ¬ ∀ doc : LabDocument, doc.schema ≠ some 2 → MigrationPreserves doc := by
  intro h
  obtain ⟨out, hout, hkept, _⟩ := h bareDocument (by decide)
  have hlinks : legacyView out = [] := by
    cases hout
    rfl
  obtain ⟨seen, hseen, _⟩ := hkept.interfaces 1 0 1 (List.mem_singleton.mpr rfl)
  rw [hlinks] at hseen
  cases hseen

end NovaVe
