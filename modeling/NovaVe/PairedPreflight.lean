import NovaVe.PairedSound

namespace NovaVe

/-- An endpoint is the interface that a link end names, on the node of a child with that id. -/
def NamedEnd (template : PairedTemplate) (nextId : Int) (built : BuiltChildren)
    (linkEnd : String × String) (e : Endpoint) : Prop :=
  ∃ index child node, ∃ i : Nat, template.nodes[index]? = some (some child) ∧ child.id = linkEnd.1 ∧
    built.nodes.get? (nextId + (index : Nat)) = some node ∧
      (node.interfaces[i]?).map Iface.name = some linkEnd.2 ∧ e = .node (nextId + index) i

/-- What a pre-flight promises of an instantiation. -/
structure SoundPair (lower : String → String) (template : PairedTemplate) (nextId : Int)
    (built : BuiltChildren) (result : Lab) : Prop where
  names : ∀ (index : Nat) child, template.nodes[index]? = some (some child) →
    ∃ node, built.nodes.get? (nextId + index) = some node ∧
      node.interfaces.map Iface.name = pairedChildIfaceNames lower child
  connected : ∀ link ∈ template.links.reduceOption, ∃ a b,
    resolveEnd built (link.fromNode, link.fromIface) = some a ∧
      resolveEnd built (link.toNode, link.toIface) = some b ∧
        NamedEnd template nextId built (link.fromNode, link.fromIface) a ∧
          NamedEnd template nextId built (link.toNode, link.toIface) b ∧ Joined result a b
  distinct : (wiredEnds built template.links.reduceOption).Nodup

/-- The predictor and the creation give the interfaces that no explicit name covers one name. -/
def FormatsAgree (lower : String → String) (child : PairedChild) : Prop :=
  ∀ i < child.ethernetCount.toNat, (child.explicitNames[i]?).getD none = none →
    interfaceName (normalizePairedChildKind lower child.kind) none child.predictedFormat i =
      interfaceName (normalizePairedChildKind lower child.kind) none child.builtFormat i

/-- What the pre-flight does not look at. -/
structure PairedOk (lower : String → String) (template : PairedTemplate) : Prop where
  children : ∀ entry ∈ template.nodes, ∃ child, entry = some child ∧ child.Castable
  ids : ∀ linkEnd ∈ template.linkEnds, ∃ child index,
    lastChild (keyedTest linkEnd.1) template.nodes.zipIdx = some (child, index) ∧
      child.id = linkEnd.1
  formats : ∀ child, some child ∈ template.nodes → FormatsAgree lower child
  distinct : template.linkEnds.Nodup

/-- No link of the lab names an interface that a link end of the template is to get. -/
def EndsUnwired (lower : String → String) (template : PairedTemplate) (data : Lab) : Prop :=
  ∀ linkEnd ∈ template.linkEnds, ∀ (child : PairedChild) (index i : Nat),
    lastChild (keyedTest linkEnd.1) template.nodes.zipIdx = some (child, index) →
      (pairedChildIfaceNames lower child).findIdx? (fun name => decide (name = linkEnd.2)) = some i →
        Unwired data (.node (data.nodes.nextKey + index) i)

theorem getElem?_pairedChildInterfaces (lower : String → String) (child : PairedChild) (i : Nat) :
    ((pairedChildInterfaces lower child).map Iface.name)[i]? =
      if i < child.ethernetCount.toNat then
        some (((child.explicitNames[i]?).getD none).getD
          (interfaceName (normalizePairedChildKind lower child.kind) none child.builtFormat i))
      else none := by
  unfold pairedChildInterfaces defaultInterfaces
  rw [List.getElem?_map, List.getElem?_mapIdx, List.getElem?_map]
  split
  next h => rw [List.getElem?_range h]; rfl
  next h =>
    have hnone : (List.range child.ethernetCount.toNat)[i]? = none := by
      apply List.getElem?_eq_none
      rw [List.length_range]
      omega
    rw [hnone]
    rfl

theorem getElem?_pairedChildIfaceNames (lower : String → String) (child : PairedChild) (i : Nat) :
    (pairedChildIfaceNames lower child)[i]? =
      if i < child.ethernetCount.toNat then
        some (((child.explicitNames[i]?).getD none).getD
          (interfaceName (normalizePairedChildKind lower child.kind) none child.predictedFormat i))
      else none := by
  unfold pairedChildIfaceNames overlayNames
  rw [List.getElem?_mapIdx, List.getElem?_map]
  split
  next h => rw [List.getElem?_range h]; rfl
  next h =>
    have hnone : (List.range child.ethernetCount.toNat)[i]? = none := by
      apply List.getElem?_eq_none
      rw [List.length_range]
      omega
    rw [hnone]
    rfl

/-- The names given are the predicted ones exactly when the formats agree. -/
theorem names_eq_iff (lower : String → String) (child : PairedChild) :
    (pairedChildInterfaces lower child).map Iface.name = pairedChildIfaceNames lower child ↔
      FormatsAgree lower child := by
  constructor
  · intro h i hi hexplicit
    have hat := congrArg (fun names => names[i]?) h
    rw [getElem?_pairedChildInterfaces, getElem?_pairedChildIfaceNames, if_pos hi, if_pos hi,
      hexplicit] at hat
    exact (Option.some.inj hat).symm
  · intro h
    apply List.ext_getElem?
    intro i
    rw [getElem?_pairedChildInterfaces, getElem?_pairedChildIfaceNames]
    split
    next hi =>
      cases hexplicit : (child.explicitNames[i]?).getD none with
      | none => rw [h i hi hexplicit]
      | some name => rfl
    next => rfl

theorem format_of_valid {naming : NamingBlock} {format : PairedFormat}
    (h : validateInterfaceNaming (.block naming) = none) (hformat : naming.format = some format) :
    formatProblem format = none := by
  unfold validateInterfaceNaming at h
  dsimp only at h
  rw [hformat] at h
  cases hexplicit : naming.explicit with
  | some explicit =>
    rw [hexplicit] at h
    cases h
  | none =>
    rw [hexplicit] at h
    exact h

/-- Of a valid naming block only a list of formats is read in two ways. -/
theorem formatsAgree_of_valid (lower : String → String) {child : PairedChild}
    (hvalid : validateInterfaceNaming child.interfaceNaming = none)
    (hlist : ∀ naming entries shown, child.interfaceNaming = .block naming →
      naming.format ≠ some (.list entries shown)) : FormatsAgree lower child := by
  have hsame : child.predictedFormat = child.builtFormat := by
    unfold PairedChild.predictedFormat PairedChild.builtFormat
    cases hnaming : child.interfaceNaming with
    | absent => rfl
    | other => rfl
    | block naming =>
      rw [hnaming] at hvalid
      cases hformat : naming.format with
      | none => simp [NamingField.block?, hformat]
      | some format =>
        have hproblem := format_of_valid hvalid hformat
        cases format with
        | text s =>
          have hne : pyStrip s ≠ "" := by
            intro heq
            simp [formatProblem, heq] at hproblem
          simp [NamingField.block?, hformat, PairedFormat.predicted, PairedFormat.shown, hne]
        | list entries shown => exact absurd hformat (hlist naming entries shown hnaming)
        | other shown => cases hproblem
  intro i _ _
  rw [hsame]

theorem mem_zipIdx_iff {nodes : List (Option PairedChild)} {child : PairedChild} {index : Nat} :
    (some child, index) ∈ nodes.zipIdx ↔ nodes[index]? = some (some child) := by
  rw [List.mem_zipIdx_iff_getElem?]

/-- A pre-flight that accepts has found each link end among the predicted names. -/
theorem accepted_ends {lower : String → String} {template : PairedTemplate}
    (h : validatePairedTemplate lower template = none) {linkEnd : String × String}
    (hend : linkEnd ∈ template.linkEnds) : ∃ child,
      template.childrenById.get? linkEnd.1 = some child ∧
        linkEnd.2 ∈ pairedChildIfaceNames lower child := by
  have hlinks := (Option.or_eq_none_iff.mp h).2
  obtain ⟨link, hlink, hmem⟩ := List.mem_flatMap.mp hend
  have hnone := List.findSome?_eq_none_iff.mp hlinks link hlink
  obtain ⟨hfrom, hto⟩ := Option.or_eq_none_iff.mp hnone
  have hcheck : pairedEndpointProblem lower template.childrenById linkEnd.1 linkEnd.2 = none := by
    unfold PairedLink.ends at hmem
    rcases List.mem_pair.mp hmem with rfl | rfl
    · exact hfrom
    · exact hto
  unfold pairedEndpointProblem at hcheck
  cases hchild : template.childrenById.get? linkEnd.1 with
  | none =>
    rw [hchild] at hcheck
    cases hcheck
  | some child =>
    rw [hchild] at hcheck
    dsimp only at hcheck
    split at hcheck
    next hname => exact ⟨child, rfl, hname⟩
    next => cases hcheck

theorem childKey_named {child : PairedChild} {index : Nat} {childId : String}
    (hid : child.id = childId) (hne : childId ≠ "") : childKey child index = childId := by
  unfold childKey orElseText
  rw [if_neg (by rw [hid]; exact hne), hid]

theorem childKey_ne_empty (child : PairedChild) (index : Nat) : childKey child index ≠ "" := by
  unfold childKey orElseText
  split
  next =>
    intro h
    have hlist := congrArg String.toList h
    simp at hlist
  next h => exact h

/-- The node and the child that a resolved end belongs to. -/
theorem resolveEnd_built {lower : String → String} {newUuid : Int → String}
    {request : PairedRequest} {template : PairedTemplate} {nextId : Int} {nodes : Dict Int Node}
    {built : BuiltChildren}
    (hbuilt : addPairedChildren lower newUuid request nextId { nodes := nodes }
      template.nodes.zipIdx = some built) {linkEnd : String × String} {e : Endpoint}
    (h : resolveEnd built linkEnd = some e) : ∃ child index node, ∃ i : Nat,
      lastChild (keyedTest linkEnd.1) template.nodes.zipIdx = some (child, index) ∧
        built.nodes.get? (nextId + (index : Nat)) = some node ∧
          (node.interfaces[i]?).map Iface.name = some linkEnd.2 ∧ e = .node (nextId + index) i := by
  obtain ⟨nodeId, node, i, hid, hnode, hindex, heq⟩ := resolveEnd_node h
  have hids := addPairedChildren_ids hbuilt linkEnd.1
  rw [hid] at hids
  have hempty : ({ nodes := nodes } : BuiltChildren).nodeIds.get? linkEnd.1 = none :=
    Dict.get?_empty _
  rw [hempty, Option.or_none] at hids
  obtain ⟨found, hfound, hnodeId⟩ := Option.map_eq_some_iff.mp hids.symm
  refine ⟨found.1, found.2, node, i, hfound, ?_, ?_, ?_⟩
  · rw [hnodeId]
    exact hnode
  · obtain ⟨hlt, hname, _⟩ := List.findIdx?_eq_some_iff_getElem.mp hindex
    rw [List.getElem?_eq_getElem hlt, Option.map_some, of_decide_eq_true hname]
  · rw [heq, hnodeId]

/-- Two ends that stand for one interface are the same. -/
theorem resolveEnd_injective {lower : String → String} {newUuid : Int → String}
    {request : PairedRequest} {template : PairedTemplate} {nextId : Int} {nodes : Dict Int Node}
    {built : BuiltChildren}
    (hbuilt : addPairedChildren lower newUuid request nextId { nodes := nodes }
      template.nodes.zipIdx = some built) {first second : String × String} {e : Endpoint}
    (h : resolveEnd built first = some e) (h' : resolveEnd built second = some e) :
    first = second := by
  obtain ⟨child, index, node, i, hlast, hnode, hname, heq⟩ := resolveEnd_built hbuilt h
  obtain ⟨child', index', node', i', hlast', hnode', hname', heq'⟩ := resolveEnd_built hbuilt h'
  rw [heq] at heq'
  have hsame := Endpoint.node.inj heq'
  have hindex : index = index' := by omega
  have hiface : i = i' := by omega
  subst hindex
  subst hiface
  obtain ⟨hmem, hkey⟩ := lastChild_mem hlast
  obtain ⟨hmem', hkey'⟩ := lastChild_mem hlast'
  have hchild : some (some child) = some (some child') := by
    rw [← mem_zipIdx_iff.mp hmem, ← mem_zipIdx_iff.mp hmem']
  cases hchild
  have hid : first.1 = second.1 := by
    rw [← of_decide_eq_true hkey, ← of_decide_eq_true hkey']
  have hnodes : some node = some node' := by rw [← hnode, ← hnode']
  cases hnodes
  have hlabel : some first.2 = some second.2 := by rw [← hname, ← hname']
  exact Prod.ext hid (Option.some.inj hlabel)

theorem nodup_of_filterMap {α β : Type} {f : α → Option β} {xs : List α}
    (hall : ∀ x ∈ xs, (f x).isSome = true) (h : (xs.filterMap f).Nodup) : xs.Nodup := by
  induction xs with
  | nil => exact List.nodup_nil
  | cons x rest ih =>
    obtain ⟨y, hy⟩ := Option.isSome_iff_exists.mp (hall x List.mem_cons_self)
    rw [List.filterMap_cons_some hy] at h
    obtain ⟨hnot, hrest⟩ := List.nodup_cons.mp h
    refine List.nodup_cons.mpr ⟨?_, ih (fun z hz => hall z (List.mem_cons_of_mem _ hz)) hrest⟩
    intro hmem
    exact hnot (List.mem_filterMap.mpr ⟨x, hmem, hy⟩)

theorem zipIdx_indices_nodup (nodes : List (Option PairedChild)) :
    (nodes.zipIdx.map Prod.snd).Nodup := by
  rw [List.zipIdx_map_snd]
  exact List.nodup_range'

theorem instantiatePaired_ok {lower : String → String} {newUuid : Int → String}
    {request : PairedRequest} {template : PairedTemplate} {data result : Lab} {built : BuiltChildren} :
    instantiatePaired lower newUuid request template data = .ok (built, result) ↔
      addPairedChildren lower newUuid request data.nodes.nextKey { nodes := data.nodes }
          template.nodes.zipIdx = some built ∧
        addPairedLinks built { data with nodes := built.nodes } template.links.reduceOption =
          .ok result := by
  unfold instantiatePaired
  cases addPairedChildren lower newUuid request data.nodes.nextKey { nodes := data.nodes }
      template.nodes.zipIdx with
  | none => simp
  | some found =>
    dsimp only
    cases hlinks : addPairedLinks found { data with nodes := found.nodes }
        template.links.reduceOption with
    | error e =>
      constructor
      · intro h
        cases h
      · intro h
        obtain ⟨hfound, h⟩ := h
        cases hfound
        rw [hlinks] at h
        cases h
    | ok final =>
      constructor
      · intro h
        cases h
        exact ⟨rfl, hlinks⟩
      · intro h
        obtain ⟨hfound, h⟩ := h
        cases hfound
        rw [hlinks] at h
        cases h
        rfl

/-- A run that keeps what a pre-flight promises is of a template with nothing overlooked. -/
theorem pairedOk_of_sound {lower : String → String} {newUuid : Int → String}
    {request : PairedRequest} {template : PairedTemplate} {data result : Lab} {built : BuiltChildren}
    (hbuilt : addPairedChildren lower newUuid request data.nodes.nextKey { nodes := data.nodes }
      template.nodes.zipIdx = some built)
    (hlinks : addPairedLinks built { data with nodes := built.nodes } template.links.reduceOption =
      .ok result)
    (hsound : SoundPair lower template data.nodes.nextKey built result) :
    PairedOk lower template := by
  obtain ⟨hall, hnodup, _⟩ := addPairedLinks_ok_iff.mp ⟨result, hlinks⟩
  refine ⟨?_, ?_, ?_, nodup_of_filterMap hall hnodup⟩
  · intro entry hentry
    obtain ⟨index, hindex⟩ := List.mem_iff_getElem?.mp hentry
    have hmem : (entry, index) ∈ template.nodes.zipIdx := List.mem_zipIdx_iff_getElem?.mpr hindex
    exact addPairedChildren_isSome.mp ⟨built, hbuilt⟩ (entry, index) hmem
  · intro linkEnd hend
    have hnamed : ∃ e, resolveEnd built linkEnd = some e ∧
        NamedEnd template data.nodes.nextKey built linkEnd e := by
      obtain ⟨link, hlink, hmem⟩ := List.mem_flatMap.mp hend
      obtain ⟨a, b, hresolvea, hresolveb, hnameda, hnamedb, _⟩ := hsound.connected link hlink
      unfold PairedLink.ends at hmem
      rcases List.mem_pair.mp hmem with rfl | rfl
      · exact ⟨a, hresolvea, hnameda⟩
      · exact ⟨b, hresolveb, hnamedb⟩
    obtain ⟨e, hresolve, index', child', node', i', hat, hid, _, _, heq'⟩ := hnamed
    obtain ⟨child, index, node, i, hlast, _, _, heq⟩ := resolveEnd_built hbuilt hresolve
    refine ⟨child, index, hlast, ?_⟩
    rw [heq] at heq'
    have hsame := (Endpoint.node.inj heq').1
    have hindex : index = index' := by omega
    subst hindex
    rw [mem_zipIdx_iff.mp (lastChild_mem hlast).1] at hat
    cases hat
    exact hid
  · intro child hchild
    obtain ⟨index, hindex⟩ := List.mem_iff_getElem?.mp hchild
    obtain ⟨node, hnode, hinterfaces⟩ := addPairedChildren_nodes hbuilt
      (zipIdx_indices_nodup template.nodes) (mem_zipIdx_iff.mpr hindex)
    obtain ⟨node', hnode', hnames⟩ := hsound.names index child hindex
    rw [hnode] at hnode'
    cases hnode'
    rw [hinterfaces] at hnames
    exact (names_eq_iff lower child).mp hnames

/-- A link end is the interface with its name on the node of the last child kept under its id. -/
theorem resolveEnd_at {lower : String → String} {newUuid : Int → String}
    {request : PairedRequest} {template : PairedTemplate} {nextId : Int} {nodes : Dict Int Node}
    {built : BuiltChildren}
    (hbuilt : addPairedChildren lower newUuid request nextId { nodes := nodes }
      template.nodes.zipIdx = some built) {linkEnd : String × String} {child : PairedChild}
    {index i : Nat} (hformats : FormatsAgree lower child)
    (hlast : lastChild (keyedTest linkEnd.1) template.nodes.zipIdx = some (child, index))
    (hi : (pairedChildIfaceNames lower child).findIdx? (fun name => decide (name = linkEnd.2)) =
      some i) :
    resolveEnd built linkEnd = some (.node (nextId + index) i) ∧ ∃ node,
      built.nodes.get? (nextId + index) = some node ∧
        (node.interfaces[i]?).map Iface.name = some linkEnd.2 := by
  obtain ⟨hmem, _⟩ := lastChild_mem hlast
  obtain ⟨node, hnode, hinterfaces⟩ := addPairedChildren_nodes hbuilt
    (zipIdx_indices_nodup template.nodes) hmem
  have hnames := (names_eq_iff lower child).mpr hformats
  rw [← hnames, ← hinterfaces, List.findIdx?_map] at hi
  have hfound : resolveIfaceIndex node linkEnd.2 = some i := hi
  have hids := addPairedChildren_ids hbuilt linkEnd.1
  rw [hlast] at hids
  have hnodeId : built.nodeIds.get? linkEnd.1 = some (nextId + (index : Int)) := hids
  refine ⟨?_, node, hnode, ?_⟩
  · unfold resolveEnd resolvePairedEnd
    simp only [Option.bind_eq_bind, hnodeId, Option.bind_some, hnode, hfound]
  · obtain ⟨hlt, hat, _⟩ := List.findIdx?_eq_some_iff_getElem.mp hfound
    rw [List.getElem?_eq_getElem hlt, Option.map_some, of_decide_eq_true hat]

/-- In a template with nothing overlooked each link end is found where it says. -/
theorem resolveEnd_of_ok {lower : String → String} {newUuid : Int → String}
    {request : PairedRequest} {template : PairedTemplate} {nextId : Int} {nodes : Dict Int Node}
    {built : BuiltChildren}
    (hbuilt : addPairedChildren lower newUuid request nextId { nodes := nodes }
      template.nodes.zipIdx = some built)
    (haccept : validatePairedTemplate lower template = none) (hok : PairedOk lower template)
    {linkEnd : String × String} (hend : linkEnd ∈ template.linkEnds) :
    ∃ (child : PairedChild) (index i : Nat),
      lastChild (keyedTest linkEnd.1) template.nodes.zipIdx = some (child, index) ∧
        (pairedChildIfaceNames lower child).findIdx? (fun name => decide (name = linkEnd.2)) =
          some i ∧
        resolveEnd built linkEnd = some (.node (nextId + index) i) ∧
          NamedEnd template nextId built linkEnd (.node (nextId + index) i) := by
  obtain ⟨child, index, hlast, hid⟩ := hok.ids linkEnd hend
  obtain ⟨hmem, hkey⟩ := lastChild_mem hlast
  have hne : linkEnd.1 ≠ "" := by
    rw [← of_decide_eq_true hkey]
    exact childKey_ne_empty child index
  have hnarrow : ∀ other position, namedTest linkEnd.1 other position = true →
      keyedTest linkEnd.1 other position = true := by
    intro other position h
    exact decide_eq_true (childKey_named (of_decide_eq_true h) hne)
  have hnamed := lastChild_narrow hnarrow hlast (decide_eq_true hid)
  obtain ⟨seen, hseen, hname⟩ := accepted_ends haccept hend
  rw [childrenById_get?, hnamed] at hseen
  cases hseen
  have hindex := mem_zipIdx_iff.mp hmem
  have hsome : ((pairedChildIfaceNames lower child).findIdx?
      (fun name => decide (name = linkEnd.2))).isSome = true := by
    rw [List.findIdx?_isSome, List.any_eq_true]
    exact ⟨linkEnd.2, hname, decide_eq_true rfl⟩
  obtain ⟨i, hi⟩ := Option.isSome_iff_exists.mp hsome
  obtain ⟨hresolve, node, hnode, hlabel⟩ := resolveEnd_at hbuilt
    (hok.formats child (List.mem_of_getElem? hindex)) hlast hi
  exact ⟨child, index, i, hlast, hi, hresolve, index, child, node, i, hindex, hid, hnode, hlabel, rfl⟩

/-- An accepted paired template is instantiated as the pre-flight promises exactly when nothing was
overlooked: every child is a mapping with good casts, the id of a link end is not taken by a child
without id, the formats agree, no interface is named twice, and the lab has no link on one yet. -/
theorem paired_preflight_sound_iff (lower : String → String) (newUuid : Int → String)
    (request : PairedRequest) {template : PairedTemplate} {data : Lab}
    (haccept : validatePairedTemplate lower template = none) :
    (∃ built result, instantiatePaired lower newUuid request template data = .ok (built, result) ∧
      SoundPair lower template data.nodes.nextKey built result) ↔
        PairedOk lower template ∧ EndsUnwired lower template data := by
  constructor
  · intro h
    obtain ⟨built, result, hrun, hsound⟩ := h
    obtain ⟨hbuilt, hlinks⟩ := instantiatePaired_ok.mp hrun
    have hok := pairedOk_of_sound hbuilt hlinks hsound
    refine ⟨hok, ?_⟩
    intro linkEnd hend child index i hlast hi
    have hchild := List.mem_of_getElem? (mem_zipIdx_iff.mp (lastChild_mem hlast).1)
    obtain ⟨hresolve, _⟩ := resolveEnd_at hbuilt (hok.formats child hchild) hlast hi
    obtain ⟨_, _, hunwired⟩ := addPairedLinks_ok_iff.mp ⟨result, hlinks⟩
    exact hunwired _ (List.mem_filterMap.mpr ⟨linkEnd, hend, hresolve⟩)
  · intro h
    obtain ⟨hok, hfree⟩ := h
    have hchildren : ∀ entry ∈ template.nodes.zipIdx,
        ∃ child, entry.1 = some child ∧ child.Castable := by
      intro entry hentry
      exact hok.children entry.1 (List.fst_mem_of_mem_zipIdx hentry)
    obtain ⟨built, hbuilt⟩ := (@addPairedChildren_isSome lower newUuid request data.nodes.nextKey
      { nodes := data.nodes } template.nodes.zipIdx).mpr hchildren
    have hresolved := fun linkEnd hend =>
      @resolveEnd_of_ok lower newUuid request template data.nodes.nextKey data.nodes built hbuilt
        haccept hok linkEnd hend
    have hdistinct : (wiredEnds built template.links.reduceOption).Nodup := by
      refine hok.distinct.filterMap ?_
      intro first second e hfirst hsecond
      exact resolveEnd_injective hbuilt hfirst hsecond
    have hlinked : ∃ result, addPairedLinks built { data with nodes := built.nodes }
        template.links.reduceOption = .ok result := by
      refine addPairedLinks_ok_iff.mpr ⟨?_, hdistinct, ?_⟩
      · intro linkEnd hend
        obtain ⟨_, _, _, _, _, he, _⟩ := hresolved linkEnd hend
        exact Option.isSome_iff_exists.mpr ⟨_, he⟩
      · intro e he
        obtain ⟨linkEnd, hend, hresolve⟩ := List.mem_filterMap.mp he
        obtain ⟨child, index, i, hlast, hi, hfound, _⟩ := hresolved linkEnd hend
        rw [hfound] at hresolve
        cases hresolve
        exact hfree linkEnd hend child index i hlast hi
    obtain ⟨result, hlinks⟩ := hlinked
    refine ⟨built, result, instantiatePaired_ok.mpr ⟨hbuilt, hlinks⟩, ?_, ?_, hdistinct⟩
    · intro index child hchild
      obtain ⟨node, hnode, hinterfaces⟩ := addPairedChildren_nodes hbuilt
        (zipIdx_indices_nodup template.nodes) (mem_zipIdx_iff.mpr hchild)
      refine ⟨node, hnode, ?_⟩
      rw [hinterfaces]
      exact (names_eq_iff lower child).mpr (hok.formats child (List.mem_of_getElem? hchild))
    · intro link hlink
      obtain ⟨a, b, ha, hb, hjoined⟩ := (addPairedLinks_joined hlinks).2 link hlink
      have hfrom : (link.fromNode, link.fromIface) ∈ template.linkEnds :=
        List.mem_flatMap.mpr ⟨link, hlink, List.mem_cons_self⟩
      have hto : (link.toNode, link.toIface) ∈ template.linkEnds :=
        List.mem_flatMap.mpr ⟨link, hlink, List.mem_cons_of_mem _ List.mem_cons_self⟩
      obtain ⟨_, _, _, _, _, ha', hnameda⟩ := hresolved _ hfrom
      obtain ⟨_, _, _, _, _, hb', hnamedb⟩ := hresolved _ hto
      rw [ha] at ha'
      cases ha'
      rw [hb] at hb'
      cases hb'
      exact ⟨_, _, ha, hb, hnameda, hnamedb, hjoined⟩

def pairChild (childId : String) : PairedChild := { id := childId, kind := "docker" }

/-- Two docker children and the links between them. -/
def pairTemplate (links : List PairedLink) : PairedTemplate where
  nodes := [some (pairChild "re"), some (pairChild "pfe")]
  links := links.map some

def pairLink : PairedLink where
  fromNode := "re"
  fromIface := "eth0"
  toNode := "pfe"
  toIface := "eth0"

theorem pairChild_castable (childId : String) : (pairChild childId).Castable := by
  refine ⟨?_, ?_, ?_, ?_, ?_⟩
  all_goals
    intro h
    cases h

def twiceLinked : PairedTemplate := pairTemplate [pairLink, pairLink]

/-- A lab whose only link is of a node that it does not have. -/
def strayLab : Lab :=
  { id := "lab", links := [{ id := "lnk_001", from_ := .node 99 0, to_ := .network 7 }] }

theorem pair_instantiated :
    ∃ built result, instantiatePaired (fun text => text) (fun _ => "uuid") { templateKey := "vqfx" }
        (pairTemplate [pairLink]) strayLab = .ok (built, result) ∧
      SoundPair (fun text => text) (pairTemplate [pairLink]) 1 built result := by
  have haccept : validatePairedTemplate (fun text => text) (pairTemplate [pairLink]) = none := by
    decide +kernel
  refine (@paired_preflight_sound_iff (fun text => text) (fun _ => "uuid") { templateKey := "vqfx" }
    (pairTemplate [pairLink]) strayLab haccept).mpr ⟨⟨?_, ?_, ?_, by decide +kernel⟩, ?_⟩
  · intro entry hentry
    rcases List.mem_pair.mp hentry with rfl | rfl
    · exact ⟨pairChild "re", rfl, pairChild_castable _⟩
    · exact ⟨pairChild "pfe", rfl, pairChild_castable _⟩
  · intro linkEnd hend
    have hends : linkEnd = ("re", "eth0") ∨ linkEnd = ("pfe", "eth0") := List.mem_pair.mp hend
    rcases hends with rfl | rfl
    · exact ⟨pairChild "re", 0, by decide +kernel, rfl⟩
    · exact ⟨pairChild "pfe", 1, by decide +kernel, rfl⟩
  · intro child hchild
    have hno : child.interfaceNaming = .absent := by
      rcases List.mem_pair.mp hchild with heq | heq
      · cases heq
        rfl
      · cases heq
        rfl
    refine formatsAgree_of_valid _ (by rw [hno]; rfl) ?_
    intro naming entries shown hblock
    rw [hno] at hblock
    cases hblock
  · intro linkEnd _ child index i hlast _ l hl hwired
    have hin := (List.mem_zipIdx (lastChild_mem hlast).1).2.1
    have hfew : (pairTemplate [pairLink]).nodes.length = 2 := rfl
    obtain rfl := List.mem_singleton.mp hl
    have hnode : strayLab.nodes.nextKey + index = (99 : Int) := by
      rcases List.mem_pair.mp hwired with heq | heq
      · exact (Endpoint.node.inj heq).1
      · cases heq
    have hnext : strayLab.nodes.nextKey = 1 := rfl
    omega

/-- Two links of an accepted template may claim one interface. -/
theorem twice_linked_fails :
    ¬ ∀ (lower : String → String) (newUuid : Int → String) (request : PairedRequest)
      (template : PairedTemplate) (data : Lab), validatePairedTemplate lower template = none →
          ∃ built result, instantiatePaired lower newUuid request template data = .ok (built, result) ∧
            SoundPair lower template data.nodes.nextKey built result := by
  intro h
  have haccept : validatePairedTemplate (fun text => text) twiceLinked = none := by decide +kernel
  have hfails : (instantiatePaired (fun text => text) (fun _ => "uuid") { templateKey := "vqfx" }
      twiceLinked { id := "lab" }).isOk = false := by decide +kernel
  obtain ⟨built, result, hrun, _⟩ := h (fun text => text) (fun _ => "uuid") { templateKey := "vqfx" }
    twiceLinked { id := "lab" } haccept
  rw [hrun] at hfails
  cases hfails

end NovaVe
