import NovaVe.LabJson

namespace NovaVe

variable {py : PyValues} {key : String}

theorem mapM_some_map {α β γ : Type} {f : α → Option β} {g : α → γ} {h : β → γ}
    (hf : ∀ x y, f x = some y → h y = g x) {xs : List α} {ys : List β}
    (hm : xs.mapM f = some ys) : ys.map h = xs.map g := by
  induction xs generalizing ys with
  | nil =>
    rw [List.mapM_nil] at hm
    cases hm
    rfl
  | cons x rest ih =>
    rw [List.mapM_cons] at hm
    obtain ⟨y, hy, hm⟩ := Option.bind_eq_some_iff.mp hm
    obtain ⟨tail, htail, hm⟩ := Option.bind_eq_some_iff.mp hm
    cases hm
    rw [List.map_cons, List.map_cons, hf x y hy, ih htail]

theorem foldlM_some_keeps {σ α γ : Type} {f : σ → α → Option σ} (g : σ → γ)
    (hf : ∀ s x t, f s x = some t → g t = g s) {xs : List α} {s t : σ}
    (h : xs.foldlM f s = some t) : g t = g s := by
  induction xs generalizing s with
  | nil =>
    rw [List.foldlM_nil] at h
    cases h
    rfl
  | cons x rest ih =>
    rw [List.foldlM_cons] at h
    obtain ⟨u, hu, hrest⟩ := Option.bind_eq_some_iff.mp h
    exact (ih hrest).trans (hf s x u hu)

theorem mapItems_mapItems (f g : JsonValue → JsonValue) (value : JsonValue) :
    mapItems f (mapItems g value) = mapItems (f ∘ g) value := by
  cases value with
  | arr items =>
    show JsonValue.arr ((items.map g).map f) = .arr (items.map (f ∘ g))
    rw [List.map_map]
  | _ => rfl

theorem mapInterfaces_mapInterfaces (f g : JsonValue → JsonValue) (node : JsonValue) :
    mapInterfaces f (mapInterfaces g node) = mapInterfaces (f ∘ g) node := by
  cases node with
  | obj fields =>
    show JsonValue.obj (mapField "interfaces" f (mapField "interfaces" g fields)) =
      .obj (mapField "interfaces" (f ∘ g) fields)
    rw [mapField_mapField]
  | _ => rfl

theorem stripInterface_setNetworkId (networkId : Int) (iface : JsonValue) :
    stripInterface (setNetworkId networkId iface) = stripInterface iface := by
  cases iface with
  | obj fields =>
    show JsonValue.obj (assocPop (assocSet fields "network_id" (.int networkId)) "network_id") =
      .obj (assocPop fields "network_id")
    rw [assocPop_set]
  | _ => rfl

theorem stripNode_zeroed (networkId : Int) (node : JsonValue) :
    stripNode (mapInterfaces (mapItems (setNetworkId networkId)) node) = stripNode node := by
  have hitems : mapItems stripInterface ∘ mapItems (setNetworkId networkId) =
      mapItems stripInterface := by
    funext value
    have hsame : stripInterface ∘ setNetworkId networkId = stripInterface :=
      funext (stripInterface_setNetworkId networkId)
    rw [Function.comp_apply, mapItems_mapItems, hsame]
  unfold stripNode
  rw [mapInterfaces_mapInterfaces, hitems]

theorem map_modify_of_comp {α β : Type} {f : α → β} {g : α → α} (h : ∀ x, f (g x) = f x)
    (xs : List α) (i : Nat) : (xs.modify i g).map f = xs.map f := by
  apply List.ext_getElem?
  intro j
  rw [List.getElem?_map, List.getElem?_map, List.getElem?_modify]
  by_cases hij : i = j
  · cases xs[j]? with
    | none => rfl
    | some x => simp [hij, h]
  · simp [hij]

theorem stripNode_setItem (index : Nat) (networkId : Int) (node : JsonValue) :
    stripNode (mapInterfaces (setItem index networkId) node) = stripNode node := by
  have hitems : mapItems stripInterface ∘ setItem index networkId = mapItems stripInterface := by
    funext value
    cases value with
    | arr items =>
      show JsonValue.arr ((items.modify index (setNetworkId networkId)).map stripInterface) =
        .arr (items.map stripInterface)
      rw [map_modify_of_comp (stripInterface_setNetworkId networkId)]
    | _ => rfl
  unfold stripNode
  rw [mapInterfaces_mapInterfaces, hitems]

theorem stripNetwork_count (fields : Fields) (count : Int) :
    stripNetwork (.obj (assocSet fields "count" (.int count))) = stripNetwork (.obj fields) := by
  show JsonValue.obj (assocPop (assocSet fields "count" (.int count)) "count") =
    .obj (assocPop fields "count")
  rw [assocPop_set]

/-- The records of a dictionary as they are persisted. -/
def strippedRecords (strip : JsonValue → JsonValue) (records : Fields) : Fields :=
  records.map (fun entry => (entry.1, strip entry.2))

theorem zeroNodes_stripped {nodes zeroed : Fields} (h : zeroNodes py nodes = some zeroed) :
    strippedRecords stripNode zeroed = strippedRecords stripNode nodes := by
  refine mapM_some_map ?_ h
  intro entry entry' hentry
  obtain ⟨node, hnode, heq⟩ := Option.map_eq_some_iff.mp hentry
  rw [← heq]
  unfold zeroNode at hnode
  obtain ⟨fields, _, hnode⟩ := Option.bind_eq_some_iff.mp hnode
  obtain ⟨items, _, hnode⟩ := Option.bind_eq_some_iff.mp hnode
  cases hnode
  rw [stripNode_zeroed]

theorem strippedRecords_mapField {strip f : JsonValue → JsonValue}
    (h : ∀ value, strip (f value) = strip value) (key : String) (records : Fields) :
    strippedRecords strip (mapField key f records) = strippedRecords strip records := by
  unfold strippedRecords mapField
  rw [List.map_map]
  apply List.map_congr_left
  intro entry _
  by_cases hkey : entry.1 = key
  · simp [hkey, h]
  · simp [hkey]

theorem setEndpointNetwork_stripped {networkId : Int} {nodes nodes' : Fields} {endpoint : JsonValue}
    (h : setEndpointNetwork py networkId nodes endpoint = some nodes') :
    strippedRecords stripNode nodes' = strippedRecords stripNode nodes := by
  unfold setEndpointNetwork at h
  obtain ⟨fields, _, h⟩ := Option.bind_eq_some_iff.mp h
  obtain ⟨node, _, h⟩ := Option.bind_eq_some_iff.mp h
  obtain ⟨index, _, h⟩ := Option.bind_eq_some_iff.mp h
  by_cases hneg : index < 0
  · rw [if_pos hneg] at h
    cases h
    rfl
  · rw [if_neg hneg] at h
    obtain ⟨count, _, h⟩ := Option.bind_eq_some_iff.mp h
    by_cases hbeyond : (count : Int) ≤ index
    · rw [if_pos hbeyond] at h
      cases h
      rfl
    · rw [if_neg hbeyond] at h
      split at h
      next => cases h
      next =>
        cases h
        exact strippedRecords_mapField (stripNode_setItem index.toNat networkId) _ nodes

theorem setLinkNetwork_stripped {nodes link nodes' : Fields}
    (h : setLinkNetwork py nodes link = some nodes') :
    strippedRecords stripNode nodes' = strippedRecords stripNode nodes := by
  unfold setLinkNetwork at h
  obtain ⟨⟨nodeEnds, networkEnd⟩, _, h⟩ := Option.bind_eq_some_iff.mp h
  cases networkEnd with
  | none =>
    cases h
    rfl
  | some endpoint =>
    obtain ⟨fields, _, h⟩ := Option.bind_eq_some_iff.mp h
    obtain ⟨networkId, _, h⟩ := Option.bind_eq_some_iff.mp h
    by_cases hzero : networkId = 0
    · rw [if_pos hzero] at h
      cases h
      rfl
    · rw [if_neg hzero] at h
      exact foldlM_some_keeps (strippedRecords stripNode)
        (fun _ _ _ hone => setEndpointNetwork_stripped hone) h

theorem countNetwork_stripped {ids : List Int} {network counted : JsonValue}
    (h : countNetwork py ids key network = some counted) :
    stripNetwork counted = stripNetwork network := by
  cases network with
  | obj fields =>
    unfold countNetwork at h
    obtain ⟨networkId, _, h⟩ := Option.bind_eq_some_iff.mp h
    cases h
    exact stripNetwork_count fields _
  | _ =>
    cases h
    rfl

theorem strip_topology (data : Fields) (value : JsonValue) :
    stripLegacyFields (assocSet data "topology" value) = stripLegacyFields data := by
  unfold stripLegacyFields
  rw [assocPop_set]

theorem strip_nodes {data : Fields} {value value' : JsonValue}
    (hget : assocGet data "nodes" = some value)
    (hsame : mapValues stripNode value' = mapValues stripNode value) :
    stripLegacyFields (assocSet data "nodes" value') = stripLegacyFields data := by
  unfold stripLegacyFields
  rw [assocPop_set_ne _ _ (by decide), mapField_set _ _ (v := value) _ hsame]
  rw [assocGet_pop, if_neg (by decide)]
  exact hget

theorem strip_networks {data : Fields} {value value' : JsonValue}
    (hget : assocGet data "networks" = some value)
    (hsame : mapValues stripNetwork value' = mapValues stripNetwork value) :
    stripLegacyFields (assocSet data "networks" value') = stripLegacyFields data := by
  unfold stripLegacyFields
  rw [assocPop_set_ne _ _ (by decide), mapField_set_ne _ _ _ (by decide),
    mapField_set _ _ (v := value) _ hsame]
  rw [assocGet_mapField, if_neg (by decide), assocGet_pop, if_neg (by decide)]
  exact hget

/-- A record replaced by one that is persisted alike makes no difference to what is persisted. -/
theorem strip_replaceField {data records records' : Fields} {strip : JsonValue → JsonValue}
    (hset : ∀ value value', assocGet data key = some value →
      mapValues strip value' = mapValues strip value →
        stripLegacyFields (assocSet data key value') = stripLegacyFields data)
    (hrecords : ∀ value, assocGet data key = some value → value.truthy py = true →
      value = .obj records) (hsame : strippedRecords strip records' = strippedRecords strip records) :
    stripLegacyFields (replaceField py data key records') = stripLegacyFields data := by
  unfold replaceField
  cases hget : assocGet data key with
  | none => rfl
  | some value =>
    dsimp only
    by_cases htruthy : value.truthy py = true
    · rw [if_pos htruthy]
      have hvalue := hrecords value hget htruthy
      apply hset value _ hget
      rw [hvalue]
      exact congrArg JsonValue.obj hsame
    · rw [if_neg htruthy]

theorem orElse_fields {value : JsonValue} {records : Fields} (htruthy : value.truthy py = true)
    (h : (value.orElse py (.obj [])).fields? = some records) : value = .obj records := by
  unfold JsonValue.orElse at h
  rw [if_pos htruthy] at h
  cases value with
  | obj fields =>
    cases h
    rfl
  | _ => cases h

theorem deriveInterfaceNetworkIds_stripped {data data' : Fields}
    (h : deriveInterfaceNetworkIds py data = some data') :
    stripLegacyFields data' = stripLegacyFields data := by
  unfold deriveInterfaceNetworkIds at h
  obtain ⟨nodes, hnodes, h⟩ := Option.bind_eq_some_iff.mp h
  obtain ⟨zeroed, hzeroed, h⟩ := Option.bind_eq_some_iff.mp h
  obtain ⟨links, _, h⟩ := Option.bind_eq_some_iff.mp h
  obtain ⟨injected, hinjected, h⟩ := Option.bind_eq_some_iff.mp h
  cases h
  have hlinks : strippedRecords stripNode injected = strippedRecords stripNode zeroed :=
    foldlM_some_keeps (strippedRecords stripNode)
      (fun _ _ _ hone => setLinkNetwork_stripped hone) hinjected
  refine strip_replaceField (fun _ _ => strip_nodes) ?_ (hlinks.trans (zeroNodes_stripped hzeroed))
  intro value hget htruthy
  unfold fieldOrElse fieldOr at hnodes
  rw [hget, Option.getD_some] at hnodes
  exact orElse_fields htruthy hnodes

theorem deriveNetworkCounts_stripped {data data' : Fields}
    (h : deriveNetworkCounts py data = some data') :
    stripLegacyFields data' = stripLegacyFields data := by
  unfold deriveNetworkCounts at h
  obtain ⟨links, _, h⟩ := Option.bind_eq_some_iff.mp h
  obtain ⟨ids, _, h⟩ := Option.bind_eq_some_iff.mp h
  obtain ⟨networks, hnetworks, h⟩ := Option.bind_eq_some_iff.mp h
  obtain ⟨counted, hcounted, h⟩ := Option.bind_eq_some_iff.mp h
  cases h
  have hsame : strippedRecords stripNetwork counted = strippedRecords stripNetwork networks := by
    refine mapM_some_map ?_ hcounted
    intro entry entry' hentry
    obtain ⟨network, hnetwork, heq⟩ := Option.map_eq_some_iff.mp hentry
    rw [← heq, countNetwork_stripped hnetwork]
  refine strip_replaceField (fun _ _ => strip_networks) ?_ hsame
  intro value hget htruthy
  unfold fieldOr at hnetworks
  rw [hget, Option.getD_some] at hnetworks
  exact orElse_fields htruthy hnetworks

/-- The keys whose values hold derived data. -/
def derivedKeys : List String := ["topology", "nodes", "networks"]

theorem replaceField_get? (py : PyValues) (data records : Fields) {key other : String}
    (hne : key ≠ other) : assocGet (replaceField py data key records) other = assocGet data other := by
  unfold replaceField
  cases assocGet data key with
  | none => rfl
  | some value =>
    dsimp only
    by_cases htruthy : value.truthy py = true
    · rw [if_pos htruthy, assocGet_set, if_neg hne]
    · rw [if_neg htruthy]

/-- What `read_lab_json_static` returns: the document with a topology, and nothing else changed
that is persisted. -/
theorem readLabJsonDocument_spec {document data : Fields}
    (h : readLabJsonDocument py document = some data) :
    stripLegacyFields data = stripLegacyFields document ∧
      (∀ key, key ∉ derivedKeys → assocGet data key = assocGet document key) ∧
      ∃ topology, deriveTopology py document = some topology ∧
        assocGet data "topology" = some (.arr topology) := by
  unfold readLabJsonDocument at h
  by_cases hschema : (fieldOr document "schema" .null).equalsInt py 2 = true
  · rw [if_pos hschema] at h
    obtain ⟨topology, htopology, h⟩ := Option.bind_eq_some_iff.mp h
    obtain ⟨attached, hattached, hcounted⟩ := Option.bind_eq_some_iff.mp h
    have hattachedStrip := deriveInterfaceNetworkIds_stripped hattached
    have hcountedStrip := deriveNetworkCounts_stripped hcounted
    have hattachedGet : ∀ key, key ≠ "nodes" → assocGet attached key =
        assocGet (assocSet document "topology" (.arr topology)) key := by
      intro key hne
      unfold deriveInterfaceNetworkIds at hattached
      obtain ⟨nodes, _, hattached⟩ := Option.bind_eq_some_iff.mp hattached
      obtain ⟨zeroed, _, hattached⟩ := Option.bind_eq_some_iff.mp hattached
      obtain ⟨links, _, hattached⟩ := Option.bind_eq_some_iff.mp hattached
      obtain ⟨injected, _, hattached⟩ := Option.bind_eq_some_iff.mp hattached
      cases hattached
      exact replaceField_get? py _ _ (Ne.symm hne)
    have hcountedGet : ∀ key, key ≠ "networks" → assocGet data key = assocGet attached key := by
      intro key hne
      unfold deriveNetworkCounts at hcounted
      obtain ⟨links, _, hcounted⟩ := Option.bind_eq_some_iff.mp hcounted
      obtain ⟨ids, _, hcounted⟩ := Option.bind_eq_some_iff.mp hcounted
      obtain ⟨networks, _, hcounted⟩ := Option.bind_eq_some_iff.mp hcounted
      obtain ⟨counted, _, hcounted⟩ := Option.bind_eq_some_iff.mp hcounted
      cases hcounted
      exact replaceField_get? py _ _ (Ne.symm hne)
    refine ⟨?_, ?_, topology, htopology, ?_⟩
    · rw [hcountedStrip, hattachedStrip, strip_topology]
    · intro key hkey
      simp only [derivedKeys, List.mem_cons, List.not_mem_nil, or_false, not_or] at hkey
      obtain ⟨htop, hnodes, hnetworks⟩ := hkey
      rw [hcountedGet key hnetworks, hattachedGet key hnodes, assocGet_set, if_neg (Ne.symm htop)]
    · rw [hcountedGet "topology" (by decide), hattachedGet "topology" (by decide), assocGet_set,
        if_pos rfl]
  · rw [if_neg hschema] at h
    cases h

/-- What is left of a document is a document without derived data. -/
def Stripped (data : Fields) : Prop := stripLegacyFields data = data

theorem stripInterface_idem : stripInterface ∘ stripInterface = stripInterface := by
  funext iface
  cases iface with
  | obj fields => exact congrArg JsonValue.obj (assocPop_idem fields "network_id")
  | _ => rfl

theorem stripNode_idem : stripNode ∘ stripNode = stripNode := by
  funext node
  have hitems : mapItems stripInterface ∘ mapItems stripInterface = mapItems stripInterface := by
    funext value
    rw [Function.comp_apply, mapItems_mapItems, stripInterface_idem]
  unfold stripNode
  rw [Function.comp_apply, mapInterfaces_mapInterfaces, hitems]

theorem stripNetwork_idem : stripNetwork ∘ stripNetwork = stripNetwork := by
  funext network
  cases network with
  | obj fields => exact congrArg JsonValue.obj (assocPop_idem fields "count")
  | _ => rfl

theorem mapValues_mapValues {f : JsonValue → JsonValue} (h : f ∘ f = f) :
    mapValues f ∘ mapValues f = mapValues f := by
  funext value
  cases value with
  | obj fields =>
    have hmap : (fields.map (fun entry => (entry.1, f entry.2))).map
        (fun entry => (entry.1, f entry.2)) = fields.map (fun entry => (entry.1, f entry.2)) := by
      rw [List.map_map]
      apply List.map_congr_left
      intro entry _
      exact congrArg (Prod.mk entry.1) (congrFun h entry.2)
    exact congrArg JsonValue.obj hmap
  | _ => rfl

theorem stripLegacyFields_stripped (data : Fields) : Stripped (stripLegacyFields data) := by
  unfold Stripped stripLegacyFields
  rw [assocPop_mapField, assocPop_mapField, assocPop_idem,
    mapField_comm _ (mapValues stripNode) (mapValues stripNetwork) (by decide),
    mapField_mapField, mapField_mapField, mapValues_mapValues stripNode_idem,
    mapValues_mapValues stripNetwork_idem]

theorem Stripped.set {data : Fields} (h : Stripped data) (value : JsonValue)
    (hkey : key ∉ derivedKeys) : Stripped (assocSet data key value) := by
  simp only [derivedKeys, List.mem_cons, List.not_mem_nil, or_false, not_or] at hkey
  obtain ⟨htop, hnodes, hnetworks⟩ := hkey
  unfold Stripped stripLegacyFields at h ⊢
  rw [assocPop_set_ne _ _ htop, mapField_set_ne _ _ _ hnodes, mapField_set_ne _ _ _ hnetworks, h]

theorem Stripped.setDefault {data : Fields} (h : Stripped data) (value : JsonValue)
    (hkey : key ∉ derivedKeys) : Stripped (setDefault key value data) := by
  unfold NovaVe.setDefault
  by_cases hthere : (assocGet data key).isSome = true
  · rw [if_pos hthere]
    exact h
  · rw [if_neg hthere]
    exact h.set value hkey

theorem setDefault_get? (key other : String) (value : JsonValue) (data : Fields)
    (h : (assocGet data other).isSome ∨ other = key) :
    (assocGet (setDefault key value data) other).isSome := by
  unfold setDefault
  by_cases hthere : (assocGet data key).isSome = true
  · rw [if_pos hthere]
    rcases h with hsome | heq
    · exact hsome
    · rw [heq]
      exact hthere
  · rw [if_neg hthere, assocGet_set]
    by_cases heq : key = other
    · rw [if_pos heq]
      rfl
    · rw [if_neg heq]
      rcases h with hsome | hother
      · exact hsome
      · exact absurd hother.symm heq

/-- What holds of every document that `write_lab_json_static` dumps. -/
structure Persisted (py : PyValues) (document : Fields) : Prop where
  stripped : Stripped document
  schema : (assocGet document "schema").isSome
  links : (assocGet document "links").isSome
  viewport : (assocGet document "viewport").isSome
  defaults : (assocGet document "defaults").isSome
  version : (fieldOr document "schema_version" .null).equalsInt py 2 = true

theorem setDefaults_isSome (data : Fields) (h : key ∈ ["schema", "links", "viewport", "defaults"]) :
    (assocGet (setDefaults data) key).isSome := by
  unfold setDefaults
  simp only [List.mem_cons, List.not_mem_nil, or_false] at h
  apply setDefault_get?
  rcases h with hkey | hkey | hkey | hkey
  · left
    exact setDefault_get? _ _ _ _ (Or.inl (setDefault_get? _ _ _ _ (Or.inl
      (setDefault_get? _ _ _ _ (Or.inr hkey)))))
  · left
    exact setDefault_get? _ _ _ _ (Or.inl (setDefault_get? _ _ _ _ (Or.inr hkey)))
  · left
    exact setDefault_get? _ _ _ _ (Or.inr hkey)
  · right
    exact hkey

theorem setDefaults_stripped {data : Fields} (h : Stripped data) : Stripped (setDefaults data) := by
  unfold setDefaults
  exact (((h.setDefault _ (by decide)).setDefault _ (by decide)).setDefault _ (by decide)).setDefault
    _ (by decide)

theorem setSchemaVersion_get? (py : PyValues) (data : Fields) (hkey : key ≠ "schema_version") :
    assocGet (setSchemaVersion py data) key = assocGet data key := by
  unfold setSchemaVersion
  split
  next => rw [assocGet_set, if_neg (Ne.symm hkey)]
  next => rfl

theorem persisted_of_written {data document : Fields}
    (h : writeLabJsonDocument py data = some document) : Persisted py document := by
  unfold writeLabJsonDocument at h
  obtain ⟨linked, _, h⟩ := Option.bind_eq_some_iff.mp h
  cases h
  have hstripped := setDefaults_stripped (stripLegacyFields_stripped linked)
  have hthere : ∀ key ∈ ["schema", "links", "viewport", "defaults"],
      (assocGet (setSchemaVersion py (setDefaults (stripLegacyFields linked))) key).isSome := by
    intro key hkey
    have hne : key ≠ "schema_version" := by
      intro heq
      rw [heq] at hkey
      exact absurd hkey (by decide)
    rw [setSchemaVersion_get? py _ hne]
    exact setDefaults_isSome _ hkey
  have hshape : hasV2Shape (setDefaults (stripLegacyFields linked)) = true := by
    have hlinks : (assocGet (setDefaults (stripLegacyFields linked)) "links").isSome = true :=
      setDefaults_isSome _ (by decide)
    unfold hasV2Shape
    rw [hlinks, Bool.true_or]
  refine ⟨?_, hthere _ (by decide), hthere _ (by decide), hthere _ (by decide),
    hthere _ (by decide), ?_⟩
  · unfold setSchemaVersion
    split
    next => exact hstripped.set _ (by decide)
    next => exact hstripped
  · unfold setSchemaVersion
    rw [hshape, Bool.true_and]
    cases hversion : (fieldOr (setDefaults (stripLegacyFields linked)) "schema_version"
        .null).equalsInt py 2 with
    | true => exact hversion
    | false =>
      show (fieldOr (assocSet _ "schema_version" (.int 2)) "schema_version" .null).equalsInt py 2 =
        true
      unfold fieldOr
      rw [assocGet_set, if_pos rfl]
      rfl

theorem setDefault_there {value : JsonValue} {data : Fields} (h : (assocGet data key).isSome) :
    setDefault key value data = data := by
  unfold setDefault
  exact if_pos h

/-- The finishing steps of a write leave a persisted document as it is. -/
theorem Persisted.finished {document : Fields} (h : Persisted py document) :
    setSchemaVersion py (setDefaults (stripLegacyFields document)) = document := by
  have hstripped : stripLegacyFields document = document := h.stripped
  unfold setDefaults
  rw [hstripped, setDefault_there h.schema, setDefault_there h.links, setDefault_there h.viewport,
    setDefault_there h.defaults]
  unfold setSchemaVersion
  rw [h.version]
  simp

end NovaVe
