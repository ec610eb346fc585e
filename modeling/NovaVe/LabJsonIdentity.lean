import NovaVe.LabJsonLaws

namespace NovaVe

/-- The links are there, or they are an empty list; not `null`, `false`, 0, an empty text or an
empty object. -/
def LinksSettled (py : PyValues) (document : Fields) : Prop :=
  ∃ links, assocGet document "links" = some links ∧
    (links.truthy py = true ∨ links = .arr [])

/-- A document that `write_lab_json_static` dumped for some data. -/
def Written (py : PyValues) (document : Fields) : Prop :=
  ∃ data, writeLabJsonDocument py data = some document

/-- No derived topology, interface network id or network count. -/
structure NothingDerived (document : Fields) : Prop where
  topology : assocGet document "topology" = none
  interfaces : ∀ nodes, assocGet document "nodes" = some (.obj nodes) → ∀ entry ∈ nodes,
    ∀ node, entry.2 = .obj node → ∀ ifaces, assocGet node "interfaces" = some (.arr ifaces) →
      ∀ iface ∈ ifaces, ∀ fields, iface = .obj fields → assocGet fields "network_id" = none
  counts : ∀ networks, assocGet document "networks" = some (.obj networks) →
    ∀ entry ∈ networks, ∀ fields, entry.2 = .obj fields → assocGet fields "count" = none

theorem strip_get? (data : Fields) {key : String} (hkey : key ∉ derivedKeys) :
    assocGet (stripLegacyFields data) key = assocGet data key := by
  simp only [derivedKeys, List.mem_cons, List.not_mem_nil, or_false, not_or] at hkey
  obtain ⟨htop, hnodes, hnetworks⟩ := hkey
  unfold stripLegacyFields
  rw [assocGet_mapField, if_neg (Ne.symm hnetworks), assocGet_mapField, if_neg (Ne.symm hnodes),
    assocGet_pop, if_neg (Ne.symm htop)]

theorem setDefault_keeps {key other : String} {value found : JsonValue} {data : Fields}
    (h : assocGet data other = some found) :
    assocGet (setDefault key value data) other = some found := by
  unfold setDefault
  by_cases hthere : (assocGet data key).isSome = true
  · rw [if_pos hthere]
    exact h
  · rw [if_neg hthere, assocGet_set]
    by_cases heq : key = other
    · rw [heq, h] at hthere
      exact absurd rfl hthere
    · rw [if_neg heq]
      exact h

theorem setDefaults_keeps {key : String} {found : JsonValue} {data : Fields}
    (h : assocGet data key = some found) : assocGet (setDefaults data) key = some found := by
  unfold setDefaults
  exact setDefault_keeps (setDefault_keeps (setDefault_keeps (setDefault_keeps h)))

/-- The links a write persists are those it went on with. -/
theorem written_links {py : PyValues} {data linked document : Fields} {links : JsonValue}
    (hlinked : withLinks py data = some linked) (hlinks : assocGet linked "links" = some links)
    (h : writeLabJsonDocument py data = some document) :
    assocGet document "links" = some links := by
  unfold writeLabJsonDocument at h
  rw [hlinked] at h
  have hdocument := Option.some.inj h
  rw [← hdocument, setSchemaVersion_get? py _ (by decide)]
  apply setDefaults_keeps
  rw [strip_get? _ (by decide)]
  exact hlinks

theorem deriveTopology_of_falsy {py : PyValues} {document : Fields} {links : JsonValue}
    (hget : assocGet document "links" = some links) (hfalsy : links.truthy py = false) :
    deriveTopology py document = some [] := by
  have hnone : fieldOrElse py document "links" (.arr []) = .arr [] := by
    unfold fieldOrElse fieldOr JsonValue.orElse
    rw [hget, Option.getD_some, hfalsy]
    rfl
  unfold deriveTopology linkRecords
  rw [hnone]
  rfl

theorem topologyToLinksStatic_nil {py : PyValues} {data : Fields}
    (h : assocGet data "topology" = some (.arr [])) : topologyToLinksStatic py data = some [] := by
  have hnone : fieldOrElse py data "topology" (.arr []) = .arr [] := by
    unfold fieldOrElse fieldOr JsonValue.orElse
    rw [h]
    rfl
  unfold topologyToLinksStatic
  rw [hnone]
  rfl

theorem fieldOr_of_get {fields : Fields} {key : String} {value default : JsonValue}
    (h : assocGet fields key = some value) : fieldOr fields key default = value := by
  unfold fieldOr
  rw [h]
  rfl

theorem withLinks_of_truthy {py : PyValues} {data : Fields} {links : JsonValue}
    (hget : assocGet data "links" = some links) (htruthy : links.truthy py = true) :
    withLinks py data = some data := by
  unfold withLinks
  rw [fieldOr_of_get hget, htruthy, Bool.not_true, Bool.and_false]
  rfl

theorem withLinks_of_falsy {py : PyValues} {data : Fields} {links : JsonValue}
    (hget : assocGet data "links" = some links) (hfalsy : links.truthy py = false)
    (htopology : assocGet data "topology" = some (.arr [])) :
    withLinks py data = some (assocSet data "links" (.arr [])) := by
  unfold withLinks
  rw [fieldOr_of_get hget, hfalsy, htopology, topologyToLinksStatic_nil htopology]
  rfl

theorem withLinks_of_no_topology {py : PyValues} {data : Fields}
    (htopology : assocGet data "topology" = none) : withLinks py data = some data := by
  unfold withLinks
  rw [htopology]
  rfl

theorem strip_set_links (data : Fields) (value : JsonValue) :
    stripLegacyFields (assocSet data "links" value) =
      assocSet (stripLegacyFields data) "links" value := by
  unfold stripLegacyFields
  rw [assocPop_set_ne _ _ (by decide), mapField_set_ne _ _ _ (by decide),
    mapField_set_ne _ _ _ (by decide)]

/-- Writing back what was read leaves a persisted document alone exactly when its links are settled. -/
theorem write_read_iff {py : PyValues} {document data : Fields} (hwritten : Written py document)
    (hread : readLabJsonDocument py document = some data) :
    writeLabJsonDocument py data = some document ↔ LinksSettled py document := by
  obtain ⟨source, hsource⟩ := hwritten
  have hpersisted := persisted_of_written hsource
  obtain ⟨hstrip, hsame, topology, htopology, hset⟩ := readLabJsonDocument_spec hread
  obtain ⟨links, hlinks⟩ := Option.isSome_iff_exists.mp hpersisted.links
  have hdata : assocGet data "links" = some links := by
    rw [hsame "links" (by decide)]
    exact hlinks
  cases htruthy : links.truthy py with
  | true =>
    have hwrite : writeLabJsonDocument py data = some document := by
      unfold writeLabJsonDocument
      rw [withLinks_of_truthy hdata htruthy]
      show some (setSchemaVersion py (setDefaults (stripLegacyFields data))) = some document
      rw [hstrip, hpersisted.finished]
    exact ⟨fun _ => ⟨links, hlinks, Or.inl htruthy⟩, fun _ => hwrite⟩
  | false =>
    have hnil := deriveTopology_of_falsy hlinks htruthy
    rw [htopology] at hnil
    rw [Option.some.inj hnil] at hset
    have hlinked := withLinks_of_falsy hdata htruthy hset
    constructor
    · intro hwrite
      have hempty : assocGet document "links" = some (.arr []) := by
        apply written_links hlinked _ hwrite
        rw [assocGet_set, if_pos rfl]
      exact ⟨.arr [], hempty, Or.inr rfl⟩
    · intro hsettled
      obtain ⟨found, hfound, hcase⟩ := hsettled
      have heq : links = found := Option.some.inj (hlinks.symm.trans hfound)
      subst heq
      rcases hcase with hyes | hempty
      · rw [hyes] at htruthy
        cases htruthy
      · unfold writeLabJsonDocument
        rw [hlinked]
        show some (setSchemaVersion py (setDefaults (stripLegacyFields
          (assocSet data "links" (.arr []))))) = some document
        have hstripped : stripLegacyFields document = document := hpersisted.stripped
        rw [hempty] at hlinks
        rw [strip_set_links, hstrip, hstripped, assocSet_get hlinks]
        have hfinished := hpersisted.finished
        rw [hstripped] at hfinished
        rw [hfinished]

theorem stripNode_network_id {node stripped : JsonValue} (h : stripNode node = stripped) :
    ∀ fields, stripped = .obj fields → ∀ ifaces, assocGet fields "interfaces" = some (.arr ifaces) →
      ∀ iface ∈ ifaces, ∀ record, iface = .obj record → assocGet record "network_id" = none := by
  intro fields hfields ifaces hifaces iface hiface record hrecord
  subst hfields
  cases node with
  | obj source =>
    have hsource : mapField "interfaces" (mapItems stripInterface) source = fields :=
      JsonValue.obj.inj h
    rw [← hsource, assocGet_mapField, if_pos rfl] at hifaces
    obtain ⟨value, _, hvalue⟩ := Option.map_eq_some_iff.mp hifaces
    cases value with
    | arr items =>
      have hitems : items.map stripInterface = ifaces := JsonValue.arr.inj hvalue
      rw [← hitems] at hiface
      obtain ⟨item, _, hitem⟩ := List.mem_map.mp hiface
      rw [hrecord] at hitem
      cases item with
      | obj kept =>
        have hkept : assocPop kept "network_id" = record := JsonValue.obj.inj hitem
        rw [← hkept, assocGet_pop, if_pos rfl]
      | _ => cases hitem
    | _ => cases hvalue
  | _ => cases h

/-- The derived data is never persisted. -/
theorem Stripped.nothingDerived {document : Fields} (h : Stripped document) :
    NothingDerived document := by
  have heq : stripLegacyFields document = document := h
  refine ⟨?_, ?_, ?_⟩
  · rw [← heq]
    unfold stripLegacyFields
    rw [assocGet_mapField, if_neg (by decide), assocGet_mapField, if_neg (by decide), assocGet_pop,
      if_pos rfl]
  · intro nodes hnodes entry hentry node hnode ifaces hifaces iface hiface fields hfields
    rw [← heq] at hnodes
    unfold stripLegacyFields at hnodes
    rw [assocGet_mapField, if_neg (by decide), assocGet_mapField, if_pos rfl] at hnodes
    obtain ⟨value, _, hvalue⟩ := Option.map_eq_some_iff.mp hnodes
    cases value with
    | obj records =>
      have hrecords : records.map (fun record => (record.1, stripNode record.2)) = nodes :=
        JsonValue.obj.inj hvalue
      rw [← hrecords] at hentry
      obtain ⟨source, _, hsource⟩ := List.mem_map.mp hentry
      have hstripped : stripNode source.2 = entry.2 := congrArg Prod.snd hsource
      exact stripNode_network_id hstripped node hnode ifaces hifaces iface hiface fields hfields
    | _ => cases hvalue
  · intro networks hnetworks entry hentry fields hfields
    rw [← heq] at hnetworks
    unfold stripLegacyFields at hnetworks
    rw [assocGet_mapField, if_pos rfl] at hnetworks
    obtain ⟨value, _, hvalue⟩ := Option.map_eq_some_iff.mp hnetworks
    cases value with
    | obj records =>
      have hrecords : records.map (fun record => (record.1, stripNetwork record.2)) = networks :=
        JsonValue.obj.inj hvalue
      rw [← hrecords] at hentry
      obtain ⟨source, _, hsource⟩ := List.mem_map.mp hentry
      have hstripped : stripNetwork source.2 = entry.2 := congrArg Prod.snd hsource
      rw [hfields] at hstripped
      cases hcase : source.2 with
      | obj kept =>
        rw [hcase] at hstripped
        have hkept : assocPop kept "count" = fields := JsonValue.obj.inj hstripped
        rw [← hkept, assocGet_pop, if_pos rfl]
      | _ =>
        rw [hcase] at hstripped
        cases hstripped
    | _ => cases hvalue

/-- Whether a change of what was read may reach the links: it leaves `links` as it is, and where
there are none it leaves the derived topology as it is or drops it. -/
def SparesLinks (py : PyValues) (data data' : Fields) : Prop :=
  assocGet data' "links" = assocGet data "links" ∧
    ((∃ links, assocGet data "links" = some links ∧ links.truthy py = true) ∨
      assocGet data' "topology" = assocGet data "topology" ∨ assocGet data' "topology" = none)

theorem links_kept {py : PyValues} {document data data' document' : Fields}
    (hsettled : LinksSettled py document) (hread : readLabJsonDocument py document = some data)
    (hspares : SparesLinks py data data') (hwrite : writeLabJsonDocument py data' = some document') :
    assocGet document' "links" = assocGet document "links" := by
  obtain ⟨links, hlinks, hcase⟩ := hsettled
  obtain ⟨_, hsame, topology, htopology, hset⟩ := readLabJsonDocument_spec hread
  obtain ⟨hkept, hchange⟩ := hspares
  have hdata : assocGet data' "links" = some links := by
    rw [hkept, hsame "links" (by decide)]
    exact hlinks
  rw [hlinks]
  cases htruthy : links.truthy py with
  | true => exact written_links (withLinks_of_truthy hdata htruthy) hdata hwrite
  | false =>
    have hempty : links = .arr [] := by
      rcases hcase with hyes | hempty
      · rw [hyes] at htruthy
        cases htruthy
      · exact hempty
    rcases hchange with ⟨found, hfound, hyes⟩ | htop | htop
    · rw [hsame "links" (by decide), hlinks] at hfound
      cases hfound
      rw [hyes] at htruthy
      cases htruthy
    · have hnil := deriveTopology_of_falsy hlinks htruthy
      rw [htopology] at hnil
      rw [hset, Option.some.inj hnil] at htop
      rw [hempty]
      apply written_links (withLinks_of_falsy hdata htruthy htop) _ hwrite
      rw [assocGet_set, if_pos rfl]
    · exact written_links (withLinks_of_no_topology htop) hdata hwrite

/-- Writing back what was read changes a persisted document only by making missing links an empty
list, derived data is never persisted, and links survive every change of other data. -/
theorem read_then_write (py : PyValues) :
    (∀ document data, Written py document → readLabJsonDocument py document = some data →
      (writeLabJsonDocument py data = some document ↔ LinksSettled py document)) ∧
    (∀ data document, writeLabJsonDocument py data = some document → NothingDerived document) ∧
    (∀ document data data' document', Written py document → LinksSettled py document →
      readLabJsonDocument py document = some data → SparesLinks py data data' →
      writeLabJsonDocument py data' = some document' →
        assocGet document' "links" = assocGet document "links") := by
  refine ⟨?_, ?_, ?_⟩
  · intro document data hwritten hread
    exact write_read_iff hwritten hread
  · intro data document hwrite
    exact (persisted_of_written hwrite).stripped.nothingDerived
  · intro document data data' document' _ hsettled hread hspares hwrite
    exact links_kept hsettled hread hspares hwrite

/-- Documents without other floats than 0.0 and 1.0. -/
def plainPy : PyValues where
  truncate text := if text = "1.0" then .value 1 else .value 0
  floatTruth text := decide (text ≠ "0.0")
  floatEq text n := decide (text = "1.0" ∧ n = 1)
  repr _ := ""

/-- A lab with one node on a network that is not there, and an interface that is no record. -/
def danglingLab : Fields :=
  [("schema", .int 2), ("owner", .str "lab"),
    ("nodes", .obj [("1", .obj [("name", .str "R1"),
      ("interfaces", .arr [.obj [("index", .int 0), ("speed", .int 10)], .null])])]),
    ("networks", .obj [("2", .obj [("id", .int 2)])]),
    ("links", .arr [.obj [("from", .obj [("node_id", .int 1), ("interface_index", .int 0)]),
      ("to", .obj [("network_id", .int 7)])]])]

/-- The lab as it is persisted, and as it is read back. -/
def danglingDocument : Fields := (writeLabJsonDocument plainPy danglingLab).getD []

def danglingRead : Fields := (readLabJsonDocument plainPy danglingDocument).getD []

/-- The lab is read and written back, with its owner changed or as it is. -/
theorem dangling_lab_kept :
    writeLabJsonDocument plainPy danglingRead = some danglingDocument ∧
      ∀ document', writeLabJsonDocument plainPy (assocSet danglingRead "owner" (.str "other")) =
        some document' → assocGet document' "links" = assocGet danglingDocument "links" := by
  obtain ⟨hidentity, _, hlinks⟩ := read_then_write plainPy
  have hwritten : Written plainPy danglingDocument := ⟨danglingLab, rfl⟩
  have hread : readLabJsonDocument plainPy danglingDocument = some danglingRead := rfl
  have hsettled : LinksSettled plainPy danglingDocument := ⟨_, rfl, Or.inl rfl⟩
  constructor
  · exact (hidentity danglingDocument danglingRead hwritten hread).mpr hsettled
  · intro document' hwrite
    have hspares : SparesLinks plainPy danglingRead
        (assocSet danglingRead "owner" (.str "other")) := ⟨rfl, Or.inl ⟨_, rfl, rfl⟩⟩
    exact hlinks danglingDocument danglingRead _ document' hwritten hsettled hread hspares hwrite

/-- Links that are `null` become an empty list, and a topology put in place of the derived one of a
lab without links becomes its links. -/
theorem links_made_by_write :
    ¬(∀ document data, Written plainPy document →
        readLabJsonDocument plainPy document = some data →
        writeLabJsonDocument plainPy data = some document) ∧
    ¬(∀ document data document' key value, Written plainPy document →
        readLabJsonDocument plainPy document = some data → key ≠ "links" →
        writeLabJsonDocument plainPy (assocSet data key value) = some document' →
        assocGet document' "links" = assocGet document "links") := by
  constructor
  · intro hidentity
    have hsame := hidentity _ _ ⟨[("schema", .int 2), ("links", .null)], rfl⟩ rfl
    have hlinks := congrArg (fun written : Option Fields =>
      written.bind (fun fields => assocGet fields "links")) hsame
    have hnull : (some (JsonValue.arr [])) = some .null := hlinks
    cases hnull
  · intro hkept
    have hsame := hkept _ _ _ "topology"
      (.arr [.obj [("source", .str "node1"), ("destination", .str "node2")]])
      ⟨[("schema", .int 2)], rfl⟩ rfl (by decide) rfl
    have hcount := congrArg (fun links : Option JsonValue =>
      links.bind JsonValue.length?) hsame
    have hone : some 1 = some 0 := hcount
    exact absurd hone (by decide)

end NovaVe
