import NovaVe.JsonValues
import NovaVe.Texts

namespace NovaVe

/-- `_L3_FIELDS`. -/
def l3Fields : List String :=
  ["dhcp4", "dhcp6", "addresses", "routes", "routing-policy", "nameservers", "gateway4",
    "gateway6", "mtu", "accept-ra", "dhcp4-overrides", "dhcp6-overrides"]

/-- The values of a file, with `str.lower`. -/
structure PyTexts extends PyValues where
  lower : List Char → List Char
  lower_nil : lower [] = []

/-- `_normalise_mac`. -/
def normaliseMac (py : PyTexts) (value : JsonValue) : List Char :=
  match value with
  | .str text => py.lower (stripChars isPySpace text.toList)
  | _ => []

/-- The address that a stanza matches; `none` where its `match` has no `get`. -/
def stanzaMac (py : PyTexts) (stanza : Fields) : Option (List Char) := do
  let block ← (fieldOrElse py.toPyValues stanza "match" (.obj [])).fields?
  return normaliseMac py (fieldOr block "macaddress" .null)

/-- The first stanza with an address among the ethernets of a file. -/
def findStanza (py : PyTexts) (mac : List Char) : Fields → Option (Option Fields)
  | [] => some none
  | (_, .obj stanza) :: rest => do
    if (← stanzaMac py stanza) = mac then some (some stanza) else findStanza py mac rest
  | _ :: rest => findStanza py mac rest

def sourceEthernets (py : PyTexts) (data : Fields) : Option Fields := do
  let network ← (fieldOrElse py.toPyValues data "network" (.obj [])).fields?
  match fieldOrElse py.toPyValues network "ethernets" (.obj []) with
  | .obj ethernets => return ethernets
  | _ => return []

/-- The search over the files, of which those that cannot be loaded are `none`. -/
def findSource (py : PyTexts) (mac : List Char) : List (Option Fields) → Option (Option Fields)
  | [] => some none
  | none :: rest => findSource py mac rest
  | some data :: rest =>
    if data.isEmpty then findSource py mac rest
    else do
      let ethernets ← sourceEthernets py data
      match ← findStanza py mac ethernets with
      | some stanza => return some stanza
      | none => findSource py mac rest

/-- `_find_source_ethernet_by_mac`; the outer `none` is an `AttributeError`. -/
def findSourceEthernetByMac (py : PyTexts) (sources : List (Option Fields)) (mac : String) :
    Option (Option Fields) :=
  if normaliseMac py (.str mac) = [] then some none
  else findSource py (normaliseMac py (.str mac)) sources

def copyField (source : Fields) (target : Fields) (field : String) : Fields :=
  match assocGet source field with
  | some value => assocSet target field value
  | none => target

def copyL3 (source target : Fields) : Fields := l3Fields.foldl (copyField source) target

/-- A stanza has an address source. -/
def hasAddress (py : PyTexts) (stanza : Fields) : Bool :=
  ["dhcp4", "dhcp6", "addresses"].any (fun field => (fieldOr stanza field .null).truthy py.toPyValues)

def withDhcp (stanza : Fields) : Fields :=
  assocSet (assocSet stanza "dhcp4" (.bool true)) "dhcp6" (.bool false)

def defaultDhcp (stanza : Fields) : Fields :=
  setDefault "dhcp6" (.bool false) (setDefault "dhcp4" (.bool true) stanza)

/-- The stanza that the fields of an interface are copied from. -/
def sourceOf (py : PyTexts) (sources : List (Option Fields)) (mac : Option String) :
    Option (Option Fields) := do
  match mac with
  | none => return none
  | some mac =>
    if sources.isEmpty then return none
    else
      let found ← findSourceEthernetByMac py sources mac
      return found.filter (fun stanza => !stanza.isEmpty)

/-- The stanza of a bridge in `build_config`. -/
def bridgeStanza (py : PyTexts) (sources : List (Option Fields)) (macMap : Dict String String)
    (iface : String) : Option Fields := do
  let bridge : Fields := [("interfaces", .arr [.str iface]),
    ("parameters", .obj [("stp", .bool false), ("forward-delay", .int 0)])]
  let bridge := match macMap.get? iface with
    | some mac => assocSet bridge "macaddress" (.str mac)
    | none => bridge
  match ← sourceOf py sources (macMap.get? iface) with
  | none => return defaultDhcp bridge
  | some source =>
    let bridge := copyL3 source bridge
    return if hasAddress py bridge then bridge else withDhcp bridge

/-- The stanza of an interface in `build_transitional_config`. -/
def transitionalStanza (py : PyTexts) (sources : List (Option Fields))
    (macMap : Dict String String) (iface : String) : Option Fields := do
  let mac := (macMap.get? iface).getD ""
  let stanza : Fields := if mac = "" then [] else [("match", .obj [("macaddress", .str mac)])]
  let source ← sourceOf py sources (if mac = "" then none else some mac)
  let stanza := match source with
    | none => defaultDhcp stanza
    | some source => copyL3 source stanza
  return if hasAddress py stanza then stanza else withDhcp stanza

/-- A dictionary that is filled for one interface after the other. -/
def fillStanzas (key : String → String) (stanza : String → Option Fields) (ifaces : List String) :
    Option Fields :=
  ifaces.foldlM (fun stanzas iface => do
    let fields ← stanza iface
    return assocSet stanzas (key iface) (.obj fields)) []

def netplan (sections : Fields) : JsonValue :=
  .obj [("network", .obj ([("version", .int 2), ("renderer", .str "networkd")] ++ sections))]

def unaddressed : JsonValue := .obj [("dhcp4", .bool false), ("dhcp6", .bool false)]

def bridgeName (iface : String) : String := "br-" ++ iface

def buildConfig (py : PyTexts) (sources : List (Option Fields)) (macMap : Dict String String)
    (ifaces : List String) : Option JsonValue := do
  let bridges ← fillStanzas bridgeName (bridgeStanza py sources macMap) ifaces
  let ethernets := ifaces.foldl (fun stanzas iface => assocSet stanzas iface unaddressed) []
  return netplan [("ethernets", .obj ethernets), ("bridges", .obj bridges)]

def buildTransitionalConfig (py : PyTexts) (sources : List (Option Fields))
    (macMap : Dict String String) (ifaces : List String) : Option JsonValue := do
  let ethernets ← fillStanzas id (transitionalStanza py sources macMap) ifaces
  return netplan [("ethernets", .obj ethernets)]

theorem assocGet_copyFields (source target : Fields) (fields : List String) (field : String) :
    assocGet (fields.foldl (copyField source) target) field =
      if field ∈ fields then (assocGet source field).or (assocGet target field)
      else assocGet target field := by
  induction fields generalizing target with
  | nil => rfl
  | cons first rest ih =>
    have hfirst : assocGet (copyField source target first) field =
        if first = field then (assocGet source field).or (assocGet target field)
        else assocGet target field := by
      unfold copyField
      split
      next value hvalue =>
        rw [assocGet_set]
        split
        next heq => rw [← heq, hvalue, Option.some_or]
        next => rfl
      next hnone =>
        split
        next heq => rw [← heq, hnone, Option.none_or]
        next => rfl
    rw [List.foldl_cons, ih, hfirst]
    by_cases heq : first = field
    · subst heq
      cases assocGet source first <;> simp
    · simp [heq, Ne.symm heq]

theorem assocGet_setDefault (key field : String) (value : JsonValue) (fields : Fields) :
    assocGet (setDefault key value fields) field =
      if key = field then (assocGet fields field).or (some value) else assocGet fields field := by
  unfold setDefault
  split
  next hthere =>
    split
    next heq =>
      obtain ⟨held, hheld⟩ := Option.isSome_iff_exists.mp hthere
      rw [← heq, hheld, Option.some_or]
    next => rfl
  next hnew =>
    rw [assocGet_set]
    split
    next heq =>
      rw [← heq, Option.not_isSome_iff_eq_none.mp hnew, Option.none_or]
    next => rfl

/-- What a stanza has at a field, where its source, if it has one, leaves the host reachable. -/
def l3Of (py : PyTexts) (source : Option Fields) (field : String) : Option JsonValue :=
  let dhcp := if field = "dhcp4" then some (.bool true)
    else if field = "dhcp6" then some (.bool false) else none
  match source with
  | none => dhcp
  | some source =>
    if hasAddress py source then assocGet source field else dhcp.or (assocGet source field)

theorem hasAddress_congr {py : PyTexts} {stanza other : Fields}
    (h : ∀ field ∈ l3Fields, assocGet stanza field = assocGet other field) :
    hasAddress py stanza = hasAddress py other := by
  unfold hasAddress fieldOr
  rw [List.any_cons, List.any_cons, List.any_cons, List.any_cons, List.any_cons, List.any_cons,
    h "dhcp4" (by decide), h "dhcp6" (by decide), h "addresses" (by decide)]
  rfl

theorem hasAddress_dhcp {py : PyTexts} {stanza : Fields}
    (h : assocGet stanza "dhcp4" = some (.bool true)) : hasAddress py stanza = true := by
  unfold hasAddress fieldOr
  rw [List.any_cons, h]
  rfl

/-- No field of the list is there. -/
def Bare (stanza : Fields) : Prop := ∀ field ∈ l3Fields, assocGet stanza field = none

theorem copyL3_bare {source stanza : Fields} (hbare : Bare stanza) {field : String}
    (h : field ∈ l3Fields) : assocGet (copyL3 source stanza) field = assocGet source field := by
  unfold copyL3
  rw [assocGet_copyFields, if_pos h, hbare field h, Option.or_none]

theorem copyL3_other (source stanza : Fields) {field : String} (h : field ∉ l3Fields) :
    assocGet (copyL3 source stanza) field = assocGet stanza field := by
  unfold copyL3
  rw [assocGet_copyFields, if_neg h]

theorem withDhcp_get (stanza : Fields) (field : String) : assocGet (withDhcp stanza) field =
    if field = "dhcp4" then some (.bool true) else if field = "dhcp6" then some (.bool false)
      else assocGet stanza field := by
  unfold withDhcp
  rw [assocGet_set, assocGet_set]
  by_cases h4 : field = "dhcp4"
  · subst h4
    rfl
  · by_cases h6 : field = "dhcp6"
    · subst h6
      rfl
    · simp [h4, h6, Ne.symm h4, Ne.symm h6]

theorem defaultDhcp_get {stanza : Fields} (hbare : Bare stanza) (field : String) :
    assocGet (defaultDhcp stanza) field =
      if field = "dhcp4" then some (.bool true) else if field = "dhcp6" then some (.bool false)
        else assocGet stanza field := by
  unfold defaultDhcp
  rw [assocGet_setDefault, assocGet_setDefault]
  by_cases h4 : field = "dhcp4"
  · subst h4
    rw [hbare "dhcp4" (by decide)]
    rfl
  · by_cases h6 : field = "dhcp6"
    · subst h6
      rw [hbare "dhcp6" (by decide)]
      rfl
    · simp [h4, h6, Ne.symm h4, Ne.symm h6]

/-- A stanza with the fields of its source, and with DHCP where that gives no address. -/
def addressed (py : PyTexts) (source : Option Fields) (stanza : Fields) : Fields :=
  match source with
  | none => defaultDhcp stanza
  | some source =>
    let stanza := copyL3 source stanza
    if hasAddress py stanza then stanza else withDhcp stanza

theorem addressed_get {py : PyTexts} {source : Option Fields} {stanza : Fields}
    (hbare : Bare stanza) {field : String} (h : field ∈ l3Fields) :
    assocGet (addressed py source stanza) field = l3Of py source field := by
  unfold addressed l3Of
  cases source with
  | none =>
    simp only [defaultDhcp_get hbare, hbare field h]
  | some source =>
    have hsame : hasAddress py (copyL3 source stanza) = hasAddress py source :=
      hasAddress_congr fun field hfield => copyL3_bare hbare hfield
    simp only [hsame]
    split
    next => exact copyL3_bare hbare h
    next =>
      rw [withDhcp_get, copyL3_bare hbare h]
      split
      next => rfl
      next =>
        split
        next => rfl
        next => rfl

theorem addressed_other {py : PyTexts} {source : Option Fields} {stanza : Fields}
    (hbare : Bare stanza) {field : String} (h : field ∉ l3Fields) :
    assocGet (addressed py source stanza) field = assocGet stanza field := by
  have h4 : field ≠ "dhcp4" := fun heq => h (heq ▸ by decide)
  have h6 : field ≠ "dhcp6" := fun heq => h (heq ▸ by decide)
  unfold addressed
  cases source with
  | none => simp only [defaultDhcp_get hbare, if_neg h4, if_neg h6]
  | some source =>
    simp only
    split
    next => exact copyL3_other source stanza h
    next => rw [withDhcp_get, if_neg h4, if_neg h6, copyL3_other source stanza h]

/-- No stanza is left without an address source. -/
theorem addressed_hasAddress {py : PyTexts} {source : Option Fields} {stanza : Fields}
    (hbare : Bare stanza) : hasAddress py (addressed py source stanza) = true := by
  unfold addressed
  cases source with
  | none => exact hasAddress_dhcp ((defaultDhcp_get hbare "dhcp4").trans (if_pos rfl))
  | some source =>
    simp only
    split
    next h => exact h
    next => exact hasAddress_dhcp ((withDhcp_get _ "dhcp4").trans (if_pos rfl))

theorem Bare.set {stanza : Fields} (hbare : Bare stanza) {key : String} (value : JsonValue)
    (h : key ∉ l3Fields) : Bare (assocSet stanza key value) := by
  intro field hfield
  have hne : key ≠ field := fun heq => h (heq ▸ hfield)
  rw [assocGet_set, if_neg hne, hbare field hfield]

/-- The stanza of a bridge before its address. -/
def bridgeBase (macMap : Dict String String) (iface : String) : Fields :=
  let bridge : Fields := [("interfaces", .arr [.str iface]),
    ("parameters", .obj [("stp", .bool false), ("forward-delay", .int 0)])]
  match macMap.get? iface with
  | some mac => assocSet bridge "macaddress" (.str mac)
  | none => bridge

theorem bridgeBase_bare (macMap : Dict String String) (iface : String) :
    Bare (bridgeBase macMap iface) := by
  have hbare : Bare [("interfaces", .arr [.str iface]),
      ("parameters", .obj [("stp", .bool false), ("forward-delay", .int 0)])] := by
    intro field hfield
    simp only [l3Fields, List.mem_cons, List.not_mem_nil, or_false] at hfield
    rcases hfield with rfl | rfl | rfl | rfl | rfl | rfl | rfl | rfl | rfl | rfl | rfl | rfl <;> rfl
  unfold bridgeBase
  simp only
  split
  next mac _ => exact hbare.set (.str mac) (by decide)
  next => exact hbare

theorem bridgeStanza_eq (py : PyTexts) (sources : List (Option Fields))
    (macMap : Dict String String) (iface : String) : bridgeStanza py sources macMap iface =
      (sourceOf py sources (macMap.get? iface)).map
        (fun source => addressed py source (bridgeBase macMap iface)) := by
  unfold bridgeStanza
  cases hsource : sourceOf py sources (macMap.get? iface) with
  | none => rfl
  | some source => cases source <;> rfl

/-- The stanza of an interface before its address. -/
def transitionalBase (mac : String) : Fields :=
  if mac = "" then [] else [("match", .obj [("macaddress", .str mac)])]

theorem transitionalBase_bare (mac : String) : Bare (transitionalBase mac) := by
  intro field hfield
  unfold transitionalBase
  split
  next => rfl
  next =>
    have hne : "match" ≠ field := fun heq => absurd (heq ▸ hfield) (by decide)
    simp [assocGet, hne]

theorem sourceOf_empty (py : PyTexts) (sources : List (Option Fields)) :
    sourceOf py sources (some "") = some none := by
  have hmac : normaliseMac py (.str "") = [] := py.lower_nil
  unfold sourceOf findSourceEthernetByMac
  simp only [if_pos hmac]
  split <;> rfl

/-- An interface without an address is looked up no more than one with an empty address. -/
theorem sourceOf_absent (py : PyTexts) (sources : List (Option Fields)) (mac : Option String) :
    sourceOf py sources (if mac.getD "" = "" then none else some (mac.getD "")) =
      sourceOf py sources mac := by
  cases mac with
  | none => rfl
  | some mac =>
    simp only [Option.getD_some]
    split
    next heq => exact (heq ▸ sourceOf_empty py sources).symm
    next => rfl

theorem transitionalStanza_eq (py : PyTexts) (sources : List (Option Fields))
    (macMap : Dict String String) (iface : String) : transitionalStanza py sources macMap iface =
      (sourceOf py sources (macMap.get? iface)).map
        (fun source => addressed py source (transitionalBase ((macMap.get? iface).getD ""))) := by
  rw [← sourceOf_absent py sources (macMap.get? iface)]
  unfold transitionalStanza
  simp only
  cases hsource : sourceOf py sources (if (macMap.get? iface).getD "" = "" then none
      else some ((macMap.get? iface).getD "")) with
  | none => rfl
  | some source =>
    cases source with
    | none =>
      have hbare := transitionalBase_bare ((macMap.get? iface).getD "")
      have hthere : hasAddress py (defaultDhcp (transitionalBase ((macMap.get? iface).getD ""))) :=
        @addressed_hasAddress py none _ hbare
      exact congrArg some (if_pos hthere)
    | some source => rfl

/-- A stanza at the end of the filling is that of its interface. -/
theorem fillFrom_get {key : String → String} (hinj : Function.Injective key)
    {stanza : String → Option Fields} {ifaces : List String} {start filled : Fields}
    (h : ifaces.foldlM (fun stanzas iface => do
      let fields ← stanza iface
      return assocSet stanzas (key iface) (.obj fields)) start = some filled) :
    (∀ iface ∈ ifaces, ∃ fields, stanza iface = some fields ∧
      assocGet filled (key iface) = some (.obj fields)) ∧
    ∀ name, (∀ iface ∈ ifaces, key iface ≠ name) → assocGet filled name = assocGet start name := by
  induction ifaces generalizing start with
  | nil =>
    obtain rfl : start = filled := Option.some.inj h
    exact ⟨fun iface hmem => absurd hmem List.not_mem_nil, fun name _ => rfl⟩
  | cons first rest ih =>
    rw [List.foldlM_cons] at h
    cases hfirst : stanza first with
    | none =>
      rw [hfirst] at h
      cases h
    | some fields =>
      rw [hfirst] at h
      obtain ⟨hthere, hother⟩ := ih h
      constructor
      · intro iface hmem
        by_cases hlater : iface ∈ rest
        · exact hthere iface hlater
        · obtain rfl := (List.mem_cons.mp hmem).resolve_right hlater
          have hnot : ∀ other ∈ rest, key other ≠ key iface :=
            fun other hrest heq => hlater (hinj heq ▸ hrest)
          refine ⟨fields, hfirst, ?_⟩
          rw [hother (key iface) hnot, assocGet_set, if_pos rfl]
      · intro name hname
        rw [hother name (fun iface hmem => hname iface (List.mem_cons_of_mem first hmem)),
          assocGet_set, if_neg (hname first List.mem_cons_self)]

theorem fillStanzas_get {key : String → String} (hinj : Function.Injective key)
    {stanza : String → Option Fields} {ifaces : List String} {filled : Fields}
    (h : fillStanzas key stanza ifaces = some filled) {iface : String} (hmem : iface ∈ ifaces) :
    ∃ fields, stanza iface = some fields ∧ assocGet filled (key iface) = some (.obj fields) :=
  (fillFrom_get hinj h).1 iface hmem

theorem fillStanzas_keys {key : String → String} (hinj : Function.Injective key)
    {stanza : String → Option Fields} {ifaces : List String} {filled : Fields}
    (h : fillStanzas key stanza ifaces = some filled) (name : String) :
    (assocGet filled name).isSome ↔ ∃ iface ∈ ifaces, key iface = name := by
  constructor
  · intro hsome
    by_contra hnone
    have hother := (fillFrom_get hinj h).2 name (fun iface hmem heq => hnone ⟨iface, hmem, heq⟩)
    rw [hother] at hsome
    cases hsome
  · rintro ⟨iface, hmem, rfl⟩
    obtain ⟨fields, -, hget⟩ := fillStanzas_get hinj h hmem
    rw [hget]
    rfl

theorem fillStanzas_isSome (key : String → String) (stanza : String → Option Fields)
    (ifaces : List String) :
    (fillStanzas key stanza ifaces).isSome ↔ ∀ iface ∈ ifaces, (stanza iface).isSome := by
  unfold fillStanzas
  generalize ([] : Fields) = start
  induction ifaces generalizing start with
  | nil => simp [pure]
  | cons first rest ih =>
    rw [List.foldlM_cons, List.forall_mem_cons]
    cases hfirst : stanza first with
    | none => simp
    | some fields => simpa using ih (assocSet start (key first) (.obj fields))

/-- The stanzas that the search goes over. -/
def EthernetAt (py : PyTexts) (sources : List (Option Fields)) (mac : List Char)
    (stanza : Fields) : Prop :=
  ∃ data ethernets name, some data ∈ sources ∧ sourceEthernets py data = some ethernets ∧
    (name, .obj stanza) ∈ ethernets ∧ stanzaMac py stanza = some mac

theorem findStanza_some {py : PyTexts} {mac : List Char} {ethernets stanza : Fields}
    (h : findStanza py mac ethernets = some (some stanza)) :
    ∃ name, (name, .obj stanza) ∈ ethernets ∧ stanzaMac py stanza = some mac := by
  induction ethernets with
  | nil => cases h
  | cons entry rest ih =>
    obtain ⟨name, value⟩ := entry
    cases value
    case obj fields =>
      rw [findStanza] at h
      cases hmac : stanzaMac py fields with
      | none =>
        rw [hmac] at h
        cases h
      | some found =>
        rw [hmac] at h
        by_cases heq : found = mac
        · obtain rfl : fields = stanza := by simpa [heq] using h
          exact ⟨name, List.mem_cons_self, hmac.trans (congrArg some heq)⟩
        · obtain ⟨other, hmem, hother⟩ := ih (by simpa [heq] using h)
          exact ⟨other, List.mem_cons_of_mem _ hmem, hother⟩
    all_goals
      obtain ⟨other, hmem, hother⟩ := ih h
      exact ⟨other, List.mem_cons_of_mem _ hmem, hother⟩

theorem findStanza_none {py : PyTexts} {mac : List Char} {ethernets : Fields}
    (h : findStanza py mac ethernets = some none) {name : String} {stanza : Fields}
    (hmem : (name, .obj stanza) ∈ ethernets) : stanzaMac py stanza ≠ some mac := by
  induction ethernets with
  | nil => cases hmem
  | cons entry rest ih =>
    obtain ⟨first, value⟩ := entry
    rcases List.mem_cons.mp hmem with heq | hrest
    · cases heq
      intro hmac
      rw [findStanza, hmac] at h
      simp at h
    · cases value
      case obj fields =>
        rw [findStanza] at h
        cases hmac : stanzaMac py fields with
        | none =>
          rw [hmac] at h
          cases h
        | some found =>
          rw [hmac] at h
          by_cases heq : found = mac
          · simp [heq] at h
          · exact ih (by simpa [heq] using h) hrest
      all_goals exact ih h hrest

theorem findSource_some {py : PyTexts} {mac : List Char} {sources : List (Option Fields)}
    {stanza : Fields} (h : findSource py mac sources = some (some stanza)) :
    EthernetAt py sources mac stanza := by
  induction sources with
  | nil => cases h
  | cons first rest ih =>
    have hlater : EthernetAt py rest mac stanza → EthernetAt py (first :: rest) mac stanza := by
      rintro ⟨data, ethernets, name, hdata, hthere⟩
      exact ⟨data, ethernets, name, List.mem_cons_of_mem first hdata, hthere⟩
    cases first with
    | none => exact hlater (ih h)
    | some data =>
      rw [findSource] at h
      split at h
      next => exact hlater (ih h)
      next =>
        cases hethernets : sourceEthernets py data with
        | none =>
          rw [hethernets] at h
          cases h
        | some ethernets =>
          cases hfound : findStanza py mac ethernets with
          | none => simp [hethernets, hfound] at h
          | some found =>
            cases found with
            | none => exact hlater (ih (by simpa [hethernets, hfound] using h))
            | some other =>
              obtain rfl : other = stanza := by simpa [hethernets, hfound] using h
              obtain ⟨name, hmem, hmac⟩ := findStanza_some hfound
              exact ⟨data, ethernets, name, List.mem_cons_self, hethernets, hmem, hmac⟩

theorem findSource_none {py : PyTexts} {mac : List Char} {sources : List (Option Fields)}
    (h : findSource py mac sources = some none) (stanza : Fields) :
    ¬ EthernetAt py sources mac stanza := by
  rintro ⟨data, ethernets, name, hdata, hethernets, hmem, hmac⟩
  induction sources with
  | nil => cases hdata
  | cons first rest ih =>
    cases first with
    | none => exact ih h ((List.mem_cons.mp hdata).resolve_left (Option.some_ne_none data))
    | some held =>
      rw [findSource] at h
      rcases List.mem_cons.mp hdata with heq | hrest
      · cases heq
        split at h
        next hempty =>
          obtain rfl : data = [] := List.isEmpty_iff.mp hempty
          cases hethernets
          cases hmem
        next =>
          cases hfound : findStanza py mac ethernets with
          | none => simp [hethernets, hfound] at h
          | some found =>
            cases found with
            | none => exact findStanza_none hfound hmem hmac
            | some other => simp [hethernets, hfound] at h
      · split at h
        next => exact ih h hrest
        next =>
          cases hheld : sourceEthernets py held with
          | none => simp [hheld] at h
          | some others =>
            cases hfound : findStanza py mac others with
            | none => simp [hheld, hfound] at h
            | some found =>
              cases found with
              | none => exact ih (by simpa [hheld, hfound] using h) hrest
              | some other => simp [hheld, hfound] at h

/-- The stanza that an interface with this address has in the files, if there is one. -/
def SourceFor (py : PyTexts) (sources : List (Option Fields)) (mac : Option String) :
    Option Fields → Prop
  | some stanza => ∃ text, mac = some text ∧
      EthernetAt py sources (normaliseMac py (.str text)) stanza
  | none => ∀ text stanza, mac = some text → normaliseMac py (.str text) ≠ [] →
      ¬ EthernetAt py sources (normaliseMac py (.str text)) stanza

theorem sourceOf_sound {py : PyTexts} {sources : List (Option Fields)} {mac : Option String}
    {source : Option Fields} (h : sourceOf py sources mac = some source) :
    SourceFor py sources mac source := by
  unfold sourceOf at h
  cases mac with
  | none =>
    obtain rfl : none = source := Option.some.inj h
    exact fun text stanza heq => absurd heq.symm (Option.some_ne_none text)
  | some mac =>
    simp only at h
    split at h
    next hempty =>
      obtain rfl : none = source := Option.some.inj h
      rintro text stanza - - ⟨data, -, -, hdata, -⟩
      rw [List.isEmpty_iff.mp hempty] at hdata
      cases hdata
    next =>
      unfold findSourceEthernetByMac at h
      by_cases hmac : normaliseMac py (.str mac) = []
      · rw [if_pos hmac] at h
        obtain rfl : none = source := Option.some.inj h
        rintro text stanza heq hne
        cases heq
        exact absurd hmac hne
      · rw [if_neg hmac] at h
        cases hfound : findSource py (normaliseMac py (.str mac)) sources with
        | none => simp [hfound] at h
        | some found =>
          cases found with
          | none =>
            obtain rfl : none = source := by simpa [hfound] using h
            intro text stanza heq _
            cases heq
            exact findSource_none hfound stanza
          | some stanza =>
            have hthere := findSource_some hfound
            have hne : stanza ≠ [] := by
              rintro rfl
              obtain ⟨-, -, -, -, -, -, hempty⟩ := hthere
              exact hmac (Option.some.inj hempty).symm
            obtain rfl : some stanza = source := by simpa [hfound, Option.filter, hne] using h
            exact ⟨mac, rfl, hthere⟩

theorem bridgeName_injective : Function.Injective bridgeName := by
  intro iface other h
  have hlist : ("br-" ++ iface).toList = ("br-" ++ other).toList := congrArg String.toList h
  rw [String.toList_append, String.toList_append] at hlist
  exact String.toList_inj.mp (List.append_cancel_left hlist)

theorem unaddressed_get {ifaces : List String} {start : Fields} (name : String) :
    assocGet (ifaces.foldl (fun stanzas iface => assocSet stanzas iface unaddressed) start) name =
      if name ∈ ifaces then some unaddressed else assocGet start name := by
  induction ifaces generalizing start with
  | nil => rfl
  | cons first rest ih =>
    rw [List.foldl_cons, ih, assocGet_set]
    by_cases heq : first = name
    · simp [heq]
    · simp [heq, Ne.symm heq]

theorem bridgeBase_get (macMap : Dict String String) (iface : String) :
    assocGet (bridgeBase macMap iface) "interfaces" = some (.arr [.str iface]) ∧
      assocGet (bridgeBase macMap iface) "macaddress" = (macMap.get? iface).map .str := by
  unfold bridgeBase
  cases macMap.get? iface with
  | none => exact ⟨rfl, rfl⟩
  | some mac => exact ⟨rfl, rfl⟩

/-- Each interface is on a bridge of its own, without an address, and the bridge has the address of
the interface and what the files configure for that. -/
theorem netplan_law {py : PyTexts} {sources : List (Option Fields)} {macMap : Dict String String}
    {ifaces : List String} {config : JsonValue}
    (h : buildConfig py sources macMap ifaces = some config) :
    ∃ ethernets bridges,
      config = netplan [("ethernets", .obj ethernets), ("bridges", .obj bridges)] ∧
      (∀ name, assocGet ethernets name = if name ∈ ifaces then some unaddressed else none) ∧
      (∀ name, (assocGet bridges name).isSome ↔ ∃ iface ∈ ifaces, bridgeName iface = name) ∧
      ∀ iface ∈ ifaces, ∃ bridge source, assocGet bridges (bridgeName iface) = some (.obj bridge) ∧
        assocGet bridge "interfaces" = some (.arr [.str iface]) ∧
        assocGet bridge "macaddress" = (macMap.get? iface).map .str ∧
        SourceFor py sources (macMap.get? iface) source ∧
        (∀ field ∈ l3Fields, assocGet bridge field = l3Of py source field) ∧
        hasAddress py bridge = true := by
  unfold buildConfig at h
  obtain ⟨bridges, hfill, hconfig⟩ := Option.bind_eq_some_iff.mp h
  refine ⟨_, bridges, (Option.some.inj hconfig).symm, fun name => unaddressed_get name,
    fillStanzas_keys bridgeName_injective hfill, ?_⟩
  intro iface hmem
  obtain ⟨bridge, hbridge, hget⟩ := fillStanzas_get bridgeName_injective hfill hmem
  rw [bridgeStanza_eq] at hbridge
  obtain ⟨source, hsource, rfl⟩ := Option.map_eq_some_iff.mp hbridge
  have hbare := bridgeBase_bare macMap iface
  obtain ⟨hinterfaces, hmac⟩ := bridgeBase_get macMap iface
  exact ⟨_, source, hget, (addressed_other hbare (by decide)).trans hinterfaces,
    (addressed_other hbare (by decide)).trans hmac, sourceOf_sound hsource,
    fun field hfield => addressed_get hbare hfield, addressed_hasAddress hbare⟩

def plainTexts : PyTexts where
  truncate _ := .value 0
  floatTruth text := decide (text ≠ "0.0")
  floatEq _ _ := false
  repr _ := ""
  lower text := text.map Char.toLower
  lower_nil := rfl

/-- A host with one interface that had a fixed address under another name. -/
def oldNetplan : Fields :=
  [("network", .obj [("ethernets", .obj
    [("ens3", .obj [("match", .obj [("macaddress", .str "52:54:00:AA:00:01")]),
      ("addresses", .arr [.str "10.0.0.2/24"])])])])]

def oldMacs : Dict String String := Dict.empty.set "eth0" "52:54:00:aa:00:01"

theorem old_address_kept : ∃ config,
    buildConfig plainTexts [some oldNetplan] oldMacs ["eth0"] = some config ∧
    ∃ ethernets bridges,
      config = netplan [("ethernets", .obj ethernets), ("bridges", .obj bridges)] ∧
      ∃ bridge source, assocGet bridges (bridgeName "eth0") = some (.obj bridge) ∧
        SourceFor plainTexts [some oldNetplan] (oldMacs.get? "eth0") source ∧
        ∀ field ∈ l3Fields, assocGet bridge field = l3Of plainTexts source field := by
  obtain ⟨config, hconfig⟩ := Option.isSome_iff_exists.mp
    (show (buildConfig plainTexts [some oldNetplan] oldMacs ["eth0"]).isSome = true by rfl)
  obtain ⟨ethernets, bridges, heq, -, -, hall⟩ := netplan_law hconfig
  obtain ⟨bridge, source, hbridge, -, -, hsource, hfields, -⟩ := hall "eth0" List.mem_cons_self
  exact ⟨config, hconfig, ethernets, bridges, heq, bridge, source, hbridge, hsource, hfields⟩

/-- The two configurations fail together; where they do not, an interface has until the switch what
its bridge has after it. -/
theorem transitional_agrees (py : PyTexts) (sources : List (Option Fields))
    (macMap : Dict String String) (ifaces : List String) :
    (buildTransitionalConfig py sources macMap ifaces = none ∧
      buildConfig py sources macMap ifaces = none) ∨
    ∃ stanzas ethernets bridges,
      buildTransitionalConfig py sources macMap ifaces =
        some (netplan [("ethernets", .obj stanzas)]) ∧
      buildConfig py sources macMap ifaces =
        some (netplan [("ethernets", .obj ethernets), ("bridges", .obj bridges)]) ∧
      (∀ name, (assocGet stanzas name).isSome ↔ name ∈ ifaces) ∧
      ∀ iface ∈ ifaces, ∃ stanza bridge, assocGet stanzas iface = some (.obj stanza) ∧
        assocGet bridges (bridgeName iface) = some (.obj bridge) ∧
        (∀ field ∈ l3Fields, assocGet stanza field = assocGet bridge field) ∧
        ∀ mac, macMap.get? iface = some mac → mac ≠ "" →
          assocGet stanza "match" = some (.obj [("macaddress", .str mac)]) := by
  have hsome : (fillStanzas id (transitionalStanza py sources macMap) ifaces).isSome ↔
      (fillStanzas bridgeName (bridgeStanza py sources macMap) ifaces).isSome := by
    rw [fillStanzas_isSome, fillStanzas_isSome]
    refine forall₂_congr fun iface _ => ?_
    rw [transitionalStanza_eq, bridgeStanza_eq, Option.isSome_map, Option.isSome_map]
  unfold buildTransitionalConfig buildConfig
  cases hstanzas : fillStanzas id (transitionalStanza py sources macMap) ifaces with
  | none =>
    cases hbridges : fillStanzas bridgeName (bridgeStanza py sources macMap) ifaces with
    | none => exact Or.inl ⟨rfl, rfl⟩
    | some bridges => simp [hstanzas, hbridges] at hsome
  | some stanzas =>
    cases hbridges : fillStanzas bridgeName (bridgeStanza py sources macMap) ifaces with
    | none => simp [hstanzas, hbridges] at hsome
    | some bridges =>
      refine Or.inr ⟨stanzas, _, bridges, rfl, rfl, ?_, ?_⟩
      · intro name
        simpa using fillStanzas_keys Function.injective_id hstanzas name
      · intro iface hmem
        obtain ⟨stanza, hstanza, hget⟩ := fillStanzas_get Function.injective_id hstanzas hmem
        obtain ⟨bridge, hbridge, hgetBridge⟩ := fillStanzas_get bridgeName_injective hbridges hmem
        rw [transitionalStanza_eq] at hstanza
        obtain ⟨source, hsource, rfl⟩ := Option.map_eq_some_iff.mp hstanza
        rw [bridgeStanza_eq, hsource] at hbridge
        obtain rfl := Option.some.inj hbridge
        have hbare := transitionalBase_bare ((macMap.get? iface).getD "")
        refine ⟨_, _, hget, hgetBridge, ?_, ?_⟩
        · intro field hfield
          rw [addressed_get hbare hfield, addressed_get (bridgeBase_bare macMap iface) hfield]
        · intro mac hmac hne
          rw [addressed_other hbare (by decide), hmac]
          unfold transitionalBase
          rw [Option.getD_some, if_neg hne]
          rfl

end NovaVe
