import NovaVe.LabPaths
import NovaVe.WsChannel

namespace NovaVe

structure UserRead where
  username : String
  role : String
  folder : String
deriving DecidableEq, Repr

variable {user : UserRead} {text : String}

/-- `_user_root`. -/
def userRoot (user : UserRead) : String :=
  if user.role = "admin" then "" else String.ofList (trimmedPath user.folder)

/-- `_scoped_lab_path`. -/
def scopedLabPath (user : UserRead) (rawPath : String) (treatAsAbsolute : Bool) :
    Except String String :=
  let normalized := String.ofList (trimmedPath rawPath)
  let root := userRoot user
  if root = "" then .ok normalized
  else if normalized = "" then .ok root
  else if atOrBelow root normalized then .ok normalized
  else if treatAsAbsolute || ['/'].isPrefixOf (stripChars isPySpace rawPath.toList) then
    .error "Access denied."
  else .ok (root ++ "/" ++ normalized)

/-- `_safe_lab_filename`, over `str.isalnum`. -/
def safeLabFilename (isAlnum : Char → Bool) (name : String) : String :=
  let replaced := name.toList.map
    (fun c => if isAlnum c || c == '-' || c == '_' then c else '-')
  let safeName := stripChars (fun c => c == '-' || c == '_') replaced
  if safeName = [] then "lab" else String.ofList safeName

def endsWithJson (path : String) : Bool := ".json".toList.isSuffixOf path.toList

/-- `build_relative_lab_path`; `none` when a path is refused. -/
def buildRelativeLabPath (isAlnum : Char → Bool) (name path : String) (filename : Option String) :
    Option String :=
  let generatedName := safeLabFilename isAlnum name ++ ".json"
  match filename with
  | some (filename : String) =>
    if filename = "" then fromPath generatedName
    else (normalizeRelativeLabPath filename).map
      (fun relativePath => if endsWithJson relativePath then relativePath else relativePath ++ ".json")
  | none => fromPath generatedName
where
  fromPath (generatedName : String) : Option String :=
    if path = "" then some generatedName
    else (normalizeRelativeLabPath path).map
      (fun normalizedPath =>
        if endsWithJson normalizedPath then normalizedPath
        else normalizedPath ++ "/" ++ generatedName)

/-- The handlers a request can reach: of the network handlers of `labs.py` only the update is not
shadowed by the networks router. -/
inductive Handler
  | createLab | updateLab | getLab | deleteLab
  | getTopology | updateTopology
  | listNodes | nodeCatalog | createNode | createNodeFromTemplate
  | createNodesFromPairedTemplate | createNodesBatch | listInterfaces | getNode | updateNode
  | deleteNode | startNode | stopNode | wipeNode | nodeLogs | nodeConsole | nodeQemuPreview
  | nodeTelnet | nodeRdp | nodeHtml5 | updateNetwork | patchNodeInterface
  | listNodeInterfacesV2 | getInterfaceLiveMac | putLayout
  | listLinks | createLink | deleteLink | patchLink
  | listNetworks | createNetwork | deleteNetwork | patchNetwork | reconcileRuntime
  | labWs
deriving DecidableEq, Repr

/-- Whether a handler scopes its path, and with which `treat_as_absolute`. -/
def Handler.scoping : Handler → Option Bool
  | .listLinks | .createLink | .deleteLink | .patchLink
  | .listNetworks | .createNetwork | .deleteNetwork | .patchNetwork | .reconcileRuntime
  | .labWs => none
  | .createLab => some false
  | _ => some true

/-- What a request carries. `filename` belongs to the creation of a lab, `name` to that of a lab or
a network; `natCloud` is the type of a network to create, `networkId` the network to delete, `linkId`
the link to delete, and `links` says that a paired template comes to its links. -/
structure LabRequest where
  handler : Handler
  path : String
  name : String := ""
  filename : Option String := none
  natCloud : Bool := false
  networkId : Int := 0
  linkId : String := ""
  links : Bool := false
deriving DecidableEq, Repr

/-- A network of a lab: whether it is a NAT cloud, and one of another owner. -/
structure NetworkFacts where
  id : Int
  natCloud : Bool
  shared : Bool
  implicit : Bool
  attachments : Nat
deriving DecidableEq, Repr

/-- What a lab file holds that decides the walks: its networks, the names that are taken, and the
networks whose addresses its links give back. -/
structure LabFacts where
  networks : List NetworkFacts := []
  nameInUse : String → Bool := fun _ => false
  leases : List (String × Int) := []

def LabFacts.network? (facts : LabFacts) (networkId : Int) : Option NetworkFacts :=
  facts.networks.find? (fun network => decide (network.id = networkId))

/-- A piece of a request's work on a running node that comes to its look-ups: a Docker or a QEMU
interface is attached, the latter with a MAC that is then stored or not, or a wired boot interface
is set right. -/
inductive RuntimeWork
  | attachDocker
  | attachQemu (stores : Bool)
  | refresh
deriving DecidableEq, Repr

/-- A walk of the labs directory: the whole inventory, or the search for the lab of an id, over all
folders or over the top one only. -/
inductive Scan
  | inventory
  | labOf (labId : String)
  | topLabOf (labId : String)
deriving DecidableEq, Repr

/-- `_resolve_runtime_driver` looks in all folders, `_resolve_qemu_nic_model`,
`_resolve_qemu_planned_mac` and `_persist_planned_mac_to_lab_json` in the top one. -/
def RuntimeWork.searches (labId : String) : RuntimeWork → List Scan
  | .attachDocker => [.labOf labId]
  | .attachQemu stores => [.labOf labId, .topLabOf labId, .topLabOf labId] ++
      if stores then [.topLabOf labId] else []
  | .refresh => [.topLabOf labId, .topLabOf labId]

/-- The work that a handler does on running nodes. -/
def Handler.works : Handler → RuntimeWork → Bool
  | .createLink, _ | .createNodesFromPairedTemplate, _ => true
  | .updateTopology, .refresh | .deleteLink, .refresh | .reconcileRuntime, .refresh => true
  | _, _ => false

/-- The labs directory in its listing order with what the lab files hold, the lab rows, and how the
running nodes take part in a request. -/
structure LabsSite where
  labs : List StoredLab
  facts : String → LabFacts := fun _ => {}
  rowOwner : String → Option String := fun _ => none
  needsResnapshot : Bool := false
  detached : LabRequest → Bool := fun _ => true
  work : LabRequest → List RuntimeWork := fun _ => []

def LabsSite.stored (site : LabsSite) (path : String) : Bool :=
  site.labs.any (fun lab => lab.path == path)

/-- The labs up to the one with the id, that one included. -/
def searched (labId : String) : List StoredLab → List String
  | [] => []
  | lab :: rest => if lab.jsonId = labId then [lab.path] else lab.path :: searched labId rest

/-- The labs a walk reads. -/
def Scan.reads (labs : List StoredLab) : Scan → List String
  | .inventory => labs.map (fun lab => lab.path)
  | .labOf labId => searched labId labs
  | .topLabOf labId =>
    searched labId (labs.filter (fun lab => !(lab.path.toList.contains '/')))

/-- The texts under the root of the user that a handler passes on as lab paths; none when it refuses
the request. -/
def LabRequest.scopedTexts (isAlnum : Char → Bool) (user : UserRead) (request : LabRequest) :
    Option (List String) :=
  match request.handler.scoping with
  | none => some []
  | some treatAsAbsolute =>
    match scopedLabPath user request.path treatAsAbsolute with
    | .error _ => none
    | .ok scopedPath =>
      match request.handler with
      | .createLab =>
        if request.filename.getD "" = "" then
          some (buildRelativeLabPath isAlnum request.name scopedPath request.filename).toList
        else some []
      | .patchNodeInterface | .putLayout | .updateLab | .deleteLab =>
        some (normalizeRelativeLabPath scopedPath).toList
      | _ => some [scopedPath]

/-- The texts of a request that its handler passes on as they are, in order. -/
def LabRequest.ownTexts (isAlnum : Char → Bool) (request : LabRequest) : List String :=
  let normalized := (normalizeRelativeLabPath request.path).toList
  match request.handler with
  | .createLab =>
    -- beside a filename neither the name nor the path counts
    if request.filename.getD "" = "" then []
    else (buildRelativeLabPath isAlnum request.name request.path request.filename).toList
  | .createNodesFromPairedTemplate =>
    -- the links are created under the raw path
    if request.links then normalized else []
  | .labWs =>
    -- the route `/ws/labs/{lab}` takes one path segment
    if request.path.toList.contains '/' then [] else [request.path]
  | handler =>
    -- the router reads under the raw path, the service under its normalized form
    if handler.scoping = none then request.path :: normalized else []

/-- The lab row under a path lets the user change the lab; a lab file without a row is the admin's. -/
def LabsSite.rowAllows (site : LabsSite) (user : UserRead) (request : LabRequest)
    (path : String) : Bool :=
  match site.rowOwner path with
  | some owner => owner == user.username || user.role == "admin"
  | none => request.handler == .deleteLab && user.role == "admin" && site.stored path

/-- Whether the handler opens the `lab.json` at the normalized path of a text. -/
def LabsSite.opens (site : LabsSite) (user : UserRead) (request : LabRequest) (text : String) :
    Bool :=
  match normalizeRelativeLabPath text with
  | none => false
  | some path =>
    match request.handler with
    | .createLab => !site.stored path
    | .getLab => site.stored path && (site.rowOwner path).isNone
    | .updateLab | .deleteLab => site.stored path && site.rowAllows user request text
    | .labWs => site.stored path && site.needsResnapshot
    | _ => site.stored path

/-- The scoped texts whose labs are opened. -/
def LabsSite.openedScoped (site : LabsSite) (isAlnum : Char → Bool) (user : UserRead)
    (request : LabRequest) : List String :=
  ((request.scopedTexts isAlnum user).getD []).filter (site.opens user request)

/-- Whether a handler comes to the request's own texts: its scoped lab is there. -/
def LabsSite.passes (site : LabsSite) (isAlnum : Char → Bool) (user : UserRead)
    (request : LabRequest) : Bool :=
  (request.scopedTexts isAlnum user).any (fun texts => texts.all (site.opens user request))

/-- The own texts whose labs are opened: a handler ends at the first that is missing. -/
def LabsSite.openedOwn (site : LabsSite) (isAlnum : Char → Bool) (user : UserRead)
    (request : LabRequest) : List String :=
  if site.passes isAlnum user request then
    (request.ownTexts isAlnum).takeWhile (site.opens user request)
  else []

/-- The path of the lab that the services work on: that of the last text, if all are opened. -/
def LabsSite.workedOn (site : LabsSite) (isAlnum : Char → Bool) (user : UserRead)
    (request : LabRequest) : Option String :=
  if site.passes isAlnum user request &&
      (request.ownTexts isAlnum).all (site.opens user request) then
    ((site.openedScoped isAlnum user request ++ request.ownTexts isAlnum).getLast?).bind
      normalizeRelativeLabPath
  else none

/-- The requests on a lab that ask the NAT-cloud inventory: a NAT cloud is created under a free name,
an owner without attachments is deleted, a lab with a cloud of another owner is reconciled, or a
link gives back an address of such a cloud. -/
def LabRequest.asksInventory (request : LabRequest) (facts : LabFacts) (detached : Bool) : Bool :=
  match request.handler with
  | .createNetwork =>
    request.natCloud && pyStrip request.name != "" && !facts.nameInUse (pyStrip request.name)
  | .deleteNetwork => (facts.network? request.networkId).any (fun network =>
      network.natCloud && !network.shared && !network.implicit && network.attachments == 0)
  | .reconcileRuntime => facts.networks.any (fun network => network.natCloud && network.shared)
  | .deleteLink => detached &&
      ((assocGet facts.leases request.linkId).bind facts.network?).any NetworkFacts.shared
  | _ => false

/-- Whether a request walks the NAT-cloud inventory. A deletion of a lab does so when the row lets
it, whether or not the file is there. -/
def LabsSite.asksInventory (site : LabsSite) (isAlnum : Char → Bool) (user : UserRead)
    (request : LabRequest) : Bool :=
  if request.handler = .deleteLab then
    ((request.scopedTexts isAlnum user).getD []).any (site.rowAllows user request)
  else (site.workedOn isAlnum user request).any
    (fun path => request.asksInventory (site.facts path) (site.detached request))

/-- The id under which the runtime service knows the lab at a path. -/
def LabsSite.labIdAt (site : LabsSite) (path : String) : String :=
  ((site.labs.find? (fun lab => lab.path == path)).map runtimeMutexLabId).getD path

/-- The searches for its own lab that a request makes while it works on running nodes. -/
def LabsSite.searches (site : LabsSite) (isAlnum : Char → Bool) (user : UserRead)
    (request : LabRequest) : List Scan :=
  match site.workedOn isAlnum user request with
  | none => []
  | some path => ((site.work request).filter request.handler.works).flatMap
      (RuntimeWork.searches (site.labIdAt path))

/-- The normalized paths of all labs a request reads or writes. -/
def LabsSite.accessed (site : LabsSite) (isAlnum : Char → Bool) (user : UserRead)
    (request : LabRequest) : List String :=
  (site.openedScoped isAlnum user request ++ site.openedOwn isAlnum user request).filterMap
      normalizeRelativeLabPath ++
    ((if site.asksInventory isAlnum user request then Scan.inventory.reads site.labs else []) ++
      (site.searches isAlnum user request).flatMap (Scan.reads site.labs))

/-- The segments of a root stand in front when a text is normalized. -/
def InFront (root text : String) : Prop := root.toList.splitOn '/' <+: labPathParts text

/-- What keeps a request inside the root of its user: a lab is opened under a scoped text only if
the root is a lab path as it stands, or the text keeps its segments; the request's own path or
filename begins with the segments of the root, where a lab is opened under it; the inventory is
asked only when all labs are inside, and a node is worked on only when the labs listed up to its own
are. -/
structure KeepsToRoot (site : LabsSite) (isAlnum : Char → Bool) (user : UserRead)
    (request : LabRequest) : Prop where
  underRoot : PlainRoot (userRoot user) ∨
    ∀ text ∈ site.openedScoped isAlnum user request, InFront (userRoot user) text
  ownText : ∀ text ∈ request.ownTexts isAlnum, text ∈ site.openedOwn isAlnum user request →
    InFront (userRoot user) text
  inventory : site.asksInventory isAlnum user request = true →
    ∀ lab ∈ site.labs, atOrBelow (userRoot user) lab.path = true
  searches : ∀ scan ∈ site.searches isAlnum user request, ∀ path ∈ scan.reads site.labs,
    atOrBelow (userRoot user) path = true

theorem backslash_not_mem_trimmedPath (rawPath : String) : '\\' ∉ trimmedPath rawPath := by
  intro hm
  have hmap := (stripChars_sublist _ _).subset hm
  obtain ⟨c, _, hc⟩ := List.mem_map.mp hmap
  by_cases hb : (c == '\\') = true
  · rw [if_pos hb] at hc
    exact absurd hc (by decide)
  · rw [if_neg hb] at hc
    rw [hc] at hb
    exact hb (beq_self_eq_true _)

theorem userRoot_toList (h : PlainRoot (userRoot user)) :
    (userRoot user).toList = trimmedPath user.folder := by
  by_cases hr : user.role = "admin"
  · have hroot : userRoot user = "" := if_pos hr
    rw [hroot] at h
    exact absurd h (by decide)
  · have hroot : userRoot user = String.ofList (trimmedPath user.folder) := if_neg hr
    rw [hroot, String.toList_ofList]

/-- A text at or below the root text of a user. -/
def BelowRoot (user : UserRead) (text : String) : Prop :=
  text = userRoot user ∨ ((userRoot user).toList ++ ['/']) <+: text.toList

theorem BelowRoot.segments_below (h : PlainRoot (userRoot user)) (hbelow : BelowRoot user text) :
    (userRoot user).toList.splitOn '/' <+: labPathParts text := by
  have hroot := userRoot_toList h
  refine h.segments_below ?_ ?_ hbelow
  · rw [hroot]
    exact stripChars_idem _ _
  · rw [hroot]
    exact backslash_not_mem_trimmedPath _

theorem belowRoot_of_atOrBelow (h : atOrBelow (userRoot user) text = true) :
    BelowRoot user text := by
  unfold atOrBelow at h
  rw [Bool.or_eq_true, decide_eq_true_eq, List.isPrefixOf_iff_prefix] at h
  exact h

theorem BelowRoot.normalized {text path : String} (h : PlainRoot (userRoot user))
    (hbelow : BelowRoot user text) (hpath : normalizeRelativeLabPath text = some path) :
    BelowRoot user path := by
  have hstart := hbelow.segments_below h
  rw [← normalizeRelativeLabPath_splitOn hpath] at hstart
  exact belowRoot_of_atOrBelow ((atOrBelow_iff_segments _ _).mpr hstart)

theorem BelowRoot.append (hbelow : BelowRoot user text) (name : String) :
    BelowRoot user (text ++ "/" ++ name) := by
  right
  rcases hbelow with rfl | ⟨rest, hrest⟩
  · exact ⟨name.toList, by simp⟩
  · refine ⟨rest ++ '/' :: name.toList, ?_⟩
    rw [String.toList_append, String.toList_append, ← hrest]
    simp

theorem PlainRoot.ne_empty {root : String} (h : PlainRoot root) : root ≠ "" := by
  rintro rfl
  exact absurd h (by decide)

/-- What is scoped with a root is at or below it. -/
theorem scopedLabPath_below {rawPath scopedPath : String} {absolute : Bool}
    (hroot : userRoot user ≠ "") (h : scopedLabPath user rawPath absolute = .ok scopedPath) :
    BelowRoot user scopedPath := by
  unfold scopedLabPath at h
  simp only [if_neg hroot] at h
  split at h
  next =>
    cases h
    exact Or.inl rfl
  next =>
    split at h
    next hat =>
      rw [← Except.ok.inj h]
      exact belowRoot_of_atOrBelow hat
    next =>
      split at h
      next => cases h
      next =>
        rw [← Except.ok.inj h]
        have hbase : BelowRoot user (userRoot user) := Or.inl rfl
        exact hbase.append _

theorem BelowRoot.built {isAlnum : Char → Bool} {name path relativePath : String}
    {filename : Option String} (h : PlainRoot (userRoot user)) (hbelow : BelowRoot user path)
    (hname : filename.getD "" = "")
    (hbuilt : buildRelativeLabPath isAlnum name path filename = some relativePath) :
    BelowRoot user relativePath := by
  have hpath : path ≠ "" := by
    rintro rfl
    rcases hbelow with he | ⟨rest, hrest⟩
    · exact h.ne_empty he.symm
    · simp at hrest
  have hfrom : buildRelativeLabPath.fromPath path (safeLabFilename isAlnum name ++ ".json") =
      some relativePath := by
    unfold buildRelativeLabPath at hbuilt
    cases filename with
    | none => exact hbuilt
    | some filename =>
      simp only [Option.getD_some] at hname
      simpa only [if_pos hname] using hbuilt
  unfold buildRelativeLabPath.fromPath at hfrom
  rw [if_neg hpath] at hfrom
  obtain ⟨normalizedPath, hnormalized, hrel⟩ := Option.map_eq_some_iff.mp hfrom
  have hn := hbelow.normalized h hnormalized
  split at hrel
  next => exact hrel ▸ hn
  next => exact hrel ▸ hn.append _

theorem scopedTexts_below {isAlnum : Char → Bool} {request : LabRequest} {texts : List String}
    (h : PlainRoot (userRoot user)) (htexts : request.scopedTexts isAlnum user = some texts)
    (hm : text ∈ texts) :
    BelowRoot user text := by
  unfold LabRequest.scopedTexts at htexts
  split at htexts
  next =>
    cases htexts
    cases hm
  next absolute hscoping =>
    cases hs : scopedLabPath user request.path absolute with
    | error message =>
      rw [hs] at htexts
      cases htexts
    | ok scopedPath =>
      rw [hs] at htexts
      have hbelow := scopedLabPath_below h.ne_empty hs
      dsimp only at htexts
      split at htexts
      next =>
        split at htexts
        next hname =>
          cases htexts
          have hbuilt := Option.mem_toList.mp hm
          exact hbelow.built h hname hbuilt
        next =>
          cases htexts
          cases hm
      iterate 4
        next =>
          cases htexts
          exact hbelow.normalized h (Option.mem_toList.mp hm)
      next =>
        cases htexts
        cases List.mem_singleton.mp hm
        exact hbelow

/-- What is opened under a scoped text is inside a root that is a lab path as it stands. -/
theorem openedScoped_inFront {site : LabsSite} {isAlnum : Char → Bool} {request : LabRequest}
    (h : PlainRoot (userRoot user)) (hm : text ∈ site.openedScoped isAlnum user request) :
    InFront (userRoot user) text := by
  have hmem := (List.mem_filter.mp hm).1
  cases htexts : request.scopedTexts isAlnum user with
  | none =>
    rw [htexts] at hmem
    cases hmem
  | some texts =>
    rw [htexts] at hmem
    exact (scopedTexts_below h htexts hmem).segments_below h

theorem exists_path_of_opens {site : LabsSite} {request : LabRequest}
    (h : site.opens user request text = true) :
    ∃ path, normalizeRelativeLabPath text = some path := by
  unfold LabsSite.opens at h
  split at h
  next => cases h
  next path hpath => exact ⟨path, hpath⟩

theorem opens_of_mem_openedOwn {site : LabsSite} {isAlnum : Char → Bool} {request : LabRequest}
    (h : text ∈ site.openedOwn isAlnum user request) :
    text ∈ request.ownTexts isAlnum ∧ site.opens user request text = true := by
  unfold LabsSite.openedOwn at h
  split at h
  next =>
    exact ⟨(List.takeWhile_prefix _).subset h, List.mem_takeWhile_imp h⟩
  next => cases h

/-- The lab under a text is inside the root exactly when the segments of the root stand in front. -/
theorem atOrBelow_normalized {root text path : String}
    (hpath : normalizeRelativeLabPath text = some path) :
    atOrBelow root path = true ↔ InFront root text := by
  rw [atOrBelow_iff_segments, normalizeRelativeLabPath_splitOn hpath]
  rfl

/-- A request stays inside the root of its user exactly when it keeps to the root. -/
theorem accessed_in_root_iff (site : LabsSite) (isAlnum : Char → Bool) (user : UserRead)
    (request : LabRequest) :
    (∀ path ∈ site.accessed isAlnum user request, atOrBelow (userRoot user) path = true) ↔
      KeepsToRoot site isAlnum user request := by
  constructor
  · intro h
    have hopened : ∀ text ∈ site.openedScoped isAlnum user request ++
        site.openedOwn isAlnum user request,
        site.opens user request text = true → InFront (userRoot user) text := by
      intro text hm hopens
      obtain ⟨path, hpath⟩ := exists_path_of_opens hopens
      have hin : path ∈ site.accessed isAlnum user request :=
        List.mem_append_left _ (List.mem_filterMap.mpr ⟨text, hm, hpath⟩)
      exact (atOrBelow_normalized hpath).mp (h path hin)
    have hwalked : ∀ path ∈
        (if site.asksInventory isAlnum user request then Scan.inventory.reads site.labs else []) ++
          (site.searches isAlnum user request).flatMap (Scan.reads site.labs),
        atOrBelow (userRoot user) path = true :=
      fun path hm => h path (List.mem_append_right _ hm)
    refine ⟨Or.inr ?_, ?_, ?_, ?_⟩
    · intro text hm
      exact hopened text (List.mem_append_left _ hm) (List.mem_filter.mp hm).2
    · intro text _ hm
      exact hopened text (List.mem_append_right _ hm) (opens_of_mem_openedOwn hm).2
    · intro hasks lab hlab
      refine hwalked lab.path (List.mem_append_left _ ?_)
      rw [if_pos hasks]
      exact List.mem_map_of_mem hlab
    · intro scan hscan path hpath
      exact hwalked path (List.mem_append_right _ (List.mem_flatMap.mpr ⟨scan, hscan, hpath⟩))
  · intro hkeeps path hm
    rcases List.mem_append.mp hm with hopened | hwalked
    · obtain ⟨text, htext, hpath⟩ := List.mem_filterMap.mp hopened
      refine (atOrBelow_normalized hpath).mpr ?_
      rcases List.mem_append.mp htext with hscoped | hown
      · rcases hkeeps.underRoot with hplain | hfront
        · exact openedScoped_inFront hplain hscoped
        · exact hfront text hscoped
      · exact hkeeps.ownText text (opens_of_mem_openedOwn hown).1 hown
    · rcases List.mem_append.mp hwalked with hinventory | hsearch
      · split at hinventory
        next hasks =>
          obtain ⟨lab, hlab, rfl⟩ := List.mem_map.mp hinventory
          exact hkeeps.inventory hasks lab hlab
        next => cases hinventory
      · obtain ⟨scan, hscan, hread⟩ := List.mem_flatMap.mp hsearch
        exact hkeeps.searches scan hscan path hread

def alice : UserRead := ⟨"alice", "user", "/alice"⟩

def bobsLabs : LabsSite := { labs := [⟨"bob/x.json", "b1"⟩] }

def listBobsLinks : LabRequest := { handler := .listLinks, path := "bob/x.json" }

theorem links_of_another_folder_are_read :
    ¬ ∀ (site : LabsSite) (isAlnum : Char → Bool) (user : UserRead) (request : LabRequest),
      user.role ≠ "admin" → userRoot user ≠ "" →
        ∀ path ∈ site.accessed isAlnum user request, atOrBelow (userRoot user) path = true := by
  intro h
  have hrole : alice.role ≠ "admin" := by decide
  have hroot : userRoot alice ≠ "" := by decide +kernel
  have hread : "bob/x.json" ∈ bobsLabs.accessed Char.isAlphanum alice listBobsLinks := by
    decide +kernel
  exact absurd (h bobsLabs Char.isAlphanum alice listBobsLinks hrole hroot _ hread)
    (by decide +kernel)

end NovaVe
