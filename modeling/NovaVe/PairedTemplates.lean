import NovaVe.Nodes
import NovaVe.Texts
import Mathlib.Data.List.Infix

namespace NovaVe

/-- A field of a template block that is cast on its way: missing, a value, or refused by the cast. -/
inductive CastField (α : Type)
  | absent
  | value (a : α)
  | refused
deriving DecidableEq, Repr

def CastField.get {α : Type} (default : α) : CastField α → Option α
  | .absent => some default
  | .value a => some a
  | .refused => none

/-- An entry of a `format` list: whether it is a string, and its `str`. -/
structure FormatEntry where
  isText : Bool
  shown : String
deriving DecidableEq, Repr

/-- `interface_naming.format`; `shown` is its `str`. -/
inductive PairedFormat
  | text (s : String)
  | list (entries : List FormatEntry) (shown : String)
  | other (shown : String)
deriving DecidableEq, Repr

def PairedFormat.shown : PairedFormat → String
  | .text s => s
  | .list _ shown | .other shown => shown

/-- `interface_naming.explicit`; an entry that is no string is none. -/
inductive ExplicitNames
  | names (items : List (Option String))
  | other
deriving DecidableEq, Repr

structure NamingBlock where
  format : Option PairedFormat := none
  explicit : Option ExplicitNames := none
deriving DecidableEq, Repr

/-- What stands under `interface_naming`. -/
inductive NamingField
  | absent
  | block (naming : NamingBlock)
  | other
deriving DecidableEq, Repr

def NamingField.block? : NamingField → Option NamingBlock
  | .block naming => some naming
  | .absent | .other => none

def NamingBlock.names (naming : NamingBlock) : List (Option String) :=
  match naming.explicit with
  | some (.names items) => items
  | _ => []

/-- A `capabilities` block; the inner none is a value of another type. -/
structure CapabilityBlock where
  hotplug : Option (Option Bool) := none
  maxNics : Option (Option Int) := none
  machine : Option (Option String) := none
deriving DecidableEq, Repr

inductive CapabilityField
  | absent
  | block (capabilities : CapabilityBlock)
  | other
deriving DecidableEq, Repr

/-- A child block of a paired template; texts are empty when they are missing. -/
structure PairedChild where
  id : String := ""
  name : String := ""
  kind : String := ""
  ethernet : CastField Int := .absent
  cpu : CastField Int := .absent
  ram : CastField Int := .absent
  cpulimit : CastField Int := .absent
  image : String := ""
  console : String := ""
  iconType : String := ""
  extras : CastField (Dict String String) := .absent
  interfaceNaming : NamingField := .absent
  capabilities : CapabilityField := .absent
deriving DecidableEq

structure PairedLink where
  fromNode : String
  fromIface : String
  toNode : String
  toIface : String
deriving DecidableEq, Repr

/-- A template of kind `paired`; none is an entry that is no mapping. -/
structure PairedTemplate where
  nodes : List (Option PairedChild)
  links : List (Option PairedLink)
deriving DecidableEq

/-- `normalize_paired_child_kind`; `lower` is `str.lower`. -/
def normalizePairedChildKind (lower : String → String) (raw : String) : NodeType :=
  let kind := lower (pyStrip raw)
  if kind = "docker" then .docker
  else if kind = "iol" then .iol
  else if kind = "dynamips" then .dynamips
  else .qemu

/-- `_icon_filename_for`. -/
def iconFilenameFor (lower : String → String) (iconType : String) : String :=
  let icon := lower (pyStrip iconType)
  if icon = "server" ∨ icon = "host" then "Server.png"
  else if icon = "switch" then "Switch.png"
  else if icon = "firewall" then "Firewall.png"
  else "Router.png"

/-- The `format` the interface predictor goes by: a list is joined, anything else is dropped. -/
def PairedFormat.predicted : PairedFormat → Option String
  | .text s => if pyStrip s = "" then none else some s
  | .list entries _ =>
    let kept := (entries.map (fun entry => pyStrip entry.shown)).filter (fun item => decide (item ≠ ""))
    if kept = [] then none else some (",".intercalate kept)
  | .other _ => none

/-- The names of the template are laid over the front of the base list. -/
def overlayNames (explicit : List (Option String)) (base : List String) : List String :=
  base.mapIdx (fun index name => ((explicit[index]?).getD none).getD name)

/-- `child.get("ethernet", 1)` of a child whose field is no bad one. -/
def PairedChild.ethernetCount (child : PairedChild) : Int := (child.ethernet.get 1).getD 1

def PairedChild.explicitNames (child : PairedChild) : List (Option String) :=
  ((child.interfaceNaming.block?).map NamingBlock.names).getD []

/-- The `format` that the predictor applies. -/
def PairedChild.predictedFormat (child : PairedChild) : Option String :=
  child.interfaceNaming.block?.bind (fun naming => naming.format.bind PairedFormat.predicted)

/-- The `format` that a creation applies: the `str` of what stands there, whatever it is. -/
def PairedChild.builtFormat (child : PairedChild) : Option String :=
  child.interfaceNaming.block?.bind (fun naming => naming.format.map PairedFormat.shown)

/-- `_paired_child_iface_names`. -/
def pairedChildIfaceNames (lower : String → String) (child : PairedChild) : List String :=
  overlayNames child.explicitNames ((List.range child.ethernetCount.toNat).map
    (interfaceName (normalizePairedChildKind lower child.kind) none child.predictedFormat))

/-- The placeholders of an interface naming format. -/
def namingPlaceholders : List String := ["\x7bn\x7d", "\x7bslot\x7d", "\x7bport\x7d"]

def hasPlaceholder (text : String) : Bool :=
  namingPlaceholders.any (fun token => decide (token.toList <:+: text.toList))

/-- The raises of `_validate_interface_naming`. -/
inductive NamingProblem
  | notAnObject
  | formatAndExplicit
  | neither
  | emptyList
  | blankEntry
  | earlyPlaceholder (entry : Nat)
  | noLastPlaceholder
  | blankFormat
  | noPlaceholder
  | explicitNoList
  | blankExplicit
deriving DecidableEq, Repr

/-- The entries of a `format` list, from an index on. -/
def formatEntryProblem : Nat → List FormatEntry → Option NamingProblem
  | _, [] => none
  | i, entry :: rest =>
    if !entry.isText || decide (pyStrip entry.shown = "") then some .blankEntry
    else if rest ≠ [] ∧ hasPlaceholder entry.shown then some (.earlyPlaceholder i)
    else formatEntryProblem (i + 1) rest

def formatProblem : PairedFormat → Option NamingProblem
  | .list entries _ =>
    match entries.getLast? with
    | none => some .emptyList
    | some last =>
      match formatEntryProblem 0 entries with
      | some problem => some problem
      | none => if hasPlaceholder last.shown then none else some .noLastPlaceholder
  | .text s =>
    if pyStrip s = "" then some .blankFormat
    else if hasPlaceholder s then none else some .noPlaceholder
  | .other _ => some .blankFormat

def explicitProblem : ExplicitNames → Option NamingProblem
  | .other => some .explicitNoList
  | .names items =>
    if items = [] then some .explicitNoList
    else if items.all (fun item => item.any (fun name => decide (pyStrip name ≠ ""))) then none
    else some .blankExplicit

/-- `_validate_interface_naming`, which a block that is missing is spared. -/
def validateInterfaceNaming : NamingField → Option NamingProblem
  | .absent => none
  | .other => some .notAnObject
  | .block naming =>
    match naming.format, naming.explicit with
    | some _, some _ => some .formatAndExplicit
    | none, none => some .neither
    | some format, none => formatProblem format
    | none, some explicit => explicitProblem explicit

/-- The raises of `_validate_capabilities`. -/
inductive CapabilityProblem
  | notAnObject
  | hotplug
  | maxNicsType
  | maxNicsCap
  | maxNicsLow
  | machineKind
  | machineOption
  | hotplugOnPc
deriving DecidableEq, Repr

def hotplugProblem (capabilities : CapabilityBlock) : Option CapabilityProblem :=
  if capabilities.hotplug = some none then some .hotplug else none

def maxNicsProblem (kind : NodeType) (capabilities : CapabilityBlock) : Option CapabilityProblem :=
  match capabilities.maxNics with
  | none => none
  | some none => some .maxNicsType
  | some (some n) =>
    if kind ≠ .docker ∧ 25 < n then some .maxNicsCap
    else if n < 1 then some .maxNicsLow else none

def machineProblem (kind : NodeType) (capabilities : CapabilityBlock) : Option CapabilityProblem :=
  match capabilities.machine with
  | none => none
  | some machine =>
    if kind ≠ .qemu then some .machineKind
    else if machine = some "q35" ∨ machine = some "pc" then none else some .machineOption

/-- A qemu child has hot-plug and machine `q35` unless its block says otherwise. -/
def pcProblem (kind : NodeType) (capabilities : CapabilityBlock) : Option CapabilityProblem :=
  if kind = .qemu ∧ capabilities.hotplug ≠ some (some false) ∧
      capabilities.machine = some (some "pc") then some .hotplugOnPc
  else none

/-- `_validate_capabilities`. -/
def validateCapabilities (kind : NodeType) : CapabilityField → Option CapabilityProblem
  | .absent => none
  | .other => some .notAnObject
  | .block capabilities =>
    (((hotplugProblem capabilities).or (maxNicsProblem kind capabilities)).or
      (machineProblem kind capabilities)).or (pcProblem kind capabilities)

inductive PairedProblem
  | scalar (childId field : String)
  | naming (childId : String) (problem : NamingProblem)
  | capabilities (childId : String) (problem : CapabilityProblem)
  | unknownChild (childId : String)
  | unknownIface (childId ifaceName : String)
deriving DecidableEq, Repr

/-- `_paired_child_scalar_problem`: the first field that is no integer. -/
def pairedChildScalarProblem (child : PairedChild) : Option String :=
  [("cpu", child.cpu), ("ram", child.ram), ("ethernet", child.ethernet),
    ("cpulimit", child.cpulimit)].findSome?
    (fun field => if field.2 = .refused then some field.1 else none)

def childProblem (lower : String → String) (child : PairedChild) : Option PairedProblem :=
  match pairedChildScalarProblem child with
  | some field => some (.scalar child.id field)
  | none =>
    match validateInterfaceNaming child.interfaceNaming with
    | some problem => some (.naming child.id problem)
    | none => (validateCapabilities (normalizePairedChildKind lower child.kind)
        child.capabilities).map (.capabilities child.id)

def pairedEndpointProblem (lower : String → String) (children : Dict String PairedChild)
    (childId ifaceName : String) : Option PairedProblem :=
  match children.get? childId with
  | none => some (.unknownChild childId)
  | some child =>
    if ifaceName ∈ pairedChildIfaceNames lower child then none
    else some (.unknownIface childId ifaceName)

def pairedLinkProblem (lower : String → String) (children : Dict String PairedChild)
    (link : PairedLink) : Option PairedProblem :=
  (pairedEndpointProblem lower children link.fromNode link.fromIface).or
    (pairedEndpointProblem lower children link.toNode link.toIface)

/-- Of children with one id the last stays. -/
def PairedTemplate.childrenById (template : PairedTemplate) : Dict String PairedChild :=
  template.nodes.reduceOption.foldl (fun children child => children.set child.id child) Dict.empty

/-- `validate_paired_template`. -/
def validatePairedTemplate (lower : String → String) (template : PairedTemplate) :
    Option PairedProblem :=
  ((template.childrenById.entries.map Prod.snd).findSome? (childProblem lower)).or
    (template.links.reduceOption.findSome? (pairedLinkProblem lower template.childrenById))

end NovaVe
