import NovaVe.Lab
import NovaVe.Texts

namespace NovaVe

inductive RouteError
  | response (code : Nat) (message : String)
  | raised
deriving DecidableEq, Repr

structure Template where
  ethernet : Int
  cpu : Int
  ram : Int
  consoleType : String
  icon : String
  interfaceNaming : Option String := none
  extras : Dict String String := Dict.empty
deriving DecidableEq

/-- What the node routes ask of the template service and of the runtime. -/
structure NodeHost where
  /-- `TemplateService().validate_node_request`. -/
  template : NodeType → String → String → Except String Template
  /-- `_node_is_running`. -/
  running : Int → Bool
  newUuid : String

def nodeTypeName : NodeType → String
  | .qemu => "qemu"
  | .docker => "docker"
  | .iol => "iol"
  | .dynamips => "dynamips"

def supportedConsoleModes : NodeType → List String
  | .qemu => ["telnet", "vnc"]
  | .docker => ["rdp", "telnet", "vnc"]
  | .iol => ["telnet"]
  | .dynamips => ["telnet"]

def validateConsoleMode (type : NodeType) (console : String) : Except String Unit :=
  if console ∈ supportedConsoleModes type then .ok ()
  else .error ("Console mode '" ++ console ++ "' is not supported for " ++ nodeTypeName type ++
    " nodes; supported modes: " ++ ", ".intercalate (supportedConsoleModes type) ++ ".")

/-- `render_interface_name`: fixed names first, then the pattern with relative numbering. -/
def renderInterfaceName (fmt : String) (index : Nat) : String :=
  let items := ((fmt.toList.splitOn ',').map (stripChars isPySpace)).filter (fun s => s ≠ [])
  match items.getLast? with
  | none => ""
  | some last =>
    let fixedCount := items.length - 1
    if index < fixedCount then String.ofList (items.getD index [])
    else
      let rel := index - fixedCount
      String.ofList
        (replaceText "\x7bport\x7d".toList (Nat.toDigits 10 (rel + 1))
          (replaceText "\x7bslot\x7d".toList (Nat.toDigits 10 rel)
            (replaceText "\x7bn\x7d".toList (Nat.toDigits 10 rel) last)))

def interfaceName (type : NodeType) (scheme templateNaming : Option String) (index : Nat) :
    String :=
  match scheme, templateNaming with
  | some fmt, _ => renderInterfaceName fmt index
  | none, some fmt => renderInterfaceName fmt index
  | none, none =>
    match type with
    | .qemu => "Gi" ++ toString (index + 1)
    | _ => "eth" ++ toString index

/-- `_default_interfaces`; a negative count gives none. -/
def defaultInterfaces (type : NodeType) (ethernet : Int) (scheme templateNaming : Option String) :
    List Iface :=
  (List.range ethernet.toNat).map (fun (index : Nat) =>
    { index := (index : Int), name := interfaceName type scheme templateNaming index })

/-- `existing[:count]`; a negative count leaves that many out at the end. -/
def sliceTo {α : Type} (xs : List α) (count : Int) : List α :=
  if count < 0 then xs.take (xs.length - count.natAbs) else xs.take count.toNat

/-- `_resize_interfaces` over the entries of a node, which `resize` copies from; none when the loop
runs past the end of the resized list. -/
def resizeEntries {α β : Type} (create : Iface → β) (resize : Iface → α → β) (existing : List α)
    (type : NodeType) (ethernet : Int) : Option (List β) :=
  let resized := defaultInterfaces type ethernet none none
  let kept := sliceTo existing ethernet
  if resized.length < kept.length then none
  else some (resized.mapIdx (fun index fresh =>
    match kept[index]? with
    | none => create fresh
    | some source => resize fresh source))

/-- The name, the planned MAC and the port position are kept, in list order. -/
def resizeInterfaces (existing : List Iface) (type : NodeType) (ethernet : Int) :
    Option (List Iface) :=
  resizeEntries id (fun fresh iface =>
    { fresh with
      name := iface.name
      plannedMac := iface.plannedMac
      portPosition := iface.portPosition }) existing type ethernet

theorem length_defaultInterfaces (type : NodeType) (ethernet : Int)
    (scheme templateNaming : Option String) :
    (defaultInterfaces type ethernet scheme templateNaming).length = ethernet.toNat := by
  simp [defaultInterfaces]

/-- A resize goes through unless a negative count is smaller than the number of entries. -/
def Resizes (entries : Nat) (ethernet : Int) : Prop := 0 ≤ ethernet ∨ entries ≤ ethernet.natAbs

theorem length_resizeInterfaces {existing interfaces : List Iface} {type : NodeType} {ethernet : Int}
    (h : resizeInterfaces existing type ethernet = some interfaces) :
    Resizes existing.length ethernet ∧ interfaces.length = ethernet.toNat := by
  unfold resizeInterfaces resizeEntries at h
  dsimp only at h
  split at h
  next => cases h
  next hfits =>
    obtain rfl := Option.some.inj h
    rw [length_defaultInterfaces] at hfits
    refine ⟨?_, by rw [List.length_mapIdx, length_defaultInterfaces]⟩
    unfold sliceTo at hfits
    unfold Resizes
    split at hfits
    next hneg =>
      rw [List.length_take] at hfits
      omega
    next hpos => omega

/-- `f"50:00:00:{node_id:02x}:00:00"`. -/
def firstMacForNode (nodeId : Int) : String :=
  let digits := Nat.toDigits 16 nodeId.toNat
  "50:00:00:" ++ String.ofList (List.replicate (2 - digits.length) '0' ++ digits) ++ ":00:00"

/-- A `NodeCreate`, or one node of a `NodeBatchCreate`; `none` is a field that was not sent. -/
structure NodeCreate where
  name : String
  type : NodeType := .qemu
  template : String
  image : String
  console : Option String := none
  cpu : Option Int := none
  ram : Option Int := none
  ethernet : Option Int := none
  delay : Option Int := none
  left : Int := 0
  top : Int := 0
  icon : Option String := none
  extras : Dict String String := Dict.empty
  interfaceNamingScheme : Option String := none
deriving DecidableEq

def mergeExtras (base overrides : Dict String String) : Dict String String :=
  overrides.entries.foldl (fun d entry => d.set entry.1 entry.2) base

/-- The entry of `extras`, with a generated one when it is missing or empty. -/
def setIfBlank (extras : Dict String String) (key value : String) : Dict String String :=
  match extras.get? key with
  | none => extras.set key value
  | some current => if current = "" then extras.set key value else extras

def buildExtras (newUuid : String) (nodeId : Int) (request : NodeCreate) (template : Template) :
    Dict String String :=
  let merged := mergeExtras template.extras request.extras
  match request.type with
  | .qemu => setIfBlank (setIfBlank merged "uuid" newUuid) "firstmac" (firstMacForNode nodeId)
  | _ => merged

def chosenIcon (request : NodeCreate) (template : Template) : String :=
  match request.icon with
  | none => template.icon
  | some icon => if icon = "" then template.icon else icon

def buildNodePayload (newUuid : String) (nodeId : Int) (request : NodeCreate)
    (template : Template) : Node :=
  let ethernet := request.ethernet.getD template.ethernet
  let extras := buildExtras newUuid nodeId request template
  { id := nodeId, name := request.name, type := request.type, template := request.template
    image := request.image, console := request.console.getD template.consoleType
    delay := request.delay.getD 0, cpu := request.cpu.getD template.cpu
    ram := request.ram.getD template.ram, ethernet := ethernet
    firstmac := match request.type with
      | .qemu => extras.get? "firstmac"
      | _ => none
    left := request.left, top := request.top, icon := chosenIcon request template
    extras := extras
    interfaces := defaultInterfaces request.type ethernet request.interfaceNamingScheme
      template.interfaceNaming }

/-- The template and the console checks of both node-creating routes. -/
def validateNodeCreate (host : NodeHost) (request : NodeCreate) : Except RouteError Template :=
  match host.template request.type request.template request.image with
  | .error message => .error (.response 400 message)
  | .ok template =>
    match validateConsoleMode request.type (request.console.getD template.consoleType) with
    | .error message => .error (.response 400 message)
    | .ok _ => .ok template

def createNode (host : NodeHost) (data : Lab) (request : NodeCreate) : Except RouteError Lab := do
  let nodeId := data.nodes.nextKey
  let template ← validateNodeCreate host request
  .ok { data with nodes := data.nodes.set nodeId (buildNodePayload host.newUuid nodeId request template) }

/-- `_node_position`. -/
def nodePosition (row : Bool) (index : Nat) (left top : Int) : Int × Int :=
  if row then (left + index * 180, top)
  else (left + (index % 4 : Nat) * 180, top + (index / 4 : Nat) * 140)

/-- The nodes `create_nodes_batch` adds for the indices still to do. -/
def addBatchNodes (newUuid : String) (request : NodeCreate) (template : Template) (row : Bool)
    (nextId : Int) (nodes : Dict Int Node) : List Nat → Dict Int Node
  | [] => nodes
  | index :: rest =>
    let position := nodePosition row index request.left request.top
    let one := { request with
      name := request.name ++ "-" ++ toString (index + 1)
      left := position.1
      top := position.2 }
    let nodeId := nextId + index
    addBatchNodes newUuid request template row nextId
      (nodes.set nodeId (buildNodePayload newUuid nodeId one template)) rest

def createNodesBatch (host : NodeHost) (data : Lab) (request : NodeCreate) (count : Nat)
    (row : Bool) : Except RouteError Lab := do
  let nextId := data.nodes.nextKey
  let template ← validateNodeCreate host request
  .ok { data with
    nodes := addBatchNodes host.newUuid request template row nextId data.nodes (List.range count) }

/-- A `NodeUpdate`: `none` was not sent, `some none` was sent as `null`. -/
structure NodeUpdate where
  name : Option (Option String) := none
  cpu : Option (Option Int) := none
  ram : Option (Option Int) := none
  ethernet : Option (Option Int) := none
  image : Option (Option String) := none
  console : Option (Option String) := none
  delay : Option (Option Int) := none
  left : Option (Option Int) := none
  top : Option (Option Int) := none
  icon : Option (Option String) := none
  config : Option (Option String) := none
  extras : Option (Option (Dict String String)) := none
  interfaceNamingScheme : Option (Option String) := none
deriving DecidableEq

/-- A field is changed when it was sent with another value than the stored one. -/
def fieldChanged {α : Type} [DecidableEq α] (sent : Option (Option α)) (stored : α) : Bool :=
  match sent with
  | none => false
  | some value => decide (value ≠ some stored)

def sentOr {α : Type} (sent : Option (Option α)) (stored : α) : α :=
  (sent.getD none).getD stored

/-- The changed fields among those editable only while the node is stopped, sorted. -/
def blockedFields (node : Node) (request : NodeUpdate) : List String :=
  [("console", fieldChanged request.console node.console),
   ("cpu", fieldChanged request.cpu node.cpu),
   ("delay", fieldChanged request.delay node.delay),
   ("ethernet", fieldChanged request.ethernet node.ethernet),
   ("extras", fieldChanged request.extras node.extras),
   ("image", fieldChanged request.image node.image),
   ("ram", fieldChanged request.ram node.ram)].filterMap
    (fun field => if field.2 then some field.1 else none)

def validateNodeUpdateRequest (host : NodeHost) (node : Node) (request : NodeUpdate)
    (nodeRunning : Bool) : Except String Unit := do
  let blocked := blockedFields node request
  if nodeRunning ∧ blocked ≠ [] then
    .error ("Stop the node before changing: " ++ ", ".intercalate blocked ++ ".")
  if fieldChanged request.console node.console then
    validateConsoleMode node.type ((request.console.getD none).getD "None")
  if fieldChanged request.image node.image then
    match host.template node.type node.template ((request.image.getD none).getD "") with
    | .error message => .error message
    | .ok _ => .ok ()

def applyNodeUpdate (node : Node) (request : NodeUpdate) : Node :=
  { node with
    name := sentOr request.name node.name
    cpu := sentOr request.cpu node.cpu
    ram := sentOr request.ram node.ram
    ethernet := sentOr request.ethernet node.ethernet
    image := sentOr request.image node.image
    console := sentOr request.console node.console
    delay := sentOr request.delay node.delay
    left := sentOr request.left node.left
    top := sentOr request.top node.top
    icon := sentOr request.icon node.icon
    config := match request.config with
      | some (some config) => some config
      | _ => node.config
    extras := sentOr request.extras node.extras
    interfaceNamingScheme := match request.interfaceNamingScheme with
      | some (some scheme) => some scheme
      | _ => node.interfaceNamingScheme }

/-- `update_node`: the interfaces are resized to `ethernet` on every accepted update. -/
def updateNode (host : NodeHost) (data : Lab) (nodeId : Int) (request : NodeUpdate) :
    Except RouteError Lab :=
  match data.nodes.get? nodeId with
  | none => .error (.response 404 "Node does not exist.")
  | some node =>
    match validateNodeUpdateRequest host node request (host.running nodeId) with
    | .error message => .error (.response 400 message)
    | .ok _ =>
      let updated := applyNodeUpdate node request
      match resizeInterfaces updated.interfaces updated.type updated.ethernet with
      | none => .error .raised
      | some interfaces =>
        .ok { data with nodes := data.nodes.set nodeId { updated with interfaces := interfaces } }

/-- Whether a link has an endpoint on the node. -/
def Link.touchesNode (l : Link) (nodeId : Int) : Bool :=
  l.ifaces.any (fun key => decide (key.1 = nodeId))

/-- `delete_node`; `wiped = false` when the wipe raised anything but a `NodeRuntimeError`. -/
def deleteNode (data : Lab) (nodeId : Int) (wiped : Bool) : Except RouteError Lab :=
  match data.nodes.get? nodeId with
  | none => .error (.response 404 "Node does not exist.")
  | some _ =>
    if wiped then
      .ok { data with
        nodes := data.nodes.pop nodeId
        links := data.links.filter (fun l => !l.touchesNode nodeId) }
    else .error .raised

end NovaVe
