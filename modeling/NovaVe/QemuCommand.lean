import NovaVe.IfaceNames
import NovaVe.NicIdentity

namespace NovaVe

/-- One token of an argv. -/
abbrev Arg := List Char

def isFlag (token : Arg) : Bool := token.head? == some '-'

/-- Where `shlex` stands in a text: `escaped` remembers the quote it goes back to. -/
inductive ShlexState
  | blank
  | word
  | quoted (quote : Char)
  | escaped (quote : Option Char)
deriving DecidableEq, Repr

def isShlexSpace (c : Char) : Bool := c == ' ' || c == '\t' || c == '\r' || c == '\n'

def isShlexQuote (c : Char) : Bool := c == '"' || c == '\''

/-- The token so far, if there is one; quotes make an empty one. -/
def shlexToken (token : Arg) (inQuotes : Bool) : List Arg :=
  if token = [] ∧ inQuotes = false then [] else [token]

/-- The tokens from a state on; none when a quotation or an escape is not closed. -/
def shlexFrom : List Char → ShlexState → Arg → Bool → Option (List Arg)
  | [], .blank, token, inQuotes => some (shlexToken token inQuotes)
  | [], .word, token, inQuotes => some (shlexToken token inQuotes)
  | [], .quoted _, _, _ => none
  | [], .escaped _, _, _ => none
  | c :: rest, .blank, token, inQuotes =>
    if isShlexSpace c then
      (shlexFrom rest .blank [] false).map (fun tokens => shlexToken token inQuotes ++ tokens)
    else if c = '\\' then shlexFrom rest (.escaped none) token inQuotes
    else if isShlexQuote c then shlexFrom rest (.quoted c) token true
    else shlexFrom rest .word [c] inQuotes
  | c :: rest, .word, token, inQuotes =>
    if isShlexSpace c then
      (shlexFrom rest .blank [] false).map (fun tokens => shlexToken token inQuotes ++ tokens)
    else if isShlexQuote c then shlexFrom rest (.quoted c) token true
    else if c = '\\' then shlexFrom rest (.escaped none) token inQuotes
    else shlexFrom rest .word (token ++ [c]) inQuotes
  | c :: rest, .quoted quote, token, inQuotes =>
    if c = quote then shlexFrom rest .word token inQuotes
    else if c = '\\' ∧ quote = '"' then shlexFrom rest (.escaped (some quote)) token inQuotes
    else shlexFrom rest (.quoted quote) (token ++ [c]) inQuotes
  | c :: rest, .escaped none, token, inQuotes => shlexFrom rest .word (token ++ [c]) inQuotes
  | c :: rest, .escaped (some quote), token, inQuotes =>
    -- in quotes a backslash stays, unless it stands before the quote or a backslash
    if c ≠ '\\' ∧ c ≠ quote then shlexFrom rest (.quoted quote) (token ++ ['\\', c]) inQuotes
    else shlexFrom rest (.quoted quote) (token ++ [c]) inQuotes

/-- `shlex.split`. -/
def shlexSplit (text : List Char) : Option (List Arg) := shlexFrom text .blank [] false

/-- `_parse_qemu_tokens`, from a current flag on. -/
def parseQemuTokens : List Arg → Option (Arg × List Arg) → List (Arg × List Arg)
  | [], current => current.toList
  | token :: rest, current =>
    if isFlag token then current.toList ++ parseQemuTokens rest (some (token, []))
    else
      match current with
      | none => (token, []) :: parseQemuTokens rest none
      | some (flag, values) => parseQemuTokens rest (some (flag, values ++ [token]))

/-- The flags of which `_merge_qemu_args` takes the user's instances only. -/
def overrideFlags (extraTokens : List Arg) : List Arg :=
  ((parseQemuTokens extraTokens none).map Prod.fst).filter isFlag

def mergeGroups (base extraTokens : List Arg) : List Arg :=
  ((parseQemuTokens base none).filter (fun group => !(overrideFlags extraTokens).contains group.1) ++
    parseQemuTokens extraTokens none).flatMap (fun group => group.1 :: group.2)

/-- `_merge_qemu_args`; none when `shlex` raises. -/
def mergeQemuArgs (base : List Arg) (extra : List Char) : Option (List Arg) :=
  if extra = [] then some base else (shlexSplit extra).map (mergeGroups base)

inductive QemuMachine
  | pc | q35
deriving DecidableEq, Repr

def QemuMachine.text : QemuMachine → Arg
  | .pc => "pc".toList
  | .q35 => "q35".toList

/-- What a start of a QEMU node has found when it builds the argv. -/
structure QemuLaunch where
  labId : String
  node : Node
  uuid : Option String
  machine : QemuMachine
  maxNics : Nat
  kvm : Bool
  binary : String
  consolePort : Int
  workDir : String
  tapNames : Dict Int String
  isoPath : Option String

def QemuLaunch.overlayPath (launch : QemuLaunch) : Arg :=
  launch.workDir.toList ++ "/virtioa.qcow2".toList

def QemuLaunch.qmpPath (launch : QemuLaunch) : Arg := launch.workDir.toList ++ "/qmp.sock".toList

/-- `<lab_id>-<node_id>`. -/
def uuidOf (labId : String) (nodeId : Int) : Arg := labId.toList ++ '-' :: intText nodeId

/-- `node.get("uuid") or extras.get("uuid")`, and last the text that names lab and node. -/
def QemuLaunch.uuidArg (launch : QemuLaunch) : Arg :=
  if launch.uuid.getD "" ≠ "" then (launch.uuid.getD "").toList
  else if (launch.node.extras.get? "uuid").getD "" ≠ "" then
    ((launch.node.extras.get? "uuid").getD "").toList
  else uuidOf launch.labId launch.node.id

def QemuLaunch.machineArg (launch : QemuLaunch) : Arg :=
  "type=".toList ++ launch.machine.text ++
    (if launch.kvm then ",accel=kvm".toList else ",accel=tcg".toList)

def QemuLaunch.driveArg (launch : QemuLaunch) : Arg :=
  "file=".toList ++ launch.overlayPath ++ ",if=virtio,cache=writeback,format=qcow2".toList

/-- The flag of the console and its value. -/
def QemuLaunch.consoleArgs (launch : QemuLaunch) : List Arg :=
  if launch.node.console = "vnc" then
    ["-vnc".toList, ':' :: intText (launch.consolePort - 5900)]
  else ["-serial".toList, "telnet::".toList ++ intText launch.consolePort ++ ",server,nowait".toList]

def QemuLaunch.qmpArg (launch : QemuLaunch) : Arg :=
  "unix:".toList ++ launch.qmpPath ++ ",server,nowait".toList

def natText (n : Nat) : Arg := Nat.toDigits 10 n

def QemuLaunch.rootPortArgs (launch : QemuLaunch) : List Arg :=
  if launch.machine = .q35 then
    (List.range launch.maxNics).flatMap (fun i =>
      ["-device".toList, "pcie-root-port,id=rp".toList ++ natText i ++ ",chassis=".toList ++
        natText (i + 1) ++ ",slot=".toList ++ natText (i + 1)])
  else []

/-- `_interface_uplink`. -/
def interfaceUplink (interfaces : List Iface) (index : Int) : Bool :=
  ((interfaces.find? (fun interface => decide (interface.index = index))).map Iface.uplink).getD false

def QemuLaunch.deviceArg (launch : QemuLaunch) (mac : String) (index : Nat) : Arg :=
  launch.node.nicModel.toList ++ (",netdev=net".toList ++ natText index ++ ",mac=".toList ++
    mac.toList ++ (if launch.machine = .q35 ∧ index < launch.maxNics then
      ",bus=rp".toList ++ natText index else []))

/-- The netdev and the device of one boot interface; none when the MAC or the TAP is missing. -/
def QemuLaunch.nicArgs (launch : QemuLaunch) (index : Nat) : Option (List Arg) := do
  let mac ← macForIndex launch.node.firstMac index
  if interfaceUplink launch.node.interfaces index then
    some ["-netdev".toList, "user,id=net".toList ++ natText index, "-device".toList,
      launch.deviceArg mac index]
  else do
    let tap ← launch.tapNames.get? index
    some ["-netdev".toList, "tap,id=net".toList ++ natText index ++ ",ifname=".toList ++ tap.toList ++
      ",script=no,downscript=no".toList, "-device".toList,
      launch.deviceArg mac index]

def QemuLaunch.bootArgs (launch : QemuLaunch) : List Arg :=
  let order := extraStr launch.node.extras "boot_order"
  let cdrom := match launch.isoPath with
    | none => []
    | some path => ["-cdrom".toList, path.toList]
  let boot := if order = "" ∧ launch.isoPath = none then []
    else ["-boot".toList, "order=".toList ++ (if order = "" then "cd".toList else order.toList)]
  cdrom ++ boot

/-- The tokens before the UUID. -/
def QemuLaunch.headArgs (launch : QemuLaunch) : List Arg :=
  [launch.binary.toList, "-display".toList, "none".toList, "-machine".toList, launch.machineArg,
    "-smp".toList, intText launch.node.cpu, "-m".toList, intText launch.node.ram,
    "-name".toList, launch.node.name.toList]

def QemuLaunch.cpuArgs (launch : QemuLaunch) : List Arg :=
  ["-cpu".toList, if launch.kvm then "host,vmx=off,svm=off".toList else "max".toList]

/-- The tokens after the QMP socket. -/
def QemuLaunch.deviceArgs (launch : QemuLaunch) : Option (List Arg) :=
  ((List.range launch.node.ethernet.toNat).mapM launch.nicArgs).map (fun nics =>
    launch.rootPortArgs ++ nics.flatten ++ launch.bootArgs)

def QemuLaunch.baseArgs (launch : QemuLaunch) (devices : List Arg) : List Arg :=
  launch.headArgs ++ ["-uuid".toList, launch.uuidArg, "-drive".toList, launch.driveArg] ++
    launch.cpuArgs ++ launch.consoleArgs ++ ["-qmp".toList, launch.qmpArg] ++ devices

/-- `_build_qemu_base_cmd`; none when it raises. -/
def QemuLaunch.buildQemuBaseCmd (launch : QemuLaunch) : Option (List Arg) :=
  launch.deviceArgs.map launch.baseArgs

def QemuLaunch.qemuOptions (launch : QemuLaunch) : List Char :=
  (extraStr launch.node.extras "qemu_options").toList

/-- The argv that is launched: the user's options merged in. -/
def QemuLaunch.command (launch : QemuLaunch) : Option (List Arg) :=
  launch.buildQemuBaseCmd.bind (fun base => mergeQemuArgs base launch.qemuOptions)

/-- `text.split(sep, 1)[0]`. -/
def beforeChar (sep : Char) (text : List Char) : List Char := text.takeWhile (fun c => decide (c ≠ sep))

/-- `text.rpartition(sep)` without the separator; none when the text does not hold it. -/
def rpartition (sep : Char) (text : List Char) : Option (List Char × List Char) :=
  if text.contains sep then
    some ((text.reverse.dropWhile (fun c => decide (c ≠ sep))).tail.reverse,
      (text.reverse.takeWhile (fun c => decide (c ≠ sep))).reverse)
  else none

/-- `_arg_after`: the token after the first instance of a flag. -/
def argAfter : List Arg → Arg → Option Arg
  | [], _ => none
  | token :: rest, flag => if token = flag then rest.head? else argAfter rest flag

/-- What stands behind a prefix. -/
def afterPrefix (pre text : List Char) : Option (List Char) :=
  if pre.isPrefixOf text then some (text.drop pre.length) else none

/-- The lab and the node that a UUID names. -/
def uuidNames (uuid : Arg) : Option (String × Int) := do
  let (lab, node) ← rpartition '-' uuid
  let nodeId ← intOfChars node
  some (String.ofList lab, nodeId)

/-- The port that the values of `-serial` and `-vnc` tell. -/
def consolePortOf (serial vnc : Option Arg) : Int :=
  let port := ((serial.bind (afterPrefix "telnet::".toList)).bind
    (fun text => intOfChars (beforeChar ',' text))).getD 0
  (((vnc.bind (afterPrefix ":".toList)).bind (fun text => intOfChars (beforeChar ',' text))).map
    (fun display => 5900 + display)).getD port

def qmpSocketOf (qmp : Option Arg) : Arg :=
  ((qmp.bind (afterPrefix "unix:".toList)).map (beforeChar ',')).getD []

/-- `arg.startswith("file=") and ".qcow2" in arg`. -/
def isOverlayArg (token : Arg) : Bool :=
  "file=".toList.isPrefixOf token && decide (".qcow2".toList <:+: token)

/-- The overlay in the first token that has one. -/
def overlayOf (cmdline : List Arg) : Arg :=
  ((cmdline.find? isOverlayArg).map (fun token => beforeChar ',' (token.drop "file=".toList.length))).getD []

def machineOf (value : Option Arg) : Arg :=
  let text := value.getD []
  if text = [] then []
  else (((text.splitOn ',').filterMap (afterPrefix "type=".toList)).head?).getD (beforeChar ',' text)

/-- The record that an adoption rebuilds. -/
structure AdoptedQemu where
  labId : String
  nodeId : Int
  name : String
  console : String
  consolePort : Int
  pid : Int
  overlayPath : Arg
  qmpSocket : Arg
  command : List Arg
  machine : Arg
  bootEthernet : Int
deriving DecidableEq, Repr

/-- `_runtime_from_qemu_cmdline`. -/
def runtimeFromQemuCmdline (labId : String) (nodeId : Int) (node : Node) (cmdline : List Arg)
    (pid : Int) : AdoptedQemu where
  labId := labId
  nodeId := nodeId
  name := node.name
  console := node.console
  consolePort := consolePortOf (argAfter cmdline "-serial".toList) (argAfter cmdline "-vnc".toList)
  pid := pid
  overlayPath := overlayOf cmdline
  qmpSocket := qmpSocketOf (argAfter cmdline "-qmp".toList)
  command := cmdline
  machine := machineOf (argAfter cmdline "-machine".toList)
  bootEthernet := node.ethernet

/-- The QEMU node that the lab files, read in turn, have for an id; a later file hides an earlier. -/
def knownQemuNode (labs : Labs) (labId : String) (nodeId : Int) : Option Node :=
  (labs.entries.filterMap (fun entry =>
    if labId ≠ "" ∧ pyStrip entry.2.id = labId then
      (entry.2.nodes.get? nodeId).filter (fun node => decide (node.type = .qemu))
    else none)).getLast?

structure QemuProcess where
  pid : Int
  cmdline : List Arg

/-- `os.path.basename`. -/
def basename (path : Arg) : Arg := (path.reverse.takeWhile (fun c => decide (c ≠ '/'))).reverse

def isQemuExecutable (path : Arg) : Bool := "qemu-system".toList.isPrefixOf (basename path)

/-- One process of the scan, with the nodes that have a record. -/
def adopt (labs : Labs) (registered : List (String × Int)) (process : QemuProcess) :
    Option AdoptedQemu := do
  let executable ← process.cmdline.head?
  if isQemuExecutable executable then do
    let uuid ← argAfter process.cmdline "-uuid".toList
    let (labId, nodeId) ← uuidNames uuid
    let node ← knownQemuNode labs labId nodeId
    if registered.contains (labId, nodeId) then none
    else some (runtimeFromQemuCmdline labId nodeId node process.cmdline process.pid)
  else none

/-- `reconcile_orphan_qemu`: the records that it adds. -/
def reconcileOrphanQemu (labs : Labs) : List (String × Int) → List QemuProcess → List AdoptedQemu
  | _, [] => []
  | registered, process :: rest =>
    match adopt labs registered process with
    | none => reconcileOrphanQemu labs registered rest
    | some runtime =>
      runtime :: reconcileOrphanQemu labs ((runtime.labId, runtime.nodeId) :: registered) rest

/-- What an adoption has to get back from an argv. -/
structure QemuIdentity where
  labId : String
  nodeId : Int
  consolePort : Int
  qmpSocket : Arg
  overlayPath : Arg
  machine : Arg
deriving DecidableEq, Repr

def AdoptedQemu.identity (runtime : AdoptedQemu) : QemuIdentity :=
  ⟨runtime.labId, runtime.nodeId, runtime.consolePort, runtime.qmpSocket, runtime.overlayPath,
    runtime.machine⟩

/-- What the start writes in its own record. -/
def QemuLaunch.identity (launch : QemuLaunch) : QemuIdentity :=
  ⟨launch.labId, launch.node.id, launch.consolePort, launch.qmpPath, launch.overlayPath,
    launch.machine.text⟩

end NovaVe
