import NovaVe.LinkService
import NovaVe.Texts

namespace NovaVe

def isLowerHex (c : Char) : Bool := c.isDigit || ('a' ≤ c && c ≤ 'f')

/-- `$` also matches before a final newline. -/
def beforeFinalNewline (cs : List Char) : List Char :=
  if cs.getLast? = some '\n' then cs.dropLast else cs

/-- `RE_BRIDGE_NAME`. -/
def isBridgeName (name : String) : Bool :=
  match beforeFinalNewline name.toList with
  | 'n' :: 'o' :: 'v' :: 'e' :: a :: b :: c :: d :: 'n' :: digits =>
    [a, b, c, d].all isLowerHex && !digits.isEmpty && digits.all Char.isDigit &&
      decide (digits.length ≤ 5)
  | _ => false

/-- `RE_PID` up to the end of the text. -/
def isPidText (cs : List Char) : Bool :=
  !cs.isEmpty && cs.all Char.isDigit && decide (cs.length ≤ 7)

/-- `validate_pid_shape`. -/
def validatePidShape (text : String) : Option Int :=
  let digits := beforeFinalNewline text.toList
  if isPidText digits then
    let pid := Nat.ofDigitChars 10 digits 0
    if pid < 10 then none else some pid
  else none

/-- An entry of the pid registry with an integer pid: the stripped text of its `lab_id`, and its
`node_id` when that is an integer. -/
structure RegistryEntry where
  pid : Int
  kind : Option String
  labId : String
  nodeId : Option Int
deriving DecidableEq, Repr

/-- How a read of `/proc/<pid>/cmdline` ends; `content` is the file split at the NULs. -/
inductive ProcRead
  | content (args : List String)
  | notFound
  | permission
  | otherError
deriving DecidableEq, Repr

/-- What the helper finds on the machine: the text of a bridge's `dnsmasq.pid`, the registry (`none`
when it is missing, cannot be read or is no JSON list; an entry is `none` when it is no mapping with
an integer pid) and `/proc`. `gone k` is whether the kill number `k` finds no process. -/
structure Machine where
  pidfile : String → Option String
  registry : Option (List (Option RegistryEntry))
  cmdline : Int → ProcRead
  procText : Int → String → String
  gone : Nat → Bool

structure HelperEnv where
  runtimeRoot : String
  dnsmasqBin : String
  consoleProxyBin : String

inductive SignalTarget
  | process (pid : Int)
  | group (pid : Int)
deriving DecidableEq, Repr

def SignalTarget.pid : SignalTarget → Int
  | .process pid | .group pid => pid

structure SentSignal where
  target : SignalTarget
  number : Nat
deriving DecidableEq, Repr

/-- The exit code of a verb and the signals it sent on the way. -/
structure HelperRun where
  code : Nat
  sent : List SentSignal := []
deriving DecidableEq, Repr

def mentions (needle text : String) : Bool := decide (needle.toList <:+: text.toList)

def dnsmasqConf (env : HelperEnv) (bridge : String) : String :=
  env.runtimeRoot ++ "/nat-cloud/" ++ bridge ++ "/dnsmasq.conf"

/-- The pid a bridge's pidfile holds, if its text is an integer. -/
def Machine.dnsmasqPid (machine : Machine) (bridge : String) : Option Int :=
  (machine.pidfile bridge).bind pyInt

/-- `os.kill` takes a C `int`. -/
def fitsPid (pid : Int) : Bool := decide (-2147483648 ≤ pid ∧ pid ≤ 2147483647)

/-- `_dnsmasq_stop_bridge`: a command line that cannot be read is as good as none. -/
def dnsmasqStopBridge (machine : Machine) (bridge : String) : List SentSignal :=
  match machine.dnsmasqPid bridge with
  | none => []
  | some pid =>
    let cmdline := match machine.cmdline pid with
      | .content args => args
      | _ => []
    if cmdline ≠ [] ∧ cmdline.any (mentions "dnsmasq") = false then []
    else if fitsPid pid then [{ target := .process pid, number := 15 }]
    else []

def dnsmasqStop (machine : Machine) (bridge : String) : HelperRun :=
  if isBridgeName bridge then { code := 0, sent := dnsmasqStopBridge machine bridge }
  else { code := 2 }

/-- `cmd_dnsmasq_start` as far as it sends signals: the arguments are checked, and the server that
runs on the bridge is stopped first. -/
def dnsmasqStart (machine : Machine) (bridge gateway dhcpStart dhcpEnd : String) : HelperRun :=
  match isBridgeName bridge, ipv4Value gateway, ipv4Value dhcpStart, ipv4Value dhcpEnd with
  | true, some _, some first, some last =>
    if last < first then { code := 2 }
    else { code := 0, sent := dnsmasqStopBridge machine bridge }
  | _, _, _, _ => { code := 2 }

/-- Kill with one number after the other until one finds no process. -/
def killUntilGone (pid : Int) (gone : Nat → Bool) : Nat → List Nat → List SentSignal
  | _, [] => []
  | k, number :: rest =>
    { target := .process pid, number := number } ::
      if gone k then [] else killUntilGone pid gone (k + 1) rest

/-- `cmd_console_proxy_stop`. -/
def consoleProxyStop (machine : Machine) (pidText : String) : HelperRun :=
  if !isPidText pidText.toList then { code := 2 }
  else
    let pid : Int := Nat.ofDigitChars 10 pidText.toList 0
    if pid ≤ 1 then { code := 2 }
    else
      match machine.cmdline pid with
      | .notFound => { code := 0 }
      | .otherError => { code := 1 }
      | .permission => { code := 1 }
      | .content args =>
        if args.any (mentions "nova-ve-console-proxy") = false then { code := 1 }
        else { code := 0
               sent := killUntilGone pid machine.gone 0 (15 :: (List.replicate 20 0 ++ [9])) }

/-- `_load_pid_registry`: what cannot be read holds nothing. -/
def Machine.loadPidRegistry (machine : Machine) : List RegistryEntry :=
  (machine.registry.getD []).filterMap (fun entry => entry)

def Machine.lookup (machine : Machine) (pid : Int) : Option RegistryEntry :=
  machine.loadPidRegistry.find? (fun entry => decide (entry.pid = pid))

/-- A run of at least twelve hex digits follows the word and one of the marks, then the suffix. -/
def containerMark (word : String) (marks : List Char) (suffix : String) (text : String) : Bool :=
  text.toList.tails.any (fun tail =>
    word.toList.isPrefixOf tail &&
      match tail.drop word.length with
      | mark :: rest =>
        decide (mark ∈ marks) && decide (12 ≤ (rest.takeWhile isLowerHex).length) &&
          suffix.toList.isPrefixOf (rest.dropWhile isLowerHex)
      | [] => false)

/-- `RE_COMM_QEMU`. -/
def isQemuComm (comm : String) : Bool :=
  let text := beforeFinalNewline comm.toList
  "qemu-system-".toList.isPrefixOf text && decide (12 < text.length) && !text.contains '\n'

/-- `_cgroup_or_comm_matches`. -/
def Machine.cgroupOrCommMatches (machine : Machine) (pid : Int) : Bool :=
  let cgroup := machine.procText pid "cgroup"
  containerMark "docker" ['/', '-'] "" cgroup || containerMark "crio" ['/', '-'] "" cgroup ||
    containerMark "docker" ['-'] ".scope" cgroup ||
    containerMark "containerd" ['-'] ".scope" cgroup ||
    isQemuComm (pyStrip (machine.procText pid "comm"))

/-- `RE_SAFE_LAB_ID`. -/
def isSafeLabId (labId : String) : Bool :=
  !labId.toList.isEmpty && decide (labId.length ≤ 128) &&
    labId.toList.all (fun c => c.isAlphanum || c == '_' || c == '.' || c == '-')

/-- `_qemu_qmp_path_for_entry`; a path drops the segment `.`. -/
def qemuQmpPath (env : HelperEnv) (entry : RegistryEntry) : Option String :=
  match isSafeLabId entry.labId, entry.nodeId with
  | true, some nodeId =>
    if nodeId ≤ 0 then none
    else some ("/".intercalate ([env.runtimeRoot, "tmp"] ++
      (if entry.labId = "." then [] else [entry.labId]) ++ [toString nodeId, "qmp.sock"]))
  | _, _ => none

/-- `Path(text).name`. -/
def pathName (text : String) : String :=
  (((text.splitOn "/").filter (fun segment => decide (segment ≠ "" ∧ segment ≠ "."))).getLast?).getD ""

/-- A `-qmp` option whose value begins with the prefix. -/
def hasQmpOption (qmpPrefix : String) : List String → Bool
  | option :: value :: rest =>
    (option == "-qmp" && qmpPrefix.toList.isPrefixOf value.toList) ||
      hasQmpOption qmpPrefix (value :: rest)
  | _ => false

/-- `_qemu_cmdline_matches_registry_entry` on the arguments that are not empty. -/
def qemuCmdlineMatches (env : HelperEnv) (entry : RegistryEntry) (args : List String) : Bool :=
  match args.filter (fun arg => decide (arg ≠ "")), qemuQmpPath env entry with
  | program :: rest, some qmpPath =>
    "qemu-system-".toList.isPrefixOf (pathName program).toList &&
      hasQmpOption ("unix:" ++ qmpPath ++ ",") (program :: rest)
  | _, _ => false

/-- `authorize_pid_entry`. -/
def Machine.authorizePidEntry (machine : Machine) (pidText : String) :
    Option (Int × RegistryEntry) := do
  let pid ← validatePidShape pidText
  let entry ← machine.lookup pid
  if machine.cgroupOrCommMatches pid then some (pid, entry) else none

/-- `cmd_qemu_process_signal`. -/
def qemuProcessSignal (env : HelperEnv) (machine : Machine) (pidText signal : String) : HelperRun :=
  match machine.authorizePidEntry pidText with
  | none => { code := 2 }
  | some (pid, entry) =>
    if entry.kind ≠ some "qemu" then { code := 2 }
    else
      match machine.cmdline pid with
      | .content args =>
        if qemuCmdlineMatches env entry args = false then { code := 2 }
        else if signal = "term" then { code := 0, sent := [{ target := .group pid, number := 15 }] }
        else if signal = "kill" then { code := 0, sent := [{ target := .group pid, number := 9 }] }
        else { code := 2 }
      | _ => { code := 2 }

/-- What an argument vector asks for; the verbs that send no signal are one. -/
inductive HelperCall
  | dnsmasqStart (bridge gateway dhcpStart dhcpEnd : String)
  | dnsmasqStop (bridge : String)
  | consoleProxyStop (pid : String)
  | qemuProcessSignal (pid signal : String)
  | other (args : List String)
deriving DecidableEq, Repr

def HelperCall.run (env : HelperEnv) (machine : Machine) : HelperCall → HelperRun
  | .dnsmasqStart bridge gateway dhcpStart dhcpEnd =>
    NovaVe.dnsmasqStart machine bridge gateway dhcpStart dhcpEnd
  | .dnsmasqStop bridge => NovaVe.dnsmasqStop machine bridge
  | .consoleProxyStop pid => NovaVe.consoleProxyStop machine pid
  | .qemuProcessSignal pid signal => NovaVe.qemuProcessSignal env machine pid signal
  | .other _ => { code := 0 }

/-- The program is the DHCP server, started with the configuration of the bridge. -/
def servesBridge (env : HelperEnv) (bridge : String) : List String → Bool
  | program :: options =>
    pathName program == pathName env.dnsmasqBin &&
      options.contains ("--conf-file=" ++ dnsmasqConf env bridge)
  | [] => false

/-- The program is the bundled proxy, or a Python interpreter that runs it as its script. -/
def runsConsoleProxy (env : HelperEnv) : List String → Bool
  | program :: rest =>
    program == env.consoleProxyBin ||
      ("python".toList.isPrefixOf (pathName program).toList &&
        rest.head? == some env.consoleProxyBin)
  | [] => false

/-- The command line is the one of the process that the verb is about: the server of the bridge, the
bundled proxy, the QEMU of the registered node. -/
def HelperCall.Identifies (env : HelperEnv) (machine : Machine) (call : HelperCall) (pid : Int)
    (args : List String) : Prop :=
  match call with
  | .dnsmasqStart bridge _ _ _ | .dnsmasqStop bridge =>
    servesBridge env bridge args = true
  | .consoleProxyStop _ => runsConsoleProxy env args = true
  | .qemuProcessSignal _ _ =>
    ∃ entry, machine.lookup pid = some entry ∧ entry.kind = some "qemu" ∧
      qemuCmdlineMatches env entry args = true
  | .other _ => False

/-- Every signal goes to a pid greater than one whose command line was read and identifies it. -/
def SignalsJustified (env : HelperEnv) (machine : Machine) (call : HelperCall) : Prop :=
  ∀ sent ∈ (call.run env machine).sent, 1 < sent.target.pid ∧
    ∃ args, machine.cmdline sent.target.pid = .content args ∧
      call.Identifies env machine sent.target.pid args

end NovaVe
