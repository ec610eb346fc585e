import NovaVe.IfaceNames
import NovaVe.JsonValues
import NovaVe.LastWrite

namespace NovaVe

/-- `json.loads` and `json.dumps` on the texts of files; what was dumped is read back. -/
structure JsonCodec (Text : Type) where
  loads : Text → Option JsonValue
  dumps : JsonValue → Text
  reads_back : ∀ value, loads (dumps value) = some value

/-- `host_net.bridge_name`; `hash` is the hash of the lab id. -/
def migrationBridge (hash : String → Fin 65536) (labId : String) (networkId : Int) : Option String :=
  (asserted (bridgeNameText (hash labId) networkId)).map String.ofList

/-- A network without `runtime.bridge_name`. -/
structure PendingNetwork where
  key : String
  netId : Int
  fields : Fields

inductive NetworkScan
  | skipped
  | settled
  | pending (network : PendingNetwork)

/-- What `process_lab` makes of an entry of `networks`; `none` when it raises. -/
def scanNetwork (py : PyValues) (entry : String × JsonValue) : Option NetworkScan :=
  match entry.2 with
  | .obj fields =>
    match (fieldOr fields "id" (.str entry.1)).cast py with
    | .refused => some .skipped
    | .overflow => none
    | .value netId =>
      match fieldOrElse py fields "runtime" (.obj []) with
      | .obj runtime =>
        if (fieldOr runtime "bridge_name" .null).truthy py then some .settled
        else some (.pending { key := entry.1, netId := netId, fields := fields })
      | _ => none
  | _ => some .skipped

def NetworkScan.pending? : NetworkScan → Option PendingNetwork
  | .pending network => some network
  | .skipped | .settled => none

def NetworkScan.isChecked : NetworkScan → Bool
  | .skipped => false
  | .settled | .pending _ => true

def JsonValue.isNull : JsonValue → Bool
  | .null => true
  | _ => false

/-- A QEMU node without `machine_override`. -/
def lacksOverride : JsonValue → Bool
  | .obj fields =>
    (fieldOr fields "type" .null).isText "qemu" && (fieldOr fields "machine_override" .null).isNull
  | _ => false

/-- `_stamp_machine_override` on one node. -/
def stampOverride (node : JsonValue) : JsonValue :=
  match node with
  | .obj fields =>
    if lacksOverride (.obj fields) then .obj (assocSet fields "machine_override" (.str "pc"))
    else .obj fields
  | other => other

structure LabScan where
  data : Fields
  networks : Fields
  nodes : Fields
  labId : String
  scans : List NetworkScan

def LabScan.pending (s : LabScan) : List PendingNetwork := s.scans.filterMap NetworkScan.pending?

def LabScan.checked (s : LabScan) : Nat := s.scans.countP NetworkScan.isChecked

def LabScan.nodesToStamp (s : LabScan) : Nat := s.nodes.countP (fun entry => lacksOverride entry.2)

inductive ScanResult
  | raised
  | notALab
  | scanned (s : LabScan)

/-- The reading of a lab file, up to the decision whether there is something to migrate. -/
def scanLab {Text : Type} (codec : JsonCodec Text) (py : PyValues) (labIdPath : String)
    (text : Text) : ScanResult :=
  match codec.loads text with
  | none => .raised
  | some (.obj data) =>
    if !(fieldOr data "schema" .null).equalsInt py 2 then .notALab
    else
      match (fieldOrElse py data "networks" (.obj [])).fields?,
          (fieldOrElse py data "nodes" (.obj [])).fields? with
      | some networks, some nodes =>
        match networks.mapM (scanNetwork py) with
        | none => .raised
        | some scans =>
          .scanned { data := data, networks := networks, nodes := nodes, scans := scans
                     labId := ((fieldOr data "id" .null).orElse py (.str labIdPath)).shown py }
      | _, _ => .raised
  | some _ => .notALab

/-- `docker network inspect`: the exit code, the error text and the parsed output. -/
structure InspectProc where
  returncode : Int
  stderr : String
  stdout : Option JsonValue

/-- What the host answers while a network is migrated; `owned` is false as well when the check of the
bridge raises. -/
structure NetworkAnswers where
  inspect : Option InspectProc
  removeOk : Bool
  owned : Bool

/-- `_get_docker_net_name`; the outer `none` when it raises. -/
def dockerNetName (py : PyValues) (labId : String) (network : Fields) : Option (Option String) :=
  match (fieldOrElse py network "config" (.obj [])).fields? with
  | none => none
  | some config =>
    let explicit := fieldOr config "docker_network" .null
    if explicit.truthy py then some (some (explicit.shown py))
    else
      let name := fieldOr network "name" .null
      if name.truthy py then some (some ("nova-ve-" ++ labId ++ "-" ++ name.shown py)) else some none

inductive InspectFinding
  | absent
  | refused
  | entry (fields : Fields)

/-- The entry of an inspected network without containers. -/
def inspectedEntry (py : PyValues) : JsonValue → InspectFinding
  | .obj fields =>
    if (fieldOr fields "Containers" .null).truthy py then .refused else .entry fields
  | _ => .refused

/-- What `_migrate_network` makes of the output of the inspection. -/
def readInspect (py : PyValues) : Option InspectProc → InspectFinding
  | none => .refused
  | some proc =>
    if proc.returncode ≠ 0 then
      if proc.returncode = 1 ∧ "Error: No such network".toList <:+: proc.stderr.toList then .absent
      else .refused
    else
      match proc.stdout with
      | none => .refused
      | some data =>
        if !data.truthy py then .absent
        else
          match data with
          | .arr (first :: _) => inspectedEntry py first
          | other => inspectedEntry py other

/-- `_NetworkJournalEntry`: the captured network, and whether it was removed. -/
structure NetworkJournal where
  docker : Option (String × Fields) := none
  removed : Bool := false

abbrev MigrationStep := PendingNetwork × NetworkAnswers

/-- `_migrate_network`: the journal, and whether it raises. -/
def migrateRuntimeNetwork (py : PyValues) (hash : String → Fin 65536) (labId : String)
    (step : MigrationStep) : NetworkJournal × Bool :=
  match migrationBridge hash labId step.1.netId with
  | none => ({}, true)
  | some _ =>
    match dockerNetName py labId step.1.fields with
    | none => ({}, true)
    | some none => ({}, !step.2.owned)
    | some (some name) =>
      match readInspect py step.2.inspect with
      | .refused => ({}, true)
      | .absent => ({}, !step.2.owned)
      | .entry fields =>
        if step.2.removeOk then ({ docker := some (name, fields), removed := true }, !step.2.owned)
        else ({ docker := some (name, fields) }, true)

/-- The first loop of `process_lab`: the journals, and whether a network failed. -/
def migrateRuntimeNetworks (py : PyValues) (hash : String → Fin 65536) (labId : String) :
    List MigrationStep → List NetworkJournal × Bool
  | [] => ([], false)
  | step :: rest =>
    let (journal, raised) := migrateRuntimeNetwork py hash labId step
    if raised then ([journal], true)
    else
      let (journals, failed) := migrateRuntimeNetworks py hash labId rest
      (journal :: journals, failed)

def NetworkJournal.removedNet (journal : NetworkJournal) : Option (String × Fields) :=
  if journal.removed then journal.docker else none

/-- What `_rollback_lab` recreates: nothing for a captured entry that is empty. -/
def NetworkJournal.recreation (journal : NetworkJournal) : Option (String × Fields) :=
  journal.removedNet.filter (fun net => !net.2.isEmpty)

/-- `network.setdefault("runtime", {})["bridge_name"] = bridge`; `none` when it raises. -/
def stampNetwork (bridge : String) (network : Fields) : Option Fields :=
  match assocGet network "runtime" with
  | none => some (assocSet network "runtime" (.obj [("bridge_name", .str bridge)]))
  | some (.obj runtime) =>
    some (assocSet network "runtime" (.obj (assocSet runtime "bridge_name" (.str bridge))))
  | some _ => none

/-- `networks[key] = value`. -/
def putNetwork (key : String) (value : JsonValue) (networks : Fields) : Fields :=
  if (assocGet networks key).isSome then mapField key (fun _ => value) networks
  else networks ++ [(key, value)]

/-- A network is stamped where it is, unless its place was given to another, and under its id. -/
def stampStep (hash : String → Fin 65536) (labId : String) (s : Fields × List String)
    (network : PendingNetwork) : Option (Fields × List String) :=
  match migrationBridge hash labId network.netId with
  | none => none
  | some bridge =>
    match stampNetwork bridge network.fields with
    | none => none
    | some stamped =>
      let inPlace :=
        if s.2.contains network.key then s.1 else mapField network.key (fun _ => .obj stamped) s.1
      some (putNetwork (toString network.netId) (.obj stamped) inPlace, toString network.netId :: s.2)

/-- The second loop of `process_lab`. -/
def stampNetworks (hash : String → Fin 65536) (labId : String) (pending : List PendingNetwork)
    (networks : Fields) : Option Fields :=
  (pending.foldlM (stampStep hash labId) (networks, [])).map Prod.fst

/-- The document that is written. -/
def migratedData (s : LabScan) (networks : Fields) : Fields :=
  assocPop (assocSet (assocSet s.data "networks" (.obj networks)) "nodes"
    (.obj (s.nodes.map (fun entry => (entry.1, stampOverride entry.2))))) "topology"

/-- What the host answers while a lab is processed. -/
structure LabAnswers where
  backupOk : Bool
  network : Nat → NetworkAnswers
  writeOk : Bool

/-- A lab file, by its path below the labs directory. -/
structure MigrationLab (Text : Type) where
  path : String
  text : Text
  answers : LabAnswers

/-- `lab_path.name`. -/
def MigrationLab.name {Text : Type} (lab : MigrationLab Text) : String :=
  String.ofList (((lab.path.toList.splitOn '/').getLast?).getD [])

/-- What a call of `process_lab` returns, `none` when it raises, and what it leaves behind. -/
structure LabRun (Text : Type) where
  outcome : Option (Nat × Nat × Nat)
  text : Text
  written : Bool := false
  backup : Option Text := none
  removed : List (String × Fields) := []
  recreated : List (String × Fields) := []

def migrationSteps (s : LabScan) (answers : LabAnswers) : List MigrationStep :=
  s.pending.zipIdx.map (fun entry => (entry.1, answers.network entry.2))

/-- `process_lab` from the backup on. -/
def migrateBackedUp {Text : Type} (codec : JsonCodec Text) (py : PyValues) (hash : String → Fin 65536)
    (lab : MigrationLab Text) (s : LabScan) : LabRun Text :=
  let found := migrateRuntimeNetworks py hash s.labId (migrationSteps s lab.answers)
  let removed := found.1.filterMap NetworkJournal.removedNet
  if found.2 then
    -- the file is restored from its backup, which was taken just before
    { outcome := none, text := lab.text, backup := some lab.text, removed := removed
      recreated := found.1.filterMap NetworkJournal.recreation }
  else
    match stampNetworks hash s.labId s.pending s.networks with
    | none => { outcome := none, text := lab.text, backup := some lab.text, removed := removed }
    | some networks =>
      if !lab.answers.writeOk then
        { outcome := none, text := lab.text, backup := some lab.text, removed := removed }
      else
        { outcome := some (s.checked, s.pending.length, s.nodesToStamp)
          text := codec.dumps (.obj (migratedData s networks)), written := true
          backup := some lab.text, removed := removed }

/-- `process_lab`, not as a dry run. -/
def processLab {Text : Type} (codec : JsonCodec Text) (py : PyValues) (hash : String → Fin 65536)
    (lab : MigrationLab Text) : LabRun Text :=
  match scanLab codec py lab.path lab.text with
  | .raised => { outcome := none, text := lab.text }
  | .notALab => { outcome := some (0, 0, 0), text := lab.text }
  | .scanned s =>
    if s.pending.isEmpty && s.nodesToStamp == 0 then
      { outcome := some (s.checked, 0, 0), text := lab.text }
    else if !lab.answers.backupOk then { outcome := none, text := lab.text }
    else migrateBackedUp codec py hash lab s

/-- The files of the backup directory after a run over the labs, in the order they are processed. -/
def backupsAfter {Text : Type} (codec : JsonCodec Text) (py : PyValues) (hash : String → Fin 65536)
    (labs : List (MigrationLab Text)) : String → Option Text :=
  writeAll (labs.filterMap fun lab =>
    (processLab codec py hash lab).backup.map (fun text => (lab.name, text)))

/-- A call of `process_lab` that changes nothing and does not raise. -/
structure LabRun.Noop {Text : Type} (run : LabRun Text) (text : Text) : Prop where
  returns : ∃ counts, run.outcome = some counts
  same : run.text = text ∧ run.written = false
  untouched : run.backup = none ∧ run.removed = [] ∧ run.recreated = []

/-- What the script promises of a run over a labs directory. -/
structure Recoverable {Text : Type} (codec : JsonCodec Text) (py : PyValues)
    (hash : String → Fin 65536) (labs : List (MigrationLab Text)) : Prop where
  rolledBack : ∀ lab ∈ labs, (processLab codec py hash lab).outcome = none →
    (processLab codec py hash lab).removed ≠ [] →
      (processLab codec py hash lab).text = lab.text ∧
        ∀ net ∈ (processLab codec py hash lab).removed, net ∈ (processLab codec py hash lab).recreated
  backedUp : ∀ lab ∈ labs, (processLab codec py hash lab).written = true →
    backupsAfter codec py hash labs lab.name = some lab.text
  again : ∀ lab ∈ labs, ∀ counts, (processLab codec py hash lab).outcome = some counts →
    ∀ answers, (processLab codec py hash
      { lab with text := (processLab codec py hash lab).text, answers := answers }).Noop
        (processLab codec py hash lab).text

/-- The docker network of a step is removed. -/
def Removes (py : PyValues) (hash : String → Fin 65536) (labId : String) (step : MigrationStep)
    (net : String × Fields) : Prop :=
  (∃ bridge, migrationBridge hash labId step.1.netId = some bridge) ∧
    dockerNetName py labId step.1.fields = some (some net.1) ∧
      readInspect py step.2.inspect = .entry net.2 ∧ step.2.removeOk = true

/-- A step raises nothing. -/
def Passes (py : PyValues) (hash : String → Fin 65536) (labId : String) (step : MigrationStep) :
    Prop :=
  (∃ bridge, migrationBridge hash labId step.1.netId = some bridge) ∧ step.2.owned = true ∧
    (dockerNetName py labId step.1.fields = some none ∨
      ∃ name, dockerNetName py labId step.1.fields = some (some name) ∧
        (readInspect py step.2.inspect = .absent ∨
          (∃ entry, readInspect py step.2.inspect = .entry entry) ∧ step.2.removeOk = true))

/-- The `runtime` of a network is absent or a mapping. -/
def Stampable (network : PendingNetwork) : Prop :=
  assocGet network.fields "runtime" = none ∨
    ∃ runtime, assocGet network.fields "runtime" = some (.obj runtime)

/-- The lab has something to migrate and its backup is taken. -/
def TakesBackup {Text : Type} (codec : JsonCodec Text) (py : PyValues) (lab : MigrationLab Text)
    (s : LabScan) : Prop :=
  scanLab codec py lab.path lab.text = .scanned s ∧ (s.pending ≠ [] ∨ s.nodesToStamp ≠ 0) ∧
    lab.answers.backupOk = true

/-- Every network passes, every record can be stamped, and the file is written. -/
def Migrates {Text : Type} (py : PyValues) (hash : String → Fin 65536) (lab : MigrationLab Text)
    (s : LabScan) : Prop :=
  (∀ step ∈ migrationSteps s lab.answers, Passes py hash s.labId step) ∧
    (∀ network ∈ s.pending, Stampable network) ∧ lab.answers.writeOk = true

/-- Where a network fails, no removed network was captured as an empty entry; where none fails, none
was removed, or the records can be stamped and the file is written. -/
def LabSafe {Text : Type} (codec : JsonCodec Text) (py : PyValues) (hash : String → Fin 65536)
    (lab : MigrationLab Text) : Prop :=
  ∀ s, TakesBackup codec py lab s →
    (∀ before step after, migrationSteps s lab.answers = before ++ step :: after →
      (∀ earlier ∈ before, Passes py hash s.labId earlier) → ¬ Passes py hash s.labId step →
        ∀ reached ∈ before ++ [step], ∀ net, Removes py hash s.labId reached net → net.2 ≠ []) ∧
    ((∀ step ∈ migrationSteps s lab.answers, Passes py hash s.labId step) →
      Migrates py hash lab s ∨
        ∀ step ∈ migrationSteps s lab.answers, ∀ net, ¬ Removes py hash s.labId step net)

/-- For a lab that is migrated, the last lab of its file name that takes a backup has its text. -/
def BackupSafe {Text : Type} (codec : JsonCodec Text) (py : PyValues) (hash : String → Fin 65536)
    (labs : List (MigrationLab Text)) : Prop :=
  ∀ lab ∈ labs, ∀ s, TakesBackup codec py lab s → Migrates py hash lab s →
    ∃ last, LastWith (fun other => (∃ t, TakesBackup codec py other t) ∧ other.name = lab.name)
      last labs ∧ last.text = lab.text

end NovaVe
