import NovaVe.AdoptionOverlay

namespace NovaVe

/-- The first token is a QEMU, the UUID in force names lab and node, and where the options or a free
text come between a flag of the launch and its value, what stands there reads back the same. -/
structure ArgvAgrees (launch : QemuLaunch) (devices options : List Arg) : Prop where
  executable : (firstKept options (launch.baseArgs devices)).any isQemuExecutable = true
  uuid : (launch.said devices options "-uuid".toList).bind uuidNames =
    some (launch.labId, launch.node.id)
  console : (∃ flag ∈ consoleFlags, launch.Disturbed options flag) →
    consolePortOf (launch.said devices options "-serial".toList)
      (launch.said devices options "-vnc".toList) = launch.consolePort
  qmp : launch.Disturbed options "-qmp".toList →
    qmpSocketOf (launch.said devices options "-qmp".toList) = launch.qmpPath
  overlay : launch.DriveDisturbed options →
    overlayOf (launch.diskTexts devices options) = launch.overlayPath
  machine : "-machine".toList ∈ options →
    machineOf (argAfter options "-machine".toList) = launch.machine.text

/-- A file of the labs directory has the lab, with the node in it. -/
def LabOnDisk (labs : Labs) (labId : String) (nodeId : Int) : Prop :=
  labId ≠ "" ∧ ∃ path lab node, labs.get? path = some lab ∧ pyStrip lab.id = labId ∧
    lab.nodes.get? nodeId = some node ∧ node.type = .qemu

theorem knownQemuNode_isSome {labs : Labs} {labId : String} {nodeId : Int}
    (h : LabOnDisk labs labId nodeId) : ∃ node, knownQemuNode labs labId nodeId = some node := by
  obtain ⟨hne, path, lab, node, hlab, hid, hnode, htype⟩ := h
  have hmem : node ∈ labs.entries.filterMap (fun entry =>
      if labId ≠ "" ∧ pyStrip entry.2.id = labId then
        (entry.2.nodes.get? nodeId).filter (fun node => decide (node.type = .qemu))
      else none) := by
    refine List.mem_filterMap.mpr ⟨(path, lab), mem_of_assocGet hlab, ?_⟩
    rw [if_pos ⟨hne, hid⟩]
    dsimp only
    rw [hnode, Option.filter_some, if_pos (decide_eq_true htype)]
  cases hlast : knownQemuNode labs labId nodeId with
  | some found => exact ⟨found, rfl⟩
  | none =>
    unfold knownQemuNode at hlast
    rw [List.getLast?_eq_none_iff] at hlast
    rw [hlast] at hmem
    exact absurd hmem List.not_mem_nil

/-- The tokens of the user's options. -/
def QemuLaunch.optionTokens (launch : QemuLaunch) : Option (List Arg) :=
  shlexSplit launch.qemuOptions

theorem command_eq {launch : QemuLaunch} {devices options command : List Arg}
    (hdevices : launch.deviceArgs = some devices) (hoptions : launch.optionTokens = some options)
    (hcommand : launch.command = some command) :
    command = mergeGroups (launch.baseArgs devices) options := by
  obtain ⟨base, hbase, hmerge⟩ := Option.bind_eq_some_iff.mp hcommand
  unfold QemuLaunch.buildQemuBaseCmd at hbase
  rw [hdevices] at hbase
  cases hbase
  unfold mergeQemuArgs at hmerge
  unfold QemuLaunch.optionTokens at hoptions
  split at hmerge
  next hempty =>
    rw [hempty] at hoptions
    have hnone : [] = options := Option.some.inj hoptions
    subst hnone
    rw [mergeGroups_nil]
    exact (Option.some.inj hmerge).symm
  next =>
    rw [hoptions] at hmerge
    exact (Option.some.inj hmerge).symm

theorem serial_vnc_own (launch : QemuLaunch) :
    consolePortOf launch.serialArg? launch.vncArg? = launch.consolePort := by
  unfold QemuLaunch.serialArg? QemuLaunch.vncArg?
  split
  next => exact consolePortOf_vnc _
  next => exact consolePortOf_serial _

/-- What an adoption makes of the argv. -/
def QemuLaunch.readBack (launch : QemuLaunch) (devices options : List Arg) : Option QemuIdentity :=
  if (firstKept options (launch.baseArgs devices)).any isQemuExecutable then
    ((launch.said devices options "-uuid".toList).bind uuidNames).map (fun names =>
      { labId := names.1
        nodeId := names.2
        consolePort := consolePortOf (launch.said devices options "-serial".toList)
          (launch.said devices options "-vnc".toList)
        qmpSocket := qmpSocketOf (launch.said devices options "-qmp".toList)
        overlayPath := overlayOf (launch.diskTexts devices options)
        machine := machineOf (launch.said devices options "-machine".toList) })
  else none

/-- The argv reads back as the launch exactly when it agrees with it. -/
theorem readBack_eq_iff {launch : QemuLaunch} {devices : List Arg}
    (hdevices : launch.deviceArgs = some devices) (options : List Arg)
    (hcomma : ',' ∉ launch.workDir.toList) :
    launch.readBack devices options = some launch.identity ↔
      ArgvAgrees launch devices options := by
  unfold QemuLaunch.readBack QemuLaunch.identity
  constructor
  · intro h
    split at h
    next hexecutable =>
      obtain ⟨names, hnames, h⟩ := Option.map_eq_some_iff.mp h
      obtain ⟨hlab, hnode, hport, hsocket, hoverlay, hmachine⟩ := QemuIdentity.mk.inj h
      refine ⟨hexecutable, ?_, fun _ => hport, fun _ => hsocket, fun _ => hoverlay, ?_⟩
      · rw [hnames, ← hlab, ← hnode]
      · intro hset
        have hsaid : launch.said devices options "-machine".toList =
            argAfter options "-machine".toList := saidOf_set hset _
        rw [hsaid] at hmachine
        exact hmachine
    next => cases h
  · intro h
    have hread : ∀ flag ∈ readFlags, flag ∉ options → launch.binary.toList ≠ flag :=
      fun flag hflag hown => binary_ne_flag hflag hown h.executable
    have hport : consolePortOf (launch.said devices options "-serial".toList)
        (launch.said devices options "-vnc".toList) = launch.consolePort := by
      by_cases hset : ∃ flag ∈ consoleFlags, launch.Disturbed options flag
      · exact h.console hset
      · have hplain : ∀ flag ∈ consoleFlags, ¬ launch.Disturbed options flag :=
          fun flag hflag hdisturbed => hset ⟨flag, hflag, hdisturbed⟩
        have hflags : ∀ flag ∈ consoleFlags, flag ∈ readFlags := by decide
        have hown := console_said hdevices
          (fun flag hflag => hread flag (hflags flag hflag) (not_or.mp (hplain flag hflag)).1) hplain
        rw [hown.1, hown.2]
        exact serial_vnc_own launch
    have hsocket : qmpSocketOf (launch.said devices options "-qmp".toList) = launch.qmpPath := by
      by_cases hset : launch.Disturbed options "-qmp".toList
      · exact h.qmp hset
      · rw [qmp_said (hread _ (by decide) (not_or.mp hset).1) hset]
        exact qmpSocketOf_arg launch hcomma
    have hoverlay : overlayOf (launch.diskTexts devices options) = launch.overlayPath := by
      by_cases hset : launch.DriveDisturbed options
      · exact h.overlay hset
      · exact overlay_own hcomma hset
    have hmachine : machineOf (launch.said devices options "-machine".toList) =
        launch.machine.text := by
      by_cases hset : "-machine".toList ∈ options
      · have hsaid : launch.said devices options "-machine".toList =
            argAfter options "-machine".toList := saidOf_set hset _
        rw [hsaid]
        exact h.machine hset
      · rw [machine_said (hread _ (by decide) hset) hset]
        exact machineOf_arg launch
    rw [if_pos h.executable, h.uuid, Option.map_some, hport, hsocket, hoverlay, hmachine]

/-- What one adoption rebuilds: what is read back, where a lab on disk has the node and no record
does. -/
theorem adopt_command {launch : QemuLaunch} {devices : List Arg}
    (hdevices : launch.deviceArgs = some devices) (options : List Arg) (pid : Int) (labs : Labs)
    (registered : List (String × Int)) :
    (adopt labs registered ⟨pid, mergeGroups (launch.baseArgs devices) options⟩).map
        AdoptedQemu.identity =
      (launch.readBack devices options).filter (fun names =>
        (knownQemuNode labs names.labId names.nodeId).isSome &&
          !registered.contains (names.labId, names.nodeId)) := by
  have hoverlay := overlay_said hdevices options
  have hsaid : ∀ flag ∈ readFlags, argAfter (mergeGroups (launch.baseArgs devices) options) flag =
      launch.said devices options flag := by
    intro flag hflag
    have hflags : ∀ flag ∈ readFlags, isFlag flag = true := by decide
    exact argAfter_mergeGroups (hflags flag hflag) (launch.baseArgs devices) options
  have hhead : (mergeGroups (launch.baseArgs devices) options).head? =
      firstKept options (launch.baseArgs devices) := by
    rw [mergeGroups_eq]
    rfl
  unfold adopt QemuLaunch.readBack
  simp only [Option.bind_eq_bind, hhead, hsaid "-uuid".toList (by decide)]
  cases hfirst : firstKept options (launch.baseArgs devices) with
  | none => rfl
  | some executable =>
  rw [Option.bind_some, Option.any_some]
  cases hexecutable : isQemuExecutable executable with
  | false => rfl
  | true =>
    rw [if_pos rfl, if_pos rfl]
    cases hvalue : launch.said devices options "-uuid".toList with
    | none => rfl
    | some value =>
      rw [Option.bind_some, Option.bind_some]
      cases hnames : uuidNames value with
      | none => rfl
      | some names =>
        rw [Option.bind_some, Option.map_some, Option.filter_some]
        dsimp only
        cases hknown : knownQemuNode labs names.1 names.2 with
        | none => rfl
        | some node =>
          rw [Option.bind_some]
          cases hregistered : registered.contains (names.1, names.2) with
          | true => rfl
          | false =>
            simp only [Bool.false_eq_true, if_false, Option.map_some, AdoptedQemu.identity,
              runtimeFromQemuCmdline, hsaid "-serial".toList (by decide),
              hsaid "-vnc".toList (by decide), hsaid "-qmp".toList (by decide),
              hsaid "-machine".toList (by decide), hoverlay]
            rfl

theorem reconcileOrphanQemu_single (labs : Labs) (registered : List (String × Int))
    (process : QemuProcess) :
    reconcileOrphanQemu labs registered [process] = (adopt labs registered process).toList := by
  unfold reconcileOrphanQemu
  cases adopt labs registered process with
  | none => rfl
  | some runtime => rfl

/-- A launched QEMU whose record is lost is adopted as what it was launched as exactly when the UUID
in its argv names lab and node, and what the user's options and the free texts put before the
launch's own values agrees with the launch. -/
theorem adoption_inverts_iff {launch : QemuLaunch} {devices options command : List Arg} (pid : Int)
    {labs : Labs} {registered : List (String × Int)} (hdevices : launch.deviceArgs = some devices)
    (hoptions : launch.optionTokens = some options) (hcommand : launch.command = some command)
    (hcomma : ',' ∉ launch.workDir.toList) (hdisk : LabOnDisk labs launch.labId launch.node.id)
    (horphan : registered.contains (launch.labId, launch.node.id) = false) :
    (reconcileOrphanQemu labs registered [⟨pid, command⟩]).map AdoptedQemu.identity =
        [launch.identity] ↔ ArgvAgrees launch devices options := by
  have hmerged := command_eq hdevices hoptions hcommand
  subst hmerged
  obtain ⟨node, hnode⟩ := knownQemuNode_isSome hdisk
  have hadopt := adopt_command hdevices options pid labs registered
  rw [← readBack_eq_iff hdevices options hcomma, reconcileOrphanQemu_single]
  have hlist : ((adopt labs registered
      ⟨pid, mergeGroups (launch.baseArgs devices) options⟩).toList.map AdoptedQemu.identity =
        [launch.identity]) ↔
      (adopt labs registered ⟨pid, mergeGroups (launch.baseArgs devices) options⟩).map
        AdoptedQemu.identity = some launch.identity := by
    cases adopt labs registered ⟨pid, mergeGroups (launch.baseArgs devices) options⟩ with
    | none => simp
    | some runtime => simp
  have hkeep : ((knownQemuNode labs launch.identity.labId launch.identity.nodeId).isSome &&
      !registered.contains (launch.identity.labId, launch.identity.nodeId)) = true := by
    show ((knownQemuNode labs launch.labId launch.node.id).isSome &&
      !registered.contains (launch.labId, launch.node.id)) = true
    rw [hnode, horphan]
    rfl
  rw [hlist, hadopt, Option.filter_eq_some_iff]
  exact and_iff_left hkeep

/-- A node without a UUID of its own, whose options leave the flags alone and whose texts are no
flags and no drive, is adopted when its executable is a QEMU and its id is not negative. -/
theorem argvAgrees_default {launch : QemuLaunch} {devices options : List Arg}
    (huuid : launch.uuidArg = uuidOf launch.labId launch.node.id)
    (hflag : ∀ text ∈ [launch.binary.toList, launch.uuidArg], isFlag text = false)
    (hplain : ∀ flag ∈ readFlags, ¬ launch.Disturbed options flag)
    (hdrive : ¬ launch.DriveDisturbed options) :
    ArgvAgrees launch devices options ↔
      isQemuExecutable launch.binary.toList = true ∧ 0 ≤ launch.node.id := by
  have hfirst : firstKept options (launch.baseArgs devices) = some launch.binary.toList := by
    have hshape : launch.baseArgs devices =
      launch.binary.toList :: (launch.baseArgs devices).tail := rfl
    rw [hshape]
    exact firstKept_value (hflag _ (by simp)) _
  have hsaid : isQemuExecutable launch.binary.toList = true →
      launch.said devices options "-uuid".toList = some (uuidOf launch.labId launch.node.id) := by
    intro hexecutable
    have hbinary : launch.binary.toList ≠ "-uuid".toList := by
      intro heq
      rw [heq] at hexecutable
      exact absurd hexecutable (by decide)
    obtain ⟨hown, hfree⟩ := not_or.mp (hplain "-uuid".toList (by decide))
    have hshape : launch.baseArgs devices = launch.headArgs ++ "-uuid".toList :: launch.uuidArg ::
        (["-drive".toList, launch.driveArg] ++ launch.cpuArgs ++ launch.consoleArgs ++
          ["-qmp".toList, launch.qmpArg] ++ devices) := by
      unfold QemuLaunch.baseArgs
      simp only [List.append_assoc, List.cons_append, List.nil_append]
    unfold QemuLaunch.said
    rw [hshape, ← huuid]
    exact saidOf_own hown (hflag _ (by simp)) (late_not_mem_headArgs (by decide) hbinary hfree) _
  constructor
  · intro h
    have hexecutable := h.executable
    rw [hfirst] at hexecutable
    have huuid := h.uuid
    rw [hsaid hexecutable] at huuid
    exact ⟨hexecutable, (uuidNames_uuidOf launch.labId launch.node.id).mp huuid⟩
  · intro h
    refine ⟨?_, ?_, ?_, ?_, ?_, ?_⟩
    · rw [hfirst]
      exact h.1
    · rw [hsaid h.1]
      exact (uuidNames_uuidOf launch.labId launch.node.id).mpr h.2
    · intro hset
      obtain ⟨flag, hconsole, hdisturbed⟩ := hset
      have hflags : ∀ flag ∈ consoleFlags, flag ∈ readFlags := by decide
      exact absurd hdisturbed (hplain flag (hflags flag hconsole))
    · intro hset
      exact absurd hset (hplain _ (by decide))
    · intro hset
      exact absurd hset hdrive
    · intro hset
      exact absurd (Or.inl hset) (hplain _ (by decide))

def adoptableNode : Node :=
  { id := 1, name := "r1", type := .qemu, extras := Dict.empty.set "qemu_options" "-cpu max -smp 4" }

def adoptableLaunch : QemuLaunch where
  labId := "my-lab"
  node := adoptableNode
  uuid := none
  machine := .q35
  maxNics := 1
  kvm := true
  binary := "/usr/bin/qemu-system-x86_64"
  consolePort := 32100
  workDir := "/tmp/my-lab/1"
  tapNames := Dict.empty.set 0 "tap0"
  isoPath := none

/-- The same node with a UUID of its own. -/
def uuidLaunch : QemuLaunch :=
  { adoptableLaunch with uuid := some "5b0e7b66-2f43-4f0c-9a51-0c7d3a1be2f4" }

def adoptableLabs : Labs :=
  Dict.empty.set "r.json" { id := "my-lab", nodes := Dict.empty.set 1 adoptableNode }

def adoptableTokens : List Arg := ["-cpu".toList, "max".toList, "-smp".toList, "4".toList]

theorem adoptable_on_disk : LabOnDisk adoptableLabs "my-lab" 1 := by
  refine ⟨by decide, "r.json", { id := "my-lab", nodes := Dict.empty.set 1 adoptableNode },
    adoptableNode, Dict.get?_set_self _ _ _, by decide +kernel, Dict.get?_set_self _ _ _, rfl⟩

theorem default_launch_adopted :
    ∃ command, adoptableLaunch.command = some command ∧
      (reconcileOrphanQemu adoptableLabs [] [⟨4242, command⟩]).map AdoptedQemu.identity =
        [adoptableLaunch.identity] := by
  have hsome : adoptableLaunch.command.isSome = true := by decide +kernel
  have hbuilt : adoptableLaunch.deviceArgs.isSome = true := by decide +kernel
  obtain ⟨command, hcommand⟩ := Option.isSome_iff_exists.mp hsome
  obtain ⟨devices, hdevices⟩ := Option.isSome_iff_exists.mp hbuilt
  have hfree : ∀ flag ∈ readFlags,
      ¬ (flag ∈ adoptableTokens ∨ flag ∈ adoptableLaunch.freeTexts) := by decide +kernel
  have hdrive : ¬ ("-drive".toList ∈ adoptableTokens ∨
      ∃ text ∈ [adoptableLaunch.binary.toList, adoptableLaunch.node.name.toList,
        adoptableLaunch.uuidArg], isOverlayArg text = true) := by decide +kernel
  have hagree := (@argvAgrees_default adoptableLaunch devices adoptableTokens (by decide +kernel)
    (by decide +kernel) hfree hdrive).mpr ⟨by decide +kernel, by decide⟩
  exact ⟨command, hcommand, (adoption_inverts_iff 4242 hdevices (by decide +kernel) hcommand
    (by decide +kernel) adoptable_on_disk (by decide)).mpr hagree⟩

/-- A running QEMU with a UUID of its own is not adopted. -/
theorem stored_uuid_not_adopted :
    ¬ ∀ (launch : QemuLaunch) (command : List Arg) (pid : Int) (labs : Labs),
      launch.command = some command → ',' ∉ launch.workDir.toList →
        LabOnDisk labs launch.labId launch.node.id →
          (reconcileOrphanQemu labs [] [⟨pid, command⟩]).map AdoptedQemu.identity =
            [launch.identity] := by
  intro h
  have hsome : uuidLaunch.command.isSome = true := by decide +kernel
  have hlost : uuidLaunch.command.map (fun command =>
      (reconcileOrphanQemu adoptableLabs [] [⟨4242, command⟩]).map AdoptedQemu.identity) = some [] := by
    decide +kernel
  obtain ⟨command, hcommand⟩ := Option.isSome_iff_exists.mp hsome
  rw [hcommand] at hlost
  have hadopted := h uuidLaunch command 4242 adoptableLabs hcommand (by decide +kernel) adoptable_on_disk
  rw [Option.map_some, hadopted] at hlost
  cases hlost

end NovaVe
