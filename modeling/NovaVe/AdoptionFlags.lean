import NovaVe.MergedArgs

namespace NovaVe

theorem beforeChar_append {sep : Char} {text : List Char} (h : sep ∉ text) (rest : List Char) :
    beforeChar sep (text ++ sep :: rest) = text := by
  have hkeep : ∀ c ∈ text, decide (c ≠ sep) = true := by
    intro c hc
    exact decide_eq_true (fun heq => h (heq ▸ hc))
  unfold beforeChar
  rw [List.takeWhile_append_of_pos hkeep, List.takeWhile_cons_of_neg (by simp), List.append_nil]

theorem beforeChar_self {sep : Char} {text : List Char} (h : sep ∉ text) :
    beforeChar sep text = text := by
  apply List.takeWhile_eq_self_iff.mpr
  intro c hc
  exact decide_eq_true (fun heq => h (heq ▸ hc))

theorem afterPrefix_append (pre text : List Char) : afterPrefix pre (pre ++ text) = some text := by
  have hpre : pre.isPrefixOf (pre ++ text) = true :=
    List.isPrefixOf_iff_prefix.mpr (List.prefix_append _ _)
  unfold afterPrefix
  rw [if_pos hpre, List.drop_left]

theorem rpartition_append {sep : Char} (front : List Char) {back : List Char} (h : sep ∉ back) :
    rpartition sep (front ++ sep :: back) = some (front, back) := by
  have hmem : (front ++ sep :: back).contains sep = true := by simp
  have hkeep : ∀ c ∈ back.reverse, decide (c ≠ sep) = true := by
    intro c hc
    exact decide_eq_true (fun heq => h (heq ▸ List.mem_reverse.mp hc))
  have hrev : (front ++ sep :: back).reverse = back.reverse ++ sep :: front.reverse := by simp
  unfold rpartition
  rw [if_pos hmem, hrev, List.takeWhile_append_of_pos hkeep, List.dropWhile_append_of_pos hkeep,
    List.takeWhile_cons_of_neg (by simp), List.dropWhile_cons_of_neg (by simp)]
  simp

/-- The UUID that names lab and node is read back, unless the node id is negative. -/
theorem uuidNames_uuidOf (labId : String) (nodeId : Int) :
    uuidNames (uuidOf labId nodeId) = some (labId, nodeId) ↔ 0 ≤ nodeId := by
  have hminus : '-' ∉ Nat.toDigits 10 nodeId.natAbs := not_mem_toDigits (by decide)
  constructor
  · intro h
    apply Decidable.byContradiction
    intro hneg
    have htext : uuidOf labId nodeId =
        (labId.toList ++ ['-']) ++ '-' :: Nat.toDigits 10 nodeId.natAbs := by
      unfold uuidOf intText
      rw [if_pos (by omega)]
      simp
    unfold uuidNames at h
    rw [htext, rpartition_append _ hminus] at h
    simp only [Option.bind_eq_bind, Option.bind_some, intOfChars_toDigits] at h
    have hid := congrArg Prod.snd (Option.some.inj h)
    dsimp only at hid
    omega
  · intro hpos
    have htext : uuidOf labId nodeId = labId.toList ++ '-' :: Nat.toDigits 10 nodeId.natAbs := by
      unfold uuidOf intText
      rw [if_neg (by omega)]
    have habs : ((nodeId.natAbs : Nat) : Int) = nodeId := by omega
    unfold uuidNames
    rw [htext, rpartition_append _ hminus]
    simp only [Option.bind_eq_bind, Option.bind_some, intOfChars_toDigits, String.ofList_toList, habs]

theorem comma_not_mem_intText (n : Int) : ',' ∉ intText n :=
  not_mem_intText (by decide) (by decide)

/-- The port in the value of `-serial`. -/
theorem consolePortOf_serial (port : Int) :
    consolePortOf (some ("telnet::".toList ++ intText port ++ ",server,nowait".toList)) none = port := by
  have hbefore : beforeChar ',' (intText port ++ ",server,nowait".toList) = intText port :=
    beforeChar_append (comma_not_mem_intText port) _
  unfold consolePortOf
  rw [List.append_assoc, Option.bind_some, afterPrefix_append, Option.bind_some, hbefore,
    intOfChars_intText]
  rfl

/-- The port in the value of `-vnc`. -/
theorem consolePortOf_vnc (port : Int) :
    consolePortOf none (some (':' :: intText (port - 5900))) = port := by
  have hbefore : beforeChar ',' (intText (port - 5900)) = intText (port - 5900) :=
    beforeChar_self (comma_not_mem_intText _)
  have hafter : afterPrefix ":".toList (':' :: intText (port - 5900)) = some (intText (port - 5900)) :=
    afterPrefix_append ":".toList _
  unfold consolePortOf
  rw [Option.bind_some, hafter, Option.bind_some, hbefore, intOfChars_intText]
  show 5900 + (port - 5900) = port
  omega

theorem qmpSocketOf_arg (launch : QemuLaunch) (h : ',' ∉ launch.workDir.toList) :
    qmpSocketOf (some launch.qmpArg) = launch.qmpPath := by
  have hpath : ',' ∉ launch.qmpPath := by
    intro hmem
    rcases List.mem_append.mp hmem with hdir | hname
    · exact h hdir
    · exact absurd hname (by decide)
  have hbefore : beforeChar ',' (launch.qmpPath ++ ",server,nowait".toList) = launch.qmpPath :=
    beforeChar_append hpath _
  unfold qmpSocketOf QemuLaunch.qmpArg
  rw [List.append_assoc, Option.bind_some, afterPrefix_append, Option.map_some, hbefore]
  rfl

theorem machineOf_arg (launch : QemuLaunch) :
    machineOf (some launch.machineArg) = launch.machine.text := by
  unfold QemuLaunch.machineArg
  cases launch.machine with
  | pc => cases launch.kvm <;> decide
  | q35 => cases launch.kvm <;> decide

/-- The token of the overlay is one that the scan takes, and its path is read back. -/
theorem overlay_driveArg (launch : QemuLaunch) (h : ',' ∉ launch.workDir.toList) :
    isOverlayArg launch.driveArg = true ∧
      beforeChar ',' (launch.driveArg.drop "file=".toList.length) = launch.overlayPath := by
  have hpath : ',' ∉ launch.overlayPath := by
    intro hmem
    rcases List.mem_append.mp hmem with hdir | hname
    · exact h hdir
    · exact absurd hname (by decide)
  constructor
  · have hfile : "file=".toList.isPrefixOf launch.driveArg = true := by
      apply List.isPrefixOf_iff_prefix.mpr
      unfold QemuLaunch.driveArg
      rw [List.append_assoc]
      exact List.prefix_append _ _
    have hsuffix : ".qcow2".toList <:+: launch.driveArg := by
      refine ⟨"file=".toList ++ launch.workDir.toList ++ "/virtioa".toList,
        ",if=virtio,cache=writeback,format=qcow2".toList, ?_⟩
      unfold QemuLaunch.driveArg QemuLaunch.overlayPath
      simp
    unfold isOverlayArg
    rw [hfile, decide_eq_true hsuffix]
    rfl
  · unfold QemuLaunch.driveArg
    rw [List.append_assoc, List.drop_left]
    exact beforeChar_append hpath _

/-- The flags by which an adoption reads an argv. -/
def readFlags : List Arg :=
  ["-machine".toList, "-uuid".toList, "-serial".toList, "-vnc".toList, "-qmp".toList]

/-- The flags that stand behind the name of the node. -/
def lateFlags : List Arg := ["-uuid".toList, "-serial".toList, "-vnc".toList, "-qmp".toList]

/-- The texts behind the executable that a scan for a flag may take for the flag itself. -/
def QemuLaunch.freeTexts (launch : QemuLaunch) : List Arg :=
  [launch.node.name.toList, launch.uuidArg] ++ launch.isoPath.toList.map String.toList

/-- Whether the options set a flag, or a free text is the flag. -/
def QemuLaunch.Disturbed (launch : QemuLaunch) (options : List Arg) (flag : Arg) : Prop :=
  flag ∈ options ∨ flag ∈ launch.freeTexts

/-- The token after a flag in the argv that is launched. -/
def QemuLaunch.said (launch : QemuLaunch) (devices options : List Arg) (flag : Arg) : Option Arg :=
  saidOf (launch.baseArgs devices) options flag

def QemuLaunch.serialArg? (launch : QemuLaunch) : Option Arg :=
  if launch.node.console = "vnc" then none
  else some ("telnet::".toList ++ intText launch.consolePort ++ ",server,nowait".toList)

def QemuLaunch.vncArg? (launch : QemuLaunch) : Option Arg :=
  if launch.node.console = "vnc" then some (':' :: intText (launch.consolePort - 5900)) else none

/-- A token with a character that no flag has is no flag that is read. -/
theorem unread_of_mem {c : Char} (hc : c ∉ readFlags.flatten) {token : Arg} (h : c ∈ token) :
    token ∉ readFlags := by
  intro hflag
  exact hc (List.mem_flatten.mpr ⟨token, hflag, h⟩)

theorem intText_unread (n : Int) : intText n ∉ readFlags := by
  intro h
  have hletter : ∀ flag ∈ readFlags, 'm' ∈ flag ∨ 'u' ∈ flag ∨ 's' ∈ flag ∨ 'v' ∈ flag := by decide
  rcases hletter _ h with hc | hc | hc | hc
  · exact not_mem_intText (by decide) (by decide) hc
  · exact not_mem_intText (by decide) (by decide) hc
  · exact not_mem_intText (by decide) (by decide) hc
  · exact not_mem_intText (by decide) (by decide) hc

theorem readFlags_of_late {flag : Arg} (h : flag ∈ lateFlags) : flag ∈ readFlags :=
  List.mem_cons_of_mem _ h

theorem machineArg_unread (launch : QemuLaunch) : launch.machineArg ∉ readFlags := by
  refine @unread_of_mem '=' (by decide) _ ?_
  unfold QemuLaunch.machineArg
  rw [List.append_assoc]
  exact List.mem_append_left _ (by decide)

/-- An executable that is launched is no flag that is read. -/
theorem binary_ne_flag {launch : QemuLaunch} {devices options : List Arg} {flag : Arg}
    (hread : flag ∈ readFlags) (hown : flag ∉ options)
    (hexecutable : (firstKept options (launch.baseArgs devices)).any isQemuExecutable = true) :
    launch.binary.toList ≠ flag := by
  intro heq
  have hflags : ∀ flag ∈ readFlags, isQemuExecutable flag = false := by decide
  have hshape : launch.baseArgs devices = flag :: (launch.baseArgs devices).tail := by
    rw [← heq]
    rfl
  unfold firstKept at hexecutable
  rw [hshape, keptTokens_value options (fun _ => hown)] at hexecutable
  have hlaunched : isQemuExecutable flag = true := hexecutable
  rw [hflags flag hread] at hlaunched
  cases hlaunched

theorem name_mem_freeTexts (launch : QemuLaunch) : launch.node.name.toList ∈ launch.freeTexts :=
  List.mem_cons_self

theorem uuid_mem_freeTexts (launch : QemuLaunch) : launch.uuidArg ∈ launch.freeTexts :=
  List.mem_cons_of_mem _ List.mem_cons_self

theorem iso_mem_freeTexts {launch : QemuLaunch} {path : String} (h : launch.isoPath = some path) :
    path.toList ∈ launch.freeTexts := by
  unfold QemuLaunch.freeTexts
  rw [h]
  exact List.mem_append_right _ List.mem_cons_self

theorem late_not_mem_headArgs {launch : QemuLaunch} {flag : Arg} (h : flag ∈ lateFlags)
    (hbinary : launch.binary.toList ≠ flag) (hfree : flag ∉ launch.freeTexts) :
    flag ∉ launch.headArgs := by
  have hread := readFlags_of_late h
  intro hmem
  unfold QemuLaunch.headArgs at hmem
  simp only [List.mem_cons, List.not_mem_nil, or_false] at hmem
  rcases hmem with rfl | rfl | rfl | rfl | rfl | rfl | rfl | rfl | rfl | rfl | rfl
  · exact hbinary rfl
  · exact absurd h (by decide)
  · exact absurd h (by decide)
  · exact absurd h (by decide)
  · exact machineArg_unread launch hread
  · exact absurd h (by decide)
  · exact intText_unread _ hread
  · exact absurd h (by decide)
  · exact intText_unread _ hread
  · exact absurd h (by decide)
  · exact hfree (name_mem_freeTexts launch)

theorem comma_mem_deviceArg (launch : QemuLaunch) (mac : String) (index : Nat) :
    ',' ∈ launch.deviceArg mac index := by
  unfold QemuLaunch.deviceArg
  simp only [List.append_assoc]
  exact List.mem_append_right _ (List.mem_append_left _ (by decide))

/-- The tokens of a NIC are no flags that are read. -/
theorem nicArgs_unread {launch : QemuLaunch} {index : Nat} {tokens : List Arg}
    (h : launch.nicArgs index = some tokens) : ∀ token ∈ tokens, token ∉ readFlags := by
  unfold QemuLaunch.nicArgs at h
  obtain ⟨mac, _, h⟩ := Option.bind_eq_some_iff.mp h
  have hdevice := comma_mem_deviceArg launch mac index
  intro token htoken
  split at h
  next =>
    cases h
    simp only [List.mem_cons, List.not_mem_nil, or_false] at htoken
    rcases htoken with heq | heq | heq | heq
    · rw [heq]
      decide
    · rw [heq]
      exact @unread_of_mem ',' (by decide) _ (List.mem_append_left _ (by decide))
    · rw [heq]
      decide
    · rw [heq]
      exact @unread_of_mem ',' (by decide) _ hdevice
  next =>
    obtain ⟨tap, _, h⟩ := Option.bind_eq_some_iff.mp h
    cases h
    simp only [List.mem_cons, List.not_mem_nil, or_false] at htoken
    rcases htoken with heq | heq | heq | heq
    · rw [heq]
      decide
    · rw [heq]
      exact @unread_of_mem ',' (by decide) _ (List.mem_append_right _ (by decide))
    · rw [heq]
      decide
    · rw [heq]
      exact @unread_of_mem ',' (by decide) _ hdevice

theorem rootPortArgs_unread (launch : QemuLaunch) :
    ∀ token ∈ launch.rootPortArgs, token ∉ readFlags := by
  intro token htoken
  unfold QemuLaunch.rootPortArgs at htoken
  split at htoken
  next =>
    obtain ⟨i, _, htoken⟩ := List.mem_flatMap.mp htoken
    simp only [List.mem_cons, List.not_mem_nil, or_false] at htoken
    rcases htoken with rfl | rfl
    · decide
    · refine @unread_of_mem ',' (by decide) _ ?_
      simp only [List.append_assoc]
      exact List.mem_append_left _ (by decide)
  next => cases htoken

theorem bootArgs_unread {launch : QemuLaunch} {flag : Arg} (hread : flag ∈ readFlags)
    (hfree : flag ∉ launch.freeTexts) : flag ∉ launch.bootArgs := by
  intro hmem
  unfold QemuLaunch.bootArgs at hmem
  rcases List.mem_append.mp hmem with hcdrom | hboot
  · cases hiso : launch.isoPath with
    | none =>
      rw [hiso] at hcdrom
      cases hcdrom
    | some path =>
      rw [hiso] at hcdrom
      simp only [List.mem_cons, List.not_mem_nil, or_false] at hcdrom
      rcases hcdrom with rfl | rfl
      · exact absurd hread (by decide)
      · exact hfree (iso_mem_freeTexts hiso)
  · split at hboot
    next => cases hboot
    next =>
      simp only [List.mem_cons, List.not_mem_nil, or_false] at hboot
      rcases hboot with rfl | rfl
      · exact absurd hread (by decide)
      · exact @unread_of_mem '=' (by decide) _ (List.mem_append_left _ (by decide)) hread

/-- No token of a list of NICs is a flag that is read. -/
theorem nics_unread {launch : QemuLaunch} {indices : List Nat} {nics : List (List Arg)}
    (h : indices.mapM launch.nicArgs = some nics) :
    ∀ token ∈ nics.flatten, token ∉ readFlags := by
  induction indices generalizing nics with
  | nil =>
    cases h
    intro token htoken
    cases htoken
  | cons index rest ih =>
    rw [List.mapM_cons] at h
    obtain ⟨tokens, htokens, h⟩ := Option.bind_eq_some_iff.mp h
    obtain ⟨others, hothers, h⟩ := Option.bind_eq_some_iff.mp h
    cases h
    intro token htoken
    rw [List.flatten_cons] at htoken
    rcases List.mem_append.mp htoken with hhead | htail
    · exact nicArgs_unread htokens token hhead
    · exact ih hothers token htail

theorem deviceArgs_unread {launch : QemuLaunch} {devices : List Arg}
    (h : launch.deviceArgs = some devices) {flag : Arg} (hread : flag ∈ readFlags)
    (hfree : flag ∉ launch.freeTexts) : flag ∉ devices := by
  obtain ⟨nics, hnics, rfl⟩ := Option.map_eq_some_iff.mp h
  intro hmem
  rcases List.mem_append.mp hmem with hfront | hboot
  · rcases List.mem_append.mp hfront with hports | hnic
    · exact rootPortArgs_unread launch flag hports hread
    · exact nics_unread hnics flag hnic hread
  · exact bootArgs_unread hread hfree hboot

/-- The tokens before the console. -/
def QemuLaunch.frontArgs (launch : QemuLaunch) : List Arg :=
  launch.headArgs ++ ["-uuid".toList, launch.uuidArg, "-drive".toList, launch.driveArg] ++
    launch.cpuArgs

theorem driveArg_unread (launch : QemuLaunch) : launch.driveArg ∉ readFlags := by
  refine @unread_of_mem ',' (by decide) _ ?_
  unfold QemuLaunch.driveArg
  exact List.mem_append_right _ (by decide)

theorem qmpArg_unread (launch : QemuLaunch) : launch.qmpArg ∉ readFlags := by
  refine @unread_of_mem ',' (by decide) _ ?_
  unfold QemuLaunch.qmpArg
  exact List.mem_append_right _ (by decide)

theorem cpuArgs_unread (launch : QemuLaunch) : ∀ token ∈ launch.cpuArgs, token ∉ readFlags := by
  unfold QemuLaunch.cpuArgs
  cases launch.kvm with
  | true => decide
  | false => decide

theorem late_not_mem_frontArgs {launch : QemuLaunch} {flag : Arg} (h : flag ∈ lateFlags)
    (huuid : flag ≠ "-uuid".toList) (hbinary : launch.binary.toList ≠ flag)
    (hfree : flag ∉ launch.freeTexts) : flag ∉ launch.frontArgs := by
  have hread := readFlags_of_late h
  intro hmem
  rcases List.mem_append.mp hmem with hfront | hcpu
  · rcases List.mem_append.mp hfront with hhead | hmid
    · exact late_not_mem_headArgs h hbinary hfree hhead
    · simp only [List.mem_cons, List.not_mem_nil, or_false] at hmid
      rcases hmid with heq | heq | heq | heq
      · exact huuid heq
      · exact hfree (heq ▸ uuid_mem_freeTexts launch)
      · rw [heq] at h
        exact absurd h (by decide)
      · exact driveArg_unread launch (heq ▸ hread)
  · exact cpuArgs_unread launch flag hcpu hread

/-- A flag of the launch that nothing disturbs has the launch's own value. -/
theorem saidOf_own {options : List Arg} {flag value : Arg} (hown : flag ∉ options)
    (hvalue : isFlag value = false) {front : List Arg} (hfront : flag ∉ front) (back : List Arg) :
    saidOf (front ++ flag :: value :: back) options flag = some value := by
  rw [saidOf_unset hown, behind_append hfront, Option.bind_some, firstKept_value hvalue]

theorem saidOf_none {options : List Arg} {flag : Arg} (hown : flag ∉ options) {base : List Arg}
    (hbase : flag ∉ base) : saidOf base options flag = none := by
  rw [saidOf_unset hown, behind_none hbase]
  rfl

theorem isFlag_append {c : Char} (hc : c ≠ '-') (text rest : List Char) :
    isFlag ((c :: text) ++ rest) = false := by
  apply beq_eq_false_iff_ne.mpr
  intro h
  exact hc (Option.some.inj h)

/-- The value of `-machine` in the argv. -/
theorem machine_said {launch : QemuLaunch} {devices options : List Arg}
    (hbinary : launch.binary.toList ≠ "-machine".toList) (hown : "-machine".toList ∉ options) :
    launch.said devices options "-machine".toList = some launch.machineArg := by
  have hshape : launch.baseArgs devices =
      [launch.binary.toList, "-display".toList, "none".toList] ++ "-machine".toList ::
        launch.machineArg :: ((launch.baseArgs devices).drop 5) := rfl
  have hvalue : isFlag launch.machineArg = false := by
    unfold QemuLaunch.machineArg
    rw [List.append_assoc]
    exact isFlag_append (by decide) _ _
  unfold QemuLaunch.said
  rw [hshape]
  refine saidOf_own hown hvalue ?_ _
  intro hmem
  simp only [List.mem_cons, List.not_mem_nil, or_false] at hmem
  rcases hmem with heq | heq | heq
  · exact hbinary heq.symm
  · exact absurd heq (by decide)
  · exact absurd heq (by decide)

theorem qmp_not_mem_consoleArgs (launch : QemuLaunch) : "-qmp".toList ∉ launch.consoleArgs := by
  intro hmem
  unfold QemuLaunch.consoleArgs at hmem
  split at hmem
  next =>
    simp only [List.mem_cons, List.not_mem_nil, or_false] at hmem
    rcases hmem with heq | heq
    · exact absurd heq (by decide)
    · cases heq
  next =>
    simp only [List.mem_cons, List.not_mem_nil, or_false] at hmem
    rcases hmem with heq | heq
    · exact absurd heq (by decide)
    · have hhead : some '-' = some 't' := congrArg List.head? heq
      exact absurd hhead (by decide)

/-- The value of `-qmp` in the argv. -/
theorem qmp_said {launch : QemuLaunch} {devices options : List Arg}
    (hbinary : launch.binary.toList ≠ "-qmp".toList)
    (hplain : ¬ launch.Disturbed options "-qmp".toList) :
    launch.said devices options "-qmp".toList = some launch.qmpArg := by
  obtain ⟨hown, hfree⟩ := not_or.mp hplain
  have hshape : launch.baseArgs devices = (launch.frontArgs ++ launch.consoleArgs) ++
      "-qmp".toList :: launch.qmpArg :: devices := by
    unfold QemuLaunch.baseArgs QemuLaunch.frontArgs
    simp only [List.append_assoc, List.cons_append, List.nil_append]
  have hvalue : isFlag launch.qmpArg = false := by
    unfold QemuLaunch.qmpArg
    rw [List.append_assoc]
    exact isFlag_append (by decide) _ _
  unfold QemuLaunch.said
  rw [hshape]
  refine saidOf_own hown hvalue ?_ _
  intro hmem
  rcases List.mem_append.mp hmem with hfront | hconsole
  · exact late_not_mem_frontArgs (by decide) (by decide) hbinary hfree hfront
  · exact qmp_not_mem_consoleArgs launch hconsole

def consoleFlags : List Arg := ["-serial".toList, "-vnc".toList]

/-- The values of the two console flags in the argv. -/
theorem console_said {launch : QemuLaunch} {devices options : List Arg}
    (hdevices : launch.deviceArgs = some devices)
    (hbinary : ∀ flag ∈ consoleFlags, launch.binary.toList ≠ flag)
    (hplain : ∀ flag ∈ consoleFlags, ¬ launch.Disturbed options flag) :
    launch.said devices options "-serial".toList = launch.serialArg? ∧
      launch.said devices options "-vnc".toList = launch.vncArg? := by
  have hshape : launch.baseArgs devices =
      launch.frontArgs ++ (launch.consoleArgs ++ "-qmp".toList :: launch.qmpArg :: devices) := by
    unfold QemuLaunch.baseArgs QemuLaunch.frontArgs
    simp only [List.append_assoc, List.cons_append, List.nil_append]
  obtain ⟨hownSerial, hfreeSerial⟩ := not_or.mp (hplain "-serial".toList (by decide))
  obtain ⟨hownVnc, hfreeVnc⟩ := not_or.mp (hplain "-vnc".toList (by decide))
  have hserial := @late_not_mem_frontArgs launch "-serial".toList (by decide) (by decide)
    (hbinary _ (by decide)) hfreeSerial
  have hvnc := @late_not_mem_frontArgs launch "-vnc".toList (by decide) (by decide)
    (hbinary _ (by decide)) hfreeVnc
  have hback : ∀ flag ∈ readFlags, flag ∉ launch.freeTexts → flag ≠ "-qmp".toList →
      flag ∉ "-qmp".toList :: launch.qmpArg :: devices := by
    intro flag hread hfree hne hmem
    rcases List.mem_cons.mp hmem with heq | hmem
    · exact hne heq
    rcases List.mem_cons.mp hmem with heq | hmem
    · exact qmpArg_unread launch (heq ▸ hread)
    · exact deviceArgs_unread hdevices hread hfree hmem
  unfold QemuLaunch.said
  rw [hshape]
  unfold QemuLaunch.consoleArgs QemuLaunch.serialArg? QemuLaunch.vncArg?
  split
  next =>
    constructor
    · apply saidOf_none hownSerial
      intro hmem
      rcases List.mem_append.mp hmem with hfront | hmem
      · exact hserial hfront
      rcases List.mem_append.mp hmem with hown | hmem
      · simp only [List.mem_cons, List.not_mem_nil, or_false] at hown
        rcases hown with heq | heq
        · exact absurd heq (by decide)
        · have hhead : some '-' = some ':' := congrArg List.head? heq
          exact absurd hhead (by decide)
      · exact hback _ (by decide) hfreeSerial (by decide) hmem
    · exact saidOf_own hownVnc rfl hvnc _
  next =>
    have hvalue : isFlag ("telnet::".toList ++ intText launch.consolePort ++
        ",server,nowait".toList) = false := by
      rw [List.append_assoc]
      exact isFlag_append (by decide) _ _
    constructor
    · exact saidOf_own hownSerial hvalue hserial _
    · apply saidOf_none hownVnc
      intro hmem
      rcases List.mem_append.mp hmem with hfront | hmem
      · exact hvnc hfront
      rcases List.mem_append.mp hmem with hown | hmem
      · simp only [List.mem_cons, List.not_mem_nil, or_false] at hown
        rcases hown with heq | heq
        · exact absurd heq (by decide)
        · have hhead : some '-' = some 't' := congrArg List.head? heq
          exact absurd hhead (by decide)
      · exact hback _ (by decide) hfreeVnc (by decide) hmem

end NovaVe
