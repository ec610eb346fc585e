import NovaVe.AdoptionFlags

namespace NovaVe

/-- A value of the launch, unless the options set its flag. -/
def ownText (options : List Arg) (flag value : Arg) : List Arg :=
  if options.contains flag then [] else [value]

theorem ownText_unset {options : List Arg} {flag : Arg} (h : flag ∉ options) (value : Arg) :
    ownText options flag value = [value] := by
  rw [ownText, if_neg (fun hset => h (List.contains_iff_mem.mp hset))]

/-- A text that is no overlay stays none, whether the options set its flag or not. -/
theorem ownText_silent {value : Arg} (h : ¬ isOverlayArg value = true) (options : List Arg)
    (flag : Arg) : (ownText options flag value).find? isOverlayArg = none := by
  unfold ownText
  split
  next => rfl
  next => rw [List.find?_cons_of_neg h, List.find?_nil]

/-- The tokens of the argv that a scan may take for the overlay. -/
def QemuLaunch.diskTexts (launch : QemuLaunch) (devices options : List Arg) : List Arg :=
  launch.binary.toList :: (ownText options "-name".toList launch.node.name.toList ++
    ownText options "-uuid".toList launch.uuidArg ++
    ownText options "-drive".toList launch.driveArg ++ keptTokens options false devices ++ options)

/-- Whether the options set the drive, or a text before it looks like one. -/
def QemuLaunch.DriveDisturbed (launch : QemuLaunch) (options : List Arg) : Prop :=
  "-drive".toList ∈ options ∨
    ∃ text ∈ [launch.binary.toList, launch.node.name.toList, launch.uuidArg],
      isOverlayArg text = true

/-- Tokens that begin with a flag, if there are any. -/
def FlagFirst (tokens : List Arg) : Prop := ∀ token ∈ tokens.head?, isFlag token = true

theorem flagFirst_append {front back : List Arg} (hfront : FlagFirst front) (hback : FlagFirst back) :
    FlagFirst (front ++ back) := by
  cases front with
  | nil => exact hback
  | cons first rest => exact hfront

theorem flagFirst_flatten {lists : List (List Arg)} (h : ∀ tokens ∈ lists, FlagFirst tokens) :
    FlagFirst lists.flatten := by
  induction lists with
  | nil => simp [FlagFirst]
  | cons tokens rest ih =>
    rw [List.flatten_cons]
    exact flagFirst_append (h tokens List.mem_cons_self)
      (ih (fun tokens hmem => h tokens (List.mem_cons_of_mem _ hmem)))

theorem flagFirst_cons {token : Arg} (h : isFlag token = true) (rest : List Arg) :
    FlagFirst (token :: rest) := by
  intro first hfirst
  cases hfirst
  exact h

theorem flagFirst_nicArgs {launch : QemuLaunch} {index : Nat} {tokens : List Arg}
    (h : launch.nicArgs index = some tokens) : FlagFirst tokens := by
  unfold QemuLaunch.nicArgs at h
  obtain ⟨mac, _, h⟩ := Option.bind_eq_some_iff.mp h
  split at h
  next =>
    cases h
    exact flagFirst_cons rfl _
  next =>
    obtain ⟨tap, _, h⟩ := Option.bind_eq_some_iff.mp h
    cases h
    exact flagFirst_cons rfl _

theorem flagFirst_nics {launch : QemuLaunch} {indices : List Nat} {nics : List (List Arg)}
    (h : indices.mapM launch.nicArgs = some nics) : FlagFirst nics.flatten := by
  induction indices generalizing nics with
  | nil =>
    cases h
    simp [FlagFirst]
  | cons index rest ih =>
    rw [List.mapM_cons] at h
    obtain ⟨tokens, htokens, h⟩ := Option.bind_eq_some_iff.mp h
    obtain ⟨others, hothers, h⟩ := Option.bind_eq_some_iff.mp h
    cases h
    rw [List.flatten_cons]
    exact flagFirst_append (flagFirst_nicArgs htokens) (ih hothers)

/-- The tokens behind the QMP socket begin with a flag. -/
theorem flagFirst_deviceArgs {launch : QemuLaunch} {devices : List Arg}
    (h : launch.deviceArgs = some devices) : FlagFirst devices := by
  obtain ⟨nics, hnics, rfl⟩ := Option.map_eq_some_iff.mp h
  have hports : FlagFirst launch.rootPortArgs := by
    unfold QemuLaunch.rootPortArgs
    split
    next =>
      rw [List.flatMap_def]
      apply flagFirst_flatten
      intro tokens htokens
      obtain ⟨i, _, rfl⟩ := List.mem_map.mp htokens
      exact flagFirst_cons rfl _
    next => simp [FlagFirst]
  have hboot : FlagFirst launch.bootArgs := by
    unfold QemuLaunch.bootArgs
    apply flagFirst_append
    · cases launch.isoPath with
      | none => simp [FlagFirst]
      | some path => exact flagFirst_cons rfl _
    · split
      next => simp [FlagFirst]
      next => exact flagFirst_cons rfl _
  exact flagFirst_append (flagFirst_append hports (flagFirst_nics hnics)) hboot

/-- What goes before a flag does not matter to what is kept from it on. -/
theorem keptTokens_flagFirst {tokens : List Arg} (h : FlagFirst tokens) (options : List Arg)
    (dropping : Bool) : keptTokens options dropping tokens = keptTokens options false tokens := by
  cases tokens with
  | nil => simp [keptTokens]
  | cons first rest => rw [keptTokens, keptTokens, if_pos (h first rfl), if_pos (h first rfl)]

theorem not_overlay_of_head {c : Char} (hc : c ≠ 'f') (text : List Char) :
    isOverlayArg (c :: text) = false := by
  have hfile : "file=".toList.isPrefixOf (c :: text) = false := by
    apply eq_false_of_ne_true
    intro h
    obtain ⟨rest, hrest⟩ := List.isPrefixOf_iff_prefix.mp h
    have hhead : some 'f' = some c := congrArg List.head? hrest
    exact hc (Option.some.inj hhead).symm
  unfold isOverlayArg
  rw [hfile]
  rfl

theorem not_overlay_flag {token : Arg} (h : isFlag token = true) : isOverlayArg token = false := by
  cases token with
  | nil => cases h
  | cons c text =>
    have hc : c = '-' := Option.some.inj (eq_of_beq h)
    rw [hc]
    exact not_overlay_of_head (by decide) text

theorem not_overlay_intText (n : Int) : isOverlayArg (intText n) = false := by
  apply eq_false_of_ne_true
  intro h
  have hfile := (Bool.and_eq_true_iff.mp h).1
  have hmem : 'f' ∈ intText n := (List.isPrefixOf_iff_prefix.mp hfile).subset (by decide)
  exact not_mem_intText (by decide) (by decide) hmem

/-- A flag with its value in a scan for the overlay: the value counts unless the options set the
flag. -/
theorem find_pair {options : List Arg} {flag : Arg} (hflag : isFlag flag = true) (value : Arg)
    {back : List Arg} (hback : FlagFirst back) (dropping : Bool) :
    (keptTokens options dropping (flag :: value :: back)).find? isOverlayArg =
      ((ownText options flag value).find? isOverlayArg).or
        ((keptTokens options false back).find? isOverlayArg) := by
  have hnot : ¬ isOverlayArg flag = true := by
    rw [not_overlay_flag hflag]
    simp
  have hkept := keptTokens_flagFirst hback options true
  rw [keptTokens, if_pos hflag]
  cases hvalue : isFlag value with
  | true =>
    -- a value that is a flag itself is no overlay, and the next flag makes up for what it drops
    have hsilent : ¬ isOverlayArg value = true := by
      rw [not_overlay_flag hvalue]
      simp
    have hrest : ∀ dropping, (keptTokens options dropping (value :: back)).find? isOverlayArg =
        (keptTokens options false back).find? isOverlayArg := by
      intro dropping
      rw [keptTokens, if_pos hvalue]
      split
      next => rw [hkept]
      next =>
        rw [List.find?_cons_of_neg hsilent]
    rw [ownText_silent hsilent, Option.none_or]
    split
    next => exact hrest true
    next => rw [List.find?_cons_of_neg hnot, hrest false]
  | false =>
    by_cases hover : flag ∈ options
    · have hset := List.contains_iff_mem.mpr hover
      rw [ownText, if_pos hset, if_pos hset, keptTokens, hvalue, hkept]
      rfl
    · rw [ownText_unset hover, if_neg (fun h => hover (List.contains_iff_mem.mp h)),
        List.find?_cons_of_neg hnot, keptTokens, hvalue, ← List.find?_append]
      rfl

/-- A pair whose value is no overlay is passed over. -/
theorem find_pass {options : List Arg} {flag value : Arg} (hflag : isFlag flag = true)
    (hvalue : isOverlayArg value = false) {back : List Arg} (hback : FlagFirst back) :
    (keptTokens options false (flag :: value :: back)).find? isOverlayArg =
      (keptTokens options false back).find? isOverlayArg := by
  have hsilent : ¬ isOverlayArg value = true := by
    rw [hvalue]
    simp
  rw [find_pair hflag value hback, ownText_silent hsilent, Option.none_or]

/-- The executable in a scan for the overlay. -/
theorem find_first {options back : List Arg} (first : Arg) (hback : FlagFirst back) :
    (keptTokens options false (first :: back)).find? isOverlayArg =
      ([first].find? isOverlayArg).or ((keptTokens options false back).find? isOverlayArg) := by
  cases hfirst : isFlag first with
  | true =>
    have hnot := not_overlay_flag hfirst
    rw [List.find?_singleton, hnot, keptTokens, if_pos hfirst]
    split
    next =>
      rw [keptTokens_flagFirst hback]
      rfl
    next =>
      rw [List.find?_cons_of_neg (by rw [hnot]; simp)]
      rfl
  | false =>
    rw [keptTokens_value options (fun h => by
      rw [hfirst] at h
      cases h), ← List.find?_append]
    rfl

theorem not_overlay_console (launch : QemuLaunch) :
    ∃ flag value, launch.consoleArgs = [flag, value] ∧ isFlag flag = true ∧
      isOverlayArg value = false := by
  unfold QemuLaunch.consoleArgs
  split
  next => exact ⟨_, _, rfl, rfl, not_overlay_of_head (by decide) _⟩
  next =>
    refine ⟨_, _, rfl, rfl, ?_⟩
    rw [List.append_assoc]
    exact not_overlay_of_head (by decide) _

theorem not_overlay_cpu (launch : QemuLaunch) :
    ∃ value, launch.cpuArgs = ["-cpu".toList, value] ∧ isOverlayArg value = false := by
  refine ⟨_, rfl, ?_⟩
  cases launch.kvm with
  | true => exact not_overlay_of_head (by decide) _
  | false => exact not_overlay_of_head (by decide) _

/-- The tokens from the processor to the QMP socket hold no overlay. -/
theorem find_middle {launch : QemuLaunch} {options devices : List Arg} (hdevices : FlagFirst devices) :
    (keptTokens options false (launch.cpuArgs ++ launch.consoleArgs ++
        ["-qmp".toList, launch.qmpArg] ++ devices)).find? isOverlayArg =
      (keptTokens options false devices).find? isOverlayArg := by
  obtain ⟨cpu, hcpu, hcpuValue⟩ := not_overlay_cpu launch
  obtain ⟨flag, value, hconsole, hflag, hvalue⟩ := not_overlay_console launch
  have hqmp : isOverlayArg launch.qmpArg = false := by
    unfold QemuLaunch.qmpArg
    rw [List.append_assoc]
    exact not_overlay_of_head (by decide) _
  rw [hcpu, hconsole]
  simp only [List.cons_append, List.nil_append]
  rw [find_pass rfl hcpuValue (flagFirst_cons hflag _), find_pass hflag hvalue (flagFirst_cons rfl _),
    find_pass rfl hqmp hdevices]

/-- The overlay that an adoption finds in the argv. -/
theorem overlay_said {launch : QemuLaunch} {devices : List Arg}
    (hdevices : launch.deviceArgs = some devices) (options : List Arg) :
    overlayOf (mergeGroups (launch.baseArgs devices) options) =
      overlayOf (launch.diskTexts devices options) := by
  have hfirst := flagFirst_deviceArgs hdevices
  have hshape : launch.baseArgs devices = launch.binary.toList :: "-display".toList ::
      "none".toList :: "-machine".toList :: launch.machineArg :: "-smp".toList ::
      intText launch.node.cpu :: "-m".toList :: intText launch.node.ram :: "-name".toList ::
      launch.node.name.toList :: "-uuid".toList :: launch.uuidArg :: "-drive".toList ::
      launch.driveArg :: (launch.cpuArgs ++ launch.consoleArgs ++ ["-qmp".toList, launch.qmpArg] ++
        devices) := by
    unfold QemuLaunch.baseArgs QemuLaunch.headArgs
    simp only [List.append_assoc, List.cons_append, List.nil_append]
  have hnone : isOverlayArg "none".toList = false := not_overlay_of_head (by decide) _
  have hmachine : isOverlayArg launch.machineArg = false := by
    unfold QemuLaunch.machineArg
    rw [List.append_assoc]
    exact not_overlay_of_head (by decide) _
  have hmiddle : FlagFirst (launch.cpuArgs ++ launch.consoleArgs ++
      ["-qmp".toList, launch.qmpArg] ++ devices) := flagFirst_cons rfl _
  have hfind : (keptTokens options false (launch.baseArgs devices) ++ options).find? isOverlayArg =
      (launch.diskTexts devices options).find? isOverlayArg := by
    rw [hshape, List.find?_append, find_first _ (flagFirst_cons rfl _),
      find_pass rfl hnone (flagFirst_cons rfl _), find_pass rfl hmachine (flagFirst_cons rfl _),
      find_pass rfl (not_overlay_intText _) (flagFirst_cons rfl _),
      find_pass rfl (not_overlay_intText _) (flagFirst_cons rfl _),
      find_pair rfl _ (flagFirst_cons rfl _), find_pair rfl _ (flagFirst_cons rfl _),
      find_pair rfl _ hmiddle, find_middle hfirst]
    have htexts : launch.diskTexts devices options = [launch.binary.toList] ++
        (ownText options "-name".toList launch.node.name.toList ++
          ownText options "-uuid".toList launch.uuidArg ++
          ownText options "-drive".toList launch.driveArg ++ keptTokens options false devices ++
          options) := rfl
    simp only [htexts, List.find?_append, Option.or_assoc]
  rw [mergeGroups_eq]
  unfold overlayOf
  rw [hfind]

/-- Without a disturbance the overlay is the launch's own. -/
theorem overlay_own {launch : QemuLaunch} {devices options : List Arg}
    (hcomma : ',' ∉ launch.workDir.toList) (hplain : ¬ launch.DriveDisturbed options) :
    overlayOf (launch.diskTexts devices options) = launch.overlayPath := by
  obtain ⟨hdrive, htexts⟩ := not_or.mp hplain
  have hsilent : ∀ text ∈ [launch.binary.toList, launch.node.name.toList, launch.uuidArg],
      ¬ isOverlayArg text = true := fun text hmem h => htexts ⟨text, hmem, h⟩
  have hown : ∀ (flag : Arg), ∀ text ∈ [launch.binary.toList, launch.node.name.toList, launch.uuidArg],
      (ownText options flag text).find? isOverlayArg = none := by
    intro flag text hmem
    exact ownText_silent (hsilent text hmem) options flag
  have hfound := overlay_driveArg launch hcomma
  have hkept : ownText options "-drive".toList launch.driveArg = [launch.driveArg] :=
    ownText_unset hdrive _
  unfold overlayOf QemuLaunch.diskTexts
  rw [List.find?_cons_of_neg (hsilent _ (by simp)), List.append_assoc, List.append_assoc,
    List.append_assoc, List.find?_append, hown _ _ (by simp), Option.none_or, List.find?_append,
    hown _ _ (by simp), Option.none_or, hkept, List.singleton_append,
    List.find?_cons_of_pos hfound.1]
  exact hfound.2

end NovaVe
