import NovaVe.QemuCommand

namespace NovaVe

variable {options : List Arg} {flag : Arg}

/-- The tokens of a base command that a merge keeps; `dropping` is set behind a flag that goes. -/
def keptTokens (options : List Arg) : Bool → List Arg → List Arg
  | _, [] => []
  | dropping, token :: rest =>
    if isFlag token then
      if options.contains token then keptTokens options true rest
      else token :: keptTokens options false rest
    else if dropping then keptTokens options true rest
    else token :: keptTokens options false rest

def groupTokens (groups : List (Arg × List Arg)) : List Arg :=
  groups.flatMap (fun group => group.1 :: group.2)

/-- Grouping loses no token. -/
theorem groupTokens_parse (tokens : List Arg) (current : Option (Arg × List Arg)) :
    groupTokens (parseQemuTokens tokens current) = groupTokens current.toList ++ tokens := by
  induction tokens generalizing current with
  | nil => simp [parseQemuTokens]
  | cons token rest ih =>
    unfold parseQemuTokens
    split
    next =>
      have hrest := ih (some (token, []))
      simp only [groupTokens] at hrest ⊢
      rw [List.flatMap_append, hrest]
      simp
    next =>
      cases current with
      | none =>
        have hrest := ih none
        simp only [groupTokens] at hrest ⊢
        rw [List.flatMap_cons, hrest]
        simp
      | some group =>
        have hrest := ih (some (group.1, group.2 ++ [token]))
        simp only [groupTokens] at hrest ⊢
        rw [hrest]
        simp

/-- The flags among the tokens are the flags of the groups. -/
theorem parse_flags (tokens : List Arg) (current : Option (Arg × List Arg))
    (hcurrent : ∀ group ∈ current, isFlag group.1 = true) :
    ((parseQemuTokens tokens current).map Prod.fst).filter isFlag =
      (current.toList.map Prod.fst) ++ tokens.filter isFlag := by
  induction tokens generalizing current with
  | nil =>
    cases current with
    | none => rfl
    | some group =>
      have hgroup := hcurrent group rfl
      simp [parseQemuTokens, hgroup]
  | cons token rest ih =>
    unfold parseQemuTokens
    split
    next hflag =>
      have hrest := ih (some (token, [])) (by
        intro group hgroup
        cases hgroup
        exact hflag)
      rw [List.map_append, List.filter_append, hrest, List.filter_cons_of_pos hflag]
      cases current with
      | none => rfl
      | some group =>
        have hgroup := hcurrent group rfl
        simp [hgroup]
    next hflag =>
      rw [List.filter_cons_of_neg hflag]
      cases current with
      | none =>
        have hrest := ih none hcurrent
        dsimp only
        rw [List.map_cons, List.filter_cons_of_neg hflag, hrest]
      | some group =>
        exact ih (some (group.1, group.2 ++ [token])) (by
          intro group' hgroup
          cases hgroup
          exact hcurrent group rfl)

theorem mem_overrideFlags :
    flag ∈ overrideFlags options ↔ isFlag flag = true ∧ flag ∈ options := by
  unfold overrideFlags
  rw [parse_flags options none (by simp)]
  simp [and_comm]

theorem overrideFlags_contains (hflag : isFlag flag = true) :
    (overrideFlags options).contains flag = options.contains flag := by
  rw [Bool.eq_iff_iff, List.contains_iff_mem, List.contains_iff_mem, mem_overrideFlags]
  simp [hflag]

theorem overrideFlags_not_contains {token : Arg} (htoken : isFlag token = false) :
    (overrideFlags options).contains token = false := by
  apply eq_false_of_ne_true
  intro h
  have hmem := (mem_overrideFlags.mp (List.contains_iff_mem.mp h)).1
  rw [htoken] at hmem
  exact absurd hmem (by simp)

theorem filter_current (options : List Arg) {current : Option (Arg × List Arg)}
    (hcurrent : ∀ group ∈ current, isFlag group.1 = true) :
    current.toList.filter (fun group => !(overrideFlags options).contains group.1) =
      current.toList.filter (fun group => !options.contains group.1) := by
  apply List.filter_congr
  intro group hgroup
  rw [overrideFlags_contains (hcurrent group (Option.mem_toList.mp hgroup))]

/-- The groups that a merge keeps, behind a current flag. -/
theorem kept_groups (options tokens : List Arg) (current : Option (Arg × List Arg))
    (hcurrent : ∀ group ∈ current, isFlag group.1 = true) :
    groupTokens ((parseQemuTokens tokens current).filter
        (fun group => !(overrideFlags options).contains group.1)) =
      groupTokens (current.toList.filter (fun group => !options.contains group.1)) ++
        keptTokens options (current.any (fun group => options.contains group.1)) tokens := by
  induction tokens generalizing current with
  | nil =>
    unfold parseQemuTokens keptTokens
    rw [filter_current options hcurrent, List.append_nil]
  | cons token rest ih =>
    unfold parseQemuTokens
    split
    next hflag =>
      have hrest := ih (some (token, [])) (by
        intro group hgroup
        cases hgroup
        exact hflag)
      rw [List.filter_append, filter_current options hcurrent]
      unfold keptTokens
      rw [if_pos hflag]
      unfold groupTokens at hrest ⊢
      rw [List.flatMap_append, hrest]
      cases hover : options.contains token with
      | true => simp only [Option.toList_some, List.filter_cons, hover, Option.any_some]; simp
      | false => simp only [Option.toList_some, List.filter_cons, hover, Option.any_some]; simp
    next hflag =>
      have htoken : isFlag token = false := eq_false_of_ne_true hflag
      unfold keptTokens
      rw [if_neg hflag]
      cases current with
      | none =>
        have hrest := ih none hcurrent
        have hkeep := @overrideFlags_not_contains options token htoken
        dsimp only
        rw [List.filter_cons, hkeep]
        unfold groupTokens at hrest ⊢
        simp only [Bool.not_false, if_true, List.flatMap_cons, hrest]
        simp
      | some group =>
        have hrest := ih (some (group.1, group.2 ++ [token])) (by
          intro group' hgroup
          cases hgroup
          exact hcurrent group rfl)
        dsimp only
        rw [hrest]
        unfold groupTokens
        cases hover : options.contains group.1 with
        | true => simp only [Option.toList_some, List.filter_cons, hover, Option.any_some]; simp
        | false => simp only [Option.toList_some, List.filter_cons, hover, Option.any_some]; simp

/-- A merge keeps the tokens whose flag the options do not set, and puts the options behind them. -/
theorem mergeGroups_eq (base options : List Arg) :
    mergeGroups base options = keptTokens options false base ++ options := by
  have hbase := kept_groups options base none (by simp)
  have hoptions := groupTokens_parse options none
  unfold mergeGroups
  rw [List.flatMap_append]
  unfold groupTokens at hbase hoptions
  rw [hbase, hoptions]
  rfl

/-- Without options a merge changes nothing. -/
theorem mergeGroups_nil (base : List Arg) : mergeGroups base [] = base := by
  have hkeep : (parseQemuTokens base none).filter
      (fun group => !(overrideFlags []).contains group.1) = parseQemuTokens base none :=
    List.filter_eq_self.mpr (fun _ _ => rfl)
  have hall := groupTokens_parse base none
  unfold mergeGroups
  rw [hkeep]
  show groupTokens (parseQemuTokens base none ++ []) = base
  rw [List.append_nil, hall]
  rfl

/-- A flag that the options set is not kept. -/
theorem overridden_not_kept (hflag : isFlag flag = true) (hover : flag ∈ options) (dropping : Bool)
    (tokens : List Arg) :
    flag ∉ keptTokens options dropping tokens := by
  induction tokens generalizing dropping with
  | nil => simp [keptTokens]
  | cons first rest ih =>
    intro h
    unfold keptTokens at h
    split at h
    next =>
      split at h
      next => exact ih _ h
      next hkept =>
        rcases List.mem_cons.mp h with rfl | hrest
        · exact hkept (List.contains_iff_mem.mpr hover)
        · exact ih _ hrest
    next hnot =>
      split at h
      next => exact ih _ h
      next =>
        rcases List.mem_cons.mp h with rfl | hrest
        · exact hnot hflag
        · exact ih _ hrest

/-- A value that is no overridden flag is kept with its flag. -/
theorem keptTokens_value (options : List Arg) {value : Arg}
    (hvalue : isFlag value = true → value ∉ options) (back : List Arg) :
    keptTokens options false (value :: back) = value :: keptTokens options false back := by
  rw [keptTokens]
  split
  next hflag => rw [if_neg (fun h => hvalue hflag (List.contains_iff_mem.mp h))]
  next => rw [if_neg (by simp)]

theorem argAfter_append {front : List Arg} (h : flag ∉ front) (back : List Arg) :
    argAfter (front ++ back) flag = argAfter back flag := by
  induction front with
  | nil => rfl
  | cons first rest ih =>
    have hfirst : first ≠ flag := by
      intro heq
      exact h (heq ▸ List.mem_cons_self)
    rw [List.cons_append, argAfter, if_neg hfirst]
    exact ih (fun hmem => h (List.mem_cons_of_mem _ hmem))

/-- After a merge a flag that the options set has their value. -/
theorem argAfter_overridden (hflag : isFlag flag = true) (hover : flag ∈ options) (base : List Arg) :
    argAfter (mergeGroups base options) flag = argAfter options flag := by
  rw [mergeGroups_eq, argAfter_append (overridden_not_kept hflag hover _ _)]

theorem argAfter_none {tokens : List Arg} (h : flag ∉ tokens) :
    argAfter tokens flag = none := by
  have hnil := argAfter_append h []
  rw [List.append_nil] at hnil
  rw [hnil]
  rfl

/-- The tokens behind the first instance of a flag. -/
def behind (flag : Arg) : List Arg → Option (List Arg)
  | [] => none
  | token :: rest => if token = flag then some rest else behind flag rest

/-- The first token that a merge keeps of a list, or else the first of the options. -/
def firstKept (options tokens : List Arg) : Option Arg :=
  (keptTokens options false tokens ++ options).head?

/-- The token after a flag when the options are merged in: the options' own if they set it, else
what is kept first behind its first instance. -/
def saidOf (base options : List Arg) (flag : Arg) : Option Arg :=
  if options.contains flag then argAfter options flag
  else (behind flag base).bind (firstKept options)

theorem saidOf_set (h : flag ∈ options) (base : List Arg) :
    saidOf base options flag = argAfter options flag := by
  rw [saidOf, if_pos (List.contains_iff_mem.mpr h)]

theorem saidOf_unset (h : flag ∉ options) (base : List Arg) :
    saidOf base options flag = (behind flag base).bind (firstKept options) := by
  rw [saidOf, if_neg (fun hset => h (List.contains_iff_mem.mp hset))]

theorem argAfter_kept (hflag : isFlag flag = true) (hown : flag ∉ options) (dropping : Bool)
    (base : List Arg) :
    argAfter (keptTokens options dropping base ++ options) flag =
      (behind flag base).bind (firstKept options) := by
  induction base generalizing dropping with
  | nil => exact argAfter_none hown
  | cons token rest ih =>
    unfold keptTokens behind
    by_cases heq : token = flag
    · rw [if_pos heq, heq, if_pos hflag, if_neg (fun h => hown (List.contains_iff_mem.mp h)),
        List.cons_append, argAfter, if_pos rfl]
      rfl
    · rw [if_neg heq]
      split
      next =>
        split
        next => exact ih true
        next => rw [List.cons_append, argAfter, if_neg heq, ih false]
      next =>
        split
        next => exact ih true
        next => rw [List.cons_append, argAfter, if_neg heq, ih false]

/-- What a scan finds behind a flag of a merged argv. -/
theorem argAfter_mergeGroups (hflag : isFlag flag = true) (base options : List Arg) :
    argAfter (mergeGroups base options) flag = saidOf base options flag := by
  by_cases hown : flag ∈ options
  · rw [saidOf_set hown]
    exact argAfter_overridden hflag hown base
  · rw [saidOf_unset hown, mergeGroups_eq]
    exact argAfter_kept hflag hown false base

theorem behind_append {front : List Arg} (h : flag ∉ front) (back : List Arg) :
    behind flag (front ++ flag :: back) = some back := by
  induction front with
  | nil => exact if_pos rfl
  | cons first rest ih =>
    have hfirst : first ≠ flag := by
      intro heq
      exact h (heq ▸ List.mem_cons_self)
    rw [List.cons_append, behind, if_neg hfirst]
    exact ih (fun hmem => h (List.mem_cons_of_mem _ hmem))

theorem behind_none {tokens : List Arg} (h : flag ∉ tokens) :
    behind flag tokens = none := by
  induction tokens with
  | nil => rfl
  | cons first rest ih =>
    have hfirst : first ≠ flag := by
      intro heq
      exact h (heq ▸ List.mem_cons_self)
    rw [behind, if_neg hfirst]
    exact ih (fun hmem => h (List.mem_cons_of_mem _ hmem))

theorem firstKept_value {value : Arg} (hvalue : isFlag value = false) (back : List Arg) :
    firstKept options (value :: back) = some value := by
  unfold firstKept
  rw [keptTokens_value options (fun h => by
    rw [hvalue] at h
    cases h)]
  rfl

end NovaVe
