import NovaVe.AdoptionInverts
import NovaVe.MergedArgs

namespace NovaVe

/-- A group whose flag the extra tokens do not name. -/
def Unnamed (extraTokens : List Arg) (group : Arg × List Arg) : Bool :=
  !(overrideFlags extraTokens).contains group.1

/-- What a merge promises: the groups of the base that the extras do not name, then those of the
extras; the values of a base flag stay its own; no extras change nothing, nor do the same extras
again. -/
structure MergeLaw (base extraTokens : List Arg) : Prop where
  groups : parseQemuTokens (mergeGroups base extraTokens) none =
    (parseQemuTokens base none).filter (Unnamed extraTokens) ++ parseQemuTokens extraTokens none
  values : ∀ group ∈ parseQemuTokens (mergeGroups base extraTokens) none,
    isFlag group.1 = true → group.1 ∉ extraTokens → group ∈ parseQemuTokens base none
  empty : mergeGroups base [] = base
  twice : mergeGroups (mergeGroups base extraTokens) extraTokens = mergeGroups base extraTokens

/-- A flag with values that are no flags. -/
def FlagGroup (group : Arg × List Arg) : Prop :=
  isFlag group.1 = true ∧ ∀ value ∈ group.2, isFlag value = false

theorem mergeGroups_tokens (base extraTokens : List Arg) :
    mergeGroups base extraTokens = groupTokens
      ((parseQemuTokens base none).filter (Unnamed extraTokens) ++
        parseQemuTokens extraTokens none) := rfl

/-- Behind a flag all groups are flags with their values. -/
theorem flagGroups_parse (tokens : List Arg) {current : Arg × List Arg} (h : FlagGroup current) :
    ∀ group ∈ parseQemuTokens tokens (some current), FlagGroup group := by
  induction tokens generalizing current with
  | nil =>
    intro group hgroup
    have heq : group = current := List.mem_singleton.mp hgroup
    rw [heq]
    exact h
  | cons token rest ih =>
    intro group hgroup
    unfold parseQemuTokens at hgroup
    split at hgroup
    next hflag =>
      rcases List.mem_append.mp hgroup with hcurrent | hrest
      · have heq : group = current := List.mem_singleton.mp hcurrent
        rw [heq]
        exact h
      · apply ih _ group hrest
        refine ⟨hflag, ?_⟩
        intro value hvalue
        cases hvalue
    next hflag =>
      apply ih _ group hgroup
      refine ⟨h.1, ?_⟩
      intro value hvalue
      rcases List.mem_append.mp hvalue with hold | hnew
      · exact h.2 value hold
      · rw [List.mem_singleton.mp hnew]
        exact eq_false_of_ne_true hflag

/-- The bare tokens in front are groups of their own, and the rest are flags. -/
theorem parse_bare_front (tokens : List Arg) :
    ∃ (bare : List Arg) (groups : List (Arg × List Arg)),
      (∀ token ∈ bare, isFlag token = false) ∧ (∀ group ∈ groups, FlagGroup group) ∧
        parseQemuTokens tokens none = bare.map (fun token => (token, [])) ++ groups := by
  induction tokens with
  | nil =>
    refine ⟨[], [], ?_, ?_, rfl⟩
    · intro token h
      cases h
    · intro group h
      cases h
  | cons token rest ih =>
    by_cases hflag : isFlag token = true
    · refine ⟨[], parseQemuTokens rest (some (token, [])), ?_, ?_, ?_⟩
      · intro token h
        cases h
      · apply flagGroups_parse
        refine ⟨hflag, ?_⟩
        intro value hvalue
        cases hvalue
      · rw [parseQemuTokens, if_pos hflag]
        rfl
    · obtain ⟨bare, groups, hbare, hgroups, heq⟩ := ih
      refine ⟨token :: bare, groups, ?_, hgroups, ?_⟩
      · intro other hother
        rcases List.mem_cons.mp hother with rfl | hrest
        · exact eq_false_of_ne_true hflag
        · exact hbare other hrest
      · rw [parseQemuTokens, if_neg hflag, heq]
        rfl

/-- Values are gathered by the flag in front of them. -/
theorem parse_values {values : List Arg} (h : ∀ value ∈ values, isFlag value = false)
    (flag : Arg) (gathered rest : List Arg) :
    parseQemuTokens (values ++ rest) (some (flag, gathered)) =
      parseQemuTokens rest (some (flag, gathered ++ values)) := by
  induction values generalizing gathered with
  | nil => rw [List.nil_append, List.append_nil]
  | cons value others ih =>
    have hvalue := h value List.mem_cons_self
    have hothers := ih (fun other hother => h other (List.mem_cons_of_mem _ hother))
    rw [List.cons_append, parseQemuTokens, if_neg (by rw [hvalue]; decide), hothers,
      List.append_assoc]
    rfl

/-- Flags with their values are read back as they are, behind a current group. -/
theorem parse_flagGroups {groups : List (Arg × List Arg)} (h : ∀ group ∈ groups, FlagGroup group)
    (current : Option (Arg × List Arg)) :
    parseQemuTokens (groupTokens groups) current = current.toList ++ groups := by
  induction groups generalizing current with
  | nil =>
    cases current with
    | none => rfl
    | some group => rfl
  | cons group rest ih =>
    have hgroup := h group List.mem_cons_self
    have hrest := ih (fun other hother => h other (List.mem_cons_of_mem _ hother))
    have htokens : groupTokens (group :: rest) = group.1 :: (group.2 ++ groupTokens rest) := by
      unfold groupTokens
      rw [List.flatMap_cons, List.cons_append]
    rw [htokens, parseQemuTokens.eq_def]
    dsimp only
    rw [if_pos hgroup.1, parse_values hgroup.2, List.nil_append, hrest]
    rfl

/-- Bare tokens and then flags with their values are read back as they are. -/
theorem parse_groupTokens {bare : List Arg} {groups : List (Arg × List Arg)}
    (hbare : ∀ token ∈ bare, isFlag token = false) (hgroups : ∀ group ∈ groups, FlagGroup group) :
    parseQemuTokens (groupTokens (bare.map (fun token => (token, [])) ++ groups)) none =
      bare.map (fun token => (token, [])) ++ groups := by
  induction bare with
  | nil => exact parse_flagGroups hgroups none
  | cons token rest ih =>
    have htoken := hbare token List.mem_cons_self
    have hrest := ih (fun other hother => hbare other (List.mem_cons_of_mem _ hother))
    have htokens : groupTokens ((token :: rest).map (fun token => (token, [])) ++ groups) =
        token :: groupTokens (rest.map (fun token => (token, [])) ++ groups) := rfl
    rw [htokens, parseQemuTokens, if_neg (by rw [htoken]; decide), hrest]
    rfl

/-- Extras that begin with a flag have no bare token in front. -/
theorem flagGroups_extras {extraTokens : List Arg}
    (h : ∀ token ∈ extraTokens.head?, isFlag token = true) :
    ∀ group ∈ parseQemuTokens extraTokens none, FlagGroup group := by
  cases extraTokens with
  | nil =>
    intro group hgroup
    cases hgroup
  | cons token rest =>
    have htoken := h token rfl
    rw [parseQemuTokens, if_pos htoken]
    apply flagGroups_parse
    refine ⟨htoken, ?_⟩
    intro value hvalue
    cases hvalue

/-- No group of the extras goes without its flag being named. -/
theorem extras_named {extraTokens : List Arg} {group : Arg × List Arg}
    (hgroup : group ∈ parseQemuTokens extraTokens none) (hflag : isFlag group.1 = true) :
    Unnamed extraTokens group = false := by
  have hmem : group.1 ∈ overrideFlags extraTokens :=
    List.mem_filter.mpr ⟨List.mem_map_of_mem hgroup, hflag⟩
  unfold Unnamed
  rw [List.contains_iff_mem.mpr hmem]
  rfl

/-- Extras that begin with a flag follow the kept groups of the base. -/
theorem parse_mergeGroups (base : List Arg) {extraTokens : List Arg}
    (h : ∀ token ∈ extraTokens.head?, isFlag token = true) :
    parseQemuTokens (mergeGroups base extraTokens) none =
      (parseQemuTokens base none).filter (Unnamed extraTokens) ++
        parseQemuTokens extraTokens none := by
  obtain ⟨bare, groups, hbare, hgroups, heq⟩ := parse_bare_front base
  have hextras := flagGroups_extras h
  have hkept : (bare.map (fun token => (token, ([] : List Arg)))).filter (Unnamed extraTokens) =
      bare.map (fun token => (token, [])) := by
    apply List.filter_eq_self.mpr
    intro group hgroup
    obtain ⟨token, htoken, rfl⟩ := List.mem_map.mp hgroup
    unfold Unnamed
    rw [overrideFlags_not_contains (hbare token htoken)]
    rfl
  rw [mergeGroups_tokens, heq, List.filter_append, hkept, List.append_assoc]
  apply parse_groupTokens hbare
  intro group hgroup
  rcases List.mem_append.mp hgroup with hold | hnew
  · exact hgroups group (List.mem_of_mem_filter hold)
  · exact hextras group hnew

/-- What is kept is kept again, whatever follows it. -/
theorem keptTokens_kept_append (options : List Arg) (dropping : Bool) (tokens rest : List Arg) :
    keptTokens options false (keptTokens options dropping tokens ++ rest) =
      keptTokens options dropping tokens ++ keptTokens options false rest := by
  induction tokens generalizing dropping with
  | nil => rfl
  | cons token others ih =>
    rw [keptTokens]
    split
    next hflag =>
      split
      next => exact ih true
      next hkept =>
        rw [List.cons_append, keptTokens, if_pos hflag, if_neg hkept, ih false, List.cons_append]
    next hflag =>
      split
      next => exact ih true
      next =>
        rw [List.cons_append, keptTokens, if_neg hflag, if_neg (by decide), ih false,
          List.cons_append]

/-- A bare token in front of the extras is there twice after a second merge. -/
theorem merge_twice_of_bare (base : List Arg) {token : Arg} {rest : List Arg}
    (h : isFlag token = false) :
    mergeGroups (mergeGroups base (token :: rest)) (token :: rest) ≠
      mergeGroups base (token :: rest) := by
  intro htwice
  rw [mergeGroups_eq, mergeGroups_eq] at htwice
  have hkept := List.append_cancel_right htwice
  rw [keptTokens_kept_append] at hkept
  have hlength := congrArg List.length hkept
  rw [List.length_append, keptTokens, if_neg (by rw [h]; decide), if_neg (by decide),
    List.length_cons] at hlength
  omega

/-- A merge keeps its promise exactly when the extras do not begin with a bare token. -/
theorem merge_law_iff (base extraTokens : List Arg) :
    MergeLaw base extraTokens ↔ ∀ token ∈ extraTokens.head?, isFlag token = true := by
  constructor
  · intro law token htoken
    cases extraTokens with
    | nil => cases htoken
    | cons first rest =>
      have heq : first = token := Option.some.inj htoken
      rw [← heq]
      by_contra hbare
      exact merge_twice_of_bare base (eq_false_of_ne_true hbare) law.twice
  · intro h
    have hgroups := parse_mergeGroups base h
    have hextras := flagGroups_extras h
    refine { groups := hgroups, values := ?_, empty := mergeGroups_nil base, twice := ?_ }
    · intro group hgroup hflag hunnamed
      rw [hgroups] at hgroup
      rcases List.mem_append.mp hgroup with hold | hnew
      · exact List.mem_of_mem_filter hold
      · have hnamed := mem_overrideFlags.mp
          (List.mem_filter.mpr ⟨List.mem_map_of_mem hnew, hflag⟩)
        exact absurd hnamed.2 hunnamed
    · have hnone : (parseQemuTokens extraTokens none).filter (Unnamed extraTokens) = [] := by
        apply List.filter_eq_nil_iff.mpr
        intro group hgroup
        rw [extras_named hgroup (hextras group hgroup).1]
        decide
      have hagain : (parseQemuTokens (mergeGroups base extraTokens) none).filter
          (Unnamed extraTokens) = (parseQemuTokens base none).filter (Unnamed extraTokens) := by
        rw [hgroups, List.filter_append, hnone, List.append_nil, List.filter_filter]
        simp only [Bool.and_self]
      rw [mergeGroups_tokens, hagain]
      exact (mergeGroups_tokens base extraTokens).symm

/-- `foo -m 4096` as options: `foo` becomes a value of the last flag of the base command. -/
def bareExtras : List Arg := ["foo".toList, "-m".toList, "4096".toList]

theorem bare_extra_becomes_value : ∃ base, adoptableLaunch.buildQemuBaseCmd = some base ∧
    shlexSplit "foo -m 4096".toList = some bareExtras ∧ ¬MergeLaw base bareExtras := by
  have hsome : adoptableLaunch.buildQemuBaseCmd.isSome = true := by decide +kernel
  obtain ⟨base, hbase⟩ := Option.isSome_iff_exists.mp hsome
  refine ⟨base, hbase, by decide +kernel, ?_⟩
  intro law
  exact absurd ((merge_law_iff base bareExtras).mp law "foo".toList rfl) (by decide)

end NovaVe
