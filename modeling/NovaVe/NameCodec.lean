import NovaVe.HelperNames
import NovaVe.SweepIsolation

namespace NovaVe

/-- What stands after the first `sep`. -/
def afterFirst (sep : Char) (cs : List Char) : List Char := (cs.dropWhile (fun c => c != sep)).tail

/-- What stands before the first `sep`. -/
def beforeFirst (sep : Char) (cs : List Char) : List Char := cs.takeWhile (fun c => c != sep)

/-- `_parse_iface_node_id`. -/
def parseIfaceNodeId (iface : List Char) : Option Int :=
  if ¬ ['n', 'v', 'e'] <+: iface ∨ 'd' ∉ iface ∨ 'i' ∉ iface then none
  else pyInt (String.ofList (beforeFirst 'i' (afterFirst 'd' iface)))

/-- `parseIfaceInterfaceIndex`. -/
def parseIfaceInterfaceIndex (iface : List Char) : Option Nat :=
  if ¬ ['n', 'v', 'e'] <+: iface then none
  else if 'd' ∉ iface then none
  else if 'i' ∉ afterFirst 'd' iface then none
  else
    let digits := (afterFirst 'i' (afterFirst 'd' iface)).takeWhile Char.isDigit
    if digits = [] then none else some (Nat.ofDigitChars 10 digits 0)

/-- The checks of the helper that the name of a bridge goes through. -/
def bridgeNameArgs : List NameArg := [.checked .bridge, .iface]

/-- The checks that the name of an interface goes through. -/
def IfaceKind.nameArgs : IfaceKind → List NameArg
  | .tap => [.checked .tap, .iface]
  | .vethHost | .vethPeer => [.checked .veth, .iface]

theorem before_append_cons {sep : Char} {left : List Char} (h : sep ∉ left) (rest : List Char) :
    beforeFirst sep (left ++ sep :: rest) = left ∧ afterFirst sep (left ++ sep :: rest) = rest := by
  have hall : ∀ c ∈ left, (fun c => c != sep) c = true := by
    intro c hc
    have hne : c ≠ sep := fun heq => h (heq ▸ hc)
    simpa using hne
  have hstop : (fun c : Char => c != sep) sep = false := by simp
  unfold beforeFirst afterFirst
  rw [List.takeWhile_append_of_pos hall, List.dropWhile_append_of_pos hall,
    List.takeWhile_cons_of_neg (by simp), List.dropWhile_cons_of_neg (by simp)]
  exact ⟨List.append_nil left, rfl⟩

theorem intText_digits {n : Int} (hn : 0 ≤ n) : intText n = Nat.toDigits 10 n.toNat := by
  unfold intText
  rw [if_neg (by omega), show n.natAbs = n.toNat by omega]

theorem isDigit_of_mem_intText {n : Int} (hn : 0 ≤ n) {c : Char} (hc : c ∈ intText n) :
    c.isDigit = true := by
  rw [intText_digits hn] at hc
  exact Nat.isDigit_of_mem_toDigits (by decide) (by decide) hc

theorem length_intText_le_iff {n : Int} {k : Nat} (hn : 0 ≤ n) (hk : 0 < k) :
    (intText n).length ≤ k ↔ n < (10 ^ k : Nat) := by
  rw [intText_digits hn, Nat.length_toDigits_le_iff (by decide) hk]
  omega

theorem length_intText_pos (n : Int) : 1 ≤ (intText n).length := by
  unfold intText
  split
  next => simp
  next => exact Nat.length_toDigits_pos

theorem mem_stripChars {p : Char → Bool} {cs : List Char} {c : Char} (hc : c ∈ cs)
    (hp : p c = false) : c ∈ stripChars p cs := by
  have hdrop : ∀ xs : List Char, c ∈ xs → c ∈ xs.dropWhile p := by
    intro xs
    induction xs with
    | nil => exact fun h => h
    | cons x rest ih =>
      intro h
      by_cases hx : p x = true
      · rw [List.dropWhile_cons_of_pos hx]
        rcases List.mem_cons.mp h with heq | hrest
        · rw [← heq, hp] at hx
          cases hx
        · exact ih hrest
      · rw [List.dropWhile_cons_of_neg hx]
        exact h
  unfold stripChars
  rw [List.mem_reverse]
  apply hdrop
  rw [List.mem_reverse]
  exact hdrop cs hc

theorem not_mem_intercalate {c sep : Char} (hne : c ≠ sep) {groups : List (List Char)}
    (h : ∀ group ∈ groups, c ∉ group) : c ∉ List.intercalate [sep] groups := by
  induction groups with
  | nil => simp [List.intercalate]
  | cons first rest ih =>
    have hrest := ih (fun group hgroup => h group (List.mem_cons_of_mem first hgroup))
    have hfirst := h first List.mem_cons_self
    cases rest with
    | nil => simpa [List.intercalate] using hfirst
    | cons second more =>
      have heq : List.intercalate [sep] (first :: second :: more) =
          first ++ sep :: List.intercalate [sep] (second :: more) := by
        simp [List.intercalate, List.intersperse]
      rw [heq, List.mem_append, List.mem_cons, not_or, not_or]
      exact ⟨hfirst, hne, hrest⟩

theorem decimalDigits_letter {digits : List Char} {c : Char} (hc : c ∈ digits)
    (hdigit : c.isDigit = false) (hscore : c ≠ '_') : decimalDigits digits = none := by
  unfold decimalDigits
  apply if_neg
  intro hall
  have hgroups : ∀ group ∈ digits.splitOn '_', c ∉ group := by
    intro group hgroup hin
    have hdigits := List.all_eq_true.mp hall group hgroup
    rw [Bool.and_eq_true] at hdigits
    rw [List.all_eq_true.mp hdigits.2 c hin] at hdigit
    cases hdigit
  have hjoin := not_mem_intercalate hscore hgroups
  rw [List.intercalate_splitOn] at hjoin
  exact hjoin hc

/-- A text with a letter in it is no integer. -/
theorem pyInt_letter {cs : List Char} {c : Char} (hc : c ∈ cs) (hascii : c.toNat < 128)
    (hspace : isPySpace c = false) (hdigit : c.isDigit = false) (hminus : c ≠ '-') (hplus : c ≠ '+')
    (hscore : c ≠ '_') : pyInt (String.ofList cs) = none := by
  have hstrip : c ∈ intChars cs := by
    have hkept := mem_stripChars hc (isIntSpace_plain hspace)
    exact List.mem_map.mpr ⟨c, hkept, asciiDecimal_ascii hascii⟩
  unfold pyInt intOfChars
  rw [String.toList_ofList]
  split
  next digits heq =>
    rw [heq] at hstrip
    have hmem := (List.mem_cons.mp hstrip).resolve_left hminus
    rw [decimalDigits_letter hmem hdigit hscore]
    rfl
  next digits heq =>
    rw [heq] at hstrip
    have hmem := (List.mem_cons.mp hstrip).resolve_left hplus
    rw [decimalDigits_letter hmem hdigit hscore]
    rfl
  next =>
    rw [decimalDigits_letter hstrip hdigit hscore]
    rfl

/-- Everything that is asked of the names of an interface and of a bridge of one lab. -/
structure NameCodec (h : Fin 65536) (nodeId iface networkId : Int) : Prop where
  bridgeDefined : (asserted (bridgeNameText h networkId)).isSome
  ifaceDefined : ∀ kind, (asserted (ifaceNameText kind h nodeId iface)).isSome
  bridgeShort : (bridgeNameText h networkId).length ≤ 15
  ifaceShort : ∀ kind, (ifaceNameText kind h nodeId iface).length ≤ 15
  bridgeDistinct : ∀ other, bridgeNameText h networkId = bridgeNameText h other → networkId = other
  ifaceDistinct : ∀ kind otherKind otherNode otherIface, ifaceNameText kind h nodeId iface =
    ifaceNameText otherKind h otherNode otherIface →
      kind = otherKind ∧ nodeId = otherNode ∧ iface = otherIface
  apart : ∀ kind, bridgeNameText h networkId ≠ ifaceNameText kind h nodeId iface
  bridgeAccepted : ∀ arg ∈ bridgeNameArgs,
    arg.accepts (String.ofList (bridgeNameText h networkId)) = true
  ifaceAccepted : ∀ kind : IfaceKind, ∀ arg ∈ kind.nameArgs,
    arg.accepts (String.ofList (ifaceNameText kind h nodeId iface)) = true
  nodeRead : ∀ kind, kind ≠ .vethPeer →
    parseIfaceNodeId (ifaceNameText kind h nodeId iface) = some nodeId
  indexRead : ∀ kind, kind ≠ .vethPeer →
    (parseIfaceInterfaceIndex (ifaceNameText kind h nodeId iface)).map Int.ofNat = some iface

theorem isLowerHex_hex4 (h : Fin 65536) : ∀ c ∈ hex4 h, isLowerHex c = true :=
  List.all_eq_true.mp (hex4_isHexDigit h)

theorem not_mem_hex4 {c : Char} (hc : isLowerHex c = false) (h : Fin 65536) : c ∉ hex4 h := by
  intro hmem
  rw [isLowerHex_hex4 h c hmem] at hc
  cases hc

theorem length_bridgeNameText (h : Fin 65536) (networkId : Int) :
    (bridgeNameText h networkId).length = 9 + (intText networkId).length := by
  simp only [bridgeNameText, List.length_cons, List.length_append, hex4_length]
  omega

theorem length_ifaceNameText (kind : IfaceKind) (h : Fin 65536) (nodeId iface : Int) :
    (ifaceNameText kind h nodeId iface).length =
      9 + (intText nodeId).length + (intText iface).length + kind.suffix.length := by
  simp only [ifaceNameText, List.length_cons, List.length_append, hex4_length]
  omega

theorem asserted_isSome {name : List Char} : (asserted name).isSome ↔ name.length ≤ 14 := by
  unfold asserted
  split
  next h => exact ⟨fun _ => h, fun _ => rfl⟩
  next h => exact ⟨fun hs => (by cases hs), fun hs => absurd hs h⟩

theorem ifaceNameText_distinct {kind otherKind : IfaceKind} {h : Fin 65536}
    {nodeId iface otherNode otherIface : Int}
    (heq : ifaceNameText kind h nodeId iface = ifaceNameText otherKind h otherNode otherIface) :
    kind = otherKind ∧ nodeId = otherNode ∧ iface = otherIface := by
  simp only [ifaceNameText, List.cons.injEq, true_and] at heq
  obtain ⟨_, htail⟩ := hex4_append_injective heq
  have hfree : ∀ n : Int, 'i' ∉ intText n := fun n => not_mem_intText (by decide) (by decide)
  obtain ⟨hnode, hrest⟩ := append_cons_injective (hfree nodeId) (hfree otherNode) (List.cons.inj htail).2
  have hh : ∀ n : Int, 'h' ∉ intText n := fun n => not_mem_intText (by decide) (by decide)
  have hp : ∀ n : Int, 'p' ∉ intText n := fun n => not_mem_intText (by decide) (by decide)
  -- the last character of the name tells the kinds apart
  have hmem : ∀ c : Char, (∀ n : Int, c ∉ intText n) →
      (c ∈ kind.suffix ↔ c ∈ otherKind.suffix) := by
    intro c hc
    have hleft : c ∈ intText iface ++ kind.suffix ↔ c ∈ kind.suffix := by
      rw [List.mem_append]
      exact ⟨fun hm => hm.resolve_left (hc iface), Or.inr⟩
    have hright : c ∈ intText otherIface ++ otherKind.suffix ↔ c ∈ otherKind.suffix := by
      rw [List.mem_append]
      exact ⟨fun hm => hm.resolve_left (hc otherIface), Or.inr⟩
    rw [← hleft, hrest, hright]
  have hkind : kind = otherKind := by
    have h1 := hmem 'h' hh
    have h2 := hmem 'p' hp
    revert h1 h2
    cases kind <;> cases otherKind <;> decide
  subst hkind
  exact ⟨rfl, intText_injective hnode, intText_injective (List.append_cancel_right hrest)⟩

theorem tapGrammar_nameText {h : Fin 65536} {nodeId iface : Int} (hnode : 0 ≤ nodeId ∧ nodeId ≤ 999)
    (hiface : 0 ≤ iface ∧ iface ≤ 99) : TapGrammar (ifaceNameText .tap h nodeId iface) := by
  refine ⟨hex4 h, intText nodeId, intText iface, ?_, hex4_length h, isLowerHex_hex4 h,
    length_intText_pos nodeId, (length_intText_le_iff hnode.1 (by decide)).mpr (by omega),
    fun c hc => isDigit_of_mem_intText hnode.1 hc, length_intText_pos iface,
    (length_intText_le_iff hiface.1 (by decide)).mpr (by omega),
    fun c hc => isDigit_of_mem_intText hiface.1 hc⟩
  simp [ifaceNameText, IfaceKind.suffix]

theorem ifaceNameText_suffix (kind : IfaceKind) (h : Fin 65536) (nodeId iface : Int) :
    ifaceNameText kind h nodeId iface = ifaceNameText .tap h nodeId iface ++ kind.suffix := by
  simp [ifaceNameText, IfaceKind.suffix]

theorem accepts_of_grammar {v : NameValidator} {cs : List Char} (h : v.Grammar cs) :
    v.accepts (String.ofList cs) = true := by
  rw [NameValidator.accepts_iff, String.toList_ofList]
  exact Or.inl h

theorem validateIfaceName_of_grammar {v : NameValidator} (hv : v ≠ .hostBridge) {cs : List Char}
    (h : v.Grammar cs) : validateIfaceName (String.ofList cs) = true := by
  unfold validateIfaceName
  rw [Bool.or_eq_true, Bool.or_eq_true]
  have haccepts := accepts_of_grammar h
  cases v with
  | bridge => exact Or.inr haccepts
  | hostBridge => exact absurd rfl hv
  | tap => exact Or.inl (Or.inl haccepts)
  | veth => exact Or.inl (Or.inr haccepts)

theorem ifaceName_accepted {kind : IfaceKind} {h : Fin 65536} {nodeId iface : Int}
    (hnode : 0 ≤ nodeId ∧ nodeId ≤ 999) (hiface : 0 ≤ iface ∧ iface ≤ 99) :
    ∀ arg ∈ kind.nameArgs, arg.accepts (String.ofList (ifaceNameText kind h nodeId iface)) = true := by
  have htap : NameValidator.tap.Grammar (ifaceNameText .tap h nodeId iface) :=
    tapGrammar_nameText hnode hiface
  have hboth : ∀ v : NameValidator, v ≠ .hostBridge →
      v.Grammar (ifaceNameText kind h nodeId iface) → ∀ arg ∈ [NameArg.checked v, .iface],
        arg.accepts (String.ofList (ifaceNameText kind h nodeId iface)) = true := by
    intro v hv hgrammar arg harg
    rcases List.mem_cons.mp harg with heq | harg
    · rw [heq]
      exact accepts_of_grammar hgrammar
    · rw [List.mem_singleton.mp harg]
      exact validateIfaceName_of_grammar hv hgrammar
  have hveth : kind ≠ .tap → NameValidator.veth.Grammar (ifaceNameText kind h nodeId iface) := by
    intro hne
    rw [ifaceNameText_suffix]
    refine ⟨_, htap, ?_⟩
    cases kind with
    | tap => exact absurd rfl hne
    | vethHost => exact Or.inl rfl
    | vethPeer => exact Or.inr rfl
  cases kind with
  | tap => exact hboth .tap (by decide) htap
  | vethHost => exact hboth .veth (by decide) (hveth (by decide))
  | vethPeer => exact hboth .veth (by decide) (hveth (by decide))

theorem bridgeName_accepted {h : Fin 65536} {networkId : Int}
    (hnetwork : 0 ≤ networkId ∧ networkId ≤ 99999) :
    ∀ arg ∈ bridgeNameArgs, arg.accepts (String.ofList (bridgeNameText h networkId)) = true := by
  have hgrammar : NameValidator.bridge.Grammar (bridgeNameText h networkId) := by
    refine ⟨hex4 h, intText networkId, ?_, hex4_length h, isLowerHex_hex4 h,
      length_intText_pos networkId,
      (length_intText_le_iff hnetwork.1 (by decide)).mpr (by omega),
      fun c hc => isDigit_of_mem_intText hnetwork.1 hc⟩
    simp [bridgeNameText]
  intro arg harg
  rcases List.mem_cons.mp harg with heq | harg
  · rw [heq]
    exact accepts_of_grammar hgrammar
  · rw [List.mem_singleton.mp harg]
    exact validateIfaceName_of_grammar (by decide) hgrammar

/-- What stands after the first `d` of a name, up to the `i`: the node id, or more when the hash has
a `d` of its own. -/
theorem afterFirst_nameText (kind : IfaceKind) (h : Fin 65536) (nodeId iface : Int) :
    ∃ middle, afterFirst 'd' (ifaceNameText kind h nodeId iface) =
        middle ++ 'i' :: (intText iface ++ kind.suffix) ∧ 'i' ∉ middle ∧
      ('d' ∉ hex4 h → middle = intText nodeId) ∧ ('d' ∈ hex4 h → 'd' ∈ middle) := by
  have hfree : 'i' ∉ intText nodeId := not_mem_intText (by decide) (by decide)
  by_cases hd : 'd' ∈ hex4 h
  · obtain ⟨left, right, hsplit, hnot⟩ := List.eq_append_cons_of_mem hd
    have hleft : 'd' ∉ 'n' :: 'v' :: 'e' :: left := by
      simpa using hnot
    have hshape : ifaceNameText kind h nodeId iface = ('n' :: 'v' :: 'e' :: left) ++
        'd' :: (right ++ 'd' :: (intText nodeId ++ 'i' :: (intText iface ++ kind.suffix))) := by
      simp [ifaceNameText, hsplit]
    have hhash : 'i' ∉ hex4 h := not_mem_hex4 (by decide) h
    rw [hsplit] at hhash
    refine ⟨right ++ 'd' :: intText nodeId, ?_, ?_, fun hnone => absurd hd hnone, fun _ => by simp⟩
    · rw [hshape, (before_append_cons hleft _).2]
      simp
    · simp only [List.mem_append, List.mem_cons, not_or] at hhash ⊢
      exact ⟨hhash.2.2, by decide, hfree⟩
  · have hleft : 'd' ∉ 'n' :: 'v' :: 'e' :: hex4 h := by
      simpa using hd
    have hshape : ifaceNameText kind h nodeId iface = ('n' :: 'v' :: 'e' :: hex4 h) ++
        'd' :: (intText nodeId ++ 'i' :: (intText iface ++ kind.suffix)) := by
      simp [ifaceNameText]
    refine ⟨intText nodeId, ?_, hfree, fun _ => rfl, fun hsome => absurd hsome hd⟩
    rw [hshape, (before_append_cons hleft _).2]

theorem nameText_markers (kind : IfaceKind) (h : Fin 65536) (nodeId iface : Int) :
    ['n', 'v', 'e'] <+: ifaceNameText kind h nodeId iface ∧
      'd' ∈ ifaceNameText kind h nodeId iface ∧ 'i' ∈ ifaceNameText kind h nodeId iface := by
  refine ⟨⟨_, rfl⟩, ?_, ?_⟩
  · simp [ifaceNameText]
  · simp [ifaceNameText]

/-- The node id is read back just when the hash has no `d`. -/
theorem parseIfaceNodeId_nameText (kind : IfaceKind) (h : Fin 65536) (nodeId : Int)
    (iface : Int) : parseIfaceNodeId (ifaceNameText kind h nodeId iface) = some nodeId ↔
      'd' ∉ hex4 h := by
  obtain ⟨hstart, hmemd, hmemi⟩ := nameText_markers kind h nodeId iface
  obtain ⟨middle, hafter, hfree, hnone, hsome⟩ := afterFirst_nameText kind h nodeId iface
  have hread : parseIfaceNodeId (ifaceNameText kind h nodeId iface) =
      pyInt (String.ofList middle) := by
    unfold parseIfaceNodeId
    rw [if_neg, hafter, (before_append_cons hfree _).1]
    intro hfail
    rcases hfail with hp | hd | hi
    · exact hp hstart
    · exact hd hmemd
    · exact hi hmemi
  rw [hread]
  constructor
  · intro heq hd
    rw [pyInt_letter (hsome hd) (by decide) (by decide) (by decide) (by decide) (by decide)
      (by decide)] at heq
    cases heq
  · intro hd
    rw [hnone hd, pyInt, String.toList_ofList, intOfChars_intText]

/-- The interface index is always read back, since no hash has an `i`. -/
theorem parseIfaceInterfaceIndex_nameText (kind : IfaceKind) (h : Fin 65536) (nodeId : Int) {iface : Int}
    (hiface : 0 ≤ iface) :
    (parseIfaceInterfaceIndex (ifaceNameText kind h nodeId iface)).map Int.ofNat = some iface := by
  obtain ⟨hstart, hmemd, _⟩ := nameText_markers kind h nodeId iface
  obtain ⟨middle, hafter, hfree, _⟩ := afterFirst_nameText kind h nodeId iface
  have hsuffix : ∀ c, kind.suffix.head? = some c → c.isDigit = false := by
    intro c hc
    cases kind with
    | tap => cases hc
    | vethHost =>
      cases hc
      decide
    | vethPeer =>
      cases hc
      decide
  have hdigits := (takeWhile_intText hiface hsuffix).1
  have hne : Nat.toDigits 10 iface.natAbs ≠ [] := Nat.toDigits_ne_nil
  unfold parseIfaceInterfaceIndex
  rw [if_neg (not_not.mpr hstart), if_neg (not_not.mpr hmemd), hafter, if_neg (by simp),
    (before_append_cons hfree _).2]
  dsimp only
  rw [hdigits, if_neg hne, Option.map_some, Nat.ofDigitChars_ten_toDigits]
  congr 1
  show ((iface.natAbs : Nat) : Int) = iface
  omega

/-- The names of a lab's interfaces and bridges are as they should be just when the hash of the lab has
no `d` and the veth names fit: a node id of three digits and an index of two leave no room. -/
theorem name_codec_iff (h : Fin 65536) (nodeId iface networkId : Int)
    (hnode : 0 ≤ nodeId ∧ nodeId ≤ 999) (hiface : 0 ≤ iface ∧ iface ≤ 99)
    (hnetwork : 0 ≤ networkId ∧ networkId ≤ 99999) :
    NameCodec h nodeId iface networkId ↔ 'd' ∉ hex4 h ∧ (nodeId ≤ 99 ∨ iface ≤ 9) := by
  have hnodeLong : (intText nodeId).length ≤ 3 :=
    (length_intText_le_iff hnode.1 (by decide)).mpr (by omega)
  have hnodeShort : (intText nodeId).length ≤ 2 ↔ nodeId < (10 ^ 2 : Nat) :=
    length_intText_le_iff hnode.1 (by decide)
  have hifaceLong : (intText iface).length ≤ 2 :=
    (length_intText_le_iff hiface.1 (by decide)).mpr (by omega)
  have hifaceShort : (intText iface).length ≤ 1 ↔ iface < (10 ^ 1 : Nat) :=
    length_intText_le_iff hiface.1 (by decide)
  have hnetworkLong : (intText networkId).length ≤ 5 :=
    (length_intText_le_iff hnetwork.1 (by decide)).mpr (by omega)
  have hsuffix : ∀ kind : IfaceKind, kind.suffix.length ≤ 1 := by
    intro kind
    cases kind with
    | tap => decide
    | vethHost => decide
    | vethPeer => decide
  constructor
  · intro hcodec
    refine ⟨?_, ?_⟩
    · exact (parseIfaceNodeId_nameText .tap h nodeId iface).mp (hcodec.nodeRead .tap (by decide))
    · have hdefined := asserted_isSome.mp (hcodec.ifaceDefined .vethHost)
      rw [length_ifaceNameText] at hdefined
      have hone : IfaceKind.vethHost.suffix.length = 1 := rfl
      by_contra hwide
      omega
  · intro hcond
    obtain ⟨hd, hfit⟩ := hcond
    refine ⟨?_, ?_, ?_, ?_, ?_, ?_, ?_, bridgeName_accepted hnetwork,
      fun kind => ifaceName_accepted hnode hiface, ?_, ?_⟩
    · rw [asserted_isSome, length_bridgeNameText]
      omega
    · intro kind
      have hlast := hsuffix kind
      rw [asserted_isSome, length_ifaceNameText]
      omega
    · rw [length_bridgeNameText]
      omega
    · intro kind
      have hlast := hsuffix kind
      rw [length_ifaceNameText]
      omega
    · intro other heq
      exact (bridgeNameText_injective heq).2
    · intro kind otherKind otherNode otherIface heq
      exact ifaceNameText_distinct heq
    · intro kind heq
      have hletter : 'o' = 'v' := (List.cons.inj (List.cons.inj heq).2).1
      exact absurd hletter (by decide)
    · intro kind _
      exact (parseIfaceNodeId_nameText kind h nodeId iface).mpr hd
    · intro kind _
      exact parseIfaceInterfaceIndex_nameText kind h nodeId hiface.1

/-- The names of interface 9 of node 412 fit, and so do those of interface 12 of node 41. -/
theorem name_codec_of_short_ids :
    NameCodec 0x12ab 412 9 31 ∧ NameCodec 0x12ab 41 12 31 ∧ ¬ NameCodec 0x12ab 412 12 31 := by
  have hcodec : ∀ nodeId iface : Int, 0 ≤ nodeId ∧ nodeId ≤ 999 → 0 ≤ iface ∧ iface ≤ 99 →
      (NameCodec 0x12ab nodeId iface 31 ↔ 'd' ∉ hex4 0x12ab ∧ (nodeId ≤ 99 ∨ iface ≤ 9)) :=
    fun nodeId iface hnode hiface =>
      name_codec_iff 0x12ab nodeId iface 31 hnode hiface (by decide)
  refine ⟨?_, ?_, ?_⟩
  · exact (hcodec 412 9 (by decide) (by decide)).mpr (by decide)
  · exact (hcodec 41 12 (by decide) (by decide)).mpr (by decide)
  · intro hnames
    exact absurd ((hcodec 412 12 (by decide) (by decide)).mp hnames) (by decide)

/-- A hash with a `d` hides the node id from the backend. -/
theorem node_id_not_read : ¬ ∀ (h : Fin 65536) (nodeId iface networkId : Int),
    0 ≤ nodeId ∧ nodeId ≤ 999 → 0 ≤ iface ∧ iface ≤ 99 → 0 ≤ networkId ∧ networkId ≤ 99999 →
      NameCodec h nodeId iface networkId := by
  intro hall
  have hcodec := hall 0xd123 7 2 1 (by decide) (by decide) (by decide)
  have hread := (parseIfaceNodeId_nameText .tap 0xd123 _ 2).mp
    (hcodec.nodeRead .tap (by decide))
  exact hread (by decide)

end NovaVe
