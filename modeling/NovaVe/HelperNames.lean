import NovaVe.AnchoredPatterns
import NovaVe.NetHelper

namespace NovaVe

/-- `nove[a-f0-9]{4}n[0-9]{1,5}`. -/
def reBridgeName : List PatternPart :=
  [.text ['n', 'o', 'v', 'e'], .run isLowerHex 4 (some 4), .text ['n'], .run Char.isDigit 1 (some 5)]

/-- `br-eth[0-9]+`. -/
def reHostBridgeName : List PatternPart :=
  [.text ['b', 'r', '-', 'e', 't', 'h'], .run Char.isDigit 1 none]

/-- `nve[a-f0-9]{4}d[0-9]{1,3}i[0-9]{1,2}`. -/
def reTapName : List PatternPart :=
  [.text ['n', 'v', 'e'], .run isLowerHex 4 (some 4), .text ['d'], .run Char.isDigit 1 (some 3),
    .text ['i'], .run Char.isDigit 1 (some 2)]

/-- `nve[a-f0-9]{4}d[0-9]{1,3}i[0-9]{1,2}[hp]`. -/
def reVethName : List PatternPart :=
  [.text ['n', 'v', 'e'], .run isLowerHex 4 (some 4), .text ['d'], .run Char.isDigit 1 (some 3),
    .text ['i'], .run Char.isDigit 1 (some 2),
    .run (fun c => decide (c = 'h') || decide (c = 'p')) 1 (some 1)]

/-- The validators of the helper that check against one pattern. -/
inductive NameValidator
  | bridge | hostBridge | tap | veth
deriving DecidableEq

def NameValidator.pattern : NameValidator → List PatternPart
  | .bridge => reBridgeName
  | .hostBridge => reHostBridgeName
  | .tap => reTapName
  | .veth => reVethName

/-- `_check_regex`. -/
def NameValidator.accepts (v : NameValidator) (name : String) : Bool :=
  matchesDollar v.pattern name.toList

/-- `validate_iface_name`. -/
def validateIfaceName (name : String) : Bool :=
  NameValidator.tap.accepts name || NameValidator.veth.accepts name ||
    NameValidator.bridge.accepts name

/-- The check of an argument that names an interface or a bridge. -/
inductive NameArg
  | checked (v : NameValidator)
  | iface
deriving DecidableEq

def NameArg.accepts : NameArg → String → Bool
  | .checked v, name => v.accepts name
  | .iface, name => validateIfaceName name

/-- The verbs of the helper that take such names. -/
inductive HelperVerb
  | bridgeAdd | bridgeDel | tapAdd | tapDel | linkDel | vethPairAdd | linkMaster | linkMasterHost
  | linkSetNomaster | linkNetns | linkUp | bridgeAddrAdd | natApply | natRemove | forwardApply
  | forwardRemove | dnsmasqStart | dnsmasqStop | linkSetNameInNetns
deriving DecidableEq

def HelperVerb.nameArgs : HelperVerb → List NameArg
  | .bridgeAdd | .bridgeDel | .bridgeAddrAdd | .natApply | .natRemove | .forwardApply
  | .forwardRemove | .dnsmasqStart | .dnsmasqStop => [.checked .bridge]
  | .tapAdd | .tapDel => [.checked .tap]
  | .vethPairAdd => [.checked .veth, .checked .veth]
  | .linkMaster => [.iface, .checked .bridge]
  | .linkMasterHost => [.iface, .checked .hostBridge]
  | .linkDel | .linkSetNomaster | .linkNetns | .linkUp | .linkSetNameInNetns => [.iface]

/-- The backend's own check of a bridge name. -/
def backendBridgeName (name : String) : Bool := matchesEnd reBridgeName name.toList

/-- The backend's own check of a host bridge name. -/
def backendHostBridgeName (name : String) : Bool := matchesEnd reHostBridgeName name.toList

def byteLength : List Char → Nat
  | [] => 0
  | c :: cs => c.utf8Size + byteLength cs

/-- `nve<lab_hash:04x>d<node 1-3>i<iface 1-2>`. -/
def TapGrammar (cs : List Char) : Prop :=
  ∃ hash node iface, cs = ['n', 'v', 'e'] ++ hash ++ ['d'] ++ node ++ ['i'] ++ iface ∧
    hash.length = 4 ∧ (∀ c ∈ hash, isLowerHex c = true) ∧
    1 ≤ node.length ∧ node.length ≤ 3 ∧ (∀ c ∈ node, c.isDigit = true) ∧
    1 ≤ iface.length ∧ iface.length ≤ 2 ∧ ∀ c ∈ iface, c.isDigit = true

/-- The names that nova-ve gives to bridges, TAPs and veths, and those of the host's bridges. -/
def NameValidator.Grammar : NameValidator → List Char → Prop
  | .bridge, cs => ∃ hash network, cs = ['n', 'o', 'v', 'e'] ++ hash ++ ['n'] ++ network ∧
      hash.length = 4 ∧ (∀ c ∈ hash, isLowerHex c = true) ∧
      1 ≤ network.length ∧ network.length ≤ 5 ∧ ∀ c ∈ network, c.isDigit = true
  | .hostBridge, cs => ∃ digits, cs = ['b', 'r', '-', 'e', 't', 'h'] ++ digits ∧
      1 ≤ digits.length ∧ ∀ c ∈ digits, c.isDigit = true
  | .tap, cs => TapGrammar cs
  | .veth, cs => ∃ tap, TapGrammar tap ∧ (cs = tap ++ ['h'] ∨ cs = tap ++ ['p'])

/-- A name of the lab side. -/
def LabName (cs : List Char) : Prop :=
  NameValidator.bridge.Grammar cs ∨ NameValidator.tap.Grammar cs ∨ NameValidator.veth.Grammar cs

theorem fits_tap_iff (cs : List Char) : PatternFits reTapName cs ↔ TapGrammar cs := by
  constructor
  · intro h
    obtain ⟨t, hcs, hash, t1, ht, hhash, hleast, hmost, t2, ht1, node, t3, ht2, hnode, hnodeLeast,
      hnodeMost, t4, ht3, iface, t5, ht4, hiface, hifaceLeast, hifaceMost, ht5⟩ := h
    have hlong := hmost 4 rfl
    have hnodes := hnodeMost 3 rfl
    have hifaces := hifaceMost 2 rfl
    refine ⟨hash, node, iface, ?_, by omega, hhash, hnodeLeast, hnodes, hnode, hifaceLeast, hifaces,
      hiface⟩
    rw [hcs, ht, ht1, ht2, ht3, ht4, show t5 = [] from ht5]
    simp
  · intro h
    obtain ⟨hash, node, iface, hcs, hlong, hhash, hnodeLeast, hnodeMost, hnode, hifaceLeast,
      hifaceMost, hiface⟩ := h
    refine ⟨hash ++ (['d'] ++ (node ++ (['i'] ++ iface))), ?_, hash, _, rfl, hhash, by omega, ?_, _,
      rfl, node, _, rfl, hnode, hnodeLeast, ?_, _, rfl, iface, [], ?_, hiface, hifaceLeast, ?_, rfl⟩
    · rw [hcs]
      simp
    · intro m hm
      cases hm
      omega
    · intro m hm
      cases hm
      omega
    · exact (List.append_nil iface).symm
    · intro m hm
      cases hm
      omega

theorem fits_iff_grammar (v : NameValidator) (cs : List Char) :
    PatternFits v.pattern cs ↔ v.Grammar cs := by
  cases v with
  | tap => exact fits_tap_iff cs
  | bridge =>
    constructor
    · intro h
      obtain ⟨t, hcs, hash, t1, ht, hhash, hleast, hmost, t2, ht1, network, t3, ht2, hnetwork,
        hnetworkLeast, hnetworkMost, ht3⟩ := h
      have hlong := hmost 4 rfl
      refine ⟨hash, network, ?_, by omega, hhash, hnetworkLeast, hnetworkMost 5 rfl, hnetwork⟩
      rw [hcs, ht, ht1, ht2, show t3 = [] from ht3]
      simp
    · intro h
      obtain ⟨hash, network, hcs, hlong, hhash, hleast, hmost, hnetwork⟩ := h
      refine ⟨hash ++ (['n'] ++ network), ?_, hash, _, rfl, hhash, by omega, ?_, _, rfl, network, [],
        ?_, hnetwork, hleast, ?_, rfl⟩
      · rw [hcs]
        simp
      · intro m hm
        cases hm
        omega
      · exact (List.append_nil network).symm
      · intro m hm
        cases hm
        omega
  | hostBridge =>
    constructor
    · intro h
      obtain ⟨t, hcs, digits, t1, ht, hdigits, hleast, _, ht1⟩ := h
      refine ⟨digits, ?_, hleast, hdigits⟩
      rw [hcs, ht, show t1 = [] from ht1, List.append_nil]
    · intro h
      obtain ⟨digits, hcs, hleast, hdigits⟩ := h
      refine ⟨digits, hcs, digits, [], (List.append_nil digits).symm, hdigits, hleast, ?_, rfl⟩
      intro m hm
      cases hm
  | veth =>
    have hsplit := patternFits_append reTapName
      [.run (fun c => decide (c = 'h') || decide (c = 'p')) 1 (some 1)] cs
    constructor
    · intro h
      obtain ⟨tap, tail, hcs, htap, chars, t, htail, hchars, hleast, hmost, ht⟩ := hsplit.mp h
      have hone := hmost 1 rfl
      obtain ⟨c, hc⟩ := List.length_eq_one_iff.mp (show chars.length = 1 by omega)
      rw [htail, hc, show t = [] from ht, List.append_nil] at hcs
      have hend := hchars c (by rw [hc]; exact List.mem_singleton.mpr rfl)
      rw [Bool.or_eq_true] at hend
      refine ⟨tap, (fits_tap_iff tap).mp htap, ?_⟩
      rcases hend with hh | hp
      · left
        rw [hcs, of_decide_eq_true hh]
      · right
        rw [hcs, of_decide_eq_true hp]
    · intro h
      obtain ⟨tap, htap, hend⟩ := h
      have hlast : ∀ c, (decide (c = 'h') || decide (c = 'p')) = true →
          PatternFits [.run (fun c => decide (c = 'h') || decide (c = 'p')) 1 (some 1)] [c] := by
        intro c hc
        refine ⟨[c], [], rfl, ?_, by simp, ?_, rfl⟩
        · intro d hd
          rw [List.mem_singleton.mp hd]
          exact hc
        · intro m hm
          cases hm
          simp
      apply hsplit.mpr
      rcases hend with hh | hp
      · exact ⟨tap, ['h'], hh, (fits_tap_iff tap).mpr htap, hlast 'h' rfl⟩
      · exact ⟨tap, ['p'], hp, (fits_tap_iff tap).mpr htap, hlast 'p' rfl⟩

theorem NameValidator.accepts_iff (v : NameValidator) (name : String) :
    v.accepts name = true ↔
      v.Grammar name.toList ∨ ∃ w, name.toList = w ++ ['\n'] ∧ v.Grammar w := by
  unfold NameValidator.accepts
  rw [matchesDollar_iff, fits_iff_grammar]
  simp only [fits_iff_grammar]

theorem byteLength_append (a b : List Char) : byteLength (a ++ b) = byteLength a + byteLength b := by
  induction a with
  | nil => exact (Nat.zero_add _).symm
  | cons c rest ih =>
    show c.utf8Size + byteLength (rest ++ b) = c.utf8Size + byteLength rest + byteLength b
    rw [ih]
    omega

theorem byteLength_of_small {cs : List Char} (h : ∀ c ∈ cs, c.utf8Size = 1) :
    byteLength cs = cs.length := by
  induction cs with
  | nil => rfl
  | cons c rest ih =>
    have hrest := ih (fun d hd => h d (List.mem_cons_of_mem c hd))
    have hfirst := h c List.mem_cons_self
    show c.utf8Size + byteLength rest = (c :: rest).length
    rw [hrest, hfirst, List.length_cons]
    omega

theorem utf8Size_digit {c : Char} (h : c.isDigit = true) : c.utf8Size = 1 := by
  rw [Char.utf8Size_eq_one_iff]
  unfold Char.isDigit at h
  simp only [Bool.and_eq_true, decide_eq_true_eq] at h
  have hle : c.val.toNat ≤ 57 := h.2
  exact UInt32.le_iff_toNat_le.mpr (by
    show c.val.toNat ≤ 127
    omega)

theorem utf8Size_lowerHex {c : Char} (h : isLowerHex c = true) : c.utf8Size = 1 := by
  unfold isLowerHex at h
  rw [Bool.or_eq_true] at h
  rcases h with hdigit | hletter
  · exact utf8Size_digit hdigit
  · rw [Bool.and_eq_true] at hletter
    have hle : c.val.toNat ≤ 102 := of_decide_eq_true hletter.2
    rw [Char.utf8Size_eq_one_iff]
    exact UInt32.le_iff_toNat_le.mpr (by
      show c.val.toNat ≤ 127
      omega)

theorem byteLength_tap {cs : List Char} (h : TapGrammar cs) : byteLength cs ≤ 14 := by
  obtain ⟨hash, node, iface, hcs, hlong, hhash, _, hnodeMost, hnode, _, hifaceMost, hiface⟩ := h
  have h1 := byteLength_of_small (fun c hc => utf8Size_lowerHex (hhash c hc))
  have h2 := byteLength_of_small (fun c hc => utf8Size_digit (hnode c hc))
  have h3 := byteLength_of_small (fun c hc => utf8Size_digit (hiface c hc))
  have h4 : byteLength ['n', 'v', 'e'] = 3 := by decide
  have h5 : byteLength ['d'] = 1 := by decide
  have h6 : byteLength ['i'] = 1 := by decide
  rw [hcs, byteLength_append, byteLength_append, byteLength_append, byteLength_append,
    byteLength_append]
  omega

/-- The names of the lab side never exceed what the kernel takes. -/
theorem byteLength_lab {cs : List Char} (h : LabName cs) : byteLength cs ≤ 15 := by
  rcases h with hbridge | htap | hveth
  · obtain ⟨hash, network, hcs, hlong, hhash, _, hmost, hnetwork⟩ := hbridge
    have h1 := byteLength_of_small (fun c hc => utf8Size_lowerHex (hhash c hc))
    have h2 := byteLength_of_small (fun c hc => utf8Size_digit (hnetwork c hc))
    have h3 : byteLength ['n', 'o', 'v', 'e'] = 4 := by decide
    have h4 : byteLength ['n'] = 1 := by decide
    rw [hcs, byteLength_append, byteLength_append, byteLength_append]
    omega
  · have hle := byteLength_tap htap
    omega
  · obtain ⟨tap, htap, hend⟩ := hveth
    have hle := byteLength_tap htap
    have h1 : byteLength ['h'] = 1 := by decide
    have h2 : byteLength ['p'] = 1 := by decide
    rcases hend with hh | hp
    · rw [hh, byteLength_append]
      omega
    · rw [hp, byteLength_append]
      omega

theorem byteLength_hostBridge {cs : List Char} (h : NameValidator.hostBridge.Grammar cs) :
    byteLength cs = cs.length := by
  obtain ⟨digits, hcs, _, hdigits⟩ := h
  have h1 := byteLength_of_small (fun c hc => utf8Size_digit (hdigits c hc))
  have h2 : byteLength ['b', 'r', '-', 'e', 't', 'h'] = 6 := by decide
  rw [hcs, byteLength_append, List.length_append, h1, h2]
  rfl

/-- What is asked of the validators, the verbs and the backend for one name. -/
structure NamesExact (name : String) : Prop where
  exact : ∀ v : NameValidator, v.accepts name = true ↔
    v.Grammar name.toList ∧ byteLength name.toList ≤ 15
  iface : validateIfaceName name = true ↔ LabName name.toList ∧ byteLength name.toList ≤ 15
  labVerb : ∀ verb : HelperVerb, verb ≠ .linkMasterHost → ∀ arg ∈ verb.nameArgs,
    arg.accepts name = true → ¬ ['b', 'r', '-', 'e', 't', 'h'] <+: name.toList
  hostVerb : ∀ verb : HelperVerb, ∀ arg ∈ verb.nameArgs, arg = .checked .hostBridge →
    arg.accepts name = true → ¬ LabName name.toList
  backendBridge : backendBridgeName name = true ↔ NameValidator.bridge.accepts name = true
  backendHostBridge : backendHostBridgeName name = true ↔
    NameValidator.hostBridge.accepts name = true

/-- No name of the grammar with a newline after it, and no name of a host bridge that is too long. -/
def CleanName (name : String) : Prop :=
  (∀ (v : NameValidator) (w : List Char), name.toList = w ++ ['\n'] → ¬ v.Grammar w) ∧
    (NameValidator.hostBridge.Grammar name.toList → name.toList.length ≤ 15)

theorem NameValidator.Grammar.no_newline {v : NameValidator} {cs : List Char} (h : v.Grammar cs) :
    '\n' ∉ cs := by
  have hnone : ∀ part ∈ v.pattern, part.admits '\n' = false := by
    cases v with
    | bridge => decide
    | hostBridge => decide
    | tap => decide
    | veth => decide
  exact ((fits_iff_grammar v cs).mpr h).not_mem hnone

theorem LabName.head {cs : List Char} (h : LabName cs) : ∃ rest, cs = 'n' :: rest := by
  rcases h with hbridge | htap | hveth
  · obtain ⟨hash, network, hcs, _⟩ := hbridge
    exact ⟨_, hcs⟩
  · obtain ⟨hash, node, iface, hcs, _⟩ := htap
    exact ⟨_, hcs⟩
  · obtain ⟨tap, ⟨hash, node, iface, htap, _⟩, hend⟩ := hveth
    rcases hend with hh | hp
    · rw [htap] at hh
      exact ⟨_, hh⟩
    · rw [htap] at hp
      exact ⟨_, hp⟩

/-- What a lab-side check accepts starts as a lab name does. -/
theorem labArg_head {arg : NameArg} (harg : arg ≠ .checked .hostBridge) {name : String}
    (h : arg.accepts name = true) : ∃ rest, name.toList = 'n' :: rest := by
  have hchecked : ∀ v : NameValidator, v ≠ .hostBridge → v.accepts name = true →
      ∃ rest, name.toList = 'n' :: rest := by
    intro v hv haccepts
    have hlab : ∀ cs, v.Grammar cs → LabName cs := by
      intro cs hcs
      cases v with
      | bridge => exact Or.inl hcs
      | hostBridge => exact absurd rfl hv
      | tap => exact Or.inr (Or.inl hcs)
      | veth => exact Or.inr (Or.inr hcs)
    rcases (v.accepts_iff name).mp haccepts with hname | ⟨w, hname, hw⟩
    · exact (hlab _ hname).head
    · obtain ⟨rest, hrest⟩ := (hlab w hw).head
      exact ⟨rest ++ ['\n'], by rw [hname, hrest]; rfl⟩
  cases arg with
  | checked v =>
    apply hchecked v
    · intro hv
      exact harg (by rw [hv])
    · exact h
  | iface =>
    unfold NameArg.accepts validateIfaceName at h
    rw [Bool.or_eq_true, Bool.or_eq_true] at h
    rcases h with (htap | hveth) | hbridge
    · exact hchecked .tap (by decide) htap
    · exact hchecked .veth (by decide) hveth
    · exact hchecked .bridge (by decide) hbridge

/-- The validators, the verbs and the backend treat a name as they should just when it is clean. -/
theorem names_exact_iff (name : String) : NamesExact name ↔ CleanName name := by
  constructor
  · intro h
    refine ⟨?_, ?_⟩
    · intro v w hname hw
      have haccepts := (v.accepts_iff name).mpr (Or.inr ⟨w, hname, hw⟩)
      have hwhole := ((h.exact v).mp haccepts).1
      apply hwhole.no_newline
      rw [hname]
      simp
    · intro hhost
      have haccepts := (NameValidator.hostBridge.accepts_iff name).mpr (Or.inl hhost)
      have hbytes := ((h.exact .hostBridge).mp haccepts).2
      rw [byteLength_hostBridge hhost] at hbytes
      exact hbytes
  · intro h
    obtain ⟨hnewline, hlong⟩ := h
    have hwhole : ∀ v : NameValidator, v.accepts name = true ↔ v.Grammar name.toList := by
      intro v
      rw [v.accepts_iff name]
      constructor
      · intro haccepts
        rcases haccepts with hname | ⟨w, hname, hw⟩
        · exact hname
        · exact absurd hw (hnewline v w hname)
      · exact Or.inl
    have hbytes : ∀ v : NameValidator, v.Grammar name.toList → byteLength name.toList ≤ 15 := by
      intro v hv
      cases v with
      | bridge => exact byteLength_lab (Or.inl hv)
      | tap => exact byteLength_lab (Or.inr (Or.inl hv))
      | veth => exact byteLength_lab (Or.inr (Or.inr hv))
      | hostBridge =>
        rw [byteLength_hostBridge hv]
        exact hlong hv
    refine ⟨?_, ?_, ?_, ?_, ?_, ?_⟩
    · intro v
      rw [hwhole v]
      exact ⟨fun hv => ⟨hv, hbytes v hv⟩, fun hv => hv.1⟩
    · unfold validateIfaceName LabName
      rw [Bool.or_eq_true, Bool.or_eq_true, hwhole, hwhole, hwhole]
      constructor
      · intro haccepts
        rcases haccepts with (htap | hveth) | hbridge
        · exact ⟨Or.inr (Or.inl htap), hbytes .tap htap⟩
        · exact ⟨Or.inr (Or.inr hveth), hbytes .veth hveth⟩
        · exact ⟨Or.inl hbridge, hbytes .bridge hbridge⟩
      · intro hname
        rcases hname.1 with hbridge | htap | hveth
        · exact Or.inr hbridge
        · exact Or.inl (Or.inl htap)
        · exact Or.inl (Or.inr hveth)
    · intro verb hverb arg harg haccepts hstart
      have hlab : arg ≠ .checked .hostBridge := by
        intro heq
        rw [heq] at harg
        revert hverb harg
        cases verb <;> decide
      obtain ⟨rest, hrest⟩ := labArg_head hlab haccepts
      obtain ⟨tail, htail⟩ := hstart
      rw [hrest] at htail
      cases htail
    · intro verb arg _ heq haccepts hlab
      rw [heq] at haccepts
      obtain ⟨digits, hname, _⟩ := (hwhole .hostBridge).mp haccepts
      obtain ⟨rest, hrest⟩ := hlab.head
      rw [hrest] at hname
      cases hname
    · unfold backendBridgeName
      rw [hwhole .bridge, matchesEnd_iff]
      exact fits_iff_grammar .bridge name.toList
    · unfold backendHostBridgeName
      rw [hwhole .hostBridge, matchesEnd_iff]
      exact fits_iff_grammar .hostBridge name.toList

/-- `$` lets a newline through. -/
theorem helper_accepts_newline : ¬ ∀ name : String, NamesExact name := by
  intro h
  have hname := (h "nove0000n1\n").backendBridge
  revert hname
  decide

end NovaVe
