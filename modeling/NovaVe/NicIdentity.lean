import NovaVe.Texts
import NovaVe.Writers
import Mathlib.Data.List.Basic

namespace NovaVe

/-- `_extra_str`. -/
def extraStr (extras : Dict String String) (key : String) : String :=
  pyStrip ((extras.get? key).getD "")

/-- The NIC model that the extras of a node ask for. -/
def Node.nicModel (node : Node) : String :=
  if extraStr node.extras "qemu_nic" = "" then "e1000" else extraStr node.extras "qemu_nic"

/-- `node.get("firstmac") or extras.get("firstmac")`. -/
def Node.firstMac (node : Node) : Option String :=
  if node.firstmac.getD "" = "" then node.extras.get? "firstmac" else node.firstmac

def hexDigitValue (c : Char) : Option Nat :=
  if '0' ≤ c ∧ c ≤ '9' then some (c.toNat - '0'.toNat)
  else if 'a' ≤ c ∧ c ≤ 'f' then some (c.toNat - 'a'.toNat + 10)
  else if 'A' ≤ c ∧ c ≤ 'F' then some (c.toNat - 'A'.toNat + 10)
  else none

/-- The digits of a text in base 16, with single underscores between them. -/
def hexDigitsValue (digits : List Char) : Option Nat :=
  let groups := digits.splitOn '_'
  if groups.any List.isEmpty then none
  else groups.flatten.foldl
    (fun value c => (value.bind (fun n => (hexDigitValue c).map (fun d => 16 * n + d)))) (some 0)

/-- The digits after the sign: `0x` may stand before them, and one underscore after it. -/
def hexMagnitude : List Char → Option Nat
  | '0' :: 'x' :: '_' :: digits => hexDigitsValue digits
  | '0' :: 'X' :: '_' :: digits => hexDigitsValue digits
  | '0' :: 'x' :: digits => hexDigitsValue digits
  | '0' :: 'X' :: digits => hexDigitsValue digits
  | digits => hexDigitsValue digits

/-- `int(text, 16)`. -/
def hexInt (text : List Char) : Option Int :=
  match intChars text with
  | '-' :: digits => (hexMagnitude digits).map (fun n => -(n : Int))
  | '+' :: digits => (hexMagnitude digits).map (fun n => (n : Int))
  | digits => (hexMagnitude digits).map (fun n => (n : Int))

/-- `f"{n:0{width}x}"`; the sign counts. -/
def hexPadded (width : Nat) (n : Int) : List Char :=
  let digits := Nat.toDigits 16 n.natAbs
  let sign := if n < 0 then ['-'] else []
  sign ++ List.replicate (width - sign.length - digits.length) '0' ++ digits

/-- The text in pairs, with colons between them. -/
def macPairs (digits : List Char) : String :=
  String.ofList (List.intercalate [':']
    ((List.range 6).map (fun i => (digits.drop (2 * i)).take 2)))

/-- `_mac_for_index`; none when it raises. -/
def macForIndex (firstMac : Option String) (index : Int) : Option String :=
  let first := firstMac.getD ""
  if first = "" then
    some ("52:54:00:00:" ++ String.ofList (hexPadded 2 (index / 256)) ++ ":" ++
      String.ofList (hexPadded 2 (index % 256)))
  else do
    let parts ← (first.toList.splitOn ':').mapM hexInt
    let value ← hexInt (parts.flatMap (hexPadded 2))
    some (macPairs (hexPadded 12 (value + index)))

/-- What QEMU is told of a NIC; the MAC is none when its computation raises. -/
structure NicIdentity where
  model : String
  mac : Option String
deriving DecidableEq, Repr

/-- The NIC in the argv of a boot. -/
def Node.bootNic (node : Node) (index : Int) : NicIdentity :=
  ⟨node.nicModel, macForIndex node.firstMac index⟩

/-- The planned MAC that is stored for an interface, empty when there is none. -/
def Node.storedMac (node : Node) (interfaceIndex : Int) : String :=
  ((lookupInterface node.interfaces interfaceIndex).bind
    (fun position => node.interfaces[position]?.bind Iface.plannedMac)).getD ""

/-- The node in the lab file that the scan for a lab id finds. -/
def scannedNode (labs : Labs) (labId : String) (nodeId : Int) : Option Node :=
  ((plannedMacFile labs labId).bind labs.get?).bind (fun data => data.nodes.get? nodeId)

/-- `_resolve_qemu_nic_model`. -/
def resolveQemuNicModel (labs : Labs) (labId : String) (nodeId : Int) : String :=
  match scannedNode labs labId nodeId with
  | none => "e1000"
  | some node => node.nicModel

/-- `_resolve_qemu_planned_mac`; none when it raises. -/
def resolveQemuPlannedMac (labs : Labs) (labId : String) (nodeId interfaceIndex : Int) :
    Option String :=
  match scannedNode labs labId nodeId with
  | none => some ""
  | some node =>
    if node.storedMac interfaceIndex ≠ "" then some (node.storedMac interfaceIndex)
    else macForIndex node.firstMac interfaceIndex

/-- The NIC that a hot-add asks for. -/
def hotNic (labs : Labs) (labId : String) (nodeId interfaceIndex : Int) : NicIdentity :=
  ⟨resolveQemuNicModel labs labId nodeId, resolveQemuPlannedMac labs labId nodeId interfaceIndex⟩

theorem macPairs_ne_empty (digits : List Char) : macPairs digits ≠ "" := by
  intro h
  have hlist := congrArg String.toList h
  simp [macPairs, List.range, List.range.loop, List.intercalate, List.intersperse] at hlist

/-- A MAC that is computed is never empty. -/
theorem macForIndex_ne_empty (firstMac : Option String) (index : Int) :
    macForIndex firstMac index ≠ some "" := by
  intro h
  unfold macForIndex at h
  dsimp only at h
  split at h
  next =>
    have hlist := congrArg String.toList (Option.some.inj h)
    simp at hlist
  next =>
    obtain ⟨parts, _, h⟩ := Option.bind_eq_some_iff.mp h
    obtain ⟨value, _, h⟩ := Option.bind_eq_some_iff.mp h
    exact macPairs_ne_empty _ (Option.some.inj h)

/-- The scan reaches a node of the same model, and its stored MAC is empty, with the same first MAC,
or is what the boot gives the interface. -/
def ScanAgrees (labs : Labs) (labId : String) (nodeId : Int) (node : Node) (index : Int) : Prop :=
  ∃ seen, scannedNode labs labId nodeId = some seen ∧ seen.nicModel = node.nicModel ∧
    (if seen.storedMac index = "" then
        macForIndex seen.firstMac index = macForIndex node.firstMac index
      else macForIndex node.firstMac index = some (seen.storedMac index))

theorem hotNic_eq_bootNic_iff (labs : Labs) (labId : String) (nodeId : Int) (node : Node)
    (index : Int) :
    hotNic labs labId nodeId index = node.bootNic index ↔ ScanAgrees labs labId nodeId node index := by
  unfold hotNic Node.bootNic ScanAgrees resolveQemuNicModel resolveQemuPlannedMac
  rw [NicIdentity.mk.injEq]
  cases scannedNode labs labId nodeId with
  | none =>
    constructor
    · intro h
      exact absurd h.2.symm (macForIndex_ne_empty _ _)
    · intro h
      obtain ⟨seen, hsome, _⟩ := h
      cases hsome
  | some seen =>
    dsimp only
    constructor
    · intro h
      obtain ⟨hmodel, hmac⟩ := h
      refine ⟨seen, rfl, hmodel, ?_⟩
      by_cases hstored : seen.storedMac index = ""
      · rw [if_neg (not_not.mpr hstored)] at hmac
        rw [if_pos hstored]
        exact hmac
      · rw [if_pos hstored] at hmac
        rw [if_neg hstored]
        exact hmac.symm
    · intro h
      obtain ⟨seen', hsome, hmodel, hmac⟩ := h
      cases hsome
      refine ⟨hmodel, ?_⟩
      by_cases hstored : seen.storedMac index = ""
      · rw [if_pos hstored] at hmac
        rw [if_neg (not_not.mpr hstored), hmac]
      · rw [if_neg hstored] at hmac
        rw [if_pos hstored, hmac]

/-- A lab id that one file has is found when this file is not in a folder. -/
theorem plannedMacFile_eq {labs : Labs} {path : String} {lab : Lab} (hlab : labs.get? path = some lab)
    (hid : ∀ other lab', labs.get? other = some lab' → lab'.id = lab.id → other = path) :
    plannedMacFile labs lab.id = if path.toList.contains '/' then none else some path := by
  have hmem : (path, lab) ∈ labs.entries := mem_of_assocGet hlab
  have honly : ∀ entry ∈ labs.entries, entry.2.id = lab.id → entry.1 = path := by
    intro entry hentry heq
    exact hid entry.1 entry.2 (assocGet_of_mem labs.keysNodup hentry) heq
  unfold plannedMacFile
  split
  next hnested =>
    rw [Option.map_eq_none_iff, List.find?_eq_none]
    intro entry hentry hfound
    rw [Bool.and_eq_true] at hfound
    rw [honly entry hentry (of_decide_eq_true hfound.2), hnested] at hfound
    simp at hfound
  next htop =>
    cases hfind : labs.entries.find?
        (fun entry => !entry.1.toList.contains '/' && decide (entry.2.id = lab.id)) with
    | none =>
      have hnot := List.find?_eq_none.mp hfind (path, lab) hmem
      rw [Bool.not_eq_true] at htop
      simp only [htop, Bool.not_false, decide_true, Bool.and_self, not_true_eq_false] at hnot
    | some entry =>
      have hfound := List.find?_some hfind
      rw [Bool.and_eq_true] at hfound
      have hpath := honly entry (List.mem_of_find?_eq_some hfind) (of_decide_eq_true hfound.2)
      rw [Option.map_some, hpath]

/-- Where no other file has the id of the lab, the NICs agree for a lab that is not in a folder and
an interface whose stored MAC is empty or that of the boot. -/
theorem scanAgrees_iff {labs : Labs} {path : String} {lab : Lab} {nodeId : Int} {node : Node}
    (hlab : labs.get? path = some lab) (hnode : lab.nodes.get? nodeId = some node)
    (hid : ∀ other lab', labs.get? other = some lab' → lab'.id = lab.id → other = path)
    (index : Int) :
    ScanAgrees labs lab.id nodeId node index ↔ path.toList.contains '/' = false ∧
      (node.storedMac index = "" ∨
        macForIndex node.firstMac index = some (node.storedMac index)) := by
  have hscan : scannedNode labs lab.id nodeId =
      if path.toList.contains '/' then none else some node := by
    unfold scannedNode
    rw [plannedMacFile_eq hlab hid]
    split
    next => rfl
    next =>
      rw [Option.bind_some, hlab, Option.bind_some]
      exact hnode
  unfold ScanAgrees
  rw [hscan]
  cases path.toList.contains '/' with
  | true => simp
  | false =>
    constructor
    · intro h
      obtain ⟨seen, hseen, _, hmac⟩ := h
      cases hseen
      refine ⟨rfl, ?_⟩
      by_cases hstored : node.storedMac index = ""
      · exact Or.inl hstored
      · rw [if_neg hstored] at hmac
        exact Or.inr hmac
    · intro h
      refine ⟨node, if_neg (by simp), rfl, ?_⟩
      by_cases hstored : node.storedMac index = ""
      · rw [if_pos hstored]
      · rw [if_neg hstored]
        exact h.2.resolve_left hstored

/-- A hot-add and a boot of a node give an interface the same NIC exactly when the scan for the lab
reaches the node and no other MAC is stored for the interface: where no other file has the id of the
lab, when the lab is not in a folder and the stored MAC is empty or that of the boot. -/
theorem hot_nic_eq_boot_iff (labs : Labs) (labId : String) (nodeId : Int) (node : Node)
    (index : Int) :
    (hotNic labs labId nodeId index = node.bootNic index ↔
      ScanAgrees labs labId nodeId node index) ∧
    ∀ path lab, labs.get? path = some lab → lab.id = labId → lab.nodes.get? nodeId = some node →
      (∀ other lab', labs.get? other = some lab' → lab'.id = labId → other = path) →
        (ScanAgrees labs labId nodeId node index ↔ path.toList.contains '/' = false ∧
          (node.storedMac index = "" ∨
            macForIndex node.firstMac index = some (node.storedMac index))) := by
  refine ⟨hotNic_eq_bootNic_iff labs labId nodeId node index, ?_⟩
  rintro path lab hlab rfl hnode hid
  exact scanAgrees_iff hlab hnode hid index

def nestedNode : Node := { id := 1, name := "r", type := .qemu, firstmac := some "50:00:00:01:00:00" }

def nestedLab : Lab := { id := "lab", nodes := Dict.empty.set 1 nestedNode }

/-- A lab in a folder. -/
def nestedLabs : Labs := Dict.empty.set "site/lab.json" nestedLab

theorem nested_nic_differs :
    ¬ ∀ (labs : Labs) (path : String) (lab : Lab) (nodeId : Int) (node : Node) (index : Int),
      labs.get? path = some lab → lab.nodes.get? nodeId = some node →
        hotNic labs lab.id nodeId index = node.bootNic index := by
  intro h
  have hhot : hotNic nestedLabs nestedLab.id 1 0 = ⟨"e1000", some ""⟩ := by decide +kernel
  have hboot : nestedNode.bootNic 0 = ⟨"e1000", some "50:00:00:01:00:00"⟩ := by decide +kernel
  have hsame := h nestedLabs "site/lab.json" nestedLab 1 nestedNode 0 (Dict.get?_set_self _ _ _)
    (Dict.get?_set_self _ _ _)
  rw [hhot, hboot] at hsame
  exact absurd hsame (by decide)

end NovaVe
