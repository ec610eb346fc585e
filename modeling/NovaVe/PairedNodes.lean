import Mathlib.Data.List.ReduceOption
import NovaVe.LinkService
import NovaVe.PairedTemplates

namespace NovaVe

def orElseText (text default : String) : String := if text = "" then default else text

/-- The interfaces given at creation; the explicit names are laid over the rendered ones. -/
def pairedChildInterfaces (lower : String → String) (child : PairedChild) : List Iface :=
  (defaultInterfaces (normalizePairedChildKind lower child.kind) child.ethernetCount none
    child.builtFormat).mapIdx (fun index iface =>
      { iface with name := ((child.explicitNames[index]?).getD none).getD iface.name })

/-- `_build_paired_child_payload`; none when a cast raises. -/
def buildPairedChildPayload (lower : String → String) (newUuid : Int → String) (templateKey : String)
    (nodeId : Int) (child : PairedChild) (childId name : String) (left top : Int) : Option Node := do
  let type := normalizePairedChildKind lower child.kind
  let ethernet ← child.ethernet.get 1
  let given ← child.extras.get Dict.empty
  let cpu ← child.cpu.get 1
  let ram ← child.ram.get 1024
  let _ ← child.cpulimit.get 1
  let extras := match type with
    | .qemu => setIfBlank (setIfBlank given "uuid" (newUuid nodeId)) "firstmac" (firstMacForNode nodeId)
    | _ => given
  some { id := nodeId, name := name, type := type
         template := templateKey ++ "__" ++ childId
         image := child.image, console := orElseText child.console "telnet"
         cpu := cpu, ram := ram, ethernet := ethernet
         firstmac := match type with
          | .qemu => extras.get? "firstmac"
          | _ => none
         left := left, top := top
         icon := iconFilenameFor lower (orElseText child.iconType "router")
         extras := extras
         interfaces := pairedChildInterfaces lower child }

/-- A `NodeFromPairedTemplate`. -/
structure PairedRequest where
  templateKey : String
  baseLeft : Int := 0
  baseTop : Int := 0
  nameOverrides : Dict String String := Dict.empty
deriving DecidableEq

/-- The nodes of the lab with the children built so far, and the node of each child id. -/
structure BuiltChildren where
  nodes : Dict Int Node
  nodeIds : Dict String Int := Dict.empty
deriving DecidableEq

/-- `child.get("id") or f"child-{index}"`. -/
def childKey (child : PairedChild) (index : Nat) : String :=
  orElseText child.id ("child-" ++ toString index)

/-- One round of the loop over the children; none when it raises. -/
def addPairedChild (lower : String → String) (newUuid : Int → String) (request : PairedRequest)
    (nextId : Int) (built : BuiltChildren) (entry : Option PairedChild × Nat) :
    Option BuiltChildren := do
  let child ← entry.1
  let index := entry.2
  let childId := childKey child index
  let name := orElseText ((request.nameOverrides.get? childId).getD "")
    (orElseText child.name (request.templateKey ++ "-" ++ childId))
  let position := nodePosition true index request.baseLeft request.baseTop
  let payload ← buildPairedChildPayload lower newUuid request.templateKey (nextId + index) child
    childId name position.1 position.2
  some { nodes := built.nodes.set (nextId + index) payload
         nodeIds := built.nodeIds.set childId (nextId + index) }

/-- The loop over the children; the ids go on from the next free one. -/
def addPairedChildren (lower : String → String) (newUuid : Int → String) (request : PairedRequest)
    (nextId : Int) (built : BuiltChildren) : List (Option PairedChild × Nat) → Option BuiltChildren
  | [] => some built
  | entry :: rest => do
    let next ← addPairedChild lower newUuid request nextId built entry
    addPairedChildren lower newUuid request nextId next rest

/-- `_resolve_iface_index`: the position of the interface in the list. -/
def resolveIfaceIndex (node : Node) (ifaceName : String) : Option Nat :=
  node.interfaces.findIdx? (fun iface => decide (iface.name = ifaceName))

def resolvePairedEnd (built : BuiltChildren) (childId ifaceName : String) : Option Endpoint := do
  let nodeId ← built.nodeIds.get? childId
  let node ← built.nodes.get? nodeId
  let index ← resolveIfaceIndex node ifaceName
  some (.node nodeId index)

inductive PairedFailure
  | building
  | lookup
  | linking (error : LinkError)
deriving DecidableEq

/-- The loop over the links: both ends are looked up, then `create_link` is called. -/
def addPairedLinks (built : BuiltChildren) (data : Lab) : List PairedLink → Except PairedFailure Lab
  | [] => .ok data
  | link :: rest =>
    match resolvePairedEnd built link.fromNode link.fromIface,
        resolvePairedEnd built link.toNode link.toIface with
    | some a, some b =>
      match createLinkData data a b none with
      | .error error => .error (.linking error)
      | .ok created => addPairedLinks built created.data rest
    | _, _ => .error .lookup

/-- `create_nodes_from_paired_template` on `lab.json`, with no node running. -/
def instantiatePaired (lower : String → String) (newUuid : Int → String) (request : PairedRequest)
    (template : PairedTemplate) (data : Lab) : Except PairedFailure (BuiltChildren × Lab) :=
  match addPairedChildren lower newUuid request data.nodes.nextKey { nodes := data.nodes }
      template.nodes.zipIdx with
  | none => .error .building
  | some built =>
    (addPairedLinks built { data with nodes := built.nodes } template.links.reduceOption).map
      (fun result => (built, result))

/-- A child whose casts go through. -/
def PairedChild.Castable (child : PairedChild) : Prop :=
  child.ethernet ≠ .refused ∧ child.extras ≠ .refused ∧ child.cpu ≠ .refused ∧
    child.ram ≠ .refused ∧ child.cpulimit ≠ .refused

theorem CastField.get_isSome {α : Type} (default : α) (field : CastField α) :
    (field.get default).isSome = true ↔ field ≠ .refused := by
  cases field with
  | absent => simp [CastField.get]
  | value a => simp [CastField.get]
  | refused => simp [CastField.get]

/-- A payload is built exactly when the casts go through. -/
theorem buildPairedChildPayload_isSome {lower : String → String} {newUuid : Int → String}
    {templateKey : String} {nodeId : Int} {child : PairedChild} {childId name : String}
    {left top : Int} :
    (buildPairedChildPayload lower newUuid templateKey nodeId child childId name left top).isSome =
      true ↔ child.Castable := by
  unfold buildPairedChildPayload PairedChild.Castable
  rw [← CastField.get_isSome 1 child.ethernet, ← CastField.get_isSome Dict.empty child.extras,
    ← CastField.get_isSome 1 child.cpu, ← CastField.get_isSome 1024 child.ram,
    ← CastField.get_isSome 1 child.cpulimit]
  cases child.ethernet.get 1 with
  | none => simp
  | some ethernet =>
    cases child.extras.get Dict.empty with
    | none => simp
    | some extras =>
      cases child.cpu.get 1 with
      | none => simp
      | some cpu =>
        cases child.ram.get 1024 with
        | none => simp
        | some ram =>
          cases child.cpulimit.get 1 with
          | none => simp
          | some cpulimit => simp

theorem buildPairedChildPayload_interfaces {lower : String → String} {newUuid : Int → String}
    {templateKey : String} {nodeId : Int} {child : PairedChild} {childId name : String}
    {left top : Int} {node : Node}
    (h : buildPairedChildPayload lower newUuid templateKey nodeId child childId name left top =
      some node) : node.interfaces = pairedChildInterfaces lower child := by
  unfold buildPairedChildPayload at h
  obtain ⟨ethernet, _, h⟩ := Option.bind_eq_some_iff.mp h
  obtain ⟨extras, _, h⟩ := Option.bind_eq_some_iff.mp h
  obtain ⟨cpu, _, h⟩ := Option.bind_eq_some_iff.mp h
  obtain ⟨ram, _, h⟩ := Option.bind_eq_some_iff.mp h
  obtain ⟨cpulimit, _, h⟩ := Option.bind_eq_some_iff.mp h
  cases h
  rfl

/-- The last child of the entries that a test holds of. -/
def lastChild (test : PairedChild → Nat → Bool) :
    List (Option PairedChild × Nat) → Option (PairedChild × Nat)
  | [] => none
  | entry :: rest => (lastChild test rest).or
    (entry.1.bind (fun child => if test child entry.2 then some (child, entry.2) else none))

/-- The test for the children with an id. -/
def namedTest (childId : String) (child : PairedChild) (_ : Nat) : Bool := decide (child.id = childId)

/-- The test for the children that a creation keeps under an id. -/
def keyedTest (childId : String) (child : PairedChild) (index : Nat) : Bool :=
  decide (childKey child index = childId)

theorem lastChild_mem {test : PairedChild → Nat → Bool} {entries : List (Option PairedChild × Nat)}
    {child : PairedChild} {index : Nat} (h : lastChild test entries = some (child, index)) :
    (some child, index) ∈ entries ∧ test child index = true := by
  induction entries with
  | nil => cases h
  | cons entry rest ih =>
    unfold lastChild at h
    rcases Option.or_eq_some_iff.mp h with hrest | ⟨_, hentry⟩
    · obtain ⟨hmem, htest⟩ := ih hrest
      exact ⟨List.mem_cons_of_mem _ hmem, htest⟩
    · obtain ⟨first, hfirst, hentry⟩ := Option.bind_eq_some_iff.mp hentry
      split at hentry
      next htest =>
        cases hentry
        refine ⟨?_, htest⟩
        rw [← hfirst]
        exact List.mem_cons_self
      next => cases hentry

/-- A last child is also the last for a narrower test that holds of it. -/
theorem lastChild_narrow {test narrow : PairedChild → Nat → Bool}
    (h : ∀ child index, narrow child index = true → test child index = true)
    {entries : List (Option PairedChild × Nat)} {child : PairedChild} {index : Nat}
    (hlast : lastChild test entries = some (child, index)) (hnarrow : narrow child index = true) :
    lastChild narrow entries = some (child, index) := by
  have hnone : ∀ entries, lastChild test entries = none → lastChild narrow entries = none := by
    intro entries hnone
    cases hfound : lastChild narrow entries with
    | none => rfl
    | some found =>
      exfalso
      induction entries with
      | nil => cases hfound
      | cons entry rest ih =>
        unfold lastChild at hnone hfound
        obtain ⟨hrest, hentry⟩ := Option.or_eq_none_iff.mp hnone
        rcases Option.or_eq_some_iff.mp hfound with hfound | ⟨_, hfound⟩
        · exact ih hrest hfound
        · obtain ⟨first, hfirst, hfound⟩ := Option.bind_eq_some_iff.mp hfound
          rw [hfirst, Option.bind_some] at hentry
          split at hfound
          next htest => rw [if_pos (h _ _ htest)] at hentry; cases hentry
          next => cases hfound
  induction entries with
  | nil => cases hlast
  | cons entry rest ih =>
    unfold lastChild at hlast ⊢
    rcases Option.or_eq_some_iff.mp hlast with hrest | ⟨hrest, hentry⟩
    · rw [ih hrest]
      rfl
    · obtain ⟨first, hfirst, hentry⟩ := Option.bind_eq_some_iff.mp hentry
      split at hentry
      next =>
        cases hentry
        rw [hnone rest hrest, hfirst, Option.bind_some, if_pos hnarrow]
        rfl
      next => cases hentry

/-- The child that the pre-flight looks at for an id. -/
theorem childrenById_get? (template : PairedTemplate) (childId : String) :
    template.childrenById.get? childId =
      (lastChild (namedTest childId) template.nodes.zipIdx).map Prod.fst := by
  have hfold : ∀ (nodes : List (Option PairedChild)) (start : Nat) (children : Dict String PairedChild),
      (nodes.reduceOption.foldl (fun children child => children.set child.id child) children).get?
          childId =
        ((lastChild (namedTest childId) (nodes.zipIdx start)).map Prod.fst).or
          (children.get? childId) := by
    intro nodes
    induction nodes with
    | nil =>
      intro start children
      rfl
    | cons entry rest ih =>
      intro start children
      rw [List.zipIdx_cons]
      cases entry with
      | none =>
        have hrest := ih (start + 1) children
        rw [List.reduceOption_cons_of_none, hrest]
        simp [lastChild]
      | some child =>
        have hrest := ih (start + 1) (children.set child.id child)
        rw [List.reduceOption_cons_of_some, List.foldl_cons, hrest]
        simp only [lastChild, namedTest, decide_eq_true_eq, Option.bind_some, Dict.get?_set]
        cases lastChild (namedTest childId) (rest.zipIdx (start + 1)) with
        | some found => rfl
        | none =>
          by_cases hid : child.id = childId
          · simp [hid]
          · simp [hid]
  have hall := hfold template.nodes 0 Dict.empty
  unfold PairedTemplate.childrenById
  rw [hall, Dict.get?_empty, Option.or_none]

/-- What one round of the loop over the children does. -/
theorem addPairedChild_spec {lower : String → String} {newUuid : Int → String}
    {request : PairedRequest} {nextId : Int} {built next : BuiltChildren}
    {entry : Option PairedChild × Nat}
    (h : addPairedChild lower newUuid request nextId built entry = some next) :
    ∃ child node, entry.1 = some child ∧ child.Castable ∧
      node.interfaces = pairedChildInterfaces lower child ∧
      next = { nodes := built.nodes.set (nextId + entry.2) node
               nodeIds := built.nodeIds.set (childKey child entry.2) (nextId + entry.2) } := by
  obtain ⟨child, hchild, h⟩ := Option.bind_eq_some_iff.mp h
  obtain ⟨node, hnode, h⟩ := Option.bind_eq_some_iff.mp h
  refine ⟨child, node, hchild, ?_, buildPairedChildPayload_interfaces hnode, (Option.some.inj h).symm⟩
  exact buildPairedChildPayload_isSome.mp (Option.isSome_iff_exists.mpr ⟨node, hnode⟩)

theorem addPairedChild_isSome {lower : String → String} {newUuid : Int → String}
    {request : PairedRequest} {nextId : Int} {built : BuiltChildren} {child : PairedChild}
    {index : Nat} (h : child.Castable) :
    ∃ next, addPairedChild lower newUuid request nextId built (some child, index) = some next := by
  have hsome := @buildPairedChildPayload_isSome lower newUuid request.templateKey (nextId + index)
    child (childKey child index)
    (orElseText ((request.nameOverrides.get? (childKey child index)).getD "")
      (orElseText child.name (request.templateKey ++ "-" ++ childKey child index)))
    (nodePosition true index request.baseLeft request.baseTop).1
    (nodePosition true index request.baseLeft request.baseTop).2
  obtain ⟨node, hnode⟩ := Option.isSome_iff_exists.mp (hsome.mpr h)
  refine ⟨{ nodes := built.nodes.set (nextId + index) node
            nodeIds := built.nodeIds.set (childKey child index) (nextId + index) }, ?_⟩
  unfold addPairedChild
  simp only [Option.bind_eq_bind, Option.bind_some, hnode]

/-- The loop over the children ends well exactly when each is a mapping whose casts go through. -/
theorem addPairedChildren_isSome {lower : String → String} {newUuid : Int → String}
    {request : PairedRequest} {nextId : Int} {built : BuiltChildren}
    {entries : List (Option PairedChild × Nat)} :
    (∃ final, addPairedChildren lower newUuid request nextId built entries = some final) ↔
      ∀ entry ∈ entries, ∃ child, entry.1 = some child ∧ child.Castable := by
  induction entries generalizing built with
  | nil => exact ⟨fun _ entry hentry => absurd hentry List.not_mem_nil, fun _ => ⟨built, rfl⟩⟩
  | cons entry rest ih =>
    constructor
    · intro h
      obtain ⟨final, hfinal⟩ := h
      obtain ⟨next, hnext, hrest⟩ := Option.bind_eq_some_iff.mp hfinal
      obtain ⟨child, node, hchild, hcast, _⟩ := addPairedChild_spec hnext
      intro other hother
      rcases List.mem_cons.mp hother with rfl | hother
      · exact ⟨child, hchild, hcast⟩
      · exact ih.mp ⟨final, hrest⟩ other hother
    · intro h
      obtain ⟨child, hchild, hcast⟩ := h entry List.mem_cons_self
      obtain ⟨next, hnext⟩ := @addPairedChild_isSome lower newUuid request nextId built child entry.2 hcast
      obtain ⟨final, hfinal⟩ := (@ih next).mpr (fun other hother => h other (List.mem_cons_of_mem _ hother))
      refine ⟨final, Option.bind_eq_some_iff.mpr ⟨next, ?_, hfinal⟩⟩
      rw [← hnext, ← hchild]

/-- The loop leaves the nodes alone that are none of its own. -/
theorem addPairedChildren_frame {lower : String → String} {newUuid : Int → String}
    {request : PairedRequest} {nextId : Int} {built final : BuiltChildren}
    {entries : List (Option PairedChild × Nat)}
    (h : addPairedChildren lower newUuid request nextId built entries = some final) {nodeId : Int}
    (hother : ∀ entry ∈ entries, nextId + entry.2 ≠ nodeId) :
    final.nodes.get? nodeId = built.nodes.get? nodeId := by
  induction entries generalizing built with
  | nil =>
    cases h
    rfl
  | cons entry rest ih =>
    obtain ⟨next, hnext, hrest⟩ := Option.bind_eq_some_iff.mp h
    obtain ⟨child, node, _, _, _, rfl⟩ := addPairedChild_spec hnext
    rw [ih hrest (fun other hmem => hother other (List.mem_cons_of_mem _ hmem))]
    exact Dict.get?_set_ne _ _ (hother entry List.mem_cons_self)

/-- Each child gets its node. -/
theorem addPairedChildren_nodes {lower : String → String} {newUuid : Int → String}
    {request : PairedRequest} {nextId : Int} {built final : BuiltChildren}
    {entries : List (Option PairedChild × Nat)}
    (h : addPairedChildren lower newUuid request nextId built entries = some final)
    (hnodup : (entries.map Prod.snd).Nodup) {child : PairedChild} {index : Nat}
    (hmem : (some child, index) ∈ entries) :
    ∃ node, final.nodes.get? (nextId + index) = some node ∧
      node.interfaces = pairedChildInterfaces lower child := by
  induction entries generalizing built with
  | nil => cases hmem
  | cons entry rest ih =>
    obtain ⟨next, hnext, hrest⟩ := Option.bind_eq_some_iff.mp h
    obtain ⟨hnot, hnodup⟩ := List.nodup_cons.mp hnodup
    rcases List.mem_cons.mp hmem with heq | hmem
    · obtain ⟨first, node, hfirst, _, hinterfaces, rfl⟩ := addPairedChild_spec hnext
      rw [← heq] at hfirst hnot
      cases hfirst
      refine ⟨node, ?_, hinterfaces⟩
      rw [addPairedChildren_frame hrest (fun other hother => ?_), ← heq, Dict.get?_set_self]
      intro hsame
      have hindex : other.2 = index := by omega
      exact hnot (List.mem_map.mpr ⟨other, hother, hindex⟩)
    · exact ih hrest hnodup hmem

/-- The ids of the loop: the last child kept under an id counts. -/
theorem addPairedChildren_ids {lower : String → String} {newUuid : Int → String}
    {request : PairedRequest} {nextId : Int} {built final : BuiltChildren}
    {entries : List (Option PairedChild × Nat)}
    (h : addPairedChildren lower newUuid request nextId built entries = some final)
    (childId : String) :
    final.nodeIds.get? childId =
      ((lastChild (keyedTest childId) entries).map (fun found => nextId + (found.2 : Int))).or
        (built.nodeIds.get? childId) := by
  induction entries generalizing built with
  | nil =>
    cases h
    rfl
  | cons entry rest ih =>
    obtain ⟨next, hnext, hrest⟩ := Option.bind_eq_some_iff.mp h
    obtain ⟨child, node, hchild, _, _, rfl⟩ := addPairedChild_spec hnext
    rw [ih hrest, Dict.get?_set]
    simp only [lastChild, keyedTest, hchild, Option.bind_some, decide_eq_true_eq]
    cases lastChild (keyedTest childId) rest with
    | some found => rfl
    | none =>
      by_cases hid : childKey child entry.2 = childId
      · simp [hid]
      · simp [hid]

end NovaVe
