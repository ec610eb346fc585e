import Mathlib.Data.List.Lex
import Mathlib.Data.List.Sort
import NovaVe.Lab
import NovaVe.IfaceNames
import NovaVe.Texts

namespace NovaVe

/-- What the canvas knows of a network. -/
structure NetworkShape where
  implicit : Bool := false
  visibility : Bool
deriving DecidableEq, Repr

/-- `implicit` and hidden: the bridge of a paired creation. -/
def isImplicitNet (networks : Int → Option NetworkShape) (networkId : Int) : Bool :=
  match networks networkId with
  | none => false
  | some network => network.implicit && !network.visibility

/-- One more member of the group of a key, after those that are there. -/
def addToGroup {α : Type} (groups : Dict Int (List α)) (key : Int) (x : α) : Dict Int (List α) :=
  groups.set key ((groups.get? key).getD [] ++ [x])

/-- The members grouped by their key, in the order in which the keys are met. -/
def groupByKey {α : Type} (key : α → Option Int) (xs : List α) : Dict Int (List α) :=
  xs.foldl (fun groups x =>
    match key x with
    | none => groups
    | some k => addToGroup groups k x) Dict.empty

theorem groupByKey_append {α : Type} (key : α → Option Int) (xs : List α) (x : α) :
    groupByKey key (xs ++ [x]) =
      match key x with
      | none => groupByKey key xs
      | some k => addToGroup (groupByKey key xs) k x := by
  rw [groupByKey, List.foldl_append]
  rfl

theorem groupByKey_get {α : Type} (key : α → Option Int) (xs : List α) (k : Int) :
    ((groupByKey key xs).get? k).getD [] = xs.filter (fun x => decide (key x = some k)) := by
  induction xs using List.reverseRecOn with
  | nil => rfl
  | append_singleton xs x ih =>
    rw [groupByKey_append, List.filter_append]
    cases hkey : key x with
    | none => simp [hkey, ih]
    | some j =>
      by_cases hj : j = k
      · subst hj
        simp [addToGroup, hkey, ih]
      · simp [addToGroup, Dict.get?_set_ne, hkey, hj, ih]

theorem groupByKey_ne_nil {α : Type} (key : α → Option Int) (xs : List α) {k : Int}
    {group : List α} (h : (groupByKey key xs).get? k = some group) : group ≠ [] := by
  induction xs using List.reverseRecOn generalizing k group with
  | nil => cases h
  | append_singleton xs x ih =>
    rw [groupByKey_append] at h
    cases hkey : key x with
    | none => exact ih (by simpa [hkey] using h)
    | some j =>
      simp only [hkey, addToGroup, Dict.get?_set] at h
      split at h
      next => simp [← Option.some.inj h]
      next => exact ih h

/-- A group is kept exactly when it has a member. -/
theorem groupByKey_get_iff {α : Type} (key : α → Option Int) (xs : List α) {k : Int}
    {group : List α} :
    (groupByKey key xs).get? k = some group ↔
      group ≠ [] ∧ xs.filter (fun x => decide (key x = some k)) = group := by
  rw [← groupByKey_get]
  constructor
  · intro h
    exact ⟨groupByKey_ne_nil key xs h, by rw [h]; rfl⟩
  · rintro ⟨hne, h⟩
    cases hget : (groupByKey key xs).get? k with
    | none =>
      rw [hget] at h
      exact absurd h.symm hne
    | some other =>
      rw [hget] at h
      exact congrArg some h

/-- The network a named link ends on. -/
def Link.slotNetwork (l : Link) : Option Int :=
  if l.id = "" then none else l.to_.network?

/-- `pairsByNet` of `_buildImplicitNetMeta`. -/
def pairsByNet (networks : Int → Option NetworkShape) (links : List Link) : Dict Int (List Link) :=
  groupByKey (fun l => l.slotNetwork.filter (isImplicitNet networks)) links

def utf16Units (text : String) : List Nat :=
  text.toList.flatMap (fun c =>
    if c.toNat < 0x10000 then [c.toNat]
    else [0xd800 + (c.toNat - 0x10000) / 0x400, 0xdc00 + (c.toNat - 0x10000) % 0x400])

/-- `Array.prototype.sort` of texts. -/
def sortTexts (texts : List String) : List String :=
  texts.insertionSort (fun a b => utf16Units a ≤ utf16Units b)

def isOptimisticId (id : String) : Bool := "tmp_".toList.isPrefixOf id.toList

def sortLinkIdsForSlots (linkIds : List String) : List String :=
  sortTexts (linkIds.filter (fun id => !isOptimisticId id)) ++
    sortTexts (linkIds.filter isOptimisticId)

def assignNetworkSlots (linkIds : List String) : Dict String Nat :=
  (sortLinkIdsForSlots linkIds).zipIdx.foldl (fun slots entry => slots.set entry.1 entry.2)
    Dict.empty

/-- `buildNetworkSlotMap`: the slots of the links on each network. -/
def networkSlots (links : List Link) (networkId : Int) : Option (Dict String Nat) :=
  ((groupByKey Link.slotNetwork links).get? networkId).map
    (fun group => assignNetworkSlots (group.map Link.id))

def numberText (n : Int) : String := String.ofList (intText n)

def slotHandleId (networkId : Int) (slot : Nat) : String :=
  "network:" ++ numberText networkId ++ ":slot:" ++ numberText slot

def nodeTarget (nodeId : Int) : String := "node" ++ numberText nodeId

def networkTarget (networkId : Int) : String := "network" ++ numberText networkId

def ifaceHandle : Option Int → String
  | none => "default"
  | some index => "iface-" ++ numberText index

def leadingNumber (cs : List Char) : Option Nat :=
  let digits := cs.takeWhile Char.isDigit
  if digits = [] then none else some (Nat.ofDigitChars 10 digits 0)

/-- The double next to `n`, the even one of two that are equally near. -/
def roundDouble (n : Nat) : Nat :=
  let unit := 2 ^ (Nat.log2 n - 52)
  let quotient := n / unit
  let rest := 2 * (n % unit)
  if unit < rest ∨ rest = unit ∧ quotient % 2 = 1 then (quotient + 1) * unit else quotient * unit

/-- `parseInt(text, 10)`, `none` for `NaN` and where it is not finite. -/
def parseInt10 (text : String) : Option Int :=
  let number (rest : List Char) : Option Int :=
    ((leadingNumber rest).map (fun n => roundDouble n)).bind (fun n =>
      if n < 2 ^ 1024 then some (n : Int) else none)
  match text.toList.dropWhile isJsSpace with
  | '-' :: rest => (number rest).map Neg.neg
  | '+' :: rest => number rest
  | rest => number rest

/-- The fewest digits that are read back as the double `n`, and how many zeros follow them. -/
def shortestDigits (n : Nat) : Nat → Nat × Nat
  | 0 => (n, 0)
  | zeros + 1 =>
    let digits := (n + 10 ^ (zeros + 1) / 2) / 10 ^ (zeros + 1)
    if roundDouble (digits * 10 ^ (zeros + 1)) = n then (digits, zeros + 1)
    else shortestDigits n zeros

/-- `String(n)` of a positive whole double. -/
def doubleText (n : Nat) : String :=
  let shown := shortestDigits n (Nat.toDigits 10 n).length
  let digits := Nat.toDigits 10 shown.1
  let places := digits.length + shown.2
  if places ≤ 21 then String.ofList (digits ++ List.replicate shown.2 '0')
  else
    let fraction := digits.drop 1
    String.ofList (digits.take 1 ++ (if fraction = [] then [] else '.' :: fraction)) ++ "e+" ++
      numberText (places - 1)

def strokeWidthOf (width : String) : Nat :=
  match parseInt10 width with
  | none => 1
  | some value => if value > 0 then value.toNat else 1

def strokeColorOf (color : String) : String := if color = "" then "#9ca3af" else color

inductive EdgeStroke
  | plain (color : String) (width : Nat)
  | divergent
  | orphan
  | discovered
deriving DecidableEq, Repr

def EdgeStroke.style : EdgeStroke → String
  | .plain color width =>
    "stroke: " ++ color ++ "; stroke-width: " ++ doubleText width ++ "px;"
  | .divergent => "stroke: #f87171; stroke-dasharray: 2 2; opacity: 0.7;"
  | .orphan => "stroke: #fbbf24; stroke-dasharray: 4 3; opacity: 0.85;"
  | .discovered => "stroke: #fbbf24; stroke-dasharray: 6 4;"

/-- The part of an edge's `data` in which the three kinds of edges differ. -/
inductive EdgeOverlay
  | pair (networkId : Int) (linkIds : List String)
  | declared (divergent orphanImplicit : Bool) (lastChecked : Option String)
  | discovered (iface bridge : String) (networkId peerNodeId : Int) (peerIface : Option Int)
deriving DecidableEq, Repr

structure EdgeData where
  styleOverride : Option String
  defaultStyle : String
  label : String
  color : String
  width : String
  overlay : EdgeOverlay
deriving DecidableEq, Repr

structure CanvasEdge where
  id : String
  source : String
  target : String
  sourceHandle : String
  targetHandle : String
  label : Option String
  style : String
  data : EdgeData
deriving DecidableEq, Repr

structure DiscoveredLink where
  iface : String
  bridgeName : String
  networkId : Int
  peerNodeId : Option Int
  peerInterfaceIndex : Option Int := none
deriving DecidableEq, Repr

/-- What the reconciliation says of a declared link the kernel does not have. -/
structure DivergentEntry where
  lastChecked : Option String := none
deriving DecidableEq, Repr

/-- What one drawing of the canvas reads; the maps are given by what they answer. -/
structure CanvasInput where
  links : List Link
  linkStyle : Option String := none
  discovered : List DiscoveredLink := []
  divergentByLinkId : String → Option DivergentEntry := fun _ => none
  networks : Int → Option NetworkShape := fun _ => none

def CanvasInput.defaultStyle (req : CanvasInput) : String := req.linkStyle.getD "orthogonal"

def edgeLabel (label : String) : Option String := if label = "" then none else some label

/-- The two halves of a group that are drawn as one edge. -/
def mergedHalves : List Link → Option (Link × Link)
  | [a, b] => if a.from_.iface?.isSome ∧ b.from_.iface?.isSome then some (a, b) else none
  | _ => none

/-- The two ends in the order of node and interface. -/
def sortedEnds (a b : Int × Int) : (Int × Int) × (Int × Int) :=
  if b.1 < a.1 ∨ b.1 = a.1 ∧ b.2 < a.2 then (b, a) else (a, b)

def pairEdge (req : CanvasInput) (networkId : Int) (a b : Link) : CanvasEdge :=
  let ends := sortedEnds (a.from_.iface?.getD (0, 0)) (b.from_.iface?.getD (0, 0))
  { id := "pair:net" ++ numberText networkId
    source := nodeTarget ends.1.1
    target := nodeTarget ends.2.1
    sourceHandle := ifaceHandle (some ends.1.2)
    targetHandle := ifaceHandle (some ends.2.2)
    label := edgeLabel a.label
    style := (EdgeStroke.plain (strokeColorOf a.color) (strokeWidthOf a.width)).style
    data :=
      { styleOverride := a.styleOverride
        defaultStyle := req.defaultStyle
        label := a.label
        color := a.color
        width := a.width
        overlay := .pair networkId [a.id, b.id] } }

def pairEdges (req : CanvasInput) : List CanvasEdge :=
  (pairsByNet req.networks req.links).entries.filterMap (fun entry =>
    (mergedHalves entry.2).map (fun halves => pairEdge req entry.1 halves.1 halves.2))

def handledImplicitLinkIds (req : CanvasInput) : List String :=
  (pairsByNet req.networks req.links).entries.flatMap (fun entry =>
    match mergedHalves entry.2 with
    | none => []
    | some halves => [halves.1.id, halves.2.id])

/-- The node or the slot a declared link is drawn to. -/
def edgeTarget (req : CanvasInput) (l : Link) : String × String :=
  match l.to_ with
  | .network networkId =>
    let slots := networkSlots req.links networkId
    let slot := (slots.bind (fun d => d.get? l.id)).getD
      ((slots.map (fun d => d.keys.length)).getD 0)
    (networkTarget networkId, slotHandleId networkId slot)
  | .node nodeId interfaceIndex => (nodeTarget nodeId, ifaceHandle (some interfaceIndex))

def isOrphanImplicit (req : CanvasInput) (l : Link) : Bool :=
  match l.to_ with
  | .network networkId =>
    isImplicitNet req.networks networkId &&
      decide ((((pairsByNet req.networks req.links).get? networkId).getD []).length ≠ 2)
  | .node _ _ => false

def strokeOf (req : CanvasInput) (l : Link) : EdgeStroke :=
  if (req.divergentByLinkId l.id).isSome then .divergent
  else if isOrphanImplicit req l then .orphan
  else .plain (strokeColorOf l.color) (strokeWidthOf l.width)

/-- A declared link's own edge; a link without an id or that starts on a network has none. -/
def linkEdge (req : CanvasInput) (l : Link) : Option CanvasEdge :=
  if l.id = "" then none
  else if l.id ∈ handledImplicitLinkIds req then none
  else match l.from_ with
  | .network _ => none
  | .node nodeId interfaceIndex =>
    some
      { id := "link:" ++ l.id
        source := nodeTarget nodeId
        target := (edgeTarget req l).1
        sourceHandle := ifaceHandle (some interfaceIndex)
        targetHandle := (edgeTarget req l).2
        label := edgeLabel l.label
        style := (strokeOf req l).style
        data :=
          { styleOverride := l.styleOverride
            defaultStyle := req.defaultStyle
            label := l.label
            color := l.color
            width := l.width
            overlay := .declared (req.divergentByLinkId l.id).isSome (isOrphanImplicit req l)
              ((req.divergentByLinkId l.id).bind DivergentEntry.lastChecked) } }

def discoveredEdge (req : CanvasInput) (d : DiscoveredLink) : Option CanvasEdge :=
  if d.iface = "" then none
  else d.peerNodeId.map (fun nodeId =>
    { id := "discovered:" ++ d.iface
      source := nodeTarget nodeId
      target := networkTarget d.networkId
      sourceHandle := ifaceHandle d.peerInterfaceIndex
      targetHandle := slotHandleId d.networkId
        (((networkSlots req.links d.networkId).map (fun slots => slots.keys.length)).getD 0)
      label := none
      style := EdgeStroke.discovered.style
      data :=
        { styleOverride := none
          defaultStyle := req.defaultStyle
          label := ""
          color := "#fbbf24"
          width := "1"
          overlay := .discovered d.iface d.bridgeName d.networkId nodeId d.peerInterfaceIndex } })

/-- `deriveEdges`. -/
def deriveEdges (req : CanvasInput) : List CanvasEdge :=
  pairEdges req ++ req.links.filterMap (linkEdge req) ++
    req.discovered.filterMap (discoveredEdge req)

end NovaVe
