import Mathlib.Data.List.Perm.Basic
import NovaVe.Dict
import NovaVe.Texts

namespace NovaVe

/-- The number of an id of the form `lnk_<digits>`. -/
def linkIdNumber (id : String) : Option Nat :=
  match id.toList with
  | 'l' :: 'n' :: 'k' :: '_' :: tail => digitsNumber tail
  | _ => none

/-- `f"lnk_{n:03d}"`. -/
def linkIdOf (n : Nat) : String :=
  let digits := Nat.toDigits 10 n
  String.ofList ('l' :: 'n' :: 'k' :: '_' :: (List.replicate (3 - digits.length) '0' ++ digits))

/-- `_next_link_id` over the ids in use. -/
def nextLinkId (ids : List String) : String :=
  linkIdOf ((ids.filterMap linkIdNumber).foldl max 0 + 1)

theorem linkIdNumber_linkIdOf (n : Nat) : linkIdNumber (linkIdOf n) = some n := by
  have hdigits : (List.replicate (3 - (Nat.toDigits 10 n).length) '0' ++ Nat.toDigits 10 n).all
      Char.isDigit = true := by
    simp only [List.all_append, Bool.and_eq_true, List.all_eq_true]
    refine ⟨?_, fun c hc => Nat.isDigit_of_mem_toDigits (by omega) (by omega) hc⟩
    intro c hc
    rw [List.eq_of_mem_replicate hc]
    rfl
  have hne : List.replicate (3 - (Nat.toDigits 10 n).length) '0' ++ Nat.toDigits 10 n ≠ [] := by
    simp
  simp only [linkIdNumber, linkIdOf, String.toList_ofList, digitsNumber_ascii hne hdigits,
    Nat.ofDigitChars_append, Nat.ofDigitChars_replicate_zero]
  simp

/-- A fresh link id is none of the ids in use, whatever their form. -/
theorem nextLinkId_notMem (ids : List String) : nextLinkId ids ∉ ids := by
  intro hm
  have hn : (ids.filterMap linkIdNumber).foldl max 0 + 1 ∈ ids.filterMap linkIdNumber :=
    List.mem_filterMap.mpr ⟨_, hm, linkIdNumber_linkIdOf _⟩
  have hle : _ ≤ (ids.filterMap linkIdNumber).foldl max 0 := le_foldl_max (Or.inl hn)
  omega

inductive Endpoint
  | node (nodeId interfaceIndex : Int)
  | network (networkId : Int)
deriving DecidableEq, Repr

/-- The `(node_id, interface_index)` an endpoint wires, if it is a node endpoint. -/
def Endpoint.iface? : Endpoint → Option (Int × Int)
  | .node nodeId interfaceIndex => some (nodeId, interfaceIndex)
  | .network _ => none

def Endpoint.network? : Endpoint → Option Int
  | .node _ _ => none
  | .network networkId => some networkId

structure LinkMetrics where
  delayMs : Int := 0
  lossPct : Int := 0
  bandwidthKbps : Int := 0
  jitterMs : Int := 0
deriving DecidableEq, Repr

structure LinkRuntime where
  attachGeneration : Option Int := none
  ip : Option String := none
deriving DecidableEq, Repr

structure Link where
  id : String
  from_ : Endpoint
  to_ : Endpoint
  styleOverride : Option String := none
  label : String := ""
  color : String := ""
  width : String := "1"
  metrics : LinkMetrics := {}
  runtime : LinkRuntime := {}
deriving DecidableEq, Repr

def Link.endpoints (l : Link) : List Endpoint := [l.from_, l.to_]

def Link.ifaces (l : Link) : List (Int × Int) := l.endpoints.filterMap Endpoint.iface?

def Link.networks (l : Link) : List Int := l.endpoints.filterMap Endpoint.network?

inductive NodeType
  | qemu | docker | iol | dynamips
deriving DecidableEq, Repr

structure Iface where
  index : Int
  name : String
  plannedMac : Option String := none
  portPosition : Option String := none
  currentAttachGeneration : Option Int := none
  uplink : Bool := false
deriving DecidableEq, Repr

structure Node where
  id : Int
  name : String
  type : NodeType
  template : String := ""
  image : String := ""
  console : String := "telnet"
  status : Int := 0
  delay : Int := 0
  cpu : Int := 1
  ram : Int := 1024
  ethernet : Int := 1
  firstmac : Option String := none
  left : Int := 0
  top : Int := 0
  icon : String := "Router.png"
  config : Option String := none
  extras : Dict String String := Dict.empty
  interfaceNamingScheme : Option String := none
  interfaces : List Iface := []
deriving DecidableEq

inductive NetworkType
  | linuxBridge | ovsBridge | nat | natCloud | bridgeCloud | cloud | management
  | pnet (n : Fin 10)
  | internal (n : Fin 3)
  | private_ (n : Fin 3)
  | nat0
deriving DecidableEq, Repr

structure NetworkConfig where
  cidr : Option String := none
  gateway : Option String := none
  dhcp : Bool := false
  dhcpStart : Option String := none
  dhcpEnd : Option String := none
  egressInterface : Option String := none
  hostBridge : Option String := none
  sharedCloudId : Option String := none
deriving DecidableEq, Repr

structure NetworkRuntime where
  bridgeName : Option String := none
  driver : Option String := none
  usedIps : List String := []
  firstOffset : Int := 2
deriving DecidableEq, Repr

structure Network where
  id : Int
  name : String
  type : NetworkType := .linuxBridge
  left : Int := 0
  top : Int := 0
  icon : String := "01-Cloud-Default.svg"
  visibility : Bool := true
  implicit : Bool := false
  config : NetworkConfig := {}
  runtime : NetworkRuntime := {}
deriving DecidableEq, Repr

/-- A v2 `lab.json`, less the canvas data that no operation here reads. -/
structure Lab where
  id : String
  meta_ : Dict String String := Dict.empty
  nodes : Dict Int Node := Dict.empty
  networks : Dict Int Network := Dict.empty
  links : List Link := []
deriving DecidableEq

def emptyLabJson (labId : String) (labMeta : Dict String String) : Lab :=
  { id := labId, meta_ := labMeta }

def Lab.linkIds (lab : Lab) : List String := lab.links.map Link.id

/-- The number of link endpoints that name a network. -/
def references (links : List Link) (networkId : Int) : Nat :=
  (links.flatMap Link.networks).count networkId

/-- `int(ep.get("network_id", 0) or 0)`. -/
def Endpoint.networkIdOrZero : Endpoint → Int
  | .node _ _ => 0
  | .network networkId => networkId

/-- `_refcount`; asked about network 0 it also counts the node endpoints. -/
def refcount (links : List Link) (networkId : Int) : Nat :=
  (links.flatMap Link.endpoints).countP (fun e => decide (e.networkIdOrZero = networkId))

theorem Link.count_networks (l : Link) {networkId : Int} (h : networkId ≠ 0) :
    l.endpoints.countP (fun e => decide (e.networkIdOrZero = networkId)) =
      l.networks.count networkId := by
  obtain ⟨id, from_, to_, _⟩ := l
  cases from_ <;> cases to_ <;>
    simp [Link.endpoints, Link.networks, Endpoint.networkIdOrZero, Endpoint.network?,
      List.filterMap_cons, List.countP_cons, List.count_cons, Ne.symm h] <;>
    grind

theorem refcount_eq_references (links : List Link) {networkId : Int} (h : networkId ≠ 0) :
    refcount links networkId = references links networkId := by
  induction links with
  | nil => rfl
  | cons l rest ih =>
    simp only [refcount, references, List.flatMap_cons, List.countP_append, List.count_append]
      at ih ⊢
    rw [ih, l.count_networks h]

@[simp] theorem references_nil (networkId : Int) : references [] networkId = 0 := rfl

theorem references_cons (l : Link) (links : List Link) (networkId : Int) :
    references (l :: links) networkId =
      l.networks.count networkId + references links networkId := by
  simp [references, List.count_append]

theorem references_append (xs ys : List Link) (networkId : Int) :
    references (xs ++ ys) networkId = references xs networkId + references ys networkId := by
  simp [references, List.count_append]

theorem references_pos_iff {links : List Link} {networkId : Int} :
    0 < references links networkId ↔ ∃ l ∈ links, networkId ∈ l.networks := by
  simp [references, List.count_pos_iff]

theorem Link.mem_networks_iff {l : Link} {networkId : Int} :
    networkId ∈ l.networks ↔ Endpoint.network networkId ∈ l.endpoints := by
  constructor
  · intro h
    obtain ⟨e, he, hn⟩ := List.mem_filterMap.mp h
    cases e with
    | node n i => simp [Endpoint.network?] at hn
    | network k =>
      obtain rfl : k = networkId := by simpa [Endpoint.network?] using hn
      exact he
  · exact fun h => List.mem_filterMap.mpr ⟨_, h, rfl⟩

theorem Link.mem_ifaces_iff {l : Link} {nodeId interfaceIndex : Int} :
    (nodeId, interfaceIndex) ∈ l.ifaces ↔ Endpoint.node nodeId interfaceIndex ∈ l.endpoints := by
  constructor
  · intro h
    obtain ⟨e, he, hn⟩ := List.mem_filterMap.mp h
    cases e with
    | node n i =>
      obtain ⟨rfl, rfl⟩ : n = nodeId ∧ i = interfaceIndex := by simpa [Endpoint.iface?] using hn
      exact he
    | network k => simp [Endpoint.iface?] at hn
  · exact fun h => List.mem_filterMap.mpr ⟨_, h, rfl⟩

/-- The interface and the network of a link that wires an interface to a network. -/
def Link.attachment? (l : Link) : Option (Int × Int × Int) :=
  match l.from_, l.to_ with
  | .node nodeId interfaceIndex, .network networkId => some (nodeId, interfaceIndex, networkId)
  | .network networkId, .node nodeId interfaceIndex => some (nodeId, interfaceIndex, networkId)
  | _, _ => none

/-- The network of the last link on an interface. -/
def wiredNetwork (links : List Link) (nodeId interfaceIndex : Int) : Option Int :=
  links.foldl (fun last l =>
    match l.attachment? with
    | some (n, i, networkId) => if n = nodeId ∧ i = interfaceIndex then some networkId else last
    | none => last) none

/-- `_derive_legacy_interface_network_ids` for the entry at a list position. -/
def derivedNetworkId (links : List Link) (nodeKey : Int) (position : Nat) : Int :=
  links.foldl (fun last l =>
    match l.attachment? with
    | some (n, i, networkId) =>
      if n = nodeKey ∧ i = (position : Int) ∧ networkId ≠ 0 then networkId else last
    | none => last) 0

/-- The `link_map` of `_qemu_attachments`. -/
def linkMap (links : List Link) (nodeId : Int) : Dict Int Int :=
  links.foldl (fun d l =>
    match l.attachment? with
    | some (n, i, networkId) => if n = nodeId ∧ networkId ≠ 0 then d.set i networkId else d
    | none => d) Dict.empty

def NetworkType.isPnet : NetworkType → Bool
  | .pnet _ => true
  | _ => false

/-- The bridge kept in the network record, or else the generated name. -/
def networkBridge (bridgeName : String → Int → String) (lab : Lab) (networkId : Int) : String :=
  let stored := ((lab.networks.get? networkId).bind (fun network => network.runtime.bridgeName)).getD ""
  if stored = "" then bridgeName lab.id networkId else stored

def networkDriver? (lab : Lab) (networkId : Int) : Option String :=
  (lab.networks.get? networkId).bind (fun network => network.runtime.driver)

structure BootAttachment where
  interfaceIndex : Int
  networkId : Int
  bridgeName : String
  driver : Option String
deriving DecidableEq, Repr

/-- The record for one interface; a missing, zero or `pnet` network has none. -/
def bootAttachment? (bridgeName : String → Int → String) (lab : Lab)
    (interfaceIndex networkId : Int) : Option BootAttachment :=
  if networkId = 0 then none
  else
    match lab.networks.get? networkId with
    | none => none
    | some network =>
      if network.type.isPnet then none
      else some { interfaceIndex := interfaceIndex, networkId := networkId
                  bridgeName := networkBridge bridgeName lab networkId
                  driver := networkDriver? lab networkId }

/-- The network tried for an entry of `interfaces[]`: the derived one, or that of the link. -/
def entryNetwork (lab : Lab) (nodeKey : Int) (node : Node) (entry : Iface × Nat) : Int :=
  let derived := derivedNetworkId lab.links nodeKey entry.2
  if derived ≠ 0 then derived else ((linkMap lab.links node.id).get? entry.1.index).getD 0

/-- An attachment is added for an index that has none yet. -/
def addAttachment (found : List BootAttachment) (interfaceIndex : Int)
    (attachment : Option BootAttachment) : List BootAttachment :=
  if interfaceIndex ∈ found.map BootAttachment.interfaceIndex then found
  else
    match attachment with
    | none => found
    | some new => found ++ [new]

/-- The attachments of the entries of `interfaces[]`, by their `index` field. -/
def interfaceAttachments (bridgeName : String → Int → String) (lab : Lab) (nodeKey : Int)
    (node : Node) : List BootAttachment :=
  node.interfaces.zipIdx.foldl (fun found entry =>
    addAttachment found entry.1.index
      (bootAttachment? bridgeName lab entry.1.index (entryNetwork lab nodeKey node entry))) []

def sortByIndex (attachments : List BootAttachment) : List BootAttachment :=
  attachments.mergeSort (fun a b => decide (a.interfaceIndex ≤ b.interfaceIndex))

/-- `_docker_attachments`. -/
def dockerAttachments (bridgeName : String → Int → String) (lab : Lab) (nodeKey : Int) (node : Node) :
    List BootAttachment :=
  sortByIndex (interfaceAttachments bridgeName lab nodeKey node)

/-- `_qemu_attachments` of the node kept under `nodeKey`: the entries of `interfaces[]` by their
`index` field, then the interfaces that only a link names, sorted by index. -/
def qemuAttachments (bridgeName : String → Int → String) (lab : Lab) (nodeKey : Int) (node : Node) :
    List BootAttachment :=
  sortByIndex ((linkMap lab.links node.id).entries.foldl (fun found entry =>
    if node.ethernet ≤ entry.1 then found
    else addAttachment found entry.1 (bootAttachment? bridgeName lab entry.1 entry.2))
    (interfaceAttachments bridgeName lab nodeKey node))

def attachmentByIndex (attachments : List BootAttachment) : Dict Int BootAttachment :=
  attachments.foldl (fun d a => d.set a.interfaceIndex a) Dict.empty

structure Expected where
  networkId : Int
  bridgeName : String
  driver : Option String
  attachGeneration : Int
deriving DecidableEq, Repr

/-- `int(attach_gen) if attach_gen else 1`. -/
def expectedGeneration (l : Link) : Int :=
  match l.runtime.attachGeneration with
  | none => 1
  | some generation => if generation = 0 then 1 else generation

/-- The `expected` map of `_reconcile_qemu_node_links_locked`. -/
def expectedAttachments (bridgeName : String → Int → String) (lab : Lab) (nodeId bootEthernet : Int) :
    Dict Int Expected :=
  lab.links.foldl (fun d l =>
    match l.attachment? with
    | some (n, i, networkId) =>
      if n = nodeId ∧ i < bootEthernet then
        d.set i { networkId := networkId, bridgeName := networkBridge bridgeName lab networkId
                  driver := networkDriver? lab networkId
                  attachGeneration := expectedGeneration l }
      else d
    | none => d) Dict.empty

end NovaVe
