import NovaVe.Lab
import Mathlib.Data.Sym.Sym2

namespace NovaVe

inductive LinkError
  | duplicateLink (existing : Link)
  | interfaceAlreadyAttached (existing : Link) (nodeId interfaceIndex : Int)
  | networkMissing (networkId : Int)
  | ipamTargetMissing
  | linkMissing
  | contention
  | hotAttach
deriving DecidableEq, Repr

/-- `_link_pair_key`: the same for `{a, b}` and `{b, a}`. -/
def linkPairKey (a b : Endpoint) : Sym2 Endpoint := s(a, b)

/-- `create_link` takes the mutex of each node endpoint; the mutex is not reentrant, so a link from
an interface to itself ends in a contention error. -/
def takeMutexes (a b : Endpoint) : Except LinkError Unit :=
  if a = b ∧ a.network? = none then .error .contention else .ok ()

/-- The duplicate and wired-interface checks of `_create_link_locked`, in link order. -/
def checkConflicts (a b : Endpoint) : List Link → Except LinkError Unit
  | [] => .ok ()
  | existing :: rest =>
    if linkPairKey existing.from_ existing.to_ = linkPairKey a b then
      .error (.duplicateLink existing)
    else
      match existing.ifaces.find? (fun key => decide (key ∈ [a, b].filterMap Endpoint.iface?)) with
      | some (nodeId, interfaceIndex) =>
        .error (.interfaceAlreadyAttached existing nodeId interfaceIndex)
      | none => checkConflicts a b rest

def buildImplicitNetwork (networkId : Int) : Network :=
  { id := networkId, name := "", visibility := false, implicit := true }

/-- The state of `_create_link_locked` after its first write of `lab.json`. -/
structure CreatedLink where
  data : Lab
  concrete : List Link
  implicitNetwork : Option Int := none
  promoted : Option Network := none
deriving DecidableEq

/-- The branch for two node endpoints: a fresh implicit network and one link for each end. -/
def createImplicitBridge (data : Lab) (a b : Endpoint) (style : Option String) : CreatedLink :=
  let netId := data.networks.nextKey
  let first : Link :=
    { id := nextLinkId data.linkIds, from_ := a, to_ := .network netId, styleOverride := style }
  let second : Link :=
    { id := nextLinkId (data.linkIds ++ [first.id]), from_ := b, to_ := .network netId,
      styleOverride := style }
  { data := { data with
      networks := data.networks.set netId (buildImplicitNetwork netId)
      links := data.links ++ [first, second] }
    concrete := [first, second]
    implicitNetwork := some netId }

def promote (networkId : Int) (network : Network) : Network :=
  { network with
    implicit := false
    visibility := true
    name := if network.name = "" then "bridge-" ++ toString networkId else network.name }

/-- The promotion check: an implicit network is promoted when its refcount is exactly three. -/
def promoteAtThree (data : Lab) (targetNetworkId : Int) : Lab × Option Network :=
  match data.networks.get? targetNetworkId with
  | some record =>
    if record.implicit ∧ refcount data.links targetNetworkId = 3 then
      let promoted := promote targetNetworkId record
      ({ data with networks := data.networks.set targetNetworkId promoted }, some promoted)
    else (data, none)
  | none => (data, none)

/-- The branch with a network endpoint; only the first network endpoint is looked up. -/
def createMixedLink (data : Lab) (a b : Endpoint) (style : Option String) (targetNetworkId : Int) :
    Except LinkError CreatedLink :=
  match data.networks.get? targetNetworkId with
  | none => .error (.networkMissing targetNetworkId)
  | some _ =>
    let newLink : Link :=
      { id := nextLinkId data.linkIds, from_ := a, to_ := b, styleOverride := style }
    let promoted := promoteAtThree { data with links := data.links ++ [newLink] } targetNetworkId
    .ok { data := promoted.1, concrete := [newLink], promoted := promoted.2 }

def createLinkData (data : Lab) (a b : Endpoint) (style : Option String) :
    Except LinkError CreatedLink := do
  takeMutexes a b
  checkConflicts a b data.links
  match a, b with
  | .node _ _, .node _ _ => .ok (createImplicitBridge data a b style)
  | .network networkId, _ => createMixedLink data a b style networkId
  | _, .network networkId => createMixedLink data a b style networkId

/-- One hot-attached `(node, interface, network)` with the generation it was given. -/
structure Stamp where
  nodeId : Int
  interfaceIndex : Int
  networkId : Int
  attachGeneration : Int
deriving DecidableEq, Repr

def modifyFirst {α : Type} (p : α → Bool) (f : α → α) : List α → List α
  | [] => []
  | x :: xs => if p x then f x :: xs else x :: modifyFirst p f xs

def stampLink (generation : Int) (l : Link) : Link :=
  { l with runtime := { l.runtime with attachGeneration := some generation } }

def stampIface (generation : Int) (iface : Iface) : Iface :=
  { iface with currentAttachGeneration := some generation }

/-- `_stamp_link_attach_generation`: the link record, then the node's interface entry. -/
def stampLinkAttachGeneration (data : Lab) (stamp : Stamp) : Lab :=
  let links := modifyFirst
    (fun l => decide (Endpoint.node stamp.nodeId stamp.interfaceIndex ∈ l.endpoints) &&
      decide (Endpoint.network stamp.networkId ∈ l.endpoints))
    (stampLink stamp.attachGeneration) data.links
  match data.nodes.get? stamp.nodeId with
  | none => { data with links := links }
  | some node =>
    let interfaces := modifyFirst (fun iface => decide (iface.index = stamp.interfaceIndex))
      (stampIface stamp.attachGeneration) node.interfaces
    { data with
      links := links
      nodes := data.nodes.set stamp.nodeId { node with interfaces := interfaces } }

/-- `create_link` on `lab.json`. The hot-attach pass either raised (`none`), and the snapshot
taken before the first write is written back, or returned the stamps of what it attached. -/
def createLink (data : Lab) (a b : Endpoint) (style : Option String)
    (hotAttach : Option (List Stamp)) : Except LinkError Lab :=
  match createLinkData data a b style with
  | .error e => .error e
  | .ok created =>
    match hotAttach with
    | none => .error .hotAttach
    | some stamps => .ok (stamps.foldl stampLinkAttachGeneration created.data)

def findLink (data : Lab) (linkId : String) : Option Link :=
  data.links.find? (fun l => decide (l.id = linkId))

/-- Drop the first link that references an implicit network left with one reference. -/
def cascadeOrphan (networks : Dict Int Network) (links : List Link) (networkId : Int) :
    List Link :=
  match networks.get? networkId with
  | some record =>
    if record.implicit ∧ refcount links networkId = 1 then
      links.eraseP (fun l => decide (networkId ∈ l.networks))
    else links
  | none => links

/-- Drop an implicit network that no link references any more. -/
def collectImplicit (links : List Link) (networks : Dict Int Network) (networkId : Int) :
    Dict Int Network :=
  match networks.get? networkId with
  | some record =>
    if record.implicit ∧ refcount links networkId = 0 then networks.pop networkId else networks
  | none => networks

/-- Phase 4 of `_delete_link_locked`: remove the link, cascade, collect. -/
def removeLink (data : Lab) (removed : Link) (linkId : String) : Lab :=
  let rest := data.links.eraseP (fun l => decide (l.id = linkId))
  let links := removed.networks.foldl (cascadeOrphan data.networks) rest
  { data with
    links := links
    networks := removed.networks.foldl (collectImplicit links) data.networks }

def ipv4Octet (text : String) : Option Nat :=
  if text.toList ≠ [] ∧ text.toList.all Char.isDigit ∧ text.length ≤ 3 ∧
      (text.length = 1 ∨ text.toList.head? ≠ some '0') ∧ Nat.ofDigitChars 10 text.toList 0 ≤ 255 then
    some (Nat.ofDigitChars 10 text.toList 0)
  else none

/-- `int(IPv4Address(s))`. -/
def ipv4Value (text : String) : Option Nat :=
  match (text.splitOn ".").mapM ipv4Octet with
  | some [a, b, c, d] => some (((a * 256 + b) * 256 + c) * 256 + d)
  | _ => none

def releaseIpFromOwner (data : Lab) (networkId : Int) (ip : String) : Lab :=
  match data.networks.get? networkId with
  | none => data
  | some network =>
    if ip ∈ network.runtime.usedIps then
      let used := (network.runtime.usedIps.erase ip).mergeSort
        (fun x y => decide ((ipv4Value x).getD 0 ≤ (ipv4Value y).getD 0))
      { data with
        networks := data.networks.set networkId
          { network with runtime := { network.runtime with usedIps := used } } }
    else data

/-- Where the addresses of a network are kept: in this lab or in another one. -/
inductive IpamTarget
  | here (networkId : Int)
  | elsewhere (labPath : String) (networkId : Int)
deriving DecidableEq, Repr

/-- `_ipam_target`; `owner` is `find_nat_cloud_owner` over the labs directory. -/
def ipamTarget (owner : String → Option IpamTarget) (data : Lab) (networkId : Int) :
    Option IpamTarget :=
  match data.networks.get? networkId with
  | none => none
  | some network =>
    match network.config.sharedCloudId with
    | none => some (.here networkId)
    | some cloud => if cloud = "" then some (.here networkId) else owner cloud

/-- What phase 3 of `_delete_link_locked` releases and where: `none` when `_ipam_target` raises,
`some none` when the link carries no address. -/
def linkIpRelease (owner : String → Option IpamTarget) (data : Lab) (target : Link) :
    Option (Option (IpamTarget × String)) :=
  match target.runtime.ip, target.networks.head?, target.ifaces.isEmpty with
  | some ip, some networkId, false =>
    if ip = "" then some none
    else (ipamTarget owner data networkId).map (fun place => some (place, ip))
  | _, _, _ => some none

/-- The release in this lab. -/
def releaseHere (data : Lab) : Option (IpamTarget × String) → Lab
  | some (.here networkId, ip) => releaseIpFromOwner data networkId ip
  | _ => data

/-- `delete_link` on `lab.json`; a link that is not there is already deleted. The detach phase
either raised (`detached = false`), and nothing is written, or went through. -/
def deleteLink (owner : String → Option IpamTarget) (data : Lab) (linkId : String)
    (detached : Bool) : Except LinkError Lab :=
  match findLink data linkId with
  | none => .ok data
  | some target =>
    if detached then
      match linkIpRelease owner data target with
      | none => .error .ipamTargetMissing
      | some release => .ok (removeLink (releaseHere data release) target linkId)
    else .error .hotAttach

end NovaVe
