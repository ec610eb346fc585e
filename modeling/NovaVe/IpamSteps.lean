import Mathlib.Data.List.Perm.Basic
import Mathlib.Data.List.Range
import NovaVe.Ipam
import NovaVe.Runs

namespace NovaVe

variable {network : Network} {range : NatCloudRange}

/-- The network record at a lab path and a network id. -/
def networkAt (labs : Dict String Lab) (target : String × Int) : Option Network :=
  (labs.get? target.1).bind (fun lab => lab.networks.get? target.2)

theorem networkAt_eq_some_iff {labs : Dict String Lab} {target : String × Int} :
    networkAt labs target = some network ↔
      ∃ lab, labs.get? target.1 = some lab ∧ lab.networks.get? target.2 = some network :=
  Option.bind_eq_some_iff

/-- The step wrote one network record of one lab. -/
structure PutNetwork (labs labs' : Dict String Lab) (target : String × Int) (network : Network) :
    Prop where
  written : ∃ lab, labs.get? target.1 = some lab ∧
    labs' = labs.set target.1 { lab with networks := lab.networks.set target.2 network }

theorem PutNetwork.lookup {labs labs' : Dict String Lab} {target : String × Int}
    (put : PutNetwork labs labs' target network) (other : String × Int) :
    networkAt labs' other = if target = other then some network else networkAt labs other := by
  obtain ⟨lab, hlab, hlabs⟩ := put.written
  obtain ⟨path, id⟩ := target
  obtain ⟨otherPath, otherId⟩ := other
  subst hlabs
  by_cases hp : path = otherPath
  · subst hp
    have hget : networkAt labs (path, otherId) = lab.networks.get? otherId := by
      unfold networkAt
      rw [hlab, Option.bind_some]
    rw [hget]
    unfold networkAt
    rw [Dict.get?_set_self, Option.bind_some]
    by_cases hi : id = otherId
    · subst hi
      simp
    · simp [Dict.get?_set_ne _ _ hi, hi]
  · unfold networkAt
    rw [Dict.get?_set_ne _ _ hp]
    simp [hp]

/-- No lab changes its id, and every lab stays. -/
theorem PutNetwork.lab {labs labs' : Dict String Lab} {target : String × Int}
    (put : PutNetwork labs labs' target network) {path : String} {lab : Lab}
    (h : labs.get? path = some lab) : ∃ lab', labs'.get? path = some lab' ∧ lab'.id = lab.id := by
  obtain ⟨target', htarget, hlabs⟩ := put.written
  subst hlabs
  by_cases hp : target.1 = path
  · subst hp
    obtain rfl : target' = lab := by rw [htarget] at h; exact Option.some.inj h
    exact ⟨_, Dict.get?_set_self _ _ _, rfl⟩
  · exact ⟨lab, by rw [Dict.get?_set_ne _ _ hp]; exact h, rfl⟩

/-- A record that owns the cloud id, as the scan reads it. -/
def OwnsCloudId (labs : Dict String Lab) (cloudId : String) (target : String × Int) : Prop :=
  ∃ lab network, labs.get? target.1 = some lab ∧ lab.networks.get? target.2 = some network ∧
    network.type = .natCloud ∧ given network.config.sharedCloudId = none ∧
    natCloudId (cloudLabId target.1 lab) network.id = cloudId

theorem mem_cloudRefs_iff {labs : Dict String Lab} {ref : CloudNetworkRef} :
    ref ∈ cloudRefs labs ↔ ∃ path lab id network, labs.get? path = some lab ∧
      lab.networks.get? id = some network ∧ network.type = .natCloud ∧
      cloudRef path lab network = ref := by
  simp only [cloudRefs, labCloudRefs, List.mem_flatMap, List.mem_map, List.mem_filter,
    decide_eq_true_eq]
  constructor
  · rintro ⟨⟨path, lab⟩, hlab, ⟨id, network⟩, ⟨hnetwork, htype⟩, href⟩
    exact ⟨path, lab, id, network, assocGet_of_mem labs.keysNodup hlab,
      assocGet_of_mem lab.networks.keysNodup hnetwork, htype, href⟩
  · rintro ⟨path, lab, id, network, hlab, hnetwork, htype, href⟩
    exact ⟨(path, lab), Dict.mem_entries_of_get? hlab, (id, network),
      ⟨Dict.mem_entries_of_get? hnetwork, htype⟩, href⟩

theorem findNatCloudOwner_isSome {labs : Dict String Lab} {cloudId : String}
    {target : String × Int} (h : OwnsCloudId labs cloudId target) :
    (findNatCloudOwner labs cloudId).isSome := by
  obtain ⟨lab, network, hlab, hnetwork, htype, hshared, hid⟩ := h
  refine List.find?_isSome.mpr ⟨cloudRef target.1 lab network, ?_, ?_⟩
  · exact mem_cloudRefs_iff.mpr ⟨_, _, _, _, hlab, hnetwork, htype, rfl⟩
  · simp [cloudRef, hshared, hid]

theorem findNatCloudOwner_spec {labs : Dict String Lab} {cloudId : String}
    {ref : CloudNetworkRef} (h : findNatCloudOwner labs cloudId = some ref) :
    ∃ lab id network, labs.get? ref.labPath = some lab ∧ lab.networks.get? id = some network ∧
      network.type = .natCloud ∧ given network.config.sharedCloudId = none ∧
      natCloudId (cloudLabId ref.labPath lab) network.id = cloudId ∧ ref.networkId = network.id := by
  have hmem := List.mem_of_find?_eq_some h
  have hkind := List.find?_some h
  obtain ⟨path, lab, id, network, hlab, hnetwork, htype, rfl⟩ := mem_cloudRefs_iff.mp hmem
  obtain ⟨hreference, hid⟩ := Bool.and_eq_true_iff.mp hkind
  have hshared : given network.config.sharedCloudId = none := by
    simpa [cloudRef] using hreference
  have hid := of_decide_eq_true hid
  simp only [cloudRef, hshared, Option.getD_none] at hid
  exact ⟨lab, id, network, hlab, hnetwork, htype, hshared, hid, rfl⟩

theorem sharedCloudIdOf_of_given {config : NetworkConfig} (h : given config.sharedCloudId = none) :
    sharedCloudIdOf config = "" := by
  unfold sharedCloudIdOf
  cases hs : config.sharedCloudId with
  | none => rfl
  | some text =>
    rw [hs] at h
    have hempty : text = "" := by simpa [given, Option.filter_some] using h
    subst hempty
    rfl

/-- The addresses a NAT cloud may hand out: inside the subnet, in its static part, and neither
the network's, the broadcast's, the gateway's nor the DHCP server's. -/
structure NatCloudRange.Usable (range : NatCloudRange) (address : Nat) : Prop where
  inside : range.net.contains address = true
  static : address ≤ range.net.networkAddress + natCloudStaticLastOffset
  notNetwork : address ≠ range.net.networkAddress
  notBroadcast : address ≠ range.net.broadcastAddress
  notGateway : address ≠ range.gateway
  notDhcp : ¬ (range.dhcpStart ≤ address ∧ address ≤ range.dhcpEnd)

/-- The record's config is the one that was accepted for the range. -/
structure Network.Ranged (network : Network) (range : NatCloudRange) : Prop where
  cidr : network.config.cidr = some range.net.text
  gateway : network.config.gateway = some (ipv4Text range.gateway)
  dhcpStart : network.config.dhcpStart = some (ipv4Text range.dhcpStart)
  dhcpEnd : network.config.dhcpEnd = some (ipv4Text range.dhcpEnd)

theorem NatCloudRange.broadcast_ge (range : NatCloudRange) :
    range.net.networkAddress + 255 ≤ range.net.broadcastAddress := by
  have hsize := range.net.size_ge range.wide
  unfold IPv4Network.broadcastAddress
  omega

theorem NatCloudRange.contains_iff (range : NatCloudRange) (address : Nat) :
    range.net.contains address = true ↔
      range.net.networkAddress ≤ address ∧ address ≤ range.net.broadcastAddress := by
  simp [IPv4Network.contains]

/-- With the gateway at the first address, the usable addresses are the offsets 2 to 99. -/
theorem NatCloudRange.usable_iff (hgateway : range.gateway = range.net.networkAddress + 1)
    {address : Nat} :
    range.Usable address ↔
      range.net.networkAddress + 2 ≤ address ∧ address ≤ range.net.networkAddress + 99 := by
  have hlast : natCloudStaticLastOffset = 99 := rfl
  have hbroadcast := range.broadcast_ge
  have hdhcp := range.dhcpAfterStatic
  constructor
  · intro h
    have hin := (range.contains_iff address).mp h.inside
    have hstatic := h.static
    have hnetwork := h.notNetwork
    have hgw := h.notGateway
    omega
  · intro h
    refine ⟨(range.contains_iff address).mpr ?_, ?_, ?_, ?_, ?_, ?_⟩ <;> omega

theorem IPv4Network.text_ne_empty (net : IPv4Network) : net.text ≠ "" := by
  intro h
  have hlist := congrArg String.toList h
  unfold IPv4Network.text at hlist
  rw [String.toList_ofList] at hlist
  simp at hlist

theorem given_text (net : IPv4Network) : given (some net.text) = some net.text := by
  have hne := net.text_ne_empty
  simp [given, Option.filter_some, hne]

/-- A subnet that was written out is validated as itself. -/
theorem validateCidr_text (net : IPv4Network) : validateCidr (some net.text) = .ok net := by
  have hstrip : pyStrip net.text = net.text := pyStrip_eq_self net.text_no_space
  have hne := net.text_ne_empty
  unfold validateCidr
  simp only [Option.getD_some, hstrip, if_neg hne, ipNetwork_text]

/-- The record of a NAT cloud whose gateway is the first address, with the addresses it holds. -/
structure Network.Holds (network : Network) (range : NatCloudRange) (addresses : List Nat) :
    Prop where
  type : network.type = .natCloud
  ranged : network.Ranged range
  firstGateway : range.gateway = range.net.networkAddress + 1
  offset : network.runtime.firstOffset = 2
  used : network.runtime.usedIps = addresses.map ipv4Text
  distinct : addresses.Nodup
  inRange : ∀ a ∈ addresses,
    range.net.networkAddress + 2 ≤ a ∧ a ≤ range.net.networkAddress + 99

theorem NatCloudRange.lt_of_le {a : Nat} (h : a ≤ range.net.networkAddress + 99) :
    a < 4294967296 := by
  have hbroadcast := range.broadcast_ge
  have hlt := range.net.broadcast_lt
  omega

theorem filterMap_parse {addresses : List Nat} (h : ∀ a ∈ addresses, a < 4294967296) :
    (addresses.map ipv4Text).filterMap parseIPv4 = addresses := by
  induction addresses with
  | nil => rfl
  | cons a rest ih =>
    have ha := parseIPv4_ipv4Text (h a List.mem_cons_self)
    have hrest := ih (fun b hb => h b (List.mem_cons_of_mem a hb))
    rw [List.map_cons, List.filterMap_cons_some ha, hrest]

theorem Network.Holds.usedAddresses {addresses : List Nat} (h : network.Holds range addresses) :
    usedAddresses range.net network.runtime.usedIps = addresses := by
  have hparse : (addresses.map ipv4Text).filterMap parseIPv4 = addresses :=
    filterMap_parse (fun a ha => NatCloudRange.lt_of_le (h.inRange a ha).2)
  have hin : addresses.filter range.net.contains = addresses := by
    refine List.filter_eq_self.mpr ?_
    intro a ha
    have hr := h.inRange a ha
    have hbroadcast := range.broadcast_ge
    exact (range.contains_iff a).mpr ⟨by omega, by omega⟩
  unfold NovaVe.usedAddresses
  rw [h.used, hparse, hin, List.dedup_eq_self.mpr h.distinct]

theorem chooseAddress_some {first last a : Nat} {used : List Nat}
    (h : chooseAddress first last used = some a) : a ∉ used ∧ first ≤ a ∧ a ≤ last := by
  have hmem := List.mem_of_find?_eq_some h
  have hfree := List.find?_some h
  rw [List.mem_range'_1] at hmem
  refine ⟨of_decide_eq_true hfree, hmem.1, by omega⟩

theorem chooseAddress_none {first last a : Nat} {used : List Nat}
    (h : chooseAddress first last used = none) (hfirst : first ≤ a) (hlast : a ≤ last) :
    a ∈ used := by
  have hall := List.find?_eq_none.mp h a (List.mem_range'_1.mpr ⟨hfirst, by omega⟩)
  by_contra hnot
  exact hall (decide_eq_true hnot)

/-- The allocation takes a free offset from 2 to 99, and fails only when there is none. -/
theorem allocateFrom_holds {addresses : List Nat} (h : network.Holds range addresses) :
    (∃ a, a ∉ addresses ∧ range.net.networkAddress + 2 ≤ a ∧
      a ≤ range.net.networkAddress + 99 ∧
      allocateFrom network = .ok (recordUsed network (a :: addresses), ipv4Text a)) ∨
    ((∀ a, range.net.networkAddress + 2 ≤ a → a ≤ range.net.networkAddress + 99 →
      a ∈ addresses) ∧ ∃ e, allocateFrom network = .error e) := by
  have hbroadcast := range.broadcast_ge
  have hoffset : firstOffset network.runtime = 2 := by
    unfold firstOffset
    rw [h.offset]
    rfl
  have hlast : lastCandidate network.type range.net = range.net.networkAddress + 99 := by
    rw [h.type]
    have hstatic : natCloudStaticLastOffset = 99 := rfl
    simp only [lastCandidate]
    omega
  cases hchoose : chooseAddress (range.net.networkAddress + 2) (range.net.networkAddress + 99)
      addresses with
  | none =>
    have hrun : allocateFrom network =
        .error (.service 409 "subnet exhausted, please widen CIDR") := by
      unfold allocateFrom
      rw [h.ranged.cidr, given_text]
      simp only [validateCidr_text, h.usedAddresses, hoffset, hlast, hchoose]
    exact Or.inr ⟨fun a hlow hhigh => chooseAddress_none hchoose hlow hhigh, _, hrun⟩
  | some a =>
    obtain ⟨hfree, hlow, hhigh⟩ := chooseAddress_some hchoose
    have hrun : allocateFrom network = .ok (recordUsed network (a :: addresses), ipv4Text a) := by
      unfold allocateFrom
      rw [h.ranged.cidr, given_text]
      simp only [validateCidr_text, h.usedAddresses, hoffset, hlast, hchoose]
    exact Or.inl ⟨a, hfree, hlow, hhigh, hrun⟩

theorem recordUsed_holds {addresses : List Nat} {a : Nat} (h : network.Holds range addresses)
    (hfree : a ∉ addresses) (hlow : range.net.networkAddress + 2 ≤ a)
    (hhigh : a ≤ range.net.networkAddress + 99) :
    (recordUsed network (a :: addresses)).Holds range
      ((a :: addresses).insertionSort (· ≤ ·)) := by
  have hperm := List.perm_insertionSort (· ≤ ·) (a :: addresses)
  refine ⟨h.type, ⟨h.ranged.cidr, h.ranged.gateway, h.ranged.dhcpStart, h.ranged.dhcpEnd⟩,
    h.firstGateway, h.offset, rfl, ?_, ?_⟩
  · exact hperm.nodup_iff.mpr (List.nodup_cons.mpr ⟨hfree, h.distinct⟩)
  · intro b hb
    rcases List.mem_cons.mp (hperm.mem_iff.mp hb) with he | hm
    · subst he
      exact ⟨hlow, hhigh⟩
    · exact h.inRange b hm

def Network.withUsedIps (network : Network) (used : List String) : Network :=
  { network with runtime := { network.runtime with usedIps := used } }

/-- The record a release leaves. -/
theorem releaseIpFromOwner_eq {lab : Lab} {id : Int} {ip : String}
    (hget : lab.networks.get? id = some network) (hip : ip ∈ network.runtime.usedIps) :
    ∃ used, used.Perm (network.runtime.usedIps.erase ip) ∧
      releaseIpFromOwner lab id ip =
        { lab with networks := lab.networks.set id (network.withUsedIps used) } := by
  unfold releaseIpFromOwner
  rw [hget]
  dsimp only
  rw [if_pos hip]
  exact ⟨_, List.mergeSort_perm _ _, rfl⟩

theorem exists_map_of_forall {f : Nat → String} {p : Nat → Prop} {texts : List String}
    (h : ∀ text ∈ texts, ∃ a, p a ∧ f a = text) :
    ∃ addresses : List Nat, texts = addresses.map f ∧ ∀ a ∈ addresses, p a := by
  induction texts with
  | nil => exact ⟨[], rfl, by simp⟩
  | cons text rest ih =>
    obtain ⟨a, ha, hf⟩ := h text List.mem_cons_self
    obtain ⟨addresses, hrest, hall⟩ := ih (fun t ht => h t (List.mem_cons_of_mem text ht))
    refine ⟨a :: addresses, ?_, ?_⟩
    · rw [List.map_cons, hf, hrest]
    · intro b hb
      rcases List.mem_cons.mp hb with he | hm
      · subst he
        exact ha
      · exact hall b hm

theorem Network.Holds.texts_nodup {addresses : List Nat} (h : network.Holds range addresses) :
    network.runtime.usedIps.Nodup := by
  rw [h.used]
  refine List.Nodup.map_on ?_ h.distinct
  intro a ha b hb he
  have hla := NatCloudRange.lt_of_le (h.inRange a ha).2
  have hlb := NatCloudRange.lt_of_le (h.inRange b hb).2
  exact ipv4Text_injective hla hlb he

/-- A record that keeps some of its addresses still holds the rest. -/
theorem Network.Holds.keep {addresses : List Nat} {used : List String}
    (h : network.Holds range addresses) (hnodup : used.Nodup)
    (hsub : ∀ ip ∈ used, ip ∈ network.runtime.usedIps) :
    ∃ addresses', (network.withUsedIps used).Holds range addresses' := by
  have hlift : ∀ ip ∈ used, ∃ a, (range.net.networkAddress + 2 ≤ a ∧
      a ≤ range.net.networkAddress + 99) ∧ ipv4Text a = ip := by
    intro ip hip
    have hmem := hsub ip hip
    rw [h.used] at hmem
    obtain ⟨a, ha, he⟩ := List.mem_map.mp hmem
    exact ⟨a, h.inRange a ha, he⟩
  obtain ⟨addresses', hused, hall⟩ := exists_map_of_forall hlift
  refine ⟨addresses', h.type, ⟨h.ranged.cidr, h.ranged.gateway, h.ranged.dhcpStart,
    h.ranged.dhcpEnd⟩, h.firstGateway, h.offset, hused, ?_, hall⟩
  rw [hused] at hnodup
  exact hnodup.of_map

end NovaVe
