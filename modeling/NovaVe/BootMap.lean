import NovaVe.Lab

namespace NovaVe

def numbered (i : Int) (a : BootAttachment) : Bool := decide (a.interfaceIndex = i)

theorem addAttachment_nodup {found : List BootAttachment} {i : Int} {new : Option BootAttachment}
    (h : (found.map BootAttachment.interfaceIndex).Nodup)
    (hnew : ∀ a, new = some a → a.interfaceIndex = i) :
    ((addAttachment found i new).map BootAttachment.interfaceIndex).Nodup := by
  unfold addAttachment
  split
  next => exact h
  next hi =>
    cases new with
    | none => exact h
    | some a =>
      have ha := hnew a rfl
      rw [List.map_append, List.map_singleton, ha]
      refine List.nodup_append.mpr ⟨h, List.nodup_singleton i, ?_⟩
      intro x hx y hy he
      obtain rfl := List.mem_singleton.mp hy
      exact hi (he ▸ hx)

/-- What is found for an index after one more attachment is tried. -/
theorem addAttachment_find? {found : List BootAttachment} {i j : Int} {new : Option BootAttachment}
    (hnew : ∀ a, new = some a → a.interfaceIndex = i) :
    (addAttachment found i new).find? (numbered j) =
      (found.find? (numbered j)).or (if i = j then new else none) := by
  unfold addAttachment
  split
  next hi =>
    by_cases hij : i = j
    · subst hij
      obtain ⟨a, ha, hai⟩ := List.mem_map.mp hi
      have hsome : (found.find? (numbered i)).isSome :=
        List.find?_isSome.mpr ⟨a, ha, by simp [numbered, hai]⟩
      rw [Option.or_of_isSome hsome]
    · simp [hij]
  next hi =>
    cases new with
    | none => simp
    | some a =>
      have ha := hnew a rfl
      rw [List.find?_append]
      by_cases hij : i = j
      · simp [numbered, ha, hij]
      · simp [numbered, ha, hij]

theorem bootAttachment?_index {bridgeName : String → Int → String} {lab : Lab} {i k : Int}
    {a : BootAttachment} (h : bootAttachment? bridgeName lab i k = some a) : a.interfaceIndex = i := by
  unfold bootAttachment? at h
  split at h
  next => cases h
  next =>
    split at h
    next => cases h
    next =>
      split at h
      next => cases h
      next => cases h; rfl

/-- Whether a start attaches an interface to the network at all. -/
def Lab.bootable (lab : Lab) (networkId : Int) : Bool :=
  decide (networkId ≠ 0) &&
    match lab.networks.get? networkId with
    | none => false
    | some network => !network.type.isPnet

def bootRecord (bridgeName : String → Int → String) (lab : Lab) (i k : Int) : BootAttachment :=
  { interfaceIndex := i, networkId := k, bridgeName := networkBridge bridgeName lab k
    driver := networkDriver? lab k }

theorem bootAttachment?_eq (bridgeName : String → Int → String) (lab : Lab) (i k : Int) :
    bootAttachment? bridgeName lab i k =
      if lab.bootable k then some (bootRecord bridgeName lab i k) else none := by
  unfold bootAttachment? Lab.bootable
  by_cases hk : k = 0
  · simp [hk]
  · cases hget : lab.networks.get? k with
    | none => simp [hk]
    | some network => cases hp : network.type.isPnet <;> simp [hk, hp, bootRecord]

theorem interfaces_find? {bridgeName : String → Int → String} {lab : Lab} (network : Iface × Nat → Int)
    (entries : List (Iface × Nat)) (found : List BootAttachment) (j : Int) :
    (entries.foldl (fun found entry => addAttachment found entry.1.index
        (bootAttachment? bridgeName lab entry.1.index (network entry))) found).find? (numbered j) =
      (found.find? (numbered j)).or (entries.findSome? (fun entry =>
        if entry.1.index = j then bootAttachment? bridgeName lab j (network entry) else none)) := by
  induction entries generalizing found with
  | nil => simp
  | cons entry rest ih =>
    rw [List.foldl_cons, ih, addAttachment_find? (fun _ => bootAttachment?_index), Option.or_assoc,
      List.findSome?_cons]
    congr 1
    by_cases hj : entry.1.index = j
    · subst hj
      cases hb : bootAttachment? bridgeName lab entry.1.index (network entry) <;> simp
    · simp [hj]

theorem links_find? {bridgeName : String → Int → String} {lab : Lab} (ethernet : Int)
    (entries : List (Int × Int)) (found : List BootAttachment) {j : Int} (hj : j < ethernet)
    (hnodup : (entries.map Prod.fst).Nodup) :
    (entries.foldl (fun found entry => if ethernet ≤ entry.1 then found
        else addAttachment found entry.1 (bootAttachment? bridgeName lab entry.1 entry.2))
        found).find? (numbered j) =
      (found.find? (numbered j)).or
        ((assocGet entries j).bind (bootAttachment? bridgeName lab j)) := by
  induction entries generalizing found with
  | nil => simp [assocGet]
  | cons entry rest ih =>
    obtain ⟨i, k⟩ := entry
    obtain ⟨hnot, hrest⟩ := List.nodup_cons.mp hnodup
    rw [List.foldl_cons, ih _ hrest]
    by_cases hij : i = j
    · subst hij
      have hnone : assocGet rest i = none := by
        rw [← Option.not_isSome_iff_eq_none, assocGet_isSome_iff]
        exact hnot
      simp only [Int.not_le.mpr hj, if_false, hnone, assocGet, if_true]
      rw [addAttachment_find? (fun _ => bootAttachment?_index)]
      simp
    · simp only [assocGet, hij, if_false]
      split
      next => rfl
      next =>
        rw [addAttachment_find? (fun _ => bootAttachment?_index)]
        simp [hij]

theorem foldl_addAttachment_nodup {α : Type} (index : α → Int) (new : α → Option BootAttachment)
    (skip : α → Bool) (hnew : ∀ x a, new x = some a → a.interfaceIndex = index x) (xs : List α)
    {found : List BootAttachment} (h : (found.map BootAttachment.interfaceIndex).Nodup) :
    ((xs.foldl (fun found x => if skip x then found else addAttachment found (index x) (new x))
      found).map BootAttachment.interfaceIndex).Nodup := by
  induction xs generalizing found with
  | nil => exact h
  | cons x rest ih =>
    rw [List.foldl_cons]
    apply ih
    split
    next => exact h
    next => exact addAttachment_nodup h (hnew x)

theorem find?_of_mem {attachments : List BootAttachment} {a : BootAttachment}
    (h : (attachments.map BootAttachment.interfaceIndex).Nodup) (ha : a ∈ attachments) :
    attachments.find? (numbered a.interfaceIndex) = some a := by
  induction attachments with
  | nil => cases ha
  | cons b rest ih =>
    obtain ⟨hnot, hrest⟩ := List.nodup_cons.mp h
    rcases List.mem_cons.mp ha with rfl | ha
    · simp [numbered]
    · have hb : b.interfaceIndex ≠ a.interfaceIndex := by
        intro he
        exact hnot (he ▸ List.mem_map_of_mem ha)
      rw [List.find?_cons_of_neg (by simp [numbered, hb])]
      exact ih hrest ha

theorem find?_perm {xs ys : List BootAttachment} (hp : xs.Perm ys)
    (h : (xs.map BootAttachment.interfaceIndex).Nodup) (j : Int) :
    xs.find? (numbered j) = ys.find? (numbered j) := by
  have hys : (ys.map BootAttachment.interfaceIndex).Nodup := (hp.map _).nodup_iff.mp h
  cases hx : xs.find? (numbered j) with
  | some a =>
    have ha : a.interfaceIndex = j := by simpa [numbered] using List.find?_some hx
    have hm := hp.mem_iff.mp (List.mem_of_find?_eq_some hx)
    rw [← ha, find?_of_mem hys hm]
  | none =>
    symm
    rw [List.find?_eq_none] at hx ⊢
    exact fun a ha => hx a (hp.mem_iff.mpr ha)

theorem attachmentByIndex_get? {attachments : List BootAttachment}
    (h : (attachments.map BootAttachment.interfaceIndex).Nodup) (j : Int) :
    (attachmentByIndex attachments).get? j = attachments.find? (numbered j) := by
  have hgen : ∀ (d : Dict Int BootAttachment),
      (attachments.foldl (fun d a => d.set a.interfaceIndex a) d).get? j =
        (attachments.find? (numbered j)).or (d.get? j) := by
    induction attachments with
    | nil => simp
    | cons a rest ih =>
      intro d
      obtain ⟨hnot, hrest⟩ := List.nodup_cons.mp h
      rw [List.foldl_cons, ih hrest, Dict.get?_set]
      by_cases ha : a.interfaceIndex = j
      · have hnone : rest.find? (numbered j) = none := by
          rw [List.find?_eq_none]
          intro b hb hn
          have : b.interfaceIndex = j := by simpa [numbered] using hn
          exact hnot (ha.trans this.symm ▸ List.mem_map_of_mem hb)
        simp [hnone, numbered, ha]
      · simp [numbered, ha]
  simpa [attachmentByIndex] using hgen Dict.empty

/-- The network that a start takes for an index from the entries of `interfaces[]` that carry it:
the first bootable one, each entry bringing the network derived at its own position. -/
def interfaceNetwork (lab : Lab) (nodeKey : Int) (node : Node) (i : Int) : Option Int :=
  node.interfaces.zipIdx.findSome? (fun entry =>
    if entry.1.index = i ∧ lab.bootable (entryNetwork lab nodeKey node entry) then
      some (entryNetwork lab nodeKey node entry)
    else none)

/-- The network of an interface after a start. -/
def startNetwork (lab : Lab) (nodeKey : Int) (node : Node) (i : Int) : Option Int :=
  (interfaceNetwork lab nodeKey node i).or
    (((linkMap lab.links node.id).get? i).filter lab.bootable)

theorem sortByIndex_perm (attachments : List BootAttachment) :
    (sortByIndex attachments).Perm attachments :=
  List.mergeSort_perm _ _

/-- Sorting keeps the indices distinct. -/
theorem sortByIndex_nodup {attachments : List BootAttachment}
    (h : (attachments.map BootAttachment.interfaceIndex).Nodup) :
    ((sortByIndex attachments).map BootAttachment.interfaceIndex).Nodup :=
  (((sortByIndex_perm attachments).map _).nodup_iff).mpr h

theorem interfaceAttachments_nodup (bridgeName : String → Int → String) (lab : Lab) (nodeKey : Int)
    (node : Node) :
    ((interfaceAttachments bridgeName lab nodeKey node).map BootAttachment.interfaceIndex).Nodup := by
  have hfold := foldl_addAttachment_nodup (fun entry : Iface × Nat => entry.1.index)
    (fun entry => bootAttachment? bridgeName lab entry.1.index (entryNetwork lab nodeKey node entry))
    (fun _ => false) (fun _ _ => bootAttachment?_index) node.interfaces.zipIdx
    (show (([] : List BootAttachment).map BootAttachment.interfaceIndex).Nodup from List.nodup_nil)
  simp only [Bool.false_eq_true, if_false] at hfold
  exact hfold

/-- The interfaces that only a link names come behind, under indices of their own. -/
theorem linkedAttachments_nodup (bridgeName : String → Int → String) (lab : Lab) (nodeKey : Int)
    (node : Node) :
    (((linkMap lab.links node.id).entries.foldl (fun found entry =>
      if node.ethernet ≤ entry.1 then found
      else addAttachment found entry.1 (bootAttachment? bridgeName lab entry.1 entry.2))
      (interfaceAttachments bridgeName lab nodeKey node)).map
        BootAttachment.interfaceIndex).Nodup := by
  have hfold := foldl_addAttachment_nodup (fun entry : Int × Int => entry.1)
    (fun entry => bootAttachment? bridgeName lab entry.1 entry.2)
    (fun entry => decide (node.ethernet ≤ entry.1)) (fun _ _ => bootAttachment?_index)
    (linkMap lab.links node.id).entries (interfaceAttachments_nodup bridgeName lab nodeKey node)
  simp only [decide_eq_true_eq] at hfold
  exact hfold

theorem qemuAttachments_find? (bridgeName : String → Int → String) (lab : Lab) (nodeKey : Int)
    (node : Node) {i : Int} (hi : i < node.ethernet) :
    (attachmentByIndex (qemuAttachments bridgeName lab nodeKey node)).get? i =
      (startNetwork lab nodeKey node i).map (bootRecord bridgeName lab i) := by
  have hboth := linkedAttachments_nodup bridgeName lab nodeKey node
  unfold qemuAttachments
  rw [attachmentByIndex_get? (sortByIndex_nodup hboth),
    ← find?_perm (sortByIndex_perm _).symm hboth,
    links_find? node.ethernet _ _ hi (Dict.keysNodup _)]
  unfold interfaceAttachments
  rw [interfaces_find? (entryNetwork lab nodeKey node)]
  unfold startNetwork interfaceNetwork
  rw [Option.map_or, List.map_findSome?, List.find?_nil, Option.none_or]
  congr 1
  · congr 1
    funext entry
    rw [bootAttachment?_eq]
    by_cases hj : entry.1.index = i
    · cases hb : lab.bootable (entryNetwork lab nodeKey node entry) <;> simp [hj, hb]
    · simp [hj]
  · change ((linkMap lab.links node.id).get? i).bind (bootAttachment? bridgeName lab i) = _
    cases hl : (linkMap lab.links node.id).get? i with
    | none => rfl
    | some k =>
      rw [Option.bind_some, bootAttachment?_eq]
      cases hb : lab.bootable k <;> simp [Option.filter, hb]

/-- The last link of an interface is in the link map unless it goes to network 0. -/
theorem linkMap_get? (links : List Link) (nodeId i : Int) :
    (∀ k, wiredNetwork links nodeId i = some k → k ≠ 0 → (linkMap links nodeId).get? i = some k) ∧
      (wiredNetwork links nodeId i = none → (linkMap links nodeId).get? i = none) := by
  unfold wiredNetwork linkMap
  refine List.foldl_rel (r := fun (last : Option Int) (d : Dict Int Int) =>
    (∀ k, last = some k → k ≠ 0 → d.get? i = some k) ∧ (last = none → d.get? i = none))
    ⟨(fun k h => by cases h), (fun _ => rfl)⟩ ?_
  rintro l _ last d ⟨hsome, hnone⟩
  cases hl : l.attachment? with
  | none => exact ⟨hsome, hnone⟩
  | some wired =>
    obtain ⟨n, j, k⟩ := wired
    by_cases hn : n = nodeId
    · by_cases hj : j = i
      · subst hn hj
        refine ⟨fun k' h hk' => ?_, fun h => by simp at h⟩
        obtain rfl : k = k' := by simpa using h
        simp [hk']
      · by_cases hk : k = 0
        · simpa [hn, hj, hk] using ⟨hsome, hnone⟩
        · simpa [hn, hj, hk, Dict.get?_set_ne] using ⟨hsome, hnone⟩
    · simpa [hn] using ⟨hsome, hnone⟩

def BootAttachment.place (a : BootAttachment) : Int × String × Option String :=
  (a.networkId, a.bridgeName, a.driver)

def Expected.place (e : Expected) : Int × String × Option String :=
  (e.networkId, e.bridgeName, e.driver)

/-- Where an interface on a network is attached. -/
def networkPlace (bridgeName : String → Int → String) (lab : Lab) (k : Int) :
    Int × String × Option String :=
  (k, networkBridge bridgeName lab k, networkDriver? lab k)

theorem expectedAttachments_get? (bridgeName : String → Int → String) (lab : Lab) (nodeId : Int)
    {bootEthernet i : Int} (hi : i < bootEthernet) :
    ((expectedAttachments bridgeName lab nodeId bootEthernet).get? i).map Expected.place =
      (wiredNetwork lab.links nodeId i).map (networkPlace bridgeName lab) := by
  unfold expectedAttachments wiredNetwork
  refine List.foldl_rel (r := fun (d : Dict Int Expected) (last : Option Int) =>
    (d.get? i).map Expected.place = Option.map (networkPlace bridgeName lab) last) rfl ?_
  intro l _ d last h
  cases hl : l.attachment? with
  | none => exact h
  | some wired =>
    obtain ⟨n, j, k⟩ := wired
    by_cases hn : n = nodeId
    · by_cases hj : j = i
      · simp [hn, hj, hi, Expected.place, networkPlace]
      · by_cases hlt : j < bootEthernet
        · simpa [hn, hj, hlt, Dict.get?_set_ne] using h
        · simpa [hn, hj, hlt] using h
    · simpa [hn] using h

/-- What the boot and the reconcile pass must agree on for one interface: its last link goes to a
bootable network, and so does no entry of `interfaces[]` that a start takes for it instead. -/
def BootAgrees (lab : Lab) (nodeKey : Int) (node : Node) (i : Int) : Prop :=
  (∀ k, wiredNetwork lab.links node.id i = some k → lab.bootable k = true) ∧
    (∀ k, interfaceNetwork lab nodeKey node i = some k → wiredNetwork lab.links node.id i = some k)

theorem Lab.bootable_ne_zero {lab : Lab} {k : Int} (h : lab.bootable k = true) : k ≠ 0 := by
  unfold Lab.bootable at h
  rw [Bool.and_eq_true] at h
  exact of_decide_eq_true h.1

theorem startNetwork_bootable {lab : Lab} {nodeKey : Int} {node : Node} {i k : Int}
    (h : startNetwork lab nodeKey node i = some k) : lab.bootable k = true := by
  unfold startNetwork at h
  cases hn : interfaceNetwork lab nodeKey node i with
  | some k' =>
    rw [hn] at h
    cases h
    obtain ⟨entry, _, he⟩ := List.exists_of_findSome?_eq_some hn
    split at he
    next hb => cases he; exact hb.2
    next => cases he
  | none =>
    rw [hn, Option.none_or] at h
    exact (Option.filter_eq_some_iff.mp h).2

theorem startNetwork_eq_iff (lab : Lab) (nodeKey : Int) (node : Node) (i : Int) :
    startNetwork lab nodeKey node i = wiredNetwork lab.links node.id i ↔
      BootAgrees lab nodeKey node i := by
  obtain ⟨hsome, hnone⟩ := linkMap_get? lab.links node.id i
  constructor
  · intro h
    refine ⟨fun k hk => startNetwork_bootable (h.trans hk), fun k hk => ?_⟩
    rw [← h, startNetwork, hk, Option.some_or]
  · rintro ⟨hboot, hentry⟩
    unfold startNetwork
    cases hi : interfaceNetwork lab nodeKey node i with
    | some k => rw [hentry k hi, Option.some_or]
    | none =>
      cases hw : wiredNetwork lab.links node.id i with
      | none => rw [hnone hw]; rfl
      | some k =>
        have hb := hboot k hw
        rw [hsome k hw (Lab.bootable_ne_zero hb)]
        simp [Option.filter, hb]

/-- The attachments of a start and those a reconcile expects are the same exactly when they agree
on every interface. -/
theorem boot_and_reconcile_agree_iff (bridgeName : String → Int → String) (lab : Lab)
    (nodeKey : Int) (node : Node) :
    (∀ i < node.ethernet,
      ((attachmentByIndex (qemuAttachments bridgeName lab nodeKey node)).get? i).map
          BootAttachment.place =
        ((expectedAttachments bridgeName lab node.id node.ethernet).get? i).map Expected.place) ↔
      ∀ i < node.ethernet, BootAgrees lab nodeKey node i := by
  refine forall_congr' (fun i => forall_congr' (fun hi => ?_))
  rw [qemuAttachments_find? bridgeName lab nodeKey node hi,
    expectedAttachments_get? bridgeName lab node.id hi, Option.map_map, ← startNetwork_eq_iff]
  have hplace : BootAttachment.place ∘ bootRecord bridgeName lab i = networkPlace bridgeName lab := rfl
  rw [hplace]
  refine (Option.map_injective ?_).eq_iff
  intro k k' h
  exact congrArg Prod.fst h

def pnetNode : Node :=
  { id := 1, name := "r1", type := .qemu, interfaces := [{ index := 0, name := "Gi1" }] }

/-- A node wired to an external `pnet0` network. -/
def pnetLab : Lab :=
  { id := "lab"
    nodes := Dict.empty.set 1 pnetNode
    networks := Dict.empty.set 1 { id := 1, name := "uplink", type := .pnet 0 }
    links := [{ id := "lnk_001", from_ := .node 1 0, to_ := .network 1 }] }

def plainBridgeName (labId : String) (networkId : Int) : String :=
  "nve" ++ labId ++ "n" ++ toString networkId

theorem boot_and_reconcile_differ_on_pnet :
    ¬∀ i < pnetNode.ethernet,
      ((attachmentByIndex (qemuAttachments plainBridgeName pnetLab 1 pnetNode)).get? i).map
          BootAttachment.place =
        ((expectedAttachments plainBridgeName pnetLab pnetNode.id pnetNode.ethernet).get? i).map
          Expected.place := by
  intro h
  have hi : (0 : Int) < pnetNode.ethernet := by decide
  have h0 := h 0 hi
  rw [qemuAttachments_find? plainBridgeName pnetLab 1 pnetNode hi,
    expectedAttachments_get? plainBridgeName pnetLab pnetNode.id hi] at h0
  cases h0

end NovaVe
