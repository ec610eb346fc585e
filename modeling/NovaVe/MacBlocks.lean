import NovaVe.DefaultMacs

namespace NovaVe

/-- A QEMU node of the lab that has its default first MAC. -/
def DefaultNode (lab : Lab) (nodeId : Int) (node : Node) : Prop :=
  lab.nodes.get? nodeId = some node ∧ node.type = .qemu ∧
    node.firstMac = some (firstMacForNode nodeId)

/-- The default MACs of the boot NICs of a lab are well formed, and no two are the same. -/
structure DefaultMacsUnique (lab : Lab) : Prop where
  wellFormed : ∀ nodeId node, DefaultNode lab nodeId node → ∀ index, 0 ≤ index →
    index < node.ethernet → ∃ mac, (node.bootNic index).mac = some mac ∧ SixOctets mac
  unique : ∀ nodeId node otherId other, DefaultNode lab nodeId node → DefaultNode lab otherId other →
    ∀ index otherIndex, 0 ≤ index → index < node.ethernet → 0 ≤ otherIndex →
      otherIndex < other.ethernet →
      (node.bootNic index).mac = (other.bootNic otherIndex).mac →
      nodeId = otherId ∧ index = otherIndex

/-- The low 24 bits of the first MAC of a node: the first six of its digits and four zeros. -/
def blockStart (nodeId : Int) : Int :=
  nodeId * 65536 / 16 ^ ((Nat.toDigits 16 nodeId.toNat).length - 2)

/-- A node with an id above 255 has one interface at most, the addresses of the others do not run
out, and those of different nodes do not meet. -/
structure MacBlocksApart (lab : Lab) : Prop where
  single : ∀ nodeId node, DefaultNode lab nodeId node → 255 < nodeId → node.ethernet ≤ 1
  room : ∀ nodeId node, DefaultNode lab nodeId node → nodeId ≤ 255 →
    65536 * nodeId + node.ethernet ≤ 193514046488577
  apart : ∀ nodeId node otherId other, DefaultNode lab nodeId node → DefaultNode lab otherId other →
    nodeId ≠ otherId → node.ethernet ≤ 0 ∨ other.ethernet ≤ 0 ∨
      blockStart nodeId + node.ethernet ≤ blockStart otherId ∨
      blockStart otherId + other.ethernet ≤ blockStart nodeId

theorem length_toDigits_low {n : Nat} (h : n ≤ 255) : (Nat.toDigits 16 n).length ≤ 2 :=
  (Nat.length_toDigits_le_iff (by decide) (by decide)).mpr (by omega)

theorem blockStart_low {n : Nat} (h : n ≤ 255) : blockStart n = 65536 * n := by
  have hlength := length_toDigits_low h
  unfold blockStart
  rw [Int.toNat_natCast, show (Nat.toDigits 16 n).length - 2 = 0 by omega, pow_zero, Int.ediv_one,
    mul_comm]

theorem macSerial_low {n : Nat} (h : n ≤ 255) (i : Nat) :
    macSerial n i = 87960930222080 + 65536 * n + i := by
  have hlength := length_toDigits_low h
  unfold macSerial
  rw [show max 2 (Nat.toDigits 16 n).length = 2 by omega]
  omega

/-- Above 255 the last digits of the number are cut off, and with them the index. -/
theorem shownMac_high {n i : Nat} (h : 255 < n) (hi : i ≤ 1) :
    (shownMac (macSerial n i) : Int) = 87960930222080 + blockStart n ∧ 0 ≤ blockStart n ∧
      blockStart n < 16777216 := by
  have hlong : 2 < (Nat.toDigits 16 n).length := by
    by_contra hshort
    have hlt := (Nat.length_toDigits_le_iff (b := 16) (n := n) (k := 2) (by decide)
      (by decide)).mp (by omega)
    omega
  obtain ⟨k, hk⟩ : ∃ k, (Nat.toDigits 16 n).length = k + 3 :=
    ⟨(Nat.toDigits 16 n).length - 3, by omega⟩
  have hn : n < 16 ^ (k + 3) := by
    rw [← hk]
    exact (Nat.length_toDigits_le_iff (by decide) (by omega)).mp (le_refl _)
  have hpos : 0 < 16 ^ (k + 1) := Nat.pow_pos (by decide)
  have hstart : blockStart n = ((n * 65536 / 16 ^ (k + 1) : Nat) : Int) := by
    unfold blockStart
    rw [Int.toNat_natCast, hk, show k + 3 - 2 = k + 1 by omega]
    push_cast
    rfl
  have hbound : n * 65536 / 16 ^ (k + 1) < 16777216 := by
    rw [Nat.div_lt_iff_lt_mul hpos]
    have hpow : 16 ^ (k + 3) = 256 * 16 ^ (k + 1) := by
      rw [show k + 3 = k + 1 + 2 by omega, Nat.pow_add]
      omega
    omega
  have hdrop : (n * 65536 + i) / 16 ^ (k + 1) = n * 65536 / 16 ^ (k + 1) := by
    have hstep : ∀ a, a / 16 ^ (k + 1) = a / 16 / 16 ^ k := by
      intro a
      rw [Nat.div_div_eq_div_mul, Nat.pow_succ, Nat.mul_comm]
    have hsixteen : (n * 65536 + i) / 16 = n * 65536 / 16 := by omega
    rw [hstep, hstep, hsixteen]
  have hquot : macSerial n i / 16 ^ (k + 1) = 87960930222080 + n * 65536 / 16 ^ (k + 1) := by
    have hserial : macSerial n i = (n * 65536 + i) + 16 ^ (k + 1) * 87960930222080 := by
      unfold macSerial
      rw [show max 2 (Nat.toDigits 16 n).length = k + 1 + 2 by omega, Nat.pow_add]
      ring
    rw [hserial, Nat.add_mul_div_left _ _ hpos, hdrop, Nat.add_comm]
  generalize n * 65536 / 16 ^ (k + 1) = low at hstart hbound hquot
  have hshown := @shownMac_of_range (macSerial n i) (k + 1) (by rw [hquot]; omega)
    (by rw [hquot]; omega)
  rw [hshown, hquot, hstart]
  omega

/-- Where the addresses do not run out, what is shown says where the address is. -/
theorem shownMac_fit {n i : Nat} (hlow : n ≤ 255 → 65536 * n + i ≤ 193514046488576)
    (hhigh : 255 < n → i = 0) :
    (shownMac (macSerial n i) : Int) = 87960930222080 + blockStart n + i ∧ 0 ≤ blockStart n ∨
      shownMac (macSerial n i) = 17592186044416 ∧ blockStart n + i = 193514046488576 := by
  by_cases hn : n ≤ 255
  · have hroom := hlow hn
    rw [macSerial_low hn, blockStart_low hn]
    by_cases hlast : 65536 * n + i = 193514046488576
    · right
      refine ⟨?_, by omega⟩
      rw [shownMac_div (by omega), shownMac_of_lt (by omega)]
      omega
    · left
      rw [shownMac_of_lt (by omega)]
      omega
  · have hi := hhigh (by omega)
    obtain ⟨hshown, hpos, _⟩ := @shownMac_high n i (by omega) (by omega)
    left
    rw [hshown, hi]
    omega

theorem DefaultNode.mac_eq_iff {lab : Lab} {n m i j : Nat} {node other : Node}
    (h : DefaultNode lab n node) (h' : DefaultNode lab m other) :
    (node.bootNic i).mac = (other.bootNic j).mac ↔
      shownMac (macSerial n i) = shownMac (macSerial m j) := by
  unfold Node.bootNic
  dsimp only
  rw [h.2.2, h'.2.2]
  exact default_mac_eq_iff n i m j

/-- A second interface of a node with an id above 255 has the address of the first one. -/
theorem DefaultMacsUnique.single {lab : Lab} (h : DefaultMacsUnique lab) {n : Nat} {node : Node}
    (hnode : DefaultNode lab n node) (hhigh : 255 < n) : node.ethernet ≤ 1 := by
  by_contra hmany
  have hfirst := (@shownMac_high n 0 (by omega) (by omega)).1
  have hsecond := (@shownMac_high n 1 (by omega) (by omega)).1
  have hmac := (hnode.mac_eq_iff (i := 0) (j := 1) hnode).mpr (by omega)
  have hsame := h.unique n node n node hnode hnode 0 1 (by omega) (by omega) (by omega)
    (by omega) hmac
  omega

/-- Past the last address of a block the digits are cut to the same twelve. -/
theorem DefaultMacsUnique.room {lab : Lab} (h : DefaultMacsUnique lab) {n : Nat} {node : Node}
    (hnode : DefaultNode lab n node) (hn : n ≤ 255) :
    65536 * (n : Int) + node.ethernet ≤ 193514046488577 := by
  by_contra hover
  obtain ⟨i, hi⟩ : ∃ i : Nat, 65536 * n + i = 193514046488576 :=
    ⟨193514046488576 - 65536 * n, by omega⟩
  have hfirst : shownMac (macSerial n i) = 17592186044416 := by
    rw [macSerial_low hn, shownMac_div (by omega), shownMac_of_lt (by omega)]
    omega
  have hsecond : shownMac (macSerial n (i + 1)) = 17592186044416 := by
    rw [macSerial_low hn, shownMac_div (by omega), shownMac_of_lt (by omega)]
    omega
  have hmac := (hnode.mac_eq_iff (i := i) (j := i + 1) hnode).mpr (by omega)
  have hsame := h.unique n node n node hnode hnode i (i + 1 : Nat) (by omega) (by omega)
    (by omega) (by omega) hmac
  omega

/-- Each place of the block of a node is the address of one of its interfaces. -/
theorem DefaultMacsUnique.reach {lab : Lab} (h : DefaultMacsUnique lab) {n : Nat} {node : Node}
    (hnode : DefaultNode lab n node) :
    0 ≤ blockStart n ∧ blockStart n < 16777216 ∧ ∀ x : Int, blockStart n ≤ x →
      x < blockStart n + node.ethernet → x < 16777216 →
        ∃ i : Nat, (i : Int) < node.ethernet ∧
          (shownMac (macSerial n i) : Int) = 87960930222080 + x := by
  by_cases hn : n ≤ 255
  · rw [blockStart_low hn]
    refine ⟨by omega, by omega, ?_⟩
    intro x hx hlt hsmall
    refine ⟨(x - 65536 * n).toNat, by omega, ?_⟩
    rw [macSerial_low hn, shownMac_of_lt (by omega)]
    omega
  · obtain ⟨hshown, hpos, hsmall⟩ := @shownMac_high n 0 (by omega) (by omega)
    have hone := h.single hnode (by omega)
    refine ⟨hpos, hsmall, ?_⟩
    intro x hx hlt _
    refine ⟨0, by omega, ?_⟩
    rw [hshown]
    omega

theorem DefaultMacsUnique.apart {lab : Lab} (h : DefaultMacsUnique lab) {n m : Nat}
    {node other : Node} (hnode : DefaultNode lab n node) (hother : DefaultNode lab m other)
    (hne : (n : Int) ≠ m) : node.ethernet ≤ 0 ∨ other.ethernet ≤ 0 ∨
      blockStart n + node.ethernet ≤ blockStart m ∨
      blockStart m + other.ethernet ≤ blockStart n := by
  by_contra hmeet
  obtain ⟨hpos, hsmall, hreach⟩ := h.reach hnode
  obtain ⟨hpos', hsmall', hreach'⟩ := h.reach hother
  obtain ⟨i, hi, hshown⟩ := hreach (max (blockStart n) (blockStart m)) (by omega) (by omega)
    (by omega)
  obtain ⟨j, hj, hshown'⟩ := hreach' (max (blockStart n) (blockStart m)) (by omega) (by omega)
    (by omega)
  have hmac := (hnode.mac_eq_iff (i := i) (j := j) hother).mpr (by omega)
  have hsame := h.unique n node m other hnode hother i j (by omega) hi (by omega) hj hmac
  exact hne hsame.1

/-- The interfaces of a node whose block has room. -/
theorem MacBlocksApart.fit {lab : Lab} (h : MacBlocksApart lab) {n i : Nat} {node : Node}
    (hnode : DefaultNode lab n node) (hi : (i : Int) < node.ethernet) :
    (n ≤ 255 → 65536 * n + i ≤ 193514046488576) ∧ (255 < n → i = 0) := by
  refine ⟨?_, ?_⟩
  · intro hn
    have hroom := h.room n node hnode (by omega)
    omega
  · intro hn
    have hone := h.single n node hnode (by omega)
    omega

theorem MacBlocksApart.unique {lab : Lab} (h : MacBlocksApart lab) {n m i j : Nat}
    {node other : Node} (hnode : DefaultNode lab n node) (hother : DefaultNode lab m other)
    (hi : (i : Int) < node.ethernet) (hj : (j : Int) < other.ethernet)
    (hshown : shownMac (macSerial n i) = shownMac (macSerial m j)) :
    (n : Int) = m ∧ (i : Int) = j := by
  obtain ⟨hlow, hhigh⟩ := h.fit hnode hi
  obtain ⟨hlow', hhigh'⟩ := h.fit hother hj
  have hwhere : blockStart n + i = blockStart m + j := by
    rcases shownMac_fit hlow hhigh with ⟨hs, hb⟩ | ⟨hs, hb⟩
    · rcases shownMac_fit hlow' hhigh' with ⟨hs', hb'⟩ | ⟨hs', hb'⟩
      · omega
      · omega
    · rcases shownMac_fit hlow' hhigh' with ⟨hs', hb'⟩ | ⟨hs', hb'⟩
      · omega
      · omega
  by_cases hnm : n = m
  · subst hnm
    omega
  · have hapart := h.apart n node m other hnode hother (by omega)
    omega

/-- The default MACs of a lab are well formed and unique just when the blocks of its nodes are apart. -/
theorem default_macs_iff (lab : Lab)
    (hids : ∀ nodeId node, DefaultNode lab nodeId node → 0 ≤ nodeId) :
    DefaultMacsUnique lab ↔ MacBlocksApart lab := by
  constructor
  · intro hunique
    refine ⟨?_, ?_, ?_⟩
    · intro nodeId node hnode hhigh
      obtain ⟨n, rfl⟩ := Int.eq_ofNat_of_zero_le (hids nodeId node hnode)
      exact hunique.single hnode (by omega)
    · intro nodeId node hnode hlow
      obtain ⟨n, rfl⟩ := Int.eq_ofNat_of_zero_le (hids nodeId node hnode)
      exact hunique.room hnode (by omega)
    · intro nodeId node otherId other hnode hother hne
      obtain ⟨n, rfl⟩ := Int.eq_ofNat_of_zero_le (hids nodeId node hnode)
      obtain ⟨m, rfl⟩ := Int.eq_ofNat_of_zero_le (hids otherId other hother)
      exact hunique.apart hnode hother hne
  · intro hblocks
    refine ⟨?_, ?_⟩
    · intro nodeId node hnode index hpos hlt
      obtain ⟨n, rfl⟩ := Int.eq_ofNat_of_zero_le (hids nodeId node hnode)
      obtain ⟨i, rfl⟩ := Int.eq_ofNat_of_zero_le hpos
      unfold Node.bootNic
      dsimp only
      rw [hnode.2.2]
      exact default_mac_sixOctets n i
    · intro nodeId node otherId other hnode hother index otherIndex hpos hlt hpos' hlt' hmac
      obtain ⟨n, rfl⟩ := Int.eq_ofNat_of_zero_le (hids nodeId node hnode)
      obtain ⟨m, rfl⟩ := Int.eq_ofNat_of_zero_le (hids otherId other hother)
      obtain ⟨i, rfl⟩ := Int.eq_ofNat_of_zero_le hpos
      obtain ⟨j, rfl⟩ := Int.eq_ofNat_of_zero_le hpos'
      exact hblocks.unique hnode hother hlt hlt' ((hnode.mac_eq_iff hother).mp hmac)

/-- A QEMU node as the API creates it. -/
def createdNode (nodeId ethernet : Int) : Node :=
  { id := nodeId, name := "r", type := .qemu, firstmac := some (firstMacForNode nodeId)
    ethernet := ethernet }

def createdLab (first second ethernet : Int) : Lab :=
  { id := "lab"
    nodes := (Dict.empty.set first (createdNode first ethernet)).set second
      (createdNode second ethernet) }

theorem createdLab_nodes {first second ethernet nodeId : Int} {node : Node}
    (hnode : DefaultNode (createdLab first second ethernet) nodeId node) :
    (nodeId = first ∨ nodeId = second) ∧ node.ethernet = ethernet := by
  have hget := hnode.1
  unfold createdLab at hget
  dsimp only at hget
  rw [Dict.get?_set] at hget
  split at hget
  next heq =>
    cases hget
    exact ⟨Or.inr heq.symm, rfl⟩
  next =>
    rw [Dict.get?_set] at hget
    split at hget
    next heq =>
      cases hget
      exact ⟨Or.inl heq.symm, rfl⟩
    next =>
      rw [Dict.get?_empty] at hget
      cases hget

theorem createdLab_ids {first second ethernet : Int} (hfirst : 0 ≤ first) (hsecond : 0 ≤ second) :
    ∀ nodeId node, DefaultNode (createdLab first second ethernet) nodeId node → 0 ≤ nodeId := by
  intro nodeId node hnode
  obtain ⟨hid, _⟩ := createdLab_nodes hnode
  omega

theorem createdLab_apart : MacBlocksApart (createdLab 1 255 65536) := by
  have hlow : ∀ nodeId node, DefaultNode (createdLab 1 255 65536) nodeId node →
      (nodeId = 1 ∨ nodeId = 255) ∧ node.ethernet = 65536 := fun _ _ => createdLab_nodes
  have hfirst : blockStart 1 = 65536 := @blockStart_low 1 (by decide)
  have hsecond : blockStart 255 = 16711680 := @blockStart_low 255 (by decide)
  refine ⟨?_, ?_, ?_⟩
  · intro nodeId node hnode hhigh
    obtain ⟨hid, _⟩ := hlow nodeId node hnode
    omega
  · intro nodeId node hnode _
    obtain ⟨hid, hethernet⟩ := hlow nodeId node hnode
    omega
  · intro nodeId node otherId other hnode hother hne
    obtain ⟨hid, hethernet⟩ := hlow nodeId node hnode
    obtain ⟨hotherId, hotherEthernet⟩ := hlow otherId other hother
    rcases hid with rfl | rfl <;> rcases hotherId with rfl | rfl <;> omega

/-- The lowest and the highest id of two digits, with as many interfaces as a block has room for. -/
theorem default_macs_of_two_nodes : DefaultMacsUnique (createdLab 1 255 65536) :=
  (default_macs_iff (createdLab 1 255 65536) (createdLab_ids (by decide) (by decide))).mpr
    createdLab_apart

/-- The octet of node 256 has three digits, and its MAC is that of node 16. -/
theorem default_macs_clash : ¬ ∀ lab : Lab,
    (∀ nodeId node, DefaultNode lab nodeId node → 0 ≤ nodeId) → DefaultMacsUnique lab := by
  intro h
  have hunique := h (createdLab 16 256 1) (createdLab_ids (by decide) (by decide))
  have hfirst : DefaultNode (createdLab 16 256 1) 16 (createdNode 16 1) :=
    ⟨by decide +kernel, rfl, by decide +kernel⟩
  have hsecond : DefaultNode (createdLab 16 256 1) 256 (createdNode 256 1) :=
    ⟨by decide +kernel, rfl, by decide +kernel⟩
  have hmac : ((createdNode 16 1).bootNic 0).mac = ((createdNode 256 1).bootNic 0).mac := by
    decide +kernel
  have hsame := hunique.unique 16 _ 256 _ hfirst hsecond 0 0 (by decide) (by decide) (by decide)
    (by decide) hmac
  omega

end NovaVe
