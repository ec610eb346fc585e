import NovaVe.SlotPorts

namespace NovaVe

/-- `_DYNAMIPS_PA_PORT_COUNT` of the templates: Ethernet ports only. -/
def dynamipsPaPortCount : List (String × Nat) :=
  [("GT96100-FE", 2), ("NM-1FE-TX", 1), ("NM-4T", 0), ("NM-16ESW", 16), ("NM-1E", 1), ("NM-4E", 4),
    ("C7200-IO-FE", 1), ("C7200-IO-2FE", 2), ("C7200-IO-GE-E", 1), ("PA-FE-TX", 1), ("PA-2FE-TX", 2),
    ("PA-GE", 1), ("PA-4E", 4), ("PA-8E", 8), ("PA-4T+", 0), ("PA-8T", 0), ("PA-A1", 0),
    ("PA-POS-OC3", 0)]

/-- The count for a lab that fills no slot. -/
def DynamipsPlatform.ethernetDefault : DynamipsPlatform → Nat
  | .c3725 => 2
  | .c7200 => 1

def inferStep (extras : SlotMap) (s : Nat × Bool) (idx : Nat) : Nat × Bool :=
  let pa := slotText extras idx
  if pa = "" then s
  else
    match assocGet dynamipsPaPortCount pa with
    | none => (s.1, true)
    | some count => (s.1 + count, true)

/-- `_infer_ethernet_count`. -/
def inferEthernetCount (platform : DynamipsPlatform) (extras : SlotMap) : Nat :=
  let (total, seenAny) := (List.range 8).foldl (inferStep extras) (0, false)
  if seenAny && decide (0 < total) then total else platform.ethernetDefault

def ethernetPortsOf (pa : String) : Nat := (assocGet dynamipsPaPortCount pa).getD 0

/-- An Ethernet port of an adapter of the inventory. -/
def EthernetPort (inventory : SlotInventory) (slot : Nat) (port : Int) : Prop :=
  ∃ pa, (slot, pa) ∈ inventory ∧ 0 ≤ port ∧ port < ethernetPortsOf pa

/-- The first `n` interface indices are the Ethernet ports. -/
structure EthernetMapping (inventory : SlotInventory) (n : Nat) : Prop where
  resolves : ∀ i : Int, 0 ≤ i → i < n → ∃ slot port,
    resolveSlotPort inventory i = .ok (slot, port) ∧ EthernetPort inventory slot port
  covers : ∀ (slot : Nat) (port : Int), EthernetPort inventory slot port →
    ∃ i : Int, 0 ≤ i ∧ i < n ∧ resolveSlotPort inventory i = .ok (slot, port)

/-- Every slot is empty or holds an adapter of both tables. -/
def KnownAdapters (slots : SlotMap) : Prop :=
  ∀ idx, slotText slots idx ≠ "" → (assocGet paPortCount (slotText slots idx)).isSome ∧
    (assocGet dynamipsPaPortCount (slotText slots idx)).isSome

/-- The Ethernet ports in the slots below a number. -/
def ethernetBelow (slots : SlotMap) : Nat → Nat
  | 0 => 0
  | k + 1 => ethernetBelow slots k + ethernetPortsOf (slotText slots k)

theorem ethernetBelow_succ (slots : SlotMap) (k : Nat) :
    ethernetBelow slots (k + 1) = ethernetBelow slots k + ethernetPortsOf (slotText slots k) := rfl

/-- With slot 0 set, the slots of the platform hold an Ethernet port and those beyond hold none; with
slot 0 unset, no slot holds one, or those beyond hold as many as the default card. -/
def CountAgrees (platform : DynamipsPlatform) (slots : SlotMap) : Prop :=
  if slotUnset slots 0 = true then
    ethernetBelow slots 8 = 0 ∨
      ethernetBelow slots 8 =
        ethernetBelow slots platform.maxSlots + ethernetPortsOf platform.slot0Default
  else 0 < ethernetBelow slots 8 ∧
    ethernetBelow slots 8 = ethernetBelow slots platform.maxSlots

/-- No Ethernet adapter stands behind one of another kind. -/
def EthernetFirst (platform : DynamipsPlatform) (slots : SlotMap) : Prop :=
  ∀ i j, i < j → j < platform.maxSlots → slotText slots i ≠ "" →
    ethernetPortsOf (slotText slots i) = 0 → ethernetPortsOf (slotText slots j) = 0

/-- All ports of an adapter are Ethernet, or none. -/
theorem ports_of_known {pa : String} (h : (assocGet paPortCount pa).isSome) :
    0 < portsOf pa ∧ (ethernetPortsOf pa = portsOf pa ∨ ethernetPortsOf pa = 0) := by
  obtain ⟨count, hcount⟩ := Option.isSome_iff_exists.mp h
  have hall : ∀ entry ∈ paPortCount, 0 < portsOf entry.1 ∧
      (ethernetPortsOf entry.1 = portsOf entry.1 ∨ ethernetPortsOf entry.1 = 0) := by decide
  exact hall (pa, count) (mem_of_assocGet hcount)

/-- An index falls on an adapter with Ethernet ports. -/
def OnEthernet (inventory : SlotInventory) (i : Nat) : Prop :=
  ∃ before slot pa after, inventory = before ++ (slot, pa) :: after ∧ totalPorts before ≤ i ∧
    i < totalPorts before + portsOf pa ∧ 0 < ethernetPortsOf pa

theorem onEthernet_cons {slot : Nat} {pa : String} {rest : SlotInventory} {i : Nat} :
    OnEthernet ((slot, pa) :: rest) i ↔
      (i < portsOf pa ∧ 0 < ethernetPortsOf pa) ∨
        (portsOf pa ≤ i ∧ OnEthernet rest (i - portsOf pa)) := by
  unfold OnEthernet
  constructor
  · intro h
    obtain ⟨before, slot', pa', after, hsplit, hlow, hhigh, heth⟩ := h
    cases before with
    | nil =>
      obtain ⟨_, rfl⟩ := Prod.mk.inj (List.cons.inj hsplit).1
      have hzero : totalPorts [] = 0 := rfl
      exact Or.inl ⟨by omega, heth⟩
    | cons first more =>
      obtain ⟨rfl, hrest⟩ := List.cons.inj hsplit
      rw [totalPorts_cons] at hlow hhigh
      dsimp only at hlow hhigh
      exact Or.inr ⟨by omega, more, slot', pa', after, hrest, by omega, by omega, heth⟩
  · intro h
    rcases h with ⟨hlt, heth⟩ | ⟨hge, before, slot', pa', after, hrest, hlow, hhigh, heth⟩
    · have hzero : totalPorts [] = 0 := rfl
      exact ⟨[], slot, pa, rest, rfl, by omega, by omega, heth⟩
    · refine ⟨(slot, pa) :: before, slot', pa', after, by rw [hrest]; rfl, ?_, ?_, heth⟩
      · rw [totalPorts_cons]
        dsimp only
        omega
      · rw [totalPorts_cons]
        dsimp only
        omega

/-- The entries of a slot are one. -/
theorem Fitted.unique {inventory : SlotInventory} (h : Fitted inventory) {slot : Nat}
    {pa pa' : String} (hpa : (slot, pa) ∈ inventory) (hpa' : (slot, pa') ∈ inventory) : pa = pa' := by
  have hforth : inventory.Pairwise (fun a b => a.1 = b.1 → a.2 = b.2) :=
    h.sorted.imp (by
      intro a b hlt heq
      omega)
  have hback : inventory.Pairwise (flip (fun a b => a.1 = b.1 → a.2 = b.2)) :=
    h.sorted.imp (by
      intro a b hlt heq
      omega)
  exact hforth.forall_of_forall_of_flip (fun _ _ _ => rfl) hback hpa hpa' rfl

theorem Fitted.ports {inventory : SlotInventory} (h : Fitted inventory) {slot : Nat} {pa : String}
    (hin : (slot, pa) ∈ inventory) :
    0 < portsOf pa ∧ (ethernetPortsOf pa = portsOf pa ∨ ethernetPortsOf pa = 0) :=
  ports_of_known (by rw [h.known _ hin]; rfl)

/-- An index is on an Ethernet adapter just when it falls on an Ethernet port. -/
theorem onEthernet_iff_falls {inventory : SlotInventory} (h : Fitted inventory) {k : Nat} :
    OnEthernet inventory k ↔
      ∃ slot port, FallsOn inventory k slot port ∧ EthernetPort inventory slot port := by
  constructor
  · intro hon
    obtain ⟨before, slot, pa, after, hsplit, hlow, hhigh, heth⟩ := hon
    have hin : (slot, pa) ∈ inventory := by
      rw [hsplit]
      exact List.mem_append_right _ List.mem_cons_self
    have hall := (h.ports hin).2
    exact ⟨slot, (k : Int) - totalPorts before, ⟨before, pa, after, hsplit, rfl, hlow, hhigh⟩, pa, hin,
      by omega, by omega⟩
  · intro hfalls
    obtain ⟨slot, port, hfalls, pa', hin', hge, hless⟩ := hfalls
    obtain ⟨before, pa, after, hsplit, _, hlow, hhigh⟩ := hfalls.split
    have hin : (slot, pa) ∈ inventory := by
      rw [hsplit]
      exact List.mem_append_right _ List.mem_cons_self
    obtain rfl := h.unique hin hin'
    exact ⟨before, slot, pa, after, hsplit, hlow, hhigh, by omega⟩

theorem ethernetMapping_iff {inventory : SlotInventory} (h : Fitted inventory) {n : Nat} :
    EthernetMapping inventory n ↔ ∀ k, k < n ↔ OnEthernet inventory k := by
  constructor
  · intro hmap k
    constructor
    · intro hlt
      obtain ⟨slot, port, hok, hport⟩ := hmap.resolves k (by omega) (by omega)
      exact (onEthernet_iff_falls h).mpr ⟨slot, port, resolve_ok h hok, hport⟩
    · intro hon
      obtain ⟨slot, port, hfalls, hport⟩ := (onEthernet_iff_falls h).mp hon
      obtain ⟨i, hi, hlt, hok⟩ := hmap.covers slot port hport
      obtain ⟨m, rfl⟩ := Int.eq_ofNat_of_zero_le hi
      have hother := resolve_ok h hok
      rcases Nat.le_total k m with hle | hle
      · have hapart := hfalls.apart h hother hle
        omega
      · have hapart := hother.apart h hfalls hle
        omega
  · intro hcount
    refine ⟨?_, ?_⟩
    · intro i hi hlt
      obtain ⟨k, rfl⟩ := Int.eq_ofNat_of_zero_le hi
      obtain ⟨slot, port, hfalls, hport⟩ := (onEthernet_iff_falls h).mp ((hcount k).mp (by omega))
      exact ⟨slot, port, hfalls.resolve_eq h, hport⟩
    · intro slot port hport
      obtain ⟨pa, hin, hge, hlt⟩ := hport
      obtain ⟨before, after, hsplit⟩ := List.append_of_mem hin
      obtain ⟨p, rfl⟩ := Int.eq_ofNat_of_zero_le hge
      have hall := (h.ports hin).2
      have hfalls : FallsOn inventory (totalPorts before + p) slot p :=
        ⟨before, pa, after, hsplit, by omega, by omega, by omega⟩
      have hk := (hcount (totalPorts before + p)).mpr
        ((onEthernet_iff_falls h).mpr ⟨slot, p, hfalls, pa, hin, hge, hlt⟩)
      exact ⟨(totalPorts before + p : Nat), by omega, by omega, hfalls.resolve_eq h⟩

def totalEthernet (inventory : SlotInventory) : Nat :=
  inventory.foldr (fun entry total => ethernetPortsOf entry.2 + total) 0

theorem totalEthernet_cons (entry : Nat × String) (rest : SlotInventory) :
    totalEthernet (entry :: rest) = ethernetPortsOf entry.2 + totalEthernet rest := rfl

theorem totalEthernet_append (before after : SlotInventory) :
    totalEthernet (before ++ after) = totalEthernet before + totalEthernet after := by
  induction before with
  | nil => simp [totalEthernet]
  | cons entry rest ih =>
    rw [List.cons_append, totalEthernet_cons, totalEthernet_cons, ih]
    omega

theorem totalEthernet_eq_zero {inventory : SlotInventory} :
    totalEthernet inventory = 0 ↔ ∀ entry ∈ inventory, ethernetPortsOf entry.2 = 0 := by
  induction inventory with
  | nil => simp [totalEthernet]
  | cons entry rest ih =>
    rw [totalEthernet_cons, List.forall_mem_cons, ← ih]
    omega

/-- The first indices are the Ethernet ones just when there are as many and they come first. -/
theorem onEthernet_iff {inventory : SlotInventory}
    (hknown : ∀ entry ∈ inventory, (assocGet paPortCount entry.2).isSome) {n : Nat} :
    (∀ k, k < n ↔ OnEthernet inventory k) ↔
      n = totalEthernet inventory ∧ inventory.Pairwise
        (fun a b => ethernetPortsOf a.2 = 0 → ethernetPortsOf b.2 = 0) := by
  induction inventory generalizing n with
  | nil =>
    have hnone : ∀ k, ¬ OnEthernet [] k := by
      intro k hon
      obtain ⟨before, slot, pa, after, hsplit, _⟩ := hon
      simp at hsplit
    constructor
    · intro h
      have hzero : ¬ 0 < n := fun hlt => hnone 0 ((h 0).mp hlt)
      exact ⟨by show n = 0; omega, List.Pairwise.nil⟩
    · intro h k
      obtain ⟨rfl, _⟩ := h
      exact ⟨fun hlt => absurd hlt (by show ¬ k < 0; omega), fun hon => absurd hon (hnone k)⟩
  | cons entry rest ih =>
    obtain ⟨slot, pa⟩ := entry
    have hrest := fun {m : Nat} => ih (n := m) (fun e he => hknown e (List.mem_cons_of_mem _ he))
    obtain ⟨hpos, hkind⟩ := ports_of_known (hknown _ List.mem_cons_self)
    rw [totalEthernet_cons, List.pairwise_cons]
    dsimp only at hpos hkind ⊢
    have hshift : ∀ k, OnEthernet ((slot, pa) :: rest) (k + portsOf pa) ↔ OnEthernet rest k := by
      intro k
      rw [onEthernet_cons, Nat.add_sub_cancel]
      constructor
      · intro h
        rcases h with ⟨hlt, _⟩ | ⟨_, hon⟩
        · omega
        · exact hon
      · intro hon
        exact Or.inr ⟨by omega, hon⟩
    rcases hkind with hall | hnone
    · constructor
      · intro h
        have hfull : portsOf pa - 1 < n :=
          (h _).mpr (onEthernet_cons.mpr (Or.inl ⟨by omega, by omega⟩))
        obtain ⟨hn, hfirst⟩ := (hrest (m := n - portsOf pa)).mp (by
          intro k
          rw [← hshift k, ← h]
          omega)
        exact ⟨by omega, fun b _ hzero => absurd hzero (by omega), hfirst⟩
      · intro h k
        obtain ⟨rfl, _, hfirst⟩ := h
        have hk := hrest.mpr ⟨rfl, hfirst⟩ (k - portsOf pa)
        rw [onEthernet_cons, ← hk]
        omega
    · constructor
      · intro h
        have hzero : n = 0 := by
          by_contra hne
          rcases onEthernet_cons.mp ((h 0).mp (by omega)) with ⟨_, heth⟩ | ⟨hle, _⟩
          · omega
          · omega
        obtain ⟨hn, hfirst⟩ := (hrest (m := 0)).mp (by
          intro k
          rw [← hshift k, ← h]
          omega)
        exact ⟨by omega, fun b hb _ => totalEthernet_eq_zero.mp hn.symm b hb, hfirst⟩
      · intro h k
        obtain ⟨rfl, hlater, hfirst⟩ := h
        have hzero : totalEthernet rest = 0 :=
          totalEthernet_eq_zero.mpr (fun b hb => hlater b hb hnone)
        have hk := hrest.mpr ⟨rfl, hfirst⟩ (k - portsOf pa)
        rw [onEthernet_cons, ← hk]
        omega

/-- The sum over the slots that hold an adapter is one over all slots. -/
theorem totalEthernet_populated (platform : DynamipsPlatform) (slots : SlotMap) (k : Nat) :
    totalEthernet ((List.range (k + 1)).filterMap (populated platform slots)) =
      ethernetBelow slots (k + 1) +
        (if slotUnset slots 0 = true then ethernetPortsOf platform.slot0Default else 0) := by
  have hblank : ethernetPortsOf "" = 0 := by decide
  have hstep : ∀ idx, totalEthernet ([idx].filterMap (populated platform slots)) =
      ethernetPortsOf (adapterFor platform slots idx) := by
    intro idx
    unfold populated
    by_cases hempty : adapterFor platform slots idx = ""
    · rw [hempty, hblank]
      simp [hempty, totalEthernet]
    · simp [hempty, totalEthernet]
  induction k with
  | zero =>
    have hone : List.range (0 + 1) = [0] := rfl
    rw [hone, hstep]
    unfold adapterFor ethernetBelow ethernetBelow
    by_cases hunset : slotUnset slots 0 = true
    · have htext : slotText slots 0 = "" := by
        have hraw := of_decide_eq_true hunset
        unfold slotText
        rw [hraw]
        rfl
      rw [if_pos ⟨rfl, hunset⟩, if_pos hunset, htext, hblank]
      omega
    · rw [if_neg (fun h => hunset h.2), if_neg hunset]
      omega
  | succ k ih =>
    have hlater : adapterFor platform slots (k + 1) = slotText slots (k + 1) := by
      unfold adapterFor
      rw [if_neg (by omega)]
    rw [List.range_succ, List.filterMap_append, totalEthernet_append, ih, hstep, hlater]
    rw [ethernetBelow_succ slots (k + 1)]
    omega

theorem totalEthernet_fitted (platform : DynamipsPlatform) (slots : SlotMap) :
    totalEthernet (fittedSlots platform slots) = ethernetBelow slots platform.maxSlots +
      (if slotUnset slots 0 = true then ethernetPortsOf platform.slot0Default else 0) := by
  unfold fittedSlots
  cases platform with
  | c3725 => exact totalEthernet_populated .c3725 slots 2
  | c7200 => exact totalEthernet_populated .c7200 slots 6

/-- The importer sums the Ethernet ports of the slots it looks at. -/
theorem foldl_inferStep (slots : SlotMap) (k : Nat) :
    ((List.range k).foldl (inferStep slots) (0, false)).1 = ethernetBelow slots k ∧
      (0 < ethernetBelow slots k → ((List.range k).foldl (inferStep slots) (0, false)).2 = true) := by
  induction k with
  | zero => exact ⟨rfl, fun h => absurd h (Nat.lt_irrefl 0)⟩
  | succ k ih =>
    obtain ⟨hsum, hseen⟩ := ih
    rw [List.range_succ, List.foldl_append]
    generalize (List.range k).foldl (inferStep slots) (0, false) = s at hsum hseen
    rw [List.foldl_cons, List.foldl_nil, ethernetBelow_succ]
    unfold inferStep ethernetPortsOf
    dsimp only
    by_cases hempty : slotText slots k = ""
    · have hblank : assocGet dynamipsPaPortCount "" = none := by decide
      rw [if_pos hempty, hempty, hblank]
      exact ⟨hsum, hseen⟩
    · rw [if_neg hempty]
      cases hcount : assocGet dynamipsPaPortCount (slotText slots k) with
      | none => exact ⟨hsum, fun _ => rfl⟩
      | some count => exact ⟨by rw [← hsum]; rfl, fun _ => rfl⟩

theorem inferEthernetCount_eq (platform : DynamipsPlatform) (slots : SlotMap) :
    inferEthernetCount platform slots =
      if 0 < ethernetBelow slots 8 then ethernetBelow slots 8 else platform.ethernetDefault := by
  obtain ⟨hsum, hseen⟩ := foldl_inferStep slots 8
  unfold inferEthernetCount
  generalize (List.range 8).foldl (inferStep slots) (0, false) = s at hsum hseen
  obtain ⟨total, seen⟩ := s
  dsimp only at hsum hseen ⊢
  subst hsum
  by_cases hpos : 0 < ethernetBelow slots 8
  · rw [hseen hpos]
    simp [hpos]
  · simp [hpos]

theorem ethernetBelow_mono (slots : SlotMap) {j k : Nat} (h : j ≤ k) :
    ethernetBelow slots j ≤ ethernetBelow slots k := by
  induction h with
  | refl => exact Nat.le_refl _
  | step _ ih =>
    rw [ethernetBelow_succ]
    omega

/-- The importer counts the Ethernet ports the runtime has just when the slots agree. -/
theorem inferEthernetCount_iff (platform : DynamipsPlatform) (slots : SlotMap) :
    inferEthernetCount platform slots = totalEthernet (fittedSlots platform slots) ↔
      CountAgrees platform slots := by
  have hdefault : ethernetPortsOf platform.slot0Default = platform.ethernetDefault := by
    cases platform with
    | c3725 => decide
    | c7200 => decide
  have hpos : 0 < platform.ethernetDefault := by
    cases platform with
    | c3725 => decide
    | c7200 => decide
  have hmono : ethernetBelow slots platform.maxSlots ≤ ethernetBelow slots 8 := by
    refine ethernetBelow_mono slots ?_
    cases platform with
    | c3725 => decide
    | c7200 => decide
  rw [inferEthernetCount_eq, totalEthernet_fitted, hdefault]
  unfold CountAgrees
  rw [hdefault]
  split <;> split <;> omega

/-- No index of a slot with an Ethernet adapter stands behind one without. -/
theorem pairwise_fittedSlots (platform : DynamipsPlatform) (slots : SlotMap) :
    (fittedSlots platform slots).Pairwise
        (fun a b => ethernetPortsOf a.2 = 0 → ethernetPortsOf b.2 = 0) ↔
      EthernetFirst platform slots := by
  have hcard : 0 < ethernetPortsOf platform.slot0Default := by
    cases platform with
    | c3725 => decide
    | c7200 => decide
  have hblank : ethernetPortsOf "" = 0 := by decide
  have hlater : ∀ {idx}, 0 < idx → adapterFor platform slots idx = slotText slots idx := by
    intro idx hidx
    unfold adapterFor
    rw [if_neg (by omega)]
  unfold fittedSlots
  rw [List.pairwise_filterMap, List.pairwise_iff_getElem]
  unfold populated EthernetFirst
  constructor
  · intro h i j hlt hj htext hzero
    have hadapter : adapterFor platform slots i = slotText slots i := by
      unfold adapterFor
      rw [if_neg]
      intro hunset
      obtain ⟨rfl, hunset⟩ := hunset
      have hraw := of_decide_eq_true hunset
      apply htext
      unfold slotText
      rw [hraw]
      rfl
    by_cases hempty : slotText slots j = ""
    · rw [hempty]
      exact hblank
    · have hpair := h i j (by simpa using (by omega : i < platform.maxSlots)) (by simpa using hj) hlt
      simp only [List.getElem_range, hadapter, hlater (by omega : 0 < j), if_neg htext,
        if_neg hempty] at hpair
      exact hpair (i, slotText slots i) rfl (j, slotText slots j) rfl hzero
  · intro h i j hi hj hlt a ha b hb hzero
    simp only [List.getElem_range, List.length_range] at hi hj ha hb
    split at ha
    next => cases ha
    next hne =>
      split at hb
      next => cases hb
      next =>
        cases ha
        cases hb
        dsimp only at hzero ⊢
        rw [hlater (by omega : 0 < j)]
        by_cases hunset : i = 0 ∧ slotUnset slots 0 = true
        · unfold adapterFor at hzero
          rw [if_pos hunset] at hzero
          omega
        · have hadapter : adapterFor platform slots i = slotText slots i := by
            unfold adapterFor
            rw [if_neg hunset]
          rw [hadapter] at hzero hne
          exact h i j hlt hj hne hzero

theorem known_adapterFor {platform : DynamipsPlatform} {slots : SlotMap} (h : KnownAdapters slots)
    {idx : Nat} (hne : adapterFor platform slots idx ≠ "") :
    (assocGet paPortCount (adapterFor platform slots idx)).isSome := by
  unfold adapterFor at hne ⊢
  split
  next =>
    cases platform with
    | c3725 => decide
    | c7200 => decide
  next hset =>
    rw [if_neg hset] at hne
    exact (h idx hne).1

theorem fitted_fittedSlots {platform : DynamipsPlatform} {slots : SlotMap} (h : KnownAdapters slots) :
    Fitted (fittedSlots platform slots) := by
  refine ⟨?_, sorted_fittedSlots platform slots⟩
  intro entry hentry
  obtain ⟨_, hpa, hne⟩ := mem_fittedSlots.mp hentry
  have hsome : (assocGet paPortCount entry.2).isSome := by
    rw [hpa] at hne ⊢
    exact known_adapterFor h hne
  obtain ⟨count, hcount⟩ := Option.isSome_iff_exists.mp hsome
  unfold portsOf
  rw [hcount]
  rfl

/-- The interface indices always map to the ports in order; the first `n` that the importer counts are
the Ethernet ports just when the counts agree and the Ethernet adapters come first. -/
theorem slot_port_mapping_iff (platform : DynamipsPlatform) (slots : SlotMap)
    (hknown : KnownAdapters slots) :
    ∃ inventory, buildSlotInventory platform slots = .ok inventory ∧ SlotMapping inventory ∧
      (EthernetMapping inventory (inferEthernetCount platform slots) ↔
        CountAgrees platform slots ∧ EthernetFirst platform slots) := by
  have hfit : Fitted (fittedSlots platform slots) := fitted_fittedSlots hknown
  refine ⟨fittedSlots platform slots, ?_, slotMapping_of_fitted hfit, ?_⟩
  · unfold buildSlotInventory
    rw [foldlM_inventoryStep (fun idx _ hne => known_adapterFor hknown hne)]
    rfl
  · rw [ethernetMapping_iff hfit, onEthernet_iff, inferEthernetCount_iff, pairwise_fittedSlots]
    intro entry hentry
    rw [hfit.known entry hentry]
    rfl

/-- A serial card before an Ethernet card in slots 0 and 1. -/
def serialFirst : SlotMap := fun idx =>
  if idx = 0 then some "PA-8T" else if idx = 1 then some "PA-FE-TX" else none

theorem known_serialFirst : KnownAdapters serialFirst := by
  intro idx
  unfold slotText serialFirst
  by_cases hzero : idx = 0
  · rw [if_pos hzero]
    decide
  · rw [if_neg hzero]
    by_cases hone : idx = 1
    · rw [if_pos hone]
      decide
    · rw [if_neg hone]
      decide

theorem slot_port_mapping_serial :
    ∃ inventory, buildSlotInventory .c7200 serialFirst = .ok inventory ∧ SlotMapping inventory ∧
      (EthernetMapping inventory (inferEthernetCount .c7200 serialFirst) ↔
        CountAgrees .c7200 serialFirst ∧ EthernetFirst .c7200 serialFirst) :=
  slot_port_mapping_iff .c7200 serialFirst known_serialFirst

/-- The one interface that is counted is a serial port. -/
theorem serial_port_counted :
    ¬ (∀ (platform : DynamipsPlatform) (slots : SlotMap), KnownAdapters slots →
      ∃ inventory, buildSlotInventory platform slots = .ok inventory ∧ SlotMapping inventory ∧
        EthernetMapping inventory (inferEthernetCount platform slots)) := by
  intro h
  obtain ⟨inventory, hbuild, _, hmap⟩ := h .c7200 serialFirst known_serialFirst
  have hinventory : buildSlotInventory .c7200 serialFirst = .ok [(0, "PA-8T"), (1, "PA-FE-TX")] := by
    decide
  rw [hinventory] at hbuild
  cases hbuild
  have hcount : inferEthernetCount .c7200 serialFirst = 1 := by decide
  rw [hcount] at hmap
  obtain ⟨slot, port, hok, hport⟩ := hmap.resolves 0 (by omega) (by omega)
  have hfirst : resolveSlotPort [(0, "PA-8T"), (1, "PA-FE-TX")] 0 = .ok (0, 0) := by decide
  rw [hfirst] at hok
  cases hok
  obtain ⟨pa, hin, _, hlt⟩ := hport
  have hserial : ethernetPortsOf "PA-8T" = 0 := by decide
  rcases List.mem_cons.mp hin with he | hin
  · obtain ⟨_, rfl⟩ := Prod.mk.inj he
    rw [hserial] at hlt
    omega
  · simp at hin

end NovaVe
