import NovaVe.Dict
import NovaVe.Texts

namespace NovaVe

inductive DynamipsPlatform
  | c3725
  | c7200
deriving DecidableEq, Repr

/-- `_PLATFORM_MAX_SLOTS`. -/
def DynamipsPlatform.maxSlots : DynamipsPlatform → Nat
  | .c3725 => 3
  | .c7200 => 7

/-- `_PLATFORM_SLOT0_DEFAULT_PA`. -/
def DynamipsPlatform.slot0Default : DynamipsPlatform → String
  | .c3725 => "GT96100-FE"
  | .c7200 => "C7200-IO-FE"

/-- `_PA_PORT_COUNT` of the runtime: all ports. -/
def paPortCount : List (String × Nat) :=
  [("GT96100-FE", 2), ("NM-1FE-TX", 1), ("NM-4T", 4), ("NM-16ESW", 16), ("NM-1E", 1), ("NM-4E", 4),
    ("C7200-IO-FE", 1), ("C7200-IO-2FE", 2), ("C7200-IO-GE-E", 1), ("PA-FE-TX", 1), ("PA-2FE-TX", 2),
    ("PA-GE", 1), ("PA-4E", 4), ("PA-8E", 8), ("PA-4T+", 4), ("PA-8T", 8), ("PA-A1", 1),
    ("PA-POS-OC3", 1)]

/-- A slot and the adapter in it. -/
abbrev SlotInventory := List (Nat × String)

inductive DynamipsFault
  | unknownAdapter (pa : String) (slot : Nat)
  | indexExceeds (interfaceIndex total : Int) (inventory : SlotInventory)
  | keyError (pa : String)
deriving DecidableEq, Repr

/-- The values of `slot0`, `slot1` …; a missing value is `none`. -/
abbrev SlotMap := Nat → Option String

/-- `str(raw or "").strip()`. -/
def slotText (slots : SlotMap) (idx : Nat) : String := pyStrip ((slots idx).getD "")

/-- `not raw`. -/
def slotUnset (slots : SlotMap) (idx : Nat) : Bool := decide ((slots idx).getD "" = "")

/-- The adapter the runtime takes for a slot. -/
def adapterFor (platform : DynamipsPlatform) (template : SlotMap) (idx : Nat) : String :=
  if idx = 0 ∧ slotUnset template 0 = true then platform.slot0Default else slotText template idx

def inventoryStep (platform : DynamipsPlatform) (template : SlotMap) (inventory : SlotInventory)
    (idx : Nat) : Except DynamipsFault SlotInventory :=
  let pa := adapterFor platform template idx
  if pa = "" then .ok inventory
  else if (assocGet paPortCount pa).isNone then .error (.unknownAdapter pa idx)
  else .ok (inventory ++ [(idx, pa)])

/-- `_build_slot_inventory`. -/
def buildSlotInventory (platform : DynamipsPlatform) (template : SlotMap) :
    Except DynamipsFault SlotInventory :=
  (List.range platform.maxSlots).foldlM (inventoryStep platform template) []

/-- The loop of `_resolve_slot_port`, from a total on. -/
def walkSlots (inventory : SlotInventory) (interfaceIndex : Int) :
    Int → SlotInventory → Except DynamipsFault (Nat × Int)
  | total, [] => .error (.indexExceeds interfaceIndex total inventory)
  | total, (slotIdx, paName) :: rest =>
    match assocGet paPortCount paName with
    | none => .error (.keyError paName)
    | some count =>
      if interfaceIndex < total + count then .ok (slotIdx, interfaceIndex - total)
      else walkSlots inventory interfaceIndex (total + count) rest

/-- `_resolve_slot_port`. -/
def resolveSlotPort (inventory : SlotInventory) (interfaceIndex : Int) :
    Except DynamipsFault (Nat × Int) :=
  walkSlots inventory interfaceIndex 0 inventory

/-- How many ports an adapter has. -/
def portsOf (pa : String) : Nat := (assocGet paPortCount pa).getD 0

def totalPorts (inventory : SlotInventory) : Nat :=
  inventory.foldr (fun entry total => portsOf entry.2 + total) 0

/-- A port of an adapter of the inventory. -/
def PortAt (inventory : SlotInventory) (slot : Nat) (port : Int) : Prop :=
  ∃ pa, (slot, pa) ∈ inventory ∧ 0 ≤ port ∧ port < portsOf pa

/-- The interface indices are mapped one to one and in order to the ports there are. -/
structure SlotMapping (inventory : SlotInventory) : Prop where
  raises : ∀ i : Int, 0 ≤ i →
    ((∃ fault, resolveSlotPort inventory i = .error fault) ↔ (totalPorts inventory : Int) ≤ i)
  lands : ∀ (i : Int) (slot : Nat) (port : Int), 0 ≤ i →
    resolveSlotPort inventory i = .ok (slot, port) → PortAt inventory slot port
  ordered : ∀ (i j : Int) (slot slot' : Nat) (port port' : Int), 0 ≤ i → i < j →
    resolveSlotPort inventory i = .ok (slot, port) →
      resolveSlotPort inventory j = .ok (slot', port') →
        slot < slot' ∨ (slot = slot' ∧ port < port')

/-- Every adapter has a port count, and the slots ascend. -/
structure Fitted (inventory : SlotInventory) : Prop where
  known : ∀ entry ∈ inventory, assocGet paPortCount entry.2 = some (portsOf entry.2)
  sorted : inventory.Pairwise (fun a b => a.1 < b.1)

/-- The adapter an index falls on, with the ports before it. -/
structure FallsOn (inventory : SlotInventory) (i : Nat) (slot : Nat) (port : Int) : Prop where
  split : ∃ before pa after, inventory = before ++ (slot, pa) :: after ∧
    (port : Int) = (i : Int) - totalPorts before ∧ totalPorts before ≤ i ∧
      i < totalPorts before + portsOf pa

theorem totalPorts_append (before after : SlotInventory) :
    totalPorts (before ++ after) = totalPorts before + totalPorts after := by
  induction before with
  | nil => simp [totalPorts]
  | cons entry rest ih =>
    unfold totalPorts at ih ⊢
    rw [List.cons_append, List.foldr_cons, List.foldr_cons, ih]
    omega

theorem totalPorts_cons (entry : Nat × String) (rest : SlotInventory) :
    totalPorts (entry :: rest) = portsOf entry.2 + totalPorts rest := rfl

/-- What the walk does from a point of the inventory on. -/
theorem walkSlots_spec {inventory before rest : SlotInventory} (hsplit : inventory = before ++ rest)
    (hknown : ∀ entry ∈ rest, assocGet paPortCount entry.2 = some (portsOf entry.2)) {i : Nat}
    (hreached : totalPorts before ≤ i) :
    (totalPorts inventory ≤ i ∧
        walkSlots inventory i (totalPorts before) rest =
          .error (.indexExceeds i (totalPorts inventory) inventory)) ∨
      ∃ slot port, walkSlots inventory i (totalPorts before) rest = .ok (slot, port) ∧
        FallsOn inventory i slot port := by
  induction rest generalizing before with
  | nil =>
    rw [List.append_nil] at hsplit
    rw [hsplit]
    exact Or.inl ⟨hreached, rfl⟩
  | cons entry more ih =>
    obtain ⟨slot, pa⟩ := entry
    have hcount := hknown (slot, pa) List.mem_cons_self
    dsimp only at hcount
    by_cases hhere : i < totalPorts before + portsOf pa
    · refine Or.inr ⟨slot, (i : Int) - totalPorts before, ?_, ⟨before, pa, more, hsplit, rfl,
        hreached, hhere⟩⟩
      unfold walkSlots
      rw [hcount]
      dsimp only
      rw [if_pos (by omega)]
    · have hnext : totalPorts (before ++ [(slot, pa)]) = totalPorts before + portsOf pa := by
        rw [totalPorts_append, totalPorts_cons]
        rfl
      have hrest := @ih (before ++ [(slot, pa)])
        (by rw [hsplit, List.append_assoc]; rfl)
        (fun e he => hknown e (List.mem_cons_of_mem _ he)) (by omega)
      rw [hnext, Int.natCast_add] at hrest
      have hwalk : walkSlots inventory i (totalPorts before) ((slot, pa) :: more) =
          walkSlots inventory i ((totalPorts before : Int) + (portsOf pa : Nat)) more := by
        conv_lhs => unfold walkSlots
        rw [hcount]
        dsimp only
        rw [if_neg (by omega)]
      rw [hwalk]
      exact hrest

theorem resolveSlotPort_spec {inventory : SlotInventory} (h : Fitted inventory) (i : Nat) :
    (totalPorts inventory ≤ i ∧
        resolveSlotPort inventory i = .error (.indexExceeds i (totalPorts inventory) inventory)) ∨
      ∃ slot port, resolveSlotPort inventory i = .ok (slot, port) ∧ FallsOn inventory i slot port :=
  @walkSlots_spec inventory [] inventory rfl h.known i (Nat.zero_le i)

theorem FallsOn.lt {inventory : SlotInventory} {i slot : Nat} {port : Int}
    (h : FallsOn inventory i slot port) : i < totalPorts inventory := by
  obtain ⟨before, pa, after, rfl, _, _, hlt⟩ := h.split
  rw [totalPorts_append, totalPorts_cons]
  dsimp only
  omega

theorem FallsOn.portAt {inventory : SlotInventory} {i slot : Nat} {port : Int}
    (h : FallsOn inventory i slot port) : PortAt inventory slot port := by
  obtain ⟨before, pa, after, rfl, hport, hle, hlt⟩ := h.split
  exact ⟨pa, List.mem_append_right _ List.mem_cons_self, by omega, by omega⟩

theorem resolve_ok {inventory : SlotInventory} (h : Fitted inventory) {i slot : Nat} {port : Int}
    (hok : resolveSlotPort inventory i = .ok (slot, port)) : FallsOn inventory i slot port := by
  rcases resolveSlotPort_spec h i with ⟨_, herror⟩ | ⟨slot', port', hok', hfalls⟩
  · rw [herror] at hok
    cases hok
  · rw [hok'] at hok
    cases hok
    exact hfalls

/-- A later index falls on the same adapter, as far on as it is later, or on one further on. -/
theorem FallsOn.apart {inventory : SlotInventory} (h : Fitted inventory) {i j slot slot' : Nat}
    {port port' : Int} (hi : FallsOn inventory i slot port) (hj : FallsOn inventory j slot' port')
    (hle : i ≤ j) : slot < slot' ∨ (slot = slot' ∧ port' - port = (j : Int) - i) := by
  obtain ⟨before, pa, after, hsplit, hport, hlow, hhigh⟩ := hi.split
  obtain ⟨before', pa', after', hsplit', hport', hlow', hhigh'⟩ := hj.split
  have hsorted := h.sorted
  rw [hsplit] at hsplit'
  rcases List.append_eq_append_iff.mp hsplit' with ⟨middle, hmiddle, hafter⟩ | ⟨middle, hmiddle, hafter⟩
  · cases middle with
    | nil =>
      rw [List.append_nil] at hmiddle
      rw [List.nil_append] at hafter
      have hslot := (Prod.mk.inj (List.cons.inj hafter).1).1
      rw [hmiddle] at hport'
      exact Or.inr ⟨hslot, by omega⟩
    | cons first more =>
      have hin : (slot', pa') ∈ after := by
        rw [(List.cons.inj hafter).2]
        exact List.mem_append_right _ List.mem_cons_self
      rw [hsplit, List.pairwise_append] at hsorted
      exact Or.inl ((List.pairwise_cons.mp hsorted.2.1).1 (slot', pa') hin)
  · cases middle with
    | nil =>
      rw [List.append_nil] at hmiddle
      rw [List.nil_append] at hafter
      have hslot := (Prod.mk.inj (List.cons.inj hafter).1).1
      rw [hmiddle] at hport
      exact Or.inr ⟨hslot.symm, by omega⟩
    | cons first more =>
      -- the earlier index would lie behind all ports of the later one
      obtain ⟨rfl, _⟩ := List.cons.inj hafter
      rw [hmiddle, totalPorts_append, totalPorts_cons] at hlow
      dsimp only at hlow
      omega

theorem FallsOn.resolve_eq {inventory : SlotInventory} (h : Fitted inventory) {i slot : Nat}
    {port : Int} (hfalls : FallsOn inventory i slot port) :
    resolveSlotPort inventory i = .ok (slot, port) := by
  rcases resolveSlotPort_spec h i with ⟨hge, _⟩ | ⟨slot', port', hok, hfalls'⟩
  · have hlt := hfalls.lt
    omega
  · have hforth := hfalls.apart h hfalls' (Nat.le_refl i)
    have hback := hfalls'.apart h hfalls (Nat.le_refl i)
    have hslot : slot' = slot := by omega
    have hport : port' = port := by omega
    rw [hok, hslot, hport]

/-- The indices are mapped in order to the ports of any fitted inventory. -/
theorem slotMapping_of_fitted {inventory : SlotInventory} (h : Fitted inventory) :
    SlotMapping inventory := by
  refine ⟨?_, ?_, ?_⟩
  · intro i hi
    obtain ⟨n, rfl⟩ := Int.eq_ofNat_of_zero_le hi
    rcases resolveSlotPort_spec h n with ⟨hge, herror⟩ | ⟨slot, port, hok, hfalls⟩
    · constructor
      · intro _
        omega
      · intro _
        exact ⟨_, herror⟩
    · constructor
      · intro herror
        obtain ⟨fault, herror⟩ := herror
        rw [hok] at herror
        cases herror
      · intro hge
        have hlt := hfalls.lt
        omega
  · intro i slot port hi hok
    obtain ⟨n, rfl⟩ := Int.eq_ofNat_of_zero_le hi
    exact (resolve_ok h hok).portAt
  · intro i j slot slot' port port' hi hlt hok hok'
    obtain ⟨n, rfl⟩ := Int.eq_ofNat_of_zero_le hi
    obtain ⟨m, rfl⟩ := Int.eq_ofNat_of_zero_le (by omega : 0 ≤ j)
    have hapart := (resolve_ok h hok).apart h (resolve_ok h hok') (by omega)
    omega

/-- The slots that hold an adapter. -/
def populated (platform : DynamipsPlatform) (template : SlotMap) (idx : Nat) : Option (Nat × String) :=
  if adapterFor platform template idx = "" then none else some (idx, adapterFor platform template idx)

theorem foldlM_inventoryStep {platform : DynamipsPlatform} {template : SlotMap}
    {indices : List Nat} {start : SlotInventory}
    (h : ∀ idx ∈ indices, adapterFor platform template idx ≠ "" →
      (assocGet paPortCount (adapterFor platform template idx)).isSome) :
    indices.foldlM (inventoryStep platform template) start =
      .ok (start ++ indices.filterMap (populated platform template)) := by
  induction indices generalizing start with
  | nil =>
    rw [List.filterMap_nil, List.append_nil]
    rfl
  | cons idx rest ih =>
    have hrest := fun k hk => h k (List.mem_cons_of_mem idx hk)
    rw [List.foldlM_cons]
    by_cases hempty : adapterFor platform template idx = ""
    · have hstep : inventoryStep platform template start idx = .ok start := by
        unfold inventoryStep
        dsimp only
        rw [if_pos hempty]
      have hnone : populated platform template idx = none := by
        unfold populated
        rw [if_pos hempty]
      rw [hstep, List.filterMap_cons_none hnone]
      exact ih hrest
    · have hsome := h idx List.mem_cons_self hempty
      have hstep : inventoryStep platform template start idx =
          .ok (start ++ [(idx, adapterFor platform template idx)]) := by
        unfold inventoryStep
        dsimp only
        rw [if_neg hempty, if_neg (by rw [Option.isNone_iff_eq_none]; intro hnone; simp [hnone] at hsome)]
      have hhere : populated platform template idx =
          some (idx, adapterFor platform template idx) := by
        unfold populated
        rw [if_neg hempty]
      rw [hstep, List.filterMap_cons_some hhere]
      refine (ih hrest).trans ?_
      rw [List.append_assoc]
      rfl

/-- The slots of the platform that hold an adapter, in order. -/
def fittedSlots (platform : DynamipsPlatform) (template : SlotMap) : SlotInventory :=
  (List.range platform.maxSlots).filterMap (populated platform template)

theorem mem_fittedSlots {platform : DynamipsPlatform} {template : SlotMap} {entry : Nat × String} :
    entry ∈ fittedSlots platform template ↔
      entry.1 < platform.maxSlots ∧ entry.2 = adapterFor platform template entry.1 ∧
        entry.2 ≠ "" := by
  obtain ⟨slot, pa⟩ := entry
  unfold fittedSlots populated
  rw [List.mem_filterMap]
  constructor
  · intro h
    obtain ⟨idx, hidx, hentry⟩ := h
    split at hentry
    next => cases hentry
    next hne =>
      cases hentry
      exact ⟨List.mem_range.mp hidx, rfl, hne⟩
  · intro h
    obtain ⟨hlt, hpa, hne⟩ := h
    dsimp only at hlt hpa hne
    subst hpa
    exact ⟨slot, List.mem_range.mpr hlt, if_neg hne⟩

theorem sorted_fittedSlots (platform : DynamipsPlatform) (template : SlotMap) :
    (fittedSlots platform template).Pairwise (fun a b => a.1 < b.1) := by
  unfold fittedSlots
  rw [List.pairwise_filterMap]
  refine List.Pairwise.imp ?_ List.pairwise_lt_range
  intro i j hlt a ha b hb
  unfold populated at ha hb
  split at ha
  next => cases ha
  next =>
    split at hb
    next => cases hb
    next =>
      cases ha
      cases hb
      exact hlt

end NovaVe
