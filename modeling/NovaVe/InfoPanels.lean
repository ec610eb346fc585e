import Mathlib.Algebra.Order.Floor.Ring
import Mathlib.Data.List.Induction
import Mathlib.Data.List.Nodup
import Mathlib.Data.List.Perm.Subperm
import Mathlib.Data.Rat.Floor
import Mathlib.Tactic.Linarith
import Mathlib.Tactic.NormNum

namespace NovaVe

inductive InfoPanelKind
  | node
  | network
deriving DecidableEq, Repr

structure InfoPanelEntry where
  id : String
  kind : InfoPanelKind
  refId : Int
  position : ℚ × ℚ
  zIndex : Nat
deriving DecidableEq, Repr

def maxPanels : Nat := 4

def stackX : ℚ := 16

def stackYBase : ℚ := 16

def stackGap : ℚ := 12

def panelHeightGuess : ℚ := 260

def panelKey (kind : InfoPanelKind) (refId : Int) : String :=
  (match kind with
    | .node => "node"
    | .network => "network") ++ ":" ++ toString refId

/-- The slot that a panel is nearest to; a half is rounded up. -/
def stackSlot (entry : InfoPanelEntry) : ℤ :=
  ⌊(entry.position.2 - stackYBase) / (panelHeightGuess + stackGap) + 1 / 2⌋

def slotPlace (slot : Nat) : ℚ × ℚ :=
  (stackX, stackYBase + slot * (panelHeightGuess + stackGap))

def slotsTaken (existing : List InfoPanelEntry) : List ℤ :=
  (existing.map stackSlot).filter (fun slot => decide (0 ≤ slot) && decide (slot < maxPanels))

def nextStackPosition (existing : List InfoPanelEntry) : ℚ × ℚ :=
  match (List.range maxPanels).find? (fun slot : Nat =>
    !(slotsTaken existing).contains (slot : ℤ)) with
  | some slot => slotPlace slot
  | none => (stackX, stackYBase)

/-- The panels, the oldest first, and the highest layer that was given out. -/
structure PanelStore where
  entries : List InfoPanelEntry
  zCursor : Nat

def emptyPanels : PanelStore := ⟨[], 100⟩

/-- The entries after the loop that drops the oldest. -/
def prunePanels : List InfoPanelEntry → List InfoPanelEntry
  | [] => []
  | entry :: rest =>
    if maxPanels ≤ rest.length + 1 then prunePanels rest else entry :: rest

/-- The panel gets the next layer. -/
def PanelStore.raise (store : PanelStore) (id : String) : PanelStore where
  entries := store.entries.map fun entry =>
    if entry.id = id then { entry with zIndex := store.zCursor + 1 } else entry
  zCursor := store.zCursor + 1

def PanelStore.open (store : PanelStore) (kind : InfoPanelKind) (refId : Int) : PanelStore :=
  let key := panelKey kind refId
  match store.entries.find? (fun entry => decide (entry.id = key)) with
  | some _ => store.raise key
  | none =>
    let pruned := prunePanels store.entries
    { entries := pruned ++ [⟨key, kind, refId, nextStackPosition pruned, store.zCursor + 1⟩]
      zCursor := store.zCursor + 1 }

def PanelStore.close (store : PanelStore) (id : String) : PanelStore :=
  { store with entries := store.entries.filter (fun entry => decide (entry.id ≠ id)) }

def PanelStore.move (store : PanelStore) (id : String) (x y : ℚ) : PanelStore :=
  { store with
    entries := store.entries.map fun entry =>
      if entry.id = id then { entry with position := (x, y) } else entry }

inductive PanelCall
  | open (kind : InfoPanelKind) (refId : Int)
  | close (id : String)
  | move (id : String) (x y : ℚ)
  | bringToFront (id : String)
  | reset
deriving DecidableEq, Repr

def PanelStore.call (store : PanelStore) : PanelCall → PanelStore
  | .open kind refId => store.open kind refId
  | .close id => store.close id
  | .move id x y => store.move id x y
  | .bringToFront id => store.raise id
  | .reset => { store with entries := [] }

def runPanels (history : List PanelCall) : PanelStore :=
  history.foldl PanelStore.call emptyPanels

/-- What holds of the panels in every state: there are four at most, each is there once, and no two
are on one layer. -/
structure PanelStore.Sound (store : PanelStore) : Prop where
  few : store.entries.length ≤ maxPanels
  keyed : ∀ entry ∈ store.entries, entry.id = panelKey entry.kind entry.refId
  distinct : (store.entries.map InfoPanelEntry.id).Nodup
  layered : ∀ a ∈ store.entries, ∀ b ∈ store.entries, a.zIndex = b.zIndex → a.id = b.id
  below : ∀ entry ∈ store.entries, entry.zIndex ≤ store.zCursor

theorem prunePanels_eq (entries : List InfoPanelEntry) :
    prunePanels entries = entries.drop (entries.length - 3) := by
  induction entries with
  | nil => rfl
  | cons entry rest ih =>
    unfold prunePanels maxPanels
    split
    next hmany =>
      have hdrop : (entry :: rest).length - 3 = (rest.length - 3) + 1 := by
        simp only [List.length_cons]
        omega
      rw [ih, hdrop, List.drop_succ_cons]
    next hfew =>
      have hdrop : (entry :: rest).length - 3 = 0 := by
        simp only [List.length_cons]
        omega
      rw [hdrop, List.drop_zero]

theorem prunePanels_length (entries : List InfoPanelEntry) : (prunePanels entries).length ≤ 3 := by
  rw [prunePanels_eq, List.length_drop]
  omega

theorem prunePanels_sublist (entries : List InfoPanelEntry) :
    (prunePanels entries).Sublist entries := by
  rw [prunePanels_eq]
  exact List.drop_sublist _ _

theorem PanelStore.Sound.sublist {store : PanelStore} (hs : store.Sound)
    {entries : List InfoPanelEntry} (h : entries.Sublist store.entries) :
    PanelStore.Sound { store with entries := entries } where
  few := h.length_le.trans hs.few
  keyed entry hmem := hs.keyed entry (h.subset hmem)
  distinct := hs.distinct.sublist (h.map _)
  layered a ha b hb := hs.layered a (h.subset ha) b (h.subset hb)
  below entry hmem := hs.below entry (h.subset hmem)

theorem map_edit_ids {edit : InfoPanelEntry → InfoPanelEntry}
    (hedit : ∀ entry, (edit entry).id = entry.id) (entries : List InfoPanelEntry) :
    (entries.map edit).map InfoPanelEntry.id = entries.map InfoPanelEntry.id := by
  rw [List.map_map]
  exact List.map_congr_left fun entry _ => hedit entry

theorem raise_sound {store : PanelStore} (hs : store.Sound) (id : String) :
    (store.raise id).Sound := by
  have hlayer : ∀ entry ∈ store.entries, ∀ raised,
      (if entry.id = id then { entry with zIndex := store.zCursor + 1 } else entry) = raised →
        raised.id = entry.id ∧ raised.kind = entry.kind ∧ raised.refId = entry.refId ∧
          (entry.id = id ∧ raised.zIndex = store.zCursor + 1 ∨
            entry.id ≠ id ∧ raised.zIndex = entry.zIndex ∧ entry.zIndex ≤ store.zCursor) := by
    intro entry hmem raised h
    split at h
    next hid => exact h ▸ ⟨rfl, rfl, rfl, Or.inl ⟨hid, rfl⟩⟩
    next hid => exact h ▸ ⟨rfl, rfl, rfl, Or.inr ⟨hid, rfl, hs.below entry hmem⟩⟩
  refine ⟨?_, ?_, ?_, ?_, ?_⟩
  · simpa [PanelStore.raise] using hs.few
  · intro entry hmem
    obtain ⟨before, hbefore, he⟩ := List.mem_map.mp hmem
    obtain ⟨hid, hkind, href, _⟩ := hlayer before hbefore entry he
    rw [hid, hkind, href]
    exact hs.keyed before hbefore
  · simp only [PanelStore.raise]
    rw [map_edit_ids]
    · exact hs.distinct
    · intro entry
      split
      next => rfl
      next => rfl
  · intro a ha b hb hz
    obtain ⟨a', ha', hea⟩ := List.mem_map.mp ha
    obtain ⟨b', hb', heb⟩ := List.mem_map.mp hb
    obtain ⟨hida, _, _, hza⟩ := hlayer a' ha' a hea
    obtain ⟨hidb, _, _, hzb⟩ := hlayer b' hb' b heb
    rw [hida, hidb]
    rcases hza with ⟨hia, hza⟩ | ⟨hia, hza, hla⟩
    · rcases hzb with ⟨hib, hzb⟩ | ⟨hib, hzb, hlb⟩
      · exact hia.trans hib.symm
      · omega
    · rcases hzb with ⟨hib, hzb⟩ | ⟨hib, hzb, hlb⟩
      · omega
      · exact hs.layered a' ha' b' hb' (by omega)
  · intro entry hmem
    obtain ⟨before, hbefore, he⟩ := List.mem_map.mp hmem
    obtain ⟨_, _, _, hz⟩ := hlayer before hbefore entry he
    simp only [PanelStore.raise]
    omega

theorem find_key_none {entries : List InfoPanelEntry} {key : String}
    (h : entries.find? (fun entry => decide (entry.id = key)) = none) :
    ∀ entry ∈ entries, entry.id ≠ key := fun entry hmem heq =>
  List.find?_eq_none.mp h entry hmem (decide_eq_true heq)

theorem open_sound {store : PanelStore} (hs : store.Sound) (kind : InfoPanelKind) (refId : Int) :
    (store.open kind refId).Sound := by
  unfold PanelStore.open
  simp only
  split
  next => exact raise_sound hs _
  next hnone =>
    have hnew := find_key_none hnone
    have hpruned := hs.sublist (prunePanels_sublist store.entries)
    have hsub := (prunePanels_sublist store.entries).subset
    refine ⟨?_, ?_, ?_, ?_, ?_⟩
    · have := prunePanels_length store.entries
      simp only [List.length_append, List.length_singleton, maxPanels]
      omega
    · intro entry hmem
      rcases List.mem_append.mp hmem with hold | hopened
      · exact hpruned.keyed entry hold
      · obtain rfl := List.mem_singleton.mp hopened
        rfl
    · simp only [List.map_append, List.map_cons, List.map_nil]
      refine List.nodup_append.mpr ⟨hpruned.distinct, List.nodup_singleton _, ?_⟩
      intro a ha b hb
      obtain ⟨entry, hentry, rfl⟩ := List.mem_map.mp ha
      obtain rfl := List.mem_singleton.mp hb
      exact hnew entry (hsub hentry)
    · intro a ha b hb hz
      rcases List.mem_append.mp ha with ha | ha
      · have hla := hpruned.below a ha
        rcases List.mem_append.mp hb with hb | hb
        · exact hpruned.layered a ha b hb hz
        · obtain rfl := List.mem_singleton.mp hb
          simp only at hz hla
          omega
      · obtain rfl := List.mem_singleton.mp ha
        rcases List.mem_append.mp hb with hb | hb
        · have hlb := hpruned.below b hb
          simp only at hz hlb
          omega
        · obtain rfl := List.mem_singleton.mp hb
          rfl
    · intro entry hmem
      rcases List.mem_append.mp hmem with hold | hopened
      · have hle := hpruned.below entry hold
        simp only at hle ⊢
        omega
      · obtain rfl := List.mem_singleton.mp hopened
        exact le_refl _

theorem move_sound {store : PanelStore} (hs : store.Sound) (id : String) (x y : ℚ) :
    (store.move id x y).Sound := by
  have hmoved : ∀ entry moved : InfoPanelEntry,
      (if entry.id = id then { entry with position := (x, y) } else entry) = moved →
        moved.id = entry.id ∧ moved.kind = entry.kind ∧ moved.refId = entry.refId ∧
          moved.zIndex = entry.zIndex := by
    intro entry moved h
    split at h
    next => exact h ▸ ⟨rfl, rfl, rfl, rfl⟩
    next => exact h ▸ ⟨rfl, rfl, rfl, rfl⟩
  refine ⟨?_, ?_, ?_, ?_, ?_⟩
  · simpa [PanelStore.move] using hs.few
  · intro entry hmem
    obtain ⟨before, hbefore, he⟩ := List.mem_map.mp hmem
    obtain ⟨hid, hkind, href, _⟩ := hmoved before entry he
    rw [hid, hkind, href]
    exact hs.keyed before hbefore
  · simp only [PanelStore.move]
    rw [map_edit_ids fun entry => (hmoved entry _ rfl).1]
    exact hs.distinct
  · intro a ha b hb hz
    obtain ⟨a', ha', hea⟩ := List.mem_map.mp ha
    obtain ⟨b', hb', heb⟩ := List.mem_map.mp hb
    obtain ⟨hida, _, _, hza⟩ := hmoved a' a hea
    obtain ⟨hidb, _, _, hzb⟩ := hmoved b' b heb
    rw [hida, hidb]
    exact hs.layered a' ha' b' hb' (by omega)
  · intro entry hmem
    obtain ⟨before, hbefore, he⟩ := List.mem_map.mp hmem
    have hz := (hmoved before entry he).2.2.2
    have hle := hs.below before hbefore
    simp only [PanelStore.move]
    omega

theorem panel_call_sound {store : PanelStore} (hs : store.Sound) (call : PanelCall) :
    (store.call call).Sound := by
  cases call with
  | «open» kind refId => exact open_sound hs kind refId
  | close id => exact hs.sublist List.filter_sublist
  | move id x y => exact move_sound hs id x y
  | bringToFront id => exact raise_sound hs id
  | reset => exact hs.sublist (List.nil_sublist _)

theorem runPanels_sound (history : List PanelCall) : (runPanels history).Sound := by
  induction history using List.reverseRecOn with
  | nil =>
    exact ⟨Nat.zero_le _, fun _ h => absurd h List.not_mem_nil, List.nodup_nil,
      fun _ h => absurd h List.not_mem_nil, fun _ h => absurd h List.not_mem_nil⟩
  | append_singleton history call ih =>
    rw [runPanels, List.foldl_append]
    exact panel_call_sound ih call

theorem stackSlot_place (entry : InfoPanelEntry) {slot : Nat}
    (h : entry.position = slotPlace slot) :
    stackSlot entry = slot := by
  unfold stackSlot
  rw [h]
  simp only [slotPlace, panelHeightGuess, stackGap, add_sub_cancel_left]
  rw [mul_div_assoc, div_self (by norm_num), mul_one, Int.floor_eq_iff]
  refine ⟨?_, ?_⟩
  · push_cast
    linarith
  · push_cast
    linarith

/-- There is a free slot for a panel beside three others. -/
theorem nextStackPosition_free {existing : List InfoPanelEntry} (h : existing.length ≤ 3) :
    ∃ slot < maxPanels, nextStackPosition existing = slotPlace slot ∧
      ∀ entry ∈ existing, stackSlot entry ≠ slot := by
  unfold nextStackPosition
  split
  next slot hfound =>
    have hlt := List.mem_range.mp (List.mem_of_find?_eq_some hfound)
    refine ⟨slot, hlt, rfl, fun entry hentry heq => ?_⟩
    have hfree : (slot : ℤ) ∉ slotsTaken existing := by simpa using List.find?_some hfound
    refine hfree (List.mem_filter.mpr ⟨List.mem_map.mpr ⟨entry, hentry, heq⟩, ?_⟩)
    simpa using hlt
  next hnone =>
    have hsub : (List.range maxPanels).map (Nat.cast : Nat → ℤ) ⊆ slotsTaken existing := by
      intro slot hslot
      obtain ⟨n, hn, rfl⟩ := List.mem_map.mp hslot
      simpa using List.find?_eq_none.mp hnone n hn
    have hnodup : ((List.range maxPanels).map (Nat.cast : Nat → ℤ)).Nodup :=
      List.nodup_range.map Nat.cast_injective
    have hle := (List.subperm_of_subset hnodup hsub).length_le
    have hfew : (slotsTaken existing).length ≤ existing.length :=
      (List.length_filter_le _ _).trans (List.length_map _).le
    rw [List.length_map, List.length_range] at hle
    exact absurd (hle.trans (hfew.trans h)) (by decide)

/-- A raised panel comes to the front. -/
theorem raise_front {store : PanelStore} (hs : store.Sound) {before : InfoPanelEntry}
    (h : before ∈ store.entries) :
    ({ before with zIndex := store.zCursor + 1 } : InfoPanelEntry) ∈
        (store.raise before.id).entries ∧
      ∀ other ∈ (store.raise before.id).entries, other.id ≠ before.id →
        other.zIndex < store.zCursor + 1 := by
  refine ⟨List.mem_map.mpr ⟨before, h, if_pos rfl⟩, fun other hother hne => ?_⟩
  obtain ⟨entry, hentry, rfl⟩ := List.mem_map.mp hother
  split at hne
  next hid => exact absurd hid hne
  next hid =>
    rw [if_neg hid]
    have := hs.below entry hentry
    omega

/-- After any run the panels are sound, and a panel that is opened comes to the front. Where it was
not open it takes a slot that no other panel is on, and at most the oldest one goes for it. -/
theorem panels_run (history : List PanelCall) (kind : InfoPanelKind) (refId : Int) :
    (runPanels history).Sound ∧
      ∃ panel ∈ ((runPanels history).open kind refId).entries, panel.id = panelKey kind refId ∧
        (∀ other ∈ ((runPanels history).open kind refId).entries, other.id ≠ panel.id →
          other.zIndex < panel.zIndex) ∧
        ((∃ before ∈ (runPanels history).entries,
            panel = { before with zIndex := (runPanels history).zCursor + 1 }) ∨
          (∀ other ∈ (runPanels history).entries, other.id ≠ panelKey kind refId) ∧
            ((runPanels history).open kind refId).entries =
              (runPanels history).entries.drop ((runPanels history).entries.length - 3) ++ [panel] ∧
              (∃ slot < maxPanels, panel.position = slotPlace slot) ∧
                ∀ other ∈ ((runPanels history).open kind refId).entries, other.id ≠ panel.id →
                  stackSlot other ≠ stackSlot panel) := by
  have hs := runPanels_sound history
  refine ⟨hs, ?_⟩
  generalize runPanels history = store at hs
  unfold PanelStore.open
  simp only
  split
  next before hfound =>
    have hid : before.id = panelKey kind refId := by simpa using List.find?_some hfound
    have hmem := List.mem_of_find?_eq_some hfound
    obtain ⟨hraised, hfront⟩ := raise_front hs hmem
    rw [← hid]
    exact ⟨_, hraised, rfl, hfront, Or.inl ⟨before, hmem, rfl⟩⟩
  next hnone =>
    have hpruned := hs.sublist (prunePanels_sublist store.entries)
    obtain ⟨slot, hslot, hplace, hfree⟩ := nextStackPosition_free (prunePanels_length store.entries)
    refine ⟨_, List.mem_append_right _ List.mem_cons_self, rfl, ?_, Or.inr
      ⟨find_key_none hnone, by rw [prunePanels_eq], ⟨slot, hslot, hplace⟩, ?_⟩⟩
    · intro other hother hne
      rcases List.mem_append.mp hother with hold | hopened
      · exact Nat.lt_succ_of_le (hpruned.below other hold)
      · exact absurd (List.mem_singleton.mp hopened ▸ rfl) hne
    · intro other hother hne
      rcases List.mem_append.mp hother with hold | hopened
      · exact fun heq => hfree other hold (heq.trans (stackSlot_place _ hplace))
      · exact absurd (List.mem_singleton.mp hopened ▸ rfl) hne

end NovaVe
