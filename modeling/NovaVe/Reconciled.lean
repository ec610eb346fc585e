import NovaVe.BootMap
import NovaVe.Reconcile
import Mathlib.Data.List.Induction

namespace NovaVe

variable {source : NicSource} {nodeId : Int} {r : NodeRuntime}

/-- A link of the lab wires an interface of a node to a network. -/
def Lab.Wired (lab : Lab) (nodeId i k : Int) : Prop :=
  ∃ l ∈ lab.links, l.attachment? = some (nodeId, i, k)

theorem wiredNetwork_wired {links : List Link} {nodeId i k : Int}
    (h : wiredNetwork links nodeId i = some k) : ∃ l ∈ links, l.attachment? = some (nodeId, i, k) := by
  induction links using List.reverseRecOn with
  | nil => cases h
  | append_singleton rest l ih =>
    have hrest : wiredNetwork rest nodeId i = some k →
        ∃ l' ∈ rest ++ [l], l'.attachment? = some (nodeId, i, k) := by
      intro hr
      obtain ⟨l', hm, hl'⟩ := ih hr
      exact ⟨l', List.mem_append_left _ hm, hl'⟩
    unfold wiredNetwork at h
    rw [List.foldl_append, List.foldl_cons, List.foldl_nil] at h
    cases hl : l.attachment? with
    | none => rw [hl] at h; exact hrest h
    | some wired =>
      obtain ⟨n, j, k'⟩ := wired
      rw [hl] at h
      dsimp only at h
      split at h
      next he =>
        cases h
        refine ⟨l, List.mem_append_right _ List.mem_cons_self, ?_⟩
        rw [hl, he.1, he.2]
      next => exact hrest h

theorem wiredNetwork_isSome {links : List Link} {nodeId i k : Int} {l : Link} (hm : l ∈ links)
    (hl : l.attachment? = some (nodeId, i, k)) : (wiredNetwork links nodeId i).isSome := by
  induction links using List.reverseRecOn with
  | nil => cases hm
  | append_singleton rest l' ih =>
    unfold wiredNetwork at ih ⊢
    rw [List.foldl_append, List.foldl_cons, List.foldl_nil]
    rcases List.mem_append.mp hm with hr | hr
    · have hrest := ih hr
      split
      next =>
        split
        next => rfl
        next => exact hrest
      next => exact hrest
    · obtain rfl := List.mem_singleton.mp hr
      rw [hl]
      simp

/-- The reconcile expects nothing beyond the boot interfaces. -/
theorem expectedAttachments_lt {bridgeName : String → Int → String} {lab : Lab}
    {nodeId bootEthernet i : Int}
    (h : ((expectedAttachments bridgeName lab nodeId bootEthernet).get? i).isSome) :
    i < bootEthernet := by
  by_contra hi
  have hnone : (expectedAttachments bridgeName lab nodeId bootEthernet).get? i = none := by
    unfold expectedAttachments
    refine List.foldlRecOn lab.links _ (motive := fun d => Dict.get? d i = none) rfl ?_
    intro d hd l _
    cases hl : l.attachment? with
    | none => exact hd
    | some wired =>
      obtain ⟨n, j, k⟩ := wired
      dsimp only
      split
      next hj => rw [Dict.get?_set_ne _ _ (by omega)]; exact hd
      next => exact hd
  rw [hnone] at h
  cases h

theorem setEntry_indices (attachments : List Attachment) (new : Attachment) :
    (setEntry attachments new).map Attachment.interfaceIndex =
      if new.interfaceIndex ∈ attachments.map Attachment.interfaceIndex then
        attachments.map Attachment.interfaceIndex
      else attachments.map Attachment.interfaceIndex ++ [new.interfaceIndex] := by
  induction attachments with
  | nil => rfl
  | cons entry rest ih =>
    unfold setEntry
    by_cases he : entry.interfaceIndex = new.interfaceIndex
    · simp [he]
    · by_cases hm : new.interfaceIndex ∈ rest.map Attachment.interfaceIndex
      · rw [if_pos hm] at ih
        simp [he, ih, hm]
      · rw [if_neg hm] at ih
        simp [he, Ne.symm he, ih, hm]

theorem setEntry_nodup {attachments : List Attachment} (new : Attachment)
    (h : (attachments.map Attachment.interfaceIndex).Nodup) :
    ((setEntry attachments new).map Attachment.interfaceIndex).Nodup := by
  rw [setEntry_indices]
  split
  next => exact h
  next hm =>
    refine List.nodup_append.mpr ⟨h, List.nodup_singleton _, ?_⟩
    intro x hx y hy he
    obtain rfl := List.mem_singleton.mp hy
    exact hm (he ▸ hx)

theorem mem_setEntry_iff {attachments : List Attachment} {new a : Attachment}
    (h : (attachments.map Attachment.interfaceIndex).Nodup) :
    a ∈ setEntry attachments new ↔
      a = new ∨ (a ∈ attachments ∧ a.interfaceIndex ≠ new.interfaceIndex) := by
  induction attachments with
  | nil => simp [setEntry]
  | cons entry rest ih =>
    obtain ⟨hnot, hrest⟩ := List.nodup_cons.mp h
    unfold setEntry
    by_cases he : entry.interfaceIndex = new.interfaceIndex
    · rw [if_pos he, List.mem_cons, List.mem_cons]
      have hother : a ∈ rest → a.interfaceIndex ≠ new.interfaceIndex := by
        intro ha hn
        exact hnot (he.trans hn.symm ▸ List.mem_map_of_mem ha)
      constructor
      · rintro (rfl | ha)
        · exact Or.inl rfl
        · exact Or.inr ⟨Or.inr ha, hother ha⟩
      · rintro (rfl | ⟨rfl | ha, hn⟩)
        · exact Or.inl rfl
        · exact absurd he hn
        · exact Or.inr ha
    · rw [if_neg he, List.mem_cons, List.mem_cons, ih hrest]
      constructor
      · rintro (rfl | rfl | ⟨ha, hn⟩)
        · exact Or.inr ⟨Or.inl rfl, he⟩
        · exact Or.inl rfl
        · exact Or.inr ⟨Or.inr ha, hn⟩
      · rintro (rfl | ⟨rfl | ha, hn⟩)
        · exact Or.inr (Or.inl rfl)
        · exact Or.inl rfl
        · exact Or.inr (Or.inr ⟨ha, hn⟩)

theorem setEntry_of_mem {attachments : List Attachment} {new : Attachment}
    (h : (attachments.map Attachment.interfaceIndex).Nodup) (hm : new ∈ attachments) :
    setEntry attachments new = attachments := by
  induction attachments with
  | nil => cases hm
  | cons entry rest ih =>
    obtain ⟨hnot, hrest⟩ := List.nodup_cons.mp h
    unfold setEntry
    rcases List.mem_cons.mp hm with rfl | hr
    · rw [if_pos rfl]
    · have he : entry.interfaceIndex ≠ new.interfaceIndex := fun he =>
        hnot (he ▸ List.mem_map_of_mem hr)
      rw [if_neg he, ih hrest hr]

/-- Setting an entry leaves the entries beyond it as they are. -/
theorem setEntry_filter {attachments : List Attachment} {new : Attachment} {boot : Int}
    (hnew : new.interfaceIndex < boot) :
    (setEntry attachments new).filter (fun entry => decide (boot ≤ entry.interfaceIndex)) =
      attachments.filter (fun entry => decide (boot ≤ entry.interfaceIndex)) := by
  have hout : ¬boot ≤ new.interfaceIndex := by omega
  induction attachments with
  | nil => simp [setEntry, hout]
  | cons entry rest ih =>
    unfold setEntry
    by_cases he : entry.interfaceIndex = new.interfaceIndex
    · simp [he, hout]
    · simp [he, List.filter_cons, ih]

theorem applied_nodup (entries : List (Int × Expected))
    (h : (r.attachments.map Attachment.interfaceIndex).Nodup) :
    ((entries.foldl (fun r wanted => r.withExpected source nodeId wanted) r).attachments.map
      Attachment.interfaceIndex).Nodup := by
  induction entries generalizing r with
  | nil => exact h
  | cons wanted rest ih => exact ih (setEntry_nodup _ h)

/-- The entries after phase 1: one for each expected index, and the others as they were. -/
theorem mem_applied_iff {entries : List (Int × Expected)} (hkeys : (entries.map Prod.fst).Nodup)
    {a : Attachment} (h : (r.attachments.map Attachment.interfaceIndex).Nodup) :
    a ∈ (entries.foldl (fun r wanted => r.withExpected source nodeId wanted) r).attachments ↔
      (∃ want, assocGet entries a.interfaceIndex = some want ∧
        a = expectedRecord source nodeId a.interfaceIndex want) ∨
      (a ∈ r.attachments ∧ assocGet entries a.interfaceIndex = none) := by
  induction entries generalizing r with
  | nil => simp [assocGet]
  | cons wanted rest ih =>
    obtain ⟨i, want⟩ := wanted
    obtain ⟨hnot, hrest⟩ := List.nodup_cons.mp hkeys
    rw [List.foldl_cons, ih hrest (setEntry_nodup _ h)]
    have hset : a ∈ (r.withExpected source nodeId (i, want)).attachments ↔
        a = expectedRecord source nodeId i want ∨ (a ∈ r.attachments ∧ a.interfaceIndex ≠ i) :=
      mem_setEntry_iff h
    rw [hset]
    by_cases hi : i = a.interfaceIndex
    · have hnone : assocGet rest a.interfaceIndex = none := by
        rw [← Option.not_isSome_iff_eq_none, assocGet_isSome_iff, ← hi]
        exact hnot
      simp [assocGet, hi, hnone]
    · have hne : a ≠ expectedRecord source nodeId i want := by
        rintro rfl
        exact hi rfl
      simp [assocGet, hi, Ne.symm hi, hne]

/-- Phase 3 changes the entries alone. -/
theorem reconciledRecord_applied {α : Type} (g : NodeRuntime → α) {expected : Dict Int Expected}
    (hdrop : ∀ r' i, g (NodeRuntime.withoutInterface r' i) = g r') :
    g (reconciledRecord source nodeId expected r) = g (r.applied source nodeId expected) :=
  foldl_keeps g (fun r' (entry : Attachment) => hdrop r' entry.interfaceIndex) _ _

theorem applied_bootEthernet (source : NicSource) (nodeId : Int) (expected : Dict Int Expected)
    (r : NodeRuntime) : (r.applied source nodeId expected).bootEthernet = r.bootEthernet := by
  unfold NodeRuntime.applied
  refine foldl_keeps NodeRuntime.bootEthernet (fun r' wanted => ?_) _ _
  rfl

theorem reconciledRecord_bootEthernet (source : NicSource) (nodeId : Int)
    (expected : Dict Int Expected) (r : NodeRuntime) :
    (reconciledRecord source nodeId expected r).bootEthernet = r.bootEthernet := by
  rw [reconciledRecord_applied NodeRuntime.bootEthernet (fun _ _ => rfl), applied_bootEthernet]

theorem withoutInterfaces_attachments (indices : List Int) (r : NodeRuntime) :
    (indices.foldl NodeRuntime.withoutInterface r).attachments =
      r.attachments.filter (fun entry => decide (entry.interfaceIndex ∉ indices)) := by
  induction indices generalizing r with
  | nil => simp
  | cons i rest ih =>
    rw [List.foldl_cons, ih]
    simp [NodeRuntime.withoutInterface, List.filter_filter, onInterface, Bool.and_comm]

/-- The indices that phase 3 tears down. -/
def removedIndices (expected : Dict Int Expected) (runtime : NodeRuntime) : List Int :=
  (toRemove expected runtime).map Attachment.interfaceIndex

theorem mem_removedIndices {expected : Dict Int Expected} {runtime : NodeRuntime} {i : Int} :
    i ∈ removedIndices expected runtime ↔
      expected.get? i = none ∧ i < runtime.bootEthernet ∧
        ∃ entry ∈ runtime.attachments, entry.interfaceIndex = i ∧ entry.bootNic = true := by
  unfold removedIndices toRemove
  rw [List.mem_map]
  constructor
  · rintro ⟨entry, hm, rfl⟩
    obtain ⟨hm, hp⟩ := List.mem_filter.mp hm
    simp only [Bool.and_eq_true, Option.isNone_iff_eq_none, decide_eq_true_eq] at hp
    exact ⟨hp.1.1, hp.2, entry, hm, rfl, hp.1.2⟩
  · rintro ⟨hnone, hlt, entry, hm, rfl, hflag⟩
    exact ⟨entry, List.mem_filter.mpr ⟨hm, by simp [hnone, hlt, hflag]⟩, rfl⟩

theorem reconciledRecord_attachments (source : NicSource) (nodeId : Int)
    (expected : Dict Int Expected) (r : NodeRuntime) :
    (reconciledRecord source nodeId expected r).attachments =
      (r.applied source nodeId expected).attachments.filter
        (fun entry => decide (entry.interfaceIndex ∉ removedIndices expected r)) := by
  rw [← withoutInterfaces_attachments]
  unfold reconciledRecord removedIndices
  rw [List.foldl_map]

/-- The entries after a reconcile: one for each expected index; of the others, those beyond the
boot interfaces and those without the flag. -/
theorem mem_reconciled_iff {expected : Dict Int Expected} {a : Attachment}
    (h : (r.attachments.map Attachment.interfaceIndex).Nodup) :
    a ∈ (reconciledRecord source nodeId expected r).attachments ↔
      (∃ want, expected.get? a.interfaceIndex = some want ∧
        a = expectedRecord source nodeId a.interfaceIndex want) ∨
      (a ∈ r.attachments ∧ expected.get? a.interfaceIndex = none ∧
        (a.bootNic = true → r.bootEthernet ≤ a.interfaceIndex)) := by
  rw [reconciledRecord_attachments, List.mem_filter, decide_eq_true_eq, mem_removedIndices]
  unfold NodeRuntime.applied
  rw [mem_applied_iff expected.keysNodup h]
  unfold Dict.get?
  constructor
  · rintro ⟨⟨want, hwant, ha⟩ | ⟨hm, hnone⟩, hkept⟩
    · exact Or.inl ⟨want, hwant, ha⟩
    · refine Or.inr ⟨hm, hnone, fun hflag => ?_⟩
      by_contra hlt
      exact hkept ⟨hnone, by omega, a, hm, rfl, hflag⟩
  · rintro (⟨want, hwant, ha⟩ | ⟨hm, hnone, hflag⟩)
    · refine ⟨Or.inl ⟨want, hwant, ha⟩, ?_⟩
      rintro ⟨hnone, _⟩
      rw [hnone] at hwant
      cases hwant
    · refine ⟨Or.inr ⟨hm, hnone⟩, ?_⟩
      rintro ⟨_, hlt, entry, hm', hidx, hflag'⟩
      obtain rfl := List.inj_on_of_nodup_map h hm' hm hidx
      have := hflag hflag'
      omega

theorem reconciled_nodup {expected : Dict Int Expected}
    (h : (r.attachments.map Attachment.interfaceIndex).Nodup) :
    ((reconciledRecord source nodeId expected r).attachments.map
      Attachment.interfaceIndex).Nodup := by
  rw [reconciledRecord_attachments]
  exact (applied_nodup expected.entries h).sublist (List.filter_sublist.map _)

/-- The entries beyond the boot interfaces are left as they are. -/
theorem reconciled_hotplug {expected : Dict Int Expected}
    (hlt : ∀ i, (expected.get? i).isSome → i < r.bootEthernet) :
    (reconciledRecord source nodeId expected r).attachments.filter
        (fun entry => decide (r.bootEthernet ≤ entry.interfaceIndex)) =
      r.attachments.filter (fun entry => decide (r.bootEthernet ≤ entry.interfaceIndex)) := by
  have happlied : ∀ entries : List (Int × Expected), (∀ e ∈ entries, e.1 < r.bootEthernet) →
      ∀ r', ((entries.foldl (fun r wanted => NodeRuntime.withExpected r source nodeId wanted)
          r').attachments.filter (fun entry => decide (r.bootEthernet ≤ entry.interfaceIndex))) =
        r'.attachments.filter (fun entry => decide (r.bootEthernet ≤ entry.interfaceIndex)) := by
    intro entries
    induction entries with
    | nil => exact fun _ _ => rfl
    | cons wanted rest ih =>
      intro he r'
      rw [List.foldl_cons, ih (fun e hm => he e (List.mem_cons_of_mem _ hm))]
      exact setEntry_filter (he wanted List.mem_cons_self)
  have hentries : ∀ e ∈ expected.entries, e.1 < r.bootEthernet := by
    intro e he
    exact hlt e.1 (Dict.mem_keys_iff.mp (List.mem_map_of_mem he))
  rw [reconciledRecord_attachments, List.filter_filter]
  unfold NodeRuntime.applied
  rw [← happlied expected.entries hentries r]
  refine List.filter_congr (fun entry _ => ?_)
  by_cases hb : r.bootEthernet ≤ entry.interfaceIndex
  · have hout : entry.interfaceIndex ∉ removedIndices expected r := by
      rw [mem_removedIndices]
      rintro ⟨_, hi, _⟩
      omega
    simp [hb, hout]
  · simp [hb]

theorem applied_generation (source : NicSource) (nodeId : Int) (expected : Dict Int Expected)
    (r : NodeRuntime) (i : Int) :
    (r.applied source nodeId expected).generations.get? i =
      ((expected.get? i).map Expected.attachGeneration).or (r.generations.get? i) := by
  refine foldl_keyed (fun (r : NodeRuntime) i => r.generations.get? i)
    (fun _ want => want.attachGeneration) (fun r' wanted j => ?_) expected.keysNodup r i
  simp only [NodeRuntime.withExpected, Dict.get?_set, eq_comm]

theorem applied_tapNames {entries : List (Int × Expected)} {p : Port}
    (h : p ∈ r.tapNames ∨ ∃ i ∈ entries.map Prod.fst, p = .tap nodeId i) :
    p ∈ (entries.foldl (fun r wanted => r.withExpected source nodeId wanted) r).tapNames := by
  have hadd : ∀ (ports : List Port) (q : Port), p ∈ addPort ports q ↔ p ∈ ports ∨ p = q := by
    intro ports q
    unfold addPort
    split
    next hq =>
      constructor
      · exact Or.inl
      · rintro (hp | rfl)
        · exact hp
        · exact hq
    next => simp
  induction entries generalizing r with
  | nil =>
    rcases h with h | ⟨i, hi, _⟩
    · exact h
    · cases hi
  | cons wanted rest ih =>
    apply ih
    have hstep := hadd r.tapNames (.tap nodeId wanted.1)
    rcases h with h | ⟨i, hi, rfl⟩
    · exact Or.inl (hstep.mpr (Or.inl h))
    · rcases List.mem_cons.mp hi with rfl | hi
      · exact Or.inl (hstep.mpr (Or.inr rfl))
      · exact Or.inr ⟨i, hi, rfl⟩

/-- Nothing is left for a second reconcile to tear down. -/
theorem toRemove_reconciled (source : NicSource) (nodeId : Int) (expected : Dict Int Expected)
    (h : (r.attachments.map Attachment.interfaceIndex).Nodup) :
    toRemove expected (reconciledRecord source nodeId expected r) = [] := by
  have hboot := reconciledRecord_bootEthernet source nodeId expected r
  unfold toRemove
  rw [List.filter_eq_nil_iff]
  intro a ha hp
  simp only [Bool.and_eq_true, Option.isNone_iff_eq_none, decide_eq_true_eq] at hp
  obtain ⟨⟨hnone, hflag⟩, hlt⟩ := hp
  rcases (mem_reconciled_iff h).mp ha with ⟨want, hwant, _⟩ | ⟨_, _, hkept⟩
  · rw [hnone] at hwant
    cases hwant
  · have := hkept hflag
    omega

/-- A second reconcile leaves the record as it is. -/
theorem reconciledRecord_idem {expected : Dict Int Expected}
    (h : (r.attachments.map Attachment.interfaceIndex).Nodup) :
    reconciledRecord source nodeId expected (reconciledRecord source nodeId expected r) =
      reconciledRecord source nodeId expected r := by
  generalize hr' : reconciledRecord source nodeId expected r = r'
  have hremove : toRemove expected r' = [] := by
    rw [← hr']
    exact toRemove_reconciled source nodeId expected h
  have hstep : ∀ wanted ∈ expected.entries, r'.withExpected source nodeId wanted = r' := by
    rintro ⟨i, want⟩ hm
    have hget : expected.get? i = some want := assocGet_of_mem expected.keysNodup hm
    have hentry : expectedRecord source nodeId i want ∈ r'.attachments := by
      rw [← hr', mem_reconciled_iff h]
      exact Or.inl ⟨want, hget, rfl⟩
    have hnodup : (r'.attachments.map Attachment.interfaceIndex).Nodup := by
      rw [← hr']
      exact reconciled_nodup h
    have hgeneration : r'.generations.get? i = some want.attachGeneration := by
      rw [← hr', reconciledRecord_applied NodeRuntime.generations (fun _ _ => rfl),
        applied_generation, hget]
      rfl
    have htap : Port.tap nodeId i ∈ r'.tapNames := by
      rw [← hr', reconciledRecord_applied NodeRuntime.tapNames (fun _ _ => rfl)]
      exact applied_tapNames (Or.inr ⟨i, List.mem_map_of_mem hm, rfl⟩)
    unfold NodeRuntime.withExpected addPort
    rw [setEntry_of_mem hnodup hentry, Dict.set_get hgeneration, if_pos htap]
  unfold reconciledRecord NodeRuntime.applied
  rw [hremove, List.foldl_nil]
  exact foldl_fixed hstep

end NovaVe
