import NovaVe.JsonValues
import NovaVe.Lab
import NovaVe.LabJsonIdentity

namespace NovaVe

/-- What the key of a pair can raise: the errors `_dedup_links` catches, and an `OverflowError`. -/
inductive KeyFault
  | unparseable
  | overflow
deriving DecidableEq, Repr

/-- What ends `_dedup_links`. -/
inductive DedupFault
  | attributeError
  | overflowError
deriving DecidableEq, Repr

def castKey (py : PyValues) (value : JsonValue) : Except KeyFault Int :=
  match value.cast py with
  | .value n => .ok n
  | .refused => .error .unparseable
  | .overflow => .error .overflow

/-- `_endpoint_key`; a missing `node_id` is a `KeyError`. -/
def endpointKey (py : PyValues) (ep : Fields) : Except KeyFault Endpoint :=
  match assocGet ep "network_id" with
  | some networkId => (castKey py networkId).map Endpoint.network
  | none =>
    match assocGet ep "node_id" with
    | none => .error .unparseable
    | some nodeId => do
      let node ← castKey py nodeId
      let index ← castKey py (fieldOr ep "interface_index" (.int 0))
      return .node node index

/-- The order of the tuples: `"network" < "node"`, then the numbers. -/
def Endpoint.before : Endpoint → Endpoint → Bool
  | .network a, .network b => decide (a < b)
  | .network _, .node _ _ => true
  | .node _ _, .network _ => false
  | .node a i, .node b j => decide (a < b ∨ (a = b ∧ i < j))

/-- `(min(ka, kb), max(ka, kb))`. -/
def orderedPair (ka kb : Endpoint) : Endpoint × Endpoint :=
  (if kb.before ka then kb else ka, if ka.before kb then kb else ka)

/-- `_link_pair_key`. -/
def linkPairKeyOf (py : PyValues) (epA epB : Fields) : Except KeyFault (Endpoint × Endpoint) := do
  let ka ← endpointKey py epA
  let kb ← endpointKey py epB
  return orderedPair ka kb

/-- The key `_dedup_links` compares a record by; what is no link has none. -/
def recordKey (py : PyValues) (link : Fields) : Except KeyFault (Endpoint × Endpoint) :=
  match (fieldOr link "from" .null).fields?, (fieldOr link "to" .null).fields? with
  | some epFrom, some epTo => linkPairKeyOf py epFrom epTo
  | _, _ => .error .unparseable

structure DedupState where
  seen : List (Endpoint × Endpoint) := []
  kept : List JsonValue := []
  removed : Nat := 0

def dedupStep (py : PyValues) (s : DedupState) (link : JsonValue) : Except DedupFault DedupState :=
  match link.fields? with
  | none => .error .attributeError
  | some fields =>
    match recordKey py fields with
    | .error .unparseable => .ok { s with kept := s.kept ++ [link] }
    | .error .overflow => .error .overflowError
    | .ok pairKey =>
      if s.seen.contains pairKey then .ok { s with removed := s.removed + 1 }
      else .ok { s with seen := pairKey :: s.seen, kept := s.kept ++ [link] }

/-- `_dedup_links`. -/
def dedupLinks (py : PyValues) (links : List JsonValue) :
    Except DedupFault (List JsonValue × Nat) :=
  (links.foldlM (dedupStep py) {}).map (fun s => (s.kept, s.removed))

/-- The endpoints of a record, as far as they can be read. -/
def linkEnds (py : PyValues) (link : JsonValue) : Option (Endpoint × Endpoint) := do
  let fields ← link.fields?
  let epFrom ← (fieldOr fields "from" .null).fields?
  let epTo ← (fieldOr fields "to" .null).fields?
  let a ← (endpointKey py epFrom).toOption
  let b ← (endpointKey py epTo).toOption
  return (a, b)

/-- Two records with readable endpoints that connect the same two. -/
def SamePair (py : PyValues) (link other : JsonValue) : Prop :=
  ∃ a b, linkEnds py link = some (a, b) ∧
    (linkEnds py other = some (a, b) ∨ linkEnds py other = some (b, a))

/-- `link["id"]` where it is a text. -/
def linkId? (link : JsonValue) : Option String :=
  (link.fields?.bind (assocGet · "id")).bind fun
    | .str text => some text
    | _ => none

/-- No id of the other record is below that of the first. -/
def IdAtMost (link other : JsonValue) : Prop :=
  ∀ id', linkId? other = some id' → ∃ id, linkId? link = some id ∧ id ≤ id'

/-- What the script promises of its output. -/
structure DedupLaw (py : PyValues) (links kept : List JsonValue) (removed : Nat) : Prop where
  distinct : kept.Pairwise (fun a b => ¬ SamePair py a b)
  order : kept.Sublist links
  unreadable : kept.filter (fun l => (linkEnds py l).isNone) =
    links.filter (fun l => (linkEnds py l).isNone)
  removed : removed = links.length - kept.length
  covered : ∀ link ∈ links, (linkEnds py link).isSome → ∃ l ∈ kept, SamePair py l link
  lowest : ∀ l ∈ kept, ∀ other ∈ links, SamePair py l other → IdAtMost l other
  again : dedupLinks py kept = .ok (kept, 0)

/-- The record is a mapping and no number of it that is read is an infinity. -/
def Readable (py : PyValues) (link : JsonValue) : Prop :=
  ∃ fields, link.fields? = some fields ∧ recordKey py fields ≠ .error .overflow

/-- Of the records of one pair, the first has the lowest id. -/
def LowestFirst (py : PyValues) (links : List JsonValue) : Prop :=
  ∀ before link after, links = before ++ link :: after →
    (∀ earlier ∈ before, ¬ SamePair py link earlier) →
      ∀ other ∈ links, SamePair py link other → IdAtMost link other

theorem Endpoint.before_asymm {a b : Endpoint} (h : a.before b = true) : b.before a = false := by
  cases a with
  | network n =>
    cases b with
    | network m =>
      simp only [Endpoint.before, decide_eq_true_eq, decide_eq_false_iff_not] at h ⊢
      omega
    | node m j => rfl
  | node n i =>
    cases b with
    | network m => cases h
    | node m j =>
      simp only [Endpoint.before, decide_eq_true_eq, decide_eq_false_iff_not] at h ⊢
      omega

theorem Endpoint.before_total {a b : Endpoint} (hab : a.before b = false) (hba : b.before a = false) :
    a = b := by
  cases a with
  | network n =>
    cases b with
    | network m =>
      simp only [Endpoint.before, decide_eq_false_iff_not] at hab hba
      have heq : n = m := by omega
      rw [heq]
    | node m j => cases hab
  | node n i =>
    cases b with
    | network m => cases hba
    | node m j =>
      simp only [Endpoint.before, decide_eq_false_iff_not] at hab hba
      have heq : n = m := by omega
      have hidx : i = j := by omega
      rw [heq, hidx]

theorem orderedPair_cases (a b : Endpoint) :
    orderedPair a b = (a, b) ∨ orderedPair a b = (b, a) := by
  unfold orderedPair
  by_cases hba : b.before a = true
  · rw [if_pos hba, Endpoint.before_asymm hba]
    exact Or.inr rfl
  · rw [if_neg hba]
    by_cases hab : a.before b = true
    · rw [if_pos hab]
      exact Or.inl rfl
    · have heq := Endpoint.before_total (by simpa using hab) (by simpa using hba)
      subst heq
      rw [if_neg hab]
      exact Or.inl rfl

theorem orderedPair_comm (a b : Endpoint) : orderedPair a b = orderedPair b a := by
  unfold orderedPair
  by_cases hba : b.before a = true
  · have hab := Endpoint.before_asymm hba
    simp [hba, hab]
  · by_cases hab : a.before b = true
    · simp [hba, hab]
    · have heq := Endpoint.before_total (by simpa using hab) (by simpa using hba)
      rw [heq]

/-- The key does not tell the two directions of a link apart, and nothing else. -/
theorem orderedPair_eq_iff {a b c d : Endpoint} :
    orderedPair a b = orderedPair c d ↔ (c, d) = (a, b) ∨ (c, d) = (b, a) := by
  constructor
  · intro h
    rcases orderedPair_cases a b with hab | hab <;> rcases orderedPair_cases c d with hcd | hcd
    · exact Or.inl (by rw [← hcd, ← h, hab])
    · rw [hab, hcd] at h
      obtain ⟨rfl, rfl⟩ := Prod.mk.inj h
      exact Or.inr rfl
    · rw [hab, hcd] at h
      obtain ⟨rfl, rfl⟩ := Prod.mk.inj h
      exact Or.inr rfl
    · rw [hab, hcd] at h
      obtain ⟨rfl, rfl⟩ := Prod.mk.inj h
      exact Or.inl rfl
  · intro h
    rcases h with h | h
    · obtain ⟨rfl, rfl⟩ := Prod.mk.inj h
      rfl
    · obtain ⟨rfl, rfl⟩ := Prod.mk.inj h
      exact orderedPair_comm _ _

/-- The key of a record with readable endpoints. -/
def pairOf (py : PyValues) (link : JsonValue) : Option (Endpoint × Endpoint) :=
  (linkEnds py link).map (fun ends => orderedPair ends.1 ends.2)

theorem samePair_iff {py : PyValues} {link other : JsonValue} :
    SamePair py link other ↔ ∃ k, pairOf py link = some k ∧ pairOf py other = some k := by
  unfold SamePair pairOf
  constructor
  · intro h
    obtain ⟨a, b, hlink, hother⟩ := h
    refine ⟨orderedPair a b, by rw [hlink]; rfl, ?_⟩
    rcases hother with hother | hother
    · rw [hother]
      rfl
    · rw [hother]
      exact congrArg some (orderedPair_comm b a)
  · intro h
    obtain ⟨k, hlink, hother⟩ := h
    obtain ⟨⟨a, b⟩, hends, rfl⟩ := Option.map_eq_some_iff.mp hlink
    obtain ⟨⟨c, d⟩, hends', hkey⟩ := Option.map_eq_some_iff.mp hother
    refine ⟨a, b, hends, ?_⟩
    rcases orderedPair_eq_iff.mp hkey.symm with hsame | hsame
    · exact Or.inl (hends'.trans (congrArg some hsame))
    · exact Or.inr (hends'.trans (congrArg some hsame))

theorem isNone_pairOf (py : PyValues) (link : JsonValue) :
    (pairOf py link).isNone = (linkEnds py link).isNone := by
  unfold pairOf
  cases linkEnds py link with
  | none => rfl
  | some ends => rfl

/-- Where the key of a mapping raises nothing that is not caught, it is the pair of the endpoints. -/
theorem recordKey_cases {py : PyValues} {link : JsonValue} {fields : Fields}
    (hfields : link.fields? = some fields) (h : recordKey py fields ≠ .error .overflow) :
    (∃ k, pairOf py link = some k ∧ recordKey py fields = .ok k) ∨
      (pairOf py link = none ∧ recordKey py fields = .error .unparseable) := by
  unfold pairOf linkEnds
  unfold recordKey at h ⊢
  rw [hfields]
  cases hfrom : (fieldOr fields "from" .null).fields? with
  | none => exact Or.inr ⟨by simp [hfrom], by simp⟩
  | some epFrom =>
    cases hto : (fieldOr fields "to" .null).fields? with
    | none => exact Or.inr ⟨by simp [hfrom, hto], by simp⟩
    | some epTo =>
      rw [hfrom, hto] at h
      dsimp only at h ⊢
      unfold linkPairKeyOf at h ⊢
      cases ha : endpointKey py epFrom with
      | error fault =>
        rw [ha] at h
        cases fault with
        | unparseable => exact Or.inr ⟨by simp [hfrom, hto, ha, Except.toOption], rfl⟩
        | overflow => exact absurd rfl h
      | ok a =>
        rw [ha] at h
        cases hb : endpointKey py epTo with
        | error fault =>
          rw [hb] at h
          cases fault with
          | unparseable => exact Or.inr ⟨by simp [hfrom, hto, hb, Except.toOption], rfl⟩
          | overflow => exact absurd rfl h
        | ok b => exact Or.inl ⟨orderedPair a b, by simp [hfrom, hto, ha, hb, Except.toOption], rfl⟩

/-- A step of the loop that raises nothing. -/
def keepStep (py : PyValues) (s : DedupState) (link : JsonValue) : DedupState :=
  match pairOf py link with
  | none => { s with kept := s.kept ++ [link] }
  | some k =>
    if s.seen.contains k then { s with removed := s.removed + 1 }
    else { s with seen := k :: s.seen, kept := s.kept ++ [link] }

theorem dedupStep_readable {py : PyValues} {link : JsonValue} (h : Readable py link)
    (s : DedupState) : dedupStep py s link = .ok (keepStep py s link) := by
  obtain ⟨fields, hfields, hkey⟩ := h
  unfold dedupStep keepStep
  rw [hfields]
  dsimp only
  rcases recordKey_cases hfields hkey with ⟨k, hpair, hrecord⟩ | ⟨hpair, hrecord⟩
  · rw [hpair, hrecord]
    dsimp only
    split
    · rfl
    · rfl
  · rw [hpair, hrecord]

theorem dedupStep_unreadable {py : PyValues} {link : JsonValue} (h : ¬ Readable py link)
    (s : DedupState) : ∃ fault, dedupStep py s link = .error fault := by
  unfold dedupStep
  cases hfields : link.fields? with
  | none => exact ⟨_, rfl⟩
  | some fields =>
    have hkey : recordKey py fields = .error .overflow := by
      by_contra hne
      exact h ⟨fields, hfields, hne⟩
    dsimp only
    rw [hkey]
    exact ⟨_, rfl⟩

theorem foldlM_dedupStep {py : PyValues} {links : List JsonValue} {s t : DedupState} :
    links.foldlM (dedupStep py) s = .ok t ↔
      (∀ link ∈ links, Readable py link) ∧ t = links.foldl (keepStep py) s := by
  induction links generalizing s with
  | nil =>
    simp only [List.foldlM_nil, List.foldl_nil, List.not_mem_nil, false_implies, implies_true,
      true_and]
    constructor
    · intro h
      exact (Except.ok.inj h).symm
    · intro h
      rw [h]
      rfl
  | cons link rest ih =>
    rw [List.foldlM_cons, List.foldl_cons, List.forall_mem_cons]
    by_cases hread : Readable py link
    · rw [dedupStep_readable hread]
      exact ih.trans ⟨fun h => ⟨⟨hread, h.1⟩, h.2⟩, fun h => ⟨h.1.2, h.2⟩⟩
    · obtain ⟨fault, hfault⟩ := dedupStep_unreadable hread s
      rw [hfault]
      constructor
      · intro h
        cases h
      · intro h
        exact absurd h.1.1 hread

theorem dedupLinks_ok {py : PyValues} {links kept : List JsonValue} {removed : Nat} :
    dedupLinks py links = .ok (kept, removed) ↔
      (∀ link ∈ links, Readable py link) ∧
        (links.foldl (keepStep py) {}).kept = kept ∧
          (links.foldl (keepStep py) {}).removed = removed := by
  unfold dedupLinks
  constructor
  · intro h
    cases hfold : links.foldlM (dedupStep py) {} with
    | error fault =>
      rw [hfold] at h
      cases h
    | ok t =>
      rw [hfold] at h
      obtain ⟨hread, rfl⟩ := foldlM_dedupStep.mp hfold
      obtain ⟨hkept, hremoved⟩ := Prod.mk.inj (Except.ok.inj h)
      exact ⟨hread, hkept, hremoved⟩
  · intro h
    obtain ⟨hread, rfl, rfl⟩ := h
    rw [foldlM_dedupStep.mpr ⟨hread, rfl⟩]
    rfl

/-- What holds after the loop has gone through the first records. -/
structure Deduped (py : PyValues) (done : List JsonValue) (s : DedupState) : Prop where
  seen : ∀ k, k ∈ s.seen ↔ ∃ l ∈ done, pairOf py l = some k
  covered : ∀ k ∈ s.seen, ∃ l ∈ s.kept, pairOf py l = some k
  first : ∀ l ∈ s.kept, ∀ k, pairOf py l = some k →
    done.find? (fun m => decide (pairOf py m = some k)) = some l
  distinct : s.kept.Pairwise (fun a b => ¬ SamePair py a b)
  order : s.kept.Sublist done
  unreadable : s.kept.filter (fun l => (linkEnds py l).isNone) =
    done.filter (fun l => (linkEnds py l).isNone)
  count : s.kept.length + s.removed = done.length

theorem deduped_start (py : PyValues) : Deduped py [] {} :=
  ⟨by simp, by simp, by simp, List.Pairwise.nil, List.Sublist.refl _, rfl, rfl⟩

/-- A record is kept that has no pair, or a new one. -/
theorem Deduped.keep {py : PyValues} {done : List JsonValue} {s t : DedupState} (h : Deduped py done s)
    {link : JsonValue} (hnew : ∀ k, pairOf py link = some k → k ∉ s.seen)
    (hseen : ∀ k, k ∈ t.seen ↔ k ∈ s.seen ∨ pairOf py link = some k)
    (hkept : t.kept = s.kept ++ [link]) (hremoved : t.removed = s.removed) :
    Deduped py (done ++ [link]) t where
  seen k := by
    rw [hseen, h.seen]
    simp
  covered k hk := by
    rw [hkept]
    rcases (hseen k).mp hk with hold | hpair
    · obtain ⟨l, hl, hkey⟩ := h.covered k hold
      exact ⟨l, List.mem_append_left _ hl, hkey⟩
    · exact ⟨link, List.mem_append_right _ List.mem_cons_self, hpair⟩
  first l hl k hk := by
    rw [hkept] at hl
    rw [List.find?_append]
    rcases List.mem_append.mp hl with hold | hlast
    · rw [h.first l hold k hk]
      rfl
    · obtain rfl := List.mem_singleton.mp hlast
      have hnone : done.find? (fun m => decide (pairOf py m = some k)) = none := by
        rw [List.find?_eq_none]
        intro m hm hpair
        exact hnew k hk ((h.seen k).mpr ⟨m, hm, of_decide_eq_true hpair⟩)
      rw [hnone]
      simp [hk]
  distinct := by
    rw [hkept, List.pairwise_append]
    refine ⟨h.distinct, List.pairwise_singleton _ _, ?_⟩
    intro a ha b hb hsame
    obtain rfl := List.mem_singleton.mp hb
    obtain ⟨k, hka, hkb⟩ := samePair_iff.mp hsame
    exact hnew k hkb ((h.seen k).mpr ⟨a, h.order.subset ha, hka⟩)
  order := by
    rw [hkept]
    exact h.order.append (List.Sublist.refl _)
  unreadable := by
    rw [hkept, List.filter_append, List.filter_append, h.unreadable]
  count := by
    have hcount := h.count
    rw [hkept, hremoved, List.length_append, List.length_append, List.length_singleton]
    omega

/-- A record is dropped whose pair was seen. -/
theorem Deduped.drop {py : PyValues} {done : List JsonValue} {s : DedupState} (h : Deduped py done s)
    {link : JsonValue} {k : Endpoint × Endpoint} (hk : pairOf py link = some k) (hold : k ∈ s.seen) :
    Deduped py (done ++ [link]) { s with removed := s.removed + 1 } where
  seen j := by
    rw [h.seen]
    constructor
    · intro hj
      obtain ⟨l, hl, hkey⟩ := hj
      exact ⟨l, List.mem_append_left _ hl, hkey⟩
    · intro hj
      obtain ⟨l, hl, hkey⟩ := hj
      rcases List.mem_append.mp hl with hl | hlast
      · exact ⟨l, hl, hkey⟩
      · obtain rfl := List.mem_singleton.mp hlast
        obtain rfl : k = j := Option.some.inj (hk.symm.trans hkey)
        exact (h.seen k).mp hold
  covered := h.covered
  first l hl j hj := by
    rw [List.find?_append, h.first l hl j hj]
    rfl
  distinct := h.distinct
  order := h.order.trans (List.sublist_append_left _ _)
  unreadable := by
    have hsome : (linkEnds py link).isNone = false := by
      rw [← isNone_pairOf, hk]
      rfl
    rw [List.filter_append, h.unreadable]
    simp [hsome]
  count := by
    have hcount := h.count
    rw [List.length_append, List.length_singleton]
    show s.kept.length + (s.removed + 1) = _
    omega

theorem deduped_step {py : PyValues} {done : List JsonValue} {s : DedupState} (h : Deduped py done s)
    (link : JsonValue) : Deduped py (done ++ [link]) (keepStep py s link) := by
  unfold keepStep
  cases hpair : pairOf py link with
  | none => exact h.keep (by simp [hpair]) (by simp [hpair]) rfl rfl
  | some k =>
    dsimp only
    by_cases hold : k ∈ s.seen
    · rw [if_pos (by simpa using hold)]
      exact h.drop hpair hold
    · rw [if_neg (by simpa using hold)]
      refine h.keep ?_ ?_ rfl rfl
      · intro j hj
        obtain rfl : k = j := Option.some.inj (hpair.symm.trans hj)
        exact hold
      · intro j
        rw [hpair]
        constructor
        · intro hj
          rcases List.mem_cons.mp hj with rfl | hj
          · exact Or.inr rfl
          · exact Or.inl hj
        · intro hj
          rcases hj with hj | hj
          · exact List.mem_cons_of_mem _ hj
          · obtain rfl := Option.some.inj hj
            exact List.mem_cons_self

theorem deduped_run (py : PyValues) (links : List JsonValue) :
    Deduped py links (links.foldl (keepStep py) {}) := by
  induction links using List.reverseRecOn with
  | nil => exact deduped_start py
  | append_singleton rest link ih =>
    rw [List.foldl_append]
    exact deduped_step ih link

/-- Nothing is removed from records that differ in their pairs. -/
theorem keepStep_distinct {py : PyValues} {links : List JsonValue} {s : DedupState}
    (hnew : ∀ l ∈ links, ∀ k, pairOf py l = some k → k ∉ s.seen)
    (hdistinct : links.Pairwise (fun a b => ¬ SamePair py a b)) :
    (links.foldl (keepStep py) s).kept = s.kept ++ links ∧
      (links.foldl (keepStep py) s).removed = s.removed := by
  induction links generalizing s with
  | nil => exact ⟨(List.append_nil _).symm, rfl⟩
  | cons link rest ih =>
    obtain ⟨hhead, htail⟩ := List.pairwise_cons.mp hdistinct
    have hstep : (keepStep py s link).kept = s.kept ++ [link] ∧
        (keepStep py s link).removed = s.removed ∧
          ∀ k ∈ (keepStep py s link).seen, k ∈ s.seen ∨ pairOf py link = some k := by
      unfold keepStep
      cases hpair : pairOf py link with
      | none => exact ⟨rfl, rfl, fun k hk => Or.inl hk⟩
      | some k =>
        have hfresh := hnew link List.mem_cons_self k hpair
        dsimp only
        rw [if_neg (by simpa using hfresh)]
        refine ⟨rfl, rfl, ?_⟩
        intro j hj
        rcases List.mem_cons.mp hj with rfl | hj
        · exact Or.inr rfl
        · exact Or.inl hj
    obtain ⟨hkept, hremoved, hseen⟩ := hstep
    have hrest : ∀ l ∈ rest, ∀ k, pairOf py l = some k → k ∉ (keepStep py s link).seen := by
      intro l hl k hk hmem
      rcases hseen k hmem with hold | hlink
      · exact hnew l (List.mem_cons_of_mem _ hl) k hk hold
      · exact hhead l hl (samePair_iff.mpr ⟨k, hlink, hk⟩)
    obtain ⟨hall, hcount⟩ := ih hrest htail
    rw [List.foldl_cons]
    refine ⟨?_, hcount.trans hremoved⟩
    rw [hall, hkept, List.append_assoc]
    rfl

/-- The script keeps its promises just when every record can be read and the first record of each
pair has the lowest id. -/
theorem dedup_links_law_iff (py : PyValues) (links : List JsonValue) :
    (∃ kept removed, dedupLinks py links = .ok (kept, removed) ∧
        DedupLaw py links kept removed) ↔
      (∀ link ∈ links, Readable py link) ∧ LowestFirst py links := by
  have hrun := deduped_run py links
  constructor
  · intro h
    obtain ⟨kept, removed, hok, hlaw⟩ := h
    obtain ⟨hread, hkept, _⟩ := dedupLinks_ok.mp hok
    refine ⟨hread, ?_⟩
    intro before link after hsplit hfirst other hother hsame
    obtain ⟨k, hk, hk'⟩ := samePair_iff.mp hsame
    have hlink : link ∈ links := by
      rw [hsplit]
      exact List.mem_append_right _ List.mem_cons_self
    obtain ⟨l, hl, hkey⟩ := hrun.covered k ((hrun.seen k).mpr ⟨link, hlink, hk⟩)
    have hfind := hrun.first l hl k hkey
    have hnone : before.find? (fun m => decide (pairOf py m = some k)) = none := by
      rw [List.find?_eq_none]
      intro m hm hpair
      exact hfirst m hm (samePair_iff.mpr ⟨k, hk, of_decide_eq_true hpair⟩)
    rw [hsplit, List.find?_append, hnone, List.find?_cons_of_pos (by simpa using hk)] at hfind
    obtain rfl : link = l := Option.some.inj hfind
    rw [hkept] at hl
    exact hlaw.lowest link hl other hother hsame
  · intro h
    obtain ⟨hread, hlowest⟩ := h
    refine ⟨_, _, dedupLinks_ok.mpr ⟨hread, rfl, rfl⟩, ?_⟩
    refine ⟨hrun.distinct, hrun.order, hrun.unreadable, ?_, ?_, ?_, ?_⟩
    · have hcount := hrun.count
      omega
    · intro link hlink hends
      obtain ⟨ends, hends⟩ := Option.isSome_iff_exists.mp hends
      have hk : pairOf py link = some (orderedPair ends.1 ends.2) := by
        unfold pairOf
        rw [hends]
        rfl
      obtain ⟨l, hl, hkey⟩ := hrun.covered _ ((hrun.seen _).mpr ⟨link, hlink, hk⟩)
      exact ⟨l, hl, samePair_iff.mpr ⟨_, hkey, hk⟩⟩
    · intro l hl other hother hsame
      obtain ⟨k, hk, _⟩ := samePair_iff.mp hsame
      obtain ⟨_, before, after, hsplit, hbefore⟩ :=
        List.find?_eq_some_iff_append.mp (hrun.first l hl k hk)
      refine hlowest before l after hsplit ?_ other hother hsame
      intro earlier hearlier hpair
      obtain ⟨j, hj, hj'⟩ := samePair_iff.mp hpair
      obtain rfl : k = j := Option.some.inj (hk.symm.trans hj)
      have hnot := hbefore earlier hearlier
      simp [hj'] at hnot
    · have hreadKept : ∀ l ∈ (links.foldl (keepStep py) {}).kept, Readable py l :=
        fun l hl => hread l (hrun.order.subset hl)
      obtain ⟨hkept, hremoved⟩ := keepStep_distinct (s := {}) (by simp) hrun.distinct
      exact dedupLinks_ok.mpr ⟨hreadKept, by rw [hkept]; rfl, hremoved⟩

/-- A link between the first interfaces of two nodes. -/
def nodeLink (id : String) (a b : Int) : JsonValue :=
  .obj [("id", .str id), ("from", .obj [("node_id", .int a)]), ("to", .obj [("node_id", .int b)])]

/-- Of two records of one pair, the script keeps the one that comes first. -/
theorem higher_id_kept :
    ¬ ∃ kept removed, dedupLinks plainPy [nodeLink "lnk_002" 1 2, nodeLink "lnk_001" 2 1] =
        .ok (kept, removed) ∧
      DedupLaw plainPy [nodeLink "lnk_002" 1 2, nodeLink "lnk_001" 2 1] kept removed := by
  intro h
  obtain ⟨kept, removed, hok, hlaw⟩ := h
  have hkept : dedupLinks plainPy [nodeLink "lnk_002" 1 2, nodeLink "lnk_001" 2 1] =
      .ok ([nodeLink "lnk_002" 1 2], 1) := rfl
  rw [hkept] at hok
  cases hok
  have hsame : SamePair plainPy (nodeLink "lnk_002" 1 2) (nodeLink "lnk_001" 2 1) :=
    ⟨.node 1 0, .node 2 0, rfl, Or.inr rfl⟩
  obtain ⟨id, hid, hle⟩ := hlaw.lowest _ List.mem_cons_self _
    (List.mem_cons_of_mem _ List.mem_cons_self) hsame "lnk_001" rfl
  obtain rfl : "lnk_002" = id := Option.some.inj hid
  exact absurd hle (by decide)

end NovaVe
