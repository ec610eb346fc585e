import Mathlib.Data.List.Induction

namespace NovaVe

variable {ε : Type} {seqOf : ε → Nat} {log : List ε}

/-- A log whose entries are numbered from one. -/
def Numbered {ε : Type} (seqOf : ε → Nat) (log : List ε) : Prop :=
  ∀ k e, log[k]? = some e → seqOf e = k + 1

/-- What a consumer applies: one entry, or a snapshot that stands for the entries in its data. -/
inductive Item (ε : Type)
  | event (e : ε)
  | snapshot (seq : Nat) (data : List ε)
deriving DecidableEq

def Item.seq {ε : Type} (seqOf : ε → Nat) : Item ε → Nat
  | .event e => seqOf e
  | .snapshot n _ => n

def Item.Covers {ε : Type} (seqOf : ε → Nat) (e : ε) : Item ε → Prop
  | .event e' => e' = e
  | .snapshot n data => seqOf e ≤ n ∧ e ∈ data

def lastSeq {ε : Type} (seqOf : ε → Nat) (applied : List (Item ε)) : Nat :=
  (applied.getLast?.map (Item.seq seqOf)).getD 0

/-- The items still to come take a consumer from a sequence number to the end of the log, without
a gap that a snapshot does not fill. -/
inductive Feed {ε : Type} (seqOf : ε → Nat) (log : List ε) : Nat → List (Item ε) → Prop
  | done {a : Nat} : a = log.length → Feed seqOf log a []
  | event {a : Nat} {e : ε} {rest : List (Item ε)} :
      log[a]? = some e → Feed seqOf log (a + 1) rest → Feed seqOf log a (.event e :: rest)
  | snapshot {a n : Nat} {data : List ε} {rest : List (Item ε)} :
      a < n → (∀ e ∈ log, a < seqOf e → seqOf e ≤ n → e ∈ data) →
      Feed seqOf log n rest → Feed seqOf log a (.snapshot n data :: rest)

/-- What has been applied is in order and has no gap up to its last sequence number. -/
structure Complete {ε : Type} (seqOf : ε → Nat) (log : List ε) (applied : List (Item ε)) :
    Prop where
  increasing : (applied.map (Item.seq seqOf)).Pairwise (· < ·)
  covers : ∀ e ∈ log, seqOf e ≤ lastSeq seqOf applied → ∃ item ∈ applied, item.Covers seqOf e

theorem Numbered.append (h : Numbered seqOf log) {e : ε} (he : seqOf e = log.length + 1) :
    Numbered seqOf (log ++ [e]) := by
  intro k x hx
  by_cases hk : k < log.length
  · rw [List.getElem?_append_left hk] at hx
    exact h k x hx
  · rw [List.getElem?_append_right (by omega)] at hx
    obtain ⟨hlt, hget⟩ := List.getElem?_eq_some_iff.mp hx
    have hk0 : k = log.length := by
      have : k - log.length < 1 := hlt
      omega
    subst hk0
    rw [← hget]
    simpa using he

theorem Numbered.bounds (h : Numbered seqOf log) {e : ε} (he : e ∈ log) :
    1 ≤ seqOf e ∧ seqOf e ≤ log.length := by
  obtain ⟨k, hk, hget⟩ := List.mem_iff_getElem.mp he
  have hs := h k e (List.getElem?_eq_some_iff.mpr ⟨hk, hget⟩)
  omega

theorem Numbered.eq_of_seq (h : Numbered seqOf log) {a : Nat} {e x : ε} (he : log[a]? = some e)
    (hx : x ∈ log) (hs : seqOf x = a + 1) : x = e := by
  obtain ⟨k, hk, hget⟩ := List.mem_iff_getElem.mp hx
  have hxk : log[k]? = some x := List.getElem?_eq_some_iff.mpr ⟨hk, hget⟩
  have hsk := h k x hxk
  obtain rfl : k = a := by omega
  rw [he] at hxk
  exact (Option.some.inj hxk).symm

/-- The tail of a numbered log from `m` on, less the entries up to `p`, is the tail from `p` on. -/
theorem Numbered.filter_drop (h : Numbered seqOf log) {m p : Nat} (hmp : m ≤ p) :
    (log.drop m).filter (fun e => decide (p < seqOf e)) = log.drop p := by
  obtain ⟨d, rfl⟩ := Nat.exists_eq_add_of_le hmp
  clear hmp
  induction d generalizing m with
  | zero =>
    refine List.filter_eq_self.mpr ?_
    intro e he
    obtain ⟨k, hk, hget⟩ := List.mem_iff_getElem.mp he
    have hs := h (m + k) e (by rw [← List.getElem?_drop]; exact List.getElem?_eq_some_iff.mpr ⟨hk, hget⟩)
    simp
    omega
  | succ d ih =>
    cases hd : log.drop m with
    | nil =>
      have hlen : log.length ≤ m := List.drop_eq_nil_iff.mp hd
      rw [List.drop_eq_nil_of_le (by omega)]
      rfl
    | cons e rest =>
      have hget : log[m]? = some e := by
        rw [← List.head?_drop, hd]
        rfl
      have hs := h m e hget
      have hrest : rest = log.drop (m + 1) := by
        rw [← List.tail_drop, hd]
        rfl
      rw [List.filter_cons_of_neg (by simp; omega), hrest, show m + (d + 1) = m + 1 + d by omega]
      exact ih

theorem Feed.le_length {a : Nat} {items : List (Item ε)} (h : Feed seqOf log a items) :
    a ≤ log.length := by
  induction h with
  | done ha => exact Nat.le_of_eq ha
  | event _ _ ih => omega
  | snapshot hlt _ _ ih => omega

theorem Feed.of_drop (seqOf : ε → Nat) {a : Nat} (h : a ≤ log.length) :
    Feed seqOf log a ((log.drop a).map Item.event) := by
  obtain ⟨d, hd⟩ := Nat.exists_eq_add_of_le h
  induction d generalizing a with
  | zero =>
    rw [List.drop_eq_nil_of_le (by omega)]
    exact Feed.done (by omega)
  | succ d ih =>
    have hlt : a < log.length := by omega
    rw [List.drop_eq_getElem_cons hlt]
    exact Feed.event (List.getElem?_eq_getElem hlt) (ih (by omega) (by omega))

/-- A new entry goes to the end of the feed. -/
theorem Feed.append_event {a : Nat} {items : List (Item ε)} (h : Feed seqOf log a items) {e : ε}
    (he : seqOf e = log.length + 1) :
    Feed seqOf (log ++ [e]) a (items ++ [.event e]) := by
  induction h with
  | done ha =>
    subst ha
    refine Feed.event (by simp) (Feed.done (by simp))
  | event hget _ ih =>
    obtain ⟨hlt, _⟩ := List.getElem?_eq_some_iff.mp hget
    exact Feed.event (by rw [List.getElem?_append_left hlt]; exact hget) ih
  | snapshot hlt hdata hrest ih =>
    refine Feed.snapshot hlt ?_ ih
    intro x hx hax hxn
    rcases List.mem_append.mp hx with hx | hx
    · exact hdata x hx hax hxn
    · obtain rfl := List.mem_singleton.mp hx
      have := hrest.le_length
      omega

theorem lastSeq_append (seqOf : ε → Nat) (applied : List (Item ε)) (item : Item ε) :
    lastSeq seqOf (applied ++ [item]) = item.seq seqOf := by
  simp [lastSeq]

theorem seq_le_lastSeq {applied : List (Item ε)}
    (h : (applied.map (Item.seq seqOf)).Pairwise (· < ·)) {item : Item ε} (hi : item ∈ applied) :
    item.seq seqOf ≤ lastSeq seqOf applied := by
  induction applied using List.reverseRecOn with
  | nil => exact absurd hi List.not_mem_nil
  | append_singleton rest last _ =>
    rw [lastSeq_append]
    rcases List.mem_append.mp hi with hr | hl
    · rw [List.map_append, List.pairwise_append] at h
      exact Nat.le_of_lt (h.2.2 _ (List.mem_map.mpr ⟨item, hr, rfl⟩) _ List.mem_cons_self)
    · obtain rfl := List.mem_singleton.mp hl
      exact Nat.le_refl _

theorem Complete.empty (h : Numbered seqOf log) :
    Complete seqOf log [] where
  increasing := List.Pairwise.nil
  covers e he hs := by
    have := (h.bounds he).1
    simp only [lastSeq, List.getLast?_nil, Option.map_none, Option.getD_none] at hs
    omega

theorem Complete.append_event {applied : List (Item ε)} (h : Complete seqOf log applied) {e : ε}
    (he : seqOf e = log.length + 1) (hl : lastSeq seqOf applied ≤ log.length) :
    Complete seqOf (log ++ [e]) applied where
  increasing := h.increasing
  covers x hx hs := by
    rcases List.mem_append.mp hx with hx | hx
    · exact h.covers x hx hs
    · obtain rfl := List.mem_singleton.mp hx
      omega

/-- Applying the next item of the feed. -/
theorem Complete.deliver {applied : List (Item ε)} {item : Item ε} {rest : List (Item ε)}
    (hn : Numbered seqOf log) (h : Complete seqOf log applied)
    (hf : Feed seqOf log (lastSeq seqOf applied) (item :: rest)) :
    Complete seqOf log (applied ++ [item]) ∧
      Feed seqOf log (lastSeq seqOf (applied ++ [item])) rest := by
  have hold : ∀ e ∈ log, seqOf e ≤ lastSeq seqOf applied →
      ∃ i ∈ applied ++ [item], i.Covers seqOf e := by
    intro e he hs
    obtain ⟨i, hi, hc⟩ := h.covers e he hs
    exact ⟨i, List.mem_append_left _ hi, hc⟩
  have hself : item ∈ applied ++ [item] := List.mem_append_right _ List.mem_cons_self
  have hincr : lastSeq seqOf applied < item.seq seqOf →
      ((applied ++ [item]).map (Item.seq seqOf)).Pairwise (· < ·) := by
    intro hlt
    rw [List.map_append, List.pairwise_append]
    refine ⟨h.increasing, List.pairwise_singleton _ _, ?_⟩
    intro x hx y hy
    obtain ⟨i, hi, rfl⟩ := List.mem_map.mp hx
    obtain rfl := List.mem_singleton.mp hy
    exact Nat.lt_of_le_of_lt (seq_le_lastSeq h.increasing hi) hlt
  cases hf with
  | event hget hrest =>
    rename_i e
    have hs := hn _ e hget
    refine ⟨⟨hincr (by simp only [Item.seq]; omega), ?_⟩, ?_⟩
    · intro x hx hxs
      rw [lastSeq_append, Item.seq, hs] at hxs
      by_cases hle : seqOf x ≤ lastSeq seqOf applied
      · exact hold x hx hle
      · exact ⟨_, hself, (hn.eq_of_seq hget hx (by omega)).symm⟩
    · rw [lastSeq_append, Item.seq, hs]
      exact hrest
  | snapshot hlt hdata hrest =>
    refine ⟨⟨hincr hlt, ?_⟩, ?_⟩
    · intro x hx hxs
      rw [lastSeq_append, Item.seq] at hxs
      by_cases hle : seqOf x ≤ lastSeq seqOf applied
      · exact hold x hx hle
      · exact ⟨_, hself, hxs, hdata x hx (by omega) hxs⟩
    · rw [lastSeq_append]
      exact hrest

structure WsEvent (α : Type) where
  seq : Nat
  type : String
  rev : String := ""
  payload : α
deriving DecidableEq, Repr

/-- The ring and the counter of one lab in the hub. -/
structure LabState (α : Type) where
  events : List (WsEvent α) := []
  nextSeq : Nat := 1
deriving DecidableEq, Repr

/-- `deque.append` with a maximal length. -/
def pushBounded {α : Type} (size : Nat) (events : List α) (event : α) : List α :=
  (events ++ [event]).drop ((events ++ [event]).length - size)

/-- The part of `publish` under the hub's lock. -/
def publishEvent {α : Type} (ringSize : Nat) (state : LabState α) (type rev : String) (payload : α) :
    LabState α × WsEvent α :=
  let event : WsEvent α := { seq := state.nextSeq, type, rev, payload }
  ({ events := pushBounded ringSize state.events event, nextSeq := state.nextSeq + 1 }, event)

/-- `replay_since`: the events to replay and whether the client needs a new snapshot. -/
def replaySince {α : Type} (state : LabState α) (lastSeq : Nat) : List (WsEvent α) × Bool :=
  match state.events with
  | [] => ([], false)
  | oldest :: _ =>
    if lastSeq = 0 then (state.events, false)
    else if lastSeq + 1 < oldest.seq then ([], true)
    else (state.events.filter (fun ev => decide (lastSeq < ev.seq)), false)

def headSeq {α : Type} (state : LabState α) : Nat :=
  if state.nextSeq = 1 then 0 else state.nextSeq - 1

/-- The hub holds the end of the log of what was published since it started. -/
structure HubHolds {α : Type} (ringSize : Nat) (state : LabState α) (log : List (WsEvent α)) :
    Prop where
  numbered : Numbered WsEvent.seq log
  next : state.nextSeq = log.length + 1
  ring : state.events = log.drop (log.length - ringSize)

theorem hubHolds_empty {α : Type} (ringSize : Nat) : HubHolds ringSize ({} : LabState α) [] where
  numbered k e h := by simp at h
  next := rfl
  ring := by simp

theorem pushBounded_drop {α : Type} (size : Nat) (log : List α) (event : α) :
    pushBounded size (log.drop (log.length - size)) event =
      (log ++ [event]).drop ((log ++ [event]).length - size) := by
  have hk : log.length - size ≤ log.length := Nat.sub_le _ _
  unfold pushBounded
  rw [← List.drop_append_of_le_length hk, List.drop_drop]
  congr 1
  simp only [List.length_drop, List.length_append, List.length_singleton]
  omega

theorem HubHolds.publish {α : Type} {ringSize : Nat} {state : LabState α} {log : List (WsEvent α)}
    (h : HubHolds ringSize state log) (type rev : String) (payload : α) :
    HubHolds ringSize (publishEvent ringSize state type rev payload).1
      (log ++ [(publishEvent ringSize state type rev payload).2]) where
  numbered := h.numbered.append h.next
  next := by simp [publishEvent, h.next]
  ring := by
    simp only [publishEvent, h.ring]
    exact pushBounded_drop ringSize log _

theorem HubHolds.headSeq_eq {α : Type} {ringSize : Nat} {state : LabState α}
    {log : List (WsEvent α)} (h : HubHolds ringSize state log) : headSeq state = log.length := by
  unfold headSeq
  have := h.next
  split <;> omega

/-- What a client that applied everything up to `lastSeq` is replayed. -/
theorem HubHolds.replaySince_eq {α : Type} {ringSize : Nat} {state : LabState α}
    {log : List (WsEvent α)} (h : HubHolds ringSize state log) (hpos : 0 < ringSize) {lastSeq : Nat}
    (hlast : lastSeq ≤ log.length) (hring : lastSeq = 0 → log.length ≤ ringSize) :
    replaySince state lastSeq = (log.drop lastSeq, false) ∨
      (replaySince state lastSeq = ([], true) ∧ lastSeq < log.length) := by
  unfold replaySince
  split
  next hnil =>
    left
    rw [h.ring, List.drop_eq_nil_iff] at hnil
    have hz : log.drop lastSeq = [] := by
      refine List.drop_eq_nil_of_le ?_
      by_cases h0 : lastSeq = 0
      · have := hring h0
        omega
      · omega
    rw [hz]
  next oldest rest hcons =>
    have hdrop := h.ring.symm.trans hcons
    have hget : log[log.length - ringSize]? = some oldest := by
      rw [← List.head?_drop, hdrop]
      rfl
    have hold : oldest.seq = log.length - ringSize + 1 := h.numbered _ _ hget
    obtain ⟨hlt, _⟩ := List.getElem?_eq_some_iff.mp hget
    by_cases h0 : lastSeq = 0
    · left
      have hle := hring h0
      rw [if_pos h0, h.ring, h0, show log.length - ringSize = 0 by omega]
    · rw [if_neg h0]
      by_cases hgap : lastSeq + 1 < oldest.seq
      · right
        rw [if_pos hgap]
        exact ⟨rfl, by omega⟩
      · left
        rw [if_neg hgap, h.ring, h.numbered.filter_drop (by omega)]

end NovaVe
