import NovaVe.LabMigration
import NovaVe.Runs

namespace NovaVe

theorem orZero_of_ok {value : Option Scalar} {n : Int} (h : intOrZero value = .ok n) :
    orZero value = n := by
  unfold orZero
  rw [h]

theorem Wiring.Same.consistent {x y : Wiring} (h : y.Same x) (hy : y.Consistent) :
    x.Consistent := by
  rcases h with rfl | heq
  · exact hy
  · rw [heq] at hy
    rcases hy with ⟨ha, hb, hn⟩ | ⟨hn, ⟨ha, hb⟩ | ⟨ha, hb⟩⟩
    · exact Or.inl ⟨hb, ha, hn⟩
    · exact Or.inr ⟨hn, Or.inr ⟨hb, ha⟩⟩
    · exact Or.inr ⟨hn, Or.inl ⟨hb, ha⟩⟩

theorem Wiring.Same.joins {x y : Wiring} (h : y.Same x) {nodeId index networkId : Int} :
    y.Joins nodeId index networkId ↔ x.Joins nodeId index networkId := by
  rcases h with rfl | heq
  · exact Iff.rfl
  · rw [heq]
    exact Or.comm

theorem namedSide_node {text : String} {nodeId : Int} (h : topologyNodeId text = some nodeId)
    (iface networkId : Int) : namedSide text iface networkId = some (.node nodeId iface) := by
  unfold namedSide
  rw [h]

theorem namedSide_network {text : String} {iface networkId : Int} {e : Endpoint}
    (h : topologyNodeId text = none) (hside : namedSide text iface networkId = some e) :
    ∃ m, e = .network m := by
  unfold namedSide at hside
  simp only [h] at hside
  cases hnetwork : topologyNetworkId text with
  | some m =>
    rw [hnetwork] at hside
    exact ⟨m, (Option.some.inj hside).symm⟩
  | none =>
    rw [hnetwork] at hside
    by_cases hzero : networkId = 0
    · simp only [hzero, if_true, Option.elim] at hside
      cases hside
    · simp only [hzero, if_false, Option.elim] at hside
      exact ⟨networkId, (Option.some.inj hside).symm⟩

theorem namedSide_stands {text : String} {networkId : Int} (h : topologyNodeId text = none)
    (hne : networkId ≠ 0) (iface : Int) :
    ∃ m, namedSide text iface networkId = some (.network m) := by
  unfold namedSide
  simp only [h]
  cases topologyNetworkId text with
  | some m => exact ⟨m, rfl⟩
  | none => exact ⟨networkId, if_neg hne⟩

/-- What an attachment takes from its entry. -/
theorem wiring_sides {entry : TopologyEntry} {x : Wiring} (h : entry.wiring = some x) :
    namedSide entry.source (orZero entry.sourceInterfaceId) (orZero entry.networkId) = some x.a ∧
      namedSide entry.destination (intElseZero entry.destinationInterfaceId)
        (orZero entry.networkId) = some x.b ∧
      ¬(x.a.network?.isSome ∧ x.b.network?.isSome) ∧ x.networkId = orZero entry.networkId := by
  unfold TopologyEntry.wiring at h
  dsimp only at h
  split at h
  next a b ha hb =>
    split at h
    next => cases h
    next hone =>
      cases h
      exact ⟨ha, hb, hone, rfl⟩
  next => cases h

theorem wiring_of_sides {entry : TopologyEntry} {a b : Endpoint}
    (ha : namedSide entry.source (orZero entry.sourceInterfaceId) (orZero entry.networkId) = some a)
    (hb : namedSide entry.destination (intElseZero entry.destinationInterfaceId)
      (orZero entry.networkId) = some b) (hone : ¬(a.network?.isSome ∧ b.network?.isSome)) :
    entry.wiring = some ⟨a, b, orZero entry.networkId, entry.label, entry.color,
      defaultWidth entry.width⟩ := by
  unfold TopologyEntry.wiring
  simp only [ha, hb]
  exact if_neg hone

/-- The entries by the nodes that they name, and the endpoints made of each. -/
theorem topologyEndpoints_cases {entry : TopologyEntry} {n : Int}
    {ends : Option (Endpoint × Endpoint)} (h : topologyEndpoints entry n = .ok ends) :
    (∃ a b i, topologyNodeId entry.source = some a ∧ topologyNodeId entry.destination = some b ∧
        intOrZero entry.sourceInterfaceId = .ok i ∧
        ends = some (.node a i, if n = 0 then
          .node b (intElseZero entry.destinationInterfaceId) else .network n)) ∨
      (n ≠ 0 ∧ ∃ a i, topologyNodeId entry.source = some a ∧
        topologyNodeId entry.destination = none ∧ intOrZero entry.sourceInterfaceId = .ok i ∧
        ends = some (.node a i, .network n)) ∨
      (n ≠ 0 ∧ ∃ b, topologyNodeId entry.source = none ∧
        topologyNodeId entry.destination = some b ∧
        ends = some (.node b (intElseZero entry.destinationInterfaceId), .network n)) ∨
      (ends = none ∧
        (topologyNodeId entry.source = none ∨ topologyNodeId entry.destination = none) ∧
        (n = 0 ∨ topologyNodeId entry.source = none ∧ topologyNodeId entry.destination = none)) := by
  unfold topologyEndpoints at h
  cases hsource : topologyNodeId entry.source with
  | some a =>
    cases hdestination : topologyNodeId entry.destination with
    | some b =>
      simp only [hsource, hdestination] at h
      obtain ⟨i, hi, hends⟩ := bind_eq_ok.mp h
      refine Or.inl ⟨a, b, i, rfl, rfl, hi, ?_⟩
      split at hends
      next hzero =>
        cases hends
        rw [if_pos hzero]
      next hne =>
        cases hends
        rw [if_neg hne]
    | none =>
      simp only [hsource, hdestination] at h
      split at h
      next hzero =>
        cases h
        exact Or.inr (Or.inr (Or.inr ⟨rfl, Or.inr rfl, Or.inl hzero⟩))
      next hne =>
        obtain ⟨i, hi, hends⟩ := bind_eq_ok.mp h
        cases hends
        exact Or.inr (Or.inl ⟨hne, a, i, rfl, rfl, hi, rfl⟩)
  | none =>
    cases hdestination : topologyNodeId entry.destination with
    | some b =>
      simp only [hsource, hdestination] at h
      split at h
      next hzero =>
        cases h
        exact Or.inr (Or.inr (Or.inr ⟨rfl, Or.inl rfl, Or.inl hzero⟩))
      next hne =>
        cases h
        exact Or.inr (Or.inr (Or.inl ⟨hne, b, rfl, rfl, rfl⟩))
    | none =>
      simp only [hsource, hdestination] at h
      cases h
      exact Or.inr (Or.inr (Or.inr ⟨rfl, Or.inl rfl, Or.inr ⟨rfl, rfl⟩⟩))

/-- Two nodes on a network of their entry contradict it. -/
theorem not_consistent_nodes {a i b j n : Int} {label color width : String} (hne : n ≠ 0) :
    ¬ Wiring.Consistent ⟨.node a i, .node b j, n, label, color, width⟩ := by
  intro hcons
  rcases hcons with ⟨_, _, hzero⟩ | ⟨_, ⟨_, hb⟩ | ⟨ha, _⟩⟩
  · exact hne hzero
  · cases hb
  · cases ha

/-- The network at the other end of a node is that of the entry. -/
theorem network_of_consistent {a i m n : Int} {label color width : String}
    (h : Wiring.Consistent ⟨.node a i, .network m, n, label, color, width⟩) : m = n := by
  rcases h with ⟨_, hb, _⟩ | ⟨_, ⟨_, hb⟩ | ⟨ha, _⟩⟩
  · cases hb
  · exact Endpoint.network.inj hb
  · cases ha

/-- The endpoints that a migration makes of an entry, and what the entry attaches. -/
theorem endpoints_made {entry : TopologyEntry} {n : Int} {f t : Endpoint}
    (hn : intOrZero entry.networkId = .ok n) (h : topologyEndpoints entry n = .ok (some (f, t))) :
    (∃ source i, f = .node source i ∧ 0 ≤ source) ∧
      ((n = 0 ∧ ∃ destination j, t = .node destination j ∧ 0 ≤ destination) ∨
        (n ≠ 0 ∧ t = .network n)) ∧
      ∃ x, entry.wiring = some x ∧ (x.Consistent →
        Wiring.Same ⟨f, t, n, entry.label, entry.color, defaultWidth entry.width⟩ x) := by
  have hnetwork := orZero_of_ok hn
  rcases topologyEndpoints_cases h with ⟨a, b, i, hsource, hdestination, hiface, hends⟩ |
    ⟨hne, a, i, hsource, hdestination, hiface, hends⟩ |
    ⟨hne, b, hsource, hdestination, hends⟩ | ⟨hends, _⟩
  · have hpos := topologyNodeId_nonneg hsource
    have hposd := topologyNodeId_nonneg hdestination
    have hwiring := wiring_of_sides (namedSide_node hsource _ _) (namedSide_node hdestination _ _)
      (fun hboth => by cases hboth.1)
    rw [hnetwork, orZero_of_ok hiface] at hwiring
    by_cases hzero : n = 0
    · rw [if_pos hzero] at hends
      cases hends
      exact ⟨⟨a, i, rfl, hpos⟩, Or.inl ⟨hzero, b, _, rfl, hposd⟩, _, hwiring, fun _ => Or.inl rfl⟩
    · rw [if_neg hzero] at hends
      cases hends
      refine ⟨⟨a, i, rfl, hpos⟩, Or.inr ⟨hzero, rfl⟩, _, hwiring, ?_⟩
      intro hcons
      exact absurd hcons (not_consistent_nodes hzero)
  · have hpos := topologyNodeId_nonneg hsource
    cases hends
    rw [← hnetwork] at hne
    obtain ⟨m, hm⟩ := namedSide_stands hdestination hne (intElseZero entry.destinationInterfaceId)
    have hwiring := wiring_of_sides (namedSide_node hsource _ _) hm (fun hboth => by cases hboth.1)
    rw [hnetwork, orZero_of_ok hiface] at hwiring
    rw [hnetwork] at hne
    refine ⟨⟨a, i, rfl, hpos⟩, Or.inr ⟨hne, rfl⟩, _, hwiring, ?_⟩
    intro hcons
    rw [network_of_consistent hcons]
    exact Or.inl rfl
  · have hposd := topologyNodeId_nonneg hdestination
    cases hends
    rw [← hnetwork] at hne
    obtain ⟨m, hm⟩ := namedSide_stands hsource hne (orZero entry.sourceInterfaceId)
    have hwiring := wiring_of_sides hm (namedSide_node hdestination _ _)
      (fun hboth => by cases hboth.2)
    rw [hnetwork] at hwiring hne
    refine ⟨⟨b, _, rfl, hposd⟩, Or.inr ⟨hne, rfl⟩, _, hwiring, ?_⟩
    intro hcons
    have hswap : Wiring.Consistent ⟨.node b (intElseZero entry.destinationInterfaceId), .network m, n,
        entry.label, entry.color, defaultWidth entry.width⟩ := Wiring.Same.consistent (Or.inr rfl) hcons
    rw [network_of_consistent hswap]
    exact Or.inr rfl
  · cases hends

/-- An entry that a migration makes no link of attaches nothing consistent. -/
theorem endpoints_unmade {entry : TopologyEntry} {n : Int}
    (hn : intOrZero entry.networkId = .ok n) (h : topologyEndpoints entry n = .ok none)
    {x : Wiring} (hx : entry.wiring = some x) : ¬ x.Consistent := by
  obtain ⟨ha, hb, hone, hnetwork⟩ := wiring_sides hx
  rw [orZero_of_ok hn] at hnetwork
  rcases topologyEndpoints_cases h with ⟨_, _, _, _, _, _, hends⟩ | ⟨_, _, _, _, _, _, hends⟩ |
    ⟨_, _, _, _, hends⟩ | ⟨_, hside, hrest⟩
  · cases hends
  · cases hends
  · cases hends
  · rcases hrest with hzero | ⟨hsource, hdestination⟩
    · intro hcons
      rcases hcons with ⟨hanone, hbnone, _⟩ | ⟨hne, _⟩
      · rcases hside with hsource | hdestination
        · obtain ⟨m, hm⟩ := namedSide_network hsource ha
          rw [hm] at hanone
          cases hanone
        · obtain ⟨m, hm⟩ := namedSide_network hdestination hb
          rw [hm] at hbnone
          cases hbnone
      · exact hne (hnetwork.trans hzero)
    · obtain ⟨m, hm⟩ := namedSide_network hsource ha
      obtain ⟨k, hk⟩ := namedSide_network hdestination hb
      rw [hm, hk] at hone
      exact absurd ⟨rfl, rfl⟩ hone

end NovaVe
