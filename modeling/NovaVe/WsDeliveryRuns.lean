import NovaVe.WsDelivery

namespace NovaVe

variable {α : Type} {ringSize : Nat}

def dataOf {α : Type} (wire : List (Frame α)) : List (Item (WsEvent α)) :=
  wire.filterMap Frame.item?

theorem dataOf_append (xs ys : List (Frame α)) :
    dataOf (xs ++ ys) = dataOf xs ++ dataOf ys :=
  List.filterMap_append

/-- What is still to come on a connection takes the client from `a` to the end of the log. -/
def ConnOk {α : Type} (log : List (WsEvent α)) (a : Nat) (c : Conn α) : Prop :=
  match c.phase with
  | .accepted _ => dataOf c.wire = [] ∧ c.pending = []
  | .greeted _ => dataOf c.wire = [] ∧ c.pending = []
  | .resnapshotting => dataOf c.wire = [] ∧ c.pending = [] ∧ a < log.length
  | .replaying events =>
    c.pending = [] ∧ Feed WsEvent.seq log a (dataOf c.wire ++ events.map Item.event)
  | .live => Feed WsEvent.seq log a (dataOf c.wire ++ c.pending.map Item.event)

structure DeliveryInv {α : Type} (ringSize : Nat) (s : Delivery α) : Prop where
  hub : HubHolds ringSize s.hub s.log
  complete : Complete WsEvent.seq s.log s.applied
  bounded : lastSeq WsEvent.seq s.applied ≤ s.log.length
  saved : ∀ e ∈ s.log, isLabJsonEvent e.type → e ∈ s.labJson
  kept : s.lost = []
  single : s.conns.length ≤ 1
  conn : ∀ c ∈ s.conns, ConnOk s.log (lastSeq WsEvent.seq s.applied) c

/-- A publisher has sent the oldest event that it owed. -/
theorem ConnOk.sent {log : List (WsEvent α)} {a : Nat} {c : Conn α} {event : WsEvent α}
    {rest : List (WsEvent α)} (h : ConnOk log a c) (hpend : c.pending = event :: rest) :
    ConnOk log a { c with pending := rest, wire := c.wire ++ [.data (.event event)] } := by
  unfold ConnOk at h ⊢
  cases hp : c.phase with
  | accepted n => rw [hp, hpend] at h; cases h.2
  | greeted n => rw [hp, hpend] at h; cases h.2
  | resnapshotting => rw [hp, hpend] at h; cases h.2.1
  | replaying events => rw [hp, hpend] at h; cases h.1
  | live =>
    simp only [hp, hpend] at h ⊢
    rw [dataOf_append, List.append_assoc]
    exact h

/-- An open socket is the only one. -/
theorem DeliveryInv.only {s : Delivery α} (h : DeliveryInv ringSize s) {index : Nat} {c : Conn α}
    (hget : s.conns[index]? = some c) : index = 0 ∧ s.conns = [c] := by
  have hsingle := h.single
  cases hconns : s.conns with
  | nil =>
    rw [hconns] at hget
    cases hget
  | cons first rest =>
    rw [hconns, List.length_cons] at hsingle
    have hrest : rest = [] := List.eq_nil_of_length_eq_zero (by omega)
    rw [hconns, hrest] at hget
    cases index with
    | zero =>
      cases hget
      exact ⟨rfl, by rw [hrest]⟩
    | succ index => cases hget

/-- A step on the one connection alone. -/
theorem DeliveryInv.connected {s : Delivery α} (h : DeliveryInv ringSize s) {c : Conn α}
    {held : Bool} {closing storedSeq : Nat}
    (hconn : ConnOk s.log (lastSeq WsEvent.seq s.applied) c) :
    DeliveryInv ringSize { s with conns := [c], held := held, closing := closing
                                  storedSeq := storedSeq } where
  hub := h.hub
  complete := h.complete
  bounded := h.bounded
  saved := h.saved
  kept := h.kept
  single := Nat.le_refl 1
  conn c' hc' := by
    cases List.mem_singleton.mp hc'
    exact hconn

/-- The connections that a close leaves. -/
theorem DeliveryInv.remaining {s : Delivery α} (h : DeliveryInv ringSize s) {conns : List (Conn α)}
    {held : Bool} {closing : Nat} (hsub : List.Sublist conns s.conns) :
    DeliveryInv ringSize { s with conns := conns, held := held, closing := closing } where
  hub := h.hub
  complete := h.complete
  bounded := h.bounded
  saved := h.saved
  kept := h.kept
  single := Nat.le_trans hsub.length_le h.single
  conn c hc := h.conn c (hsub.subset hc)

theorem deliveryInv_init (ringSize : Nat) :
    DeliveryInv ringSize ({} : Delivery α) where
  hub := hubHolds_empty ringSize
  complete := Complete.empty (hubHolds_empty ringSize).numbered
  bounded := Nat.zero_le _
  saved _ he := absurd he List.not_mem_nil
  kept := rfl
  single := Nat.zero_le _
  conn _ h := absurd h List.not_mem_nil

theorem publishTo_inv {s : Delivery α} {type rev : String} {payload : α}
    (h : DeliveryInv ringSize s) (hok : DeliveryStepOk ringSize s (.publish type rev payload)) :
    DeliveryInv ringSize (publishTo ringSize s type rev payload) := by
  have hseq : (publishEvent ringSize s.hub type rev payload).2.seq = s.log.length + 1 := h.hub.next
  refine { hub := h.hub.publish type rev payload
           complete := h.complete.append_event hseq h.bounded
           bounded := ?_, saved := ?_, kept := h.kept, single := ?_, conn := ?_ }
  · have := h.bounded
    simp only [publishTo, List.length_append]
    omega
  · intro e he hp
    simp only [publishTo] at he ⊢
    rcases List.mem_append.mp he with he | he
    · have hm := h.saved e he hp
      split
      next => exact List.mem_append_left _ hm
      next => exact hm
    · have hlast := List.mem_singleton.mp he
      have htype : isLabJsonEvent type := by
        rw [hlast] at hp
        exact hp
      rw [if_pos htype]
      exact List.mem_append_right _ he
  · have hsingle := h.single
    simp only [publishTo, List.length_map]
    exact hsingle
  · intro c hc
    obtain ⟨c₀, hc₀, rfl⟩ := List.mem_map.mp hc
    have hcok := h.conn c₀ hc₀
    have hphase := (hok c₀ hc₀).1
    unfold ConnOk Conn.owe at *
    cases hp : c₀.phase with
    | accepted n => simpa only [hp] using hcok
    | greeted n => simpa only [hp] using hcok
    | resnapshotting =>
      simp only [hp] at hcok ⊢
      refine ⟨hcok.1, hcok.2.1, ?_⟩
      simp only [publishTo, List.length_append]
      have := hcok.2.2
      omega
    | replaying events =>
      rw [hp] at hphase
      cases hphase
    | live =>
      simp only [hp] at hcok ⊢
      have hf := hcok.append_event hseq
      rw [List.append_assoc] at hf
      rw [List.map_append]
      exact hf

/-- A frame that reaches the client. -/
theorem deliver_inv {s : Delivery α} {index : Nat} {c : Conn α} {frame : Frame α}
    {rest : List (Frame α)} (h : DeliveryInv ringSize s) (hc : s.conns[index]? = some c)
    (hw : c.wire = frame :: rest) :
    DeliveryInv ringSize
      (handleMessage { s with conns := s.conns.set index { c with wire := rest } } frame) := by
  obtain ⟨hzero, honly⟩ := h.only hc
  have hcok := h.conn c (List.mem_of_getElem? hc)
  have hset : s.conns.set index { c with wire := rest } = [{ c with wire := rest }] := by
    rw [hzero, honly]
    rfl
  rw [hset]
  have hquiet : frame.item? = none → ConnOk s.log (lastSeq WsEvent.seq s.applied)
      { c with wire := rest } := by
    intro hf
    have hd : dataOf c.wire = dataOf rest := by
      rw [hw]
      exact List.filterMap_cons_none hf
    unfold ConnOk at hcok ⊢
    rw [hd] at hcok
    exact hcok
  cases frame with
  | hello n =>
    exact h.connected (hquiet rfl)
  | forceResnapshot =>
    exact h.connected (hquiet rfl)
  | data item =>
    have hd : dataOf c.wire = item :: dataOf rest := by
      rw [hw]
      exact List.filterMap_cons_some rfl
    have hnext : ∃ tail, Feed WsEvent.seq s.log (lastSeq WsEvent.seq s.applied)
        (item :: (dataOf rest ++ tail)) ∧
        (∀ a, Feed WsEvent.seq s.log a (dataOf rest ++ tail) →
          ConnOk s.log a { c with wire := rest }) := by
      unfold ConnOk at hcok ⊢
      cases hp : c.phase with
      | accepted n => rw [hp, hd] at hcok; cases hcok.1
      | greeted n => rw [hp, hd] at hcok; cases hcok.1
      | resnapshotting => rw [hp, hd] at hcok; cases hcok.1
      | replaying events =>
        simp only [hp, hd, List.cons_append] at hcok
        exact ⟨_, hcok.2, fun a ha => ⟨hcok.1, ha⟩⟩
      | live =>
        simp only [hp, hd, List.cons_append] at hcok
        exact ⟨_, hcok, fun a ha => ha⟩
    obtain ⟨tail, hfeed, hconn⟩ := hnext
    obtain ⟨hcomplete, hrest⟩ := h.complete.deliver h.hub.numbered hfeed
    exact { hub := h.hub, complete := hcomplete, bounded := hrest.le_length, saved := h.saved
            kept := h.kept, single := Nat.le_refl 1
            conn := fun c' hc' => by cases List.mem_singleton.mp hc'; exact hconn _ hrest }

theorem replay_connOk {s : Delivery α} {c : Conn α} {n : Nat} (hpos : 0 < ringSize)
    (h : DeliveryInv ringSize s) (hw : dataOf c.wire = []) (hpend : c.pending = [])
    (hn : s.log = [] ∨ (n = lastSeq WsEvent.seq s.applied ∧ (n = 0 → s.log.length ≤ ringSize))) :
    match replaySince s.hub n with
    | (_, true) => ConnOk s.log (lastSeq WsEvent.seq s.applied)
        { c with phase := .resnapshotting, wire := c.wire ++ [.forceResnapshot] }
    | (events, false) => ConnOk s.log (lastSeq WsEvent.seq s.applied)
        { c with phase := .replaying events } := by
  rcases hn with hnil | ⟨rfl, hring⟩
  · have hempty : s.hub.events = [] := by
      rw [h.hub.ring, hnil, List.drop_nil]
    have hbound := h.bounded
    rw [hnil] at hbound
    have hreplay : replaySince s.hub n = ([], false) := by
      unfold replaySince
      rw [hempty]
    rw [hreplay]
    refine ⟨hpend, ?_⟩
    rw [hw, hnil]
    exact Feed.done (Nat.le_zero.mp hbound)
  · rcases h.hub.replaySince_eq hpos h.bounded hring with hr | ⟨hr, hlt⟩
    · rw [hr]
      refine ⟨hpend, ?_⟩
      rw [hw]
      exact Feed.of_drop WsEvent.seq h.bounded
    · rw [hr]
      refine ⟨?_, hpend, hlt⟩
      rw [dataOf_append, hw]
      rfl

theorem handlerStep_connOk {s : Delivery α} {c c' : Conn α} {index : Nat} {action : HandlerAction}
    (hpos : 0 < ringSize) (h : DeliveryInv ringSize s) (hc : c ∈ s.conns)
    (hok : DeliveryStepOk ringSize s (.serve index action))
    (hstep : handlerStep s c action = some c') :
    ConnOk s.log (lastSeq WsEvent.seq s.applied) c' := by
  have hcok := h.conn c hc
  cases action with
  | send index =>
    obtain rfl : index = 0 := hok
    simp only [handlerStep] at hstep
    split at hstep
    next event hget =>
      cases hstep
      cases hpend : c.pending with
      | nil => rw [hpend] at hget; cases hget
      | cons first rest =>
        rw [hpend] at hget
        cases hget
        exact hcok.sent hpend
    next => cases hstep
  | hello =>
    simp only [handlerStep] at hstep
    split at hstep
    next n hp =>
      cases hstep
      unfold ConnOk at hcok ⊢
      simp only [hp] at hcok ⊢
      rw [dataOf_append]
      exact ⟨by rw [hcok.1]; rfl, hcok.2⟩
    next => cases hstep
  | replay =>
    simp only [handlerStep] at hstep
    split at hstep
    next n hp =>
      have hgreet : dataOf c.wire = [] ∧ c.pending = [] := by
        unfold ConnOk at hcok
        simpa only [hp] using hcok
      have hr := replay_connOk hpos h hgreet.1 hgreet.2 (hok c hc n (by rw [hp]; exact rfl))
      split at hstep
      next hq => cases hstep; rw [hq] at hr; exact hr
      next hq => cases hstep; rw [hq] at hr; exact hr
    next => cases hstep
  | sendReplay =>
    simp only [handlerStep] at hstep
    split at hstep
    next event rest hp =>
      cases hstep
      unfold ConnOk at hcok ⊢
      simp only [hp] at hcok ⊢
      rw [dataOf_append, List.append_assoc]
      exact hcok
    next => cases hstep
  | snapshot readOk =>
    obtain ⟨rfl, hsaved⟩ := hok
    simp only [handlerStep] at hstep
    split at hstep
    next hp =>
      cases hstep
      unfold ConnOk at hcok ⊢
      simp only [hp] at hcok ⊢
      refine ⟨hcok.2.1, ?_⟩
      rw [dataOf_append, hcok.1, List.nil_append]
      change Feed WsEvent.seq s.log (lastSeq WsEvent.seq s.applied)
        [.snapshot (headSeq s.hub) s.labJson]
      rw [h.hub.headSeq_eq]
      exact Feed.snapshot hcok.2.2 (fun e he hlt _ => h.saved e he (hsaved e he hlt))
        (Feed.done rfl)
    next => cases hstep
  | subscribe =>
    simp only [handlerStep] at hstep
    split at hstep
    next hp =>
      cases hstep
      unfold ConnOk at hcok ⊢
      simp only [hp] at hcok ⊢
      rw [hcok.1]
      exact hcok.2
    next => cases hstep

theorem deliveryStep_inv [DecidableEq α] {s t : Delivery α} {action : DeliveryAction α}
    (hpos : 0 < ringSize) (h : DeliveryInv ringSize s) (hok : DeliveryStepOk ringSize s action)
    (hstep : deliveryStep ringSize s action = some t) :
    DeliveryInv ringSize t := by
  cases action with
  | publish type rev payload =>
    cases hstep
    exact publishTo_inv h hok
  | openSocket =>
    unfold deliveryStep at hstep
    dsimp only at hstep
    split at hstep
    next =>
      cases hstep
      exact h
    next hheld =>
      cases hstep
      have hnone : s.conns = [] := hok (eq_false_of_ne_true hheld)
      rw [hnone]
      exact h.connected ⟨rfl, rfl⟩
  | serve index action =>
    unfold deliveryStep at hstep
    dsimp only at hstep
    split at hstep
    next c hc =>
      obtain ⟨c', hc', rfl⟩ := Option.map_eq_some_iff.mp hstep
      have hconn := handlerStep_connOk hpos h (List.mem_of_getElem? hc) hok hc'
      obtain ⟨hzero, honly⟩ := h.only hc
      have hset : s.conns.set index c' = [c'] := by
        rw [hzero, honly]
        rfl
      rw [hset]
      exact h.connected hconn
    next => cases hstep
  | deliver index =>
    unfold deliveryStep at hstep
    dsimp only at hstep
    split at hstep
    next c hc =>
      split at hstep
      next frame rest hw =>
        cases hstep
        exact deliver_inv h hc hw
      next => cases hstep
    next => cases hstep
  | stopped index =>
    unfold deliveryStep at hstep
    dsimp only at hstep
    split at hstep
    next =>
      cases hstep
      exact h.remaining (List.eraseIdx_sublist s.conns index)
    next => cases hstep
  | closed =>
    unfold deliveryStep at hstep
    dsimp only at hstep
    split at hstep
    next =>
      cases hstep
      exact h.remaining (List.Sublist.refl s.conns)
    next => cases hstep
  | restart =>
    cases hstep
    have hseen : s.log.filter (fun e => decide (¬Seen s.applied e)) = [] := by
      refine List.filter_eq_nil_iff.mpr ?_
      intro e he hn
      have hle := (h.hub.numbered.bounds he).2
      have hlast : lastSeq WsEvent.seq s.applied = s.log.length := hok
      exact of_decide_eq_true hn (h.complete.covers e he (by omega))
    refine { hub := hubHolds_empty ringSize
             complete := Complete.empty (hubHolds_empty ringSize).numbered
             bounded := Nat.zero_le _
             saved := fun e he => absurd he List.not_mem_nil
             kept := ?_
             single := Nat.zero_le _
             conn := fun c hc => absurd hc List.not_mem_nil }
    dsimp only
    rw [h.kept, hseen]
    rfl

theorem DeliveryInv.ok {s : Delivery α} (h : DeliveryInv ringSize s) :
    DeliveryOk s where
  complete := h.complete
  caughtUp hc e he := by
    have hfeed := h.conn _ hc
    cases hfeed with
    | done hlen =>
      have hle := (h.hub.numbered.bounds he).2
      exact h.complete.covers e he (by omega)
  kept := h.kept

/-- One step of the hub and its client. -/
def DeliveryStep {α : Type} [DecidableEq α] (ringSize : Nat) :
    Delivery α → DeliveryAction α → Delivery α → Prop :=
  fun s action t => deliveryStep ringSize s action = some t

/-- In every run whose steps meet the condition, what the client saw of each lifetime of the hub is
in order and without a gap, and nothing published is lost. -/
theorem ws_delivery_ok_of_run {α : Type} [DecidableEq α] {actions : List (DeliveryAction α)}
    {s : Delivery α}
    (run : Run (Guarded (DeliveryStep 200) (DeliveryStepOk 200)) {} actions s) : DeliveryOk s := by
  have hinv : DeliveryInv 200 s := by
    refine run.invariant ?_ (deliveryInv_init 200)
    rintro t action u h ⟨hok, hstep⟩
    exact deliveryStep_inv (by omega) h hok hstep
  exact hinv.ok

/-- The state after some actions, if each of them can be taken and meets the condition. -/
def guardedRun {α : Type} [DecidableEq α] (ringSize : Nat)
    (ok : Delivery α → DeliveryAction α → Bool) (s : Delivery α) :
    List (DeliveryAction α) → Option (Delivery α)
  | [] => some s
  | action :: rest =>
    if ok s action then
      (deliveryStep ringSize s action).bind (fun t => guardedRun ringSize ok t rest)
    else none

theorem run_of_guardedRun [DecidableEq α] {ok : Delivery α → DeliveryAction α → Bool}
    {actions : List (DeliveryAction α)} {s t : Delivery α}
    (h : guardedRun ringSize ok s actions = some t) :
    Run (Guarded (DeliveryStep ringSize) (fun s action => ok s action = true)) s actions t := by
  induction actions generalizing s with
  | nil =>
    cases h
    exact Run.start
  | cons action rest ih =>
    unfold guardedRun at h
    split at h
    next hok =>
      obtain ⟨u, hu, hrest⟩ := Option.bind_eq_some_iff.mp h
      exact Run.cons ⟨hok, hu⟩ (ih hrest)
    next => cases h

/-- A client that is replayed one event and subscribed, sent another, and connected again when its
socket went. -/
def reconnectedClient : List (DeliveryAction Unit) :=
  [.publish "link_created" "" (), .openSocket, .serve 0 .hello, .deliver 0, .serve 0 .replay,
    .serve 0 .sendReplay, .serve 0 .subscribe, .publish "link_created" "b" (), .serve 0 (.send 0),
    .deliver 0, .deliver 0, .stopped 0, .closed, .openSocket, .serve 0 .hello, .deliver 0,
    .serve 0 .replay, .serve 0 .subscribe]

theorem ws_delivery_ok_of_reconnect :
    ∃ s : Delivery Unit, s.log.length = 2 ∧ ({ phase := .live } : Conn Unit) ∈ s.conns ∧ DeliveryOk s := by
  have hrun : (guardedRun 200 (fun s action => decide (DeliveryStepOk 200 s action)) {}
      reconnectedClient).map (fun s => (s.log.length, s.conns)) =
        some (2, [{ phase := .live }]) := by decide +kernel
  obtain ⟨s, hs, hshape⟩ := Option.map_eq_some_iff.mp hrun
  have run : Run (Guarded (DeliveryStep 200) (DeliveryStepOk 200)) {} reconnectedClient s :=
    (run_of_guardedRun hs).mono (fun _ _ _ h => ⟨of_decide_eq_true h.1, h.2⟩)
  obtain ⟨hlog, hconns⟩ := Prod.mk.inj hshape
  exact ⟨s, hlog, hconns ▸ List.mem_cons_self, ws_delivery_ok_of_run run⟩

def storedHello : List (DeliveryAction Unit) :=
  [.publish "link_created" "" (), .openSocket, .serve 0 .hello, .deliver 0, .stopped 0, .closed,
    .openSocket, .serve 0 .hello, .serve 0 .replay, .serve 0 .subscribe, .deliver 0]

/-- The client stores the number of the hello, loses the connection before the replay, and is
connected again without the event it never saw. -/
theorem ws_delivery_broken_by_stored_hello :
    ∃ s : Delivery Unit, Run (DeliveryStep 200) {} storedHello s ∧ ¬ DeliveryOk s := by
  have hrun : (guardedRun 200 (fun _ _ => true) {} storedHello).map
      (fun s => (s.conns, s.log.length, s.applied)) = some ([{ phase := .live }], 1, []) := by
    decide +kernel
  obtain ⟨s, hs, hshape⟩ := Option.map_eq_some_iff.mp hrun
  obtain ⟨hconns, hrest⟩ := Prod.mk.inj hshape
  obtain ⟨hlog, happlied⟩ := Prod.mk.inj hrest
  refine ⟨s, (run_of_guardedRun hs).mono (fun _ _ _ h => h.2), ?_⟩
  intro hok
  obtain ⟨e, he⟩ := List.exists_mem_of_length_pos (by omega : 0 < s.log.length)
  obtain ⟨item, hitem, _⟩ := hok.caughtUp (by rw [hconns]; exact List.mem_cons_self) e he
  rw [happlied] at hitem
  exact List.not_mem_nil hitem

end NovaVe
