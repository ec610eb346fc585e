import Mathlib.Data.List.Nodup
import Mathlib.Data.List.Perm.Basic
import NovaVe.HotAttachFrames
import NovaVe.Runs

namespace NovaVe

/-- The slots of the attachments of a record. -/
def NodeRuntime.attachedSlots (runtime : NodeRuntime) : List Int :=
  runtime.attachments.filterMap Attachment.slot

/-- The pool accounts for the attachments: each slot that is taken belongs to one of them. -/
structure NodeRuntime.SlotsFit (runtime : NodeRuntime) : Prop where
  exact : runtime.attachedSlots.Perm runtime.allocatedSlots
  distinct : runtime.allocatedSlots.Nodup
  inPool : ∀ slot ∈ runtime.allocatedSlots, 0 ≤ slot ∧ slot < runtime.maxNics

/-- The first entry that meets a test, before the others. -/
theorem perm_cons_eraseP {α : Type} {p : α → Bool} {xs : List α} {a : α}
    (h : xs.find? p = some a) : xs.Perm (a :: xs.eraseP p) := by
  induction xs with
  | nil => cases h
  | cons x rest ih =>
    by_cases hx : p x = true
    · rw [List.find?_cons_of_pos hx] at h
      cases h
      rw [List.eraseP_cons_of_pos hx]
    · rw [List.find?_cons_of_neg hx] at h
      rw [List.eraseP_cons_of_neg hx]
      exact ((ih h).cons x).trans (List.Perm.swap a x _)

theorem NodeRuntime.SlotsFit.congr {r r' : NodeRuntime} (h : r.SlotsFit)
    (hattached : r'.attachedSlots = r.attachedSlots)
    (hallocated : r'.allocatedSlots = r.allocatedSlots) (hmax : r'.maxNics = r.maxNics) :
    r'.SlotsFit := by
  refine ⟨?_, ?_, ?_⟩
  · rw [hattached, hallocated]
    exact h.exact
  · rw [hallocated]
    exact h.distinct
  · rw [hallocated, hmax]
    exact h.inPool

theorem attachedSlots_append {r r' : NodeRuntime} {e : Attachment}
    (h : r'.attachments = r.attachments ++ [e]) :
    r'.attachedSlots = r.attachedSlots ++ e.slot.toList := by
  unfold NodeRuntime.attachedSlots
  rw [h, List.filterMap_append]
  cases hslot : e.slot with
  | none => simp [hslot]
  | some slot => simp [hslot]

theorem NodeRuntime.SlotsFit.withBootAttachment {r : NodeRuntime} (h : r.SlotsFit)
    (source : NicSource) (nodeId networkId i : Int) (bridge : String) :
    (r.withQemuAttachment source nodeId networkId i bridge none).SlotsFit := by
  refine h.congr ?_ rfl rfl
  rw [attachedSlots_append (r := r) rfl]
  exact List.append_nil _

/-- A hot-plug attachment takes a free slot of the pool. -/
theorem NodeRuntime.SlotsFit.withHotplugAttachment {r : NodeRuntime} (h : r.SlotsFit) {slot : Int}
    (hfree : r.FreeSlot slot) (source : NicSource) (nodeId networkId i : Int) (bridge : String) :
    ((r.reserveSlot slot).withQemuAttachment source nodeId networkId i bridge
      (some slot)).SlotsFit := by
  obtain ⟨hlow, hhigh, hnot⟩ := hfree
  have hattached : ((r.reserveSlot slot).withQemuAttachment source nodeId networkId i bridge
      (some slot)).attachedSlots = r.attachedSlots ++ [slot] := by
    rw [attachedSlots_append (r := r) rfl]
    rfl
  have hallocated : ((r.reserveSlot slot).withQemuAttachment source nodeId networkId i bridge
      (some slot)).allocatedSlots = r.allocatedSlots ++ [slot] := if_neg hnot
  refine ⟨?_, ?_, ?_⟩
  · rw [hattached, hallocated]
    exact h.exact.append_right [slot]
  · rw [hallocated]
    refine List.nodup_append.mpr ⟨h.distinct, List.nodup_singleton slot, ?_⟩
    intro x hx y hy he
    have hyslot := List.mem_singleton.mp hy
    subst hyslot
    exact hnot (he ▸ hx)
  · rw [hallocated]
    intro s hs
    rcases List.mem_append.mp hs with hs | hs
    · exact h.inPool s hs
    · have hslot := List.mem_singleton.mp hs
      subst hslot
      exact ⟨hlow, hhigh⟩

theorem NodeRuntime.QemuAttached.slotsFit {r r' : NodeRuntime} {source : NicSource}
    {nodeId networkId i : Int} {bridge : String}
    (hr : r.QemuAttached r' source nodeId networkId i bridge) (h : r.SlotsFit) : r'.SlotsFit := by
  rcases hr with ⟨_, rfl⟩ | ⟨_, slot, hfree, rfl⟩
  · exact h.withBootAttachment source nodeId networkId i bridge
  · exact h.withHotplugAttachment hfree source nodeId networkId i bridge

/-- A detach gives back the slot of the entry that it drops. -/
theorem NodeRuntime.SlotsFit.withoutQemuAttachment {r : NodeRuntime} (h : r.SlotsFit) {i : Int}
    {target : Attachment} (htarget : r.attachment? i = some target) (tap : Port) (forced : Bool) :
    ((r.withoutQemuAttachment i target tap forced).bump i).SlotsFit := by
  have hperm := (perm_cons_eraseP htarget).filterMap Attachment.slot
  have hrest := hperm.symm.trans h.exact
  cases hslot : target.slot with
  | none =>
    rw [List.filterMap_cons_none hslot] at hrest
    have hallocated : ((r.withoutQemuAttachment i target tap forced).bump i).allocatedSlots =
        r.allocatedSlots := by
      unfold NodeRuntime.bump NodeRuntime.withoutQemuAttachment
      rw [hslot]
    refine ⟨?_, ?_, ?_⟩
    · rw [hallocated]
      exact hrest
    · rw [hallocated]
      exact h.distinct
    · rw [hallocated]
      exact h.inPool
  | some slot =>
    rw [List.filterMap_cons_some hslot] at hrest
    have hallocated : ((r.withoutQemuAttachment i target tap forced).bump i).allocatedSlots =
        r.allocatedSlots.erase slot := by
      rw [h.distinct.erase_eq_filter]
      unfold NodeRuntime.bump NodeRuntime.withoutQemuAttachment
      rw [hslot]
      apply List.filter_congr
      intro s _
      by_cases hs : s = slot
      · simp [hs]
      · simp [hs]
    refine ⟨?_, ?_, ?_⟩
    · rw [hallocated]
      have herased := hrest.erase slot
      rw [List.erase_cons_head] at herased
      exact herased
    · rw [hallocated]
      exact h.distinct.erase slot
    · rw [hallocated]
      intro s hs
      exact h.inPool s (List.mem_of_mem_erase hs)

/-- A rollback keeps the slots, so that the entries which it drops must have none. -/
theorem NodeRuntime.SlotsFit.rolledBackQemu {r : NodeRuntime} (h : r.SlotsFit) {i : Int}
    (nodeId : Int) (hnone : ∀ entry ∈ r.attachments, entry.interfaceIndex = i → entry.slot = none) :
    (r.rolledBackQemu nodeId i).SlotsFit := by
  refine h.congr ?_ rfl rfl
  show (r.attachments.filter (fun entry => !onInterface i entry)).filterMap Attachment.slot =
    r.attachments.filterMap Attachment.slot
  rw [List.filterMap_filter]
  apply List.filterMap_congr
  intro entry hentry
  by_cases hi : entry.interfaceIndex = i
  · simp [onInterface, hi, hnone entry hentry hi]
  · simp [onInterface, hi]

/-- The operations on the NICs of one QEMU node. A hot-add and a hot-remove may fail, and the second
may end in its forced fallback, as the replies say; a `create_link` that fails at its other endpoint
rolls the node's endpoint back. -/
inductive SlotAction
  | hotAdd (source : NicSource) (networkId interfaceIndex : Int) (bridge : String)
  | hotRemove (interfaceIndex : Int) (expectedGeneration : Option Int)
  | rollback (interfaceIndex : Int)

structure SlotCall where
  action : SlotAction
  replies : List Reply := []

def SlotAction.run (nodeId : Int) : SlotAction → HostM Unit
  | .hotAdd source networkId interfaceIndex bridge => do
    let _ ← attachQemuInterface source nodeId networkId interfaceIndex bridge
    pure ()
  | .hotRemove interfaceIndex expectedGeneration => do
    let _ ← detachQemuInterface nodeId interfaceIndex expectedGeneration
    pure ()
  | .rollback interfaceIndex => rollbackTarget .qemu nodeId interfaceIndex

/-- The world after an operation has come to its end. -/
def slotStep (nodeId : Int) (w : World) (c : SlotCall) : World :=
  endState (c.action.run nodeId) { w with replies := c.replies }

/-- The rollback keeps to the account when the entries it drops have no slot. -/
def SlotOk (nodeId : Int) (w : World) (c : SlotCall) : Prop :=
  match c.action with
  | .rollback interfaceIndex =>
    ∀ r, w.runtimes.get? nodeId = some r → r.alive = true →
      ∀ entry ∈ r.attachments, entry.interfaceIndex = interfaceIndex → entry.slot = none
  | _ => True

/-- What the account of the PCIe slots promises of the record of a node. A scan that finds no slot
has seen every root port occupied exactly when it has seen the port of every attachment occupied. -/
structure NodeRuntime.SlotsSound (runtime : NodeRuntime) (nodeId : Int) : Prop where
  distinct : runtime.allocatedSlots.Nodup
  exact : ∀ slot, slot ∈ runtime.allocatedSlots ↔
    ∃ entry ∈ runtime.attachments, entry.slot = some slot
  inPool : ∀ slot ∈ runtime.allocatedSlots, 0 ≤ slot ∧ slot < runtime.maxNics
  unshared : (runtime.attachments.filterMap Attachment.slot).Nodup
  refused : ∀ w : World,
    Ends (findFreePcieSlot nodeId runtime) w
      (fun found _ => found = none →
        ((∀ slot, 0 ≤ slot → slot < runtime.maxNics → slot ∈ (w.replies.headD {}).occupied) ↔
          ∀ entry ∈ runtime.attachments, ∀ slot, entry.slot = some slot →
            slot ∈ (w.replies.headD {}).occupied))
      (fun _ _ => True)

/-- The records of the node fit their pools. -/
def World.SlotsFit (w : World) (nodeId : Int) : Prop :=
  ∀ r, w.runtimes.get? nodeId = some r → r.SlotsFit

theorem World.SlotsFit.of_get? {w t : World} {nodeId : Int} (h : w.SlotsFit nodeId)
    (ht : t.runtimes.get? nodeId = w.runtimes.get? nodeId) : t.SlotsFit nodeId := by
  intro r hr
  rw [ht] at hr
  exact h r hr

theorem World.SlotsFit.of_pop {w t : World} {nodeId : Int}
    (ht : t.runtimes = w.runtimes.pop nodeId) : t.SlotsFit nodeId := by
  intro r hr
  rw [ht, Dict.get?_pop, if_pos rfl] at hr
  cases hr

theorem World.SlotsFit.of_set {w t : World} {nodeId : Int} {r' : NodeRuntime}
    (ht : t.runtimes = w.runtimes.set nodeId r') (h : r'.SlotsFit) : t.SlotsFit nodeId := by
  intro r hr
  rw [ht, Dict.get?_set_self] at hr
  cases hr
  exact h

theorem Untouched.slotsFit {w t : World} {nodeId : Int} (ht : Untouched w t nodeId)
    (h : w.SlotsFit nodeId) : t.SlotsFit nodeId := by
  rcases ht with hsame | ⟨_, _, _, hpop⟩
  · exact h.of_get? (by rw [hsame])
  · exact World.SlotsFit.of_pop hpop

theorem hotAdd_slotsFit {w : World} {nodeId : Int} (h : w.SlotsFit nodeId) (source : NicSource)
    (networkId i : Int) (bridge : String) :
    (endState (attachQemuInterface source nodeId networkId i bridge) w).SlotsFit nodeId := by
  refine @Ends.endState _ _ _ _ _ (fun t : World => t.SlotsFit nodeId) ?_
  refine (attachQemuInterface_spec workings_true source (fun _ _ _ => trivial) networkId w).mono
    (fun stamp t ht => ?_) (fun _ t ht => ht.2.slotsFit h)
  obtain ⟨r, hget, _, hcase⟩ := ht.2
  rcases hcase with ⟨_, _, _, _, hsame⟩ | ⟨_, _, r', hr', hset⟩
  · exact h.of_get? (by rw [hsame])
  · exact World.SlotsFit.of_set hset (hr'.2.slotsFit (h r hget))

theorem hotRemove_slotsFit {w : World} {nodeId : Int} (h : w.SlotsFit nodeId) (i : Int)
    (expectedGeneration : Option Int) :
    (endState (detachQemuInterface nodeId i expectedGeneration) w).SlotsFit nodeId := by
  refine @Ends.endState _ _ _ _ _ (fun t : World => t.SlotsFit nodeId) ?_
  refine (detachQemuInterface_spec workings_true expectedGeneration trivial
    (fun r entry _ _ _ => frames_detachNic workings_true.toCommands.sameRuntimes
      (fun _ => ⟨⟨trivial, trivial, trivial⟩, trivial⟩) trivial trivial)).mono
    (fun state t ht => ?_) (fun _ t ht => h.of_get? (by rw [ht.2]))
  rcases ht.2 with ⟨_, hsame, _⟩ | ⟨r, entry, hget, _, hentry, hcase⟩
  · exact h.of_get? (by rw [hsame])
  · rcases hcase with ⟨_, _, hsame⟩ | ⟨_, _, r', hr', hset⟩
    · exact h.of_get? (by rw [hsame])
    · obtain ⟨forced, rfl⟩ := hr'
      exact World.SlotsFit.of_set hset ((h r hget).withoutQemuAttachment hentry _ forced)

theorem rollback_slotsFit {w : World} {nodeId i : Int} (h : w.SlotsFit nodeId)
    (hnone : ∀ r, w.runtimes.get? nodeId = some r → r.alive = true →
      ∀ entry ∈ r.attachments, entry.interfaceIndex = i → entry.slot = none) :
    (endState (rollbackTarget .qemu nodeId i) w).SlotsFit nodeId := by
  refine @Ends.endState _ _ _ _ _ (fun t : World => t.SlotsFit nodeId) ?_
  refine (rollbackTarget_spec workings_true .qemu (fun _ _ _ => trivial)).mono (fun _ t ht => ?_)
    (fun _ t ht => h.of_get? (by rw [ht.2]))
  have hback := ht.2
  unfold RolledBack at hback
  cases hget : w.runtimes.get? nodeId with
  | none =>
    rw [hget] at hback
    exact h.of_get? (by rw [hback])
  | some r =>
    rw [hget] at hback
    dsimp only at hback
    split at hback
    next halive =>
      have hrecord : r.rolledBack .qemu nodeId i = r.rolledBackQemu nodeId i := if_neg (by simp)
      rw [hrecord] at hback
      exact World.SlotsFit.of_set hback ((h r hget).rolledBackQemu nodeId (hnone r hget halive))
    next => exact World.SlotsFit.of_pop hback

theorem endState_unit {α : Type} (m : HostM α) (w : World) :
    endState (do
      let _ ← m
      pure () : HostM Unit) w = endState m w := by
  have hsame : Ends (do
      let _ ← m
      pure () : HostM Unit) w (fun _ t => t = endState m w) (fun _ t => t = endState m w) := by
    rw [ends_bind]
    unfold Ends endState
    cases m.run w with
    | ok a t => rfl
    | error e t => rfl
  exact @Ends.endState _ _ _ _ _ (fun t => t = endState m w) hsame

theorem slotStep_slotsFit {nodeId : Int} {w : World} (h : w.SlotsFit nodeId) {c : SlotCall}
    (hok : SlotOk nodeId w c) : (slotStep nodeId w c).SlotsFit nodeId := by
  obtain ⟨action, replies⟩ := c
  have hw : World.SlotsFit { w with replies := replies } nodeId := h
  cases action with
  | hotAdd source networkId i bridge =>
    have hafter := hotAdd_slotsFit hw source networkId i bridge
    rw [← endState_unit] at hafter
    exact hafter
  | hotRemove i expectedGeneration =>
    have hafter := hotRemove_slotsFit hw i expectedGeneration
    rw [← endState_unit] at hafter
    exact hafter
  | rollback i => exact rollback_slotsFit hw hok

/-- A scan that finds nothing has each slot of the pool occupied or on the record. -/
theorem NodeRuntime.SlotsFit.refused {r : NodeRuntime} (h : r.SlotsFit) (nodeId : Int) (w : World) :
    Ends (findFreePcieSlot nodeId r) w
      (fun found _ => found = none →
        ((∀ slot, 0 ≤ slot → slot < r.maxNics → slot ∈ (w.replies.headD {}).occupied) ↔
          ∀ entry ∈ r.attachments, ∀ slot, entry.slot = some slot →
            slot ∈ (w.replies.headD {}).occupied))
      (fun _ _ => True) := by
  have hslots : ∀ slot, slot ∈ r.allocatedSlots ↔
      ∃ entry ∈ r.attachments, entry.slot = some slot := by
    intro slot
    rw [← h.exact.mem_iff]
    exact List.mem_filterMap
  unfold findFreePcieSlot
  rw [ends_bind, ends_tryCatch, ends_call]
  split
  next => split <;> trivial
  next =>
    split
    next => trivial
    next =>
      rw [ends_pure]
      intro hnone
      constructor
      · intro hall entry hentry slot hslot
        obtain ⟨hlow, hhigh⟩ := h.inPool slot ((hslots slot).mpr ⟨entry, hentry, hslot⟩)
        exact hall slot hlow hhigh
      · intro hshown slot hlow hhigh
        rcases List.mem_append.mp (freeSlot_none hnone hlow hhigh) with hoccupied | hallocated
        · exact hoccupied
        · obtain ⟨entry, hentry, hslot⟩ := (hslots slot).mp hallocated
          exact hshown entry hentry slot hslot

theorem NodeRuntime.SlotsFit.sound {r : NodeRuntime} (h : r.SlotsFit) (nodeId : Int) :
    r.SlotsSound nodeId := by
  refine ⟨h.distinct, fun slot => ?_, h.inPool, ?_, h.refused nodeId⟩
  · rw [← h.exact.mem_iff]
    exact List.mem_filterMap
  · exact h.exact.nodup_iff.mpr h.distinct

theorem startedQemuRuntime_slotsFit (node : Node) (attachments : List BootAttachment)
    (maxNics : Int) (hotplugCapable : Bool) :
    (startedQemuRuntime node attachments maxNics hotplugCapable).SlotsFit := by
  have hattached : (startedQemuRuntime node attachments maxNics hotplugCapable).attachedSlots =
      [] := by
    unfold NodeRuntime.attachedSlots startedQemuRuntime
    rw [List.filterMap_map]
    exact List.filterMap_eq_nil_iff.mpr (fun _ _ => rfl)
  refine ⟨?_, List.nodup_nil, ?_⟩
  · rw [hattached]
    exact List.Perm.nil
  · intro slot hslot
    cases hslot

/-- From the start of a QEMU node, in a run whose rollbacks drop only entries without a slot, the
pool of the node accounts for its attachments after each operation. -/
theorem pcie_slots_sound {node : Node} {attachments : List BootAttachment} {maxNics : Int}
    {hotplugCapable : Bool} {start w : World} {calls : List SlotCall}
    (hstart : start.runtimes.get? node.id =
      some (startedQemuRuntime node attachments maxNics hotplugCapable))
    (run : Run (Guarded (stepOf (slotStep node.id)) (SlotOk node.id)) start calls w) :
    ∀ r, w.runtimes.get? node.id = some r → r.SlotsSound node.id := by
  have hfit : start.SlotsFit node.id := by
    intro r hr
    rw [hstart] at hr
    cases hr
    exact startedQemuRuntime_slotsFit node attachments maxNics hotplugCapable
  have hafter := @Run.guarded_invariant _ _ _ _ (fun w : World => w.SlotsFit node.id)
    (fun _ _ h hok => slotStep_slotsFit h hok) _ _ _ run hfit
  intro r hr
  exact (hafter r hr).sound node.id

def slotNode : Node := { id := 1, name := "r", type := .qemu, ethernet := 1 }

def slotStart : World :=
  { runtimes := Dict.empty.set 1 (startedQemuRuntime slotNode [] 2 true)
    host := { bridges := ["br"] } }

def slotSource : NicSource := ⟨fun _ => none, fun _ => "", fun _ _ => ""⟩

/-- The boot NIC is attached and rolled back, another NIC comes and goes. -/
def slotCalls : List SlotCall :=
  [⟨.hotAdd slotSource 1 0 "br", []⟩, ⟨.hotAdd slotSource 1 1 "br", []⟩, ⟨.rollback 0, []⟩,
    ⟨.hotRemove 1 (some 1), []⟩]

theorem boot_rollback_sound :
    (∃ r, (slotCalls.foldl (slotStep 1) slotStart).runtimes.get? 1 = some r ∧
        r.attachments = []) ∧
      ∀ r, (slotCalls.foldl (slotStep 1) slotStart).runtimes.get? 1 = some r →
        r.SlotsSound 1 := by
  have hback : SlotOk 1 ((slotCalls.take 2).foldl (slotStep 1) slotStart)
      ⟨.rollback 0, []⟩ := by
    have hentries : (((slotCalls.take 2).foldl (slotStep 1) slotStart).runtimes.get? 1).map
        (fun r => r.attachments.map (fun e => (e.interfaceIndex, e.slot))) =
          some [(0, none), (1, some 1)] := by decide +kernel
    intro r hget _ entry hentry hindex
    rw [hget] at hentries
    have hmem : (entry.interfaceIndex, entry.slot) ∈
        [((0 : Int), (none : Option Int)), (1, some 1)] := by
      have hmap := Option.some.inj hentries
      rw [← hmap]
      exact List.mem_map_of_mem hentry
    rw [hindex] at hmem
    simpa using hmem
  have run : Run (Guarded (stepOf (slotStep 1)) (SlotOk 1)) slotStart slotCalls
      (slotCalls.foldl (slotStep 1) slotStart) :=
    Run.cons ⟨trivial, rfl⟩ (Run.cons ⟨trivial, rfl⟩ (Run.cons ⟨hback, rfl⟩
      (Run.single ⟨trivial, rfl⟩)))
  refine ⟨?_, @pcie_slots_sound slotNode [] 2 true slotStart _ _ rfl run⟩
  have hempty : ((slotCalls.foldl (slotStep 1) slotStart).runtimes.get? 1).map
      NodeRuntime.attachments = some [] := by decide +kernel
  cases hget : (slotCalls.foldl (slotStep 1) slotStart).runtimes.get? 1 with
  | none =>
    rw [hget] at hempty
    cases hempty
  | some r =>
    rw [hget] at hempty
    exact ⟨r, rfl, Option.some.inj hempty⟩

/-- The rollback of a hot-plug NIC drops its entry and leaves its slot in the pool. -/
theorem rollback_leaks_slot :
    ¬ ∀ r, ([SlotCall.mk (.hotAdd slotSource 1 1 "br") [], ⟨.rollback 1, []⟩].foldl (slotStep 1)
      slotStart).runtimes.get? 1 = some r → r.SlotsSound 1 := by
  intro h
  have hleft : (([SlotCall.mk (.hotAdd slotSource 1 1 "br") [], ⟨.rollback 1, []⟩].foldl
      (slotStep 1) slotStart).runtimes.get? 1).map (fun r => (r.allocatedSlots, r.attachments)) =
        some ([1], []) := by decide +kernel
  cases hget : ([SlotCall.mk (.hotAdd slotSource 1 1 "br") [], ⟨.rollback 1, []⟩].foldl
      (slotStep 1) slotStart).runtimes.get? 1 with
  | none =>
    rw [hget] at hleft
    cases hleft
  | some r =>
    rw [hget] at hleft
    have hpair := Option.some.inj hleft
    have hallocated : r.allocatedSlots = [1] := congrArg Prod.fst hpair
    have hattachments : r.attachments = [] := congrArg Prod.snd hpair
    have hslot : (1 : Int) ∈ r.allocatedSlots := by
      rw [hallocated]
      exact List.mem_singleton.mpr rfl
    obtain ⟨entry, hentry, _⟩ := ((h r hget).exact 1).mp hslot
    rw [hattachments] at hentry
    cases hentry

end NovaVe
