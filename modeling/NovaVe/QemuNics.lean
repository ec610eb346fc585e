import NovaVe.CommandFrames
import Mathlib.Logic.Function.Basic

namespace NovaVe

/-- The NICs in the QEMU processes: the devices, their netdevs, and for each node the interface of its
last `device_del` with the number of queries that will still see the device. -/
structure QemuNics where
  devices : Int × Int → Bool
  netdevs : Int × Int → Bool
  pending : Int → Option (Int × Nat)

/-- The answer to a query about the device of the last `device_del`: the guest lets it go in the end. -/
def PolledAnswer (q : QemuNics) (nodeId : Int) (present : Bool) (q' : QemuNics) : Prop :=
  match q.pending nodeId with
  | none => q' = q
  | some (i, 0) => present = false ∧ q' = { q with devices := Function.update q.devices (nodeId, i) false }
  | some (i, k + 1) =>
    present = true ∧ q' = { q with pending := Function.update q.pending nodeId (some (i, k)) }

/-- A command on which the host and QEMU do not fail, and what QEMU has after it: the next reply is
the one for the objects that are there. -/
def Answer (w : World) (q : QemuNics) (c : HostCall) (q' : QemuNics) : Prop :=
  let reply := w.replies.headD {}
  match c with
  | .deviceDel nodeId i =>
    reply.raised = none ∧
      ((q.devices (nodeId, i) = true ∧ reply.qmpError = false ∧ ∃ k < 16,
          q' = { q with pending := Function.update q.pending nodeId (some (i, k)) }) ∨
        (q.devices (nodeId, i) = false ∧ reply.qmpError = true ∧ reply.deviceNotFound = true ∧
          q' = { q with pending := Function.update q.pending nodeId (some (i, 0)) }))
  | .queryPci nodeId =>
    reply.raised = none ∧ reply.qmpError = false ∧ PolledAnswer q nodeId reply.devicePresent q'
  | .netdevDel nodeId i =>
    reply.raised = none ∧
      ((q.netdevs (nodeId, i) = true ∧ reply.qmpError = false ∧
          q' = { q with netdevs := Function.update q.netdevs (nodeId, i) false }) ∨
        (q.netdevs (nodeId, i) = false ∧ reply.qmpError = true ∧ reply.deviceNotFound = true ∧ q' = q))
  | .deviceAdd nodeId i _ =>
    reply.raised = none ∧ q' = { q with devices := Function.update q.devices (nodeId, i) true }
  | .netdevAdd nodeId i =>
    reply.raised = none ∧ q' = { q with netdevs := Function.update q.netdevs (nodeId, i) true }
  | .tapDel port | .linkDel port =>
    q' = q ∧ (((w.host.ports.get? port).isSome ∧ reply.raised = none ∧ reply.applied = true) ∨
      ((w.host.ports.get? port) = none ∧ reply.raised = some .hostNetEinval))
  | _ => reply.raised = none ∧ reply.applied = true ∧ q' = q

/-- Commands one after another on which nothing fails. -/
def Answered : List HostCall → World → QemuNics → QemuNics → Prop
  | [], _, q, q' => q' = q
  | c :: cs, w, q, q' => ∃ between, Answer w q c between ∧ Answered cs (w.after c) between q'

def World.afterAll (w : World) (cs : List HostCall) : World := cs.foldl World.after w

/-- The commands given between two worlds; the registry may have changed as well. -/
structure Gives (w : World) (cs : List HostCall) (t : World) : Prop where
  trace : t.trace = w.trace ++ cs
  replies : t.replies = (w.afterAll cs).replies
  host : t.host = (w.afterAll cs).host

/-- When nothing fails between two worlds, the NICs before and after are so related. -/
def Moves (w t : World) (rel : QemuNics → QemuNics → Prop) : Prop :=
  ∃ cs, Gives w cs t ∧ ∀ q q', Answered cs w q q' → rel q q'

theorem answer_congr {w t : World} (hreplies : t.replies = w.replies) (hhost : t.host = w.host)
    (q : QemuNics) (c : HostCall) (q' : QemuNics) : Answer t q c q' ↔ Answer w q c q' := by
  unfold Answer
  rw [hreplies, hhost]

theorem after_congr {w t : World} (hreplies : t.replies = w.replies) (hhost : t.host = w.host)
    (c : HostCall) :
    (t.after c).replies = (w.after c).replies ∧ (t.after c).host = (w.after c).host := by
  unfold World.after
  dsimp only
  rw [hreplies, hhost]
  exact ⟨rfl, rfl⟩

theorem afterAll_congr {w t : World} (hreplies : t.replies = w.replies) (hhost : t.host = w.host)
    (cs : List HostCall) :
    (t.afterAll cs).replies = (w.afterAll cs).replies ∧
      (t.afterAll cs).host = (w.afterAll cs).host := by
  induction cs generalizing w t with
  | nil => exact ⟨hreplies, hhost⟩
  | cons c rest ih =>
    obtain ⟨hr, hh⟩ := after_congr hreplies hhost c
    exact ih hr hh

theorem answered_congr {w t : World} (hreplies : t.replies = w.replies) (hhost : t.host = w.host)
    (cs : List HostCall) (q q' : QemuNics) : Answered cs t q q' ↔ Answered cs w q q' := by
  induction cs generalizing w t q with
  | nil => exact Iff.rfl
  | cons c rest ih =>
    obtain ⟨hr, hh⟩ := after_congr hreplies hhost c
    unfold Answered
    constructor
    · rintro ⟨between, hanswer, hrest⟩
      exact ⟨between, (answer_congr hreplies hhost _ _ _).mp hanswer, (ih hr hh between).mp hrest⟩
    · rintro ⟨between, hanswer, hrest⟩
      exact ⟨between, (answer_congr hreplies hhost _ _ _).mpr hanswer, (ih hr hh between).mpr hrest⟩

theorem afterAll_append (w : World) (cs ds : List HostCall) :
    w.afterAll (cs ++ ds) = (w.afterAll cs).afterAll ds := List.foldl_append

theorem answered_append {cs ds : List HostCall} {w : World} {q q' : QemuNics}
    (h : Answered (cs ++ ds) w q q') :
    ∃ between, Answered cs w q between ∧ Answered ds (w.afterAll cs) between q' := by
  induction cs generalizing w q with
  | nil => exact ⟨q, rfl, h⟩
  | cons c rest ih =>
    obtain ⟨first, hanswer, hrest⟩ := h
    obtain ⟨between, hcs, hds⟩ := ih hrest
    exact ⟨between, ⟨first, hanswer, hcs⟩, hds⟩

theorem Gives.refl (w : World) : Gives w [] w := ⟨(List.append_nil _).symm, rfl, rfl⟩

theorem Gives.trans {w t u : World} {cs ds : List HostCall} (h : Gives w cs t) (h' : Gives t ds u) :
    Gives w (cs ++ ds) u := by
  obtain ⟨hr, hh⟩ := afterAll_congr h.replies h.host ds
  refine ⟨?_, ?_, ?_⟩
  · rw [h'.trace, h.trace, List.append_assoc]
  · rw [h'.replies, hr, afterAll_append]
  · rw [h'.host, hh, afterAll_append]

theorem Moves.refl (w : World) : Moves w w (fun q q' => q' = q) := by
  refine ⟨[], Gives.refl w, ?_⟩
  intro q q' h
  exact h

theorem Moves.mono {w t : World} {rel rel' : QemuNics → QemuNics → Prop} (h : Moves w t rel)
    (himp : ∀ q q', rel q q' → rel' q q') : Moves w t rel' := by
  obtain ⟨cs, hgives, hrel⟩ := h
  refine ⟨cs, hgives, ?_⟩
  intro q q' hq
  exact himp q q' (hrel q q' hq)

theorem Moves.and {w t : World} {rel rel' : QemuNics → QemuNics → Prop} (h : Moves w t rel)
    (h' : Moves w t rel') : Moves w t (fun q q' => rel q q' ∧ rel' q q') := by
  obtain ⟨cs, hgives, hrel⟩ := h
  obtain ⟨ds, hgives', hrel'⟩ := h'
  have heq : ds = cs := by
    have htrace := hgives'.trace
    rw [hgives.trace] at htrace
    exact (List.append_cancel_left htrace).symm
  subst heq
  exact ⟨ds, hgives, fun q q' hq => ⟨hrel q q' hq, hrel' q q' hq⟩⟩

/-- One part after another. -/
theorem Moves.trans {w t u : World} {first second rel : QemuNics → QemuNics → Prop}
    (h : Moves w t first) (h' : Moves t u second)
    (himp : ∀ q between q', first q between → second between q' → rel q q') : Moves w u rel := by
  obtain ⟨cs, hgives, hfirst⟩ := h
  obtain ⟨ds, hgives', hsecond⟩ := h'
  refine ⟨cs ++ ds, hgives.trans hgives', ?_⟩
  intro q q' hq
  obtain ⟨between, hcs, hds⟩ := answered_append hq
  have hds' := (answered_congr hgives.replies hgives.host ds between q').mpr hds
  exact himp q between q' (hfirst q between hcs) (hsecond between q' hds')

theorem moves_after (w : World) (c : HostCall) :
    Moves w (w.after c) (fun q q' => Answer w q c q') := by
  refine ⟨[c], ⟨rfl, rfl, rfl⟩, ?_⟩
  rintro q q' ⟨between, hanswer, hlast⟩
  rw [show q' = between from hlast]
  exact hanswer

/-- The registry, the warnings and the planned MACs are not looked at. -/
theorem Moves.aside {w t u : World} {rel : QemuNics → QemuNics → Prop} (h : Moves w t rel)
    (htrace : u.trace = t.trace) (hreplies : u.replies = t.replies) (hhost : u.host = t.host) :
    Moves w u rel := by
  obtain ⟨cs, hgives, hrel⟩ := h
  exact ⟨cs, ⟨htrace.trans hgives.trace, hreplies.trans hgives.replies, hhost.trans hgives.host⟩, hrel⟩

theorem Moves.edit {w t : World} {rel : QemuNics → QemuNics → Prop} (h : Moves w t rel) (nodeId : Int)
    (f : NodeRuntime → NodeRuntime) : Moves w (t.editRuntime nodeId f) rel := h.aside rfl rfl rfl

/-- A command, with what is known when nothing fails. -/
theorem moves_call (c : HostCall) (w : World) :
    Ends (call c) w
      (fun reply t => reply = w.replies.headD {} ∧ reply.raised = none ∧ t = w.after c)
      (fun e t => (w.replies.headD {}).raised = some e ∧ t = w.after c) := by
  rw [ends_call]
  cases hr : (w.replies.headD {}).raised with
  | none => exact ⟨rfl, rfl, rfl⟩
  | some e => exact ⟨rfl, rfl⟩

theorem moves_run (c : HostCall) (w : World) :
    Ends (run c) w (fun _ t => (w.replies.headD {}).raised = none ∧ t = w.after c)
      (fun e t => (w.replies.headD {}).raised = some e ∧ t = w.after c) := by
  unfold run
  rw [ends_bind]
  refine (moves_call c w).mono ?_ ?_
  · rintro reply t ⟨hreply, hraised, ht⟩
    rw [ends_pure, ← hreply]
    exact ⟨hraised, ht⟩
  · intro e t h
    exact h

end NovaVe
