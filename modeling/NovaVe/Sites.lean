import NovaVe.AttachSteps
import NovaVe.IfaceNames
import NovaVe.Ipam

namespace NovaVe

/-- `bridge_name`, over any function for the 16-bit `_lab_hash`. -/
def bridgeNameOf (labHash : String → Fin 65536) (labId : String) (networkId : Int) : String :=
  String.ofList (bridgeNameText (labHash labId) networkId)

/-- What the ownership file of a bridge records. -/
structure Fingerprint where
  labId : String
  networkId : Int
deriving DecidableEq, Repr

/-- One host with its stored labs: the labs by path, the runtime records by lab id, the bridges with
their ownership files, and the interfaces whose names carry each hash. `placedBy` is the lab that
last put an interface on a bridge, and `given` are the commands, each with the lab whose code gave
it; no operation looks at either. -/
structure Site where
  labs : Dict String Lab
  runtimes : String → Dict Int NodeRuntime := fun _ => Dict.empty
  bridges : List String := []
  fingerprints : Dict String Fingerprint := Dict.empty
  ports : Fin 65536 → Dict Port PortState := fun _ => Dict.empty
  placedBy : Fin 65536 → Port → Option String := fun _ _ => none
  given : List (String × HostCall) := []
  replies : List Reply := []

abbrev SiteM : Type → Type := EStateM Exc Site

/-- The host as the code of a lab with this hash names it. -/
def Site.host (site : Site) (h : Fin 65536) : Host :=
  { bridges := site.bridges, ports := site.ports h }

def Site.world (site : Site) (labHash : String → Fin 65536) (labId : String) : World :=
  { runtimes := site.runtimes labId, host := site.host (labHash labId), replies := site.replies }

/-- What a command of one lab does to the interfaces of the others. -/
def HostCall.elsewhere (c : HostCall) (ports : Dict Port PortState) : Dict Port PortState :=
  match c with
  | .bridgeDel bridge => ports.mapValues (fun state =>
      if state.master = some bridge then { state with master := none } else state)
  | _ => ports

def HostCall.fingerprintsAfter (c : HostCall) (labId : String) (networkId : Int)
    (fingerprints : Dict String Fingerprint) : Dict String Fingerprint :=
  match c with
  | .fingerprintWrite bridge => fingerprints.set bridge { labId := labId, networkId := networkId }
  | .bridgeDel bridge => fingerprints.pop bridge
  | _ => fingerprints

/-- The interface that a command puts on a bridge. -/
def HostCall.placed? : HostCall → Option Port
  | .linkMaster port _ => some port
  | _ => none

/-- A command that goes through, given by the code of a lab. -/
def Site.effect (labHash : String → Fin 65536) (labId : String) (networkId : Int) (site : Site)
    (c : HostCall) : Site :=
  let host := c.effect (site.host (labHash labId))
  { site with
    bridges := host.bridges
    ports := fun h => if h = labHash labId then host.ports else c.elsewhere (site.ports h)
    placedBy := fun h port =>
      if h = labHash labId ∧ c.placed? = some port then some labId else site.placedBy h port
    fingerprints := c.fingerprintsAfter labId networkId site.fingerprints }

/-- The commands that go through, by how each of them ends. -/
def appliedCommands : List Reply → List HostCall → List HostCall
  | _, [] => []
  | replies, c :: rest =>
    if (replies.headD {}).applied then c :: appliedCommands replies.tail rest
    else appliedCommands replies.tail rest

/-- The site after the code of a lab has run to the given world. -/
def Site.absorb (labHash : String → Fin 65536) (labId : String) (networkId : Int) (site : Site)
    (w : World) : Site :=
  let after := (appliedCommands site.replies w.trace).foldl
    (Site.effect labHash labId networkId) site
  { after with
    runtimes := fun id => if id = labId then w.runtimes else site.runtimes id
    given := site.given ++ w.trace.map (fun c => (labId, c))
    replies := w.replies }

/-- Run the code of a lab on the host; `networkId` is the network of the ownership files it writes. -/
def onHost (labHash : String → Fin 65536) (labId : String) (networkId : Int) {α : Type}
    (m : HostM α) : SiteM α := fun site =>
  match m.run (site.world labHash labId) with
  | .ok a w => .ok a (site.absorb labHash labId networkId w)
  | .error e w => .error e (site.absorb labHash labId networkId w)

theorem ends_onHost (labHash : String → Fin 65536) (labId : String) (networkId : Int) {α : Type}
    (m : HostM α) (site : Site) (returns : α → Site → Prop) (raises : Exc → Site → Prop) :
    Ends (onHost labHash labId networkId m) site returns raises ↔
      Ends m (site.world labHash labId)
        (fun a w => returns a (site.absorb labHash labId networkId w))
        (fun e w => raises e (site.absorb labHash labId networkId w)) := by
  unfold Ends onHost EStateM.run
  dsimp only
  cases m (site.world labHash labId) <;> exact Iff.rfl

/-- The commands of a kind, as a relation between worlds. -/
def Issues (ok : HostCall → Prop) (w t : World) : Prop :=
  ∃ commands, t.trace = w.trace ++ commands ∧ ∀ c ∈ commands, ok c

theorem workings_issues (ok : HostCall → Prop) : Workings ok (Issues ok) where
  composes := by
    refine ⟨fun s => ⟨[], (List.append_nil _).symm, fun c hc => (by cases hc)⟩, ?_⟩
    rintro s t u ⟨cs, hst, hcs⟩ ⟨ds, htu, hds⟩
    refine ⟨cs ++ ds, by rw [htu, hst, List.append_assoc], fun c hc => ?_⟩
    rcases List.mem_append.mp hc with hc | hc
    · exact hcs c hc
    · exact hds c hc
  command := fun w c hc => ⟨[c], rfl, fun d hd => List.mem_singleton.mp hd ▸ hc⟩
  warning := fun w _ => ⟨[], (List.append_nil _).symm, fun c hc => (by cases hc)⟩
  plannedMac := fun w _ => ⟨[], (List.append_nil _).symm, fun c hc => (by cases hc)⟩
  record := fun w _ => ⟨[], (List.append_nil _).symm, fun c hc => (by cases hc)⟩

theorem mem_appliedCommands {c : HostCall} {replies : List Reply} {commands : List HostCall}
    (h : c ∈ appliedCommands replies commands) : c ∈ commands := by
  induction commands generalizing replies with
  | nil => cases h
  | cons d rest ih =>
    unfold appliedCommands at h
    split at h
    next =>
      rcases List.mem_cons.mp h with rfl | h
      · exact List.mem_cons_self
      · exact List.mem_cons_of_mem d (ih h)
    next => exact List.mem_cons_of_mem d (ih h)

/-- What every applied command of the kind keeps, a program of such commands keeps. -/
theorem absorb_invariant {labHash : String → Fin 65536} {labId : String} {networkId : Int}
    {ok : HostCall → Prop} {inv : Site → Prop}
    (hcommand : ∀ s c, ok c → inv s → inv (s.effect labHash labId networkId c))
    (hrest : ∀ s runtimes given replies, inv s →
      inv { s with runtimes := runtimes, given := given, replies := replies })
    {site : Site} {w : World} (hw : Issues ok (site.world labHash labId) w) (h : inv site) :
    inv (site.absorb labHash labId networkId w) := by
  obtain ⟨commands, htrace, hok⟩ := hw
  have hall : ∀ c ∈ appliedCommands site.replies w.trace, ok c := by
    intro c hc
    have hmem := mem_appliedCommands hc
    rw [htrace] at hmem
    exact hok c hmem
  have hfold : ∀ (cs : List HostCall), (∀ c ∈ cs, ok c) → ∀ s, inv s →
      inv (cs.foldl (Site.effect labHash labId networkId) s) := by
    intro cs
    induction cs with
    | nil => exact fun _ _ hs => hs
    | cons c rest ih =>
      intro hcs s hs
      exact ih (fun d hd => hcs d (List.mem_cons_of_mem c hd)) _
        (hcommand s c (hcs c List.mem_cons_self) hs)
  exact hrest _ _ _ _ (hfold _ hall _ h)

/-- So does a call of the code of a lab, if its program gives only such commands. -/
theorem frames_onHost {labHash : String → Fin 65536} {labId : String} {networkId : Int}
    {ok : HostCall → Prop} {inv : Site → Prop}
    (hcommand : ∀ s c, ok c → inv s → inv (s.effect labHash labId networkId c))
    (hrest : ∀ s runtimes given replies, inv s →
      inv { s with runtimes := runtimes, given := given, replies := replies })
    {α : Type} {m : HostM α} (hm : Frames (Issues ok) m) :
    Frames (fun s t => inv s → inv t) (onHost labHash labId networkId m) := by
  intro site
  rw [ends_onHost]
  exact (hm _).mono (fun _ _ hw => absorb_invariant hcommand hrest hw)
    (fun _ _ hw => absorb_invariant hcommand hrest hw)

end NovaVe
