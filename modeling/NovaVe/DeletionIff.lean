import NovaVe.DeletionRestores

namespace NovaVe

variable {env : DeletionEnv} {linkId : String} {lab : Lab} {target : Link}

/-- Where no file step raises the deletion goes on to its detach, from the same lab files. -/
theorem ends_deleteLink {s : LinkDeletion} (hlab : s.labs.get? env.path = some lab)
    (hfound : findLink lab linkId = some target) (returns : Unit → LinkDeletion → Prop)
    (raises : DeletionError → LinkDeletion → Prop) :
    Ends (env.deleteLink linkId) s returns raises ↔
      if s.faults.headD false then raises .file { s with faults := s.faults.tail }
      else if s.faults.tail.headD false then raises .file { s with faults := s.faults.tail.tail }
      else Ends (detachEndpoints target.expectedGeneration? none target.ifaces) s.world
        (fun _ w => Ends (do env.releaseAddress target; env.removeFromLab linkId)
          { s with world := w, faults := s.faults.tail.tail } returns raises)
        (fun e w => raises (.host e) { s with world := w, faults := s.faults.tail.tail }) := by
  unfold DeletionEnv.deleteLink
  rw [ends_bind, ends_readLab, hlab]
  split
  next => exact Iff.rfl
  next =>
    dsimp only
    rw [hfound]
    dsimp only
    rw [ends_bind, ends_fileStep]
    split
    next => exact Iff.rfl
    next => rw [ends_bind, ends_hostPart]

/-- Phases 3 and 4: nothing is left of the link, or a file step raises. -/
theorem releaseAndRemove_spec {s u : LinkDeletion} (h : Deletable env linkId s lab target)
    (hlabs : u.labs = s.labs) :
    Ends (do env.releaseAddress target; env.removeFromLab linkId) u
      (fun _ v => (∀ lab, v.labs.get? env.path = some lab → findLink lab linkId = none) ∧
        (∀ ip place, AddressPlace env s target ip place → ∀ network,
          networkAt v.labs place = some network → ip ∉ network.runtime.usedIps) ∧
        Shedding (PortsOf target.ifaces) u.world v.world ∧
        Bypassed target.ifaces u.world v.world)
      (fun _ v => u.faults ≠ [] ∧ ((v.world = u.world ∧ (v.labs = s.labs ∨
          ∃ ip place, AddressPlace env s target ip place ∧ ∀ network,
            networkAt v.labs place = some network → ip ∉ network.runtime.usedIps)) ∨
        ∀ lab, v.labs.get? env.path = some lab → findLink lab linkId = none)) := by
  rw [ends_bind]
  refine (releaseAddress_spec h hlabs).mono ?_ ?_
  · intro _ v hv
    obtain ⟨hworld, hfaults, hkept, ⟨data, hdata, hlinks⟩, hfree⟩ := hv
    have hfound : findLink data linkId = some target := by
      rw [findLink_congr hlinks]
      exact h.found
    have hids : data.linkIds.Nodup := by
      unfold Lab.linkIds
      rw [hlinks]
      exact h.ids
    have hsole : ∀ l ∈ data.links, l.id ≠ linkId → ∀ key ∈ l.ifaces, key ∉ target.ifaces := by
      rw [hlinks]
      exact h.sole
    have hunlisted : ∀ (t : LinkDeletion),
        t.labs = v.labs.set env.path (removeLink data target linkId) →
        ∀ lab, t.labs.get? env.path = some lab → findLink lab linkId = none := by
      intro t ht after hafter
      rw [ht, Dict.get?_set_self] at hafter
      rw [← Option.some.inj hafter]
      exact findLink_removeLink hids
    refine (removeFromLab_spec hdata hfound hids hsole).mono ?_ ?_
    · intro _ t ht
      obtain ⟨hset, hshed⟩ := ht
      refine ⟨hunlisted t hset, ?_, ?_⟩
      · intro ip place hplace network hnetwork
        rw [hset] at hnetwork
        exact hfree ip place hplace network (networkAt_removed hdata hnetwork)
      · rw [← hworld]
        exact hshed
    · intro _ t ht
      obtain ⟨hne, hcase⟩ := ht
      refine ⟨fun hnil => hne (hfaults hnil), ?_⟩
      rcases hcase with ⟨hsame, hlabs⟩ | hset
      · refine Or.inl ⟨hsame.trans hworld, ?_⟩
        cases haddress : target.address? with
        | none => exact Or.inl (hlabs.trans (hkept haddress))
        | some address =>
          obtain ⟨place, _, htarget, _⟩ := h.reserved address.1 address.2 haddress
          have hplace : AddressPlace env s target address.2 place := ⟨address.1, haddress, htarget⟩
          refine Or.inr ⟨address.2, place, hplace, ?_⟩
          rw [hlabs]
          exact hfree address.2 place hplace
      · right
        exact hunlisted t hset
  · intro _ v hv
    exact ⟨hv.1, Or.inl ⟨hv.2.1, Or.inl hv.2.2⟩⟩

/-- Where the generations agree, the endpoints are those that the attach of the link has left. -/
theorem running_of_agree {s : LinkDeletion} (h : Deletable env linkId s lab target)
    (hagree : GenerationsAgree s target) :
    AllRunning target.expectedGeneration? s.world target.ifaces := by
  intro key hkey
  obtain ⟨r, entry, hattached⟩ := h.attached key hkey
  exact ⟨r, entry, hattached, hagree key hkey r entry hattached⟩

/-- From lab files and a registry that are those of before, a deletion without failure leaves
nothing. -/
theorem delete_retried {s t : LinkDeletion} (h : Deletable env linkId s lab target)
    (hagree : GenerationsAgree s target) (hlabs : t.labs = s.labs)
    (hruntimes : t.world.runtimes = s.world.runtimes) :
    Retries env linkId s target t := by
  intro replies
  have hlab : t.labs.get? env.path = some lab := by
    rw [hlabs]
    exact h.stored
  have hrunning : ∀ key ∈ target.ifaces, ∀ r entry, Attached s.world key r entry →
      Running target.expectedGeneration? { t.world with replies := replies } key r entry :=
    fun key hkey r entry hattached =>
      running_same ⟨hattached, hagree key hkey r entry hattached⟩ hruntimes
  have hall : AllRunning target.expectedGeneration? { t.world with replies := replies }
      target.ifaces :=
    (running_of_agree h hagree).same hruntimes
  apply (ends_deleteLink (s := { t with world := { t.world with replies := replies }, faults := [] })
    hlab h.found _ _).mpr
  rw [if_neg (by simp), if_neg (by simp)]
  refine ((detachEndpoints_moves (PortsOf target.ifaces) h.distinct (mem_portsOf _) hall none).and
    (detachEndpoints_detached h.distinct hall none)).mono ?_ (fun _ w hw => hw.1.2 rfl)
  intro _ w hw
  obtain ⟨⟨_, hfreed⟩, _, _, hdetached⟩ := hw
  refine (releaseAndRemove_spec (u := { t with world := w, faults := [] }) h hlabs).mono ?_
    (fun _ _ hv => (hv.1 rfl).elim)
  intro _ v hv
  obtain ⟨hunlisted, hunreserved, hshed, hbypassed⟩ := hv
  refine ⟨fun key hkey => hbypassed.gone key hkey (hdetached key hkey), ?_⟩
  refine hfreed.trans (hshed.nics) ?_
  intro q between q' hbefore hsheds
  refine ⟨hunlisted, hunreserved, ?_⟩
  intro key hkey r entry hattached
  have hgone := hbefore key hkey r entry (hrunning key hkey r entry hattached)
  exact hgone.later (mem_portsOf _ key hkey r.kind) hshed.host hsheds

/-- A stale endpoint stays, whatever the deletion after. -/
theorem not_retries_of_stale {s t : LinkDeletion} (h : Deletable env linkId s lab target)
    {key : Int × Int} (hkey : key ∈ target.ifaces)
    (hstale : StaleEndpoint target.expectedGeneration? s.world key) (hlabs : t.labs = s.labs)
    (hruntimes : t.world.runtimes = s.world.runtimes) :
    ¬ Retries env linkId s target t := by
  intro hretries
  have hlab : t.labs.get? env.path = some lab := by
    rw [hlabs]
    exact h.stored
  have hkept : Ends (env.deleteLink linkId)
      { t with world := { t.world with replies := [] }, faults := [] }
      (fun _ u => HotEntry u.world key) (fun _ _ => False) := by
    refine (ends_deleteLink
      (s := { t with world := { t.world with replies := [] }, faults := [] }) hlab h.found _ _).mpr ?_
    rw [if_neg (by simp), if_neg (by simp)]
    refine (detachEndpoints_stale (w := { t.world with replies := [] }) h.distinct
      (h.attached.same hruntimes) rfl (hstale.same hruntimes)).mono ?_ (fun _ _ hf => hf)
    intro _ w hw
    refine (releaseAndRemove_spec (u := { t with world := w, faults := [] }) h hlabs).mono ?_
      (fun _ _ hv => (hv.1 rfl).elim)
    intro _ v hv
    obtain ⟨r, entry, hattached, _, hhot⟩ := hw
    exact hv.2.2.2.held key hkey
      ⟨r, entry, hattached.record, hattached.alive, hattached.distinct, hattached.attached, hhot⟩
  have hnever : Ends (env.deleteLink linkId)
      { t with world := { t.world with replies := [] }, faults := [] }
      (fun _ _ => False) (fun _ _ => False) := by
    refine (hkept.and (hretries [])).mono ?_ (fun _ _ hf => hf.1)
    intro _ u hu
    obtain ⟨⟨r, entry, hget, _, _, hentry, _⟩, hgone, _⟩ := hu
    have hnone := hgone key hkey
    rw [World.entryAt_of_get? hget, hentry] at hnone
    cases hnone
  unfold Ends at hnever
  split at hnever
  next => exact hnever
  next => exact hnever

theorem inPlace_of_same {s t : LinkDeletion} (h : Deletable env linkId s lab target)
    (hlabs : t.labs = s.labs) (hruntimes : t.world.runtimes = s.world.runtimes) :
    InPlace env linkId s target t := by
  refine ⟨⟨lab, ?_, h.found⟩, ?_, ?_⟩
  · rw [hlabs]
    exact h.stored
  · intro ip place hplace
    obtain ⟨networkId, haddress, htarget⟩ := hplace
    obtain ⟨place', network, htarget', hnetwork, hcount⟩ := h.reserved networkId ip haddress
    rw [htarget] at htarget'
    cases htarget'
    refine ⟨network, ?_, ?_⟩
    · rw [hlabs]
      exact hnetwork
    · apply List.count_pos_iff.mp
      omega
  · intro key hkey r entry hattached
    refine ⟨r, ?_, hattached.attached, rfl, fun _ _ hslot => hslot⟩
    rw [hruntimes]
    exact hattached.record

/-- An endpoint whose entry is gone is not in place. -/
theorem not_inPlace_of_gone {s t : LinkDeletion} (h : Deletable env linkId s lab target)
    {key : Int × Int} (hkey : key ∈ target.ifaces) (hgone : t.world.entryAt key.1 key.2 = none) :
    ¬ InPlace env linkId s target t := by
  intro hplace
  obtain ⟨r, entry, hattached⟩ := h.attached key hkey
  obtain ⟨r', hget, hentry, _⟩ := hplace.held key hkey r entry hattached
  rw [World.entryAt_of_get? hget, hentry] at hgone
  cases hgone

/-- A step before the detach raises when one of the first two is to. -/
theorem true_mem_take_two_iff (faults : List Bool) :
    true ∈ faults.take 2 ↔ faults.headD false = true ∨ faults.tail.headD false = true := by
  cases faults with
  | nil => simp
  | cons b rest =>
    cases rest with
    | nil => simp [eq_comm]
    | cons c more => simp [eq_comm]

/-- An endpoint that is neither in place nor to be detached again. -/
theorem not_restored_of_moved {s t : LinkDeletion} (h : Deletable env linkId s lab target)
    {key : Int × Int} (hkey : key ∈ target.ifaces)
    (hstale : StaleEndpoint target.expectedGeneration? s.world key) (hlabs : t.labs = s.labs)
    (hmoved : SameOrDetached s.world t.world target.ifaces) :
    ¬ (InPlace env linkId s target t ∧ Retries env linkId s target t) := by
  rintro ⟨hplace, hretries⟩
  rcases hmoved with hsame | ⟨_, other, hother, hgone⟩
  · exact not_retries_of_stale h hkey hstale hlabs hsame hretries
  · exact not_inPlace_of_gone h hother hgone hplace

/-- With a stale endpoint, whatever raises, not everything is in place and can be tried again. -/
theorem delete_stale {s : LinkDeletion} (h : Deletable env linkId s lab target) {key : Int × Int}
    (hkey : key ∈ target.ifaces) (hstale : StaleEndpoint target.expectedGeneration? s.world key) :
    Ends (env.deleteLink linkId) s (fun _ _ => True) (fun _ t =>
      ¬ (InPlace env linkId s target t ∧ Retries env linkId s target t)) := by
  rw [ends_deleteLink h.stored h.found]
  split
  next => exact not_restored_of_moved h hkey hstale rfl (Or.inl rfl)
  next =>
    split
    next => exact not_restored_of_moved h hkey hstale rfl (Or.inl rfl)
    next =>
      refine (detachEndpoints_attached h.distinct h.attached none).mono ?_
        (fun _ w hw => not_restored_of_moved h hkey hstale rfl hw)
      intro _ w hw
      refine (releaseAndRemove_spec (u := { s with world := w, faults := s.faults.tail.tail }) h
        rfl).mono (fun _ _ _ => trivial) ?_
      intro _ t ht
      obtain ⟨_, ⟨hworld, hlabs | ⟨ip, place, haddress, hfree⟩⟩ | hunlisted⟩ := ht
      · exact not_restored_of_moved h hkey hstale hlabs (by rw [hworld]; exact hw)
      · rintro ⟨hplace, _⟩
        obtain ⟨network, hnetwork, hreserved⟩ := hplace.reserved ip place haddress
        exact hfree network hnetwork hreserved
      · rintro ⟨hplace, _⟩
        obtain ⟨after, hafter, hfound⟩ := hplace.listed
        rw [hunlisted after hafter] at hfound
        cases hfound

/-- Where the generations agree, everything is in place after a failure and the deletion can be tried
again just when what raises is a step before the detach, or a step of it with no endpoint detached. -/
theorem delete_agreed {s : LinkDeletion} (h : Deletable env linkId s lab target)
    (hagree : GenerationsAgree s target) :
    Ends (env.deleteLink linkId) s (fun _ _ => True) (fun _ t =>
      (InPlace env linkId s target t ∧ Retries env linkId s target t) ↔
        RaisesUndetached s target) := by
  have hrunning := running_of_agree h hagree
  have hsame : ∀ t : LinkDeletion, t.labs = s.labs → t.world.runtimes = s.world.runtimes →
      RaisesUndetached s target →
      ((InPlace env linkId s target t ∧ Retries env linkId s target t) ↔
        RaisesUndetached s target) := by
    intro t hlabs hruntimes hraises
    exact ⟨fun _ => hraises, fun _ =>
      ⟨inPlace_of_same h hlabs hruntimes, delete_retried h hagree hlabs hruntimes⟩⟩
  have hlost : ∀ t : LinkDeletion, ¬ InPlace env linkId s target t → ¬ RaisesUndetached s target →
      ((InPlace env linkId s target t ∧ Retries env linkId s target t) ↔
        RaisesUndetached s target) := by
    intro t hnot hraises
    exact ⟨fun hp => absurd hp.1 hnot, fun hr => absurd hr hraises⟩
  rw [ends_deleteLink h.stored h.found]
  split
  next hfirst =>
    exact hsame _ rfl rfl (Or.inl ((true_mem_take_two_iff s.faults).mpr (Or.inl hfirst)))
  next hfirst =>
    split
    next hsecond =>
      exact hsame _ rfl rfl (Or.inl ((true_mem_take_two_iff s.faults).mpr (Or.inr hsecond)))
    next hsecond =>
      have hfaults : true ∉ s.faults.take 2 := by
        rw [true_mem_take_two_iff]
        intro hmem
        rcases hmem with hmem | hmem
        · exact hfirst hmem
        · exact hsecond hmem
      by_cases hnone : NoneDetached target.expectedGeneration? target.ifaces s.world
      · have hne : target.ifaces ≠ [] ∨ (none : Option Exc) ≠ none := Or.inl h.wired
        refine (detachEndpoints_noneDetached hrunning hnone hne).mono (fun _ _ hf => hf.elim) ?_
        intro e w hw
        exact hsame _ rfl hw (Or.inr hnone)
      · have hnot : ¬ RaisesUndetached s target := by
          intro hraises
          rcases hraises with hmem | hnone'
          · exact hfaults hmem
          · exact hnone hnone'
        refine (detachEndpoints_detached h.distinct hrunning none).mono ?_ ?_
        · intro _ w hw
          obtain ⟨_, _, hall⟩ := hw
          refine (releaseAndRemove_spec (u := { s with world := w, faults := s.faults.tail.tail }) h
            rfl).mono (fun _ _ _ => trivial) ?_
          intro _ t ht
          refine hlost t ?_ hnot
          obtain ⟨_, ⟨hworld, _⟩ | hunlisted⟩ := ht
          · obtain ⟨key, hkey⟩ := List.exists_mem_of_ne_nil _ h.wired
            apply not_inPlace_of_gone h hkey
            rw [hworld]
            exact hall key hkey
          · intro hplace
            obtain ⟨after, hafter, hfound⟩ := hplace.listed
            rw [hunlisted after hafter] at hfound
            cases hfound
        · intro e w hw
          refine hlost _ ?_ hnot
          obtain ⟨_, hnone' | ⟨key, hkey, hgone⟩⟩ := hw
          · exact absurd hnone' hnone
          · exact not_inPlace_of_gone h hkey hgone

/-- No endpoint is a boot NIC of another generation than the link's, which a reconcile may free. -/
def NoStaleBootNic (s : LinkDeletion) (target : Link) : Prop :=
  ∀ key ∈ target.ifaces, ∀ r entry, Attached s.world key r entry → r.kind = .qemu →
    entry.bootNic = true → staleFor r key.2 target.expectedGeneration? = false

/-- Whenever `delete_link` raises, everything is in place and the deletion can be tried again if the
generations agree and what raises is a step before the detach, or a step of it with no endpoint
detached; and only then, unless a boot NIC is stale. -/
theorem delete_restores (env : DeletionEnv) (linkId : String) (s : LinkDeletion) (lab : Lab)
    (target : Link) (h : Deletable env linkId s lab target) :
    Ends (env.deleteLink linkId) s (fun _ _ => True) (fun _ t =>
      (GenerationsAgree s target ∧ RaisesUndetached s target →
        InPlace env linkId s target t ∧ Retries env linkId s target t) ∧
      (NoStaleBootNic s target → InPlace env linkId s target t ∧ Retries env linkId s target t →
        GenerationsAgree s target ∧ RaisesUndetached s target)) := by
  by_cases hagree : GenerationsAgree s target
  · refine (delete_agreed h hagree).mono (fun _ _ _ => trivial) ?_
    intro _ t ht
    exact ⟨fun hcond => ht.mpr hcond.2, fun _ hp => ⟨hagree, ht.mp hp⟩⟩
  · by_cases hboot : NoStaleBootNic s target
    · have hstale : ∃ key ∈ target.ifaces,
          StaleEndpoint target.expectedGeneration? s.world key := by
        by_contra hnone
        refine hagree (fun key hkey r entry hattached => ?_)
        by_contra hfresh
        refine hnone ⟨key, hkey, r, entry, hattached, by simpa using hfresh, fun hkind => ?_⟩
        by_contra hflag
        exact hfresh (hboot key hkey r entry hattached hkind (by simpa using hflag))
      obtain ⟨key, hkey, hstale⟩ := hstale
      refine (delete_stale h hkey hstale).mono (fun _ _ _ => trivial) ?_
      intro _ t ht
      exact ⟨fun hcond => absurd hcond.1 hagree, fun _ hp => absurd hp ht⟩
    · unfold Ends
      split
      next => trivial
      next => exact ⟨fun hcond => absurd hcond.1 hagree, fun hno => absurd hno hboot⟩

def wiredEnv : DeletionEnv :=
  { site := { labHash := fun _ => ⟨0, by decide⟩, natCloudPool := "10.255.0.0/16", lower := id }
    source := { driver := fun _ => none, nicModel := fun _ => "e1000", plannedMac := fun _ _ => "" }
    path := "lab.json", lockHeld := false }

def wiredLink : Link :=
  { id := "link", from_ := .node 1 0, to_ := .network 1
    runtime := { attachGeneration := some 1, ip := some "10.99.1.5" } }

def wiredLab : Lab :=
  { id := "lab", links := [wiredLink]
    networks := Dict.empty.set 1 { id := 1, name := "lan", runtime := { usedIps := ["10.99.1.5"] } } }

def wiredEntry : Attachment :=
  { interfaceIndex := 0, networkId := 1, bridgeName := "br", port := some (.veth 1 0) }

def wiredRecord : NodeRuntime :=
  { kind := .docker, vethHostEnds := [.veth 1 0], attachments := [wiredEntry]
    generations := Dict.empty.set 0 1 }

/-- A running docker node, linked to a network of its lab. -/
def wiredDeletion (replies : List Reply) (faults : List Bool) : LinkDeletion :=
  { labs := Dict.empty.set "lab.json" wiredLab
    world :=
      { runtimes := Dict.empty.set 1 wiredRecord
        host := { bridges := ["br"]
                  ports := Dict.empty.set (.veth 1 0) { master := some "br", up := true } }
        replies := replies }
    faults := faults }

theorem wired_deletable (replies : List Reply) (faults : List Bool) :
    Deletable wiredEnv "link" (wiredDeletion replies faults) wiredLab wiredLink := by
  refine ⟨Dict.get?_set_self _ _ _, by decide, by decide, by decide, by decide, ?_, ?_, ?_⟩
  · intro key hkey
    have heq : key = (1, 0) := by
      have hifaces : wiredLink.ifaces = [(1, 0)] := by decide
      rw [hifaces] at hkey
      exact List.mem_singleton.mp hkey
    subst heq
    exact ⟨wiredRecord, wiredEntry, Dict.get?_set_self _ _ _, rfl, Or.inl rfl, by decide, by decide,
      by decide⟩
  · intro l hl hne
    rw [show l = wiredLink from List.mem_singleton.mp hl] at hne
    exact absurd rfl hne
  · intro networkId ip haddress
    have hsome : wiredLink.address? = some (1, "10.99.1.5") := by decide
    rw [hsome] at haddress
    cases haddress
    have hlabs : (wiredDeletion replies faults).labs = (wiredDeletion [] []).labs := rfl
    rw [hlabs]
    exact ⟨("lab.json", 1), { id := 1, name := "lan", runtime := { usedIps := ["10.99.1.5"] } },
      by decide +kernel, by decide, by decide⟩

theorem wired_agree (replies : List Reply) (faults : List Bool) :
    GenerationsAgree (wiredDeletion replies faults) wiredLink := by
  intro key hkey r entry hattached
  have hifaces : wiredLink.ifaces = [(1, 0)] := by decide
  rw [hifaces] at hkey
  obtain rfl := List.mem_singleton.mp hkey
  obtain rfl : wiredRecord = r := Option.some.inj hattached.record
  decide

/-- The detach itself raises. -/
theorem wired_delete_restores :
    Ends (wiredEnv.deleteLink "link") (wiredDeletion [{ raised := some .hostNet, applied := false }] [])
      (fun _ _ => False) (fun _ t =>
        InPlace wiredEnv "link" (wiredDeletion [{ raised := some .hostNet, applied := false }] [])
            wiredLink t ∧
          Retries wiredEnv "link" (wiredDeletion [{ raised := some .hostNet, applied := false }] [])
            wiredLink t) := by
  have hraises : RaisesUndetached (wiredDeletion [{ raised := some .hostNet, applied := false }] [])
      wiredLink := Or.inr (fun _ => trivial)
  have hends : Ends (wiredEnv.deleteLink "link")
      (wiredDeletion [{ raised := some .hostNet, applied := false }] [])
      (fun _ _ => False) (fun _ _ => True) := trivial
  refine (hends.and (delete_restores wiredEnv "link" _ wiredLab wiredLink
    (wired_deletable [{ raised := some .hostNet, applied := false }] []))).mono
      (fun _ _ hf => hf.1) ?_
  intro _ t ht
  exact ht.2.1 ⟨wired_agree _ _, hraises⟩

/-- The write of the lab file raises after the detach and the release of the address. -/
theorem delete_not_restored : ¬ ∀ (env : DeletionEnv) (linkId : String) (s : LinkDeletion) (lab : Lab)
    (target : Link), Deletable env linkId s lab target →
      Ends (env.deleteLink linkId) s (fun _ _ => True)
        (fun _ t => InPlace env linkId s target t ∧ Retries env linkId s target t) := by
  intro h
  have hdeletable := wired_deletable [] [false, false, false, false, true]
  have hplace := h wiredEnv "link" _ wiredLab wiredLink hdeletable
  have hraised : (raisedState (wiredEnv.deleteLink "link")
      (wiredDeletion [] [false, false, false, false, true])).map (fun t => t.world.entryAt 1 0) =
        some none := by decide +kernel
  obtain ⟨t, ht, hgone⟩ := Option.map_eq_some_iff.mp hraised
  obtain ⟨e, hkept, _⟩ := hplace.raised ht
  have hwired : ((1 : Int), (0 : Int)) ∈ wiredLink.ifaces := by decide
  exact not_inPlace_of_gone hdeletable hwired hgone hkept

end NovaVe
