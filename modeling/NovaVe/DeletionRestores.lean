import NovaVe.DeletionFailure
import NovaVe.IpamSteps
import NovaVe.ReconcileConverges

namespace NovaVe

/-- The ports of the interfaces. -/
def PortsOf (keys : List (Int × Int)) (port : Port) : Prop :=
  ∃ key ∈ keys, ∃ kind, port = ownPort kind key.1 key.2

theorem tap_mem_portsOf {keys : List (Int × Int)} {nodeId i : Int}
    (h : PortsOf keys (.tap nodeId i)) : (nodeId, i) ∈ keys := by
  obtain ⟨key, hkey, kind, heq⟩ := h
  unfold ownPort at heq
  split at heq
  next => cases heq
  next =>
    cases heq
    exact hkey

/-- No link of the lab wires an interface that is among these. -/
theorem not_wired_of_unlisted {lab : Lab} {keys : List (Int × Int)}
    (h : ∀ l ∈ lab.links, ∀ key ∈ l.ifaces, key ∉ keys) {nodeId i networkId : Int}
    (hkey : (nodeId, i) ∈ keys) : ¬ lab.Wired nodeId i networkId := by
  rintro ⟨l, hl, hends⟩
  refine h l hl (nodeId, i) ?_ hkey
  unfold Link.attachment? at hends
  unfold Link.ifaces Link.endpoints
  cases hfrom : l.from_ with
  | node a b =>
    rw [hfrom] at hends
    cases hto : l.to_ with
    | node c d =>
      rw [hto] at hends
      cases hends
    | network k =>
      rw [hto] at hends
      cases hends
      exact List.mem_cons_self
  | network k =>
    rw [hfrom] at hends
    cases hto : l.to_ with
    | node c d =>
      rw [hto] at hends
      cases hends
      exact List.mem_cons_self
    | network k' =>
      rw [hto] at hends
      cases hends

/-- A running node has an entry for the interface, and it is no boot NIC's. -/
def HotEntry (w : World) (key : Int × Int) : Prop :=
  ∃ r entry, w.runtimes.get? key.1 = some r ∧ r.alive = true ∧
    (r.attachments.map Attachment.interfaceIndex).Nodup ∧ r.attachment? key.2 = some entry ∧
      (r.kind = .qemu → entry.bootNic = false)

/-- Of the interfaces what is gone stays gone, and what is no boot NIC stays. -/
structure Bypassed (keys : List (Int × Int)) (w t : World) : Prop where
  gone : ∀ key ∈ keys, w.entryAt key.1 key.2 = none → t.entryAt key.1 key.2 = none
  held : ∀ key ∈ keys, HotEntry w key → HotEntry t key

theorem composes_bypassed (keys : List (Int × Int)) : Composes (Bypassed keys) where
  refl _ := ⟨fun _ _ h => h, fun _ _ h => h⟩
  trans _ _ _ h h' := ⟨fun key hkey hgone => h'.gone key hkey (h.gone key hkey hgone),
    fun key hkey hheld => h'.held key hkey (h.held key hkey hheld)⟩

theorem bypassed_same {keys : List (Int × Int)} {w t : World} (h : t.runtimes = w.runtimes) :
    Bypassed keys w t := by
  refine ⟨fun key _ hgone => fewer_same h _ _ hgone, ?_⟩
  rintro key _ ⟨r, entry, hget, hrest⟩
  exact ⟨r, entry, by rw [h]; exact hget, hrest⟩

/-- A step on the record of one node, seen from its interfaces among those. -/
theorem bypassed_of_node {keys : List (Int × Int)} {w t : World} {nodeId : Int}
    (hother : ∀ n, n ≠ nodeId → t.runtimes.get? n = w.runtimes.get? n)
    (hgone : ∀ i, (nodeId, i) ∈ keys → w.entryAt nodeId i = none → t.entryAt nodeId i = none)
    (hheld : ∀ i, (nodeId, i) ∈ keys → HotEntry w (nodeId, i) → HotEntry t (nodeId, i)) :
    Bypassed keys w t := by
  refine ⟨?_, ?_⟩
  · rintro ⟨n, i⟩ hkey hnone
    by_cases hn : n = nodeId
    · subst hn
      exact hgone i hkey hnone
    · unfold World.entryAt at hnone ⊢
      rw [hother n hn]
      exact hnone
  · rintro ⟨n, i⟩ hkey hentry
    by_cases hn : n = nodeId
    · subst hn
      exact hheld i hkey hentry
    · obtain ⟨r, entry, hget, hrest⟩ := hentry
      exact ⟨r, entry, by rw [hother n hn]; exact hget, hrest⟩

/-- A reconcile leaves the interfaces alone that no link of the lab wires. -/
theorem reconcileStep_bypassed {source : NicSource} {bridgeName : String → Int → String} {lab : Lab}
    {keys : List (Int × Int)} (h : ∀ l ∈ lab.links, ∀ key ∈ l.ifaces, key ∉ keys) {nodeId : Int}
    {w t : World} {r r' : NodeRuntime} (hget : w.runtimes.get? nodeId = some r)
    (hkind : r.kind = .qemu) (hset : t.runtimes = w.runtimes.set nodeId r')
    (hstep : ReconcileStep source nodeId (expectedAttachments bridgeName lab nodeId r.bootEthernet)
      (removedIndices (expectedAttachments bridgeName lab nodeId r.bootEthernet) r) r r') :
    Bypassed keys w t := by
  have hget' : t.runtimes.get? nodeId = some r' := by
    rw [hset, Dict.get?_set_self]
  have hunwanted : ∀ i, (nodeId, i) ∈ keys →
      (expectedAttachments bridgeName lab nodeId r.bootEthernet).get? i = none := by
    intro i hkey
    cases hwant : (expectedAttachments bridgeName lab nodeId r.bootEthernet).get? i with
    | none => rfl
    | some want =>
      have hlt := expectedAttachments_lt (Option.isSome_of_eq_some hwant)
      exact absurd (wired_of_expected hlt hwant).1 (not_wired_of_unlisted h hkey)
  refine bypassed_of_node (fun n hn => by rw [hset, Dict.get?_set_ne _ _ (Ne.symm hn)]) ?_ ?_
  · intro i hkey hnone
    rw [World.entryAt_of_get? hget] at hnone
    rw [World.entryAt_of_get? hget']
    rcases (hstep.other i (hunwanted i hkey)).2 with hsame | ⟨_, hgone⟩
    · rw [hsame]
      exact hnone
    · exact hgone
  · rintro i hkey ⟨s, entry, hs, halive, hdistinct, hentry, hhot⟩
    have hr : r = s := Option.some.inj (hget.symm.trans hs)
    subst hr
    refine ⟨r', entry, hget', by rw [hstep.alive, halive], hstep.distinct hdistinct, ?_,
      by rw [hstep.kind]; exact hhot⟩
    rcases (hstep.other i (hunwanted i hkey)).2 with hsame | ⟨hremovable, _⟩
    · exact hsame.trans hentry
    · obtain ⟨_, _, flagged, hflagged, hindex, hboot⟩ := mem_removedIndices.mp hremovable
      have hsame : flagged = entry := by
        have hmem : entry ∈ r.attachments := List.mem_of_find?_eq_some hentry
        have hon := List.find?_some hentry
        refine List.inj_on_of_nodup_map hdistinct hflagged hmem ?_
        rw [hindex]
        exact (of_decide_eq_true hon).symm
      rw [hsame, hhot hkind] at hboot
      cases hboot

theorem frames_reconcileAfterLink_bypassed {env : SiteEnv} {lab : Lab} {keys : List (Int × Int)}
    (h : ∀ l ∈ lab.links, ∀ key ∈ l.ifaces, key ∉ keys) (source : NicSource) :
    Frames (Bypassed keys) (reconcileAfterLink env source lab) := by
  have hcomp := composes_bypassed keys
  have hlocked : ∀ (nodeId : Int) (w : World), Ends (reconcileLocked source env.bridgeName lab nodeId)
      w (fun _ t => Bypassed keys w t) (fun _ t => Bypassed keys w t) := by
    intro nodeId w
    have hafter : ∀ t : World, (t.runtimes = w.runtimes ∨
        (∃ r, w.runtimes.get? nodeId = some r ∧ r.alive = false ∧
          t.runtimes = w.runtimes.pop nodeId) ∨
        ∃ r r', w.runtimes.get? nodeId = some r ∧ r.alive = true ∧ r.kind = .qemu ∧
          t.runtimes = w.runtimes.set nodeId r' ∧
          ReconcileStep source nodeId
            (expectedAttachments env.bridgeName lab nodeId r.bootEthernet)
            (removedIndices (expectedAttachments env.bridgeName lab nodeId r.bootEthernet) r) r r') →
        Bypassed keys w t := by
      rintro t (hsame | ⟨r, hget, hdead, hpop⟩ | ⟨r, r', hget, _, hkind, hset, hstep⟩)
      · exact bypassed_same hsame
      · refine bypassed_of_node
          (fun n hn => by rw [hpop, Dict.get?_pop_ne _ (Ne.symm hn)]) ?_ ?_
        · intro i _ _
          unfold World.entryAt
          rw [hpop, Dict.get?_pop, if_pos rfl]
          rfl
        · rintro i _ ⟨s, _, hs, halive, _⟩
          have hr : r = s := Option.some.inj (hget.symm.trans hs)
          rw [← hr, hdead] at halive
          cases halive
      · exact reconcileStep_bypassed h hget hkind hset hstep
    exact (reconcileLocked_frames workings_true source env.bridgeName lab nodeId w
      ⟨fun _ => trivial, fun _ => trivial,
        fun _ _ _ _ => ⟨trivial, trivial, trivial, trivial, trivial⟩⟩).mono
      (fun _ t ht => hafter t ht.2) (fun _ t ht => hafter t ht.2)
  refine Frames.swallow hcomp (Frames.forM hcomp (fun node _ => ?_))
  unfold reconcileQemuNodeLinks
  refine Frames.bind hcomp (fun w => ?_) (fun _ => hlocked node.id)
  rw [ends_run]
  split
  next => exact bypassed_same rfl
  next => exact bypassed_same rfl

/-- A reconcile makes no port and no NIC for the interfaces that no link of the lab wires. -/
theorem frames_reconcileAfterLink_sheds {env : SiteEnv} {lab : Lab} {keys : List (Int × Int)}
    (h : ∀ l ∈ lab.links, ∀ key ∈ l.ifaces, key ∉ keys) (source : NicSource) :
    Frames (Shedding (PortsOf keys)) (reconcileAfterLink env source lab) := by
  have hworks := workings_shedding (PortsOf keys)
  have hunwired : ∀ nodeId i networkId, lab.Wired nodeId i networkId →
      ¬ PortsOf keys (.tap nodeId i) :=
    fun nodeId i networkId hwired hport =>
      not_wired_of_unlisted h (tap_mem_portsOf hport) hwired
  refine Frames.swallow hworks.composes (Frames.forM hworks.composes (fun node _ => ?_))
  have hok : ReconcileOk (HostCall.harmless (PortsOf keys)) env.bridgeName lab node.id := by
    refine ⟨fun _ => trivial, fun _ => trivial, ?_⟩
    intro ethernet i want hwant
    have hlt := expectedAttachments_lt (Option.isSome_of_eq_some hwant)
    have hnot := hunwired node.id i _ (wired_of_expected hlt hwant).1
    exact ⟨trivial, hnot, hnot, trivial, trivial⟩
  unfold reconcileQemuNodeLinks
  refine Frames.bind hworks.composes (frames_run hworks.toCommands trivial) (fun _ w => ?_)
  exact (reconcileLocked_frames hworks source env.bridgeName lab node.id w hok).mono
    (fun _ _ ht => ht.1) (fun _ _ ht => ht.1)

theorem removeLink_sublist (data : Lab) (removed : Link) (linkId : String) :
    List.Sublist (removeLink data removed linkId).links
      (data.links.eraseP (fun l => decide (l.id = linkId))) := cascade_sublist _ _ _

theorem notMem_eraseP_id {links : List Link} {linkId : String}
    (h : (links.map Link.id).Nodup) {l : Link}
    (hl : l ∈ links.eraseP (fun l => decide (l.id = linkId))) : l.id ≠ linkId := by
  induction links with
  | nil => cases hl
  | cons first rest ih =>
    obtain ⟨hnot, hrest⟩ := List.nodup_cons.mp h
    by_cases hfirst : first.id = linkId
    · rw [List.eraseP_cons_of_pos (by simpa using hfirst)] at hl
      intro heq
      apply hnot
      rw [hfirst, ← heq]
      exact List.mem_map_of_mem hl
    · rw [List.eraseP_cons_of_neg (by simpa using hfirst)] at hl
      rcases List.mem_cons.mp hl with heq | hl
      · rw [heq]
        exact hfirst
      · exact ih hrest hl

theorem mem_removeLink {data : Lab} {removed l : Link} {linkId : String} (h : data.linkIds.Nodup)
    (hl : l ∈ (removeLink data removed linkId).links) : l ∈ data.links ∧ l.id ≠ linkId := by
  have hrest := (removeLink_sublist data removed linkId).subset hl
  exact ⟨List.mem_of_mem_eraseP hrest, notMem_eraseP_id h hrest⟩

theorem findLink_removeLink {data : Lab} {removed : Link} {linkId : String}
    (h : data.linkIds.Nodup) : findLink (removeLink data removed linkId) linkId = none := by
  apply List.find?_eq_none.mpr
  intro l hl
  simpa using (mem_removeLink h hl).2

/-- The networks that are left are those that were there. -/
theorem removeLink_networks {data : Lab} {removed : Link} {linkId : String} {k : Int}
    {network : Network} (h : (removeLink data removed linkId).networks.get? k = some network) :
    data.networks.get? k = some network := by
  have hfold : ∀ (links : List Link) (ks : List Int) (networks : Dict Int Network),
      (ks.foldl (collectImplicit links) networks).get? k = some network →
      networks.get? k = some network := by
    intro links ks
    induction ks with
    | nil => exact fun _ hk => hk
    | cons first rest ih =>
      intro networks hk
      have hstep := ih _ hk
      unfold collectImplicit at hstep
      split at hstep
      next =>
        split at hstep
        next =>
          rw [Dict.get?_pop] at hstep
          split at hstep
          next => cases hstep
          next => exact hstep
        next => exact hstep
      next => exact hstep
  exact hfold _ _ _ h

/-- An address that is reserved once is free after its release, and the links are as before. -/
theorem releaseIn_frees {labs : Dict String Lab} {place : String × Int} {network : Network}
    {ip : String} (hplace : networkAt labs place = some network)
    (hcount : network.runtime.usedIps.count ip = 1) :
    ∃ labs' freed, releaseIn labs place ip = .ok (labs', freed) ∧
      (∀ released, networkAt labs' place = some released → ip ∉ released.runtime.usedIps) ∧
      ∀ path lab, labs.get? path = some lab →
        ∃ lab', labs'.get? path = some lab' ∧ lab'.links = lab.links := by
  obtain ⟨lab, hlab, hget⟩ := networkAt_eq_some_iff.mp hplace
  have hmem : ip ∈ network.runtime.usedIps := by
    apply List.count_pos_iff.mp
    omega
  refine ⟨labs.set place.1 (releaseIpFromOwner lab place.2 ip), true, ?_, ?_, ?_⟩
  · unfold releaseIn
    rw [hlab]
    dsimp only
    rw [hget]
    dsimp only
    rw [if_neg (not_not.mpr hmem)]
  · intro released hreleased
    unfold networkAt at hreleased
    rw [Dict.get?_set_self, Option.bind_some] at hreleased
    unfold releaseIpFromOwner at hreleased
    rw [hget] at hreleased
    dsimp only at hreleased
    rw [if_pos hmem] at hreleased
    dsimp only at hreleased
    rw [Dict.get?_set_self] at hreleased
    cases hreleased
    intro hin
    have herased := List.mem_mergeSort.mp hin
    have hpos := List.count_pos_iff.mpr herased
    rw [List.count_erase_self, hcount] at hpos
    omega
  · intro path other hother
    by_cases hp : place.1 = path
    · subst hp
      have hsame : lab = other := Option.some.inj (hlab.symm.trans hother)
      refine ⟨_, Dict.get?_set_self _ _ _, ?_⟩
      rw [← hsame]
      have hlinks := releaseHere_links lab (some (.here place.2, ip))
      exact hlinks
    · exact ⟨other, by rw [Dict.get?_set_ne _ _ hp]; exact hother, rfl⟩

/-- A stored link whose node endpoints all run, each with its entry; no other link wires its
interfaces, and its address is reserved once. -/
structure Deletable (env : DeletionEnv) (linkId : String) (s : LinkDeletion) (lab : Lab)
    (target : Link) : Prop where
  stored : s.labs.get? env.path = some lab
  found : findLink lab linkId = some target
  ids : lab.linkIds.Nodup
  wired : target.ifaces ≠ []
  distinct : target.ifaces.Nodup
  attached : AllAttached s.world target.ifaces
  sole : ∀ l ∈ lab.links, l.id ≠ linkId → ∀ key ∈ l.ifaces, key ∉ target.ifaces
  reserved : ∀ networkId ip, target.address? = some (networkId, ip) → ∃ place network,
    NetworkService.releaseTarget env.lockHeld s.labs env.path networkId = .ok (some place) ∧
      networkAt s.labs place = some network ∧ network.runtime.usedIps.count ip = 1

/-- The record of the address of a link. -/
def AddressPlace (env : DeletionEnv) (s : LinkDeletion) (target : Link) (ip : String)
    (place : String × Int) : Prop :=
  ∃ networkId, target.address? = some (networkId, ip) ∧
    NetworkService.releaseTarget env.lockHeld s.labs env.path networkId = .ok (some place)

/-- Everything is in place: the link, its address, and in the records its entries with their slots and
generations. -/
structure InPlace (env : DeletionEnv) (linkId : String) (s : LinkDeletion) (target : Link)
    (t : LinkDeletion) : Prop where
  listed : ∃ lab, t.labs.get? env.path = some lab ∧ findLink lab linkId = some target
  reserved : ∀ ip place, AddressPlace env s target ip place → ∃ network,
    networkAt t.labs place = some network ∧ ip ∈ network.runtime.usedIps
  held : ∀ key ∈ target.ifaces, ∀ r entry, Attached s.world key r entry → ∃ r',
      t.world.runtimes.get? key.1 = some r' ∧ r'.attachment? key.2 = some entry ∧
        r'.generation key.2 = r.generation key.2 ∧
        ∀ slot, entry.slot = some slot → slot ∈ r.allocatedSlots → slot ∈ r'.allocatedSlots

/-- Nothing of the link is left, in the lab files, on the host and in QEMU. -/
structure LinkGone (env : DeletionEnv) (linkId : String) (s : LinkDeletion) (target : Link)
    (u : LinkDeletion) (q : QemuNics) : Prop where
  unlisted : ∀ lab, u.labs.get? env.path = some lab → findLink lab linkId = none
  unreserved : ∀ ip place, AddressPlace env s target ip place → ∀ network,
    networkAt u.labs place = some network → ip ∉ network.runtime.usedIps
  freed : ∀ key ∈ target.ifaces, ∀ r entry, Attached s.world key r entry →
    Freed r.kind entry key u.world.host q

/-- A later deletion on which nothing fails succeeds, and leaves nothing; when it returns, the records
have no entry of the link. -/
def Retries (env : DeletionEnv) (linkId : String) (s : LinkDeletion) (target : Link)
    (t : LinkDeletion) : Prop :=
  ∀ replies, Ends (env.deleteLink linkId)
    { t with world := { t.world with replies := replies }, faults := [] }
    (fun _ u => (∀ key ∈ target.ifaces, u.world.entryAt key.1 key.2 = none) ∧
      Moves { t.world with replies := replies } u.world
        (fun _ q' => LinkGone env linkId s target u q'))
    (fun _ u => Unanswered { t.world with replies := replies } u.world)

/-- The record of every endpoint has the generation of the link. -/
def GenerationsAgree (s : LinkDeletion) (target : Link) : Prop :=
  ∀ key ∈ target.ifaces, ∀ r entry, Attached s.world key r entry →
    staleFor r key.2 target.expectedGeneration? = false

/-- What raises is a step before the detach, or a step of it, and no endpoint is detached. -/
def RaisesUndetached (s : LinkDeletion) (target : Link) : Prop :=
  true ∈ s.faults.take 2 ∨ NoneDetached target.expectedGeneration? target.ifaces s.world

theorem mem_portsOf (keys : List (Int × Int)) :
    ∀ key ∈ keys, ∀ kind, PortsOf keys (ownPort kind key.1 key.2) :=
  fun key hkey kind => ⟨key, hkey, kind, rfl⟩

theorem reconcileAfter_spec {env : DeletionEnv} {u : LinkDeletion} {lab : Lab}
    {keys : List (Int × Int)} (hlab : u.labs.get? env.path = some lab)
    (hsole : ∀ l ∈ lab.links, ∀ key ∈ l.ifaces, key ∉ keys) :
    Ends env.reconcileAfter u
      (fun _ v => v.labs = u.labs ∧ Shedding (PortsOf keys) u.world v.world ∧
        Bypassed keys u.world v.world) (fun _ _ => False) := by
  have hrefl := (composes_shedding (PortsOf keys)).refl u.world
  have hsame : Bypassed keys u.world u.world := bypassed_same rfl
  unfold DeletionEnv.reconcileAfter
  rw [ends_swallow, ends_bind, ends_readLab]
  split
  next => exact ⟨rfl, hrefl, hsame⟩
  next =>
    rw [hlab]
    dsimp only
    rw [ends_hostPart]
    exact ((frames_reconcileAfterLink_sheds hsole env.source u.world).and
      (frames_reconcileAfterLink_bypassed hsole env.source u.world)).mono
      (fun _ _ ht => ⟨rfl, ht⟩) (fun _ _ ht => ⟨rfl, ht⟩)

theorem faults_ne_nil {faults : List Bool} (h : faults.headD false = true) : faults ≠ [] := by
  intro hnil
  rw [hnil] at h
  cases h

theorem faults_tail_ne_nil {faults : List Bool} (h : faults.tail ≠ []) : faults ≠ [] := by
  intro hnil
  rw [hnil] at h
  exact h rfl

/-- Phase 4: the link goes, or a file step raises before anything else has changed, or after it. -/
theorem removeFromLab_spec {env : DeletionEnv} {linkId : String} {u : LinkDeletion} {data : Lab}
    {target : Link} (hdata : u.labs.get? env.path = some data)
    (hfound : findLink data linkId = some target) (hids : data.linkIds.Nodup)
    (hsole : ∀ l ∈ data.links, l.id ≠ linkId → ∀ key ∈ l.ifaces, key ∉ target.ifaces) :
    Ends (env.removeFromLab linkId) u
      (fun _ v => v.labs = u.labs.set env.path (removeLink data target linkId) ∧
        Shedding (PortsOf target.ifaces) u.world v.world ∧
        Bypassed target.ifaces u.world v.world)
      (fun _ v => u.faults ≠ [] ∧ ((v.world = u.world ∧ v.labs = u.labs) ∨
        v.labs = u.labs.set env.path (removeLink data target linkId))) := by
  unfold DeletionEnv.removeFromLab
  rw [ends_bind, ends_readLab]
  split
  next hfault => exact ⟨faults_ne_nil hfault, Or.inl ⟨rfl, rfl⟩⟩
  next =>
    rw [hdata]
    dsimp only
    rw [hfound]
    dsimp only
    rw [ends_bind, ends_fileStep]
    split
    next hfault => exact ⟨faults_tail_ne_nil (faults_ne_nil hfault), Or.inl ⟨rfl, rfl⟩⟩
    next =>
      rw [ends_bind, ends_modify, ends_bind, ends_fileStep]
      split
      next hfault =>
        exact ⟨faults_tail_ne_nil (faults_tail_ne_nil (faults_ne_nil hfault)), Or.inr rfl⟩
      next =>
        have hleft : ∀ l ∈ (removeLink data target linkId).links, ∀ key ∈ l.ifaces,
            key ∉ target.ifaces := by
          intro l hl
          obtain ⟨hold, hne⟩ := mem_removeLink hids hl
          exact hsole l hold hne
        exact (reconcileAfter_spec (Dict.get?_set_self _ _ _) hleft).mono
          (fun _ _ hv => hv) (fun _ _ hf => hf.elim)

/-- Phase 3 leaves the links alone and frees the address; it raises in its file step at most. -/
theorem releaseAddress_spec {env : DeletionEnv} {linkId : String} {s u : LinkDeletion} {lab : Lab}
    {target : Link} (h : Deletable env linkId s lab target) (hlabs : u.labs = s.labs) :
    Ends (env.releaseAddress target) u
      (fun _ v => v.world = u.world ∧ (u.faults = [] → v.faults = []) ∧
        (target.address? = none → v.labs = s.labs) ∧ (∃ data, v.labs.get? env.path = some data ∧ data.links = lab.links) ∧
        ∀ ip place, AddressPlace env s target ip place → ∀ network,
          networkAt v.labs place = some network → ip ∉ network.runtime.usedIps)
      (fun _ v => u.faults ≠ [] ∧ v.world = u.world ∧ v.labs = s.labs) := by
  unfold DeletionEnv.releaseAddress
  cases haddress : target.address? with
  | none =>
    refine ⟨rfl, id, fun _ => hlabs, ⟨lab, ?_, rfl⟩, ?_⟩
    · rw [hlabs]
      exact h.stored
    · intro ip place hplace
      obtain ⟨networkId, hsome, _⟩ := hplace
      rw [haddress] at hsome
      cases hsome
  | some address =>
    obtain ⟨networkId, ip⟩ := address
    obtain ⟨place, network, htarget, hnetwork, hcount⟩ := h.reserved networkId ip haddress
    obtain ⟨labs', freed, hrelease, hfree, hkept⟩ := releaseIn_frees hnetwork hcount
    have hdone : NetworkService.releaseIp env.lockHeld s.labs env.path networkId ip =
        .ok (labs', freed) := by
      unfold NetworkService.releaseIp
      rw [htarget]
      exact hrelease
    dsimp only
    rw [ends_bind, ends_fileStep]
    split
    next hfault => exact ⟨faults_ne_nil hfault, rfl, hlabs⟩
    next =>
      rw [ends_bind, ends_get]
      dsimp only
      rw [hlabs, hdone]
      obtain ⟨data, hdata, hlinks⟩ := hkept env.path lab h.stored
      refine ⟨rfl, ?_, fun hnone => (by cases hnone), ⟨data, hdata, hlinks⟩, ?_⟩
      · intro hnil
        show u.faults.tail = []
        rw [hnil]
        rfl
      · intro ip' place' hplace'
        obtain ⟨networkId', hsome, htarget'⟩ := hplace'
        rw [haddress] at hsome
        cases hsome
        rw [htarget] at htarget'
        cases htarget'
        exact hfree

theorem findLink_congr {lab data : Lab} (h : data.links = lab.links) (linkId : String) :
    findLink data linkId = findLink lab linkId := by
  unfold findLink
  rw [h]

/-- After the link is removed, the records of networks are those of before. -/
theorem networkAt_removed {labs : Labs} {path linkId : String} {data : Lab} {target : Link}
    (hdata : labs.get? path = some data) {place : String × Int} {network : Network}
    (h : networkAt (labs.set path (removeLink data target linkId)) place = some network) :
    networkAt labs place = some network := by
  unfold networkAt at h ⊢
  by_cases hp : path = place.1
  · rw [hp, Dict.get?_set_self, Option.bind_some] at h
    rw [← hp, hdata, Option.bind_some]
    exact removeLink_networks h
  · rw [Dict.get?_set_ne _ _ hp] at h
    exact h

end NovaVe
