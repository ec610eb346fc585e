import NovaVe.LinkRequestSteps
import NovaVe.Runs

namespace NovaVe

/-- What a request stands for in a lab: its mutexes are its own, and a deletion knows what the link
with its id wires. -/
def LinkEnv.PhaseOk (env : LinkEnv) (lab : Lab) (mutex : Int × Int → Option Nat) (r : Nat) :
    RequestPhase → Prop
  | .idle => True
  | .waiting _ keys taken probed =>
    (∀ key ∈ keys.take taken, mutex key = some r) ∧
      ∀ p linkId, probed = some p → env.reqs r = .delete linkId →
        p.id = linkId ∧ keys = sortedKeys p.ifaces ∧
          ∀ ends, lab.endpointsOf linkId = some ends → ends = p.endpoints
  | .publishing _ outcome =>
    ∀ probed detached removed, outcome = .deleted probed detached removed →
      detached.endpoints = probed.endpoints ∧ removed.endpoints = detached.endpoints ∧
        ∀ key ∈ removed.ifaces, mutex key = some r
  | .done _ _ outcome =>
    ∀ probed detached removed, outcome = .deleted probed detached removed →
      detached.endpoints = probed.endpoints ∧ removed.endpoints = detached.endpoints

structure LinkEnv.DeletesMatch (env : LinkEnv) (s : LinkWorld) : Prop where
  ids : s.lab.linkIds.Nodup
  phases : ∀ r, env.PhaseOk s.lab s.mutex r (s.phase r)

/-- No `create_link` gives the id that a waiting `delete_link` has read to a link with other
endpoints. -/
def LinkEnv.NoReuse (env : LinkEnv) (s : LinkWorld) : LinkAction → Prop
  | .createLocked r (some _) =>
    ∀ a b style key, env.reqs r = .create a b style key →
      ∀ created, createLinkData s.lab a b style = .ok created →
        ∀ d began keys taken probed, s.phase d = .waiting began keys taken (some probed) →
          ∀ l ∈ created.concrete, l.id = probed.id → l.endpoints = probed.endpoints
  | _ => True

theorem mem_sortedKeys {keys : List (Int × Int)} {key : Int × Int} :
    key ∈ sortedKeys keys ↔ key ∈ keys :=
  (List.perm_insertionSort _ keys).mem_iff

/-- A phase stays in order while its mutexes stay its own and no waiting deletion sees its link
wired otherwise. -/
theorem LinkEnv.PhaseOk.mono {env : LinkEnv} {lab lab' : Lab} {mutex mutex' : Int × Int → Option Nat}
    {r : Nat} {phase : RequestPhase} (h : env.PhaseOk lab mutex r phase)
    (hmutex : ∀ key, mutex key = some r → mutex' key = some r)
    (hlab : ∀ began keys taken p, phase = .waiting began keys taken (some p) →
      ∀ linkId, env.reqs r = .delete linkId → ∀ ends, lab'.endpointsOf linkId = some ends →
        lab.endpointsOf linkId = some ends ∨ ends = p.endpoints) :
    env.PhaseOk lab' mutex' r phase := by
  cases phase with
  | idle => trivial
  | waiting began keys taken probed =>
    obtain ⟨hheld, hprobed⟩ := h
    refine ⟨fun key hkey => hmutex key (hheld key hkey), ?_⟩
    intro p linkId hp hreq
    obtain ⟨hid, hkeys, hends⟩ := hprobed p linkId hp hreq
    refine ⟨hid, hkeys, ?_⟩
    intro ends hfound
    subst hp
    rcases hlab began keys taken p rfl linkId hreq ends hfound with hold | hsame
    · exact hends ends hold
    · exact hsame
  | publishing began outcome =>
    intro probed detached removed houtcome
    obtain ⟨hdetached, hremoved, hheld⟩ := h probed detached removed houtcome
    exact ⟨hdetached, hremoved, fun key hkey => hmutex key (hheld key hkey)⟩
  | done began ended outcome => exact h

/-- A step of one request that leaves the lab as it is. -/
theorem LinkEnv.DeletesMatch.move {env : LinkEnv} {s t : LinkWorld} (h : env.DeletesMatch s) {r : Nat}
    {phase : RequestPhase} (hlab : t.lab = s.lab)
    (hphase : ∀ d, t.phase d = if d = r then phase else s.phase d)
    (hmutex : ∀ key d, d ≠ r → s.mutex key = some d → t.mutex key = some d)
    (hr : env.PhaseOk s.lab t.mutex r phase) : env.DeletesMatch t := by
  refine ⟨hlab ▸ h.ids, ?_⟩
  intro d
  rw [hlab, hphase]
  by_cases hd : d = r
  · subst hd
    rw [if_pos rfl]
    exact hr
  · rw [if_neg hd]
    refine (h.phases d).mono (fun key hkey => hmutex key d hd hkey) ?_
    intro _ _ _ _ _ linkId _ ends hends
    exact Or.inl hends

/-- A request that returns. -/
theorem LinkEnv.DeletesMatch.ends {env : LinkEnv} {s : LinkWorld} (h : env.DeletesMatch s)
    {r began : Nat} {outcome : RequestOutcome}
    (houtcome : ∀ probed detached removed, outcome = .deleted probed detached removed →
      detached.endpoints = probed.endpoints ∧ removed.endpoints = detached.endpoints) :
    env.DeletesMatch (s.end_ r began outcome) :=
  h.move rfl (fun d => s.end_phase r d began outcome)
    (fun _ _ hd hkey => s.release_mutex hd hkey) houtcome

/-- A request that creates a link keeps what the deletions under way have read. -/
theorem LinkEnv.DeletesMatch.create {env : LinkEnv} {s : LinkWorld} (h : env.DeletesMatch s)
    {r began : Nat} {a b : Endpoint} {style : Option String} {key : String}
    {hotAttach : Option (List Stamp)} {lab : Lab} {entry : CachedLink}
    (req : env.reqs r = .create a b style key) (hok : env.NoReuse s (.createLocked r hotAttach))
    (commit : createLinkLocked s.lab a b style hotAttach = .ok (lab, entry)) :
    env.DeletesMatch ({ s with lab := lab }.goto r (.publishing began (.created entry))) := by
  refine ⟨createLinkLocked_nodup h.ids commit, ?_⟩
  intro d
  rw [LinkWorld.goto_phase]
  by_cases hd : d = r
  · rw [if_pos hd]
    intro _ _ _ houtcome
    cases houtcome
  · rw [if_neg hd]
    have hphase := h.phases d
    refine hphase.mono (fun _ hkey => hkey) ?_
    intro began' keys' taken' p hwaiting linkId hreq ends hends
    rcases createLinkLocked_origin commit hends with hold | ⟨created, hcreated, l, hl, hid, hsame⟩
    · exact Or.inl hold
    · right
      rw [hwaiting] at hphase
      obtain ⟨hp, _, _⟩ := hphase.2 p linkId rfl hreq
      obtain ⟨_, stamps, _, _, _, rfl, _⟩ := createLinkLocked_ok commit
      rw [← hsame]
      exact hok a b style key req created hcreated d began' keys' taken' p hwaiting l hl
        (hid.trans hp.symm)

/-- A deletion that holds its mutexes detaches what it has read. -/
theorem LinkEnv.DeletesMatch.delete {env : LinkEnv} {s : LinkWorld} (h : env.DeletesMatch s)
    {r began taken : Nat} {keys : List (Int × Int)} {probed : Link} {linkId : String}
    {detached : Bool} {deleted : DeletedLink}
    (waits : s.phase r = .waiting began keys taken (some probed))
    (req : env.reqs r = .delete linkId) (all : keys.length ≤ taken)
    (commit : deleteLinkLocked env.owner s.lab linkId detached = .ok (some deleted)) :
    env.DeletesMatch ({ s with
      lab := deleted.data, lost := s.markLost deleted.announced }.goto r
        (.publishing began (.deleted probed deleted.detached deleted.removed))) := by
  obtain ⟨hfind, hsame, _⟩ := deleteLinkLocked_ok commit
  have hr := h.phases r
  rw [waits] at hr
  obtain ⟨hheld, hprobed⟩ := hr
  obtain ⟨_, hkeys, hends⟩ := hprobed probed linkId rfl req
  have hdetached := hends _ (endpointsOf_of_findLink hfind)
  refine ⟨deleteLinkLocked_nodup h.ids commit, ?_⟩
  intro d
  rw [LinkWorld.goto_phase]
  by_cases hd : d = r
  · rw [if_pos hd, hd]
    intro _ _ _ houtcome
    cases houtcome
    refine ⟨hdetached, by rw [hsame], ?_⟩
    intro key hkey
    have hmem : key ∈ probed.ifaces := by
      unfold Link.ifaces at hkey ⊢
      rw [hsame, hdetached] at hkey
      exact hkey
    rw [List.take_of_length_le all, hkeys] at hheld
    exact hheld key (mem_sortedKeys.mpr hmem)
  · rw [if_neg hd]
    refine (h.phases d).mono (fun _ hkey => hkey) ?_
    intro _ _ _ _ _ other _ ends hother
    exact Or.inl (deleteLinkLocked_origin h.ids commit hother)

theorem LinkEnv.DeletesMatch.step {env : LinkEnv} {s t : LinkWorld} {a : LinkAction}
    (h : env.DeletesMatch s) (hok : env.NoReuse s a) (hstep : LinkStep env s a t) :
    env.DeletesMatch t := by
  cases hstep with
  | hit idle req look =>
    refine h.move rfl (LinkWorld.goto_phase _ _ · _) (fun _ _ _ hkey => hkey) ?_
    intro _ _ _ houtcome
    cases houtcome
  | miss idle req look =>
    refine h.move rfl (LinkWorld.goto_phase _ _ · _) (fun _ _ _ hkey => hkey) ⟨?_, ?_⟩
    · intro key hkey
      cases hkey
    · intro _ _ hp _
      cases hp
  | absent idle req =>
    refine h.move rfl (LinkWorld.goto_phase _ _ · _) (fun _ _ _ hkey => hkey) ?_
    intro _ _ _ houtcome
    cases houtcome
  | @probe r linkId probed idle req look =>
    refine h.move rfl (LinkWorld.goto_phase _ _ · _) (fun _ _ _ hkey => hkey) ⟨?_, ?_⟩
    · intro key hkey
      cases hkey
    · intro p linkId' hp hreq
      obtain rfl : probed = p := Option.some.inj hp
      rw [req] at hreq
      cases hreq
      refine ⟨findLink_id look, rfl, ?_⟩
      intro ends hends
      rw [endpointsOf_of_findLink look] at hends
      exact (Option.some.inj hends).symm
  | @take r began taken keys probed key waits next free =>
    have hr := h.phases r
    rw [waits] at hr
    refine h.move rfl (LinkWorld.goto_phase _ _ · _) ?_ ⟨?_, hr.2⟩
    · intro other d _ hkey
      have hne : other ≠ key := by
        intro he
        rw [he, free] at hkey
        cases hkey
      change Function.update s.mutex key (some r) other = some d
      rw [Function.update_of_ne hne]
      exact hkey
    · intro other hother
      change Function.update s.mutex key (some r) other = some r
      by_cases he : other = key
      · rw [he, Function.update_self]
      · rw [Function.update_of_ne he]
        rw [List.take_add_one, next] at hother
        rcases List.mem_append.mp hother with hold | hnew
        · exact hr.1 other hold
        · exact absurd (by simpa using hnew) he
  | give waits quiet =>
    refine h.ends ?_
    intro probed detached removed houtcome
    rcases quiet with hq | ⟨error, hq⟩
    · rw [hq] at houtcome
      cases houtcome
    · rw [hq] at houtcome
      cases houtcome
  | create _ req _ commit => exact h.create req hok commit
  | delete waits req all commit => exact h.delete waits req all commit
  | store publishes req =>
    refine h.move rfl (LinkWorld.end_phase _ _ · _ _)
      (fun _ _ hd hkey => LinkWorld.release_mutex _ hd hkey) ?_
    intro _ _ _ houtcome
    cases houtcome
  | @leave r began linkId outcome publishes req =>
    have hr := h.phases r
    rw [publishes] at hr
    refine h.ends ?_
    intro probed detached removed houtcome
    obtain ⟨hdetached, hremoved, _⟩ := hr probed detached removed houtcome
    exact ⟨hdetached, hremoved⟩
  | elsewhere keeps => exact ⟨h.ids, h.phases⟩

theorem LinkEnv.deletesMatch_of_run {env : LinkEnv} {lab : Lab} (hids : lab.linkIds.Nodup)
    {s : LinkWorld} {actions : List LinkAction}
    (run : Run (Guarded (stepOf env.step) env.NoReuse) { lab := lab } actions s) :
    env.DeletesMatch s := by
  refine run.guarded_invariant (fun before a h hok => ?_) ⟨hids, fun _ => trivial⟩
  rcases env.step_cases before a with hstay | hmoves
  · rw [hstay]
    exact h
  · exact h.step hok hmoves

/-- In a run in which no waiting deletion sees its id given to a link with other endpoints, a
`delete_link` removes the link it detached, which is the one it read first, and while it publishes it
holds the mutexes of every interface of that link. -/
theorem delete_link_removes_what_it_detached {env : LinkEnv} {lab : Lab} (hids : lab.linkIds.Nodup)
    {s : LinkWorld} {actions : List LinkAction}
    (run : Run (Guarded (stepOf env.step) env.NoReuse) { lab := lab } actions s)
    {r : Nat} {probed detached removed : Link}
    (hdeleted : (s.phase r).outcome? = some (.deleted probed detached removed)) :
    removed.endpoints = detached.endpoints ∧ detached.endpoints = probed.endpoints ∧
      ∀ began, s.phase r = .publishing began (.deleted probed detached removed) →
        ∀ key ∈ removed.ifaces, s.mutex key = some r := by
  have h := (env.deletesMatch_of_run hids run).phases r
  cases hphase : s.phase r with
  | idle =>
    rw [hphase] at hdeleted
    cases hdeleted
  | waiting began keys taken p =>
    rw [hphase] at hdeleted
    cases hdeleted
  | publishing began outcome =>
    rw [hphase] at h hdeleted
    obtain ⟨hdetached, hremoved, hheld⟩ := h probed detached removed (Option.some.inj hdeleted)
    exact ⟨hremoved, hdetached, fun _ _ => hheld⟩
  | done began ended outcome =>
    rw [hphase] at h hdeleted
    obtain ⟨hdetached, hremoved⟩ := h probed detached removed (Option.some.inj hdeleted)
    refine ⟨hremoved, hdetached, ?_⟩
    intro _ hpublishing
    cases hpublishing

/-- A lab with one network and one link on it. -/
def oneUplink : Lab :=
  { id := "lab"
    networks := Dict.empty.set 1 { id := 1, name := "lan" }
    links := [{ id := "lnk_001", from_ := .node 1 0, to_ := .network 1 }] }

def uplinkEnv : LinkEnv where
  labPath := "a.json"
  reqs r := if r = 2 then .create (.node 2 0) (.network 1) none "" else .delete "lnk_001"
  owner _ := none

def uplinkAfter (actions : List LinkAction) : LinkWorld :=
  actions.foldl uplinkEnv.step { lab := oneUplink }

def twoUplinks : Lab :=
  { oneUplink with
    links := oneUplink.links ++ [{ id := "lnk_002", from_ := .node 3 0, to_ := .network 1 }] }

def uplinksEnv : LinkEnv :=
  { uplinkEnv with reqs := fun r => if r = 3 then .delete "lnk_002" else uplinkEnv.reqs r }

/-- A deletion waits while the other link is deleted and a new link gets the id of that one. -/
def waitingDelete : List LinkAction :=
  [.begin_ 0, .begin_ 3, .acquire 3, .deleteLocked 3 true, .begin_ 2, .acquire 2,
    .createLocked 2 (some []), .finish 3, .finish 2, .acquire 0, .deleteLocked 0 true]

def uplinksAfter (n : Nat) : LinkWorld :=
  (waitingDelete.take n).foldl uplinksEnv.step { lab := twoUplinks }

theorem twoUplinks_nodup : twoUplinks.linkIds.Nodup := by decide

theorem waiting_delete_noReuse :
    uplinksEnv.NoReuse (uplinksAfter 6) (.createLocked 2 (some [])) := by
  intro a b style key hreq created hcreated d began keys taken probed hwaiting l hl hid
  cases hreq
  have hnames : created.concrete.map Link.id = ["lnk_002"] := by
    have hdata : (createLinkData (uplinksAfter 6).lab (.node 2 0) (.network 1) none).map
        (fun created => created.concrete.map Link.id) = .ok ["lnk_002"] := rfl
    rw [hcreated] at hdata
    exact Except.ok.inj hdata
  have hl' : l.id = "lnk_002" := by
    have hmem : l.id ∈ created.concrete.map Link.id := List.mem_map.mpr ⟨l, hl, rfl⟩
    rw [hnames] at hmem
    exact List.mem_singleton.mp hmem
  by_cases h3 : d = 3
  · subst h3
    cases hwaiting
  · by_cases h2 : d = 2
    · subst h2
      cases hwaiting
    · have hreq : uplinksEnv.reqs d = .delete "lnk_001" := by
        show (if d = 3 then _ else if d = 2 then _ else _) = _
        rw [if_neg h3, if_neg h2]
      have run : Run (Guarded (stepOf uplinksEnv.step) uplinksEnv.NoReuse) { lab := twoUplinks }
          (waitingDelete.take 6) (uplinksAfter 6) :=
        Run.cons ⟨trivial, rfl⟩ (Run.cons ⟨trivial, rfl⟩ (Run.cons ⟨trivial, rfl⟩
          (Run.cons ⟨trivial, rfl⟩ (Run.cons ⟨trivial, rfl⟩ (Run.single ⟨trivial, rfl⟩)))))
      have hphase := (uplinksEnv.deletesMatch_of_run twoUplinks_nodup run).phases d
      rw [hwaiting] at hphase
      obtain ⟨hprobed, _⟩ := hphase.2 probed "lnk_001" rfl hreq
      rw [hl', hprobed] at hid
      exact absurd hid (by decide)

theorem waiting_delete_removes_what_it_detached :
    ∃ probed detached removed,
      ((uplinksAfter 11).phase 0).outcome? = some (.deleted probed detached removed) ∧
        (removed.endpoints = detached.endpoints ∧ detached.endpoints = probed.endpoints) ∧
        removed.ifaces = [(1, 0)] ∧ (uplinksAfter 11).mutex (1, 0) = some 0 ∧
        (uplinksAfter 11).lab.links.map Link.id = ["lnk_002"] := by
  have run : Run (Guarded (stepOf uplinksEnv.step) uplinksEnv.NoReuse) { lab := twoUplinks }
      waitingDelete (uplinksAfter 11) := by
    refine Run.cons ⟨trivial, rfl⟩ (Run.cons ⟨trivial, rfl⟩ (Run.cons ⟨trivial, rfl⟩
      (Run.cons ⟨trivial, rfl⟩ (Run.cons ⟨trivial, rfl⟩ (Run.cons ⟨trivial, rfl⟩
        (Run.cons ⟨waiting_delete_noReuse, rfl⟩ (Run.cons ⟨trivial, rfl⟩
          (Run.cons ⟨trivial, rfl⟩ (Run.cons ⟨trivial, rfl⟩ (Run.single ⟨trivial, rfl⟩))))))))))
  have hphase : ∃ probed detached removed,
      (uplinksAfter 11).phase 0 = .publishing 0 (.deleted probed detached removed) ∧
        removed.ifaces = [(1, 0)] := ⟨_, _, _, rfl, rfl⟩
  obtain ⟨probed, detached, removed, hphase, hifaces⟩ := hphase
  have hdeleted : ((uplinksAfter 11).phase 0).outcome? =
      some (.deleted probed detached removed) := by
    rw [hphase]
    rfl
  obtain ⟨hremoved, hdetached, hheld⟩ := delete_link_removes_what_it_detached twoUplinks_nodup
    run hdeleted
  refine ⟨probed, detached, removed, hdeleted, ⟨hremoved, hdetached⟩, hifaces, ?_, by decide +kernel⟩
  exact hheld 0 hphase (1, 0) (by rw [hifaces]; exact List.mem_singleton.mpr rfl)

/-- The second of two deletions of a link waits while the first one runs and a new link gets its
id. -/
def reusedId : List LinkAction :=
  [.begin_ 0, .begin_ 1, .acquire 1, .deleteLocked 1 true, .finish 1,
    .begin_ 2, .acquire 2, .createLocked 2 (some []), .finish 2,
    .acquire 0, .deleteLocked 0 true]

theorem reused_id_removes_another_link :
    ∃ probed detached removed,
      ((uplinkAfter reusedId).phase 0).outcome? = some (.deleted probed detached removed) ∧
        removed.endpoints ≠ probed.endpoints ∧
        ∃ key ∈ removed.ifaces, (uplinkAfter reusedId).mutex key ≠ some 0 := by
  refine ⟨{ id := "lnk_001", from_ := .node 1 0, to_ := .network 1 },
    { id := "lnk_001", from_ := .node 2 0, to_ := .network 1 },
    { id := "lnk_001", from_ := .node 2 0, to_ := .network 1 }, ?_, ?_, (2, 0), ?_, ?_⟩
  · decide +kernel
  · decide
  · decide
  · decide +kernel

end NovaVe
