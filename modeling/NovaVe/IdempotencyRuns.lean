import NovaVe.LinkRequestSteps
import NovaVe.Runs

namespace NovaVe

variable {phase : RequestPhase} {entry : CachedLink} {env : LinkEnv} {s : LinkWorld} {r : Nat}

def LinkEnv.key? (env : LinkEnv) (r : Nat) : Option String := (env.reqs r).key?

def LinkWorld.Created (s : LinkWorld) (r : Nat) (entry : CachedLink) : Prop :=
  (s.phase r).outcome? = some (.created entry)

/-- What an idempotency key promises: one link for the requests that carry it, and that link for each
of them that has not ended before the request that created it began. -/
structure LinkEnv.KeysServe (env : LinkEnv) (s : LinkWorld) : Prop where
  atMostOne : ∀ r d key entry other, env.key? r = some key → env.key? d = some key →
    s.Created r entry → s.Created d other → r = d
  replays : ∀ r d key entry began began' ended outcome, d ≠ r → env.key? r = some key →
    env.key? d = some key → s.Created r entry → (s.phase r).began? = some began →
      s.phase d = .done began' ended outcome → began ≤ ended → outcome = .replayed entry

/-- A request with a key begins after another one with that key has created a link only while the
cache has the key and that link has not been deleted; and no request creates a link while another one
with its key is under way. -/
def LinkEnv.KeyOk (env : LinkEnv) (s : LinkWorld) : LinkAction → Prop
  | .begin_ r => ∀ key, env.key? r = some key → ∀ d entry, env.key? d = some key →
      s.Created d entry → cacheFind s.cache env.labPath key ≠ none ∧ s.lost d = false
  | .createLocked r (some _) =>
    ∀ a b style key, env.reqs r = .create a b style key → key ≠ "" →
      ∀ created, createLinkData s.lab a b style = .ok created →
        ∀ began keys taken probed, s.phase r = .waiting began keys taken probed →
          keys.length ≤ taken → ∀ d, d ≠ r → env.key? d = some key →
            s.phase d = .idle ∨
              ∃ began' ended outcome, s.phase d = .done began' ended outcome ∧ ended < began
  | _ => True

/-- The other requests with the key of one that created a link: not begun, replayed, or ended without
a link before it began. -/
def RequestPhase.Behind (phase : RequestPhase) (began : Nat) (entry : CachedLink) : Prop :=
  phase = .idle ∨ (∃ b e, phase = .done b e (.replayed entry)) ∨
    ∃ b e outcome, phase = .done b e outcome ∧ e < began ∧ ∀ other, outcome ≠ .created other

structure LinkEnv.KeyInv (env : LinkEnv) (s : LinkWorld) : Prop where
  sole : ∀ r d key entry began, d ≠ r → env.key? r = some key → env.key? d = some key →
    s.Created r entry → (s.phase r).began? = some began → (s.phase d).Behind began entry
  cached : ∀ e ∈ s.cache, e.1.1 = env.labPath → ∃ r began ended,
    env.key? r = some e.1.2 ∧ s.phase r = .done began ended (.created e.2)
  replayed : ∀ d entry, (s.phase d).outcome? = some (.replayed entry) →
    ∃ r key, env.key? r = some key ∧ env.key? d = some key ∧ s.Created r entry
  kept : ∀ r entry, s.Created r entry → s.lost r = false →
    s.lab.endpointsOf entry.linkId = some entry.linkPayload.endpoints

theorem RequestPhase.began_of_outcome {outcome : RequestOutcome} (h : phase.outcome? = some outcome) :
    ∃ began, phase.began? = some began := by
  cases phase with
  | idle => cases h
  | waiting => cases h
  | publishing began _ => exact ⟨began, rfl⟩
  | done began _ _ => exact ⟨began, rfl⟩

theorem RequestPhase.Behind.not_created {began : Nat} (h : phase.Behind began entry)
    (other : CachedLink) :
    phase.outcome? ≠ some (.created other) := by
  intro hcreated
  rcases h with rfl | ⟨b, e, rfl⟩ | ⟨b, e, outcome, rfl, _, hnot⟩
  · cases hcreated
  · cases hcreated
  · exact hnot other (Option.some.inj hcreated)

theorem RequestPhase.Behind.not_waiting {began : Nat} (h : phase.Behind began entry) {b taken : Nat}
    {keys : List (Int × Int)} {probed : Option Link} :
    phase ≠ .waiting b keys taken probed := by
  intro hwaiting
  rcases h with rfl | ⟨_, _, rfl⟩ | ⟨_, _, _, rfl, _⟩ <;> cases hwaiting

/-- While a request with a key waits, no other one with that key has created a link. -/
theorem LinkEnv.KeyInv.none_created (h : env.KeyInv s) {r d : Nat} {key : String} {b taken : Nat}
    {keys : List (Int × Int)} {probed : Option Link} (hr : env.key? r = some key)
    (hd : env.key? d = some key) (hwaits : s.phase r = .waiting b keys taken probed) :
    ¬ s.Created d entry := by
  intro hcreated
  have hne : r ≠ d := by
    intro he
    subst he
    unfold LinkWorld.Created at hcreated
    rw [hwaits] at hcreated
    cases hcreated
  obtain ⟨began, hbegan⟩ := RequestPhase.began_of_outcome hcreated
  exact (h.sole d r key entry began hne hd hr hcreated hbegan).not_waiting hwaits

theorem LinkEnv.KeyInv.creator_unique (h : env.KeyInv s) {r d : Nat} {key : String}
    {entry other : CachedLink} (hr : env.key? r = some key) (hd : env.key? d = some key)
    (hcreated : s.Created r entry) (hother : s.Created d other) :
    r = d := by
  by_contra hne
  obtain ⟨began, hbegan⟩ := RequestPhase.began_of_outcome hcreated
  exact (h.sole r d key entry began (Ne.symm hne) hr hd hcreated hbegan).not_created other hother

/-- What a step does to the phases: one request moves on, and an outcome stays. -/
structure PhaseMove (s t : LinkWorld) (r : Nat) (phase : RequestPhase) : Prop where
  phases : ∀ d, t.phase d = if d = r then phase else s.phase d
  stays : ∀ outcome, (s.phase r).outcome? = some outcome →
    phase.outcome? = some outcome ∧ phase.began? = (s.phase r).began?
  open_ : ∀ began ended outcome, s.phase r ≠ .done began ended outcome

theorem PhaseMove.self {s t : LinkWorld} (h : PhaseMove s t r phase) : t.phase r = phase := by
  rw [h.phases, if_pos rfl]

theorem PhaseMove.other {s t : LinkWorld} {r d : Nat} (h : PhaseMove s t r phase) (hd : d ≠ r) :
    t.phase d = s.phase d := by
  rw [h.phases, if_neg hd]

theorem PhaseMove.outcome {s t : LinkWorld} {r d : Nat} (h : PhaseMove s t r phase)
    {outcome : RequestOutcome} (hd : (s.phase d).outcome? = some outcome) :
    (t.phase d).outcome? = some outcome := by
  by_cases he : d = r
  · subst he
    rw [h.self]
    exact (h.stays outcome hd).1
  · rw [h.other he]
    exact hd

/-- A step keeps the invariant if its request, when it now has created a link, leaves the others with
its key behind, and is behind those that have. -/
theorem LinkEnv.KeyInv.move {s t : LinkWorld} (h : env.KeyInv s) (hmove : PhaseMove s t r phase)
    (hcreator : ∀ d key entry began, d ≠ r → env.key? r = some key → env.key? d = some key →
      phase.outcome? = some (.created entry) → phase.began? = some began →
        (s.phase d).Behind began entry)
    (hother : ∀ d key entry began, d ≠ r → env.key? r = some key → env.key? d = some key →
      s.Created d entry → (s.phase d).began? = some began → phase.Behind began entry)
    (hcache : ∀ e ∈ t.cache, e.1.1 = env.labPath → e ∈ s.cache ∨
      ∃ began ended, env.key? r = some e.1.2 ∧ phase = .done began ended (.created e.2))
    (hreplayed : ∀ entry, phase.outcome? = some (.replayed entry) →
      ∃ d key, env.key? d = some key ∧ env.key? r = some key ∧ s.Created d entry)
    (hkept : ∀ d entry, t.Created d entry → t.lost d = false →
      t.lab.endpointsOf entry.linkId = some entry.linkPayload.endpoints) : env.KeyInv t := by
  constructor
  · intro c d key entry began hne hc hd hcreated hbegan
    unfold LinkWorld.Created at hcreated
    by_cases hcr : c = r
    · subst hcr
      rw [hmove.self] at hcreated hbegan
      rw [hmove.other hne]
      exact hcreator d key entry began hne hc hd hcreated hbegan
    · rw [hmove.other hcr] at hcreated hbegan
      by_cases hdr : d = r
      · subst hdr
        rw [hmove.self]
        exact hother c key entry began hcr hd hc hcreated hbegan
      · rw [hmove.other hdr]
        exact h.sole c d key entry began hne hc hd hcreated hbegan
  · intro e he hpath
    rcases hcache e he hpath with hold | ⟨began, ended, hkey, hphase⟩
    · obtain ⟨c, began, ended, hkey, hdone⟩ := h.cached e hold hpath
      have hne : c ≠ r := by
        intro hcr
        subst hcr
        exact hmove.open_ _ _ _ hdone
      refine ⟨c, began, ended, hkey, ?_⟩
      rw [hmove.other hne]
      exact hdone
    · refine ⟨r, began, ended, hkey, ?_⟩
      rw [hmove.self]
      exact hphase
  · intro d entry hd
    by_cases hdr : d = r
    · subst hdr
      rw [hmove.self] at hd
      obtain ⟨c, key, hc, hkey, hcreated⟩ := hreplayed entry hd
      exact ⟨c, key, hc, hkey, hmove.outcome hcreated⟩
    · rw [hmove.other hdr] at hd
      obtain ⟨c, key, hc, hkey, hcreated⟩ := h.replayed d entry hd
      exact ⟨c, key, hc, hkey, hmove.outcome hcreated⟩
  · exact hkept

/-- A step after which no request has newly created or replayed a link. -/
theorem LinkEnv.KeyInv.settle {s t : LinkWorld} (h : env.KeyInv s) (hmove : PhaseMove s t r phase)
    (hcreated : ∀ entry, phase.outcome? = some (.created entry) → s.Created r entry)
    (hreplayed : ∀ entry, phase.outcome? = some (.replayed entry) →
      (s.phase r).outcome? = some (.replayed entry))
    (hnone : ∀ d key entry, d ≠ r → env.key? r = some key → env.key? d = some key →
      ¬ s.Created d entry) (hcache : ∀ e ∈ t.cache, e.1.1 = env.labPath → e ∈ s.cache ∨
      ∃ began ended, env.key? r = some e.1.2 ∧ phase = .done began ended (.created e.2))
    (hkept : ∀ d entry, s.Created d entry → t.lost d = false → s.lost d = false ∧
      t.lab.endpointsOf entry.linkId = s.lab.endpointsOf entry.linkId) : env.KeyInv t := by
  refine h.move hmove ?_ ?_ hcache ?_ ?_
  · intro d key entry began hne hr hd hnew hbegan
    have hold := hcreated entry hnew
    rw [(hmove.stays _ hold).2] at hbegan
    exact h.sole r d key entry began hne hr hd hold hbegan
  · intro d key entry began hne hr hd hother _
    exact absurd hother (hnone d key entry hne hr hd)
  · intro entry hnew
    obtain ⟨d, key, hd, hr, hother⟩ := h.replayed r entry (hreplayed entry hnew)
    exact ⟨d, key, hd, hr, hother⟩
  · intro d entry hd hlost
    have hold : s.Created d entry := by
      unfold LinkWorld.Created at hd ⊢
      by_cases hdr : d = r
      · subst hdr
        rw [hmove.self] at hd
        exact hcreated entry hd
      · rw [hmove.other hdr] at hd
        exact hd
    obtain ⟨hlost', hends⟩ := hkept d entry hold hlost
    rw [hends]
    exact h.kept d entry hold hlost'

theorem PhaseMove.goto {s s' : LinkWorld} (hphase : s'.phase = s.phase)
    (hopen : (s.phase r).outcome? = none) :
    PhaseMove s (s'.goto r phase) r phase := by
  refine ⟨fun d => ?_, ?_, ?_⟩
  · rw [LinkWorld.goto_phase, hphase]
  · intro outcome houtcome
    rw [hopen] at houtcome
    cases houtcome
  · intro began ended outcome hdone
    rw [hdone] at hopen
    cases hopen

theorem PhaseMove.publish {s s' : LinkWorld} {r began : Nat} {outcome : RequestOutcome}
    (hphase : s'.phase = s.phase) (hpublishes : s.phase r = .publishing began outcome) :
    PhaseMove s (s'.end_ r began outcome) r (.done began s'.clock outcome) := by
  refine ⟨fun d => ?_, ?_, ?_⟩
  · rw [LinkWorld.end_phase, hphase]
  · intro other hother
    rw [hpublishes] at hother ⊢
    exact ⟨hother, rfl⟩
  · intro _ _ _ hdone
    rw [hpublishes] at hdone
    cases hdone

theorem LinkEnv.key?_create {a b : Endpoint} {style : Option String} {key key' : String}
    (req : env.reqs r = .create a b style key) (h : env.key? r = some key') :
    key' = key ∧ key ≠ "" := by
  unfold LinkEnv.key? at h
  rw [req] at h
  simp only [LinkRequest.key?] at h
  split at h
  next => cases h
  next hne => exact ⟨(Option.some.inj h).symm, hne⟩

theorem LinkEnv.key?_of_create {a b : Endpoint} {style : Option String} {key : String}
    (req : env.reqs r = .create a b style key) (hne : key ≠ "") :
    env.key? r = some key := by
  unfold LinkEnv.key?
  rw [req]
  exact if_neg hne

theorem LinkEnv.key?_delete {linkId : String} (req : env.reqs r = .delete linkId) :
    env.key? r = none := by
  unfold LinkEnv.key?
  rw [req]
  rfl

theorem LinkWorld.markLost_eq_false {announced : List String} (hcreated : s.Created r entry)
    (h : s.markLost announced r = false) :
    s.lost r = false ∧ entry.linkId ∉ announced := by
  unfold LinkWorld.markLost at h
  unfold LinkWorld.Created at hcreated
  rw [hcreated] at h
  simpa using h

/-- A request that finds its key in the cache is behind the one that created the link. -/
theorem LinkEnv.KeyInv.hit (h : env.KeyInv s) {a b : Endpoint} {style : Option String}
    {key : String} {cache : IdempotencyCache} (idle : s.phase r = .idle)
    (req : env.reqs r = .create a b style key)
    (look : cacheGet s.cache env.labPath key = some (entry, cache)) :
    env.KeyInv ({ s with cache := cache }.goto r (.done s.clock s.clock (.replayed entry))) := by
  obtain ⟨hne, hmem, hsub⟩ := cacheGet_some look
  have hkey := LinkEnv.key?_of_create req hne
  obtain ⟨c, began, ended, hc, hdone⟩ := h.cached _ hmem rfl
  have hc_created : s.Created c entry := by
    unfold LinkWorld.Created
    rw [hdone]
    rfl
  have hmove : PhaseMove s ({ s with cache := cache }.goto r
      (.done s.clock s.clock (.replayed entry))) r (.done s.clock s.clock (.replayed entry)) :=
    PhaseMove.goto rfl (by rw [idle]; rfl)
  refine h.move hmove ?_ ?_ (fun e he _ => Or.inl (hsub e he)) ?_ ?_
  · intro _ _ _ _ _ _ _ hnew _
    cases hnew
  · intro d key' other began' hdr hr hd hother _
    right
    left
    obtain rfl : key' = key := (LinkEnv.key?_create req hr).1
    obtain rfl : d = c := h.creator_unique hd hc hother hc_created
    have hentry := hother.symm.trans hc_created
    cases hentry
    exact ⟨_, _, rfl⟩
  · intro other hnew
    cases hnew
    exact ⟨c, key, hc, hkey, hc_created⟩
  · intro d other hd hlost
    refine h.kept d other ?_ hlost
    unfold LinkWorld.Created at hd ⊢
    by_cases hdr : d = r
    · subst hdr
      rw [hmove.self] at hd
      cases hd
    · rw [hmove.other hdr] at hd
      exact hd

/-- A request that creates a link leaves the others with its key behind. -/
theorem LinkEnv.KeyInv.create (h : env.KeyInv s) {r began taken : Nat} {keys : List (Int × Int)}
    {probed : Option Link} {a b : Endpoint} {style : Option String} {key : String}
    {hotAttach : Option (List Stamp)} {lab : Lab}
    (waits : s.phase r = .waiting began keys taken probed)
    (req : env.reqs r = .create a b style key) (all : keys.length ≤ taken)
    (hok : env.KeyOk s (.createLocked r hotAttach))
    (commit : createLinkLocked s.lab a b style hotAttach = .ok (lab, entry)) :
    env.KeyInv ({ s with lab := lab }.goto r (.publishing began (.created entry))) := by
  have hmove : PhaseMove s ({ s with lab := lab }.goto r (.publishing began (.created entry))) r
      (.publishing began (.created entry)) := PhaseMove.goto rfl (by rw [waits]; rfl)
  obtain ⟨created, stamps, _, _, hcreated, hstamps, _⟩ := createLinkLocked_ok commit
  refine h.move hmove ?_ ?_ (fun _ he _ => Or.inl he) (fun _ hnew => by cases hnew) ?_
  · intro d key' other began' hdr hr hd hnew hbegan
    cases hnew
    cases hbegan
    obtain ⟨rfl, hne⟩ := LinkEnv.key?_create req hr
    subst hstamps
    rcases hok a b style key' req hne created hcreated began keys taken probed waits all d hdr hd with
      hidle | ⟨b', e', outcome, hdone, hended⟩
    · exact Or.inl hidle
    · refine Or.inr (Or.inr ⟨b', e', outcome, hdone, hended, ?_⟩)
      intro third houtcome
      have hthird : s.Created d third := by
        unfold LinkWorld.Created
        rw [hdone, houtcome]
        rfl
      exact h.none_created hr hd waits hthird
  · intro d key' other _ _ hr hd hother _
    exact absurd hother (h.none_created hr hd waits)
  · intro d other hd hlost
    by_cases hdr : d = r
    · subst hdr
      unfold LinkWorld.Created at hd
      rw [hmove.self] at hd
      cases hd
      exact (createLinkLocked_payload commit).2
    · unfold LinkWorld.Created at hd
      rw [hmove.other hdr] at hd
      exact createLinkLocked_keeps commit (h.kept d other hd hlost)

theorem LinkEnv.KeyInv.step {s t : LinkWorld} {a : LinkAction} (h : env.KeyInv s)
    (hok : env.KeyOk s a) (hstep : LinkStep env s a t) : env.KeyInv t := by
  have hstays : ∀ d entry, s.Created d entry → s.lost d = false → s.lost d = false ∧
      s.lab.endpointsOf entry.linkId = s.lab.endpointsOf entry.linkId :=
    fun _ _ _ hlost => ⟨hlost, rfl⟩
  cases hstep with
  | hit idle req look => exact h.hit idle req look
  | @miss r a b style key idle req look =>
    refine h.settle (PhaseMove.goto rfl (by rw [idle]; rfl)) (fun _ hnew => by cases hnew)
      (fun _ hnew => by cases hnew) ?_ (fun _ he _ => Or.inl he) hstays
    intro d key' entry _ hr hd hcreated
    obtain ⟨rfl, hne⟩ := LinkEnv.key?_create req hr
    obtain ⟨hfind, _⟩ := hok key' hr d entry hd hcreated
    unfold cacheGet at look
    rw [if_neg hne] at look
    exact hfind (Option.map_eq_none_iff.mp look)
  | absent idle req =>
    refine h.settle (PhaseMove.goto rfl (by rw [idle]; rfl)) (fun _ hnew => by cases hnew)
      (fun _ hnew => by cases hnew) ?_ (fun _ he _ => Or.inl he) hstays
    intro _ _ _ _ hr
    rw [LinkEnv.key?_delete req] at hr
    cases hr
  | probe idle req look =>
    refine h.settle (PhaseMove.goto rfl (by rw [idle]; rfl)) (fun _ hnew => by cases hnew)
      (fun _ hnew => by cases hnew) ?_ (fun _ he _ => Or.inl he) hstays
    intro _ _ _ _ hr
    rw [LinkEnv.key?_delete req] at hr
    cases hr
  | take waits next free =>
    refine h.settle (PhaseMove.goto rfl (by rw [waits]; rfl)) (fun _ hnew => by cases hnew)
      (fun _ hnew => by cases hnew) ?_ (fun _ he _ => Or.inl he) hstays
    exact fun _ _ _ _ hr hd => h.none_created hr hd waits
  | @give a r began taken keys probed outcome waits quiet =>
    refine h.settle (PhaseMove.goto rfl (by rw [waits]; rfl)) ?_ ?_ ?_ (fun _ he _ => Or.inl he) hstays
    · intro entry hnew
      cases hnew
      rcases quiet with hq | ⟨_, hq⟩ <;> cases hq
    · intro entry hnew
      cases hnew
      rcases quiet with hq | ⟨_, hq⟩ <;> cases hq
    · exact fun _ _ _ _ hr hd => h.none_created hr hd waits
  | create waits req all commit => exact h.create waits req all hok commit
  | @delete r began taken keys probed linkId detached deleted waits req all commit =>
    refine h.settle (PhaseMove.goto rfl (by rw [waits]; rfl)) (fun _ hnew => by cases hnew)
      (fun _ hnew => by cases hnew) ?_ (fun _ he _ => Or.inl he) ?_
    · intro _ _ _ _ hr
      rw [LinkEnv.key?_delete req] at hr
      cases hr
    · intro d entry hd hlost
      obtain ⟨hold, hother⟩ := LinkWorld.markLost_eq_false hd hlost
      exact ⟨hold, deleteLinkLocked_keeps commit hother⟩
  | @store r began a b style key entry publishes req =>
    have hself : s.Created r entry := by
      unfold LinkWorld.Created
      rw [publishes]
      rfl
    refine h.settle (PhaseMove.publish rfl publishes) ?_ (fun _ hnew => by cases hnew) ?_ ?_ hstays
    · intro other hnew
      cases hnew
      exact hself
    · intro d _ other hne hr hd hother
      exact hne (h.creator_unique hd hr hother hself)
    · intro e he hpath
      rcases mem_cacheSet he with hold | ⟨rfl, hne⟩
      · exact Or.inl hold
      · exact Or.inr ⟨_, _, LinkEnv.key?_of_create req hne, rfl⟩
  | @leave r began linkId outcome publishes req =>
    refine h.settle (PhaseMove.publish rfl publishes) ?_ ?_ ?_ (fun _ he _ => Or.inl he) hstays
    · intro entry hnew
      unfold LinkWorld.Created
      rw [publishes]
      exact hnew
    · intro entry hnew
      rw [publishes]
      exact hnew
    · intro _ _ _ _ hr
      rw [LinkEnv.key?_delete req] at hr
      cases hr
  | elsewhere keeps =>
    exact ⟨h.sole, fun e he hpath => h.cached e (keeps e he hpath) hpath, h.replayed, h.kept⟩

theorem LinkEnv.keyInv_of_run {lab : Lab} {actions : List LinkAction}
    (run : Run (Guarded (stepOf env.step) env.KeyOk) { lab := lab } actions s) : env.KeyInv s := by
  refine run.guarded_invariant ?_ ⟨?_, ?_, ?_, ?_⟩
  · intro before a h hok
    rcases env.step_cases before a with hstay | hmoves
    · rw [hstay]
      exact h
    · exact h.step hok hmoves
  · intro _ _ _ _ _ _ _ _ hcreated
    cases hcreated
  · intro e he
    cases he
  · intro _ _ hreplayed
    cases hreplayed
  · intro _ _ hcreated
    cases hcreated

theorem LinkEnv.KeyInv.serves (h : env.KeyInv s) : env.KeysServe s := by
  constructor
  · intro r d key entry other hr hd hcreated hother
    exact h.creator_unique hr hd hcreated hother
  · intro r d key entry began began' ended outcome hne hr hd hcreated hbegan hdone hended
    rcases h.sole r d key entry began hne hr hd hcreated hbegan with
      hidle | ⟨b, e, hreplayed⟩ | ⟨b, e, other, hbefore, hlt, _⟩
    · rw [hdone] at hidle
      cases hidle
    · rw [hdone] at hreplayed
      cases hreplayed
      rfl
    · rw [hdone] at hbefore
      cases hbefore
      omega

/-- A request that is answered from the cache is answered with a link that is in the lab. -/
theorem LinkEnv.KeyInv.replay_exists (h : env.KeyInv s) (hok : env.KeyOk s (.begin_ r))
    (hidle : s.phase r = .idle)
    (hreplay : ((env.step s (.begin_ r)).phase r).outcome? = some (.replayed entry)) :
    s.lab.endpointsOf entry.linkId = some entry.linkPayload.endpoints := by
  simp only [LinkEnv.step, if_pos hidle, LinkEnv.beginRequest] at hreplay
  split at hreplay
  next a b style key req =>
    split at hreplay
    next entry' cache look =>
      rw [LinkWorld.goto_phase_self] at hreplay
      cases hreplay
      obtain ⟨hne, hmem, _⟩ := cacheGet_some look
      obtain ⟨c, began, ended, hc, hdone⟩ := h.cached _ hmem rfl
      have hcreated : s.Created c entry := by
        unfold LinkWorld.Created
        rw [hdone]
        rfl
      obtain ⟨_, hlost⟩ := hok key (LinkEnv.key?_of_create req hne) c entry hc hcreated
      exact h.kept c entry hcreated hlost
    next =>
      rw [LinkWorld.goto_phase_self] at hreplay
      cases hreplay
  next linkId req =>
    split at hreplay
    next =>
      rw [LinkWorld.goto_phase_self] at hreplay
      cases hreplay
    next =>
      rw [LinkWorld.goto_phase_self] at hreplay
      cases hreplay

/-- In a run whose requests keep to the condition, a key serves every request that carries it, and what
is answered from the cache is in the lab at that moment. -/
theorem idempotency_keys_serve {env : LinkEnv} {lab : Lab} {s : LinkWorld} {actions : List LinkAction}
    (run : Run (Guarded (stepOf env.step) env.KeyOk) { lab := lab } actions s) :
    env.KeysServe s ∧
      ∀ r entry, env.KeyOk s (.begin_ r) → s.phase r = .idle →
        ((env.step s (.begin_ r)).phase r).outcome? = some (.replayed entry) →
          s.lab.endpointsOf entry.linkId = some entry.linkPayload.endpoints := by
  have h := LinkEnv.keyInv_of_run run
  exact ⟨h.serves, fun r entry hok hidle hreplay => h.replay_exists hok hidle hreplay⟩

/-- A lab with one network, a creation with a key that is sent again and again, and a deletion. -/
def oneLan : Lab :=
  { id := "lab", networks := Dict.empty.set 1 { id := 1, name := "lan" } }

def keyedEnv : LinkEnv where
  labPath := "a.json"
  reqs r := if r = 1 then .delete "lnk_001" else .create (.node 1 0) (.network 1) none "k"
  owner _ := none

def keyedAfter (actions : List LinkAction) : LinkWorld :=
  actions.foldl keyedEnv.step { lab := oneLan }

def createOnce (r : Nat) : List LinkAction :=
  [.begin_ r, .acquire r, .createLocked r (some []), .finish r]

theorem repeated_create_is_served : keyedEnv.KeysServe (keyedAfter (createOnce 0 ++ [.begin_ 2])) := by
  have hbegin : keyedEnv.KeyOk { lab := oneLan } (.begin_ 0) := by
    intro _ _ _ _ _ hcreated
    cases hcreated
  have hcreate : keyedEnv.KeyOk (keyedAfter [.begin_ 0, .acquire 0]) (.createLocked 0 (some [])) := by
    intro _ _ _ _ _ _ _ _ _ _ _ _ _ _ d hd _
    left
    change (((({ lab := oneLan } : LinkWorld).goto 0 _).goto 0 _).phase d) = _
    rw [LinkWorld.goto_phase_ne _ _ hd, LinkWorld.goto_phase_ne _ _ hd]
  have hagain : keyedEnv.KeyOk (keyedAfter (createOnce 0)) (.begin_ 2) := by
    intro key hkey d entry _ _
    obtain rfl : "k" = key := Option.some.inj hkey
    refine ⟨?_, rfl⟩
    decide +kernel
  have run : Run (Guarded (stepOf keyedEnv.step) keyedEnv.KeyOk) { lab := oneLan }
      (createOnce 0 ++ [.begin_ 2]) (keyedAfter (createOnce 0 ++ [.begin_ 2])) :=
    Run.cons ⟨hbegin, rfl⟩ (Run.cons ⟨trivial, rfl⟩ (Run.cons ⟨hcreate, rfl⟩
      (Run.cons ⟨trivial, rfl⟩ (Run.single ⟨hagain, rfl⟩))))
  exact (idempotency_keys_serve run).1

/-- A key outlives its link, and of two requests with one key that run at the same time the second is
refused. -/
theorem replayed_link_is_gone :
    (∃ entry, ((keyedAfter (createOnce 0 ++
        [.begin_ 1, .acquire 1, .deleteLocked 1 true, .finish 1, .begin_ 2])).phase 2).outcome? =
          some (.replayed entry) ∧
      (keyedAfter (createOnce 0 ++
        [.begin_ 1, .acquire 1, .deleteLocked 1 true, .finish 1, .begin_ 2])).lab.endpointsOf
          entry.linkId = none) ∧
    ∃ existing, ((keyedAfter ([.begin_ 2] ++ createOnce 0 ++
        [.acquire 2, .createLocked 2 (some [])])).phase 2).outcome? =
          some (.failed (.duplicateLink existing)) := by
  refine ⟨⟨{ linkId := "lnk_001", linkPayload :=
    { id := "lnk_001", from_ := .node 1 0, to_ := .network 1 } }, ?_, ?_⟩,
    { id := "lnk_001", from_ := .node 1 0, to_ := .network 1 }, ?_⟩
  · decide +kernel
  · decide +kernel
  · decide +kernel

end NovaVe
