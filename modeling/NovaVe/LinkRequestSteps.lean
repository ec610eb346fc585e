import NovaVe.LinkRecords

namespace NovaVe

/-- An outcome that neither answers with a link nor removes one. -/
def RequestOutcome.Quiet (outcome : RequestOutcome) : Prop :=
  outcome = .alreadyDeleted ∨ ∃ error, outcome = .failed error

/-- What an action does when it is enabled. -/
inductive LinkStep (env : LinkEnv) (s : LinkWorld) : LinkAction → LinkWorld → Prop
  | hit {r : Nat} {a b : Endpoint} {style : Option String} {key : String} {entry : CachedLink}
      {cache : IdempotencyCache} (idle : s.phase r = .idle)
      (req : env.reqs r = .create a b style key)
      (look : cacheGet s.cache env.labPath key = some (entry, cache)) :
      LinkStep env s (.begin_ r)
        ({ s with cache := cache }.goto r (.done s.clock s.clock (.replayed entry)))
  | miss {r : Nat} {a b : Endpoint} {style : Option String} {key : String}
      (idle : s.phase r = .idle) (req : env.reqs r = .create a b style key)
      (look : cacheGet s.cache env.labPath key = none) :
      LinkStep env s (.begin_ r)
        (s.goto r (.waiting s.clock (sortedKeys ([a, b].filterMap Endpoint.iface?)) 0 none))
  | absent {r : Nat} {linkId : String} (idle : s.phase r = .idle)
      (req : env.reqs r = .delete linkId) :
      LinkStep env s (.begin_ r) (s.goto r (.done s.clock s.clock .alreadyDeleted))
  | probe {r : Nat} {linkId : String} {probed : Link} (idle : s.phase r = .idle)
      (req : env.reqs r = .delete linkId) (look : findLink s.lab linkId = some probed) :
      LinkStep env s (.begin_ r)
        (s.goto r (.waiting s.clock (sortedKeys probed.ifaces) 0 (some probed)))
  | take {r began taken : Nat} {keys : List (Int × Int)} {probed : Option Link} {key : Int × Int}
      (waits : s.phase r = .waiting began keys taken probed) (next : keys[taken]? = some key)
      (free : s.mutex key = none) :
      LinkStep env s (.acquire r)
        ({ s with mutex := Function.update s.mutex key (some r) }.goto r
          (.waiting began keys (taken + 1) probed))
  | give {a : LinkAction} {r began taken : Nat} {keys : List (Int × Int)} {probed : Option Link}
      {outcome : RequestOutcome} (waits : s.phase r = .waiting began keys taken probed)
      (quiet : outcome.Quiet) : LinkStep env s a (s.end_ r began outcome)
  | create {r began taken : Nat} {keys : List (Int × Int)} {probed : Option Link} {a b : Endpoint}
      {style : Option String} {key : String} {hotAttach : Option (List Stamp)} {lab : Lab}
      {entry : CachedLink} (waits : s.phase r = .waiting began keys taken probed)
      (req : env.reqs r = .create a b style key) (all : keys.length ≤ taken)
      (commit : createLinkLocked s.lab a b style hotAttach = .ok (lab, entry)) :
      LinkStep env s (.createLocked r hotAttach)
        ({ s with lab := lab }.goto r (.publishing began (.created entry)))
  | delete {r began taken : Nat} {keys : List (Int × Int)} {probed : Link} {linkId : String}
      {detached : Bool} {deleted : DeletedLink}
      (waits : s.phase r = .waiting began keys taken (some probed))
      (req : env.reqs r = .delete linkId) (all : keys.length ≤ taken)
      (commit : deleteLinkLocked env.owner s.lab linkId detached = .ok (some deleted)) :
      LinkStep env s (.deleteLocked r detached)
        ({ s with lab := deleted.data, lost := s.markLost deleted.announced }.goto r
          (.publishing began (.deleted probed deleted.detached deleted.removed)))
  | store {r began : Nat} {a b : Endpoint} {style : Option String} {key : String}
      {entry : CachedLink} (publishes : s.phase r = .publishing began (.created entry))
      (req : env.reqs r = .create a b style key) :
      LinkStep env s (.finish r)
        ({ s with cache := cacheSet s.cache env.labPath key entry }.end_ r began (.created entry))
  | leave {r began : Nat} {linkId : String} {outcome : RequestOutcome}
      (publishes : s.phase r = .publishing began outcome) (req : env.reqs r = .delete linkId) :
      LinkStep env s (.finish r) (s.end_ r began outcome)
  | elsewhere {labPath key : String} {entry : Option CachedLink} {cache : IdempotencyCache}
      (keeps : ∀ e ∈ cache, e.1.1 = env.labPath → e ∈ s.cache) :
      LinkStep env s (.elsewhere labPath key entry) { s with cache := cache }

theorem mem_cacheFind {cache : IdempotencyCache} {labPath key : String} {entry : CachedLink}
    (h : cacheFind cache labPath key = some entry) : ((labPath, key), entry) ∈ cache := by
  obtain ⟨found, hfind, rfl⟩ := Option.map_eq_some_iff.mp h
  have hkey : found.1 = (labPath, key) := by simpa using List.find?_some hfind
  have hmem := List.mem_of_find?_eq_some hfind
  rw [← hkey]
  exact hmem

/-- A hit returns an entry of the cache, and leaves no entry that was not there. -/
theorem cacheGet_some {cache cache' : IdempotencyCache} {labPath key : String} {entry : CachedLink}
    (h : cacheGet cache labPath key = some (entry, cache')) :
    key ≠ "" ∧ ((labPath, key), entry) ∈ cache ∧ ∀ e ∈ cache', e ∈ cache := by
  unfold cacheGet at h
  split at h
  next => cases h
  next hkey =>
    obtain ⟨found, hfind, hpair⟩ := Option.map_eq_some_iff.mp h
    obtain ⟨rfl, rfl⟩ := Prod.mk.inj hpair
    have hmem := mem_cacheFind hfind
    refine ⟨hkey, hmem, ?_⟩
    intro e he
    rcases List.mem_append.mp he with hold | hnew
    · exact (List.mem_filter.mp hold).1
    · rw [List.mem_singleton.mp hnew]
      exact hmem

/-- What is in the cache after a store was there, or is the new entry. -/
theorem mem_cacheSet {cache : IdempotencyCache} {labPath key : String} {entry : CachedLink}
    {e : (String × String) × CachedLink} (h : e ∈ cacheSet cache labPath key entry) :
    e ∈ cache ∨ (e = ((labPath, key), entry) ∧ key ≠ "") := by
  unfold cacheSet at h
  split at h
  next => exact Or.inl h
  next hkey =>
    rcases List.mem_append.mp (List.mem_of_mem_drop h) with hold | hnew
    · exact Or.inl (List.mem_filter.mp hold).1
    · exact Or.inr ⟨List.mem_singleton.mp hnew, hkey⟩

theorem LinkEnv.beginRequest_step (env : LinkEnv) (s : LinkWorld) {r : Nat}
    (hidle : s.phase r = .idle) : LinkStep env s (.begin_ r) (env.beginRequest s r) := by
  unfold LinkEnv.beginRequest
  split
  next a b style key hreq =>
    split
    next entry cache hlook => exact LinkStep.hit hidle hreq hlook
    next hlook => exact LinkStep.miss hidle hreq hlook
  next linkId hreq =>
    split
    next => exact LinkStep.absent hidle hreq
    next probed hlook => exact LinkStep.probe hidle hreq hlook

/-- Every action is one of these steps or changes nothing. -/
theorem LinkEnv.step_cases (env : LinkEnv) (s : LinkWorld) (a : LinkAction) :
    env.step s a = s ∨ LinkStep env s a (env.step s a) := by
  cases a with
  | begin_ r =>
    simp only [LinkEnv.step]
    split
    next hidle => exact Or.inr (env.beginRequest_step s hidle)
    next => exact Or.inl rfl
  | acquire r =>
    simp only [LinkEnv.step]
    split
    next began keys taken probed hwaits =>
      split
      next => exact Or.inl rfl
      next key hnext =>
        split
        next => exact Or.inl rfl
        next hfree => exact Or.inr (LinkStep.take hwaits hnext hfree)
    next => exact Or.inl rfl
  | giveUp r =>
    simp only [LinkEnv.step]
    split
    next began keys taken probed hwaits =>
      split
      next => exact Or.inr (LinkStep.give hwaits (Or.inr ⟨_, rfl⟩))
      next => exact Or.inl rfl
    next => exact Or.inl rfl
  | createLocked r hotAttach =>
    simp only [LinkEnv.step]
    split
    next began keys taken probed from_ to_ style key hwaits hreq =>
      split
      next => exact Or.inl rfl
      next hall =>
        split
        next => exact Or.inr (LinkStep.give hwaits (Or.inr ⟨_, rfl⟩))
        next hcommit => exact Or.inr (LinkStep.create hwaits hreq (Nat.le_of_not_lt hall) hcommit)
    next => exact Or.inl rfl
  | deleteLocked r detached =>
    simp only [LinkEnv.step]
    split
    next began keys taken probed linkId hwaits hreq =>
      split
      next => exact Or.inl rfl
      next hall =>
        split
        next => exact Or.inr (LinkStep.give hwaits (Or.inr ⟨_, rfl⟩))
        next => exact Or.inr (LinkStep.give hwaits (Or.inl rfl))
        next hcommit => exact Or.inr (LinkStep.delete hwaits hreq (Nat.le_of_not_lt hall) hcommit)
    next => exact Or.inl rfl
  | finish r =>
    simp only [LinkEnv.step]
    split
    next hpublishes hreq => exact Or.inr (LinkStep.store hpublishes hreq)
    next hpublishes hreq => exact Or.inr (LinkStep.leave hpublishes hreq)
    next => exact Or.inl rfl
  | elsewhere labPath key entry =>
    simp only [LinkEnv.step]
    split
    next => exact Or.inl rfl
    next hother =>
      split
      next entry =>
        refine Or.inr (LinkStep.elsewhere ?_)
        intro e he hpath
        rcases mem_cacheSet he with hold | ⟨rfl, _⟩
        · exact hold
        · exact absurd hpath hother
      next =>
        split
        next hlook =>
          refine Or.inr (LinkStep.elsewhere ?_)
          intro e he _
          exact (cacheGet_some hlook).2.2 e he
        next => exact Or.inl rfl

theorem LinkWorld.goto_phase (s : LinkWorld) (r d : Nat) (phase : RequestPhase) :
    (s.goto r phase).phase d = if d = r then phase else s.phase d :=
  Function.update_apply s.phase r phase d

theorem LinkWorld.end_phase (s : LinkWorld) (r d began : Nat) (outcome : RequestOutcome) :
    (s.end_ r began outcome).phase d =
      if d = r then .done began s.clock outcome else s.phase d :=
  (s.release r).goto_phase r d _

@[simp] theorem LinkWorld.goto_phase_self (s : LinkWorld) (r : Nat) (phase : RequestPhase) :
    (s.goto r phase).phase r = phase := by
  rw [LinkWorld.goto_phase, if_pos rfl]

theorem LinkWorld.goto_phase_ne (s : LinkWorld) {r d : Nat} (phase : RequestPhase) (h : d ≠ r) :
    (s.goto r phase).phase d = s.phase d := by
  rw [LinkWorld.goto_phase, if_neg h]

/-- Another request's mutexes survive a release. -/
theorem LinkWorld.release_mutex (s : LinkWorld) {r d : Nat} {key : Int × Int} (hne : d ≠ r)
    (h : s.mutex key = some d) : (s.release r).mutex key = some d := by
  change (if s.mutex key = some r then none else s.mutex key) = some d
  rw [h, if_neg]
  intro he
  exact hne (Option.some.inj he)

end NovaVe
