import NovaVe.LinkGraph
import NovaVe.LockRequests

namespace NovaVe

/-- What the idempotency cache keeps of a created link. -/
structure CachedLink where
  linkId : String
  linkPayload : Link
  networkPayload : Option Network := none
deriving DecidableEq

/-- `_IDEMPOTENCY_CACHE_MAX`. -/
def idempotencyCacheMax : Nat := 1024

abbrev IdempotencyCache := List ((String × String) × CachedLink)

def cacheFind (cache : IdempotencyCache) (labPath key : String) : Option CachedLink :=
  (cache.find? (fun entry => decide (entry.1 = (labPath, key)))).map Prod.snd

def cacheDrop (cache : IdempotencyCache) (labPath key : String) : IdempotencyCache :=
  cache.filter (fun entry => decide (entry.1 ≠ (labPath, key)))

/-- `_cache_get`: the entry, and the cache with that entry moved to the end. -/
def cacheGet (cache : IdempotencyCache) (labPath key : String) :
    Option (CachedLink × IdempotencyCache) :=
  if key = "" then none
  else (cacheFind cache labPath key).map
    (fun entry => (entry, cacheDrop cache labPath key ++ [((labPath, key), entry)]))

/-- `_cache_set`: the oldest entries go when there are too many. -/
def cacheSet (cache : IdempotencyCache) (labPath key : String) (entry : CachedLink) :
    IdempotencyCache :=
  if key = "" then cache
  else
    let grown := cacheDrop cache labPath key ++ [((labPath, key), entry)]
    grown.drop (grown.length - idempotencyCacheMax)

/-- What `create_link` returns: the record of its first link, read again when it was stamped, and the
implicit or promoted network. -/
def createdPayload (created : CreatedLink) (after : Lab) (stamped : Bool) (first : Link) :
    CachedLink :=
  let link := if stamped then (findLink after first.id).getD first else first
  { linkId := link.id
    linkPayload := link
    networkPayload := (created.implicitNetwork.map buildImplicitNetwork).or created.promoted }

/-- `_create_link_locked` up to the publishing of its events. -/
def createLinkLocked (data : Lab) (a b : Endpoint) (style : Option String)
    (hotAttach : Option (List Stamp)) : Except LinkError (Lab × CachedLink) :=
  match createLinkData data a b style with
  | .error e => .error e
  | .ok created =>
    match hotAttach, created.concrete with
    | none, _ => .error .hotAttach
    | some _, [] => .error .linkMissing
    | some stamps, first :: _ =>
      let after := stamps.foldl stampLinkAttachGeneration created.data
      .ok (after, createdPayload created after (!stamps.isEmpty) first)

/-- The link that the deletion of another one leaves alone on an implicit network. -/
def orphanOf (networks : Dict Int Network) (links : List Link) (networkId : Int) : Option Link :=
  match networks.get? networkId with
  | some record =>
    if record.implicit ∧ refcount links networkId = 1 then
      links.find? (fun l => decide (networkId ∈ l.networks))
    else none
  | none => none

/-- The ids of the links that phase 4 of `_delete_link_locked` drops by cascade. -/
def cascadedIds (networks : Dict Int Network) : List Link → List Int → List String
  | _, [] => []
  | links, networkId :: rest =>
    (orphanOf networks links networkId).toList.map Link.id ++
      cascadedIds networks (cascadeOrphan networks links networkId) rest

/-- A deletion: the record whose interfaces were detached, the record that was removed and the ids of
the `link_deleted` events. -/
structure DeletedLink where
  data : Lab
  detached : Link
  removed : Link
  announced : List String
deriving DecidableEq

/-- `_delete_link_locked` up to the publishing of its events; `none` for a link already deleted. -/
def deleteLinkLocked (owner : String → Option IpamTarget) (data : Lab) (linkId : String)
    (detached : Bool) : Except LinkError (Option DeletedLink) :=
  match findLink data linkId with
  | none => .ok none
  | some target =>
    if detached then
      match linkIpRelease owner data target with
      | none => .error .ipamTargetMissing
      | some release =>
        let released := releaseHere data release
        match findLink released linkId with
        | none => .ok none
        | some removed =>
          let rest := released.links.eraseP (fun l => decide (l.id = linkId))
          .ok (some {
            data := removeLink released removed linkId
            detached := target
            removed := removed
            announced := cascadedIds released.networks rest removed.networks ++ [linkId] })
    else .error .hotAttach

inductive LinkRequest
  | create (from_ to_ : Endpoint) (style : Option String) (key : String)
  | delete (linkId : String)
deriving DecidableEq, Repr

/-- The idempotency key of a request, if it has one. -/
def LinkRequest.key? : LinkRequest → Option String
  | .create _ _ _ key => if key = "" then none else some key
  | .delete _ => none

inductive RequestOutcome
  | replayed (entry : CachedLink)
  | created (entry : CachedLink)
  | deleted (probed detached removed : Link)
  | alreadyDeleted
  | failed (error : LinkError)
deriving DecidableEq

/-- Where a request stands: it waits for its mutexes in order, `probed` is the record a deletion read
before, then it publishes with its mutexes held. The numbers are times. -/
inductive RequestPhase
  | idle
  | waiting (began : Nat) (keys : List (Int × Int)) (taken : Nat) (probed : Option Link)
  | publishing (began : Nat) (outcome : RequestOutcome)
  | done (began ended : Nat) (outcome : RequestOutcome)
deriving DecidableEq

def RequestPhase.outcome? : RequestPhase → Option RequestOutcome
  | .publishing _ outcome | .done _ _ outcome => some outcome
  | _ => none

def RequestPhase.began? : RequestPhase → Option Nat
  | .waiting began _ _ _ | .publishing began _ | .done began _ _ => some began
  | .idle => none

/-- What the requests on one lab share. `lost` marks the requests whose link was deleted since. -/
structure LinkWorld where
  lab : Lab
  clock : Nat := 0
  cache : IdempotencyCache := []
  mutex : Int × Int → Option Nat := fun _ => none
  phase : Nat → RequestPhase := fun _ => .idle
  lost : Nat → Bool := fun _ => false

inductive LinkAction
  | begin_ (r : Nat)
  | acquire (r : Nat)
  | giveUp (r : Nat)
  | createLocked (r : Nat) (hotAttach : Option (List Stamp))
  | deleteLocked (r : Nat) (detached : Bool)
  | finish (r : Nat)
  /-- A request on another lab looks up its key, or stores the link it created. -/
  | elsewhere (labPath key : String) (entry : Option CachedLink)
deriving DecidableEq

def LinkWorld.goto (s : LinkWorld) (r : Nat) (phase : RequestPhase) : LinkWorld :=
  { s with clock := s.clock + 1, phase := Function.update s.phase r phase }

/-- The exit of the `AsyncExitStack`. -/
def LinkWorld.release (s : LinkWorld) (r : Nat) : LinkWorld :=
  { s with mutex := fun key => if s.mutex key = some r then none else s.mutex key }

/-- A request returns or raises. -/
def LinkWorld.end_ (s : LinkWorld) (r began : Nat) (outcome : RequestOutcome) : LinkWorld :=
  (s.release r).goto r (.done began s.clock outcome)

/-- The requests whose link is among the deleted ones are marked. -/
def LinkWorld.markLost (s : LinkWorld) (announced : List String) : Nat → Bool := fun r =>
  s.lost r ||
    match (s.phase r).outcome? with
    | some (.created entry) => decide (entry.linkId ∈ announced)
    | _ => false

/-- What the requests do not change: the path of the lab, the requests themselves and the other labs'
NAT clouds. -/
structure LinkEnv where
  labPath : String
  reqs : Nat → LinkRequest
  owner : String → Option IpamTarget

def LinkEnv.beginRequest (env : LinkEnv) (s : LinkWorld) (r : Nat) : LinkWorld :=
  match env.reqs r with
  | .create a b _ key =>
    match cacheGet s.cache env.labPath key with
    | some (entry, cache) =>
      { s with cache := cache }.goto r (.done s.clock s.clock (.replayed entry))
    | none =>
      s.goto r (.waiting s.clock (sortedKeys ([a, b].filterMap Endpoint.iface?)) 0 none)
  | .delete linkId =>
    match findLink s.lab linkId with
    | none => s.goto r (.done s.clock s.clock .alreadyDeleted)
    | some probed => s.goto r (.waiting s.clock (sortedKeys probed.ifaces) 0 (some probed))

def LinkEnv.step (env : LinkEnv) (s : LinkWorld) : LinkAction → LinkWorld
  | .begin_ r => if s.phase r = .idle then env.beginRequest s r else s
  | .acquire r =>
    match s.phase r with
    | .waiting began keys taken probed =>
      match keys[taken]? with
      | none => s
      | some key =>
        match s.mutex key with
        | some _ => s
        | none =>
          { s with mutex := Function.update s.mutex key (some r) }.goto r
            (.waiting began keys (taken + 1) probed)
    | _ => s
  -- the bounded wait for a mutex that is still missing ends
  | .giveUp r =>
    match s.phase r with
    | .waiting began keys taken _ =>
      if taken < keys.length then s.end_ r began (.failed .contention) else s
    | _ => s
  | .createLocked r hotAttach =>
    match s.phase r, env.reqs r with
    | .waiting began keys taken _, .create a b style _ =>
      if taken < keys.length then s
      else
        match createLinkLocked s.lab a b style hotAttach with
        | .error e => s.end_ r began (.failed e)
        | .ok (lab, entry) => { s with lab := lab }.goto r (.publishing began (.created entry))
    | _, _ => s
  | .deleteLocked r detached =>
    match s.phase r, env.reqs r with
    | .waiting began keys taken (some probed), .delete linkId =>
      if taken < keys.length then s
      else
        match deleteLinkLocked env.owner s.lab linkId detached with
        | .error e => s.end_ r began (.failed e)
        | .ok none => s.end_ r began .alreadyDeleted
        | .ok (some deleted) =>
          { s with lab := deleted.data, lost := s.markLost deleted.announced }.goto r
            (.publishing began (.deleted probed deleted.detached deleted.removed))
    | _, _ => s
  | .finish r =>
    match s.phase r, env.reqs r with
    | .publishing began (.created entry), .create _ _ _ key =>
      { s with cache := cacheSet s.cache env.labPath key entry }.end_ r began (.created entry)
    | .publishing began outcome, .delete _ => s.end_ r began outcome
    | _, _ => s
  | .elsewhere labPath key entry =>
    if labPath = env.labPath then s
    else
      match entry with
      | some entry => { s with cache := cacheSet s.cache labPath key entry }
      | none =>
        match cacheGet s.cache labPath key with
        | some (_, cache) => { s with cache := cache }
        | none => s

end NovaVe
