import NovaVe.Runs
import NovaVe.SerialTables
import NovaVe.Texts

namespace NovaVe

/-- The settings of the service, the hash of the password that a user is given, and the digest in
the name of a connection. -/
structure GuacamoleSettings where
  targetHost : String
  fontName : String
  fontSize : Int
  passwordHash : String → String
  digest : String → String

structure GuacamoleUser where
  entityId : Nat
  passwordHash : String
  disabled : Bool
  expired : Bool
deriving DecidableEq, Repr

structure GuacamoleGroup where
  name : String
  parent : Option Nat
deriving DecidableEq, Repr

structure GuacamoleConnection where
  name : String
  parent : Option Nat
  protocol : String
deriving DecidableEq, Repr

/-- The tables that the service writes; of the entities, the names of the users. -/
structure GuacamoleDb where
  entities : SerialTable String
  users : SerialTable GuacamoleUser
  groups : SerialTable GuacamoleGroup
  connections : SerialTable GuacamoleConnection
  parameters : List (Nat × String × String)
  permissions : List (Nat × Nat × String)

def emptyGuacamole : GuacamoleDb :=
  ⟨SerialTable.empty, SerialTable.empty, SerialTable.empty, SerialTable.empty, [], []⟩

/-- The arguments of `create_console_url`. -/
structure ConsoleRequest where
  username : String
  host : String
  port : Int
  protocol : String
  connectionName : String
  connectionKey : Option String
deriving DecidableEq, Repr

def rootGroupName : String := "nova-ve"

/-- `_guacamole_username`. -/
def guacamoleUsername (username : String) : String :=
  if pyStrip username = "" then "user" else pyStrip username

/-- `_connection_name`. -/
def guacamoleConnectionName (settings : GuacamoleSettings) (request : ConsoleRequest) : String :=
  let key := match request.connectionKey with
    | none => request.connectionName
    | some key => if key = "" then request.connectionName else key
  let base := key ++ "-" ++ request.protocol ++ "-" ++ guacamoleUsername request.username
  let digest := (settings.digest base).toList.take 12
  let safePrefix := (key.toList.map (fun c => if c = ':' then '-' else c)).take 72
  String.ofList
    ((safePrefix ++ ['-'] ++ request.protocol.toList ++ ['-'] ++ digest).take 120)

/-- `_connection_parameters`. -/
def connectionParameters (settings : GuacamoleSettings) (request : ConsoleRequest) :
    List (String × String) :=
  let host := if pyStrip settings.targetHost = "" then request.host
    else pyStrip settings.targetHost
  [("hostname", host), ("port", toString request.port)] ++
    if request.protocol = "rdp" then [("ignore-cert", "true"), ("security", "any")]
    else [("disable-auth", "true")] ++
      if request.protocol = "telnet" then
        [("font-name", settings.fontName), ("font-size", toString settings.fontSize)]
      else []

def ofEntity (entityId : Nat) (user : GuacamoleUser) : Bool := decide (user.entityId = entityId)

def isGroup (name : String) (parent : Option Nat) (group : GuacamoleGroup) : Bool :=
  decide (group.name = name ∧ group.parent = parent)

def isConnection (name : String) (parent : Nat) (connection : GuacamoleConnection) : Bool :=
  decide (connection.name = name ∧ connection.parent = some parent)

/-- `_ensure_user`. -/
def ensureUser (users : SerialTable GuacamoleUser) (entityId : Nat) (passwordHash : String) :
    SerialTable GuacamoleUser :=
  match users.find (ofEntity entityId) with
  | none => users.insert ⟨entityId, passwordHash, false, false⟩
  | some id => users.modify id fun user =>
      { user with passwordHash := passwordHash, disabled := false, expired := false }

/-- The row that `_ensure_connection` finds or inserts. -/
def ensureConnection (connections : SerialTable GuacamoleConnection) (groupId : Nat)
    (name protocol : String) : Nat × SerialTable GuacamoleConnection :=
  match connections.find (isConnection name groupId) with
  | none => (connections.serial, connections.insert ⟨name, some groupId, protocol⟩)
  | some id =>
    (id, connections.modify id fun connection => { connection with protocol := protocol })

/-- The transaction of `create_console_url`, and the number of the connection. -/
def provisionConsole (settings : GuacamoleSettings) (db : GuacamoleDb) (request : ConsoleRequest) :
    Nat × GuacamoleDb :=
  let username := guacamoleUsername request.username
  let entity := db.entities.ensure (fun name => decide (name = username)) username
  let users := ensureUser db.users entity.1 (settings.passwordHash username)
  let root := db.groups.ensure (isGroup rootGroupName none) ⟨rootGroupName, none⟩
  let groupName := "nova-ve:" ++ username
  let group := root.2.ensure (isGroup groupName (some root.1)) ⟨groupName, some root.1⟩
  let connection := ensureConnection db.connections group.1
    (guacamoleConnectionName settings request) request.protocol
  let parameters := db.parameters.filter (fun row => decide (row.1 ≠ connection.1)) ++
    (connectionParameters settings request).map (fun parameter => (connection.1, parameter))
  let permissions :=
    db.permissions.filter (fun row => decide (row ≠ (entity.1, connection.1, "READ"))) ++
      [(entity.1, connection.1, "READ")]
  (connection.1, ⟨entity.2, users, group.2, connection.2, parameters, permissions⟩)

/-- `create_console_url` as far as the database goes, with the attempts whose transaction fails. -/
def createConsole (settings : GuacamoleSettings) (db : GuacamoleDb) (request : ConsoleRequest)
    (failures : Nat) : Option Nat × GuacamoleDb :=
  if failures < 3 then
    (some (provisionConsole settings db request).1, (provisionConsole settings db request).2)
  else (none, db)

def runGuacamole (settings : GuacamoleSettings) (db : GuacamoleDb)
    (history : List (ConsoleRequest × Nat)) : GuacamoleDb :=
  history.foldl (fun db request => (createConsole settings db request.1 request.2).2) db

/-- What a request leaves in the database for its connection. -/
structure ConsoleProvisioned (settings : GuacamoleSettings) (request : ConsoleRequest) (id : Nat)
    (db : GuacamoleDb) (entityId rootId groupId : Nat) : Prop where
  entity : db.entities.find (fun name => decide (name = guacamoleUsername request.username)) =
    some entityId
  user : ∃ userId, db.users.find (ofEntity entityId) = some userId ∧ db.users.get? userId =
    some ⟨entityId, settings.passwordHash (guacamoleUsername request.username), false, false⟩
  root : db.groups.find (isGroup rootGroupName none) = some rootId
  group : db.groups.find
    (isGroup ("nova-ve:" ++ guacamoleUsername request.username) (some rootId)) = some groupId
  connection : db.connections.find
    (isConnection (guacamoleConnectionName settings request) groupId) = some id
  protocol : db.connections.get? id =
    some ⟨guacamoleConnectionName settings request, some groupId, request.protocol⟩
  parameters : db.parameters.filter (fun row => decide (row.1 = id)) =
    (connectionParameters settings request).map (fun parameter => (id, parameter))
  permission : (entityId, id, "READ") ∈ db.permissions

theorem ensureUser_row (users : SerialTable GuacamoleUser) (entityId : Nat)
    (passwordHash : String) : ∃ userId,
      (ensureUser users entityId passwordHash).find (ofEntity entityId) = some userId ∧
        (ensureUser users entityId passwordHash).get? userId =
          some ⟨entityId, passwordHash, false, false⟩ := by
  unfold ensureUser
  cases h : users.find (ofEntity entityId) with
  | none =>
    refine ⟨users.serial, SerialTable.find_insert_new h (decide_eq_true rfl), ?_⟩
    rw [SerialTable.get?_insert, if_pos rfl]
  | some id =>
    obtain ⟨user, huser, hentity⟩ := SerialTable.find_some h
    have hid : user.entityId = entityId := of_decide_eq_true hentity
    refine ⟨id, ?_, ?_⟩
    · refine (SerialTable.find_modify users ?_ id).trans h
      intro a
      rfl
    · rw [SerialTable.get?_modify, if_pos rfl, huser, Option.map_some, hid]

/-- The row of another entity stays. -/
theorem ensureUser_other {users : SerialTable GuacamoleUser} {entityId other userId : Nat}
    {user : GuacamoleUser} (hne : other ≠ entityId)
    (hfind : users.find (ofEntity entityId) = some userId) (hget : users.get? userId = some user)
    (passwordHash : String) :
    (ensureUser users other passwordHash).find (ofEntity entityId) = some userId ∧
      (ensureUser users other passwordHash).get? userId = some user := by
  obtain ⟨found, hfound, hentity⟩ := SerialTable.find_some hfind
  rw [hget] at hfound
  cases hfound
  have hid : user.entityId = entityId := of_decide_eq_true hentity
  unfold ensureUser
  cases h : users.find (ofEntity other) with
  | none =>
    refine ⟨SerialTable.find_insert hfind _, ?_⟩
    rw [SerialTable.get?_insert, if_neg]
    · exact hget
    · rintro rfl
      rw [users.get?_serial (Nat.le_refl _)] at hget
      cases hget
  | some id =>
    refine ⟨(SerialTable.find_modify users ?_ id).trans hfind, ?_⟩
    · exact fun _ => rfl
    rw [SerialTable.get?_modify, if_neg]
    · exact hget
    · rintro rfl
      obtain ⟨row, hrow, hother⟩ := SerialTable.find_some h
      rw [hget] at hrow
      cases hrow
      exact hne ((of_decide_eq_true hother : user.entityId = other).symm.trans hid)

theorem ensureConnection_row (connections : SerialTable GuacamoleConnection) (groupId : Nat)
    (name protocol : String) :
    (ensureConnection connections groupId name protocol).2.find (isConnection name groupId) =
        some (ensureConnection connections groupId name protocol).1 ∧
      (ensureConnection connections groupId name protocol).2.get?
          (ensureConnection connections groupId name protocol).1 =
        some ⟨name, some groupId, protocol⟩ := by
  unfold ensureConnection
  cases h : connections.find (isConnection name groupId) with
  | none =>
    refine ⟨SerialTable.find_insert_new h (decide_eq_true ⟨rfl, rfl⟩), ?_⟩
    simp only [SerialTable.get?_insert, if_true]
  | some id =>
    obtain ⟨connection, hget, hmatch⟩ := SerialTable.find_some h
    obtain ⟨hname, hparent⟩ : connection.name = name ∧ connection.parent = some groupId :=
      of_decide_eq_true hmatch
    refine ⟨(SerialTable.find_modify connections ?_ id).trans h, ?_⟩
    · exact fun _ => rfl
    simp only [SerialTable.get?_modify, if_true]
    rw [hget, Option.map_some, hname, hparent]

/-- A connection of another name or group stays, and is not the one that is found. -/
theorem ensureConnection_other {connections : SerialTable GuacamoleConnection}
    {groupId otherGroup id : Nat} {name otherName : String} {connection : GuacamoleConnection}
    (hne : otherName ≠ name ∨ otherGroup ≠ groupId)
    (hfind : connections.find (isConnection name groupId) = some id)
    (hget : connections.get? id = some connection) (protocol : String) :
    (ensureConnection connections otherGroup otherName protocol).1 ≠ id ∧
      (ensureConnection connections otherGroup otherName protocol).2.find
          (isConnection name groupId) = some id ∧
        (ensureConnection connections otherGroup otherName protocol).2.get? id =
          some connection := by
  obtain ⟨found, hfound, hmatch⟩ := SerialTable.find_some hfind
  rw [hget] at hfound
  cases hfound
  obtain ⟨hname, hparent⟩ : connection.name = name ∧ connection.parent = some groupId :=
    of_decide_eq_true hmatch
  have hserial : connections.serial ≠ id := by
    rintro rfl
    rw [connections.get?_serial (Nat.le_refl _)] at hget
    cases hget
  unfold ensureConnection
  cases h : connections.find (isConnection otherName otherGroup) with
  | none =>
    refine ⟨hserial, SerialTable.find_insert hfind _, ?_⟩
    simp only [SerialTable.get?_insert]
    rw [if_neg hserial]
    exact hget
  | some other =>
    have hother : other ≠ id := by
      rintro rfl
      obtain ⟨row, hrow, hrowMatch⟩ := SerialTable.find_some h
      rw [hget] at hrow
      cases hrow
      obtain ⟨hname', hparent'⟩ : connection.name = otherName ∧
          connection.parent = some otherGroup := of_decide_eq_true hrowMatch
      rcases hne with hne | hne
      · exact hne (hname'.symm.trans hname)
      · exact hne (Option.some.inj (hparent'.symm.trans hparent))
    refine ⟨hother, (SerialTable.find_modify connections ?_ other).trans hfind, ?_⟩
    · exact fun _ => rfl
    simp only [SerialTable.get?_modify]
    rw [if_neg hother]
    exact hget

theorem filter_own (rows : List (Nat × String × String)) (id : Nat)
    (parameters : List (String × String)) :
    (rows.filter (fun row => decide (row.1 ≠ id)) ++ parameters.map
      (fun parameter => (id, parameter))).filter (fun row => decide (row.1 = id)) =
        parameters.map (fun parameter => (id, parameter)) := by
  rw [List.filter_append, List.filter_filter, List.filter_eq_nil_iff.mpr, List.nil_append,
    List.filter_eq_self.mpr]
  · intro row hrow
    obtain ⟨parameter, _, rfl⟩ := List.mem_map.mp hrow
    exact decide_eq_true rfl
  · intro row _
    simp

theorem filter_others (rows : List (Nat × String × String)) {id other : Nat} (hne : other ≠ id)
    (parameters : List (String × String)) :
    (rows.filter (fun row => decide (row.1 ≠ other)) ++ parameters.map
      (fun parameter => (other, parameter))).filter (fun row => decide (row.1 = id)) =
        rows.filter (fun row => decide (row.1 = id)) := by
  rw [List.filter_append, List.filter_filter]
  have hnone : (parameters.map (fun parameter => (other, parameter))).filter
      (fun row => decide (row.1 = id)) = [] := by
    refine List.filter_eq_nil_iff.mpr fun row hrow => ?_
    obtain ⟨parameter, _, rfl⟩ := List.mem_map.mp hrow
    simpa using hne
  rw [hnone, List.append_nil]
  refine List.filter_congr fun row _ => ?_
  by_cases hrow : row.1 = id
  · simp [hrow, hne.symm]
  · simp [hrow]

/-- A request leaves the database as it needs it. -/
theorem provision_row (settings : GuacamoleSettings) (db : GuacamoleDb) (request : ConsoleRequest) :
    ∃ entityId rootId groupId,
      ConsoleProvisioned settings request (provisionConsole settings db request).1
        (provisionConsole settings db request).2 entityId rootId groupId := by
  have hroot := db.groups.find_ensure (p := isGroup rootGroupName none) (a := ⟨rootGroupName, none⟩)
    (decide_eq_true ⟨rfl, rfl⟩)
  refine ⟨_, _, _, SerialTable.find_ensure _ (decide_eq_true rfl), ensureUser_row _ _ _,
    SerialTable.find_keeps hroot _ _, SerialTable.find_ensure _ (decide_eq_true ⟨rfl, rfl⟩), ?_, ?_,
    filter_own _ _ _, List.mem_append_right _ List.mem_cons_self⟩
  · exact (ensureConnection_row _ _ _ _).1
  · exact (ensureConnection_row _ _ _ _).2

theorem ensure_found {α : Type} {t : SerialTable α} {p : α → Bool} {id : Nat}
    (h : t.find p = some id) (a : α) : t.ensure p a = (id, t) := by
  unfold SerialTable.ensure
  rw [h]

theorem groupName_inj {username other : String} (h : "nova-ve:" ++ username = "nova-ve:" ++ other) :
    username = other := by
  have hlist := congrArg String.toList h
  exact String.toList_inj.mp (by simpa using hlist)

theorem ensured_entity {entities : SerialTable String} {username other : String} {entityId : Nat}
    (h : entities.find (fun name => decide (name = username)) = some entityId) :
    (entities.ensure (fun name => decide (name = other)) other).1 = entityId ↔
      other = username := by
  constructor
  · intro heq
    obtain ⟨name, hname, hother⟩ := SerialTable.ensure_row entities
      (p := fun name => decide (name = other)) (a := other) (decide_eq_true rfl)
    obtain ⟨found, hfound, hown⟩ := SerialTable.find_some h
    rw [heq, SerialTable.ensure_keeps hfound] at hname
    cases hname
    exact (of_decide_eq_true hother : name = other).symm.trans (of_decide_eq_true hown)
  · rintro rfl
    rw [ensure_found h]

theorem ensured_group {groups : SerialTable GuacamoleGroup} {username other : String}
    {rootId groupId : Nat}
    (h : groups.find (isGroup ("nova-ve:" ++ username) (some rootId)) = some groupId)
    (hne : other ≠ username) :
    (groups.ensure (isGroup ("nova-ve:" ++ other) (some rootId))
      ⟨"nova-ve:" ++ other, some rootId⟩).1 ≠ groupId := by
  intro heq
  obtain ⟨group, hgroup, hother⟩ := SerialTable.ensure_row groups
    (p := isGroup ("nova-ve:" ++ other) (some rootId)) (a := ⟨"nova-ve:" ++ other, some rootId⟩)
    (decide_eq_true ⟨rfl, rfl⟩)
  obtain ⟨found, hfound, hown⟩ := SerialTable.find_some h
  rw [heq, SerialTable.ensure_keeps hfound] at hgroup
  cases hgroup
  have hname : group.name = "nova-ve:" ++ username ∧ group.parent = some rootId :=
    of_decide_eq_true hown
  have hname' : group.name = "nova-ve:" ++ other ∧ group.parent = some rootId :=
    of_decide_eq_true hother
  exact hne (groupName_inj (hname'.1.symm.trans hname.1))

/-- A request for another user or another connection leaves it. -/
theorem provision_keeps {settings : GuacamoleSettings} {db : GuacamoleDb}
    {request other : ConsoleRequest} {id entityId rootId groupId : Nat}
    (h : ConsoleProvisioned settings request id db entityId rootId groupId)
    (hne : guacamoleUsername other.username ≠ guacamoleUsername request.username ∨
      guacamoleConnectionName settings other ≠ guacamoleConnectionName settings request) :
    ConsoleProvisioned settings request id (provisionConsole settings db other).2 entityId rootId
      groupId := by
  obtain ⟨userId, huser, hrow⟩ := h.user
  unfold provisionConsole
  simp only [ensure_found h.root]
  have hentity := @ensured_entity db.entities _ (guacamoleUsername other.username) _ h.entity
  have hconnection : guacamoleConnectionName settings other ≠
      guacamoleConnectionName settings request ∨
        (db.groups.ensure (isGroup ("nova-ve:" ++ guacamoleUsername other.username) (some rootId))
          ⟨"nova-ve:" ++ guacamoleUsername other.username, some rootId⟩).1 ≠ groupId := by
    rcases hne with huserNe | hnameNe
    · exact Or.inr (ensured_group h.group huserNe)
    · exact Or.inl hnameNe
  obtain ⟨hid, hfind, hget⟩ :=
    ensureConnection_other hconnection h.connection h.protocol other.protocol
  refine ⟨SerialTable.find_keeps h.entity _ _, ?_, SerialTable.find_keeps h.root _ _,
    SerialTable.find_keeps h.group _ _, hfind, hget, (filter_others _ hid _).trans h.parameters, ?_⟩
  · by_cases hsame : guacamoleUsername other.username = guacamoleUsername request.username
    · rw [hentity.mpr hsame, hsame]
      exact ensureUser_row db.users entityId _
    · obtain ⟨hfound, hkept⟩ :=
        ensureUser_other (fun heq => hsame (hentity.mp heq)) huser hrow _
      exact ⟨userId, hfound, hkept⟩
  · refine List.mem_append_left _ (List.mem_filter.mpr ⟨h.permission, ?_⟩)
    refine decide_eq_true fun heq => hid ?_
    exact (Prod.mk.inj (Prod.mk.inj heq).2).1.symm

/-- In every run, as long as no later request is for the same user and connection, the connection
of a request is in the group of its user, takes its protocol and its parameters and no others, and
the user may read it. -/
theorem console_provisioned {settings : GuacamoleSettings} {db : GuacamoleDb}
    {request : ConsoleRequest} {failures : Nat} (hfailures : failures < 3)
    (before after : List (ConsoleRequest × Nat))
    (hafter : ∀ other ∈ after, other.2 < 3 →
      guacamoleUsername other.1.username ≠ guacamoleUsername request.username ∨
        guacamoleConnectionName settings other.1 ≠ guacamoleConnectionName settings request) :
    ∃ id entityId rootId groupId,
      (createConsole settings (runGuacamole settings db before) request failures).1 = some id ∧
        ConsoleProvisioned settings request id
          (runGuacamole settings db (before ++ (request, failures) :: after))
          entityId rootId groupId := by
  obtain ⟨entityId, rootId, groupId, hrow⟩ :=
    provision_row settings (runGuacamole settings db before) request
  refine ⟨_, entityId, rootId, groupId, by rw [createConsole, if_pos hfailures], ?_⟩
  have hstart : runGuacamole settings db (before ++ (request, failures) :: after) =
      runGuacamole settings (provisionConsole settings (runGuacamole settings db before) request).2
        after := by
    unfold runGuacamole
    rw [List.foldl_append, List.foldl_cons]
    simp only [createConsole, if_pos hfailures]
  rw [hstart]
  clear hstart
  generalize (provisionConsole settings (runGuacamole settings db before) request).2 = reached
    at hrow ⊢
  induction after generalizing reached with
  | nil => exact hrow
  | cons other after ih =>
    obtain ⟨hother, hrest⟩ := List.forall_mem_cons.mp hafter
    change ConsoleProvisioned _ _ _ (runGuacamole settings
      (createConsole settings reached other.1 other.2).2 after) _ _ _
    refine ih hrest (createConsole settings reached other.1 other.2).2 ?_
    unfold createConsole
    split
    next hcommitted => exact provision_keeps hrow (hother hcommitted)
    next => exact hrow

def plainSettings : GuacamoleSettings := ⟨"", "monospace", 12, fun text => text, fun text => text⟩

def consoleOf (username : String) : ConsoleRequest :=
  ⟨username, "10.0.0.2", 2001, "telnet", "lab:r1", none⟩

theorem two_consoles_provisioned : ∃ id entityId rootId groupId,
    (createConsole plainSettings (runGuacamole plainSettings emptyGuacamole []) (consoleOf " anna ")
      1).1 = some id ∧
      ConsoleProvisioned plainSettings (consoleOf " anna ") id
        (runGuacamole plainSettings emptyGuacamole
          ([] ++ (consoleOf " anna ", 1) :: [(consoleOf "bob", 0), (consoleOf "anna", 3)]))
        entityId rootId groupId :=
  console_provisioned (by decide) [] [(consoleOf "bob", 0), (consoleOf "anna", 3)] (by
    intro other hother hcommitted
    rcases List.mem_cons.mp hother with rfl | hlast
    · exact Or.inl (by decide)
    · obtain rfl := List.mem_singleton.mp hlast
      exact absurd hcommitted (by decide))

/-- The references between the tables hold, and a connection in the group of a user is permitted to
that user only. -/
structure GuacamoleDb.Confined (db : GuacamoleDb) : Prop where
  groupParents : ∀ id group parent, db.groups.get? id = some group → group.parent = some parent →
    (db.groups.get? parent).isSome = true
  connectionParents : ∀ id connection parent, db.connections.get? id = some connection →
    connection.parent = some parent → (db.groups.get? parent).isSome = true
  permitted : ∀ row ∈ db.permissions, (db.connections.get? row.2.1).isSome = true
  own : ∀ row ∈ db.permissions, ∀ connection groupId group rootId,
    db.connections.get? row.2.1 = some connection → connection.parent = some groupId →
      db.groups.get? groupId = some group → group.parent = some rootId →
        db.groups.find (isGroup rootGroupName none) = some rootId →
          ∃ username, db.entities.get? row.1 = some username ∧ group.name = "nova-ve:" ++ username

theorem emptyGuacamole_confined : emptyGuacamole.Confined where
  groupParents _ _ _ h := nomatch h
  connectionParents _ _ _ h := nomatch h
  permitted _ h := absurd h List.not_mem_nil
  own _ h := absurd h List.not_mem_nil

theorem SerialTable.isSome_ensure {α : Type} {t : SerialTable α} {id : Nat}
    (h : (t.get? id).isSome = true) (p : α → Bool) (a : α) :
    ((t.ensure p a).2.get? id).isSome = true := by
  obtain ⟨b, hb⟩ := Option.isSome_iff_exists.mp h
  rw [SerialTable.ensure_keeps hb]
  rfl

theorem ensureConnection_get {connections : SerialTable GuacamoleConnection} {groupId id : Nat}
    {name protocol : String} {connection : GuacamoleConnection}
    (h : (ensureConnection connections groupId name protocol).2.get? id = some connection) :
    (∃ before, connections.get? id = some before ∧ connection.parent = before.parent) ∨
      connections.serial = id ∧ connection.parent = some groupId := by
  unfold ensureConnection at h
  cases hfind : connections.find (isConnection name groupId) with
  | none =>
    rw [hfind] at h
    simp only [SerialTable.get?_insert] at h
    split at h
    next heq =>
      obtain rfl := Option.some.inj h
      exact Or.inr ⟨heq, rfl⟩
    next => exact Or.inl ⟨connection, h, rfl⟩
  | some other =>
    rw [hfind] at h
    simp only [SerialTable.get?_modify] at h
    split at h
    next =>
      obtain ⟨before, hbefore, rfl⟩ := Option.map_eq_some_iff.mp h
      exact Or.inl ⟨before, hbefore, rfl⟩
    next => exact Or.inl ⟨connection, h, rfl⟩

theorem ensureConnection_keeps {connections : SerialTable GuacamoleConnection} {id : Nat}
    (h : (connections.get? id).isSome = true) (groupId : Nat) (name protocol : String) :
    ((ensureConnection connections groupId name protocol).2.get? id).isSome = true := by
  unfold ensureConnection
  cases connections.find (isConnection name groupId) with
  | none =>
    simp only [SerialTable.get?_insert]
    split
    next => rfl
    next => exact h
  | some other =>
    simp only [SerialTable.get?_modify]
    split
    next => rw [Option.isSome_map]; exact h
    next => exact h

/-- The groups after a request: those before, the root and the group of the user. -/
theorem ensured_groups {groups : SerialTable GuacamoleGroup} {name : String} {id : Nat}
    {group : GuacamoleGroup}
    (h : ((groups.ensure (isGroup rootGroupName none) ⟨rootGroupName, none⟩).2.ensure
      (isGroup name (some (groups.ensure (isGroup rootGroupName none) ⟨rootGroupName, none⟩).1))
        ⟨name, some (groups.ensure (isGroup rootGroupName none) ⟨rootGroupName, none⟩).1⟩).2.get?
          id = some group) :
    groups.get? id = some group ∨ group.parent = none ∨
      group.parent = some (groups.ensure (isGroup rootGroupName none) ⟨rootGroupName, none⟩).1 := by
  rcases SerialTable.get?_ensure h with h | ⟨_, rfl, _⟩
  · rcases SerialTable.get?_ensure h with h | ⟨_, rfl, _⟩
    · exact Or.inl h
    · exact Or.inr (Or.inl rfl)
  · exact Or.inr (Or.inr rfl)

/-- A root that has a group was there before. -/
theorem find_of_child {db : GuacamoleDb} (hdb : db.Confined) {id : Nat} {group : GuacamoleGroup}
    (hgroup : db.groups.get? id = some group) (hparent : group.parent =
      some (db.groups.ensure (isGroup rootGroupName none) ⟨rootGroupName, none⟩).1) :
    db.groups.find (isGroup rootGroupName none) =
      some (db.groups.ensure (isGroup rootGroupName none) ⟨rootGroupName, none⟩).1 := by
  have hthere := hdb.groupParents id group _ hgroup hparent
  unfold SerialTable.ensure at hthere ⊢
  cases hfind : db.groups.find (isGroup rootGroupName none) with
  | some rootId => rfl
  | none =>
    rw [hfind] at hthere
    simp only at hthere
    rw [db.groups.get?_serial (Nat.le_refl _)] at hthere
    exact absurd hthere Bool.false_ne_true

/-- A permission that was there is still for a connection of its user. -/
theorem old_permission_own {settings : GuacamoleSettings} {db : GuacamoleDb} (hdb : db.Confined)
    {request : ConsoleRequest} {row : Nat × Nat × String} (hrow : row ∈ db.permissions)
    {connection : GuacamoleConnection} {groupId rootId : Nat} {group : GuacamoleGroup}
    (hconnection : (provisionConsole settings db request).2.connections.get? row.2.1 =
      some connection)
    (hparent : connection.parent = some groupId)
    (hgroup : (provisionConsole settings db request).2.groups.get? groupId = some group)
    (hroot : group.parent = some rootId)
    (hrootId : rootId = (db.groups.ensure (isGroup rootGroupName none) ⟨rootGroupName, none⟩).1) :
    ∃ username, (provisionConsole settings db request).2.entities.get? row.1 = some username ∧
      group.name = "nova-ve:" ++ username := by
  have hpermitted := hdb.permitted row hrow
  rcases ensureConnection_get hconnection with ⟨before, hbefore, heq⟩ | ⟨heq, _⟩
  · rw [heq] at hparent
    obtain ⟨oldGroup, holdGroup⟩ := Option.isSome_iff_exists.mp
      (hdb.connectionParents row.2.1 before groupId hbefore hparent)
    have hsame : group = oldGroup := by
      have hkept := SerialTable.ensure_keeps (SerialTable.ensure_keeps holdGroup
        (isGroup rootGroupName none) ⟨rootGroupName, none⟩)
        (isGroup ("nova-ve:" ++ guacamoleUsername request.username)
          (some (db.groups.ensure (isGroup rootGroupName none) ⟨rootGroupName, none⟩).1))
        ⟨"nova-ve:" ++ guacamoleUsername request.username,
          some (db.groups.ensure (isGroup rootGroupName none) ⟨rootGroupName, none⟩).1⟩
      exact Option.some.inj (hgroup.symm.trans hkept)
    subst hsame
    have hfound : db.groups.find (isGroup rootGroupName none) = some rootId := by
      rw [hrootId] at hroot ⊢
      exact find_of_child hdb holdGroup hroot
    obtain ⟨username, husername, hname⟩ := hdb.own row hrow before groupId group rootId hbefore
      hparent holdGroup hroot hfound
    exact ⟨username, SerialTable.ensure_keeps husername _ _, hname⟩
  · rw [← heq, db.connections.get?_serial (Nat.le_refl _)] at hpermitted
    exact absurd hpermitted Bool.false_ne_true

/-- The group that a request makes sure of is that of its user. -/
theorem user_group_row (groups : SerialTable GuacamoleGroup) (username : String) (rootId : Nat) :
    ∃ group, (groups.ensure (isGroup ("nova-ve:" ++ username) (some rootId))
        ⟨"nova-ve:" ++ username, some rootId⟩).2.get?
          (groups.ensure (isGroup ("nova-ve:" ++ username) (some rootId))
            ⟨"nova-ve:" ++ username, some rootId⟩).1 = some group ∧
      group.name = "nova-ve:" ++ username := by
  obtain ⟨group, hgroup, hmatch⟩ := SerialTable.ensure_row groups
    (p := isGroup ("nova-ve:" ++ username) (some rootId))
    (a := ⟨"nova-ve:" ++ username, some rootId⟩) (decide_eq_true ⟨rfl, rfl⟩)
  exact ⟨group, hgroup, (of_decide_eq_true hmatch : _ ∧ _).1⟩

/-- A request permits a connection to its user only. -/
theorem provision_confined {settings : GuacamoleSettings} {db : GuacamoleDb} (hdb : db.Confined)
    (request : ConsoleRequest) : (provisionConsole settings db request).2.Confined := by
  have hrootRow := SerialTable.ensure_row db.groups (p := isGroup rootGroupName none)
    (a := ⟨rootGroupName, none⟩) (decide_eq_true ⟨rfl, rfl⟩)
  have hrootFind := SerialTable.find_ensure db.groups (p := isGroup rootGroupName none)
    (a := ⟨rootGroupName, none⟩) (decide_eq_true ⟨rfl, rfl⟩)
  have hkeep : ∀ id, (db.groups.get? id).isSome = true →
      ((provisionConsole settings db request).2.groups.get? id).isSome = true := fun id h =>
    SerialTable.isSome_ensure (SerialTable.isSome_ensure h _ _) _ _
  refine ⟨?_, ?_, ?_, ?_⟩
  · intro id group parent hgroup hparent
    rcases ensured_groups hgroup with hold | hnone | hroot
    · exact hkeep parent (hdb.groupParents id group parent hold hparent)
    · rw [hnone] at hparent
      cases hparent
    · rw [hroot] at hparent
      obtain ⟨row, hrow, _⟩ := hrootRow
      cases hparent
      exact SerialTable.isSome_ensure (Option.isSome_of_eq_some hrow) _ _
  · intro id connection parent hconnection hparent
    rcases ensureConnection_get hconnection with ⟨before, hbefore, heq⟩ | ⟨_, heq⟩
    · exact hkeep parent (hdb.connectionParents id before parent hbefore (heq ▸ hparent))
    · rw [heq] at hparent
      cases hparent
      obtain ⟨row, hrow, _⟩ := user_group_row
        (db.groups.ensure (isGroup rootGroupName none) ⟨rootGroupName, none⟩).2
        (guacamoleUsername request.username)
        (db.groups.ensure (isGroup rootGroupName none) ⟨rootGroupName, none⟩).1
      exact Option.isSome_of_eq_some hrow
  · intro row hrow
    rcases List.mem_append.mp hrow with hold | hnew
    · exact ensureConnection_keeps (hdb.permitted row (List.mem_filter.mp hold).1) _ _ _
    · obtain rfl := List.mem_singleton.mp hnew
      exact Option.isSome_of_eq_some (ensureConnection_row _ _ _ _).2
  · intro row hrow connection groupId group rootId hconnection hparent hgroup hroot hfind
    have hrootId : rootId =
        (db.groups.ensure (isGroup rootGroupName none) ⟨rootGroupName, none⟩).1 :=
      Option.some.inj (hfind.symm.trans (SerialTable.find_keeps hrootFind _ _))
    rcases List.mem_append.mp hrow with hold | hnew
    · exact old_permission_own hdb (List.mem_filter.mp hold).1 hconnection hparent hgroup hroot
        hrootId
    · obtain rfl := List.mem_singleton.mp hnew
      obtain rfl := Option.some.inj (hconnection.symm.trans (ensureConnection_row _ _ _ _).2)
      cases hparent
      obtain ⟨found, hfound, hfoundName⟩ := user_group_row
        (db.groups.ensure (isGroup rootGroupName none) ⟨rootGroupName, none⟩).2
        (guacamoleUsername request.username)
        (db.groups.ensure (isGroup rootGroupName none) ⟨rootGroupName, none⟩).1
      obtain rfl := Option.some.inj (hgroup.symm.trans hfound)
      obtain ⟨name, hname, hown⟩ := SerialTable.ensure_row db.entities
        (p := fun name => decide (name = guacamoleUsername request.username))
        (a := guacamoleUsername request.username) (decide_eq_true rfl)
      obtain rfl := of_decide_eq_true hown
      exact ⟨_, hname, hfoundName⟩

/-- Over every run a connection in the group of a user is permitted to that user only. -/
theorem runGuacamole_confined {settings : GuacamoleSettings} {db : GuacamoleDb}
    (hdb : db.Confined) (history : List (ConsoleRequest × Nat)) :
    (runGuacamole settings db history).Confined := by
  induction history using List.reverseRecOn with
  | nil => exact hdb
  | append_singleton history request ih =>
    unfold runGuacamole at ih ⊢
    rw [List.foldl_append, List.foldl_cons, List.foldl_nil]
    unfold createConsole
    split
    next => exact provision_confined ih request.1
    next => exact ih

theorem two_consoles_confined : (runGuacamole plainSettings emptyGuacamole
    [(consoleOf "anna", 0), (consoleOf "bob", 1)]).Confined :=
  runGuacamole_confined emptyGuacamole_confined _

end NovaVe
