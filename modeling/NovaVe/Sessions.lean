import NovaVe.Dict
import NovaVe.Runs

namespace NovaVe

/-- A row of the users, as far as a handler reads or writes it. -/
structure UserRow where
  email : String
  name : String
  role : String
  ram : Int
  cpu : Int
  html5 : Bool
  passwordHash : Option String
  sessionToken : Option String
  sessionExpires : Option Int
  online : Bool
deriving DecidableEq, Repr

abbrev Users := Dict String UserRow

/-- The setting of the session, `verify_password`, and the subject that `verify_access_token` finds
at a time. -/
structure AuthHost where
  sessionMaxAge : Int
  verifies : String → String → Bool
  bearerSubject : String → Int → Option String

/-- `session_max_age_seconds`. -/
def AuthHost.maxAge (host : AuthHost) : Int := max host.sessionMaxAge 14400

/-- `AuthService.authenticate`. -/
def authenticate (host : AuthHost) (users : Users) (username password : String) : Option UserRow :=
  match users.get? username with
  | none => none
  | some user =>
    match user.passwordHash with
    | none => none
    | some hash => if hash ≠ "" ∧ host.verifies password hash = true then some user else none

/-- `AuthService.create_session`, with the token that is drawn. -/
def createSession (host : AuthHost) (users : Users) (username : String) (user : UserRow)
    (token : String) (now : Int) : Users :=
  users.set username
    { user with
      sessionToken := some token, sessionExpires := some (now + host.maxAge), online := true }

/-- `AuthService.validate_session`, which prolongs the session. -/
def validateSession (host : AuthHost) (users : Users) (token username : String) (now : Int) :
    Option (UserRow × Users) :=
  match users.get? username with
  | none => none
  | some user =>
    match user.sessionExpires with
    | none => none
    | some expires =>
      if user.sessionToken = some token ∧ now < expires then
        let user := { user with sessionExpires := some (now + host.maxAge) }
        some (user, users.set username user)
      else none

/-- `AuthService.destroy_session`. -/
def destroySession (users : Users) (username : String) (user : UserRow) : Users :=
  users.set username { user with sessionToken := none, sessionExpires := none, online := false }

/-- What a request carries. -/
structure Credentials where
  session : Option String
  user : Option String
  bearer : Option String
deriving DecidableEq, Repr

/-- The two cookies, where neither is empty. -/
def cookiePair (session user : Option String) : Option (String × String) :=
  match session, user with
  | some session, some user => if session ≠ "" ∧ user ≠ "" then some (session, user) else none
  | _, _ => none

/-- The user of a bearer token. -/
def bearerUser (host : AuthHost) (users : Users) (bearer : Option String) (now : Int) :
    Option (String × UserRow) := do
  let token ← bearer
  let username ← host.bearerSubject token now
  if username = "" then none
  else (users.get? username).map (fun user => (username, user))

/-- `UserRead.model_validate` accepts a row. -/
def UserRow.readable (user : UserRow) : Bool :=
  ["admin", "editor", "user"].contains user.role

def readUser : Option (String × UserRow) → Except Nat (String × UserRow)
  | none => .error 401
  | some user => if user.2.readable then .ok user else .error 500

/-- `get_current_user`. -/
def currentUser (host : AuthHost) (users : Users) (credentials : Credentials) (now : Int) :
    Except Nat (String × UserRow) × Users :=
  match cookiePair credentials.session credentials.user with
  | none => (readUser (bearerUser host users credentials.bearer now), users)
  | some (session, username) =>
    match validateSession host users session username now with
    | some (user, users) => (readUser (some (username, user)), users)
    | none => (readUser (bearerUser host users credentials.bearer now), users)

theorem readUser_error {found : Option (String × UserRow)} {code : Nat}
    (h : readUser found = .error code) : code = 401 ∨ code = 500 := by
  cases found with
  | none => cases h; exact Or.inl rfl
  | some user =>
    simp only [readUser] at h
    split at h
    next => cases h
    next => cases h; exact Or.inr rfl

theorem currentUser_error {host : AuthHost} {users after : Users} {credentials : Credentials}
    {now : Int} {code : Nat} (h : currentUser host users credentials now = (.error code, after)) :
    code = 401 ∨ code = 500 := by
  unfold currentUser at h
  split at h
  next => exact readUser_error (Prod.mk.inj h).1
  next =>
    split at h
    next => exact readUser_error (Prod.mk.inj h).1
    next => exact readUser_error (Prod.mk.inj h).1

/-- A handler that depends on `get_current_user`. -/
def asUser (host : AuthHost) (users : Users) (credentials : Credentials) (now : Int)
    (act : String → UserRow → Users → Nat × Users) : Nat × Users :=
  match currentUser host users credentials now with
  | (.error code, users) => (code, users)
  | (.ok (username, user), users) => act username user users

/-- A handler that depends on `get_current_admin`. -/
def asAdmin (host : AuthHost) (users : Users) (credentials : Credentials) (now : Int)
    (act : Users → Nat × Users) : Nat × Users :=
  asUser host users credentials now fun _ user users =>
    if user.role ≠ "admin" then (403, users) else act users

/-- `UserCreate`, as it passes its own checks. -/
structure UserForm where
  username : String
  email : String
  name : String
  role : String
  password : String
  fits : username.length ≤ 64 ∧ email.length ≤ 255 ∧ name.length ≤ 255
  roleKnown : role = "admin" ∨ role = "editor" ∨ role = "user"
  long : 6 ≤ password.length

/-- `UserUpdate`. -/
structure UserChange where
  email : Option String
  name : Option String
  role : Option String
  ram : Option Int
  cpu : Option Int
  html5 : Option Bool
  password : Option String
deriving DecidableEq, Repr

/-- `AuthService.create_user`. -/
def newUser (form : UserForm) (role hash : String) : UserRow where
  email := form.email
  name := form.name
  role := role
  ram := -1
  cpu := -1
  html5 := true
  passwordHash := some hash
  sessionToken := none
  sessionExpires := none
  online := false

/-- The columns hold the values of a changed row. -/
def UserRow.fits (user : UserRow) : Bool :=
  decide (user.email.length ≤ 255) && decide (user.name.length ≤ 255) &&
    decide (user.role.length ≤ 16) && [user.ram, user.cpu].all (fun quota =>
      decide (-2147483648 ≤ quota) && decide (quota ≤ 2147483647))

/-- A row after `update_user`, with the hash of a password that is not empty. -/
def UserChange.apply (change : UserChange) (hash : String) (user : UserRow) : UserRow :=
  { user with
    email := change.email.getD user.email
    name := change.name.getD user.name
    role := change.role.getD user.role
    ram := change.ram.getD user.ram
    cpu := change.cpu.getD user.cpu
    html5 := change.html5.getD user.html5
    passwordHash := if change.password.getD "" = "" then user.passwordHash else some hash }

def login (host : AuthHost) (users : Users) (now : Int) (username password token : String) :
    Nat × Users :=
  match authenticate host users username password with
  | none => (401, users)
  | some user =>
    (if user.readable then 200 else 500, createSession host users username user token now)

def logout (host : AuthHost) (users : Users) (now : Int) (session user : Option String) :
    Nat × Users :=
  match cookiePair session user with
  | none => (200, users)
  | some (session, username) =>
    match validateSession host users session username now with
    | none => (200, users)
    | some (user, users) => (200, destroySession users username user)

/-- `register` once the user is known: the first user becomes an admin. -/
def registerUser (users : Users) (current : Option (String × UserRow)) (form : UserForm)
    (hash : String) : Nat × Users :=
  let admin := current.any (fun user => decide (user.2.role = "admin"))
  if users.entries.length > 0 ∧ admin = false then (403, users)
  else if (users.get? form.username).isSome then (400, users)
  else
    let role := if admin then form.role else "user"
    let role := if users.entries.length = 0 then "admin" else role
    (200, users.set form.username (newUser form role hash))

/-- `register`, which depends on `get_optional_user`. -/
def register (host : AuthHost) (users : Users) (now : Int) (credentials : Credentials)
    (form : UserForm) (hash : String) : Nat × Users :=
  match currentUser host users credentials now with
  | (.error code, users) =>
    if code = 401 then registerUser users none form hash else (code, users)
  | (.ok user, users) => registerUser users (some user) form hash

def createUser (host : AuthHost) (users : Users) (now : Int) (credentials : Credentials)
    (form : UserForm) (hash : String) : Nat × Users :=
  asAdmin host users credentials now fun users =>
    if (users.get? form.username).isSome then (400, users)
    else (200, users.set form.username (newUser form form.role hash))

def updateUser (host : AuthHost) (users : Users) (now : Int) (credentials : Credentials)
    (username : String) (change : UserChange) (hash : String) : Nat × Users :=
  asUser host users credentials now fun current user users =>
    if current ≠ username ∧ user.role ≠ "admin" then (403, users)
    else
      match users.get? username with
      | none => (404, users)
      | some user =>
        let user := change.apply hash user
        if user.fits then (if user.readable then 200 else 500, users.set username user)
        else (500, users)

/-- `delete_user`; a row of another table can refer to the user. -/
def deleteUser (host : AuthHost) (users : Users) (now : Int) (credentials : Credentials)
    (username : String) (referenced : Bool) : Nat × Users :=
  asAdmin host users credentials now fun users =>
    if (users.get? username).isNone then (404, users)
    else if referenced then (500, users)
    else (200, users.pop username)

/-- A request that reads or writes the users; a visit only asks who the user is. -/
inductive AuthEvent
  | login (username password token : String)
  | logout (session user : Option String)
  | visit (credentials : Credentials)
  | register (credentials : Credentials) (form : UserForm) (hash : String)
  | createUser (credentials : Credentials) (form : UserForm) (hash : String)
  | updateUser (credentials : Credentials) (username : String) (change : UserChange) (hash : String)
  | deleteUser (credentials : Credentials) (username : String) (referenced : Bool)

/-- The answer of a handler and the users after it. -/
def AuthEvent.handle (host : AuthHost) (users : Users) (now : Int) : AuthEvent → Nat × Users
  | .login username password token => NovaVe.login host users now username password token
  | .logout session user => NovaVe.logout host users now session user
  | .visit credentials => asUser host users credentials now fun _ _ users => (200, users)
  | .register credentials form hash => NovaVe.register host users now credentials form hash
  | .createUser credentials form hash => NovaVe.createUser host users now credentials form hash
  | .updateUser credentials username change hash =>
    NovaVe.updateUser host users now credentials username change hash
  | .deleteUser credentials username referenced =>
    NovaVe.deleteUser host users now credentials username referenced

/-- The users after a history of requests, each with its time. -/
def runAuth (host : AuthHost) (users : Users) (history : List (Int × AuthEvent)) : Users :=
  history.foldl (fun users event => (event.2.handle host users event.1).2) users

/-- The open session of a user: its token and when it expires. -/
def sessionOf (users : Users) (username : String) : Option (String × Int) := do
  let user ← users.get? username
  let token ← user.sessionToken
  let expires ← user.sessionExpires
  return (token, expires)

def UserRow.session (user : UserRow) : Option (String × Int) := do
  let token ← user.sessionToken
  let expires ← user.sessionExpires
  return (token, expires)

theorem sessionOf_eq (users : Users) (username : String) :
    sessionOf users username = (users.get? username).bind UserRow.session := rfl

theorem sessionOf_set (users : Users) (username other : String) (user : UserRow) :
    sessionOf (users.set username user) other =
      if username = other then user.session else sessionOf users other := by
  rw [sessionOf_eq, Dict.get?_set]
  split
  next => rfl
  next => rfl

theorem sessionOf_eq_some {users : Users} {username token : String} {expires : Int} :
    sessionOf users username = some (token, expires) ↔ ∃ user, users.get? username = some user ∧
      user.sessionToken = some token ∧ user.sessionExpires = some expires := by
  rw [sessionOf_eq, Option.bind_eq_some_iff]
  refine exists_congr fun user => and_congr_right fun _ => ?_
  unfold UserRow.session
  cases user.sessionToken <;> cases user.sessionExpires <;> simp

/-- What a request with the cookies makes of a session of the user. -/
def prolong (host : AuthHost) (now : Int) (cookies : Option (String × String)) (username : String)
    (session : String × Int) : String × Int :=
  if cookies = some (session.1, username) ∧ now < session.2 then (session.1, now + host.maxAge)
  else session

theorem prolong_none (host : AuthHost) (now : Int) (username : String)
    (session : Option (String × Int)) : session.map (prolong host now none username) = session := by
  cases session <;> rfl

/-- The cookies of another user leave a session alone. -/
theorem prolong_other (host : AuthHost) (now : Int) (token : String) {username other : String}
    (hne : username ≠ other) (session : Option (String × Int)) :
    session.map (prolong host now (some (token, username)) other) = session := by
  cases session with
  | none => rfl
  | some session =>
    refine congrArg some (if_neg ?_)
    rintro ⟨hcookies, _⟩
    exact hne (Prod.mk.inj (Option.some.inj hcookies)).2

theorem validateSession_cases (host : AuthHost) (users : Users) (token username : String)
    (now : Int) :
    (∃ user expires, users.get? username = some user ∧ user.sessionToken = some token ∧
      user.sessionExpires = some expires ∧ now < expires ∧
        validateSession host users token username now =
          some ({ user with sessionExpires := some (now + host.maxAge) }, users.set username
            { user with sessionExpires := some (now + host.maxAge) })) ∨
      validateSession host users token username now = none ∧
        ∀ expires, sessionOf users username = some (token, expires) → ¬ now < expires := by
  unfold validateSession
  cases huser : users.get? username with
  | none => exact Or.inr ⟨rfl, fun expires h => by simp [sessionOf_eq, huser] at h⟩
  | some user =>
    simp only
    cases hexpires : user.sessionExpires with
    | none =>
      refine Or.inr ⟨rfl, fun expires h => ?_⟩
      obtain ⟨other, hother, _, hwhen⟩ := sessionOf_eq_some.mp h
      rw [huser] at hother
      cases hother
      rw [hexpires] at hwhen
      cases hwhen
    | some expires =>
      by_cases hlive : user.sessionToken = some token ∧ now < expires
      · exact Or.inl ⟨user, expires, rfl, hlive.1, hexpires, hlive.2, if_pos hlive⟩
      · refine Or.inr ⟨if_neg hlive, fun other h hnow => hlive ?_⟩
        obtain ⟨row, hrow, htoken, hwhen⟩ := sessionOf_eq_some.mp h
        rw [huser] at hrow
        cases hrow
        rw [hexpires] at hwhen
        cases hwhen
        exact ⟨htoken, hnow⟩

/-- A session is accepted exactly while it is open. -/
theorem validateSession_isSome {host : AuthHost} {users : Users} {token username : String}
    {now : Int} : (validateSession host users token username now).isSome = true ↔
      ∃ expires, sessionOf users username = some (token, expires) ∧ now < expires := by
  rcases validateSession_cases host users token username now with
    ⟨user, expires, huser, htoken, hwhen, hnow, he⟩ | ⟨he, hnone⟩
  · rw [he]
    exact ⟨fun _ => ⟨expires, sessionOf_eq_some.mpr ⟨user, huser, htoken, hwhen⟩, hnow⟩,
      fun _ => rfl⟩
  · rw [he]
    refine ⟨fun h => absurd h Bool.false_ne_true, ?_⟩
    rintro ⟨expires, hs, hnow⟩
    exact absurd hnow (hnone expires hs)

theorem sessionOf_validated {host : AuthHost} {users after : Users} {token username : String}
    {now : Int} {user : UserRow}
    (h : validateSession host users token username now = some (user, after)) (other : String) :
    sessionOf after other =
      (sessionOf users other).map (prolong host now (some (token, username)) other) := by
  rcases validateSession_cases host users token username now with
    ⟨row, expires, hrow, htoken, hwhen, hnow, he⟩ | ⟨he, _⟩
  · rw [h] at he
    obtain ⟨_, rfl⟩ := Prod.mk.inj (Option.some.inj he)
    rw [sessionOf_set]
    have hsession := sessionOf_eq_some.mpr ⟨row, hrow, htoken, hwhen⟩
    split
    next heq =>
      subst heq
      rw [hsession]
      simp [prolong, UserRow.session, htoken, hnow]
    next hne => exact (prolong_other host now token hne _).symm
  · rw [h] at he
    cases he

theorem sessionOf_currentUser (host : AuthHost) (users : Users) (credentials : Credentials)
    (now : Int) (other : String) :
    sessionOf (currentUser host users credentials now).2 other =
      (sessionOf users other).map
        (prolong host now (cookiePair credentials.session credentials.user) other) := by
  unfold currentUser
  cases hcookies : cookiePair credentials.session credentials.user with
  | none => exact (prolong_none host now other _).symm
  | some cookies =>
    obtain ⟨session, username⟩ := cookies
    simp only
    cases hvalid : validateSession host users session username now with
    | some validated =>
      obtain ⟨user, after⟩ := validated
      exact sessionOf_validated hvalid other
    | none =>
      have hclosed : ∀ expires, sessionOf users username = some (session, expires) →
          ¬ now < expires := by
        intro expires hs hnow
        have hopen := @validateSession_isSome host users session username now
        rw [hvalid] at hopen
        exact absurd (hopen.mpr ⟨expires, hs, hnow⟩) Bool.false_ne_true
      cases hs : sessionOf users other with
      | none => rfl
      | some open' =>
        obtain ⟨token, expires⟩ := open'
        refine (congrArg some (if_neg ?_)).symm
        rintro ⟨heq, hnow⟩
        obtain ⟨rfl, rfl⟩ := Prod.mk.inj (Option.some.inj heq)
        exact hclosed expires hs hnow

/-- The cookies an event presents. -/
def AuthEvent.cookies : AuthEvent → Option (String × String)
  | .login _ _ _ | .logout _ _ => none
  | .visit credentials | .register credentials _ _ | .createUser credentials _ _
  | .updateUser credentials _ _ _ | .deleteUser credentials _ _ =>
    cookiePair credentials.session credentials.user

/-- The token of a login of the user that succeeds. -/
def AuthEvent.opens (host : AuthHost) (users : Users) (username : String) :
    AuthEvent → Option String
  | .login name password token =>
    if name = username ∧ (authenticate host users name password).isSome = true then some token
    else none
  | _ => none

/-- The user logs out of an open session, or is deleted. -/
def AuthEvent.ends (host : AuthHost) (users : Users) (now : Int) (username : String) :
    AuthEvent → Bool
  | .logout session user =>
    (cookiePair session user).any (fun cookies => decide (cookies.2 = username) &&
      (validateSession host users cookies.1 cookies.2 now).isSome)
  | .deleteUser credentials name referenced =>
    decide (name = username) &&
      decide ((NovaVe.deleteUser host users now credentials name referenced).1 = 200)
  | _ => false

theorem sessionOf_set_closed {users : Users} {username : String} {user : UserRow}
    (hfresh : (users.get? username).isSome ≠ true) (hclosed : user.session = none)
    (other : String) : sessionOf (users.set username user) other = sessionOf users other := by
  have hnone : users.get? username = none := by simpa using hfresh
  rw [sessionOf_set]
  split
  next heq => rw [hclosed, ← heq, sessionOf_eq, hnone, Option.bind_none]
  next => rfl

theorem sessionOf_registerUser (users : Users) (current : Option (String × UserRow))
    (form : UserForm) (hash other : String) :
    sessionOf (registerUser users current form hash).2 other = sessionOf users other := by
  unfold registerUser
  simp only
  split
  next => rfl
  next =>
    split
    next => rfl
    next hfresh => exact sessionOf_set_closed hfresh rfl other

theorem sessionOf_asUser {host : AuthHost} {users : Users} {credentials : Credentials} {now : Int}
    {act : String → UserRow → Users → Nat × Users} {other : String}
    (hact : ∀ name user users, sessionOf (act name user users).2 other = sessionOf users other) :
    sessionOf (asUser host users credentials now act).2 other =
      (sessionOf users other).map
        (prolong host now (cookiePair credentials.session credentials.user) other) := by
  rw [← sessionOf_currentUser]
  unfold asUser
  rcases currentUser host users credentials now with ⟨code | ⟨name, user⟩, after⟩
  · rfl
  · exact hact name user after

theorem sessionOf_asAdmin {host : AuthHost} {users : Users} {credentials : Credentials} {now : Int}
    {act : Users → Nat × Users} {other : String}
    (hact : ∀ users, sessionOf (act users).2 other = sessionOf users other) :
    sessionOf (asAdmin host users credentials now act).2 other =
      (sessionOf users other).map
        (prolong host now (cookiePair credentials.session credentials.user) other) := by
  refine sessionOf_asUser fun name user users => ?_
  split
  next => rfl
  next => exact hact users

/-- What an event makes of the session of a user. -/
def AuthEvent.sessionAfter (host : AuthHost) (users : Users) (now : Int) (username : String)
    (event : AuthEvent) : Option (String × Int) :=
  match event.opens host users username with
  | some token => some (token, now + host.maxAge)
  | none =>
    if event.ends host users now username then none
    else (sessionOf users username).map (prolong host now event.cookies username)

theorem sessionOf_login (host : AuthHost) (users : Users) (now : Int)
    (name password token username : String) :
    sessionOf (login host users now name password token).2 username =
      (AuthEvent.login name password token).sessionAfter host users now username := by
  simp only [AuthEvent.sessionAfter, AuthEvent.opens, AuthEvent.ends, AuthEvent.cookies, login]
  cases hauth : authenticate host users name password with
  | none => simp [prolong_none]
  | some user =>
    simp only [createSession, sessionOf_set, Option.isSome_some, and_true]
    by_cases hname : name = username
    · simp [hname, UserRow.session]
    · simp [hname, prolong_none]

theorem sessionOf_logout (host : AuthHost) (users : Users) (now : Int)
    (session user : Option String) (username : String) :
    sessionOf (logout host users now session user).2 username =
      (AuthEvent.logout session user).sessionAfter host users now username := by
  have hafter : (AuthEvent.logout session user).sessionAfter host users now username =
      if (AuthEvent.logout session user).ends host users now username then none
      else sessionOf users username := by
    simp only [AuthEvent.sessionAfter, AuthEvent.opens, AuthEvent.cookies, prolong_none]
  rw [hafter]
  unfold logout AuthEvent.ends
  split
  next hcookies => simp [hcookies]
  next token name hcookies =>
    simp only [hcookies, Option.any_some]
    split
    next hvalid => simp [hvalid]
    next row after hvalid =>
      simp only [hvalid, destroySession, sessionOf_set, Option.isSome_some, Bool.and_true,
        decide_eq_true_eq]
      by_cases hname : name = username
      · simp [hname, UserRow.session]
      · rw [if_neg hname, if_neg hname, sessionOf_validated hvalid,
          prolong_other host now token hname]

theorem sessionOf_register (host : AuthHost) (users : Users) (now : Int)
    (credentials : Credentials) (form : UserForm) (hash username : String) :
    sessionOf (register host users now credentials form hash).2 username =
      (sessionOf users username).map
        (prolong host now (cookiePair credentials.session credentials.user) username) := by
  rw [← sessionOf_currentUser]
  unfold register
  rcases currentUser host users credentials now with ⟨code | user, after⟩
  · simp only
    split
    next => exact sessionOf_registerUser after none form hash username
    next => rfl
  · exact sessionOf_registerUser after (some user) form hash username

theorem UserChange.apply_session (change : UserChange) (hash : String) (user : UserRow) :
    (change.apply hash user).session = user.session := rfl

theorem sessionOf_updateUser (host : AuthHost) (users : Users) (now : Int)
    (credentials : Credentials) (name : String) (change : UserChange) (hash username : String) :
    sessionOf (updateUser host users now credentials name change hash).2 username =
      (sessionOf users username).map
        (prolong host now (cookiePair credentials.session credentials.user) username) := by
  refine sessionOf_asUser fun current user users => ?_
  split
  next => rfl
  next =>
    split
    next => rfl
    next row hrow =>
      simp only
      split
      next =>
        rw [sessionOf_set, UserChange.apply_session]
        split
        next heq => rw [← heq, sessionOf_eq, hrow, Option.bind_some]
        next => rfl
      next => rfl

theorem sessionOf_removed {users : Users} (name : String) {referenced : Bool}
    {answer : Nat × Users}
    (h : (if (users.get? name).isNone then (404, users) else if referenced then (500, users)
      else (200, users.pop name)) = answer) (username : String) :
    sessionOf answer.2 username =
      if (decide (name = username) && decide (answer.1 = 200)) = true then none
      else sessionOf users username := by
  subst h
  split
  next => simp
  next =>
    split
    next => simp
    next =>
      rw [sessionOf_eq, Dict.get?_pop]
      by_cases hname : name = username
      · simp [hname]
      · simp [hname, sessionOf_eq]

theorem sessionOf_deleteUser (host : AuthHost) (users : Users) (now : Int)
    (credentials : Credentials) (name : String) (referenced : Bool) (username : String) :
    sessionOf (deleteUser host users now credentials name referenced).2 username =
      (AuthEvent.deleteUser credentials name referenced).sessionAfter host users now username := by
  have hafter : (AuthEvent.deleteUser credentials name referenced).sessionAfter host users now
      username = if (decide (name = username) &&
          decide ((deleteUser host users now credentials name referenced).1 = 200)) = true then none
        else sessionOf (currentUser host users credentials now).2 username := by
    rw [sessionOf_currentUser]
    rfl
  rw [hafter]
  unfold deleteUser asAdmin asUser
  rcases hcurrent : currentUser host users credentials now with ⟨code | ⟨current, user⟩, after⟩
  · rcases currentUser_error hcurrent with rfl | rfl
    · simp
    · simp
  · simp only
    split
    next => simp
    next => exact sessionOf_removed name rfl username

theorem sessionOf_handle (host : AuthHost) (users : Users) (now : Int) (event : AuthEvent)
    (username : String) :
    sessionOf (event.handle host users now).2 username =
      event.sessionAfter host users now username := by
  cases event with
  | login name password token => exact sessionOf_login host users now name password token username
  | logout session user => exact sessionOf_logout host users now session user username
  | visit credentials => exact sessionOf_asUser fun _ _ _ => rfl
  | register credentials form hash =>
    exact sessionOf_register host users now credentials form hash username
  | createUser credentials form hash =>
    refine sessionOf_asAdmin fun users => ?_
    split
    next => rfl
    next hfresh => exact sessionOf_set_closed hfresh rfl username
  | updateUser credentials name change hash =>
    exact sessionOf_updateUser host users now credentials name change hash username
  | deleteUser credentials name referenced =>
    exact sessionOf_deleteUser host users now credentials name referenced username

/-- The session of a user, watched in a run: its token and when it expires. -/
def watchedSession (host : AuthHost) (username : String) :
    Watched Users (Int × AuthEvent) (String × Int) where
  step users event := (event.2.handle host users event.1).2
  value users := sessionOf users username
  starts users event :=
    (event.2.opens host users username).map (fun token => (token, event.1 + host.maxAge))
  stops users event := event.2.ends host users event.1 username
  moves event := prolong host event.1 event.2.cookies username
  value_step users event := by
    rw [sessionOf_handle]
    unfold AuthEvent.sessionAfter
    cases event.2.opens host users username with
    | some token => rfl
    | none =>
      rfl

/-- The last use of a session, from when it was opened. -/
def lastUse (host : AuthHost) (token username : String) (opened : Int)
    (history : List (Int × AuthEvent)) : Int :=
  history.foldl (fun last event =>
    if event.2.cookies = some (token, username) ∧ event.1 < last + host.maxAge then event.1
    else last) opened

theorem watchedSession_moved (host : AuthHost) (token username : String) (opened : Int)
    (history : List (Int × AuthEvent)) :
    (watchedSession host username).moved (token, opened + host.maxAge) history =
      (token, lastUse host token username opened history + host.maxAge) := by
  induction history generalizing opened with
  | nil => rfl
  | cons event history ih =>
    refine Eq.trans ?_ (ih _)
    unfold Watched.moved
    rw [List.foldl_cons]
    congr 1
    simp only [watchedSession, prolong]
    split
    next => rfl
    next => rfl

/-- A session is accepted exactly when the user has logged in with its token, has not logged in
again, out of it or been deleted since, and has used it within the last `maxAge` seconds. -/
theorem session_accepted_iff (host : AuthHost) (history : List (Int × AuthEvent))
    (token username : String) (now : Int) :
    (validateSession host (runAuth host Dict.empty history) token username now).isSome = true ↔
      ∃ before opened password after,
        history = before ++ (opened, .login username password token) :: after ∧
          (authenticate host (runAuth host Dict.empty before) username password).isSome = true ∧
            (watchedSession host username).Quiet
              (login host (runAuth host Dict.empty before) opened username password token).2 after ∧
              now < lastUse host token username opened after + host.maxAge := by
  have hrun := (watchedSession host username).value_run (s := Dict.empty) rfl history
  rw [validateSession_isSome]
  constructor
  · rintro ⟨expires, hsession, hnow⟩
    obtain ⟨before, ⟨opened, event⟩, after, first, rfl, hstart, hquiet, hlast⟩ :=
      (hrun (token, expires)).mp hsession
    obtain ⟨drawn, hopens, rfl⟩ := Option.map_eq_some_iff.mp hstart
    cases event with
    | login name password drawn' =>
      simp only [AuthEvent.opens] at hopens
      split at hopens
      next hlogin =>
        obtain ⟨rfl, hauth⟩ := hlogin
        obtain rfl := Option.some.inj hopens
        rw [watchedSession_moved] at hlast
        obtain ⟨rfl, rfl⟩ := Prod.mk.inj hlast
        exact ⟨before, opened, password, after, rfl, hauth, hquiet, hnow⟩
      next => cases hopens
    | _ => cases hopens
  · rintro ⟨before, opened, password, after, rfl, hauth, hquiet, hnow⟩
    refine ⟨_, (hrun _).mpr ⟨before, _, after, (token, opened + host.maxAge), rfl, ?_, hquiet,
      (watchedSession_moved host token username opened after).symm⟩, hnow⟩
    change Option.map _ (AuthEvent.opens host (runAuth host Dict.empty before) username
      (.login username password token)) = _
    simp [AuthEvent.opens, hauth]

end NovaVe
