import NovaVe.Sessions

namespace NovaVe

/-- The user that the credentials prove. -/
def provedUser (host : AuthHost) (users : Users) (credentials : Credentials) (now : Int) :
    Option String :=
  match cookiePair credentials.session credentials.user with
  | none => (bearerUser host users credentials.bearer now).map Prod.fst
  | some (session, username) =>
    if (validateSession host users session username now).isSome then some username
    else (bearerUser host users credentials.bearer now).map Prod.fst

def roleOf (users : Users) (username : String) : Option String :=
  (users.get? username).map UserRow.role

theorem roleOf_set (users : Users) (username other : String) (user : UserRow) :
    roleOf (users.set username user) other =
      if username = other then some user.role else roleOf users other := by
  unfold roleOf
  rw [Dict.get?_set]
  split
  next => rfl
  next => rfl

theorem validateSession_some {host : AuthHost} {users after : Users} {token username : String}
    {now : Int} {user : UserRow}
    (h : validateSession host users token username now = some (user, after)) :
    roleOf users username = some user.role ∧ after = users.set username user := by
  rcases validateSession_cases host users token username now with
    ⟨row, expires, hrow, _, _, _, he⟩ | ⟨he, _⟩
  · rw [h] at he
    obtain ⟨rfl, rfl⟩ := Prod.mk.inj (Option.some.inj he)
    exact ⟨by simp [roleOf, hrow], rfl⟩
  · rw [h] at he
    cases he

theorem currentUser_frame (host : AuthHost) (users : Users) (credentials : Credentials)
    (now : Int) (other : String) :
    (currentUser host users credentials now).2.get? other = users.get? other ∨
      provedUser host users credentials now = some other := by
  unfold currentUser
  split
  next => exact Or.inl rfl
  next session username hcookies =>
    split
    next user after hvalid =>
      obtain ⟨_, rfl⟩ := validateSession_some hvalid
      by_cases hname : username = other
      · subst hname
        refine Or.inr ?_
        unfold provedUser
        rw [hcookies]
        simp [hvalid]
      · exact Or.inl (Dict.get?_set_ne users user hname)
    next => exact Or.inl rfl

theorem currentUser_role (host : AuthHost) (users : Users) (credentials : Credentials)
    (now : Int) (other : String) :
    roleOf (currentUser host users credentials now).2 other = roleOf users other := by
  unfold currentUser
  split
  next => rfl
  next session username _ =>
    split
    next user after hvalid =>
      obtain ⟨hrole, rfl⟩ := validateSession_some hvalid
      rw [roleOf_set]
      split
      next heq => rw [← heq, hrole]
      next => rfl
    next => rfl

theorem readUser_ok {found : Option (String × UserRow)} {user : String × UserRow}
    (h : readUser found = .ok user) : found = some user := by
  cases found with
  | none => cases h
  | some found =>
    simp only [readUser] at h
    split at h
    next => cases h; rfl
    next => cases h

theorem bearerUser_role {host : AuthHost} {users : Users} {bearer : Option String} {now : Int}
    {name : String} {user : UserRow} (h : bearerUser host users bearer now = some (name, user)) :
    roleOf users name = some user.role := by
  obtain ⟨token, _, h⟩ := Option.bind_eq_some_iff.mp h
  obtain ⟨username, _, h⟩ := Option.bind_eq_some_iff.mp h
  split at h
  next => cases h
  next =>
    obtain ⟨row, hrow, he⟩ := Option.map_eq_some_iff.mp h
    cases he
    simp [roleOf, hrow]

theorem currentUser_ok {host : AuthHost} {users after : Users} {credentials : Credentials}
    {now : Int} {name : String} {user : UserRow}
    (h : currentUser host users credentials now = (.ok (name, user), after)) :
    provedUser host users credentials now = some name ∧ roleOf users name = some user.role := by
  unfold currentUser at h
  split at h
  next hcookies =>
    have hfound := readUser_ok (Prod.mk.inj h).1
    refine ⟨?_, bearerUser_role hfound⟩
    unfold provedUser
    rw [hcookies]
    simp [hfound]
  next session username hcookies =>
    split at h
    next row users' hvalid =>
      have hfound := readUser_ok (Prod.mk.inj h).1
      cases hfound
      refine ⟨?_, (validateSession_some hvalid).1⟩
      unfold provedUser
      rw [hcookies]
      simp [hvalid]
    next hvalid =>
      have hfound := readUser_ok (Prod.mk.inj h).1
      refine ⟨?_, bearerUser_role hfound⟩
      unfold provedUser
      rw [hcookies]
      simp [hvalid, hfound]

/-- Who an event acts as. -/
def AuthEvent.actor (host : AuthHost) (users : Users) (now : Int) : AuthEvent → Option String
  | .login username password _ =>
    if (authenticate host users username password).isSome then some username else none
  | .logout session user => provedUser host users ⟨session, user, none⟩ now
  | .visit credentials | .register credentials _ _ | .createUser credentials _ _
  | .updateUser credentials _ _ _ | .deleteUser credentials _ _ =>
    provedUser host users credentials now

/-- The event acts as a user or as an admin. -/
def AuthEvent.MayChange (host : AuthHost) (users : Users) (now : Int) (username : String)
    (event : AuthEvent) : Prop :=
  ∃ name, event.actor host users now = some name ∧
    (name = username ∨ roleOf users name = some "admin")

/-- The event registers the user while there are no users. -/
def AuthEvent.First (users : Users) (username : String) : AuthEvent → Prop
  | .register _ form _ => users.entries = [] ∧ form.username = username
  | _ => False

theorem roleOf_eq_some {users : Users} {username role : String} :
    roleOf users username = some role ↔ ∃ user, users.get? username = some user ∧
      user.role = role := Option.map_eq_some_iff

theorem asUser_row {host : AuthHost} {users : Users} {credentials : Credentials} {now : Int}
    {act : String → UserRow → Users → Nat × Users} {other : String}
    (hact : ∀ name user users, (act name user users).2.get? other = users.get? other ∨
      name = other ∨ user.role = "admin") :
    (asUser host users credentials now act).2.get? other = users.get? other ∨
      ∃ name, provedUser host users credentials now = some name ∧
        (name = other ∨ roleOf users name = some "admin") := by
  have hframe := currentUser_frame host users credentials now other
  unfold asUser
  split
  next code after hcurrent =>
    rw [hcurrent] at hframe
    exact hframe.imp id fun h => ⟨other, h, Or.inl rfl⟩
  next name user after hcurrent =>
    obtain ⟨hproved, hrole⟩ := currentUser_ok hcurrent
    rw [hcurrent] at hframe
    rcases hframe with hframe | h
    · rcases hact name user after with h | rfl | hadmin
      · exact Or.inl (h.trans hframe)
      · exact Or.inr ⟨name, hproved, Or.inl rfl⟩
      · exact Or.inr ⟨name, hproved, Or.inr (hadmin ▸ hrole)⟩
    · exact Or.inr ⟨other, h, Or.inl rfl⟩

theorem asAdmin_row {host : AuthHost} {users : Users} {credentials : Credentials} {now : Int}
    {act : Users → Nat × Users} {other : String} :
    (asAdmin host users credentials now act).2.get? other = users.get? other ∨
      ∃ name, provedUser host users credentials now = some name ∧
        (name = other ∨ roleOf users name = some "admin") := by
  refine asUser_row fun name user users => ?_
  split
  next => exact Or.inl rfl
  next hadmin => exact Or.inr (Or.inr (not_not.mp hadmin))

theorem registerUser_row (users : Users) (current : Option (String × UserRow)) (form : UserForm)
    (hash other : String) : (registerUser users current form hash).2.get? other = users.get? other ∨
      form.username = other ∧ (users.entries = [] ∨ ∃ user, current = some user ∧
        user.2.role = "admin") := by
  unfold registerUser
  simp only
  split
  next => exact Or.inl rfl
  next hallowed =>
    split
    next => exact Or.inl rfl
    next =>
      by_cases hname : form.username = other
      · refine Or.inr ⟨hname, ?_⟩
        rcases List.eq_nil_or_concat users.entries with hempty | ⟨rest, last, hne⟩
        · exact Or.inl hempty
        · right
          cases current with
          | none => simp [hne] at hallowed
          | some user => exact ⟨user, rfl, by simpa [hne] using hallowed⟩
      · exact Or.inl (Dict.get?_set_ne users _ hname)

theorem Dict.entries_set_ne_nil {κ α : Type} [DecidableEq κ] (d : Dict κ α) (k : κ) (v : α) :
    (d.set k v).entries ≠ [] := by
  intro h
  have hself := Dict.get?_set_self d k v
  rw [Dict.get?, h] at hself
  cases hself

theorem currentUser_empty {host : AuthHost} {users : Users} {credentials : Credentials} {now : Int}
    (h : (currentUser host users credentials now).2.entries = []) : users.entries = [] := by
  unfold currentUser at h
  split at h
  next => exact h
  next =>
    split at h
    next user after hvalid =>
      obtain ⟨_, rfl⟩ := validateSession_some hvalid
      exact absurd h (Dict.entries_set_ne_nil users _ user)
    next => exact h

theorem register_row (host : AuthHost) (users : Users) (now : Int) (credentials : Credentials)
    (form : UserForm) (hash other : String) :
    (register host users now credentials form hash).2.get? other = users.get? other ∨
      (∃ name, provedUser host users credentials now = some name ∧
        (name = other ∨ roleOf users name = some "admin")) ∨
      users.entries = [] ∧ form.username = other := by
  have hframe := currentUser_frame host users credentials now other
  have hempty := @currentUser_empty host users credentials now
  unfold register
  rcases hcurrent : currentUser host users credentials now with ⟨code | ⟨name, user⟩, after⟩
  · rw [hcurrent] at hframe hempty
    rcases hframe with hframe | h
    · simp only
      split
      next =>
        rcases registerUser_row after none form hash other with h | ⟨hname, h | ⟨_, h, _⟩⟩
        · exact Or.inl (h.trans hframe)
        · exact Or.inr (Or.inr ⟨hempty h, hname⟩)
        · cases h
      next => exact Or.inl hframe
    · exact Or.inr (Or.inl ⟨other, h, Or.inl rfl⟩)
  · obtain ⟨hproved, hrole⟩ := currentUser_ok hcurrent
    rw [hcurrent] at hframe hempty
    rcases hframe with hframe | h
    · rcases registerUser_row after (some (name, user)) form hash other with
        h | ⟨hname, h | ⟨_, h, hadmin⟩⟩
      · exact Or.inl (h.trans hframe)
      · exact Or.inr (Or.inr ⟨hempty h, hname⟩)
      · cases h
        exact Or.inr (Or.inl ⟨name, hproved, Or.inr (hadmin ▸ hrole)⟩)
    · exact Or.inr (Or.inl ⟨other, h, Or.inl rfl⟩)

theorem authenticate_row {host : AuthHost} {users : Users} {username password : String}
    {user : UserRow} (h : authenticate host users username password = some user) :
    users.get? username = some user := by
  unfold authenticate at h
  split at h
  next => cases h
  next row hrow =>
    split at h
    next => cases h
    next =>
      split at h
      next => cases h; exact hrow
      next => cases h

theorem login_row (host : AuthHost) (users : Users) (now : Int)
    (username password token other : String) :
    (login host users now username password token).2.get? other = users.get? other ∨
      username = other ∧ (authenticate host users username password).isSome = true := by
  unfold login
  cases authenticate host users username password with
  | none => exact Or.inl rfl
  | some user =>
    by_cases hname : username = other
    · exact Or.inr ⟨hname, rfl⟩
    · exact Or.inl (Dict.get?_set_ne users _ hname)

theorem logout_row (host : AuthHost) (users : Users) (now : Int) (session user : Option String)
    (other : String) : (logout host users now session user).2.get? other = users.get? other ∨
      provedUser host users ⟨session, user, none⟩ now = some other := by
  unfold logout provedUser
  split
  next => exact Or.inl rfl
  next token username hcookies =>
    split
    next => exact Or.inl rfl
    next row after hvalid =>
      obtain ⟨_, rfl⟩ := validateSession_some hvalid
      by_cases hname : username = other
      · subst hname
        exact Or.inr (by simp [hcookies, hvalid])
      · exact Or.inl ((Dict.get?_set_ne _ _ hname).trans (Dict.get?_set_ne users row hname))

/-- A row is changed by its user, by an admin, or by the first registration. -/
theorem handle_row (host : AuthHost) (users : Users) (now : Int) (event : AuthEvent)
    (username : String) : (event.handle host users now).2.get? username = users.get? username ∨
      event.MayChange host users now username ∨ event.First users username := by
  cases event with
  | login name password token =>
    rcases login_row host users now name password token username with h | ⟨rfl, hauth⟩
    · exact Or.inl h
    · exact Or.inr (Or.inl ⟨name, if_pos hauth, Or.inl rfl⟩)
  | logout session user =>
    rcases logout_row host users now session user username with h | h
    · exact Or.inl h
    · exact Or.inr (Or.inl ⟨username, h, Or.inl rfl⟩)
  | visit credentials => exact (asUser_row fun _ _ _ => Or.inl rfl).imp id Or.inl
  | register credentials form hash =>
    exact register_row host users now credentials form hash username
  | createUser credentials form hash => exact asAdmin_row.imp id Or.inl
  | updateUser credentials name change hash =>
    refine (asUser_row fun current user users => ?_).imp id Or.inl
    split
    next => exact Or.inl rfl
    next hallowed =>
      split
      next => exact Or.inl rfl
      next row hrow =>
        by_cases hname : name = username
        · right
          by_contra hh
          rw [hname] at hallowed
          exact hallowed (not_or.mp hh)
        · left
          simp only
          split
          next => exact Dict.get?_set_ne users _ hname
          next => rfl
  | deleteUser credentials name referenced => exact asAdmin_row.imp id Or.inl

/-- In a run the row of a user changes only at a request that the user or an admin is proved to
make, or at the first registration. -/
theorem row_changed_by {host : AuthHost} {users : Users} {history : List (Int × AuthEvent)}
    {username : String}
    (h : (runAuth host users history).get? username ≠ users.get? username) :
    ∃ before now event after, history = before ++ (now, event) :: after ∧
      (event.MayChange host (runAuth host users before) now username ∨
        event.First (runAuth host users before) username) := by
  obtain ⟨before, ⟨now, event⟩, after, rfl, hchange⟩ :=
    foldl_changed (fun users : Users => users.get? username) h
  exact ⟨before, now, event, after, rfl,
    (handle_row host (runAuth host users before) now event username).resolve_left hchange⟩

/-- A host that takes any password. -/
def openHost : AuthHost := ⟨3600, fun _ _ => true, fun _ _ => none⟩

def staffForm (username role : String) (h : username.length ≤ 64 ∧ 0 ≤ 255 ∧ username.length ≤ 255)
    (hrole : role = "admin" ∨ role = "editor" ∨ role = "user") : UserForm where
  username := username
  email := ""
  name := username
  role := role
  password := "secret"
  fits := h
  roleKnown := hrole
  long := by decide

/-- The first user creates another, who logs in and takes the role of an admin. -/
def staffHistory : List (Int × AuthEvent) :=
  [(0, .register ⟨none, none, none⟩ (staffForm "root" "user" (by decide) (by decide)) "h"),
    (1, .login "root" "secret" "a"),
    (2, .createUser ⟨some "a", some "root", none⟩
      (staffForm "anna" "user" (by decide) (by decide)) "h"),
    (3, .login "anna" "secret" "b"),
    (4, .updateUser ⟨some "b", some "anna", none⟩ "anna"
      ⟨none, none, some "admin", none, none, none, none⟩ "")]

theorem staff_row_changed :
    ∃ before now event after, staffHistory = before ++ (now, event) :: after ∧
      (event.MayChange openHost (runAuth openHost Dict.empty before) now "anna" ∨
        event.First (runAuth openHost Dict.empty before) "anna") := row_changed_by (by decide)

/-- An event that can make the user an admin: the first registration, a form of an admin, and a
change of role by an admin or by the user. -/
def AuthEvent.MakesAdmin (host : AuthHost) (users : Users) (now : Int) (username : String)
    (event : AuthEvent) : Prop :=
  match event with
  | .register credentials form _ => form.username = username ∧ (users.entries = [] ∨
      form.role = "admin" ∧ ∃ name, provedUser host users credentials now = some name ∧
        roleOf users name = some "admin")
  | .createUser credentials form _ => form.username = username ∧ form.role = "admin" ∧
      ∃ name, provedUser host users credentials now = some name ∧ roleOf users name = some "admin"
  | .updateUser credentials name change _ => name = username ∧ change.role = some "admin" ∧
      ∃ current, provedUser host users credentials now = some current ∧
        (current = username ∨ roleOf users current = some "admin")
  | _ => False

theorem roleOf_pop {users : Users} {username other role : String}
    (h : roleOf (users.pop username) other = some role) : roleOf users other = some role := by
  unfold roleOf at h
  rw [Dict.get?_pop] at h
  split at h
  next => cases h
  next => exact h

theorem asUser_role {host : AuthHost} {users : Users} {credentials : Credentials} {now : Int}
    {act : String → UserRow → Users → Nat × Users} {other role : String}
    (h : roleOf (asUser host users credentials now act).2 other = some role)
    (hother : roleOf users other ≠ some role) : ∃ name user after,
      provedUser host users credentials now = some name ∧ roleOf users name = some user.role ∧
        roleOf after other ≠ some role ∧ roleOf (act name user after).2 other = some role := by
  have hsame := currentUser_role host users credentials now other
  unfold asUser at h
  split at h
  next code after hcurrent =>
    rw [hcurrent] at hsame
    exact absurd (hsame.symm.trans h) hother
  next name user after hcurrent =>
    obtain ⟨hproved, hrole⟩ := currentUser_ok hcurrent
    rw [hcurrent] at hsame
    exact ⟨name, user, after, hproved, hrole, fun hh => hother (hsame.symm.trans hh), h⟩

theorem asAdmin_role {host : AuthHost} {users : Users} {credentials : Credentials} {now : Int}
    {act : Users → Nat × Users} {other role : String}
    (h : roleOf (asAdmin host users credentials now act).2 other = some role)
    (hother : roleOf users other ≠ some role) : ∃ name after,
      provedUser host users credentials now = some name ∧ roleOf users name = some "admin" ∧
        roleOf after other ≠ some role ∧ roleOf (act after).2 other = some role := by
  obtain ⟨name, user, after, hproved, hrole, hafter, hact⟩ := asUser_role h hother
  split at hact
  next => exact absurd hact hafter
  next hadmin => exact ⟨name, after, hproved, not_not.mp hadmin ▸ hrole, hafter, hact⟩

theorem roleOf_registerUser {users : Users} {current : Option (String × UserRow)} {form : UserForm}
    {hash other : String}
    (h : roleOf (registerUser users current form hash).2 other = some "admin")
    (hother : roleOf users other ≠ some "admin") :
    form.username = other ∧ (users.entries = [] ∨ form.role = "admin" ∧
      ∃ user, current = some user ∧ user.2.role = "admin") := by
  rcases registerUser_row users current form hash other with hsame | ⟨hname, hempty | hadmin⟩
  · unfold roleOf at h
    rw [hsame] at h
    exact absurd h hother
  · exact ⟨hname, Or.inl hempty⟩
  · refine ⟨hname, or_iff_not_imp_left.mpr fun hempty => ⟨?_, hadmin⟩⟩
    obtain ⟨user, rfl, hrole⟩ := hadmin
    unfold registerUser at h
    simp only [Option.any_some, hrole, decide_true] at h
    split at h
    next => exact absurd h hother
    next =>
      split at h
      next => exact absurd h hother
      next => simpa [roleOf_set, hname, newUser, hempty] using h

theorem roleOf_register {host : AuthHost} {users : Users} {now : Int} {credentials : Credentials}
    {form : UserForm} {hash other : String}
    (h : roleOf (register host users now credentials form hash).2 other = some "admin")
    (hother : roleOf users other ≠ some "admin") :
    (AuthEvent.register credentials form hash).MakesAdmin host users now other := by
  have hsame := currentUser_role host users credentials now other
  have hempty := @currentUser_empty host users credentials now
  unfold register at h
  rcases hcurrent : currentUser host users credentials now with ⟨code | ⟨name, user⟩, after⟩
  · rw [hcurrent] at hsame hempty h
    rw [← hsame] at hother
    simp only at h
    split at h
    next =>
      obtain ⟨hname, hfirst | ⟨_, _, hnone, _⟩⟩ := roleOf_registerUser h hother
      · exact ⟨hname, Or.inl (hempty hfirst)⟩
      · cases hnone
    next => exact absurd h hother
  · obtain ⟨hproved, hrole⟩ := currentUser_ok hcurrent
    rw [hcurrent] at hsame hempty h
    rw [← hsame] at hother
    obtain ⟨hname, hfirst | ⟨hform, _, huser, hadmin⟩⟩ := roleOf_registerUser h hother
    · exact ⟨hname, Or.inl (hempty hfirst)⟩
    · cases huser
      exact ⟨hname, Or.inr ⟨hform, name, hproved, hadmin ▸ hrole⟩⟩

theorem roleOf_createUser {host : AuthHost} {users : Users} {now : Int} {credentials : Credentials}
    {form : UserForm} {hash other : String}
    (h : roleOf (createUser host users now credentials form hash).2 other = some "admin")
    (hother : roleOf users other ≠ some "admin") :
    (AuthEvent.createUser credentials form hash).MakesAdmin host users now other := by
  obtain ⟨name, after, hproved, hrole, hafter, hact⟩ := asAdmin_role h hother
  split at hact
  next => exact absurd hact hafter
  next =>
    rw [roleOf_set] at hact
    split at hact
    next hname => exact ⟨hname, Option.some.inj hact, name, hproved, hrole⟩
    next => exact absurd hact hafter

theorem roleOf_updateUser {host : AuthHost} {users : Users} {now : Int} {credentials : Credentials}
    {name : String} {change : UserChange} {hash other : String}
    (h : roleOf (updateUser host users now credentials name change hash).2 other = some "admin")
    (hother : roleOf users other ≠ some "admin") :
    (AuthEvent.updateUser credentials name change hash).MakesAdmin host users now other := by
  obtain ⟨current, user, after, hproved, hrole, hafter, hact⟩ := asUser_role h hother
  split at hact
  next => exact absurd hact hafter
  next hallowed =>
    split at hact
    next => exact absurd hact hafter
    next row hrow =>
      simp only at hact
      split at hact
      next =>
        rw [roleOf_set] at hact
        split at hact
        next hname =>
          refine ⟨hname, ?_, current, hproved, ?_⟩
          · cases hchange : change.role with
            | some role =>
              have := Option.some.inj hact
              simpa [UserChange.apply, hchange] using this
            | none =>
              refine absurd (roleOf_eq_some.mpr ⟨row, hname ▸ hrow, ?_⟩) hafter
              have := Option.some.inj hact
              simpa [UserChange.apply, hchange] using this
          · by_cases hcurrent : current = other
            · exact Or.inl hcurrent
            · right
              by_contra hadmin
              exact hallowed ⟨fun heq => hcurrent (heq.trans hname),
                fun heq => hadmin (heq ▸ hrole)⟩
        next => exact absurd hact hafter
      next => exact absurd hact hafter

theorem roleOf_handle {host : AuthHost} {users : Users} {now : Int} {event : AuthEvent}
    {username : String} (h : roleOf (event.handle host users now).2 username = some "admin")
    (hother : roleOf users username ≠ some "admin") :
    event.MakesAdmin host users now username := by
  cases event with
  | login name password token =>
    refine absurd ?_ hother
    change roleOf (login host users now name password token).2 username = some "admin" at h
    unfold login at h
    split at h
    next => exact h
    next user hauth =>
      simp only [createSession] at h
      rw [roleOf_set] at h
      split at h
      next hname =>
        exact roleOf_eq_some.mpr ⟨user, hname ▸ authenticate_row hauth, Option.some.inj h⟩
      next => exact h
  | logout session user =>
    refine absurd ?_ hother
    change roleOf (logout host users now session user).2 username = some "admin" at h
    unfold logout at h
    split at h
    next => exact h
    next token name hcookies =>
      split at h
      next => exact h
      next row after hvalid =>
        obtain ⟨hrole, rfl⟩ := validateSession_some hvalid
        simp only [destroySession, roleOf_set] at h
        split at h
        next hname => exact hname ▸ hrole.trans h
        next => exact h
  | visit credentials =>
    obtain ⟨_, _, _, _, _, hafter, hact⟩ := asUser_role h hother
    exact absurd hact hafter
  | register credentials form hash => exact roleOf_register h hother
  | createUser credentials form hash => exact roleOf_createUser h hother
  | updateUser credentials name change hash => exact roleOf_updateUser h hother
  | deleteUser credentials name referenced =>
    obtain ⟨_, after, _, _, hafter, hact⟩ := asAdmin_role h hother
    split at hact
    next => exact absurd hact hafter
    next =>
      split at hact
      next => exact absurd hact hafter
      next => exact absurd (roleOf_pop hact) hafter

/-- Who is an admin after a run and was not before it was made one by an event of the run. -/
theorem admin_made_by {host : AuthHost} {users : Users} {history : List (Int × AuthEvent)}
    {username : String} (h : roleOf (runAuth host users history) username = some "admin")
    (hother : roleOf users username ≠ some "admin") :
    ∃ before now event after, history = before ++ (now, event) :: after ∧
      event.MakesAdmin host (runAuth host users before) now username := by
  obtain ⟨before, ⟨now, event⟩, after, rfl, hbefore, hstep⟩ :=
    foldl_arises (fun users => roleOf users username = some "admin") h hother
  exact ⟨before, now, event, after, rfl, roleOf_handle hstep hbefore⟩

theorem staff_admin_made :
    ∃ before now event after, staffHistory = before ++ (now, event) :: after ∧
      event.MakesAdmin openHost (runAuth openHost Dict.empty before) now "anna" :=
  @admin_made_by openHost Dict.empty staffHistory "anna" (by decide) (by decide)

end NovaVe
