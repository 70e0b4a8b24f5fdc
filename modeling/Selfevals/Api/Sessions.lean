import Selfevals.Lib.Effects
import Selfevals.Lib.Fluents
import Selfevals.Lib.PyStr
import Selfevals.Schemas.Base

/-!
# Accounts and sessions

Signup, login and logout over the tables of users and sessions. The cookie carries a token, of which
the table holds the hash alone; a session ends when it expires, when it is logged out, or when its
user logs out everywhere, and its row stays.

* `issues_or_revokes`: a request issues one session, or ends some.
-/

namespace Selfevals.Api.Sessions

open Lib.Effects Lib.Fluents Lib.PyStr Lib.Run Schemas.Base

/-! ### The tables -/

/-- `User`. -/
structure User where
  id : String
  version : ℕ := 1
  createdAt : Time
  updatedAt : Time
  deletedAt : Option Time := none
  email : String
  displayName : Option String := none
  passwordHash : Option String := none
  lastLoginAt : Option Time := none
deriving DecidableEq, Repr

/-- `UserSession`. -/
structure UserSession where
  id : String
  userId : String
  createdAt : Time
  expiresAt : Time
  revokedAt : Option Time := none
  userAgent : Option String := none
  ipAddress : Option String := none
deriving DecidableEq, Repr

/-- A row of `user_sessions`: only the hash of the token is stored. -/
structure SessionRow extends UserSession where
  tokenHash : String
deriving DecidableEq, Repr

/-- What the server takes from libraries: `str.lower` and `lower` of SQL, SHA-256 of a token in hex,
and Argon2, whose hash depends on a salt. -/
structure Credentials where
  pyLower : String → String
  sqlLower : String → String
  hashToken : String → String
  hashPassword : String → String → String
  verifyPassword : String → String → Bool
  needsRehash : String → Bool

variable (c : Credentials)

/-- The tables of users and sessions; their keys, `idx_users_email_lower` and
`idx_user_sessions_token`. -/
structure Identity where
  users : List User
  sessions : List SessionRow
  userIds_nodup : (users.map (·.id)).Nodup
  emails_nodup : ((users.filter fun u => u.deletedAt = none).map (c.sqlLower ·.email)).Nodup
  sessionIds_nodup : (sessions.map (·.id)).Nodup
  tokenHashes_nodup : (sessions.map (·.tokenHash)).Nodup
  references : ∀ row ∈ sessions, row.userId ∈ users.map (·.id)

/-- What the handlers raise. -/
inductive AuthError
  /-- `HTTPException`. -/
  | http (statusCode : ℕ) (detail : String)
  /-- `UniqueViolation`, `ForeignKeyViolation`. -/
  | unique (constraint : String)
  | foreignKey (constraint : String)
deriving DecidableEq, Repr

variable {c}

/-! ### `storage/postgres/identity.py` -/

namespace Identity
variable (s : Identity c)

/-- Users whose id, email and deletion stay. -/
def mapUsers (f : User → User)
    (hf : ∀ u, (f u).id = u.id ∧ (f u).email = u.email ∧ (f u).deletedAt = u.deletedAt) :
    Identity c where
  users := s.users.map f
  sessions := s.sessions
  userIds_nodup := by
    rw [List.map_map]
    refine (List.map_congr_left fun u _ => ?_) ▸ s.userIds_nodup
    exact (hf u).1.symm
  emails_nodup := by
    rw [List.filter_map, List.map_map]
    have hlive : ((fun u : User => decide (u.deletedAt = none)) ∘ f) =
        fun u => decide (u.deletedAt = none) := funext fun u => by
      simp only [Function.comp, (hf u).2.2]
    rw [hlive]
    refine (List.map_congr_left fun u _ => ?_) ▸ s.emails_nodup
    exact congrArg c.sqlLower (hf u).2.1.symm
  sessionIds_nodup := s.sessionIds_nodup
  tokenHashes_nodup := s.tokenHashes_nodup
  references row hrow := by
    rw [List.map_map]
    obtain ⟨u, hu, hid⟩ := List.mem_map.mp (s.references row hrow)
    exact List.mem_map.mpr ⟨u, hu, (hf u).1.trans hid⟩

/-- Sessions whose id, token and user stay. -/
def mapSessions (f : SessionRow → SessionRow)
    (hf : ∀ row, (f row).id = row.id ∧ (f row).tokenHash = row.tokenHash ∧
      (f row).userId = row.userId) :
    Identity c where
  users := s.users
  sessions := s.sessions.map f
  userIds_nodup := s.userIds_nodup
  emails_nodup := s.emails_nodup
  sessionIds_nodup := by
    rw [List.map_map]
    refine (List.map_congr_left fun row _ => ?_) ▸ s.sessionIds_nodup
    exact (hf row).1.symm
  tokenHashes_nodup := by
    rw [List.map_map]
    refine (List.map_congr_left fun row _ => ?_) ▸ s.tokenHashes_nodup
    exact (hf row).2.1.symm
  references row hrow := by
    obtain ⟨row₀, hrow₀, rfl⟩ := List.mem_map.mp hrow
    exact (hf row₀).2.2 ▸ s.references row₀ hrow₀

/-- `create_user`. -/
def createUser (user : User) : Except AuthError (Identity c) :=
  if hids : ((s.users ++ [user]).map (·.id)).Nodup then
    if hemails : (((s.users ++ [user]).filter fun u => u.deletedAt = none).map
        (c.sqlLower ·.email)).Nodup then
      .ok { s with
        users := s.users ++ [user]
        userIds_nodup := hids
        emails_nodup := hemails
        references := fun row hrow => by
          rw [List.map_append]
          exact List.mem_append_left _ (s.references row hrow) }
    else .error (.unique "idx_users_email_lower")
  else .error (.unique "users_pkey")

/-- `get_user_by_email`: of users that are not deleted. -/
def getUserByEmail (email : String) : Option User :=
  s.users.find? fun u => c.sqlLower u.email = c.sqlLower (strip email) ∧ u.deletedAt = none

/-- `count_users`: those that are not deleted. -/
def countUsers : ℕ := s.users.countP fun u => u.deletedAt = none

/-- `update_password_hash`. -/
def updatePasswordHash (userId passwordHash : String) (now : Time) : Identity c :=
  s.mapUsers
    (fun u => if u.id = userId then
      { u with passwordHash := some passwordHash, updatedAt := now, version := u.version + 1 }
      else u)
    (fun u => by split_ifs <;> exact ⟨rfl, rfl, rfl⟩)

/-- `touch_last_login`. -/
def touchLastLogin (userId : String) (now : Time) : Identity c :=
  s.mapUsers (fun u => if u.id = userId then { u with lastLoginAt := some now } else u)
    (fun u => by split_ifs <;> exact ⟨rfl, rfl, rfl⟩)

/-- `create_session`. -/
def createSession (session : UserSession) (tokenHash : String) : Except AuthError (Identity c) :=
  if hids : ((s.sessions ++ [SessionRow.mk session tokenHash]).map (·.id)).Nodup then
    if hhashes : ((s.sessions ++ [SessionRow.mk session tokenHash]).map (·.tokenHash)).Nodup then
      if huser : session.userId ∈ s.users.map (·.id) then
        .ok { s with
          sessions := s.sessions ++ [SessionRow.mk session tokenHash]
          sessionIds_nodup := hids
          tokenHashes_nodup := hhashes
          references := fun row hrow => by
            rw [List.mem_append, List.mem_singleton] at hrow
            obtain hrow | rfl := hrow
            · exact s.references row hrow
            · exact huser }
      else .error (.foreignKey "user_sessions_user_id_fkey")
    else .error (.unique "idx_user_sessions_token")
  else .error (.unique "user_sessions_pkey")

/-- `resolve_session`: of live sessions of live users. -/
def resolveSession (tokenHash : String) (now : Time) : Option (UserSession × User) :=
  s.sessions.findSome? fun row =>
    if row.tokenHash = tokenHash ∧ row.revokedAt = none ∧ now < row.expiresAt then
      (s.users.find? fun u => u.id = row.userId ∧ u.deletedAt = none).map
        fun u => (row.toUserSession, u)
    else none

/-- `revoke_session`: by the hash of its token. -/
def revokeSession (tokenHash : String) (now : Time) : Identity c :=
  s.mapSessions
    (fun row => if row.tokenHash = tokenHash ∧ row.revokedAt = none then
      { row with revokedAt := some now } else row)
    (fun row => by split_ifs <;> exact ⟨rfl, rfl, rfl⟩)

/-- `revoke_all_sessions`: of one user. -/
def revokeAllSessions (userId : String) (now : Time) : Identity c :=
  s.mapSessions
    (fun row => if row.userId = userId ∧ row.revokedAt = none then
      { row with revokedAt := some now } else row)
    (fun row => by split_ifs <;> exact ⟨rfl, rfl, rfl⟩)

end Identity

/-! ### `api/routes/auth.py` -/

/-- `_SESSION_TTL`: 30 days. -/
def sessionTtl : Time := seconds (30 * 24 * 3600)

/-- The body of a signup. -/
structure SignupRequest where
  email : String
  password : String
  displayName : Option String := none
  password_length : 12 ≤ password.length ∧ password.length ≤ 1024

/-- The body of a login. -/
structure LoginRequest where
  email : String
  password : String
  password_length : password.length ≤ 1024

/-- The endpoints, with their bodies and cookies. -/
inductive Op
  | signup (body : SignupRequest)
  | login (body : LoginRequest)
  | logout (session : Option String)
  | me (session : Option String)
  | logoutEverywhere (session : Option String)

/-- A request, and what the handler draws from its surroundings: the time, new ids, a new token, a
salt, and what the request object says of the client. -/
structure Request where
  op : Op
  now : Time
  userId : String
  sessionId : String
  token : String
  salt : String
  forwardedProto : Option String := none
  scheme : String := "http"
  userAgent : Option String := none
  ipAddress : Option String := none

/-- A user as it is answered. -/
structure UserResponse where
  id : String
  email : String
  displayName : Option String
deriving DecidableEq, Repr

/-- The session cookie that a response sets. -/
structure Cookie where
  token : String
  maxAge : ℤ
  secure : Bool
deriving DecidableEq, Repr

/-- What a request is answered with. -/
inductive Response
  | user (user : UserResponse) (cookie : Option Cookie)
  /-- No content, and the cookie is deleted. -/
  | loggedOut
deriving DecidableEq, Repr

/-- A handler over the tables. -/
abbrev Scope (c : Credentials) := Scoped (Identity c) AuthError

/-- What of a user is answered. -/
def User.view (u : User) : UserResponse := ⟨u.id, u.email, u.displayName⟩

section Handlers
variable (c)

/-- `_cookie_is_secure`. -/
def cookieIsSecure (req : Request) : Bool :=
  let forwarded := c.pyLower (strip ((splitOn ',' (req.forwardedProto.getD "")).headD ""))
  (if forwarded = "" then req.scheme else forwarded) = "https"

/-- `_set_session_cookie`. -/
def sessionCookie (req : Request) (token : String) : Cookie :=
  ⟨token, sessionTtl / seconds 1, cookieIsSecure c req⟩

/-- A write that is not refused. -/
def write (f : Identity c → Identity c) : Scope c Unit := tryWrite fun s => .ok (f s)

/-- The session that is issued to a user. -/
def newSession (req : Request) (userId : String) : UserSession where
  id := req.sessionId
  userId := userId
  createdAt := req.now
  expiresAt := req.now + sessionTtl
  userAgent := req.userAgent
  ipAddress := req.ipAddress

/-- `_issue_session`. -/
def issueSession (req : Request) (user : User) : Scope c String := do
  tryWrite fun s => s.createSession (newSession req user.id) (c.hashToken req.token)
  write c fun s => s.touchLastLogin user.id req.now
  return req.token

/-- The user that a signup makes. -/
def newUser (req : Request) (body : SignupRequest) : User where
  id := req.userId
  createdAt := req.now
  updatedAt := req.now
  email := c.pyLower (strip body.email)
  displayName := body.displayName
  passwordHash := some (c.hashPassword req.salt body.password)

/-- `signup`: only the first user signs up. -/
def signup (req : Request) (body : SignupRequest) : Scope c Response := do
  if 0 < (← query (·.countUsers)) then
    raise (.http 403 "signup is closed; ask an admin to invite you")
  else if (← query (·.getUserByEmail body.email)).isSome then
    raise (.http 409 "email already registered")
  else
    let user := newUser c req body
    tryWrite fun s => s.createUser user
    let token ← issueSession c req user
    return .user user.view (some (sessionCookie c req token))

/-- The end of a login that has been verified. -/
def openSession (req : Request) (body : LoginRequest) (user : User) (stored : String) :
    Scope c Response := do
  write c fun s =>
    if c.needsRehash stored then
      s.updatePasswordHash user.id (c.hashPassword req.salt body.password) req.now
    else s
  let token ← issueSession c req user
  return .user user.view (some (sessionCookie c req token))

/-- `login`. -/
def login (req : Request) (body : LoginRequest) : Scope c Response := do
  match ← query (·.getUserByEmail body.email) with
  | none => raise (.http 401 "invalid email or password")
  | some user =>
    match user.passwordHash.filter (· ≠ "") with
    | none => raise (.http 401 "invalid email or password")
    | some stored =>
      if c.verifyPassword body.password stored then openSession c req body user stored
      else raise (.http 401 "invalid email or password")

/-- A cookie that is there and not empty. -/
def presented (session : Option String) : Option String := session.filter (· ≠ "")

/-- `logout`: of one session. -/
def logout (now : Time) (session : Option String) : Scope c Response := do
  match presented session with
  | some token => write c fun s => s.revokeSession (c.hashToken token) now
  | none => pure ()
  return .loggedOut

/-- The user of the session that a cookie names. -/
def currentUser (now : Time) (session : Option String) : Scope c User :=
  tryQuery fun s =>
    match presented session with
    | none => .error (.http 401 "not authenticated")
    | some token =>
      match s.resolveSession (c.hashToken token) now with
      | none => .error (.http 401 "session expired or revoked")
      | some (_, user) => .ok user

/-- `me`: who the session belongs to. -/
def me (now : Time) (session : Option String) : Scope c Response := do
  let user ← currentUser c now session
  return .user user.view none

/-- `logout_everywhere`: of all sessions of the user. -/
def logoutEverywhere (now : Time) (session : Option String) : Scope c Response := do
  let user ← currentUser c now session
  write c fun s => s.revokeAllSessions user.id now
  return .loggedOut

/-- The handler of a request. -/
def serve (req : Request) : Scope c Response :=
  match req.op with
  | .signup body => signup c req body
  | .login body => login c req body
  | .logout session => logout c req.now session
  | .me session => me c req.now session
  | .logoutEverywhere session => logoutEverywhere c req.now session

/-- The environment's part: a token that is made is new, and so are the ids. -/
def Possible (s : Identity c) (req : Request) : Prop :=
  c.hashToken req.token ∉ s.sessions.map (·.tokenHash) ∧ req.sessionId ∉ s.sessions.map (·.id) ∧
    req.userId ∉ s.users.map (·.id)
deriving Decidable

/-- One request; what it has written when it raises stays. -/
def step (s : Identity c) (req : Request) : Option (Identity c) :=
  if Possible c s req then some ((serve c req).run s).2 else none

end Handlers

/-! ### What a request does -/

/-- What a login depends on in a user's row. -/
def User.account (u : User) : String × String × Option Time × Option String :=
  (u.id, u.email, u.deletedAt, u.passwordHash)

/-- The row of a session that is issued. -/
def newRow (c : Credentials) (req : Request) (userId : String) : SessionRow :=
  ⟨newSession req userId, c.hashToken req.token⟩

/-- The account after a login of a user with a password. -/
def rehashed (c : Credentials) (req : Request) (body : LoginRequest) (user : User)
    (stored : String) (u : User) : String × String × Option Time × Option String :=
  if c.needsRehash stored ∧ u.id = user.id then
    (u.id, u.email, u.deletedAt, some (c.hashPassword req.salt body.password))
  else u.account

/-- **What a request does**: what it answers, and the sessions and accounts it leaves. -/
inductive Outcome (req : Request) (s : Identity c) : Except AuthError Response × Identity c → Prop
  | refused (e : AuthError) : Outcome req s (.error e, s)
  | seen {session : Option String} (user : UserResponse) (hop : req.op = .me session) :
      Outcome req s (.ok (.user user none), s)
  | signedUp {body : SignupRequest} {t : Identity c} (hop : req.op = .signup body)
      (hfirst : s.countUsers = 0)
      (hsessions : t.sessions = s.sessions ++ [newRow c req req.userId])
      (haccounts : t.users.map User.account =
        s.users.map User.account ++ [(newUser c req body).account]) :
      Outcome req s
        (.ok (.user (newUser c req body).view (some (sessionCookie c req req.token))), t)
  | signedIn {body : LoginRequest} {user : User} {stored : String} {t : Identity c}
      (hop : req.op = .login body) (hfind : s.getUserByEmail body.email = some user)
      (hstored : user.passwordHash = some stored) (hne : stored ≠ "")
      (hverify : c.verifyPassword body.password stored = true)
      (hsessions : t.sessions = s.sessions ++ [newRow c req user.id])
      (haccounts : t.users.map User.account = s.users.map (rehashed c req body user stored)) :
      Outcome req s (.ok (.user user.view (some (sessionCookie c req req.token))), t)
  | noCookie {session : Option String} (hop : req.op = .logout session)
      (hnone : presented session = none) : Outcome req s (.ok .loggedOut, s)
  | loggedOut {session : Option String} {token : String} (hop : req.op = .logout session)
      (hsome : presented session = some token) :
      Outcome req s (.ok .loggedOut, s.revokeSession (c.hashToken token) req.now)
  | loggedOutEverywhere {session : Option String} {user : User}
      (hop : req.op = .logoutEverywhere session)
      (huser : (currentUser c req.now session).run s = (.ok user, s)) :
      Outcome req s (.ok .loggedOut, s.revokeAllSessions user.id req.now)

section Outcome
variable {req : Request} {s t : Identity c}

theorem getUserByEmail_eq_some {email : String} {user : User} :
    s.getUserByEmail email = some user ↔
      user ∈ s.users ∧ c.sqlLower user.email = c.sqlLower (strip email) ∧
        user.deletedAt = none := by
  unfold Identity.getUserByEmail
  constructor
  · intro h
    exact ⟨List.mem_of_find?_eq_some h, by simpa using List.find?_some h⟩
  · rintro ⟨hmem, hemail, hlive⟩
    have hsome : (s.users.find? fun u =>
        c.sqlLower u.email = c.sqlLower (strip email) ∧ u.deletedAt = none).isSome :=
      List.find?_isSome.mpr ⟨user, hmem, decide_eq_true ⟨hemail, hlive⟩⟩
    obtain ⟨u, hu⟩ := Option.isSome_iff_exists.mp hsome
    have hfound : c.sqlLower u.email = c.sqlLower (strip email) ∧ u.deletedAt = none := by
      simpa using List.find?_some hu
    have hlives : ∀ v : User, v ∈ s.users → v.deletedAt = none →
        v ∈ s.users.filter fun u => u.deletedAt = none := fun v hv hnone =>
      List.mem_filter.mpr ⟨hv, decide_eq_true hnone⟩
    rw [hu, List.inj_on_of_nodup_map s.emails_nodup
      (hlives u (List.mem_of_find?_eq_some hu) hfound.2) (hlives user hmem hlive)
      (hfound.1.trans hemail.symm)]

theorem createSession_of_new {session : UserSession} {tokenHash : String}
    (hnew : tokenHash ∉ s.sessions.map (·.tokenHash)) (hid : session.id ∉ s.sessions.map (·.id))
    (huser : session.userId ∈ s.users.map (·.id)) :
    ∃ t, s.createSession session tokenHash = .ok t ∧
      t.sessions = s.sessions ++ [⟨session, tokenHash⟩] ∧ t.users = s.users := by
  have hhashes : ((s.sessions ++ [SessionRow.mk session tokenHash]).map (·.tokenHash)).Nodup := by
    rw [List.map_append, List.map_singleton, ← List.concat_eq_append]
    exact s.tokenHashes_nodup.concat hnew
  have hids : ((s.sessions ++ [SessionRow.mk session tokenHash]).map (·.id)).Nodup := by
    rw [List.map_append, List.map_singleton, ← List.concat_eq_append]
    exact s.sessionIds_nodup.concat hid
  unfold Identity.createSession
  rw [dif_pos hids, dif_pos hhashes, dif_pos huser]
  exact ⟨_, rfl, rfl, rfl⟩

theorem createUser_eq_ok {user : User} (h : s.createUser user = .ok t) :
    t.users = s.users ++ [user] ∧ t.sessions = s.sessions := by
  unfold Identity.createUser at h
  split_ifs at h
  obtain rfl := Except.ok.inj h
  exact ⟨rfl, rfl⟩

theorem account_touchLastLogin (userId : String) (now : Time) :
    (s.touchLastLogin userId now).users.map User.account = s.users.map User.account := by
  show (s.users.map _).map User.account = _
  rw [List.map_map]
  refine List.map_congr_left fun u _ => ?_
  show User.account (if u.id = userId then _ else _) = _
  split_ifs <;> rfl

theorem run_issueSession (hnew : c.hashToken req.token ∉ s.sessions.map (·.tokenHash))
    (hid : req.sessionId ∉ s.sessions.map (·.id)) {user : User}
    (huser : user.id ∈ s.users.map (·.id)) :
    ∃ t, (issueSession c req user).run s = (.ok req.token, t) ∧
      t.sessions = s.sessions ++ [newRow c req user.id] ∧
      t.users.map User.account = s.users.map User.account := by
  obtain ⟨t, hcreate, hsessions, husers⟩ :=
    @createSession_of_new _ s (newSession req user.id) _ hnew hid huser
  unfold issueSession
  rw [run_tryWrite_bind, hcreate]
  refine ⟨_, rfl, hsessions, ?_⟩
  rw [← husers]
  exact account_touchLastLogin user.id req.now

theorem outcome_signup (hpossible : Possible c s req) {body : SignupRequest}
    (hop : req.op = .signup body) : Outcome req s ((signup c req body).run s) := by
  unfold signup
  rw [run_bind, run_query]
  dsimp only
  split_ifs with hcount
  · exact .refused _
  rw [run_bind, run_query]
  dsimp only
  split_ifs with hemail
  · exact .refused _
  rw [run_tryWrite_bind]
  cases hcreate : s.createUser (newUser c req body) with
  | error e => exact .refused e
  | ok t =>
    obtain ⟨husers, hsessions⟩ := createUser_eq_ok hcreate
    have hmem : (newUser c req body).id ∈ t.users.map (·.id) := by
      rw [husers, List.map_append]
      exact List.mem_append_right _ List.mem_cons_self
    obtain ⟨u, hissue, hrows, haccounts⟩ := run_issueSession (hsessions ▸ hpossible.1)
      (hsessions ▸ hpossible.2.1) hmem
    dsimp only
    rw [run_bind, hissue]
    refine .signedUp hop (Nat.eq_zero_of_not_pos hcount) (hsessions ▸ hrows) ?_
    rw [haccounts, husers, List.map_append, List.map_singleton]

theorem account_updatePasswordHash {body : LoginRequest} {user : User} {stored : String}
    (hneeds : c.needsRehash stored = true) :
    (s.updatePasswordHash user.id (c.hashPassword req.salt body.password) req.now).users.map
      User.account = s.users.map (rehashed c req body user stored) := by
  show (s.users.map _).map User.account = _
  rw [List.map_map]
  refine List.map_congr_left fun u _ => ?_
  unfold rehashed
  show User.account (if u.id = user.id then _ else _) = _
  by_cases hid : u.id = user.id
  · rw [if_pos hid, if_pos ⟨hneeds, hid⟩]
    rfl
  · rw [if_neg hid, if_neg fun h => hid h.2]

theorem run_openSession (hpossible : Possible c s req) {body : LoginRequest} {user : User}
    {stored : String} (huser : user ∈ s.users) :
    ∃ t, (openSession c req body user stored).run s =
        (.ok (.user user.view (some (sessionCookie c req req.token))), t) ∧
      t.sessions = s.sessions ++ [newRow c req user.id] ∧
      t.users.map User.account = s.users.map (rehashed c req body user stored) := by
  unfold openSession write
  rw [run_tryWrite_bind]
  dsimp only
  split_ifs with hneeds
  · have hmem : user.id ∈ (s.updatePasswordHash user.id
        (c.hashPassword req.salt body.password) req.now).users.map (·.id) := by
      show user.id ∈ (s.users.map _).map _
      rw [List.map_map]
      refine List.mem_map.mpr ⟨user, huser, ?_⟩
      show (if user.id = user.id then _ else user : User).id = user.id
      rw [if_pos rfl]
    obtain ⟨u, hissue, hrows, haccounts⟩ := run_issueSession (c := c) (s := s.updatePasswordHash
      user.id (c.hashPassword req.salt body.password) req.now)
      hpossible.1 hpossible.2.1 hmem
    rw [run_bind, hissue]
    exact ⟨u, rfl, hrows, haccounts.trans (account_updatePasswordHash hneeds)⟩
  · obtain ⟨u, hissue, hrows, haccounts⟩ := run_issueSession hpossible.1
      hpossible.2.1 (List.mem_map_of_mem huser)
    rw [run_bind, hissue]
    refine ⟨u, rfl, hrows, haccounts.trans (List.map_congr_left fun v _ => ?_)⟩
    unfold rehashed
    rw [if_neg fun h => hneeds h.1]

theorem outcome_login (hpossible : Possible c s req) {body : LoginRequest}
    (hop : req.op = .login body) : Outcome req s ((login c req body).run s) := by
  unfold login
  rw [run_bind, run_query]
  cases hfind : s.getUserByEmail body.email with
  | none => exact .refused _
  | some user =>
    dsimp only
    cases hstored : user.passwordHash.filter (· ≠ "") with
    | none => exact .refused _
    | some stored =>
      dsimp only
      split_ifs with hverify
      · obtain ⟨hstored, hne⟩ := Option.filter_eq_some_iff.mp hstored
        obtain ⟨t, hrun, hrows, haccounts⟩ :=
          @run_openSession _ _ _ hpossible body _ stored (getUserByEmail_eq_some.mp hfind).1
        rw [hrun]
        exact .signedIn hop hfind hstored (of_decide_eq_true hne) hverify hrows haccounts
      · exact .refused _

/-- **A request** has one of the outcomes. -/
theorem outcome_serve (hpossible : Possible c s req) : Outcome req s ((serve c req).run s) := by
  unfold serve
  split
  · next body hop => exact outcome_signup hpossible hop
  · next body hop => exact outcome_login hpossible hop
  · next session hop =>
    unfold logout
    cases hsession : presented session with
    | none => exact .noCookie hop hsession
    | some token => exact .loggedOut hop hsession
  · next session hop =>
    unfold me
    rw [run_bind]
    cases hcurrent : (currentUser c req.now session).run s with
    | mk result s' =>
      obtain rfl : s = s' := congrArg Prod.snd hcurrent
      cases result with
      | error e => exact .refused e
      | ok user => exact .seen user.view hop
  · next session hop =>
    unfold logoutEverywhere
    rw [run_bind]
    cases hcurrent : (currentUser c req.now session).run s with
    | mk result s' =>
      obtain rfl : s = s' := congrArg Prod.snd hcurrent
      cases result with
      | error e => exact .refused e
      | ok user => exact .loggedOutEverywhere hop hcurrent

theorem outcome_step (hstep : step c s req = some t) :
    ∃ x, Possible c s req ∧ (serve c req).run s = (x, t) ∧ Outcome req s (x, t) := by
  unfold step at hstep
  split_ifs at hstep with hpossible
  obtain rfl := Option.some.inj hstep
  exact ⟨_, hpossible, rfl, outcome_serve hpossible⟩

end Outcome

/-! ### How long a session lives -/

/-- A session with the hash of its token, its user and its end, that is not revoked. -/
def Live (tokenHash userId : String) (expiresAt : Time) (s : Identity c) : Prop :=
  ∃ row ∈ s.sessions, row.tokenHash = tokenHash ∧ row.revokedAt = none ∧ row.userId = userId ∧
    row.expiresAt = expiresAt

/-- The request is answered with a cookie that has the hash, for a user. -/
def Issues (tokenHash userId : String) (expiresAt : Time) (s : Identity c) (req : Request) : Prop :=
  ∃ user cookie, ((serve c req).run s).1 = .ok (.user user (some cookie)) ∧
    c.hashToken cookie.token = tokenHash ∧ user.id = userId ∧ expiresAt = req.now + sessionTtl

/-- The request logs out with the token, or logs its user out everywhere. -/
def Revokes (tokenHash userId : String) (s : Identity c) (req : Request) : Prop :=
  ((serve c req).run s).1 = .ok .loggedOut ∧
    ((∃ session token, req.op = .logout session ∧ presented session = some token ∧
        c.hashToken token = tokenHash) ∨
      ∃ session user, req.op = .logoutEverywhere session ∧
        (currentUser c req.now session).run s = (.ok user, s) ∧ user.id = userId)

/-- Every session belongs to a user who is not deleted. -/
def Sound (s : Identity c) : Prop :=
  ∀ row ∈ s.sessions, ∃ u ∈ s.users, u.id = row.userId ∧ u.deletedAt = none

section Live
variable {req : Request} {s t : Identity c} {tokenHash userId : String} {expiresAt now : Time}

theorem live_append {row : SessionRow} (hrows : t.sessions = s.sessions ++ [row])
    (hlive : row.revokedAt = none) : Live tokenHash userId expiresAt t ↔
      (row.tokenHash = tokenHash ∧ row.userId = userId ∧ row.expiresAt = expiresAt) ∨
        Live tokenHash userId expiresAt s := by
  unfold Live
  rw [hrows]
  constructor
  · rintro ⟨r, hr, hhash, hnone, huser, hexpires⟩
    rw [List.mem_append, List.mem_singleton] at hr
    obtain hr | rfl := hr
    · exact .inr ⟨r, hr, hhash, hnone, huser, hexpires⟩
    · exact .inl ⟨hhash, huser, hexpires⟩
  · rintro (⟨hhash, huser, hexpires⟩ | ⟨r, hr, h⟩)
    · exact ⟨row, List.mem_append_right _ (List.mem_singleton_self row), hhash, hlive, huser,
        hexpires⟩
    · exact ⟨r, List.mem_append_left _ hr, h⟩

/-- After the rows that are live and chosen are revoked, the live ones that are not chosen are left.
-/
theorem live_mapSessions {p : SessionRow → Prop} [DecidablePred p] {revokedAt : Time}
    (hrows : t.sessions = s.sessions.map fun row =>
      if p row ∧ row.revokedAt = none then { row with revokedAt := some revokedAt } else row) :
    Live tokenHash userId expiresAt t ↔
      ∃ row ∈ s.sessions, row.tokenHash = tokenHash ∧ row.revokedAt = none ∧
        row.userId = userId ∧ row.expiresAt = expiresAt ∧ ¬p row := by
  unfold Live
  rw [hrows]
  constructor
  · rintro ⟨r, hr, hhash, hnone, huser, hexpires⟩
    obtain ⟨row, hrow, rfl⟩ := List.mem_map.mp hr
    split_ifs at hhash hnone huser hexpires with hp
    · exact ⟨row, hrow, hhash, hnone, huser, hexpires, fun h => hp ⟨h, hnone⟩⟩
  · rintro ⟨row, hrow, hhash, hnone, huser, hexpires, hp⟩
    exact ⟨row, List.mem_map.mpr ⟨row, hrow, if_neg fun h => hp h.1⟩, hhash, hnone, huser, hexpires⟩

theorem live_revokeSession {revoked : String} :
    Live tokenHash userId expiresAt (s.revokeSession revoked now) ↔
      Live tokenHash userId expiresAt s ∧ tokenHash ≠ revoked := by
  rw [live_mapSessions (s := s) (p := fun row => row.tokenHash = revoked) rfl]
  constructor
  · rintro ⟨row, hrow, rfl, hnone, huser, hexpires, hne⟩
    exact ⟨⟨row, hrow, rfl, hnone, huser, hexpires⟩, hne⟩
  · rintro ⟨⟨row, hrow, rfl, hnone, huser, hexpires⟩, hne⟩
    exact ⟨row, hrow, rfl, hnone, huser, hexpires, hne⟩

theorem live_revokeAllSessions {revoked : String} :
    Live tokenHash userId expiresAt (s.revokeAllSessions revoked now) ↔
      Live tokenHash userId expiresAt s ∧ userId ≠ revoked := by
  rw [live_mapSessions (s := s) (p := fun row => row.userId = revoked) rfl]
  constructor
  · rintro ⟨row, hrow, hhash, hnone, rfl, hexpires, hne⟩
    exact ⟨⟨row, hrow, hhash, hnone, rfl, hexpires⟩, hne⟩
  · rintro ⟨⟨row, hrow, hhash, hnone, rfl, hexpires⟩, hne⟩
    exact ⟨row, hrow, hhash, hnone, rfl, hexpires, hne⟩

/-- **One request** makes a session live or ends it exactly as its answer says. -/
theorem live_step (hstep : step c s req = some t) : Live tokenHash userId expiresAt t ↔
    Issues tokenHash userId expiresAt s req ∨
      Live tokenHash userId expiresAt s ∧ ¬Revokes tokenHash userId s req := by
  obtain ⟨x, -, hrun, houtcome⟩ := outcome_step hstep
  unfold Issues Revokes
  rw [hrun]
  cases houtcome with
  | refused e => simp
  | seen user hop => simp
  | @signedUp body t hop _ hsessions _ =>
    rw [live_append hsessions rfl]
    simp [newRow, newSession, newUser, User.view, sessionCookie, eq_comm]
  | @signedIn body user stored t hop _ _ _ _ hsessions _ =>
    rw [live_append hsessions rfl]
    simp [newRow, newSession, User.view, sessionCookie, eq_comm]
  | noCookie hop hnone => simp [hop, hnone]
  | @loggedOut session token hop hsome =>
    rw [live_revokeSession]
    simp [hop, hsome, eq_comm]
  | @loggedOutEverywhere session user hop huser =>
    rw [live_revokeAllSessions]
    simp [hop, huser, eq_comm]

theorem sound_iff : Sound s ↔ ∀ row ∈ s.sessions, ∃ a ∈ s.users.map User.account,
    a.1 = row.userId ∧ a.2.2.1 = none := by
  simp [Sound, User.account]

theorem sound_step (hsound : Sound s) (hstep : step c s req = some t) : Sound t := by
  obtain ⟨x, -, -, houtcome⟩ := outcome_step hstep
  have hrevoked : ∀ (t : Identity c) (f : SessionRow → SessionRow), t.users = s.users →
      t.sessions = s.sessions.map f → (∀ row, (f row).userId = row.userId) → Sound t := by
    intro t f husers hsessions hf row hrow
    rw [hsessions] at hrow
    obtain ⟨row₀, hrow₀, rfl⟩ := List.mem_map.mp hrow
    rw [hf row₀, husers]
    exact hsound row₀ hrow₀
  cases houtcome with
  | refused e => exact hsound
  | seen user hop => exact hsound
  | noCookie hop hnone => exact hsound
  | loggedOut hop hsome => exact hrevoked _ _ rfl rfl fun row => by split_ifs <;> rfl
  | loggedOutEverywhere hop huser => exact hrevoked _ _ rfl rfl fun row => by split_ifs <;> rfl
  | @signedUp body t hop _ hsessions haccounts =>
    rw [sound_iff] at hsound ⊢
    intro row hrow
    rw [haccounts]
    rw [hsessions, List.mem_append, List.mem_singleton] at hrow
    obtain hrow | rfl := hrow
    · obtain ⟨a, ha, h⟩ := hsound row hrow
      exact ⟨a, List.mem_append_left _ ha, h⟩
    · exact ⟨_, List.mem_append_right _ List.mem_cons_self, rfl, rfl⟩
  | @signedIn body user stored t hop hfind _ _ _ hsessions haccounts =>
    have hsame : ∀ u : User, (rehashed c req body user stored u).1 = u.id ∧
        (rehashed c req body user stored u).2.2.1 = u.deletedAt := by
      intro u
      unfold rehashed
      split_ifs <;> exact ⟨rfl, rfl⟩
    have hlive : user.deletedAt = none := (getUserByEmail_eq_some.mp hfind).2.2
    rw [sound_iff, haccounts]
    intro row hrow
    rw [hsessions, List.mem_append, List.mem_singleton] at hrow
    obtain hrow | rfl := hrow
    · obtain ⟨u, hu, hid, hnone⟩ := hsound row hrow
      exact ⟨_, List.mem_map_of_mem hu, (hsame u).1.trans hid, (hsame u).2.trans hnone⟩
    · exact ⟨_, List.mem_map_of_mem (List.mem_of_find?_eq_some hfind), (hsame user).1,
        (hsame user).2.trans hlive⟩

theorem resolveSession_iff (hsound : Sound s) :
    (∃ session user, s.resolveSession tokenHash now = some (session, user) ∧ user.id = userId) ↔
      ∃ expiresAt, now < expiresAt ∧ Live tokenHash userId expiresAt s := by
  constructor
  · rintro ⟨session, user, hresolve, rfl⟩
    obtain ⟨row, hrow, hfound⟩ := List.exists_of_findSome?_eq_some hresolve
    split_ifs at hfound with hlive
    obtain ⟨u, hu, heq⟩ := Option.map_eq_some_iff.mp hfound
    obtain ⟨-, rfl⟩ := Prod.mk.inj heq
    have huser : u.id = row.userId ∧ u.deletedAt = none := by simpa using List.find?_some hu
    exact ⟨row.expiresAt, hlive.2.2, row, hrow, hlive.1, hlive.2.1, huser.1.symm, rfl⟩
  · rintro ⟨_, hnow, row, hrow, rfl, hnone, rfl, rfl⟩
    have hsome : (s.resolveSession row.tokenHash now).isSome := by
      obtain ⟨u, hu, hid, hdeleted⟩ := hsound row hrow
      refine List.findSome?_isSome_iff.mpr ⟨row, hrow, ?_⟩
      rw [if_pos ⟨rfl, hnone, hnow⟩, Option.isSome_map, List.find?_isSome]
      exact ⟨u, hu, decide_eq_true ⟨hid, hdeleted⟩⟩
    obtain ⟨⟨session, user⟩, hresolve⟩ := Option.isSome_iff_exists.mp hsome
    refine ⟨session, user, hresolve, ?_⟩
    obtain ⟨row', hrow', hfound⟩ := List.exists_of_findSome?_eq_some hresolve
    split_ifs at hfound with hlive
    obtain ⟨u, hu, heq⟩ := Option.map_eq_some_iff.mp hfound
    obtain ⟨-, rfl⟩ := Prod.mk.inj heq
    obtain rfl := List.inj_on_of_nodup_map s.tokenHashes_nodup hrow' hrow hlive.1
    have huser : u.id = row'.userId ∧ u.deletedAt = none := by simpa using List.find?_some hu
    exact huser.1

theorem governed_live (c : Credentials) (tokenHash userId : String) (expiresAt : Time) :
    Governed (step c) Sound (Live tokenHash userId expiresAt) (Issues tokenHash userId expiresAt)
      (Revokes tokenHash userId) where
  keeps _ _ _ hsound hstep := sound_step hsound hstep
  step_iff _ _ _ _ hstep := live_step hstep

end Live

/-- **A token is resolved to a user exactly when** it was issued to the user, has not expired, and
since then neither it was logged out nor its user logged out everywhere. -/
theorem resolves_iff {s s' : Identity c} {requests : List Request} (hempty : s.sessions = [])
    (hrun : exec (step c) s requests = some s') (tokenHash userId : String) (now : Time) :
    (∃ session user, s'.resolveSession tokenHash now = some (session, user) ∧ user.id = userId) ↔
      ∃ expiresAt, now < expiresAt ∧
        LastSet (step c) (Issues tokenHash userId expiresAt) (Revokes tokenHash userId) s
          requests := by
  have hsound : Sound s := by
    intro row hrow
    rw [hempty] at hrow
    cases hrow
  have hnone : ∀ expiresAt, ¬Live tokenHash userId expiresAt s := by
    rintro expiresAt ⟨row, hrow, -⟩
    rw [hempty] at hrow
    cases hrow
  have hsound' : Sound s' := inv_of_exec (fun _ _ _ h hstep => sound_step h hstep) hsound hrun
  rw [resolveSession_iff hsound']
  refine exists_congr fun expiresAt => and_congr_right fun _ => ?_
  rw [(governed_live c tokenHash userId expiresAt).holds_iff_history hsound hrun,
    or_iff_right fun h => hnone expiresAt h.1]

theorem not_issues_of_known {s t : Identity c} {req : Request} {tokenHash : String}
    (hstep : step c s req = some t) (hmem : tokenHash ∈ s.sessions.map (·.tokenHash))
    (userId : String) (expiresAt : Time) :
    ¬Issues tokenHash userId expiresAt s req ∧ tokenHash ∈ t.sessions.map (·.tokenHash) := by
  obtain ⟨x, hpossible, hrun, houtcome⟩ := outcome_step hstep
  unfold Issues
  rw [hrun]
  have hnew : c.hashToken req.token ≠ tokenHash := fun heq => hpossible.1 (heq ▸ hmem)
  -- a session that is revoked keeps its hash
  have hrevoked : ∀ revoke : SessionRow → SessionRow,
      (∀ row, (revoke row).tokenHash = row.tokenHash) →
      tokenHash ∈ (s.sessions.map revoke).map (·.tokenHash) := by
    intro revoke hkeeps
    obtain ⟨row, hrow, rfl⟩ := List.mem_map.mp hmem
    exact List.mem_map.mpr ⟨revoke row, List.mem_map_of_mem hrow, hkeeps row⟩
  cases houtcome with
  | refused e => simpa using hmem
  | seen user hop => simpa using hmem
  | noCookie hop hnone => simpa using hmem
  | loggedOut hop hsome =>
    refine ⟨by simp, hrevoked _ fun row => ?_⟩
    split_ifs <;> rfl
  | loggedOutEverywhere hop huser =>
    refine ⟨by simp, hrevoked _ fun row => ?_⟩
    split_ifs <;> rfl
  | signedUp hop _ hsessions _ =>
    refine ⟨by simp [sessionCookie, hnew], ?_⟩
    rw [hsessions, List.map_append]
    exact List.mem_append_left _ hmem
  | signedIn hop _ _ _ _ hsessions _ =>
    refine ⟨by simp [sessionCookie, hnew], ?_⟩
    rw [hsessions, List.map_append]
    exact List.mem_append_left _ hmem

/-- **A session that was ended is not live again**: no new token has its hash, and its row keeps its
user. -/
theorem not_live_again {s t u : Identity c} {req : Request} {requests : List Request}
    {row : SessionRow} (hrow : row ∈ s.sessions) (hstep : step c s req = some t)
    (hrevokes : Revokes row.tokenHash row.userId s req) (hrun : exec (step c) t requests = some u)
    (userId : String) (expiresAt : Time) : ¬Live row.tokenHash userId expiresAt u := by
  have hknown : row.tokenHash ∈ s.sessions.map (·.tokenHash) := List.mem_map_of_mem hrow
  obtain ⟨hset, hknown'⟩ := not_issues_of_known hstep hknown userId expiresAt
  have hdead : ¬Live row.tokenHash userId expiresAt t := by
    intro hlive
    obtain hissues | ⟨⟨row', hrow', hhash, -, rfl, -⟩, hkept⟩ := (live_step hstep).mp hlive
    · exact hset hissues
    · obtain rfl := List.inj_on_of_nodup_map s.tokenHashes_nodup hrow' hrow hhash
      exact hkept hrevokes
  refine (inv_of_exec (I := fun v => row.tokenHash ∈ v.sessions.map (·.tokenHash) ∧
    ¬Live row.tokenHash userId expiresAt v) (fun v req w hI hstep => ?_) ⟨hknown', hdead⟩ hrun).2
  obtain ⟨hset, hmem⟩ := not_issues_of_known hstep hI.1 userId expiresAt
  exact ⟨hmem, fun hlive => ((live_step hstep).mp hlive).elim hset fun h => hI.2 h.1⟩

/-! ### Passwords -/

/-- Argon2: a hash is not empty, and verifies the password it was made from and no other. -/
structure Argon2 (c : Credentials) : Prop where
  ne_empty : ∀ salt password, c.hashPassword salt password ≠ ""
  verify_iff : ∀ salt password presented,
    c.verifyPassword presented (c.hashPassword salt password) = true ↔ presented = password

/-- Every stored hash is the hash of some password. -/
def Hashed (s : Identity c) : Prop :=
  ∀ u ∈ s.users, ∀ stored, u.passwordHash = some stored →
    ∃ salt password, stored = c.hashPassword salt password

/-- The password is the one of the account with the email. -/
def Accepts (email password : String) (s : Identity c) : Prop :=
  ∃ u ∈ s.users, c.sqlLower u.email = c.sqlLower (strip email) ∧ u.deletedAt = none ∧
    ∃ stored, u.passwordHash = some stored ∧ stored ≠ "" ∧ c.verifyPassword password stored = true

/-- The request makes the account with the email and the password. -/
def SignsUp (email password : String) (s : Identity c) (req : Request) : Prop :=
  ∃ body response, req.op = .signup body ∧ ((serve c req).run s).1 = .ok response ∧
    c.sqlLower (c.pyLower (strip body.email)) = c.sqlLower (strip email) ∧ body.password = password

section Passwords
variable {req : Request} {s t : Identity c} {email password : String}

theorem hashed_iff : Hashed s ↔ ∀ a ∈ s.users.map User.account, ∀ stored, a.2.2.2 = some stored →
    ∃ salt password, stored = c.hashPassword salt password := by
  simp [Hashed, User.account]

theorem accepts_iff : Accepts email password s ↔ ∃ a ∈ s.users.map User.account,
    c.sqlLower a.2.1 = c.sqlLower (strip email) ∧ a.2.2.1 = none ∧
      ∃ stored, a.2.2.2 = some stored ∧ stored ≠ "" ∧ c.verifyPassword password stored = true := by
  simp [Accepts, User.account]

theorem login_ok_iff (hpossible : Possible c s req) {body : LoginRequest}
    (hop : req.op = .login body) : (∃ response, ((serve c req).run s).1 = .ok response) ↔
      Accepts body.email body.password s := by
  have hserve : serve c req = login c req body := by rw [serve, hop]
  constructor
  · rintro ⟨response, hok⟩
    have houtcome := outcome_serve hpossible
    generalize (serve c req).run s = result at houtcome hok
    cases houtcome with
    | refused e => cases hok
    | signedIn hop' hfind hstored hne hverify _ _ =>
      obtain rfl := Op.login.inj (hop.symm.trans hop')
      obtain ⟨hmem, hemail, hlive⟩ := getUserByEmail_eq_some.mp hfind
      exact ⟨_, hmem, hemail, hlive, _, hstored, hne, hverify⟩
    | seen user hop' => exact absurd (hop.symm.trans hop') (by simp)
    | signedUp hop' => exact absurd (hop.symm.trans hop') (by simp)
    | noCookie hop' => exact absurd (hop.symm.trans hop') (by simp)
    | loggedOut hop' => exact absurd (hop.symm.trans hop') (by simp)
    | loggedOutEverywhere hop' => exact absurd (hop.symm.trans hop') (by simp)
  · rintro ⟨user, hmem, hemail, hlive, stored, hstored, hne, hverify⟩
    have hfind : s.getUserByEmail body.email = some user :=
      getUserByEmail_eq_some.mpr ⟨hmem, hemail, hlive⟩
    obtain ⟨t, hrun, -, -⟩ := @run_openSession _ _ _ hpossible body _ stored hmem
    rw [hserve]
    unfold login
    rw [run_bind, run_query, hfind]
    dsimp only
    rw [hstored, Option.filter_some, if_pos (decide_eq_true hne)]
    dsimp only
    rw [if_pos hverify, hrun]
    exact ⟨_, rfl⟩

theorem fields_rehashed {user : User} {stored : String} {body : LoginRequest} (u : User) :
    (rehashed c req body user stored u).2.1 = u.email ∧
      (rehashed c req body user stored u).2.2.1 = u.deletedAt := by
  unfold rehashed
  split_ifs <;> exact ⟨rfl, rfl⟩

theorem password_rehashed_iff {user : User} {stored : String} {body : LoginRequest} {u : User}
    (hargon : Argon2 c) (hhashed : Hashed s) (huser : user ∈ s.users)
    (hstored : user.passwordHash = some stored)
    (hverify : c.verifyPassword body.password stored = true) (hu : u ∈ s.users) :
    (∃ st, (rehashed c req body user stored u).2.2.2 = some st ∧ st ≠ "" ∧
        c.verifyPassword password st = true) ↔
      ∃ st, u.passwordHash = some st ∧ st ≠ "" ∧ c.verifyPassword password st = true := by
  obtain ⟨salt, original, horiginal⟩ := hhashed user huser stored hstored
  have hsame : body.password = original := (hargon.verify_iff _ _ _).mp (horiginal ▸ hverify)
  unfold rehashed
  split_ifs with hrehash
  · obtain rfl := List.inj_on_of_nodup_map s.userIds_nodup hu huser hrehash.2
    simp [hstored, horiginal, hargon.verify_iff, hargon.ne_empty, hsame]
  · exact Iff.rfl

/-- **One request** changes which password an account has only by making the account. -/
theorem accepts_step (hargon : Argon2 c) (hhashed : Hashed s) (hstep : step c s req = some t) :
    Hashed t ∧ (Accepts email password t ↔
      SignsUp email password s req ∨ Accepts email password s ∧ ¬False) := by
  obtain ⟨x, -, hrun, houtcome⟩ := outcome_step hstep
  rw [not_false_eq_true, and_true]
  unfold SignsUp
  rw [hrun]
  -- where the accounts stay and no account is made
  have hkept : ∀ (t : Identity c) (x : Except AuthError Response), t.users = s.users →
      (∀ body, req.op ≠ .signup body) → Hashed t ∧ (Accepts email password t ↔
        (∃ body response, req.op = .signup body ∧ x = .ok response ∧
          c.sqlLower (c.pyLower (strip body.email)) = c.sqlLower (strip email) ∧
          body.password = password) ∨ Accepts email password s) := by
    intro t x husers hop
    refine ⟨by unfold Hashed; rwa [husers], ?_⟩
    rw [or_iff_right fun ⟨body, _, h, _⟩ => hop body h]
    unfold Accepts
    rw [husers]
  cases houtcome with
  | refused e => exact ⟨hhashed, by simp⟩
  | seen user hop => exact hkept _ _ rfl fun body => by simp [hop]
  | noCookie hop hnone => exact hkept _ _ rfl fun body => by simp [hop]
  | loggedOut hop hsome => exact hkept _ _ rfl fun body => by simp [hop]
  | loggedOutEverywhere hop huser => exact hkept _ _ rfl fun body => by simp [hop]
  | @signedUp body t hop _ _ haccounts =>
    constructor
    · rw [hashed_iff] at hhashed ⊢
      intro a ha stored hstored
      rw [haccounts, List.mem_append, List.mem_singleton] at ha
      obtain ha | rfl := ha
      · exact hhashed a ha stored hstored
      · exact ⟨_, _, (Option.some.inj hstored).symm⟩
    · rw [accepts_iff, accepts_iff, haccounts]
      constructor
      · rintro ⟨a, ha, hemail, hlive, stored, hstored, hne, hverify⟩
        rw [List.mem_append, List.mem_singleton] at ha
        obtain ha | rfl := ha
        · exact .inr ⟨a, ha, hemail, hlive, stored, hstored, hne, hverify⟩
        · obtain rfl := Option.some.inj hstored
          exact .inl ⟨body, _, hop, rfl, hemail, ((hargon.verify_iff _ _ _).mp hverify).symm⟩
      · rintro (⟨body', response, hop', -, hemail, rfl⟩ | ⟨a, ha, h⟩)
        · obtain rfl := Op.signup.inj (hop.symm.trans hop')
          exact ⟨_, List.mem_append_right _ List.mem_cons_self, hemail, rfl, _, rfl,
            hargon.ne_empty _ _, (hargon.verify_iff _ _ _).mpr rfl⟩
        · exact ⟨a, List.mem_append_left _ ha, h⟩
  | @signedIn body user stored t hop hfind hstored hne hverify _ haccounts =>
    have huser := (getUserByEmail_eq_some.mp hfind).1
    constructor
    · rw [hashed_iff]
      intro a ha stored' hstored'
      rw [haccounts] at ha
      obtain ⟨u, hu, rfl⟩ := List.mem_map.mp ha
      unfold rehashed at hstored'
      split_ifs at hstored'
      · exact ⟨_, _, (Option.some.inj hstored').symm⟩
      · exact hhashed u hu stored' hstored'
    · rw [or_iff_right fun ⟨body', _, h, _⟩ => by simp [hop] at h, accepts_iff, accepts_iff,
        haccounts]
      constructor
      · rintro ⟨a, ha, hemail, hlive, hpassword⟩
        obtain ⟨u, hu, rfl⟩ := List.mem_map.mp ha
        rw [(fields_rehashed u).1] at hemail
        rw [(fields_rehashed u).2] at hlive
        refine ⟨_, List.mem_map_of_mem hu, hemail, hlive, ?_⟩
        exact (password_rehashed_iff hargon hhashed huser hstored hverify hu).mp hpassword
      · rintro ⟨a, ha, hemail, hlive, hpassword⟩
        obtain ⟨u, hu, rfl⟩ := List.mem_map.mp ha
        refine ⟨_, List.mem_map_of_mem hu, ?_, ?_,
          (password_rehashed_iff hargon hhashed huser hstored hverify hu).mpr hpassword⟩
        · rw [(fields_rehashed u).1]
          exact hemail
        · rw [(fields_rehashed u).2]
          exact hlive

/-- **The password of an account is the one it was made with**, through every login, logout and
rehash. -/
theorem signs_in_iff (hargon : Argon2 c) {s s' : Identity c} {requests : List Request}
    (hhashed : Hashed s) (hrun : exec (step c) s requests = some s') {req : Request}
    {body : LoginRequest} (hpossible : Possible c s' req) (hop : req.op = .login body) :
    (∃ response, ((serve c req).run s').1 = .ok response) ↔
      Accepts body.email body.password s ∨
        ∃ pre signup post t, requests = pre ++ signup :: post ∧
          exec (step c) s pre = some t ∧ SignsUp body.email body.password t signup := by
  have hgoverned : Governed (step c) Hashed (Accepts body.email body.password)
      (SignsUp body.email body.password) (fun _ _ => False) :=
    ⟨fun _ _ _ h hstep => (@accepts_step _ _ _ _ "" "" hargon h hstep).1,
      fun _ _ _ h hstep => (accepts_step hargon h hstep).2⟩
  rw [login_ok_iff hpossible hop, hgoverned.holds_iff_history hhashed hrun]
  have huntouched : ∀ (as : List Request) (t : Identity c),
      Untouched (step c) (fun _ _ => False) t as := fun as t =>
    (guarded_true as t).mono fun _ _ _ => not_false
  rw [and_iff_left (huntouched requests s)]
  refine or_congr_right ⟨?_, ?_⟩
  · rintro ⟨pre, a, post, t, -, heq, ht, -, hset, -⟩
    exact ⟨pre, a, post, t, heq, ht, hset⟩
  · rintro ⟨pre, a, post, t, rfl, ht, hset⟩
    rw [exec_append_of ht, exec_cons] at hrun
    obtain ⟨t', ht', -⟩ := Option.bind_eq_some_iff.mp hrun
    exact ⟨pre, a, post, t, t', rfl, ht, ht', hset, huntouched post t'⟩

end Passwords

/-! ### Ann signs up, logs in twice and logs out once -/

/-- A hash that says what it was made from, and wants to be made again. -/
def plainCredentials : Credentials where
  pyLower s := s
  sqlLower s := s
  hashToken token := "h:" ++ token
  hashPassword _ password := "$" ++ password
  verifyPassword presented stored := stored = "$" ++ presented
  needsRehash _ := true

theorem argon2_plainCredentials : Argon2 plainCredentials where
  ne_empty _ password := by simp [plainCredentials]
  verify_iff _ password presented := by
    simp only [plainCredentials, decide_eq_true_eq]
    constructor
    · intro h
      have hlist := congrArg String.toList h
      simp only [String.toList_append, List.append_cancel_left_eq] at hlist
      exact (String.toList_inj.mp hlist).symm
    · rintro rfl
      rfl

/-- Tables without rows. -/
def Identity.empty : Identity c where
  users := []
  sessions := []
  userIds_nodup := List.nodup_nil
  emails_nodup := List.nodup_nil
  sessionIds_nodup := List.nodup_nil
  tokenHashes_nodup := List.nodup_nil
  references _ h := nomatch h

theorem password_length_ann : 12 ≤ "correct horse".length ∧ "correct horse".length ≤ 1024 := by
  decide

/-- A request of Ann's browser. -/
def annRequest (op : Op) (now : Time) (token : String) : Request where
  op := op
  now := now
  userId := "usr_" ++ token
  sessionId := "ses_" ++ token
  token := token
  salt := token

/-- A signup, a login, and a logout from the first session. -/
def annRequests : List Request := [
  annRequest (.signup ⟨"ann@example.com", "correct horse", none, password_length_ann⟩) 0 "t1",
  annRequest (.login ⟨"ann@example.com", "correct horse", password_length_ann.2⟩) 5 "t2",
  annRequest (.logout (some "t1")) 6 "t3"]

/-- Of the session that was not logged out. -/
theorem resolves_iff_ann : ∃ s : Identity plainCredentials,
    exec (step plainCredentials) .empty annRequests = some s ∧
      ∃ expiresAt, 10 < expiresAt ∧ LastSet (step plainCredentials)
        (Issues "h:t2" "usr_t1" expiresAt) (Revokes "h:t2" "usr_t1") .empty annRequests := by
  have hrun : (exec (step plainCredentials) .empty annRequests).map (fun s =>
      (s.resolveSession "h:t2" 10).map (·.2.id)) = some (some "usr_t1") := by decide +kernel
  obtain ⟨s, hs, hresolve⟩ := Option.map_eq_some_iff.mp hrun
  obtain ⟨⟨session, user⟩, hresolve, hid⟩ := Option.map_eq_some_iff.mp hresolve
  exact ⟨s, hs, (resolves_iff rfl hs "h:t2" "usr_t1" 10).mp ⟨session, user, hresolve, hid⟩⟩

/-- Of the sessions that were logged out everywhere, after a login. -/
theorem not_live_again_ann : ∃ s t u : Identity plainCredentials,
    exec (step plainCredentials) .empty (annRequests.take 2) = some s ∧
      step plainCredentials s (annRequest (.logoutEverywhere (some "t2")) 6 "t3") = some t ∧
      exec (step plainCredentials) t [annRequest (.login
        ⟨"ann@example.com", "correct horse", password_length_ann.2⟩) 7 "t4"] = some u ∧
      ∀ userId expiresAt, ¬Live "h:t1" userId expiresAt u := by
  have hrun : (exec (step plainCredentials) .empty (annRequests.take 2)).map (fun s =>
      (s.sessions.map fun row => (row.tokenHash, row.userId),
        ((serve plainCredentials (annRequest (.logoutEverywhere (some "t2")) 6 "t3")).run s).1,
        ((currentUser plainCredentials 6 (some "t2")).run s).1.toOption.map (·.id),
        (exec (step plainCredentials) s [annRequest (.logoutEverywhere (some "t2")) 6 "t3",
          annRequest (.login ⟨"ann@example.com", "correct horse", password_length_ann.2⟩) 7
            "t4"]).isSome)) =
      some ([("h:t1", "usr_t1"), ("h:t2", "usr_t1")], .ok .loggedOut, some "usr_t1", true) := by
    decide +kernel
  obtain ⟨s, hs, hrest⟩ := Option.map_eq_some_iff.mp hrun
  simp only [Prod.mk.injEq] at hrest
  obtain ⟨hrows, hserved, hcurrent, hsome⟩ := hrest
  obtain ⟨u, hu⟩ := Option.isSome_iff_exists.mp hsome
  obtain ⟨t, ht, hu⟩ := exec_cons_eq_some.mp hu
  have hmem : ("h:t1", "usr_t1") ∈ s.sessions.map fun row => (row.tokenHash, row.userId) := by
    rw [hrows]
    exact List.mem_cons_self
  obtain ⟨row, hrow, heq⟩ := List.mem_map.mp hmem
  obtain ⟨hhash, huser⟩ := Prod.mk.inj heq
  have hann : ∃ user, (currentUser plainCredentials 6 (some "t2")).run s = (.ok user, s) ∧
      user.id = "usr_t1" := by
    cases hresult : (currentUser plainCredentials 6 (some "t2")).run s with
    | mk result s' =>
      obtain rfl : s = s' := congrArg Prod.snd hresult
      rw [hresult] at hcurrent
      cases result with
      | error e => cases hcurrent
      | ok user => exact ⟨user, rfl, Option.some.inj hcurrent⟩
  obtain ⟨user, hfound, hid⟩ := hann
  refine ⟨s, t, u, hs, ht, hu, hhash ▸ not_live_again hrow ht
    ⟨hserved, .inr ⟨some "t2", user, rfl, hfound, hid.trans huser.symm⟩⟩ hu⟩

theorem hashed_empty : Hashed (.empty : Identity c) := fun _ h => nomatch h

/-- Of the login after a rehash. -/
theorem signs_in_iff_ann : ∃ s : Identity plainCredentials,
    exec (step plainCredentials) .empty annRequests = some s ∧
      ∃ pre signup post t, annRequests = pre ++ signup :: post ∧
        exec (step plainCredentials) .empty pre = some t ∧
        SignsUp "ann@example.com" "correct horse" t signup := by
  have hrun : (exec (step plainCredentials) .empty annRequests).map (fun s =>
      (decide (Possible plainCredentials s (annRequest (.login
        ⟨"ann@example.com", "correct horse", password_length_ann.2⟩) 7 "t4")),
        ((serve plainCredentials (annRequest (.login
          ⟨"ann@example.com", "correct horse", password_length_ann.2⟩) 7 "t4")).run
            s).1.toOption.isSome)) = some (true, true) := by decide +kernel
  obtain ⟨s, hs, hlogin⟩ := Option.map_eq_some_iff.mp hrun
  rw [Prod.mk.injEq] at hlogin
  refine ⟨s, hs, ?_⟩
  have hiff := signs_in_iff argon2_plainCredentials hashed_empty hs
    (of_decide_eq_true hlogin.1) rfl
  have hok : ∃ response, ((serve plainCredentials (annRequest (.login
      ⟨"ann@example.com", "correct horse", password_length_ann.2⟩) 7 "t4")).run s).1 =
        .ok response := by
    have hsome := hlogin.2
    generalize ((serve plainCredentials _).run s).1 = result at hsome
    cases result with
    | error e => cases hsome
    | ok response => exact ⟨response, rfl⟩
  exact (hiff.mp hok).resolve_left fun ⟨_, h, _⟩ => nomatch h

end Selfevals.Api.Sessions
