import Selfevals.Api.Tokens
import Selfevals.Lib.Effects
import Selfevals.Lib.Run
import Selfevals.Schemas.Workspaces
import Selfevals.Storage.Tables
import Mathlib.Data.List.TakeWhile

/-!
# Workspaces, members and who may change them

A request goes through the middleware, which authorizes the caller for the workspace in the path,
and then to a handler. The handlers create workspaces, and list, invite, change and remove their
members; each reads and writes the store on its own, and what it has written when it raises stays.
-/

namespace Selfevals.Api.Members

open Lib.Effects Lib.Encodings Lib.PyStr Lib.Run Schemas.Base Schemas.Enums Schemas.Experiments
  Schemas.Workspaces Storage Storage.Entity Storage.Tables

/-! ### The store -/

/-- The workspaces; `workspaces_slug_unique`, `workspaces_self_tenant`. -/
structure WorkspaceTable extends Table Workspace where
  slugs_nodup : (rows.map (·.slug)).Nodup
  self_tenant : ∀ w ∈ rows, w.workspaceId = w.id

/-- The members; `members_user_role_unique`. -/
structure MemberTable extends Table Member where
  keys_nodup : (rows.map fun m => (m.workspaceId, m.userId, m.role)).Nodup

/-- A member is in a workspace that is there: `members.workspace_id REFERENCES workspaces (id)`. -/
structure Store where
  workspaces : WorkspaceTable
  members : MemberTable
  references : ∀ m ∈ members.rows, (workspaces.find? m.workspaceId).isSome

/-- What a handler raises. -/
inductive ApiError
  /-- `HTTPException`. -/
  | http (statusCode : ℕ) (detail : String)
  /-- `RequestValidationError`, of a body. -/
  | requestValidation
  /-- `ValidationError`, of a record. -/
  | invalid (record : String)
  /-- `UniqueViolation`, `ForeignKeyViolation`. -/
  | slugTaken (slug : String)
  | roleTaken (userId : String) (role : Role)
  | noWorkspace (workspaceId : String)
  | storage (e : StorageError)
  /-- What `verify_token` raised besides `TokenError`. -/
  | token (e : Tokens.Error)
deriving DecidableEq

/-- A handler over the tables. -/
abbrev Scope := Scoped Store ApiError

section Queries
variable (s : Store) (workspaceId : String)

/-- `list_entities` of the members of a workspace. -/
def membersOf : List Member := s.members.rows.filter fun m => m.workspaceId = workspaceId

/-- `workspace_member_roles`. -/
def workspaceMemberRoles (userId : String) : Option (List Role) :=
  if (s.workspaces.find? workspaceId).isNone then none
  else
    some (((membersOf s workspaceId).filter fun m => m.userId = userId ∧ m.deletedAt = none).map
      (·.role))

/-- `workspace_by_slug_owner`. -/
def workspaceBySlugOwner (slug userId : String) : Option Workspace :=
  s.workspaces.rows.find? fun w => w.slug = slug ∧ w.ownerId = some userId

/-- `get_entity` of a member. -/
def getMember (memberId : String) : Except StorageError Member :=
  match s.members.find? memberId with
  | some m =>
    if m.workspaceId = workspaceId then .ok m
    else .error (.workspaceMismatch workspaceId m.workspaceId)
  | none => .error (.entityNotFound memberId workspaceId)

end Queries

/-- `put_entity` of a workspace, in its own scope. -/
def Store.putWorkspace (s : Store) (w : Workspace) : Except ApiError Store :=
  match s.workspaces.toTable.put w.id w with
  | .error e => .error (.storage e)
  | .ok table =>
    if hslugs : (table.rows.map (·.slug)).Nodup then
      if hself : ∀ w ∈ table.rows, w.workspaceId = w.id then
        if hrefs : ∀ m ∈ s.members.rows, (table.find? m.workspaceId).isSome then
          .ok ⟨⟨table, hslugs, hself⟩, s.members, hrefs⟩
        else .error (.noWorkspace w.id)
      else .error (.invalid "Workspace")
    else .error (.slugTaken w.slug)

/-- `put_entity` of a member. -/
def Store.putMember (s : Store) (workspaceId : String) (m : Member) : Except ApiError Store :=
  match s.members.toTable.put workspaceId m with
  | .error e => .error (.storage e)
  | .ok table =>
    if hrefs : ∀ m ∈ table.rows, (s.workspaces.find? m.workspaceId).isSome then
      if hkeys : (table.rows.map fun m => (m.workspaceId, m.userId, m.role)).Nodup then
        .ok ⟨s.workspaces, ⟨table, hkeys⟩, hrefs⟩
      else .error (.roleTaken m.userId m.role)
    else .error (.noWorkspace workspaceId)

/-- `mapper.delete` of a member. -/
def Store.eraseMember (s : Store) (memberId : String) : Store where
  workspaces := s.workspaces
  members :=
    { s.members.toTable.erase memberId with
      keys_nodup := s.members.keys_nodup.sublist (List.filter_sublist.map _) }
  references m hm := s.references m (Table.mem_rows_erase.mp hm).1

/-- `delete_entity` of a member. -/
def Store.deleteMember (s : Store) (workspaceId memberId : String) : Except ApiError Store :=
  match getMember s workspaceId memberId with
  | .error e => .error (.storage e)
  | .ok _ => .ok (s.eraseMember memberId)

/-! ### Who calls -/

/-- `AuthMode`: how the caller of a request is known. -/
inductive AuthMode
  | «local» | header | token
deriving DecidableEq, Repr

/-- What the server is configured with, and the library functions it uses: `str.lower`, `repr`, the
HMAC and `request.url.path`, which is read out of an URL that is put together of the `Host` header
and the decoded path. -/
structure Server where
  authModeVar : Option String
  authSecret : Option String
  lower : String → String
  repr : String → String
  hmac : Bytes → Bytes → Digest
  urlPath : String → String → String

/-- Who a request is from. -/
structure Principal where
  userId : String
  authMode : AuthMode
deriving DecidableEq, Repr

/-- `LOCAL_USER_ID`. -/
def localUserId : String := "local"

/-- `READ_ROLES`, `MUTATION_ROLES`. -/
def readRoles : List Role := Coded.members
def mutationRoles : List Role := [.experimenter, .maintainer, .admin]

section Auth
variable (server : Server)

/-- `auth_mode`. -/
def authMode : Except ApiError AuthMode :=
  let mode := server.lower (strip (server.authModeVar.getD "local"))
  let mode := if mode = "" then "local" else mode
  if mode = "local" then .ok .local
  else if mode = "header" then .ok .header
  else if mode = "token" then .ok .token
  else
    .error (.http 500 ("invalid SELFEVALS_AUTH_MODE " ++ server.repr mode ++
      "; expected one of ['header', 'local', 'token']"))

def authenticationRequired : ApiError := .http 401 "authentication required"

/-- A header that is missing or empty. -/
def presented (user : Option String) : Option String := user.filter (· ≠ "")

/-- `resolve_principal`. -/
def resolvePrincipal (now : ℚ) (user : Option String) : Except ApiError Principal := do
  match ← authMode server with
  | .local => return ⟨(presented user).getD localUserId, .local⟩
  | .token =>
    match presented user with
    | none => throw authenticationRequired
    | some user =>
      match Tokens.verifyToken server.hmac server.authSecret now user with
      | .error (.token text) => throw (.http 401 text)
      | .error e => throw (.token e)
      | .ok verified => return ⟨verified.userId, .token⟩
  | .header =>
    match presented user with
    | some user => return ⟨user, .header⟩
    | none => throw authenticationRequired

/-- `authorize_workspace`. -/
def authorizeWorkspace (s : Store) (workspaceId : String) (now : ℚ) (user : Option String)
    (write : Bool) : Except ApiError Principal := do
  let principal ← resolvePrincipal server now user
  if principal.authMode = .local then return principal
  else
    let allowedRoles := if write then mutationRoles else readRoles
    match workspaceMemberRoles s workspaceId principal.userId with
    | none => throw (.http 404 "workspace not found")
    | some roles =>
      if roles.any (allowedRoles.contains ·) then return principal
      else throw (.http 403 "workspace access denied")

end Auth

/-! ### Requests -/

/-- HTTP methods. -/
inductive Method
  | get | head | options | post | put | patch | delete
deriving DecidableEq, Repr

/-- The body of an invitation. -/
structure InviteMemberRequest where
  userId : String
  role : Role := .viewer
  userId_length : 1 ≤ userId.length ∧ userId.length ≤ 255

/-- The body of a request for a workspace. -/
structure CreateWorkspaceRequest where
  slug : String
  name : Option String := none
  description : Option String := none
  slug_length : 1 ≤ slug.length ∧ slug.length ≤ 63

/-- What a request carries. -/
inductive Body
  | invite (body : InviteMemberRequest)
  | role (role : Role)
  | workspace (body : CreateWorkspaceRequest)
  | none

/-- What `make_id` and `utc_now` return to new records. -/
structure Minted where
  workspaceId : String
  memberId : String
  now : Time

/-- A request; its path is the decoded one, which the router matches. -/
structure Request where
  method : Method
  path : String
  host : String := "localhost"
  user : Option String
  body : Body
  /-- `time.time()`, by which a token is judged. -/
  clock : ℚ
  minted : Minted

/-- A member as it is answered. -/
structure MemberResponse where
  id : String
  userId : String
  role : Role
  invitedBy : Option String
  createdAt : Time
deriving DecidableEq, Repr

/-- What a request is answered with. -/
inductive Response
  | members (members : List MemberResponse)
  | member (member : MemberResponse)
  | workspace (id slug name : String) (description ownerId : Option String) (createdAt : Time)
  | noContent
deriving DecidableEq, Repr

/-- `_as_response`. -/
def asResponse (m : Member) : MemberResponse := ⟨m.id, m.userId, m.role, m.invitedBy, m.createdAt⟩

/-- The method is none of the safe ones. -/
def isWrite (method : Method) : Bool := !([.get, .head, .options] : List Method).contains method

/-- `[part for part in path.split("/") if part]`. -/
def pathParts (path : String) : List String := (splitOn '/' path).filter (· ≠ "")

/-- The handlers of workspaces and members. -/
inductive Endpoint
  | create
  | list (workspaceId : String)
  | invite (workspaceId : String)
  | update (workspaceId memberId : String)
  | remove (workspaceId memberId : String)
deriving DecidableEq, Repr

/-- The route of a request; a parameter of a path is not empty. -/
def route (method : Method) (path : String) : Option Endpoint :=
  match splitOn '/' path with
  | ["", "api", "workspaces"] => if method = .post then some .create else none
  | ["", "api", "workspaces", workspaceId, "members"] =>
    if workspaceId = "" then none
    else if method = .get then some (.list workspaceId)
    else if method = .post then some (.invite workspaceId)
    else none
  | ["", "api", "workspaces", workspaceId, "members", memberId] =>
    if workspaceId = "" ∨ memberId = "" then none
    else if method = .patch then some (.update workspaceId memberId)
    else if method = .delete then some (.remove workspaceId memberId)
    else none
  | _ => none

/-! ### Handlers -/

section Handlers
variable (server : Server)

/-- `resolve_user_id`. -/
def resolveUserId (now : ℚ) (user : Option String) : Except ApiError String :=
  (resolvePrincipal server now user).map (·.userId)

/-- `_require_admin`. -/
def requireAdmin (workspaceId userId : String) (s : Store) : Except ApiError Unit := do
  if (← authMode server) = .local then return ()
  else
    match workspaceMemberRoles s workspaceId userId with
    | some roles =>
      if Role.admin ∈ roles then return ()
      else throw (.http 403 "only workspace admins can manage members")
    | none => throw (.http 403 "only workspace admins can manage members")

/-- `_refuse_if_last_admin`. -/
def refuseIfLastAdmin (workspaceId : String) (member : Member) (s : Store) :
    Except ApiError Unit :=
  if (membersOf s workspaceId).any fun m => m.role = .admin ∧ m.id ≠ member.id then .ok ()
  else .error (.http 409 "cannot remove the last admin; promote another member first")

/-- `get_entity` in a handler. -/
def loadMember (workspaceId memberId : String) (s : Store) : Except ApiError Member :=
  match getMember s workspaceId memberId with
  | .ok m => .ok m
  | .error (.entityNotFound _ _) => .error (.http 404 "member not found")
  | .error e => .error (.storage e)

/-- `storage.seed.seed_workspace`, with one role to assign. -/
def seedWorkspace (minted : Minted) (slug name : String) (userId : String)
    (description : Option String) : Scope Workspace := do
  match ← query fun s => workspaceBySlugOwner s slug userId with
  | some existing => return existing
  | none =>
    let workspace : Workspace :=
      { id := minted.workspaceId, workspaceId := minted.workspaceId, createdAt := minted.now,
        updatedAt := minted.now, slug, name, description, ownerId := some userId }
    let member : Member :=
      { id := minted.memberId, workspaceId := minted.workspaceId, createdAt := minted.now,
        updatedAt := minted.now, userId, role := .admin }
    if workspace.Valid then
      if member.Valid then
        tryWrite fun s => s.putWorkspace workspace
        tryWrite fun s => s.putMember minted.workspaceId member
        return workspace
      else raise (.invalid "Member")
    else raise (.invalid "Workspace")

/-- `workspaces_create`; who creates a workspace is its first admin. -/
def workspacesCreate (now : ℚ) (minted : Minted) (user : Option String)
    (body : CreateWorkspaceRequest) : Scope Response := do
  let caller ← tryQuery fun _ => resolveUserId server now user
  let name := ((body.name).filter (· ≠ "")).getD body.slug
  let ws ← seedWorkspace minted body.slug name caller body.description
  return .workspace ws.id ws.slug ws.name ws.description ws.ownerId ws.createdAt

/-- `members.sort(key=lambda m: (m.user_id, m.role.value))`. -/
def memberLe (a b : Member) : Bool :=
  decide (a.userId < b.userId ∨
    a.userId = b.userId ∧ Coded.value a.role ≤ Coded.value b.role)

/-- `list_members`. -/
def listMembers (workspaceId : String) : Scope Response := do
  let members ← query fun s => membersOf s workspaceId
  return .members ((members.mergeSort memberLe).map asResponse)

/-- `invite_member`. -/
def inviteMember (now : ℚ) (minted : Minted) (user : Option String) (workspaceId : String)
    (body : InviteMemberRequest) : Scope Response := do
  let caller ← tryQuery fun _ => resolveUserId server now user
  tryQuery (requireAdmin server workspaceId caller)
  match ← query fun s => workspaceMemberRoles s workspaceId body.userId with
  | none => raise (.http 404 "workspace not found")
  | some existing =>
    if body.role ∈ existing then
      raise (.http 409 (body.userId ++ " already has role " ++ Coded.value body.role))
    else
      let member : Member :=
        { id := minted.memberId, workspaceId, createdAt := minted.now, updatedAt := minted.now,
          userId := body.userId, role := body.role, invitedBy := some caller }
      if member.Valid then
        tryWrite fun s => s.putMember workspaceId member
        return .member (asResponse member)
      else raise (.invalid "Member")

/-- `update_member_role`; the last admin stays one. -/
def updateMemberRole (now : ℚ) (user : Option String) (workspaceId memberId : String)
    (role : Role) : Scope Response := do
  let caller ← tryQuery fun _ => resolveUserId server now user
  tryQuery (requireAdmin server workspaceId caller)
  let member ← tryQuery (loadMember workspaceId memberId)
  tryQuery fun s =>
    if member.role = .admin ∧ role ≠ .admin then refuseIfLastAdmin workspaceId member s else .ok ()
  let member := { member with role }
  tryWrite fun s => s.putMember workspaceId member
  return .member (asResponse member)

/-- `remove_member`; the last admin stays. -/
def removeMember (now : ℚ) (user : Option String) (workspaceId memberId : String) :
    Scope Response := do
  let caller ← tryQuery fun _ => resolveUserId server now user
  tryQuery (requireAdmin server workspaceId caller)
  let member ← tryQuery (loadMember workspaceId memberId)
  tryQuery fun s =>
    if member.role = .admin then refuseIfLastAdmin workspaceId member s else .ok ()
  tryWrite fun s => s.deleteMember workspaceId memberId
  return .noContent

/-- `_authorize_workspace_routes`, up to the call of the handler. -/
def authorizeWorkspaceRoutes (req : Request) : Scope Unit :=
  match pathParts (server.urlPath req.host req.path) with
  | "api" :: "workspaces" :: workspaceId :: _ =>
    tryQuery fun s => do
      let _ ← authorizeWorkspace server s workspaceId req.clock req.user (isWrite req.method)
      return ()
  | _ => pure ()

/-- The handler of an endpoint, once the body is parsed. -/
def Endpoint.handle (req : Request) : Endpoint → Scope Response
  | .create =>
    match req.body with
    | .workspace body => workspacesCreate server req.clock req.minted req.user body
    | _ => raise .requestValidation
  | .list workspaceId => listMembers workspaceId
  | .invite workspaceId =>
    match req.body with
    | .invite body => inviteMember server req.clock req.minted req.user workspaceId body
    | _ => raise .requestValidation
  | .update workspaceId memberId =>
    match req.body with
    | .role role => updateMemberRole server req.clock req.user workspaceId memberId role
    | _ => raise .requestValidation
  | .remove workspaceId memberId => removeMember server req.clock req.user workspaceId memberId

/-- A request, from the middleware on. -/
def serve (req : Request) : Scope Response := do
  authorizeWorkspaceRoutes server req
  match route req.method req.path with
  | some endpoint => endpoint.handle server req
  | none => raise (.http 404 "Not Found")

/-- The environment's part: an id that is made is new. -/
def Possible (s : Store) (req : Request) : Prop :=
  s.workspaces.find? req.minted.workspaceId = none ∧ s.members.find? req.minted.memberId = none
deriving Decidable

/-- One request. -/
def step (s : Store) (req : Request) : Option Store :=
  if Possible s req then some ((serve server req).run s).2 else none

end Handlers

/-! ### What a write does to the rows -/

section Writes
variable {s t : Store} {workspaceId : String} {m old : Member} {w : Workspace}

theorem getMember_eq_ok {memberId : String} :
    getMember s workspaceId memberId = .ok m ↔
      s.members.find? memberId = some m ∧ m.workspaceId = workspaceId := by
  unfold getMember
  cases hfind : s.members.find? memberId with
  | none => simp
  | some row =>
    dsimp only
    split_ifs with hws
    · simp only [Except.ok.injEq, Option.some.injEq]
      exact ⟨fun h => ⟨h, h ▸ hws⟩, And.left⟩
    · refine iff_of_false (by simp) ?_
      rintro ⟨h, hm⟩
      exact hws (Option.some.inj h ▸ hm)

theorem putMember_eq_ok (h : s.putMember workspaceId m = .ok t) :
    t.workspaces = s.workspaces ∧ s.members.toTable.put workspaceId m = .ok t.members.toTable := by
  unfold Store.putMember at h
  cases hput : s.members.toTable.put workspaceId m with
  | error e => rw [hput] at h; cases h
  | ok table =>
    rw [hput] at h
    dsimp only at h
    split_ifs at h
    obtain rfl := Except.ok.inj h
    exact ⟨rfl, rfl⟩

theorem putWorkspace_eq_ok (h : s.putWorkspace w = .ok t) :
    t.members = s.members ∧ s.workspaces.toTable.put w.id w = .ok t.workspaces.toTable := by
  unfold Store.putWorkspace at h
  cases hput : s.workspaces.toTable.put w.id w with
  | error e => rw [hput] at h; cases h
  | ok table =>
    rw [hput] at h
    dsimp only at h
    split_ifs at h
    obtain rfl := Except.ok.inj h
    exact ⟨rfl, rfl⟩

theorem rows_putMember_new (hnew : s.members.find? m.id = none)
    (h : s.putMember workspaceId m = .ok t) :
    t.members.rows = s.members.rows ++ [m] ∧ m.workspaceId = workspaceId := by
  have hput := (putMember_eq_ok h).2
  have hws : m.workspaceId = workspaceId := checkPut_workspaceId (Table.put_eq_ok hput).1
  obtain ⟨table, hput', hrows⟩ := Table.put_of_new hnew hws
  rw [hput'] at hput
  exact ⟨Except.ok.inj hput ▸ hrows, hws⟩

theorem rows_putWorkspace_new (hnew : s.workspaces.find? w.id = none)
    (h : s.putWorkspace w = .ok t) : t.workspaces.rows = s.workspaces.rows ++ [w] := by
  have hput := (putWorkspace_eq_ok h).2
  have hws : w.workspaceId = w.id := checkPut_workspaceId (Table.put_eq_ok hput).1
  obtain ⟨table, hput', hrows⟩ := Table.put_of_new hnew hws
  rw [hput'] at hput
  exact Except.ok.inj hput ▸ hrows

theorem rows_putMember_over {memberId : String} {role : Role}
    (hget : getMember s workspaceId memberId = .ok old)
    (h : s.putMember workspaceId { old with role } = .ok t) :
    t.members.rows =
      s.members.rows.map fun r => if r.id = old.id then { old with role } else r := by
  obtain ⟨hfind, hws⟩ := getMember_eq_ok.mp hget
  have hput := (putMember_eq_ok h).2
  obtain ⟨table, hput', hrows⟩ := @Table.put_over _ _ _ _ _ { old with role }
    (Table.find?_eq_some.mp hfind).1 rfl hws rfl
  rw [hput'] at hput
  exact Except.ok.inj hput ▸ hrows

theorem putMember_of_new_workspace (hws : s.workspaces.find? w.id = none)
    (hw : s.putWorkspace w = .ok t) (hnew : s.members.find? m.id = none)
    (hm : m.workspaceId = w.id) (e : ApiError) : t.putMember w.id m ≠ .error e := by
  obtain ⟨hmembers, hput⟩ := putWorkspace_eq_ok hw
  rw [← hmembers] at hnew
  obtain ⟨table, htable, hrows⟩ := Table.put_of_new hnew hm
  have hfound : (t.workspaces.find? w.id).isSome := by
    rw [(Table.put_eq_ok hput).2]
    exact (if_pos rfl).symm ▸ rfl
  have hrefs : ∀ r ∈ table.rows, (t.workspaces.find? r.workspaceId).isSome := by
    intro r hr
    rw [hrows, List.mem_append, List.mem_singleton] at hr
    obtain hr | rfl := hr
    · exact t.references r hr
    · rwa [hm]
  have hkeys : (table.rows.map fun r => (r.workspaceId, r.userId, r.role)).Nodup := by
    rw [hrows, List.map_append, List.map_singleton, ← List.concat_eq_append]
    refine t.members.keys_nodup.concat fun hmem => ?_
    obtain ⟨r, hr, hkey⟩ := List.mem_map.mp hmem
    have hsome := s.references r (hmembers ▸ hr)
    rw [show r.workspaceId = w.id from (congrArg Prod.fst hkey).trans hm, hws] at hsome
    cases hsome
  unfold Store.putMember
  rw [htable]
  dsimp only
  rw [dif_pos hrefs, dif_pos hkeys]
  simp

end Writes

/-! ### What a request does -/

/-- The user holds the role of an admin in a workspace. -/
def IsAdmin (s : Store) (workspaceId userId : String) : Prop :=
  ∃ m ∈ s.members.rows,
    m.workspaceId = workspaceId ∧ m.userId = userId ∧ m.role = .admin ∧ m.deletedAt = none
deriving Decidable

/-- The caller of a request may manage the members of a workspace. -/
def Manages (server : Server) (s : Store) (req : Request) (workspaceId : String) : Prop :=
  authMode server = .ok .local ∨
    ∃ p, resolvePrincipal server req.clock req.user = .ok p ∧ IsAdmin s workspaceId p.userId

/-- An admin's row besides that of a member. -/
def AnotherAdmin (s : Store) (workspaceId : String) (member : Member) : Prop :=
  ∃ m ∈ s.members.rows, m.workspaceId = workspaceId ∧ m.role = .admin ∧ m.id ≠ member.id

/-- What a request does to the store. -/
inductive Touches (server : Server) (req : Request) (s : Store) : Store → Prop
  | same : Touches server req s s
  | created {w : Workspace} {m : Member} {t u : Store} (hw : w.id = req.minted.workspaceId)
      (hid : m.id = req.minted.memberId) (hm : m.role = .admin ∧ m.deletedAt = none)
      (hput : s.putWorkspace w = .ok t) (hmember : t.putMember w.id m = .ok u) :
      Touches server req s u
  | invited {workspaceId : String} {m : Member} {t : Store} (h : Manages server s req workspaceId)
      (hid : m.id = req.minted.memberId) (hm : m.deletedAt = none)
      (hput : s.putMember workspaceId m = .ok t) : Touches server req s t
  | changed {workspaceId : String} {old : Member} {role : Role} {t : Store}
      (h : Manages server s req workspaceId) (hget : getMember s workspaceId old.id = .ok old)
      (hkept : old.role = .admin → role ≠ .admin → AnotherAdmin s workspaceId old)
      (hput : s.putMember workspaceId { old with role } = .ok t) : Touches server req s t
  | removed {workspaceId : String} {old : Member} (h : Manages server s req workspaceId)
      (hget : getMember s workspaceId old.id = .ok old)
      (hkept : old.role = .admin → AnotherAdmin s workspaceId old) :
      Touches server req s (s.eraseMember old.id)

section Touches
variable {server : Server} {req : Request} {s t : Store} {workspaceId memberId : String}

theorem mem_membersOf {m : Member} :
    m ∈ membersOf s workspaceId ↔ m ∈ s.members.rows ∧ m.workspaceId = workspaceId := by
  simp [membersOf]

theorem admin_mem_roles {userId : String} {roles : List Role}
    (h : workspaceMemberRoles s workspaceId userId = some roles) (hadmin : Role.admin ∈ roles) :
    IsAdmin s workspaceId userId := by
  unfold workspaceMemberRoles at h
  split_ifs at h
  obtain rfl := Option.some.inj h
  obtain ⟨m, hm, hrole⟩ := List.mem_map.mp hadmin
  rw [List.mem_filter, mem_membersOf, decide_eq_true_iff] at hm
  exact ⟨m, hm.1.1, hm.1.2, hm.2.1, hrole, hm.2.2⟩

theorem manages_of_requireAdmin {caller : String}
    (hcaller : resolveUserId server req.clock req.user = .ok caller)
    (h : requireAdmin server workspaceId caller s = .ok ()) : Manages server s req workspaceId := by
  unfold resolveUserId at hcaller
  cases hp : resolvePrincipal server req.clock req.user with
  | error e => rw [hp] at hcaller; cases hcaller
  | ok p =>
    rw [hp] at hcaller
    obtain rfl := Except.ok.inj hcaller
    unfold requireAdmin at h
    cases hmode : authMode server with
    | error e => rw [hmode] at h; cases h
    | ok mode =>
      rw [hmode] at h
      by_cases hlocal : mode = .local
      · exact .inl (hlocal ▸ hmode)
      refine .inr ⟨p, hp, ?_⟩
      simp only [bind, Except.bind, if_neg hlocal] at h
      cases hroles : workspaceMemberRoles s workspaceId p.userId with
      | none => rw [hroles] at h; cases h
      | some roles =>
        rw [hroles] at h
        dsimp only at h
        split_ifs at h with hadmin
        exact admin_mem_roles hroles hadmin

theorem anotherAdmin_of_refuse {member : Member}
    (h : refuseIfLastAdmin workspaceId member s = .ok ()) : AnotherAdmin s workspaceId member := by
  unfold refuseIfLastAdmin at h
  split_ifs at h with hany
  obtain ⟨m, hm, hrole⟩ := List.any_eq_true.mp hany
  rw [decide_eq_true_iff] at hrole
  exact ⟨m, (mem_membersOf.mp hm).1, (mem_membersOf.mp hm).2, hrole⟩

theorem getMember_of_load {m : Member} (h : loadMember workspaceId memberId s = .ok m) :
    getMember s workspaceId m.id = .ok m := by
  unfold loadMember at h
  split at h
  · next m' hget =>
    obtain rfl := Except.ok.inj h
    have hid : m'.id = memberId := (Table.find?_eq_some.mp (getMember_eq_ok.mp hget).1).2
    rwa [hid]
  · cases h
  · cases h

theorem touches_workspacesCreate (hpossible : Possible s req) (body : CreateWorkspaceRequest) :
    Touches server req s
      ((workspacesCreate server req.clock req.minted req.user body).run s).2 := by
  unfold workspacesCreate seedWorkspace
  refine of_tryQuery_bind .same fun caller _ => ?_
  rw [run_bind_pure, run_bind, run_query]
  dsimp only
  cases workspaceBySlugOwner s body.slug caller with
  | some existing => exact .same
  | none =>
    dsimp only
    split_ifs with hworkspace hmember
    · refine of_tryWrite_bind (fun _ _ => .same) fun t hput => ?_
      refine of_tryWrite_bind (fun e hmember => ?_) fun u hmember => ?_
      · exact absurd hmember (putMember_of_new_workspace hpossible.1 hput hpossible.2 rfl e)
      · exact .created rfl rfl ⟨rfl, rfl⟩ hput hmember
    · exact .same
    · exact .same

theorem touches_inviteMember (body : InviteMemberRequest) :
    Touches server req s
      ((inviteMember server req.clock req.minted req.user workspaceId body).run s).2 := by
  unfold inviteMember
  refine of_tryQuery_bind .same fun caller hcaller => ?_
  refine of_tryQuery_bind .same fun _ hadmin => ?_
  have hmanages := manages_of_requireAdmin hcaller hadmin
  rw [run_bind, run_query]
  dsimp only
  cases workspaceMemberRoles s workspaceId body.userId with
  | none => exact .same
  | some existing =>
    dsimp only
    split_ifs
    · exact .same
    · exact of_tryWrite_bind (fun _ _ => .same) fun t hput => .invited hmanages rfl rfl hput
    · exact .same

theorem touches_updateMemberRole (role : Role) :
    Touches server req s
      ((updateMemberRole server req.clock req.user workspaceId memberId role).run s).2 := by
  unfold updateMemberRole
  refine of_tryQuery_bind .same fun caller hcaller => ?_
  refine of_tryQuery_bind .same fun _ hadmin => ?_
  refine of_tryQuery_bind .same fun old hload => ?_
  refine of_tryQuery_bind .same fun _ hrefuse => ?_
  refine of_tryWrite_bind (fun _ _ => .same) fun t hput => ?_
  refine .changed (manages_of_requireAdmin hcaller hadmin) (getMember_of_load hload) ?_ hput
  intro hold hrole
  rw [if_pos ⟨hold, hrole⟩] at hrefuse
  exact anotherAdmin_of_refuse hrefuse

theorem touches_removeMember :
    Touches server req s
      ((removeMember server req.clock req.user workspaceId memberId).run s).2 := by
  unfold removeMember
  refine of_tryQuery_bind .same fun caller hcaller => ?_
  refine of_tryQuery_bind .same fun _ hadmin => ?_
  refine of_tryQuery_bind .same fun old hload => ?_
  refine of_tryQuery_bind .same fun _ hrefuse => ?_
  refine of_tryWrite_bind (fun _ _ => .same) fun t hdelete => ?_
  unfold Store.deleteMember at hdelete
  split at hdelete
  · cases hdelete
  · next m hget =>
    obtain rfl := Except.ok.inj hdelete
    have hid : old.id = memberId := by
      unfold loadMember at hload
      rw [hget] at hload
      obtain rfl := Except.ok.inj hload
      exact (Table.find?_eq_some.mp (getMember_eq_ok.mp hget).1).2
    rw [← hid]
    refine .removed (manages_of_requireAdmin hcaller hadmin) (getMember_of_load hload) fun hold =>
      ?_
    rw [if_pos hold] at hrefuse
    exact anotherAdmin_of_refuse hrefuse

/-- **All that a request does to the store.** -/
theorem touches_serve (hpossible : Possible s req) :
    Touches server req s ((serve server req).run s).2 := by
  have hhandle : Touches server req s ((match route req.method req.path with
      | some endpoint => endpoint.handle server req
      | none => raise (.http 404 "Not Found") : Scope Response).run s).2 := by
    cases route req.method req.path with
    | none => exact .same
    | some endpoint =>
      cases endpoint with
      | list workspaceId => exact .same
      | remove workspaceId memberId => exact touches_removeMember
      | create =>
        unfold Endpoint.handle
        cases req.body with
        | workspace body => exact touches_workspacesCreate hpossible body
        | _ => exact .same
      | invite workspaceId =>
        unfold Endpoint.handle
        cases req.body with
        | invite body => exact touches_inviteMember body
        | _ => exact .same
      | update workspaceId memberId =>
        unfold Endpoint.handle
        cases req.body with
        | role role => exact touches_updateMemberRole role
        | _ => exact .same
  unfold serve authorizeWorkspaceRoutes
  split
  · exact of_tryQuery_bind .same fun _ _ => hhandle
  · exact hhandle

end Touches

/-! ### Every workspace has an admin -/

/-- No member is marked as deleted, and every workspace has an admin. -/
structure Administered (s : Store) : Prop where
  live : ∀ m ∈ s.members.rows, m.deletedAt = none
  admin : ∀ w ∈ s.workspaces.rows, ∃ userId, IsAdmin s w.id userId

def Store.empty : Store where
  workspaces := ⟨.empty, List.nodup_nil, fun _ h => nomatch h⟩
  members := ⟨.empty, List.nodup_nil⟩
  references _ h := nomatch h

theorem administered_empty : Administered .empty :=
  ⟨fun _ h => (List.not_mem_nil h).elim, fun _ h => (List.not_mem_nil h).elim⟩

section Administered
variable {server : Server} {req : Request} {s t : Store} {workspaceId : String}

theorem mem_replaced {rows : List Member} {r new : Member} {id : String} (hr : r ∈ rows)
    (hne : r.id ≠ id) : r ∈ rows.map fun r => if r.id = id then new else r :=
  List.mem_map.mpr ⟨r, hr, if_neg hne⟩

theorem administered_touches (hpossible : Possible s req) (h : Administered s)
    (htouches : Touches server req s t) : Administered t := by
  cases htouches with
  | same => exact h
  | @created w m u _ hw hid hm hput hmember =>
    have hworkspaces := rows_putWorkspace_new (hw ▸ hpossible.1) hput
    have hmembers := (putWorkspace_eq_ok hput).1
    obtain ⟨hrows, hws⟩ := rows_putMember_new (by rw [hmembers, hid]; exact hpossible.2) hmember
    rw [hmembers] at hrows
    constructor
    · intro r hr
      rw [hrows, List.mem_append, List.mem_singleton] at hr
      obtain hr | rfl := hr
      · exact h.live r hr
      · exact hm.2
    · intro w' hw'
      rw [(putMember_eq_ok hmember).1, hworkspaces, List.mem_append, List.mem_singleton] at hw'
      obtain hw' | rfl := hw'
      · obtain ⟨userId, r, hr, hadmin⟩ := h.admin w' hw'
        exact ⟨userId, r, hrows ▸ List.mem_append_left _ hr, hadmin⟩
      · exact ⟨m.userId, m, hrows ▸ List.mem_append_right _ (List.mem_singleton_self m), hws, rfl,
          hm⟩
  | @invited workspaceId m _ _ hid hm hput =>
    obtain ⟨hrows, -⟩ := rows_putMember_new (by rw [hid]; exact hpossible.2) hput
    constructor
    · intro r hr
      rw [hrows, List.mem_append, List.mem_singleton] at hr
      obtain hr | rfl := hr
      · exact h.live r hr
      · exact hm
    · intro w hw
      rw [(putMember_eq_ok hput).1] at hw
      obtain ⟨userId, r, hr, hadmin⟩ := h.admin w hw
      exact ⟨userId, r, hrows ▸ List.mem_append_left _ hr, hadmin⟩
  | @changed workspaceId old role _ _ hget hkept hput =>
    have hrows := rows_putMember_over hget hput
    obtain ⟨hfind, hws⟩ := getMember_eq_ok.mp hget
    have hold : old ∈ s.members.rows := Table.mem_rows_iff.mpr hfind
    have hnew : { old with role } ∈ t.members.rows := by
      rw [hrows]
      exact List.mem_map.mpr ⟨old, hold, if_pos rfl⟩
    constructor
    · intro r hr
      rw [hrows] at hr
      obtain ⟨r₀, hr₀, rfl⟩ := List.mem_map.mp hr
      split_ifs
      · exact h.live old hold
      · exact h.live r₀ hr₀
    · intro w hw
      rw [(putMember_eq_ok hput).1] at hw
      obtain ⟨userId, r, hr, hwr, huser, hrole, hlive⟩ := h.admin w hw
      by_cases hid : r.id = old.id
      · -- the admin is the member whose role is set
        obtain rfl : r = old := List.inj_on_of_nodup_map s.members.ids_nodup hr hold hid
        by_cases hadmin : role = .admin
        · exact ⟨_, _, hnew, hwr, rfl, hadmin, hlive⟩
        · obtain ⟨r', hr', hwr', hrole', hne⟩ := hkept hrole hadmin
          exact ⟨_, r', hrows ▸ mem_replaced hr' hne, hwr'.trans (hws.symm.trans hwr), rfl, hrole',
            h.live r' hr'⟩
      · exact ⟨_, r, hrows ▸ mem_replaced hr hid, hwr, huser, hrole, hlive⟩
  | @removed workspaceId old _ hget hkept =>
    obtain ⟨hfind, hws⟩ := getMember_eq_ok.mp hget
    have hold : old ∈ s.members.rows := Table.mem_rows_iff.mpr hfind
    have hrows : ∀ r, r ∈ (s.eraseMember old.id).members.rows ↔
        r ∈ s.members.rows ∧ r.id ≠ old.id := fun r => Table.mem_rows_erase
    constructor
    · intro r hr
      exact h.live r ((hrows r).mp hr).1
    · intro w hw
      obtain ⟨userId, r, hr, hwr, huser, hrole, hlive⟩ := h.admin w hw
      by_cases hid : r.id = old.id
      · obtain rfl : r = old := List.inj_on_of_nodup_map s.members.ids_nodup hr hold hid
        obtain ⟨r', hr', hwr', hrole', hne⟩ := hkept hrole
        exact ⟨_, r', (hrows r').mpr ⟨hr', hne⟩, hwr'.trans (hws.symm.trans hwr), rfl, hrole',
          h.live r' hr'⟩
      · exact ⟨_, r, (hrows r).mpr ⟨hr, hid⟩, hwr, huser, hrole, hlive⟩

theorem step_eq_some (h : step server s req = some t) :
    Possible s req ∧ Touches server req s t := by
  unfold step at h
  split_ifs at h with hpossible
  obtain rfl := Option.some.inj h
  exact ⟨hpossible, touches_serve hpossible⟩

end Administered

/-- **No run of requests leaves a workspace without an admin**: whoever sends them, and whichever
are refused. -/
theorem administered_of_exec (server : Server) {s s' : Store} {requests : List Request}
    (h : Administered s) (hrun : exec (step server) s requests = some s') : Administered s' :=
  inv_of_exec (fun _ _ _ hI hstep =>
    administered_touches (step_eq_some hstep).1 hI (step_eq_some hstep).2) h hrun

/-! ### A server, its workspace and two members -/

theorem length_zeroHex : (String.ofList (List.replicate 64 '0')).toList.length = 64 := by decide

theorem chars_zeroHex : ∀ c ∈ (String.ofList (List.replicate 64 '0')).toList,
    isHexChar c = true := List.all_eq_true.mp (by decide)

/-- The path of an URL: what follows its host, up to its query or fragment. -/
def readPath (host path : String) : String :=
  let afterHost := (host ++ path).toList.dropWhile fun c => c ∉ ['/', '?', '#']
  String.ofList (afterHost.takeWhile fun c => c ∉ ['?', '#'])

/-- A server that believes the header. -/
def headerServer : Server where
  authModeVar := some "header"
  authSecret := none
  lower s := s
  repr s := "'" ++ s ++ "'"
  hmac _ _ := ⟨_, length_zeroHex, chars_zeroHex⟩
  urlPath := readPath

theorem slug_length_acme : 1 ≤ "acme".length ∧ "acme".length ≤ 63 := by decide

def createAcme : Request where
  method := .post
  path := "/api/workspaces"
  user := some "ann"
  body := .workspace { slug := "acme", slug_length := slug_length_acme }
  clock := 0
  minted := ⟨"ws_1", "mbr_1", 0⟩

/-- Ann's row is to be removed. -/
def removeAnn (caller : String) : Request where
  method := .delete
  path := "/api/workspaces/ws_1/members/mbr_1"
  user := some caller
  body := .none
  clock := 0
  minted := ⟨"ws_2", "mbr_3", 0⟩

/-- Of an admin who removes herself and is the only one. -/
theorem administered_of_exec_acme :
    ∃ s, exec (step headerServer) .empty [createAcme, removeAnn "ann"] = some s ∧
      (membersOf s "ws_1").map (·.userId) = ["ann"] ∧ Administered s := by
  have hrun : (exec (step headerServer) .empty [createAcme, removeAnn "ann"]).map
      (fun s => (membersOf s "ws_1").map (·.userId)) = some ["ann"] := by decide +kernel
  obtain ⟨s, hs, hmembers⟩ := Option.map_eq_some_iff.mp hrun
  exact ⟨s, hs, hmembers, administered_of_exec _ administered_empty hs⟩

/-! ### Only admins change members -/

section Unchanged
variable {server : Server} {req : Request} {s t : Store} {workspaceId : String}

theorem isAdmin_iff {userId : String} : IsAdmin s workspaceId userId ↔
    ∃ m ∈ membersOf s workspaceId, m.userId = userId ∧ m.role = .admin ∧ m.deletedAt = none := by
  constructor
  · rintro ⟨m, hm, hws, hadmin⟩
    exact ⟨m, mem_membersOf.mpr ⟨hm, hws⟩, hadmin⟩
  · rintro ⟨m, hm, hadmin⟩
    exact ⟨m, (mem_membersOf.mp hm).1, (mem_membersOf.mp hm).2, hadmin⟩

theorem filter_map_of_unseen {α : Type*} {p : α → Bool} {f : α → α} {rows : List α}
    (h : ∀ r ∈ rows, f r = r ∨ p (f r) = false ∧ p r = false) :
    (rows.map f).filter p = rows.filter p := by
  induction rows with
  | nil => rfl
  | cons r rows ih =>
    have hrest := ih fun r' hr' => h r' (List.mem_cons_of_mem r hr')
    rw [List.map_cons, List.filter_cons, List.filter_cons, hrest]
    obtain heq | ⟨hnew, hold⟩ := h r List.mem_cons_self
    · rw [heq]
    · rw [hnew, hold, if_neg Bool.false_ne_true, if_neg Bool.false_ne_true]

theorem membersOf_touches (hpossible : Possible s req)
    (hthere : (s.workspaces.find? workspaceId).isSome) (hdenied : ¬Manages server s req workspaceId)
    (htouches : Touches server req s t) :
    membersOf t workspaceId = membersOf s workspaceId ∧
      (t.workspaces.find? workspaceId).isSome := by
  have happend : ∀ {rows : List Member} {m : Member}, rows = s.members.rows ++ [m] →
      m.workspaceId ≠ workspaceId →
      (rows.filter fun r => r.workspaceId = workspaceId) = membersOf s workspaceId := by
    rintro _ m rfl hne
    rw [List.filter_append, List.filter_singleton, decide_eq_false hne]
    exact List.append_nil _
  cases htouches with
  | same => exact ⟨rfl, hthere⟩
  | @created w m u _ hw hid _ hput hmember =>
    have hmembers := (putWorkspace_eq_ok hput).1
    obtain ⟨hrows, hws⟩ := rows_putMember_new (by rw [hmembers, hid]; exact hpossible.2) hmember
    have hne : w.id ≠ workspaceId := by
      intro heq
      rw [← heq, hw, hpossible.1] at hthere
      cases hthere
    refine ⟨happend (hmembers ▸ hrows) (hws ▸ hne), ?_⟩
    rw [(putMember_eq_ok hmember).1, (Table.put_eq_ok (putWorkspace_eq_ok hput).2).2]
    split_ifs
    · rfl
    · exact hthere
  | @invited ws m _ hmanages hid _ hput =>
    obtain ⟨hrows, hws⟩ := rows_putMember_new (by rw [hid]; exact hpossible.2) hput
    have hne : ws ≠ workspaceId := fun heq => hdenied (heq ▸ hmanages)
    refine ⟨happend hrows (hws ▸ hne), ?_⟩
    rwa [(putMember_eq_ok hput).1]
  | @changed ws old role _ hmanages hget _ hput =>
    obtain ⟨hfind, hws⟩ := getMember_eq_ok.mp hget
    have hne : old.workspaceId ≠ workspaceId := fun heq => hdenied (hws.symm.trans heq ▸ hmanages)
    refine ⟨?_, by rwa [(putMember_eq_ok hput).1]⟩
    unfold membersOf
    rw [rows_putMember_over hget hput]
    refine filter_map_of_unseen fun r hr => ?_
    split_ifs with hid
    · obtain rfl := List.inj_on_of_nodup_map s.members.ids_nodup hr
        (Table.mem_rows_iff.mpr hfind) hid
      exact .inr ⟨decide_eq_false hne, decide_eq_false hne⟩
    · exact .inl rfl
  | @removed ws old hmanages hget _ =>
    obtain ⟨hfind, hws⟩ := getMember_eq_ok.mp hget
    have hne : old.workspaceId ≠ workspaceId := fun heq => hdenied (hws.symm.trans heq ▸ hmanages)
    refine ⟨?_, hthere⟩
    show (s.members.rows.filter _).filter _ = _
    rw [List.filter_filter]
    refine List.filter_congr fun r hr => ?_
    by_cases hid : r.id = old.id
    · obtain rfl := List.inj_on_of_nodup_map s.members.ids_nodup hr
        (Table.mem_rows_iff.mpr hfind) hid
      simp [hne]
    · have hkept : decide ((Entity.base r).id ≠ old.id) = true := decide_eq_true hid
      rw [hkept, Bool.and_true]

end Unchanged

/-- **Callers none of whom is an admin of a workspace cannot change its members**, by any run of
requests, to any workspace, where the server asks who calls. -/
theorem membersOf_of_exec (server : Server) (hmode : authMode server ≠ .ok .local) {s s' : Store}
    {workspaceId : String} (hthere : (s.workspaces.find? workspaceId).isSome)
    {requests : List Request}
    (hnone : ∀ req ∈ requests, ∀ p, resolvePrincipal server req.clock req.user = .ok p →
      ¬IsAdmin s workspaceId p.userId)
    (hrun : exec (step server) s requests = some s') :
    membersOf s' workspaceId = membersOf s workspaceId := by
  refine (inv_of_guarded (I := fun t => membersOf t workspaceId = membersOf s workspaceId ∧
      (t.workspaces.find? workspaceId).isSome) (G := fun _ req => ∀ p,
      resolvePrincipal server req.clock req.user = .ok p → ¬IsAdmin s workspaceId p.userId)
    (fun t req u hI hG hstep => ?_) ⟨rfl, hthere⟩ ?_ hrun).1
  · obtain ⟨hpossible, htouches⟩ := step_eq_some hstep
    have hdenied : ¬Manages server t req workspaceId := by
      rintro (hlocal | ⟨p, hp, hadmin⟩)
      · exact hmode hlocal
      · rw [isAdmin_iff, hI.1, ← isAdmin_iff] at hadmin
        exact hG p hp hadmin
    obtain ⟨hsame, hsome⟩ := membersOf_touches hpossible hI.2 hdenied htouches
    exact ⟨hsame.trans hI.1, hsome⟩
  · refine guarded_iff.mpr fun pre req post _ heq _ => hnone req ?_
    rw [heq]
    exact List.mem_append_right _ List.mem_cons_self

theorem userId_length_bob : 1 ≤ "bob".length ∧ "bob".length ≤ 255 := by decide

def inviteBob : Request where
  method := .post
  path := "/api/workspaces/ws_1/members"
  user := some "ann"
  body := .invite { userId := "bob", role := .experimenter, userId_length := userId_length_bob }
  clock := 0
  minted := ⟨"ws_2", "mbr_2", 0⟩

/-- Bob is to be an admin. -/
def promoteBob : Request where
  method := .patch
  path := "/api/workspaces/ws_1/members/mbr_2"
  user := some "bob"
  body := .role .admin
  clock := 0
  minted := ⟨"ws_2", "mbr_3", 0⟩

/-- Of a member who is no admin, and tries to become one and to remove the one there is. -/
theorem membersOf_of_exec_bob : ∃ s s',
    exec (step headerServer) .empty [createAcme, inviteBob] = some s ∧
      exec (step headerServer) s [promoteBob, removeAnn "bob"] = some s' ∧
      (membersOf s "ws_1").map (·.role) = [.admin, .experimenter] ∧
      membersOf s' "ws_1" = membersOf s "ws_1" := by
  have hbefore : (exec (step headerServer) .empty [createAcme, inviteBob]).map (fun s =>
      ((membersOf s "ws_1").map (·.role), (s.workspaces.find? "ws_1").isSome,
        decide (IsAdmin s "ws_1" "bob"))) = some ([.admin, .experimenter], true, false) := by
    decide +kernel
  have hafter : ((exec (step headerServer) .empty [createAcme, inviteBob]).bind fun s =>
      exec (step headerServer) s [promoteBob, removeAnn "bob"]).isSome := by decide +kernel
  obtain ⟨s, hs, hmembers⟩ := Option.map_eq_some_iff.mp hbefore
  rw [Prod.mk.injEq, Prod.mk.injEq] at hmembers
  rw [hs] at hafter
  obtain ⟨s', hs'⟩ := Option.isSome_iff_exists.mp hafter
  have hmode : authMode headerServer ≠ .ok .local := by decide +kernel
  have hprincipal : ∀ req ∈ [promoteBob, removeAnn "bob"], ∀ p,
      resolvePrincipal headerServer req.clock req.user = .ok p → p.userId = "bob" := by
    intro req hreq p hp
    have huser : req.clock = 0 ∧ req.user = some "bob" := by
      rw [List.mem_cons, List.mem_singleton] at hreq
      obtain rfl | rfl := hreq <;> exact ⟨rfl, rfl⟩
    rw [huser.1, huser.2] at hp
    have hbob : (resolvePrincipal headerServer 0 (some "bob")).map (·.userId) = .ok "bob" := by
      decide +kernel
    rw [hp] at hbob
    exact Except.ok.inj hbob
  refine ⟨s, s', hs, hs', hmembers.1, membersOf_of_exec headerServer hmode hmembers.2.1 ?_ hs'⟩
  intro req hreq p hp
  rw [hprincipal req hreq p hp]
  exact of_decide_eq_false hmembers.2.2

/-! ### Whom the middleware lets through -/

/-- The workspace that an endpoint works on, unless it makes one. -/
def Endpoint.workspaceId? : Endpoint → Option String
  | .create => none
  | .list workspaceId | .invite workspaceId | .update workspaceId _ | .remove workspaceId _ =>
    some workspaceId

/-- **The middleware and the routes read one workspace** out of a path. -/
theorem pathParts_of_route {method : Method} {path workspaceId : String} {endpoint : Endpoint}
    (h : route method path = some endpoint) (hws : endpoint.workspaceId? = some workspaceId) :
    ∃ rest, pathParts path = "api" :: "workspaces" :: workspaceId :: rest := by
  unfold route at h
  unfold pathParts
  split at h
  · split_ifs at h
    obtain rfl := Option.some.inj h
    cases hws
  · next ws hsplit =>
    split_ifs at h with hempty <;> obtain rfl := Option.some.inj h <;>
      obtain rfl := Option.some.inj hws <;> exact ⟨["members"], by simp [hsplit, hempty]⟩
  · next ws memberId hsplit =>
    split_ifs at h with hempty <;> obtain rfl := Option.some.inj h <;>
      obtain rfl := Option.some.inj hws <;> rw [not_or] at hempty <;>
      exact ⟨["members", memberId], by simp [hsplit, hempty.1, hempty.2]⟩
  · cases h

theorem authMode_of_resolvePrincipal {server : Server} {now : ℚ} {user : Option String}
    {p : Principal} (h : resolvePrincipal server now user = .ok p) :
    authMode server = .ok p.authMode := by
  unfold resolvePrincipal at h
  cases hmode : authMode server with
  | error e => rw [hmode] at h; cases h
  | ok mode =>
    rw [hmode] at h
    cases mode with
    | «local» =>
      obtain rfl := Except.ok.inj h
      rfl
    | header =>
      simp only [bind, Except.bind] at h
      cases huser : presented user with
      | none => rw [huser] at h; cases h
      | some user =>
        rw [huser] at h
        obtain rfl := Except.ok.inj h
        rfl
    | token =>
      simp only [bind, Except.bind] at h
      cases huser : presented user with
      | none => rw [huser] at h; cases h
      | some user =>
        rw [huser] at h
        dsimp only at h
        split at h
        · cases h
        · cases h
        · obtain rfl := Except.ok.inj h
          rfl

theorem authorizeWorkspace_eq_ok {server : Server} {s : Store} {workspaceId : String} {now : ℚ}
    {user : Option String} {write : Bool} {p : Principal} (hmode : authMode server ≠ .ok .local)
    (h : authorizeWorkspace server s workspaceId now user write = .ok p) :
    resolvePrincipal server now user = .ok p ∧
      ∃ roles, workspaceMemberRoles s workspaceId p.userId = some roles ∧
        ∃ role ∈ roles, role ∈ if write then mutationRoles else readRoles := by
  unfold authorizeWorkspace at h
  cases hp : resolvePrincipal server now user with
  | error e => rw [hp] at h; cases h
  | ok principal =>
    rw [hp] at h
    have hprincipal : principal.authMode ≠ .local := fun hlocal =>
      hmode (hlocal ▸ authMode_of_resolvePrincipal hp)
    simp only [bind, Except.bind, if_neg hprincipal] at h
    generalize (if write then mutationRoles else readRoles) = allowedRoles at h ⊢
    cases hroles : workspaceMemberRoles s workspaceId principal.userId with
    | none => rw [hroles] at h; cases h
    | some roles =>
      rw [hroles] at h
      dsimp only at h
      split_ifs at h with hany
      obtain rfl := Except.ok.inj h
      obtain ⟨role, hrole, hallowed⟩ := List.any_eq_true.mp hany
      exact ⟨rfl, roles, hroles, role, hrole, List.contains_iff_mem.mp hallowed⟩

theorem manages_of_admitted {server : Server} {s : Store} {req : Request} {workspaceId : String}
    {rest : String → Scope Response} {response : Response}
    (h : ((tryQuery (fun _ => resolveUserId server req.clock req.user) >>= fun caller =>
      tryQuery (requireAdmin server workspaceId caller) >>= fun _ => rest caller).run s).1 =
        .ok response) : Manages server s req workspaceId := by
  rw [run_tryQuery_bind] at h
  cases hcaller : resolveUserId server req.clock req.user with
  | error e => rw [hcaller] at h; cases h
  | ok caller =>
    rw [hcaller] at h
    dsimp only at h
    rw [run_tryQuery_bind] at h
    cases hadmin : requireAdmin server workspaceId caller s with
    | error e => rw [hadmin] at h; cases h
    | ok u => exact manages_of_requireAdmin hcaller hadmin

theorem manages_of_handled {server : Server} {s : Store} {req : Request} {endpoint : Endpoint}
    {workspaceId : String} {response : Response} (hws : endpoint.workspaceId? = some workspaceId)
    (hchanges : endpoint ≠ .list workspaceId)
    (hserved : ((endpoint.handle server req).run s).1 = .ok response) :
    Manages server s req workspaceId := by
  cases endpoint with
  | create => cases hws
  | list ws => exact absurd (congrArg Endpoint.list (Option.some.inj hws)) hchanges
  | invite ws =>
    obtain rfl := Option.some.inj hws
    unfold Endpoint.handle at hserved
    cases hbody : req.body with
    | invite body =>
      rw [hbody] at hserved
      exact manages_of_admitted hserved
    | role _ | workspace _ | none => rw [hbody] at hserved; cases hserved
  | update ws memberId =>
    obtain rfl := Option.some.inj hws
    unfold Endpoint.handle at hserved
    cases hbody : req.body with
    | role role =>
      rw [hbody] at hserved
      exact manages_of_admitted hserved
    | invite _ | workspace _ | none => rw [hbody] at hserved; cases hserved
  | remove ws memberId =>
    obtain rfl := Option.some.inj hws
    exact manages_of_admitted hserved

/-- A name or an address, with a port or without. -/
def PlainHost (host : String) : Prop :=
  ∀ c ∈ host.toList, c.isAlphanum = true ∨ c ∈ ['.', '-', ':']

instance (host : String) : Decidable (PlainHost host) :=
  List.decidableBAll _ host.toList

/-- A path that begins with a slash, and has nothing that ends the path of an URL and nothing that
is left out of it. -/
def PlainPath (path : String) : Prop :=
  path.toList.head? = some '/' ∧ ∀ c ∈ path.toList, c ∉ ['?', '#', '\t', '\r', '\n']

instance (path : String) : Decidable (PlainPath path) :=
  @instDecidableAnd _ _ _ (List.decidableBAll _ path.toList)

/-- An URL of a plain host and path has that path. -/
def ReadsPlain (urlPath : String → String → String) : Prop :=
  ∀ host path, PlainHost host → PlainPath path → urlPath host path = path

theorem readsPlain_readPath : ReadsPlain readPath := by
  intro host path hhost ⟨hslash, hpath⟩
  have hdrop : (host ++ path).toList.dropWhile (fun c => decide (c ∉ ['/', '?', '#'])) =
      path.toList := by
    rw [String.toList_append, List.dropWhile_append_of_pos]
    · cases hchars : path.toList with
      | nil => rfl
      | cons c rest =>
        rw [hchars] at hslash
        obtain rfl := Option.some.inj hslash
        rfl
    · intro c hc
      have hplain := hhost c hc
      refine decide_eq_true fun hmem => ?_
      simp only [List.mem_cons, List.not_mem_nil, or_false] at hmem hplain
      rcases hmem with rfl | rfl | rfl <;> revert hplain <;> decide
  have htake : path.toList.takeWhile (fun c => decide (c ∉ ['?', '#'])) = path.toList := by
    refine List.takeWhile_eq_self_iff.mpr fun c hc => decide_eq_true fun hmem => ?_
    refine hpath c hc ?_
    simp only [List.mem_cons, List.not_mem_nil, or_false] at hmem ⊢
    rcases hmem with rfl | rfl
    · exact .inl rfl
    · exact .inr (.inl rfl)
  rw [readPath, hdrop, htake, String.ofList_toList]

end Selfevals.Api.Members
