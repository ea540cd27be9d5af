import NodePlane.Controller.Sessions

/-! Invites: creating, previewing, revoking and accepting them, in the cabinet and in Telegram.
Each transaction is atomic: one that raises changes nothing, and a wrong token is counted in a
transaction after it. A digest stands for the token; display names, channels, the grants that
follow from a policy and the texts that are only shown are left out. The ids that a transaction
draws are inputs; an id in use breaks a key, which raises. -/
namespace NodePlane
namespace Invites
open Library
open Accounts (Denied AccountRole Role effectiveRoles)
open Sessions (Tokens Scope)

/-- The permissions that invites ask for. -/
inductive Permission | accountsManage | profilesManage | grantsManage
  deriving DecidableEq, Repr

/-- `PRESETS`, as far as these permissions. -/
def presets : Role → List Permission
  | .owner => [.accountsManage, .profilesManage, .grantsManage]
  | .admin => [.accountsManage, .profilesManage, .grantsManage]
  | .operator => []
  | .support => [.profilesManage]

inductive Kind
  | new
  | account (id : ℕ)
  deriving DecidableEq, Repr

/-- A row of `backend_invites`. -/
structure Invite where
  token : ℕ
  kind : Kind
  vpn : Bool
  tariff : Option ℕ
  note : String
  createdBy : ℕ
  createdAt : ℕ
  expiresAt : ℕ
  usedAt : Option ℕ
  usedAccount : Option ℕ
  revokedAt : Option ℕ
  deriving DecidableEq, Repr

inductive InviteStatus | revoked | used | expired | active
  deriving DecidableEq, Repr

/-- `status`. -/
def Invite.status (row : Invite) (now : ℕ) : InviteStatus :=
  if row.revokedAt ≠ none then .revoked
  else if row.usedAt ≠ none then .used
  else if row.expiresAt ≤ now then .expired
  else .active

/-- An access policy as a tariff stores it. -/
abbrev Policy := String

structure Tariff where
  days : Option ℕ
  access : Option Policy
  deriving DecidableEq, Repr

structure Profile where
  owner : ℕ
  expiresAt : Option ℕ
  revision : ℕ
  deriving DecidableEq, Repr

/-- An operation that a command recorded for a profile. -/
structure Operation where
  profile : ℕ
  actor : ℕ
  deriving DecidableEq, Repr

/-- An invite's use. -/
structure Acceptance where
  invite : ℕ
  account : ℕ
  at' : ℕ
  deriving DecidableEq, Repr

structure Db extends Sessions.Db where
  assignments : ℕ → Finset Role
  /-- `backend_external_identities` by provider and subject. -/
  identities : Table (String × String) ℕ
  profiles : Table ℕ Profile
  profileDeletions : List ℕ
  profileTariffs : Table ℕ ℕ
  policies : Table ℕ Policy
  tariffs : Table ℕ Tariff
  operations : List Operation
  telegram : Bool
  bot : Option String
  invites : Table ℕ Invite
  /-- The acceptances that succeeded, oldest first; nothing reads it. -/
  accepted : List Acceptance
  /-- The invites whose template was applied, oldest first; nothing reads it. -/
  applied : List ℕ

/-- What a transaction reads of the rest, and draws. -/
structure Env where
  now : ℕ
  /-- The clock when a tariff is assigned. -/
  clock : ℕ
  account : ℕ
  profile : ℕ
  /-- `maintenance_gate.admit` raises. -/
  closed : Option Denied
  /-- `grant_policies.validate` passes. -/
  valid : Policy → Bool

/-- A unique key or a primary key refuses a row. -/
def conflict : Denied := ⟨"unique_violation", 500⟩

def inviteInvalid : Denied := ⟨"invite_invalid", 404⟩

/-! Rights -/

/-- The account's roles, as the repository loads them. -/
def Db.roles (db : Db) (id : ℕ) (row : Accounts.Row) : Finset Role :=
  effectiveRoles row.role
    (if row.role ≠ .admin then some ∅
    else if db.assignments id = ∅ then none
    else some (db.assignments id))

/-- `require_permission` passes for the account, with every scope. -/
def Db.holds (db : Db) (id : ℕ) (permission : Permission) : Bool :=
  (db.accounts.lookup id).any fun row =>
    decide (row.status = .approved) &&
      [Role.owner, .admin, .operator, .support].any fun role =>
        decide (role ∈ db.roles id row) && (presets role).contains permission

/-! Creating and revoking -/

/-- Who calls, as far as invites ask. -/
structure Actor where
  id : ℕ
  adapter : Bool
  scopes : List Permission

def Db.requires (db : Db) (actor : Actor) (permission : Permission) : Bool :=
  actor.scopes.contains permission && db.holds actor.id permission

structure Creation where
  id : ℕ
  token : ℕ
  account : Option ℕ
  vpn : Bool
  tariff : Option ℕ
  days : ℕ
  note : String

def permissionDenied : Denied := ⟨"permission_denied", 403⟩

def invalidInput : Denied := ⟨"invalid_input", 422⟩

/-- `create` up to its transaction. -/
def Creation.checked (creation : Creation) (db : Db) (actor : Actor) : Except Denied Unit :=
  if db.requires actor .accountsManage = false then .error permissionDenied
  else if ¬(1 ≤ creation.days ∧ creation.days ≤ 30) then .error invalidInput
  else if 128 < creation.note.length ∨ (creation.note.toList.any fun c => decide (c < ' ')) = true then
    .error invalidInput
  else if creation.account ≠ none ∧ (creation.vpn = true ∨ creation.tariff ≠ none) then
    .error invalidInput
  else if creation.account ≠ none ∧ actor.adapter = true then
    .error ⟨"invite_not_through_adapter", 403⟩
  else if creation.tariff ≠ none ∧ creation.vpn = false then .error invalidInput
  else if creation.vpn = true ∧ db.requires actor .profilesManage = false then
    .error permissionDenied
  else .ok ()

/-- The account that an invite may name. -/
def Db.invitable (db : Db) : Option ℕ → Except Denied Unit
  | none =>
    if db.telegram = true ∧ db.bot = none then .error ⟨"telegram_bot_username_required", 409⟩
    else .ok ()
  | some account =>
    match db.accounts.lookup account with
    | none => .error ⟨"resource_not_found", 404⟩
    | some row =>
      if account ∈ db.deletions then .error ⟨"resource_not_found", 404⟩
      else if row.status ≠ .approved then .error ⟨"account_disabled", 409⟩
      else .ok ()

/-- The tariff that a creator may put into an invite. -/
def Db.offered (db : Db) (actor : Actor) : Option ℕ → Except Denied Unit
  | none => .ok ()
  | some id =>
    match db.tariffs.lookup id with
    | none => .error ⟨"tariff_not_found", 404⟩
    | some tariff =>
      if tariff.access ≠ none ∧ db.requires actor .grantsManage = false then
        .error permissionDenied
      else .ok ()

/-- `ACTIVE_LIMIT`. -/
def activeLimit : ℕ := 200

def Db.activeInvites (db : Db) (now : ℕ) : ℕ :=
  (db.invites.rows.filter fun (_, row) =>
    decide (row.usedAt = none ∧ row.revokedAt = none ∧ now < row.expiresAt)).length

/-- `create`. -/
def Db.create (db : Db) (actor : Actor) (creation : Creation) (now : ℕ) : Except Denied Db := do
  creation.checked db actor
  db.invitable creation.account
  db.offered actor creation.tariff
  if activeLimit ≤ db.activeInvites now then
    throw ⟨"invite_limit", 409⟩
  if (db.invites.has fun id row => decide (id = creation.id ∨ row.token = creation.token)) = true then
    throw conflict
  let kind := match creation.account with
    | none => Kind.new
    | some account => .account account
  let row : Invite :=
    ⟨creation.token, kind, creation.vpn, creation.tariff, creation.note, actor.id, now,
      now + creation.days * 24 * 60 * 60, none, none, none⟩
  return { db with invites := db.invites.put creation.id row }

/-- `revoke`. -/
def Db.revokeInvite (db : Db) (actor : Actor) (id now : ℕ) : Except Denied Db :=
  if db.requires actor .accountsManage = false then .error permissionDenied
  else
    match db.invites.lookup id with
    | none => .error ⟨"resource_not_found", 404⟩
    | some row =>
      if row.status now = .active then
        .ok { db with
          invites := db.invites.alter id fun row => { row with revokedAt := some now } }
      else .ok db

/-! Accepting -/

section Lower
-- `str.lower`
variable (lower : String → String)

/-- `_find`: the active invite of the token; none stands for no text or a malformed one. -/
def Db.find (db : Db) (token : Option ℕ) (source : Option String) (now : ℕ) :
    Except Denied (Option (ℕ × Invite)) :=
  if db.limited [Sessions.sourceScope source] now = true then
    .error ⟨"sign_in_rate_limited", 429⟩
  else
    .ok (match db.invites.rows.find? fun (_, row) => decide (some row.token = token) with
      | none => none
      | some (id, row) => if row.status now = .active then some (id, row) else none)

/-- `_refused`, as far as it writes. -/
def Db.refused (db : Db) (source : Option String) (now : ℕ) : Db :=
  { db with toDb := db.toDb.failed [Sessions.sourceScope source] now }

/-- `ensure_account_profile_in_transaction`. -/
def Db.ensureProfile (db : Db) (account profile : ℕ) : Except Denied (ℕ × Db) :=
  match db.profiles.rows.find? fun (_, row) => decide (row.owner = account) with
  | some (existing, _) => .ok (existing, db)
  | none =>
    if (db.profiles.lookup profile).isSome then .error conflict
    else .ok (profile, { db with profiles := db.profiles.put profile ⟨account, none, 1⟩ })

/-- `is_admin_profile`. -/
def Db.adminProfile (db : Db) (profile : Profile) : Bool :=
  (db.accounts.lookup profile.owner).any fun row => decide (row.role = .admin)

/-- `tariffs.assign` of a tariff that is named: the new expiry, and the policy to apply. -/
def Db.assign (db : Db) (profile id : ℕ) (row : Profile) (start applyAccess : Bool) (clock : ℕ) :
    Except Denied (Option ℕ × Option Policy × Db) := do
  let some tariff := db.tariffs.lookup id | throw ⟨"tariff_not_found", 404⟩
  if db.adminProfile row = true ∧ (start = true ∨ applyAccess = true) then
    throw ⟨"admin_access_permanent", 422⟩
  if applyAccess = true ∧ tariff.access = none then
    throw ⟨"tariff_without_access", 422⟩
  if start = true ∧ tariff.days = none then
    throw ⟨"tariff_without_term", 422⟩
  let expires := if start then tariff.days.map fun days => clock + days * 24 * 60 * 60
    else row.expiresAt
  return (expires, if applyAccess then tariff.access else none,
    { db with profileTariffs := db.profileTariffs.put profile id })

/-- `ProfileCommands.execute` of the action `tariff`, under a new key. -/
def Db.tariffCommand (db : Db) (env : Env) (actor profile revision id : ℕ)
    (start applyAccess : Bool) : Except Denied Db := do
  if db.holds actor .profilesManage = false then
    throw permissionDenied
  if let some denied := env.closed then
    throw denied
  if applyAccess = true ∧ ¬(db.holds actor .grantsManage = true ∧
      (db.accounts.lookup actor).any (fun row => decide (row.role = .admin ∧ row.status = .approved))
        = true) then
    throw permissionDenied
  let some row := db.profiles.lookup profile | throw ⟨"resource_not_found", 404⟩
  if profile ∈ db.profileDeletions then
    throw ⟨"profile_deleting", 409⟩
  if row.revision ≠ revision then
    throw ⟨"revision_conflict", 412⟩
  let (expires, policy, db) ← db.assign profile id row start applyAccess env.clock
  if (policy.any fun policy => !env.valid policy) = true then
    throw invalidInput
  let policies := match policy with
    | none => db.policies
    | some policy => db.policies.put profile policy
  return { db with
    policies := policies
    profiles := db.profiles.put profile { row with expiresAt := expires, revision := revision + 1 }
    operations := db.operations ++ [⟨profile, actor⟩] }

/-- `_apply`. -/
def Db.apply (db : Db) (env : Env) (id : ℕ) (invite : Invite) (account : ℕ) : Except Denied Db :=
  if invite.vpn = false then .ok db
  else if db.holds invite.createdBy .profilesManage = false then
    .error ⟨"invite_creator_unavailable", 409⟩
  else do
    let (profile, db) ← db.ensureProfile account env.profile
    let db := { db with applied := db.applied ++ [id] }
    match invite.tariff with
    | none => return db
    | some tariffId =>
      let some tariff := db.tariffs.lookup tariffId | throw ⟨"tariff_not_found", 404⟩
      let some row := db.profiles.lookup profile | throw ⟨"resource_not_found", 404⟩
      db.tariffCommand env invite.createdBy profile row.revision tariffId
        tariff.days.isSome tariff.access.isSome

/-- `_use`. -/
def Db.use (db : Db) (id account now : ℕ) : Except Denied Db :=
  match db.invites.lookup id with
  | none => .error inviteInvalid
  | some row =>
    if row.usedAt = none ∧ row.revokedAt = none then
      .ok { db with
        invites := db.invites.put id
          { row with usedAt := some now, usedAccount := some account }
        accepted := db.accepted ++ [⟨id, account, now⟩] }
    else .error inviteInvalid

/-- `_new_account`. -/
def Db.newAccount (db : Db) (account : ℕ) : Except Denied Db :=
  if (db.accounts.lookup account).isSome then .error conflict
  else .ok { db with accounts := db.accounts.put account ⟨.member, .approved, 1⟩ }

/-- The account of a `new` invite in the cabinet. -/
def Db.acceptNew (db : Db) (env : Env) (id : ℕ) (invite : Invite) (login : Option String) :
    Except Denied (ℕ × Db) := do
  let some login := login.filter (fun login => !login.isEmpty) | throw ⟨"login_required", 422⟩
  let _ ← Logins.checked login
  let db ← db.newAccount env.account
  let logins ← Logins.claim db.logins env.account login .first env.now
  let db ← { db with logins := logins }.apply env id invite env.account
  return (env.account, db)

/-- The account that an `account` invite names. -/
def Db.acceptAccount (db : Db) (env : Env) (account : ℕ) (login : Option String) :
    Except Denied (ℕ × Db) := do
  if db.active account = false then
    throw inviteInvalid
  match Logins.current db.logins account with
  | some _ => return (account, db)
  | none =>
    let some login := login.filter (fun login => !login.isEmpty) | throw ⟨"login_required", 422⟩
    let logins ← Logins.setOwn lower db.logins account login env.now
    return (account, { db with logins := logins })

/-- The account of an acceptance in the cabinet. -/
def Db.acceptKind (db : Db) (env : Env) (id : ℕ) (invite : Invite) (login : Option String) :
    Except Denied (ℕ × Db) :=
  match invite.kind with
  | .new => db.acceptNew env id invite login
  | .account account => db.acceptAccount lower env account login

/-- The password of an acceptance, which ends the account's sessions. -/
def Db.replacePassword (db : Db) (account : ℕ) (password : Option String) (now : ℕ) :
    Except Denied Db :=
  match password with
  | none => .ok db
  | some password => do
    let _ ← Sessions.checkedPassword lower (some password) (Logins.current db.logins account)
    let cleared := { db.toDb with passwords := db.passwords.erase account }
    let base ← cleared.setPassword lower account (some password) none none now
    return { db with toDb := base.revokeAll account none now }

/-- The transaction of `accept`; none without an active invite. -/
def Db.accepting (db : Db) (env : Env) (token : Option ℕ) (login password source : Option String) :
    Except Denied (Option (ℕ × Tokens × Db)) := do
  match ← db.find token source env.now with
  | none => return none
  | some (id, invite) =>
    let (account, db) ← db.acceptKind lower env id invite login
    let db ← db.replacePassword lower account password env.now
    let db ← db.use id account env.now
    let (tokens, base) := db.toDb.openSession account env.now
    return some (account, tokens, { db with toDb := base })

/-- The login that may come with an acceptance in the bot. -/
def Db.firstLogin (db : Db) (env : Env) (login : Option String) : Except Denied Db :=
  match login.filter (fun login => !login.isEmpty) with
  | none => .ok db
  | some login => do
    let _ ← Logins.checked login
    let logins ← Logins.claim db.logins env.account login .first env.now
    return { db with logins := logins }

/-- The transaction of `accept_telegram`. -/
def Db.acceptingTelegram (db : Db) (env : Env) (token : Option ℕ) (subject : String)
    (login source : Option String) : Except Denied (Option (ℕ × Db)) := do
  match ← db.find token source env.now with
  | none => return none
  | some (id, invite) =>
    if invite.kind ≠ .new then
      throw ⟨"invite_not_for_telegram", 409⟩
    if (db.identities.lookup ("telegram", subject)).isSome then
      throw ⟨"invite_already_registered", 409⟩
    let db ← db.newAccount env.account
    let db := { db with identities := db.identities.put ("telegram", subject) env.account }
    let db ← db.firstLogin env login
    let db ← db.apply env id invite env.account
    let db ← db.use id env.account env.now
    return some (env.account, db)

/-- What an acceptance replies. -/
structure Accepted where
  account : ℕ
  session : Option Tokens
  deriving DecidableEq, Repr

/-- `accept`. -/
def Db.accept (db : Db) (env : Env) (token : Option ℕ) (login password source : Option String) :
    Except Denied Accepted × Db :=
  match db.accepting lower env token login password source with
  | .error denied => (.error denied, db)
  | .ok none => (.error inviteInvalid, db.refused source env.now)
  | .ok (some (account, tokens, next)) => (.ok ⟨account, some tokens⟩, next)

/-- `accept_telegram`. -/
def Db.acceptTelegram (db : Db) (env : Env) (token : Option ℕ) (subject : String)
    (login source : Option String) : Except Denied Accepted × Db :=
  match db.acceptingTelegram env token subject login source with
  | .error denied => (.error denied, db)
  | .ok none => (.error inviteInvalid, db.refused source env.now)
  | .ok (some (account, next)) => (.ok ⟨account, none⟩, next)

/-! Runs -/

inductive Op
  | create (actor : Actor) (creation : Creation) (now : ℕ)
  | revoke (actor : Actor) (id now : ℕ)
  | preview (token : Option ℕ) (source : Option String) (now : ℕ)
  | accept (env : Env) (token : Option ℕ) (login password source : Option String)
  | acceptTelegram (env : Env) (token : Option ℕ) (subject : String)
      (login source : Option String)
  /-- Whatever else the controller does: roles, accounts, tariffs, profiles, sessions. -/
  | others (after : Db)

inductive Reply
  | done
  | denied (denied : Denied)
  | accepted (result : Accepted)
  deriving DecidableEq, Repr

def Reply.of : Except Denied Accepted → Reply
  | .ok result => .accepted result
  | .error refusal => .denied refusal

/-- Every profile's owner is an account: the foreign key of the table. -/
def Db.references (db : Db) : Bool :=
  !db.profiles.has fun _ row => (db.accounts.lookup row.owner).isNone

def Db.step (db : Db) : Op → Reply × Db
  | .create actor creation now =>
    match db.create actor creation now with
    | .error refusal => (.denied refusal, db)
    | .ok next => (.done, next)
  | .revoke actor id now =>
    match db.revokeInvite actor id now with
    | .error refusal => (.denied refusal, db)
    | .ok next => (.done, next)
  | .preview token source now =>
    match db.find token source now with
    | .error refusal => (.denied refusal, db)
    | .ok none => (.denied inviteInvalid, db.refused source now)
    | .ok (some _) => (.done, db)
  | .accept env token login password source =>
    let (result, next) := db.accept lower env token login password source
    (.of result, next)
  | .acceptTelegram env token subject login source =>
    let (result, next) := db.acceptTelegram env token subject login source
    (.of result, next)
  | .others after =>
    if after.references = true then
      (.done, { after with
        invites := db.invites, accepted := db.accepted, applied := db.applied })
    else (.done, db)

/-- The state after `ops`, oldest first. -/
def Db.run (db : Db) (ops : List Op) : Db := ops.foldl (fun db op => (db.step lower op).2) db

end Lower

/-- A controller without invites. -/
def Db.initial : Db where
  toDb := ⟨∅, [], ∅, ∅, [], ∅, ∅, 0⟩
  assignments := fun _ => ∅
  identities := ∅
  profiles := ∅
  profileDeletions := []
  profileTariffs := ∅
  policies := ∅
  tariffs := ∅
  operations := []
  telegram := false
  bot := none
  invites := ∅
  accepted := []
  applied := []

end Invites
end NodePlane
