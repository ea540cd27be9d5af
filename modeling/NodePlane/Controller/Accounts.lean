import NodePlane.Library.Table
import Mathlib.Data.Finset.Basic

/-! Accounts and their roles: permissions, account updates, merges, Telegram links, account and
profile deletions, the cleanup of registrations, and what a restore does to accounts. Each
command is one transaction; logins, sessions and channels, grants and the replay of a command's
key are left out, and so is what only a display reads. -/
namespace NodePlane
namespace Accounts
open Library

inductive AccountRole | member | admin
  deriving DecidableEq, Repr

inductive Status | pending | approved | rejected | disabled
  deriving DecidableEq, Repr

/-- `STAFF_ROLES`. -/
inductive Role | owner | admin | operator | support
  deriving DecidableEq, Repr

/-- The permissions that these commands ask for. -/
inductive Permission | accountsManage | profilesManage | settingsManage | rolesManage
  deriving DecidableEq, Repr

/-- `PRESETS`, as far as these permissions. -/
def presets : Role → List Permission
  | .owner => [.accountsManage, .profilesManage, .settingsManage, .rolesManage]
  | .admin => [.accountsManage, .profilesManage, .settingsManage]
  | .operator => []
  | .support => [.profilesManage]

/-- A row of `backend_accounts`. -/
structure Row where
  role : AccountRole
  status : Status
  revision : ℕ
  deriving DecidableEq, Repr

inductive MergeStatus | pending | approved | rejected
  deriving DecidableEq, Repr

structure Merge where
  main : ℕ
  other : ℕ
  status : MergeStatus
  deriving DecidableEq, Repr

/-- A proven Telegram that waits for the account's confirmation. -/
structure Link where
  account : ℕ
  subject : String
  deriving DecidableEq, Repr

structure Db where
  accounts : Table ℕ Row
  /-- `backend_role_assignments`; the whole installation is the only scope in use. -/
  assignments : ℕ → Finset Role
  /-- `backend_external_identities` by provider and subject. -/
  identities : Table (String × String) ℕ
  /-- The owner account of a profile. -/
  profiles : Table ℕ (Option ℕ)
  profileDeletions : List ℕ
  /-- `backend_account_deletions`, with whether they completed. -/
  deletions : Table ℕ Bool
  /-- The accounts with a pending access request. -/
  requests : List ℕ
  registrations : List ℕ
  merges : Table ℕ Merge
  links : Table ℕ Link

structure Denied where
  code : String
  status : ℕ
  deriving DecidableEq, Repr

def deny {α : Type} (code : String) (status : ℕ) : Except Denied α := .error ⟨code, status⟩

/-- An account with its roles as they were loaded; none where `role` decides. -/
structure Account where
  id : ℕ
  role : AccountRole
  status : Status
  roles : Option (Finset Role)
  deriving DecidableEq

structure Actor where
  scopes : List Permission
  account : Account

def effectiveRoles (role : AccountRole) (roles : Option (Finset Role)) : Finset Role :=
  match roles with
  | some roles => roles
  | none => if role = .admin then {.owner} else ∅

/-- The account's roles give the permission. -/
def Account.holds (account : Account) (permission : Permission) : Bool :=
  [Role.owner, .admin, .operator, .support].any fun role =>
    role ∈ effectiveRoles account.role account.roles && (presets role).contains permission

def requirePermission (actor : Actor) (permission : Permission) : Except Denied Unit :=
  if actor.account.status = .disabled then deny "account_disabled" 403
  else if actor.account.status ≠ .approved then deny "invalid_account_state" 403
  else if !actor.scopes.contains permission then deny "permission_denied" 403
  else if !actor.account.holds permission then deny "permission_denied" 403
  else .ok ()

/-! Roles. -/

/-- `account_roles`: roles count only while the mirror says `admin`. -/
def Db.accountRoles (db : Db) (id : ℕ) (row : Row) : Option (Finset Role) :=
  if row.role ≠ .admin then some ∅
  else if db.assignments id = ∅ then none
  else some (db.assignments id)

/-- `_roles`. -/
def Db.roles (db : Db) (id : ℕ) (row : Row) : Finset Role :=
  effectiveRoles row.role (db.accountRoles id row)

/-- The condition that `owners` counts. -/
def Db.isOwner (db : Db) (id : ℕ) (row : Row) : Bool :=
  row.status = .approved &&
    (Role.owner ∈ db.assignments id || (row.role = .admin && db.assignments id = ∅))

/-- Active owners, including administrators of older releases without assignments. -/
def Db.owners (db : Db) : ℕ := (db.accounts.rows.filter fun row => db.isOwner row.1 row.2).length

/-- Replaces the account's installation-wide roles and updates the mirror. -/
def Db.assign (db : Db) (id : ℕ) (roles : Finset Role) : Db :=
  { db with
    assignments := Function.update db.assignments id roles
    accounts := db.accounts.alter id fun row =>
      { row with role := if roles = ∅ then .member else .admin } }

/-! Account deletion. -/

/-- `begin`. -/
def Db.begin (db : Db) (id : ℕ) : Db :=
  { db with
    deletions := if (db.deletions.lookup id).isSome then db.deletions else db.deletions.put id false
    accounts := db.accounts.alter id fun row =>
      { row with status := .disabled, revision := row.revision + 1 } }

/-- Every profile of the account is deleted, and its revocation `finished`. -/
def Db.settled (db : Db) (finished : ℕ → Bool) (id : ℕ) : Bool :=
  db.profiles.rows.all fun profile =>
    profile.2 ≠ some id || (db.profileDeletions.contains profile.1 && finished profile.1)

/-- One account of `settle`. -/
def Db.complete (db : Db) (id : ℕ) : Db :=
  { db with
    accounts := db.accounts.alter id fun row => { row with revision := row.revision + 1 }
    identities := db.identities.keep fun _ account => account ≠ id
    deletions := db.deletions.put id true }

def Db.settle (db : Db) (finished : ℕ → Bool) : Db :=
  (db.deletions.rows.filter fun deletion =>
    !deletion.2 && db.settled finished deletion.1).foldl (fun db deletion => db.complete deletion.1) db

/-! Account commands. -/

/-- What an update asks to change; `roles` is the exact list. -/
structure Change where
  role : Option AccountRole
  status : Option Status
  roles : Option (List Role)
  revision : ℕ
  deriving DecidableEq, Repr

/-- The checks before the transaction; the role that the change asks for. -/
def Change.asked (change : Change) (actor : Actor) : Except Denied (Option AccountRole) := do
  requirePermission actor .accountsManage
  if change.role = none ∧ change.status = none ∧ change.roles = none then
    deny "invalid_input" 422
  let role ← match change.roles with
    | none => pure change.role
    | some roles => do
      requirePermission actor .rolesManage
      if change.role.isSome || !roles.Nodup then deny "invalid_input" 422
      pure (some (if roles = [] then .member else .admin))
  if change.status.any fun status => status ≠ .approved && status ≠ .disabled then
    deny "invalid_input" 422
  if change.revision < 1 then deny "invalid_revision" 422
  return role

/-- The role and the status change, and with the role the assignments. -/
def Db.move (db : Db) (id : ℕ) (row : Row) (role : AccountRole) (status : Status)
    (roles : Option (List Role)) : Db :=
  let moved := { db with accounts := db.accounts.put id ⟨role, status, row.revision + 1⟩ }
  if role = row.role then moved
  else moved.assign id (match roles with
    -- Promotion makes an administrator; demotion takes every role.
    | some roles => roles.toFinset
    | none => if role = .admin then {.admin} else ∅)

/-- The guards of a change of the role or the status. -/
def Db.guardMove (db : Db) (actor : Actor) (id : ℕ) (row : Row) (role : AccountRole)
    (status : Status) : Except Denied Unit := do
  if id = actor.account.id ∧ ¬ (role = .admin ∧ status = .approved) then
    deny "self_admin_revocation" 409
  if row.role = .admin ∧ row.status = .approved ∧ ¬ (role = .admin ∧ status = .approved) then
    let remaining := (db.accounts.rows.filter fun other =>
      other.2.role = .admin ∧ other.2.status = .approved).length
    if remaining ≤ 1 then deny "last_admin_required" 409
    -- Only an owner changes an owner's roles, and one owner stays.
    if Role.owner ∈ db.roles id row then
      requirePermission actor .rolesManage
      if db.owners ≤ 1 then deny "last_owner_required" 409
  if db.requests.contains id then deny "request_pending" 409

/-- `AccountService.update`. -/
def Db.update (db : Db) (actor : Actor) (id : ℕ) (change : Change) : Except Denied Db := do
  let asked ← change.asked actor
  if !(db.accounts.lookup actor.account.id).any fun current =>
      current.role = .admin && current.status = .approved then
    deny "permission_denied" 403
  let some row := db.accounts.lookup id | deny "resource_not_found" 404
  if (db.deletions.lookup id).isSome then deny "account_deleting" 409
  if row.revision ≠ change.revision then deny "revision_conflict" 412
  let role := asked.getD row.role
  let status := change.status.getD row.status
  let current := db.roles id row
  let changed := change.roles.any fun roles => roles.toFinset ≠ current
  if changed ∧ Role.owner ∈ current ∧ ¬ change.roles.any fun roles => Role.owner ∈ roles then
    if db.owners ≤ 1 then deny "last_owner_required" 409
  if row.role = .admin ∧ status ≠ .approved then
    deny (if id = actor.account.id then "self_admin_revocation" else "admin_block_forbidden") 409
  if (role, status) = (row.role, row.status) then
    if changed then
      -- Staff roles change; the account stays staff.
      let assigned := db.assign id (change.roles.getD []).toFinset
      return { assigned with accounts := assigned.accounts.alter id fun row =>
        { row with revision := row.revision + 1 } }
    return db
  db.guardMove actor id row role status
  return db.move id row role status change.roles

/-- `is_admin_profile`. -/
def Db.isAdminProfile (db : Db) (profile : ℕ) : Bool :=
  ((db.profiles.lookup profile).bind id).any fun owner =>
    (db.accounts.lookup owner).any fun row => row.role = .admin

/-- `ProfileCommands.execute` with the delete action. -/
def Db.deleteProfile (db : Db) (actor : Actor) (profile : ℕ) (finished : ℕ → Bool) :
    Except Denied Db := do
  requirePermission actor .profilesManage
  let some owner := db.profiles.lookup profile | deny "resource_not_found" 404
  if db.profileDeletions.contains profile then deny "profile_deleting" 409
  if owner = some actor.account.id || db.isAdminProfile profile then
    deny "admin_profile_protected" 409
  let deleted := { db with profileDeletions := profile :: db.profileDeletions }
  let begun := match owner with
    | none => deleted
    | some account => deleted.begin account
  return begun.settle finished

/-! Merges. -/

inductive Side | main | other
  deriving DecidableEq, Repr

/-- Approved and not being deleted. -/
def Db.active (db : Db) (id : ℕ) : Bool :=
  (db.accounts.lookup id).any (fun row => row.status = .approved) &&
    (db.deletions.lookup id).isNone

/-- The account's first profile that is not being deleted. -/
def Db.profileOf (db : Db) (id : ℕ) : Option ℕ :=
  ((db.profiles.rows.filter fun profile =>
    profile.2 = some id && !db.profileDeletions.contains profile.1).map Prod.fst).min?

def Db.telegramOf (db : Db) (id : ℕ) : Option String :=
  ((db.identities.rows.filter fun identity =>
    identity.1.1 = "telegram" && identity.2 = id).map fun identity => identity.1.2).head?

def Db.bump (db : Db) (id : ℕ) : Db :=
  { db with accounts := db.accounts.alter id fun row => { row with revision := row.revision + 1 } }

/-- The Telegram that the main account lacks moves to it. -/
def Db.moveTelegram (db : Db) (main other : ℕ) : Db :=
  match db.telegramOf main, db.telegramOf other with
  | none, some subject => { db with identities := db.identities.put ("telegram", subject) main }
  | _, _ => db

/-- `_merge`: sign-in and profile go to the main account, and the other is deleted, with the
profile that is not kept. -/
def Db.merge (db : Db) (actor : Actor) (main other : ℕ) (keep : Option Side)
    (finished : ℕ → Bool) : Except Denied Db :=
  let moved := db.moveTelegram main other
  let ended := { moved with requests := moved.requests.filter (· ≠ other) }
  match db.profileOf main, db.profileOf other with
  | none, some profile =>
    let owned := { ended with profiles := ended.profiles.put profile (some main) }
    .ok ((owned.begin other).settle finished)
  | some mine, some theirs =>
    let (kept, drop) := if keep = some .main then (mine, theirs) else (theirs, mine)
    let owned := { ended with
      profiles := (ended.profiles.put kept (some main)).put drop (some other) }
    owned.deleteProfile actor drop finished
  | _, none => .ok ((ended.begin other).settle finished)

/-- `decide`. -/
def Db.decide (db : Db) (actor : Actor) (request : ℕ) (approve : Bool) (keep : Option Side)
    (finished : ℕ → Bool) : Except Denied Db := do
  requirePermission actor .accountsManage
  requirePermission actor .profilesManage
  let some merge := db.merges.lookup request | deny "resource_not_found" 404
  if merge.status ≠ .pending then deny "resource_not_found" 404
  if actor.account.id = merge.main ∨ actor.account.id = merge.other then
    deny "merge_own_request" 403
  if !approve then
    return { db with merges := db.merges.put request { merge with status := .rejected } }
  -- Both accounts wait for the merge, and nothing changes them meanwhile.
  let held := (db.bump merge.main).bump merge.other
  if !held.active merge.main || !held.active merge.other then deny "resource_not_found" 404
  if !(held.accounts.lookup merge.other).any fun row => row.role = .member then
    deny "merge_staff_account" 409
  let choose := (held.profileOf merge.main).isSome && (held.profileOf merge.other).isSome
  if choose ∧ keep = none then deny "merge_profile_choice_required" 422
  if choose ∧ keep = some .other ∧
      (held.accounts.lookup merge.main).any fun row => row.role = .admin then
    deny "admin_access_permanent" 422
  let merged ← held.merge actor merge.main merge.other keep finished
  return { merged with merges := merged.merges.put request { merge with status := .approved } }

/-! Telegram links and registrations. -/

/-- `WITHOUT_ACCESS_SQL`. -/
def Db.withoutAccess (db : Db) (id : ℕ) : Bool :=
  (db.accounts.lookup id).any (fun row => row.role = .member) &&
    (db.profileOf id).isNone && !db.requests.contains id

/-- `link_confirm`: the Telegram is free, or moves from an empty account, which is deleted. -/
def Db.linkConfirm (db : Db) (account link : ℕ) (finished : ℕ → Bool) : Except Denied Db := do
  let some found := db.links.lookup link | deny "telegram_link_invalid" 404
  if found.account ≠ account then deny "telegram_link_invalid" 404
  let bumped := db.bump account
  match bumped.telegramOf account with
  | some own =>
    deny (if own = found.subject then "telegram_already_linked" else "account_has_telegram") 409
  | none =>
    let key := ("telegram", found.subject)
    let used := { bumped with links := bumped.links.keep fun id _ => id ≠ link }
    match bumped.identities.lookup key with
    | none => return { used with identities := used.identities.put key account }
    | some other =>
      if !bumped.withoutAccess other then deny "telegram_account_has_access" 409
      let freed := { used with identities := used.identities.keep fun id _ => id ≠ key }
      let begun := (freed.begin other).settle finished
      return { begun with identities := begun.identities.put key account }

/-- `RegistrationCleanup.run_one` for the account it found idle. -/
def Db.cleanup (db : Db) (id : ℕ) (finished : ℕ → Bool) : Db :=
  if db.registrations.contains id && db.withoutAccess id && (db.deletions.lookup id).isNone then
    (db.begin id).settle finished
  else db

/-- A person gets an account: a registration, an invite, an approved request or a profile. -/
def Db.join (db : Db) (id : ℕ) (registered : Bool) : Except Denied Db :=
  if (db.accounts.lookup id).isSome then deny "account_exists" 409
  else .ok { db with
    accounts := db.accounts.put id ⟨.member, .approved, 1⟩
    registrations := if registered then id :: db.registrations else db.registrations }

/-! Backups. -/

/-- The tables of a backup, of this controller or another. -/
structure Snapshot where
  accounts : Table ℕ Row
  assignments : ℕ → Finset Role
  identities : Table (String × String) ℕ
  profiles : Table ℕ (Option ℕ)
  requests : List ℕ
  registrations : List ℕ

/-- `create_snapshot`: accounts in deletion are left out with all that is theirs. -/
def Db.createSnapshot (db : Db) : Snapshot :=
  let stays (account : ℕ) : Bool := (db.deletions.lookup account).isNone
  { accounts := db.accounts.keep fun id _ => stays id
    assignments := fun id => if stays id then db.assignments id else ∅
    identities := db.identities.keep fun _ account => stays account
    profiles := db.profiles.keep fun _ owner => owner.all stays
    requests := db.requests.filter stays
    registrations := db.registrations.filter stays }

/-- One of the restoring administrator's sign-in identities: the account it was in the backup, if
not its own. A stranger is a conflict. -/
def Snapshot.remapOne (snapshot : Snapshot) (actor : ℕ) (former : List ℕ) (key : String × String) :
    Except Denied (List ℕ) :=
  match snapshot.identities.lookup key with
  | none => .ok former
  | some account =>
    if account = actor then .ok former
    else if key.1 = "telegram" ∧ (snapshot.accounts.lookup account).any fun row =>
        row.role = .admin && row.status = .approved then .ok (former.insert account)
    else deny "backup_identity_conflict" 409

/-- The accounts of the backup that the restoring administrator was there. -/
def Snapshot.remap (snapshot : Snapshot) (actor : ℕ) (own : List (String × String)) :
    Except Denied (List ℕ) :=
  own.foldlM (snapshot.remapOne actor) []

/-- `_restore`, after the worker's checks of its administrator. The restoring administrator
keeps its account, its sign-in identities and the roles it has now. -/
def Db.restore (db : Db) (actor : Actor) (snapshot : Snapshot) : Except Denied Db := do
  let some current := db.accounts.lookup actor.account.id | deny "permission_denied" 403
  if ¬ (current.role = .admin ∧ current.status = .approved) then deny "permission_denied" 403
  requirePermission actor .settingsManage
  let me := actor.account.id
  let own := (db.identities.rows.filter fun identity => identity.2 = me).map Prod.fst
  let former ← snapshot.remap me own
  if 1 < former.length then deny "backup_identity_conflict" 409
  let mapped (account : ℕ) : ℕ := if account ∈ former then me else account
  -- Two rows of one account and role break the table's key.
  if former.any fun old => snapshot.assignments old ∩ snapshot.assignments me ≠ ∅ then
    deny "backup_failed" 409
  let kept := snapshot.accounts.keep fun id _ => id ≠ me && !former.contains id
  let identities := snapshot.identities.mapRows fun _ account => mapped account
  return {
    accounts := kept.put me current
    assignments := fun id =>
      if id = me then db.assignments me
      else if id ∈ former then ∅
      else snapshot.assignments id
    identities := own.foldl (fun identities key => identities.put key me) identities
    profiles := snapshot.profiles.mapRows fun _ owner => owner.map mapped
    profileDeletions := []
    deletions := ∅
    requests := snapshot.requests.map mapped
    registrations := snapshot.registrations.map mapped
    merges := ∅
    links := ∅ }

/-! The commands, each for the account that asks. -/

/-- Who asks: the account of a verified credential, and the credential's scopes. -/
structure Principal where
  account : ℕ
  scopes : List Permission
  deriving DecidableEq, Repr

/-- `resolve_actor`: roles and status are read on every invocation. -/
def Db.actor (db : Db) (principal : Principal) : Except Denied Actor :=
  match db.accounts.lookup principal.account with
  | none => deny "identity_not_registered" 401
  | some row =>
    if row.status = .disabled then deny "account_disabled" 403
    else if row.status ≠ .approved then deny "invalid_account_state" 403
    else .ok ⟨principal.scopes,
      ⟨principal.account, row.role, row.status, db.accountRoles principal.account row⟩⟩

inductive Command
  | join (id : ℕ) (registered : Bool)
  | update (principal : Principal) (id : ℕ) (change : Change)
  | decide (principal : Principal) (request : ℕ) (approve : Bool) (keep : Option Side)
      (finished : ℕ → Bool)
  | deleteProfile (principal : Principal) (profile : ℕ) (finished : ℕ → Bool)
  | linkConfirm (account link : ℕ) (finished : ℕ → Bool)
  | cleanup (id : ℕ) (finished : ℕ → Bool)
  | settle (finished : ℕ → Bool)
  | restore (principal : Principal) (snapshot : Snapshot)

def Db.apply (db : Db) : Command → Except Denied Db
  | .join id registered => db.join id registered
  | .update principal id change => do db.update (← db.actor principal) id change
  | .decide principal request approve keep finished => do
    db.decide (← db.actor principal) request approve keep finished
  | .deleteProfile principal profile finished => do
    db.deleteProfile (← db.actor principal) profile finished
  | .linkConfirm account link finished => db.linkConfirm account link finished
  | .cleanup id finished => .ok (db.cleanup id finished)
  | .settle finished => .ok (db.settle finished)
  | .restore principal snapshot => do db.restore (← db.actor principal) snapshot

/-- A refused command leaves nothing of its transaction. -/
def Db.next (db : Db) (command : Command) : Db :=
  match db.apply command with
  | .ok after => after
  | .error _ => db

def Db.run (db : Db) (commands : List Command) : Db := commands.foldl Db.next db

end Accounts
end NodePlane
