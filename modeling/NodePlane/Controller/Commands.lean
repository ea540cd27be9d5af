import NodePlane.Controller.Outbox

/-! Commands on profiles and devices. Each records an operation at a new revision of
the profile; which grants a policy resolves to is an input. -/
namespace NodePlane
namespace Controller
open Library OperationRepository

def Access.isAdmin (a : Access) (profile : Uuid) : Bool :=
  (a.profiles.lookup profile).any fun p => a.admins.contains p.owner

def Access.deleting (a : Access) (profile : Uuid) : Bool := (a.deletions.lookup profile).isSome

namespace GrantPolicies

/-- `materialize`: `rows` is what the profile's policy resolves to. -/
def materialize (db : Db) (profile : Uuid) (rows : List Target) : Db :=
  let rows := if db.access.deleting profile then [] else rows
  { db with
    access.grants := (db.access.grants.filter fun g => g.profile ≠ profile) ++
      rows.map fun t => ⟨profile, t.1, t.2⟩ }

/-- One profile whose grants `materialize` changed. -/
def refresh (now : Time) (actor : Uuid) (db : Db) (change : Uuid × List Target) : Db :=
  let previous := targets db change.1
  record (bump (materialize db change.1 change.2) change.1) now actor change.1 previous none

/-- Refresh derived grants and enqueue the ordinary revision-fenced outbox. -/
def reconcile (db : Db) (now : Time) (actor : Uuid) (changes : List (Uuid × List Target)) : Db :=
  changes.foldl (refresh now actor) db

end GrantPolicies

namespace ProfileCommands
open GrantPolicies

/-- `validate_grants`: access is granted on enabled nodes only. -/
def unavailable (f : Fleet) (grants : List Target) : Bool :=
  grants.any fun t => !(f.nodes.lookup t.1).any fun n => n.enabled && n.protocols.contains t.2

/-- The fields that the actions `edit`, `grants`, `policy`, `tariff` and `renew`
change; `rows` are the grants that a changed policy resolves to. -/
structure Edit where
  frozen : Option Bool
  expiresAt : Option (Option Time)
  explicit : List Target
  rows : Option (List Target)

def Edit.apply (e : Edit) (p : Profile) : Profile :=
  { p with frozen := e.frozen.getD p.frozen, expiresAt := e.expiresAt.getD p.expiresAt }

def setProfile (db : Db) (profile : Uuid) (f : Profile → Profile) : Db :=
  { db with access.profiles := db.access.profiles.alter profile f }

def create (db : Db) (now : Time) (actor owner : Uuid) (expiresAt : Option Time)
    (explicit rows : List Target) : Result Db :=
  admitted db <|
    deny (db.access.accountDeletions.contains owner) "account_deleting" <|
    deny (db.access.profiles.has fun _ p => p.owner = owner) "account_profile_exists" <|
    deny (unavailable db.fleet explicit) "grant_target_unavailable" <|
    deny (expiresAt.isSome && db.access.admins.contains owner) "admin_expiry_forbidden" <|
      let profile := db.fresh
      let db := { db with
        access.profiles := db.access.profiles.put profile ⟨owner, 1, false, expiresAt, false⟩
        fresh := db.fresh + 1 }
      .ok (record (materialize db profile rows) now actor profile [] none)

def edit (db : Db) (now : Time) (actor profile : Uuid) (revision : ℕ) (e : Edit) : Result Db :=
  admitted db <|
    need (db.access.profiles.lookup profile) "resource_not_found" fun row =>
    deny (db.access.deleting profile) "profile_deleting" <|
    deny (row.desiredRevision ≠ revision) "revision_conflict" <|
    deny (db.access.isAdmin profile && e.frozen = some true) "admin_freeze_forbidden" <|
    deny (db.access.isAdmin profile && e.rows.isSome) "admin_access_permanent" <|
    deny (unavailable db.fleet e.explicit) "grant_target_unavailable" <|
    deny (db.access.isAdmin profile && e.expiresAt.any Option.isSome) "admin_expiry_forbidden" <|
      let previous := targets db profile
      let db := setProfile db profile e.apply
      let db := match e.rows with
        | none => db
        | some rows => materialize db profile rows
      .ok (record (bump db profile) now actor profile previous none)

/-- The device status after its profile is deleted. -/
def retire (a : Access) (profile : Uuid) : Table Uuid Device :=
  a.devices.mapRows fun _ d =>
    if d.profile = profile ∧ d.status = .active then { d with status := .deleting } else d

def delete (db : Db) (now : Time) (actor profile : Uuid) (revision : ℕ) : Result Db :=
  admitted db <|
    need (db.access.profiles.lookup profile) "resource_not_found" fun row =>
    deny (db.access.deleting profile) "profile_deleting" <|
    deny (row.desiredRevision ≠ revision) "revision_conflict" <|
    deny (db.access.isAdmin profile) "admin_profile_protected" <|
      let previous := targets db profile
      let db := { db with
        access.deletions := db.access.deletions.put profile none
        access.grants := db.access.grants.filter fun g => g.profile ≠ profile
        access.accountDeletions := row.owner :: db.access.accountDeletions
        access.devices := retire db.access profile }
      let db := bump (setProfile db profile fun p => { p with frozen := true }) profile
      let db := record db now actor profile previous none
      let db := { db with
        access.deletions := db.access.deletions.put profile (lastOperation db) }
      .ok (AccountDeletions.settle db)

/-- One profile of an administrator, whose access is permanent. -/
def restoreAdminExpiry (now : Time) (changes : List (Uuid × List Target)) (db : Db)
    (profile : Uuid) : Db :=
  match db.access.profiles.lookup profile with
  | none => db
  | some row =>
    let previous := targets db profile
    match changes.lookup profile with
    | some rows =>
      let db := materialize db profile rows
      let db := setProfile db profile fun p => { p with frozen := false, expiresAt := none }
      record (bump db profile) now row.owner profile previous none
    | none =>
      if !row.frozen && row.expiresAt.isNone then db
      else
        let db := setProfile db profile fun p => { p with frozen := false, expiresAt := none }
        record (bump db profile) now row.owner profile previous none

def adminProfiles (a : Access) : List Uuid :=
  (a.profiles.rows.filter fun p => a.admins.contains p.2.owner && !a.deleting p.1).map Prod.fst

/-- `changes` are the profiles whose grants `materialize` changed. -/
def restoreAdminExpiries (db : Db) (now : Time) (changes : List (Uuid × List Target)) : Db :=
  (adminProfiles db.access).foldl (restoreAdminExpiry now changes) db

end ProfileCommands

namespace Quotas

/-- `_change_access`: attributed to the account behind the latest operation. -/
def changeAccess (db : Db) (now : Time) (profile : Uuid) : Db :=
  match (db.outbox.operations.filter fun o => o.profile = profile).getLast? with
  | none => db
  | some latest => record (bump db profile) now latest.actor profile (targets db profile) none

/-- A suspension that an open period begins or ends. -/
def suspend (db : Db) (now : Time) (profile : Uuid) (blocked : Bool) : Db :=
  changeAccess (ProfileCommands.setProfile db profile fun p => { p with blocked := blocked })
    now profile

end Quotas

namespace DeviceCommands
open DeviceCredentials

inductive Change where
  | create (limit : Option ℕ) (revision : ℕ)
  | rotate (device : Uuid) (protocol : Protocol)
  | delete (device : Uuid)

/-- `select_active`. -/
def selectActive {α : Type} (db : Db) (profile device : Uuid) (rest : Device → Result α) :
    Result α :=
  need (db.access.devices.lookup device) "resource_not_found" fun row =>
    deny (row.profile ≠ profile) "resource_not_found" <|
      deny (row.status ≠ .active) "device_unavailable" <| rest row

def activeCount (a : Access) (profile : Uuid) : ℕ :=
  ((devicesOf a profile).filter fun d => d.2.status = .active).length

/-- The rows that the command changes, before its operation is recorded. -/
def prepare (db : Db) (now : Time) (profile : Uuid) (row : Profile) : Change → Result Db
  | .create limit revision =>
    deny row.frozen "profile_frozen" <|
    deny (row.expiresAt.any (· ≤ now)) "profile_expired" <|
    deny row.blocked "quota_exhausted" <|
    deny (limit.any (· ≤ activeCount db.access profile)) "device_limit_reached" <|
    deny (row.desiredRevision ≠ revision) "revision_conflict" <|
      let device := db.fresh
      let created : Device := ⟨profile, db.fresh + 1, .active⟩
      .ok (ensureXray { db with
        access.devices := db.access.devices.put device created
        fresh := db.fresh + 2 } device created)
  | .rotate device .xray =>
    selectActive db profile device fun row => .ok (rotateXray db device row)
  | .rotate device .awg =>
    selectActive db profile device fun row => .ok (rotateAwg db device row)
  | .delete device =>
    selectActive db profile device fun _ => .ok { db with
      access.devices := db.access.devices.alter device fun d => { d with status := .deleting } }

def execute (db : Db) (now : Time) (actor profile : Uuid) (change : Change) : Result Db :=
  admitted db <|
    need (db.access.profiles.lookup profile) "resource_not_found" fun row =>
    deny (db.access.deleting profile) "profile_deleting" <|
      (prepare db now profile row change).bind fun db =>
        let previous := targets db profile
        .ok (DeviceRepository.settleDeletions
          (record (bump db profile) now actor profile previous none))

end DeviceCommands

/-! Revocations limited to some targets of a profile. -/
namespace ProtocolRemoval

/-- Profiles with a grant, or any task, for these protocols of the node. -/
def affected (db : Db) (node : NodeKey) (removed : List Protocol) : List Uuid :=
  ((db.access.grants.filter fun g => g.node = node && removed.contains g.protocol).map
      Grant.profile ++
    (db.outbox.tasks.filter fun t => t.row.node = node && removed.contains t.row.protocol).map
      fun t => t.row.profile).dedup

/-- A queued ensure of the profile for a removed protocol. -/
def queued (node : NodeKey) (removed : List Protocol) (profile : Uuid) (t : Task) : Bool :=
  t.row.node = node && removed.contains t.row.protocol && t.row.action = .ensure &&
    t.status = .awaitingExecutor && t.row.profile = profile

/-- Retire queued ensures so they cannot execute after the newer revocation. -/
def retireQueued (db : Db) (node : NodeKey) (removed : List Protocol) (profile : Uuid) : Db :=
  let operations := ((db.outbox.tasks.filter (queued node removed profile)).map
    fun t => t.row.operation).dedup
  operations.foldl summarize (mark db (queued node removed profile) .superseded)

def revokeProfile (now : Time) (actor : Uuid) (node : NodeKey) (removed : List Protocol)
    (previous : Uuid → List Target) (db : Db) (profile : Uuid) : Db :=
  record (bump (retireQueued db node removed profile) profile) now actor profile
    (previous profile) (some (removed.map fun p => (node, p)))

def revokeRemovedProtocols (db : Db) (now : Time) (actor : Uuid) (node : NodeKey)
    (removed : List Protocol) : Db :=
  if removed = [] then db
  else
    let previous := fun profile => targets db profile ++ removed.map fun p => (node, p)
    let profiles := affected db node removed
    let db := { db with
      access.grants := db.access.grants.filter fun g =>
        !(g.node = node && removed.contains g.protocol) }
    profiles.foldl (revokeProfile now actor node removed previous) db

/-- `is_revocation_confirmed`; `terminal` is its check of temporary configurations. -/
def isRevocationConfirmed (db : Db) (node : NodeKey) (removed : List Protocol)
    (terminal : Bool) : Bool :=
  let tasks := db.outbox.tasks.filter fun t => t.row.node = node && removed.contains t.row.protocol
  removed.isEmpty ||
    (!(db.access.grants.any fun g => g.node = node && removed.contains g.protocol) &&
      tasks.all (fun t => !t.status.pending) &&
      tasks.all (fun t =>
        (tasks.any fun u => u.row.protocol = t.row.protocol && u.row.device = t.row.device &&
          u.row.profile = t.row.profile && t.row.revision < u.row.revision) ||
        (t.row.action = .delete && t.status = .succeeded)) &&
      terminal)

end ProtocolRemoval

namespace ForceRecovery

/-- Latest exact forced cancellations which still need explicit resync. -/
def forcedTasks (db : Db) (node : NodeKey) : List Task :=
  db.outbox.tasks.filter fun t => t.row.node = node && t.status = .superseded && t.forced &&
    !db.outbox.tasks.any fun u => u.row.node = t.row.node && u.row.protocol = t.row.protocol &&
      u.row.device = t.row.device && u.row.profile = t.row.profile &&
      t.row.revision < u.row.revision

def forcedTargets (tasks : List Task) (profile : Uuid) : List Target :=
  (tasks.filter fun t => t.row.profile = profile).map fun t => (t.row.node, t.row.protocol)

def resumeProfile (now : Time) (actor : Uuid) (forced : List Task) (db : Db) (profile : Uuid) :
    Db :=
  record (bump db profile) now actor profile (forcedTargets forced profile)
    (some (forcedTargets forced profile))

/-- An explicit apply or reconcile retries desired access with fresh identities. -/
def resumeForcedProfileTargets (db : Db) (now : Time) (actor : Uuid) (node : NodeKey) : Db :=
  let forced := forcedTasks db node
  (forced.map fun t => t.row.profile).dedup.foldl (resumeProfile now actor forced) db

end ForceRecovery
end Controller
end NodePlane
