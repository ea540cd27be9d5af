import NodePlane.Controller.Nodes

/-! The executor of profile operations: the expiry pass, claims and results. -/
namespace NodePlane
namespace Controller
open Library OperationRepository
namespace IntentExecutor

/-- `refresh_operation`. -/
def refreshOperation (db : Db) (operation : Uuid) : Db :=
  AccountDeletions.settle (DeviceRepository.settleDeletions (summarize db operation))

def recover (db : Db) : Db :=
  let db := mark db (fun t => t.status = .running) .blocked
  { db with
    outbox.operations := db.outbox.operations.map fun o =>
      if o.status = .pending .running then { o with status := .pending .blocked } else o }

/-! The expiry pass. -/

def expired (a : Access) (now : Time) (profile : Uuid) (row : Profile) : Bool :=
  !row.frozen && row.expiresAt.any (· ≤ now) && !a.deleting profile

/-- A live operation at the profile's revision: one with an ensure. -/
def granting (o : Outbox) (profile : Uuid) (revision : ℕ) : List Operation :=
  o.operations.filter fun op => op.profile = profile && op.desiredRevision = revision &&
    o.tasks.any fun t => t.row.operation = op.id && t.row.action = .ensure

/-- `ORDER BY p.expires_at, p.id`. -/
def dueBefore (p q : (Uuid × Profile) × Operation) : Bool :=
  p.1.2.expiresAt.getD 0 < q.1.2.expiresAt.getD 0 ||
    (p.1.2.expiresAt.getD 0 = q.1.2.expiresAt.getD 0 && p.1.1 ≤ q.1.1)

/-- The rows that one pass sees. -/
def due (db : Db) (now : Time) : List ((Uuid × Profile) × Operation) :=
  (((db.access.profiles.rows.filter fun p => expired db.access now p.1 p.2).flatMap fun p =>
    (granting db.outbox p.1 p.2.desiredRevision).map fun o => (p, o)).mergeSort dueBefore).take 100

/-- Queue the revocation of one due profile, unless its revision has moved on. -/
def expire (now : Time) (state : Db × List (Uuid × ℕ)) (row : (Uuid × Profile) × Operation) :
    Db × List (Uuid × ℕ) :=
  let profile := row.1.1
  let revision := row.1.2.desiredRevision
  match state.1.access.profiles.lookup profile with
  | none => state
  | some current =>
    if current.desiredRevision = revision then
      let db := bump state.1 profile
      (record db now row.2.actor profile (targets db profile) none,
        state.2 ++ [(profile, revision)])
    else state

/-- Turn reached expiries into durable revocations once per revision; reports the
revisions it queued. -/
def queueExpiredProfiles (db : Db) (now : Time) (changes : List (Uuid × List Target)) :
    Db × List (Uuid × ℕ) :=
  if db.maintenance.active then (db, [])
  else
    let db := ProfileCommands.restoreAdminExpiries db now changes
    (due db now).foldl (expire now) (db, [])

/-! Claims. -/

/-- The node exists and no longer wants the protocol. -/
def unwanted (f : Fleet) (row : TaskRow) : Bool :=
  (f.nodes.lookup row.node).any fun n => !n.protocols.contains row.protocol

/-- Settings of the protocol still have to be applied to the node. -/
def waiting (f : Fleet) (row : TaskRow) : Bool :=
  (f.nodes.lookup row.node).any fun n => 0 < n.appliedRevision &&
    n.appliedRevision ≠ n.desiredRevision && n.protocols.contains row.protocol

/-- A queued task of another protocol does not hold up the delete that removes a
protocol no longer wanted. -/
def bypassed (f : Fleet) (row : TaskRow) (earlier : Task) : Bool :=
  row.action = .delete && earlier.row.protocol ≠ row.protocol &&
    earlier.status = .awaitingExecutor && unwanted f row

/-- An earlier task of the profile on the node that has not finished. -/
def heldUp (db : Db) (row : TaskRow) : Bool :=
  db.outbox.tasks.any fun earlier => earlier.row.node = row.node &&
    earlier.row.profile = row.profile && earlier.row.revision < row.revision &&
    !earlier.status.finished && !bypassed db.fleet row earlier

def claimable (db : Db) (t : Task) : Bool :=
  t.status = .awaitingExecutor &&
  (t.row.action = .delete || !waiting db.fleet t.row) &&
  !(db.fleet.settingsTasks.any fun s => s.node = t.row.node &&
    (s.status.held || (s.status = .awaitingExecutor && !unwanted db.fleet t.row))) &&
  !db.fleet.jobPending t.row.node && !taskHeld db t.row.node && !heldUp db t.row

/-- The row that the claim of `id` reads: the oldest claimable operation goes first,
and identities are random. -/
def candidate (db : Db) (id : Uuid) : Option Task :=
  db.outbox.tasks.find? fun t => t.row.id = id && claimable db t &&
    db.outbox.tasks.all fun u => !claimable db u || t.row.createdAt ≤ u.row.createdAt

/-- An ensure that must not be sent any more: its node is gone or disabled, the
device is inactive, or the protocol was removed. -/
def obsolete (db : Db) (row : TaskRow) : Bool :=
  row.action = .ensure &&
    ((db.fleet.nodes.lookup row.node).all fun n =>
        !n.enabled || !n.protocols.contains row.protocol) ||
  row.action = .ensure &&
    (db.access.devices.lookup row.device).all fun d => d.status ≠ .active

def byId (id : Uuid) (t : Task) : Bool := t.row.id = id

/-- The claim of `run_one`: the row to send, or none when it was retired instead. -/
def claim (db : Db) (id : Uuid) : Option (Db × Option TaskRow) :=
  if db.maintenance.coreUpgrade then none
  else
    match candidate db id with
    | none => none
    | some t =>
      if obsolete db t.row then
        some (refreshOperation (mark db (byId id) .superseded) t.row.operation, none)
      else
        some (setOperation (mark db (byId id) .running) t.row.operation (.pending .running),
          some t.row)

/-- Never provision an expired snapshot. -/
def lapsed (now : Time) (row : TaskRow) : Bool :=
  row.action = .ensure && row.intent.expiresAt.any (· ≤ now)

/-- The result of a claimed task. -/
def finish (db : Db) (row : TaskRow) (succeeded : Bool) : Db :=
  refreshOperation
    (mark db (fun t => byId row.id t && t.status = .running)
      (if succeeded then .succeeded else .blocked))
    row.operation

/-- One row of `reconcile_completed`, or of a recheck: the agent's journal confirms
a blocked task. -/
def confirm (db : Db) (id : Uuid) : Db :=
  match db.outbox.tasks.find? fun t => byId id t && t.status = .blocked with
  | none => db
  | some t =>
    refreshOperation (mark db (fun t => byId id t && t.status = .blocked) .succeeded)
      t.row.operation

/-- Work of the profile on the node that a repair retires. -/
def retiredBy (row : TaskRow) (t : Task) : Bool :=
  t.row.profile = row.profile && t.row.node = row.node &&
    (t.status = .awaitingExecutor || t.status = .blocked)

/-- Trusted admin repair: retire the uncertain task and queue the desired state. -/
def resolveBlocked (db : Db) (now : Time) (actor : Uuid) (id : Uuid) : Result Db :=
  need (db.outbox.tasks.find? fun t => byId id t && t.status = .blocked) "task_not_blocked"
    fun t =>
    let operations := ((db.outbox.tasks.filter (retiredBy t.row)).map
      fun u => u.row.operation).dedup
    let db := operations.foldl refreshOperation (mark db (retiredBy t.row) .superseded)
    let db := bump db t.row.profile
    let db := record db now actor t.row.profile (targets db t.row.profile) none
    let db := { db with
      access.deletions := db.access.deletions.alter t.row.profile fun _ => lastOperation db }
    .ok (AccountDeletions.settle db)

end IntentExecutor
end Controller
end NodePlane
