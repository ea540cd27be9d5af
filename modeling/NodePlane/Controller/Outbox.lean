import NodePlane.Controller.Database

/-! The transactional outbox: recording an operation of a profile, and what a
finished task settles. -/
namespace NodePlane
namespace Controller
open Library

/-! Device credentials. -/
namespace DeviceCredentials

/-- A client that operations address: a device, or a retired AWG peer. -/
structure Peer where
  id : Uuid
  status : DeviceStatus
  runtimeName : Uuid
  uuid : Option Uuid
  deriving DecidableEq

def devicesOf (a : Access) (profile : Uuid) : List (Uuid × Device) :=
  a.devices.rows.filter fun d => d.2.profile = profile

/-- The device's Xray client, created on first use. -/
def ensureXray (db : Db) (device : Uuid) (row : Device) : Db :=
  match db.access.credentials.lookup device with
  | some _ => db
  | none =>
    { db with
      access.credentials := db.access.credentials.put device ⟨row.runtimeName, db.fresh⟩
      fresh := db.fresh + 1 }

def ensureXrayAll (db : Db) (profile : Uuid) : Db :=
  ((devicesOf db.access profile).filter fun d => d.2.status = .active).foldl
    (fun db d => ensureXray db d.1 d.2) db

/-- Every device that has an Xray client, with that client's identity. -/
def xrayPeers (a : Access) (profile : Uuid) : List Peer :=
  (devicesOf a profile).filterMap fun d =>
    (a.credentials.lookup d.1).map fun c => ⟨d.1, d.2.status, c.runtimeName, some c.uuid⟩

/-- Old AWG peers to revoke, shaped like deleted devices for operations. -/
def retiredAwgPeers (a : Access) (profile : Uuid) : List Peer :=
  (a.retiredPeers.rows.filter fun r => r.2.profile = profile).map fun r =>
    ⟨r.1, .retired, r.2.runtimeName, none⟩

def awgPeers (a : Access) (profile : Uuid) : List Peer :=
  (devicesOf a profile).map (fun d => ⟨d.1, d.2.status, d.2.runtimeName, none⟩) ++
    retiredAwgPeers a profile

def peers (a : Access) (profile : Uuid) : Protocol → List Peer
  | .awg => awgPeers a profile
  | .xray => xrayPeers a profile

/-- `rotate_xray`: a new UUID for the same client. -/
def rotateXray (db : Db) (device : Uuid) (row : Device) : Db :=
  let db := ensureXray db device row
  { db with
    access.credentials := db.access.credentials.alter device fun c => { c with uuid := db.fresh }
    fresh := db.fresh + 1 }

/-- `rotate_awg`: the old peer is revoked from every node under its own task slot. -/
def rotateAwg (db : Db) (device : Uuid) (row : Device) : Db :=
  { db with
    access.retiredPeers := db.access.retiredPeers.put db.fresh ⟨row.profile, row.runtimeName⟩
    access.devices := db.access.devices.alter device fun d =>
      { d with runtimeName := db.fresh + 1 }
    fresh := db.fresh + 2 }

end DeviceCredentials

/-! Settlement of deleted devices, retired peers and deleted accounts. -/
namespace DeviceRepository

/-- `ORDER BY o.desired_revision DESC, o.created_at DESC, t.id DESC`. -/
def newer (t u : TaskRow) : Bool :=
  u.revision < t.revision || (u.revision = t.revision &&
    (u.createdAt < t.createdAt || (u.createdAt = t.createdAt && u.id < t.id)))

def deviceTasks (db : Db) (profile device : Uuid) : List Task :=
  db.outbox.tasks.filter fun t => t.row.profile = profile && t.row.device = device

/-- The last of these tasks on each node. -/
def latest (tasks : List Task) : List Task :=
  tasks.filter fun t => tasks.all fun u => u.row.node ≠ t.row.node || !newer u.row t.row

/-- The node's host was checked when it was retired. -/
def verified (db : Db) (node : NodeKey) : Bool :=
  db.fleet.retirements.lookup node = some .verified

def uncertain (db : Db) (tasks : List Task) : Bool :=
  tasks.any fun t => !verified db t.row.node && t.status.pending

def removed (db : Db) (tasks : List Task) : Bool :=
  (latest tasks).all fun t =>
    verified db t.row.node || (t.row.action = .delete && t.status = .succeeded)

/-- `settle_retired_peers` forgets old peers once every node removed them. -/
def settleRetiredPeers (db : Db) : Db :=
  { db with
    access.retiredPeers := db.access.retiredPeers.keep fun slot peer =>
      !removed db (deviceTasks db peer.profile slot) }

def settleDeletions (db : Db) : Db :=
  settleRetiredPeers
    { db with
    access.devices := db.access.devices.mapRows fun id d =>
        if d.status = .deleting ∧ uncertain db (deviceTasks db d.profile id) = false ∧
            removed db (deviceTasks db d.profile id) = true then
          { d with status := .retired }
        else d }

end DeviceRepository

namespace AccountDeletions

def operationDone (db : Db) (operation : Option Uuid) : Bool :=
  db.outbox.operations.any fun o => some o.id = operation &&
    (o.status = .noTargets || o.status = .pending .succeeded)

/-- Every profile of the account is deleted, and its revocation has succeeded. -/
def complete (db : Db) (account : Uuid) : Bool :=
  db.access.profiles.rows.all fun p => p.2.owner ≠ account ||
    (match db.access.deletions.lookup p.1 with
      | none => false
      | some operation => operationDone db operation)

def owned (a : Access) (accounts : List Uuid) (profile : Uuid) : Bool :=
  (a.profiles.lookup profile).any fun p => accounts.contains p.owner

def settle (db : Db) : Db :=
  let done := db.access.accountDeletions.filter (complete db)
  { db with
    access.devices := db.access.devices.mapRows fun _ d =>
      if owned db.access done d.profile then { d with status := .retired } else d
    access.accountDeletions := db.access.accountDeletions.filter fun a => !done.contains a }

end AccountDeletions

namespace OperationRepository

/-- `targets`: a removed grant may still exist remotely, so every task counts. -/
def targets (db : Db) (profile : Uuid) : List Target :=
  (db.access.grants.filter fun g => g.profile = profile).map Grant.target ++
    (db.outbox.tasks.filter fun t => t.row.profile = profile).map
      fun t => (t.row.node, t.row.protocol)

def currentTargets (db : Db) (profile : Uuid) : List Target :=
  (db.access.grants.filter fun g => g.profile = profile).map Grant.target

def active (profile : Profile) (now : Time) : Bool :=
  !profile.frozen && profile.expiresAt.all (now < ·) && !profile.blocked

/-- No work for a node whose cleanup has begun, or that has been retired. -/
def actionable (db : Db) (profile : Uuid) (target : Target) : Bool :=
  (match target.2 with
    | .awg => !(DeviceCredentials.devicesOf db.access profile).isEmpty
    | .xray => !(DeviceCredentials.xrayPeers db.access profile).isEmpty) &&
  !db.fleet.cleanups.contains target.1 && (db.fleet.retirements.lookup target.1).isNone

def action (db : Db) (profile : Uuid) (row : Profile) (now : Time) (target : Target) : Action :=
  if active row now ∧ (db.fleet.nodes.lookup target.1).any Node.enabled ∧
      target ∈ currentTargets db profile then .ensure else .delete

/-- The task for a peer of a target, before its own identity is drawn. -/
def task (db : Db) (operation : Operation) (row : Profile) (target : Target)
    (peer : DeviceCredentials.Peer) : TaskRow :=
  let act := if peer.status = .active then
    action db operation.profile row operation.createdAt target else .delete
  { id := 0
    operation := operation.id
    createdAt := operation.createdAt
    profile := operation.profile
    revision := operation.desiredRevision
    node := target.1
    protocol := target.2
    device := peer.id
    action := act
    intent :=
      { runtimeName := peer.runtimeName
        expiresAt := row.expiresAt
        xray := if target.2 = .xray ∧ act = .ensure then
          some (peer.uuid.getD 0, (db.access.identities.lookup operation.profile).getD 0)
        else none } }

/-- Fresh identities for new tasks, from `start` on. -/
def number (start : Uuid) (rows : List TaskRow) : List Task :=
  (rows.zipIdx start).map fun r => ⟨{ r.1 with id := r.2 }, .awaitingExecutor, false⟩

def identify (db : Db) (profile : Uuid) : Db :=
  match db.access.identities.lookup profile with
  | some _ => db
  | none =>
    { db with
      access.identities := db.access.identities.put profile db.fresh
      fresh := db.fresh + 1 }

/-- The identities that `record` creates before it reads the peers. -/
def prepare (db : Db) (profile : Uuid) : Db :=
  DeviceCredentials.ensureXrayAll (identify db profile) profile

def selected (db : Db) (profile : Uuid) (previous : List Target) (scope : Option (List Target)) :
    List Target :=
  ((previous ++ currentTargets db profile).dedup.filter fun t => scope.all (·.contains t)).filter
    (actionable db profile)

/-- The operation that `record` appends. -/
def operation (db : Db) (now : Time) (actor profile : Uuid) (row : Profile)
    (chosen : List Target) : Operation where
  id := db.fresh
  profile := profile
  actor := actor
  desiredRevision := row.desiredRevision
  createdAt := now
  status := if chosen = [] then .noTargets else .pending .awaitingExecutor

/-- Its tasks: one for each peer of each target. -/
def rows (db : Db) (o : Operation) (row : Profile) (chosen : List Target) : List TaskRow :=
  chosen.flatMap fun target =>
    (DeviceCredentials.peers db.access o.profile target.2).map (task db o row target)

/-- Append an operation at the profile's revision; `db` is already prepared. -/
def append (db : Db) (now : Time) (actor profile : Uuid) (row : Profile)
    (chosen : List Target) : Db :=
  let o := operation db now actor profile row chosen
  { db with
    outbox.operations := db.outbox.operations ++ [o]
    outbox.tasks := db.outbox.tasks ++ number (db.fresh + 1) (rows db o row chosen)
    fresh := db.fresh + 1 + (rows db o row chosen).length }

/-- `record`: every caller names an existing profile. -/
def record (db : Db) (now : Time) (actor profile : Uuid) (previous : List Target)
    (scope : Option (List Target)) : Db :=
  match db.access.profiles.lookup profile with
  | none => db
  | some row =>
    let db := prepare db profile
    append db now actor profile row (selected db profile previous scope)

/-- The identity that `record` returns. -/
def lastOperation (db : Db) : Option Uuid := db.outbox.operations.getLast?.map Operation.id

def bump (db : Db) (profile : Uuid) : Db :=
  { db with
    access.profiles := db.access.profiles.alter profile fun p =>
      { p with desiredRevision := p.desiredRevision + 1 } }

/-- `UPDATE backend_operation_tasks SET status=… WHERE p`. -/
def mark (db : Db) (p : Task → Bool) (status : Status) : Db :=
  { db with
    outbox.tasks := db.outbox.tasks.map fun t =>
      if p t then { t with status := status } else t }

/-- The status of an operation from those of its tasks. -/
def summary (tasks : List Task) : Status :=
  if tasks.any (·.status = .blocked) then .blocked
  else if tasks.any (·.status = .running) then .running
  else if tasks.any (·.status = .awaitingExecutor) then .awaitingExecutor
  else if tasks.any (·.status = .superseded) then .superseded
  else .succeeded

def setOperation (db : Db) (operation : Uuid) (status : OperationStatus) : Db :=
  { db with
    outbox.operations := db.outbox.operations.map fun o =>
      if o.id = operation then { o with status := status } else o }

def summarize (db : Db) (operation : Uuid) : Db :=
  setOperation db operation
    (.pending (summary (db.outbox.tasks.filter fun t => t.row.operation = operation)))

end OperationRepository
end Controller
end NodePlane
