import NodePlane.Controller.Executor
import NodePlane.Controller.SettingsQueue
import NodePlane.Controller.NodeOperations

/-! Retirement of nodes and explicit cancellation of uncertain commands, each under
the worker's lock. -/
namespace NodePlane
namespace Controller
open Library OperationRepository

namespace NodeLifecycle

/-- Profiles with a grant, or any task, on the node. -/
def affected (db : Db) (node : NodeKey) : List Uuid :=
  ((db.access.grants.filter fun g => g.node = node).map Grant.profile ++
    (db.outbox.tasks.filter fun t => t.row.node = node).map fun t => t.row.profile).dedup

/-- Queue the revocation of every target of a profile the node has known. -/
def drainProfile (now : Time) (actor : Uuid) (node : NodeKey) (db : Db) (profile : Uuid) : Db :=
  let previous := targets db profile
  let db := { db with
    access.grants := db.access.grants.filter fun g => !(g.profile = profile && g.node = node) }
  record (bump db profile) now actor profile previous none

/-- Work that a drain gives up: queued work, or all of it when the node is abandoned. -/
def given (node : NodeKey) (abandon : Bool) (key : NodeKey) (status : Status) : Bool :=
  key = node && (if abandon then status.pending else status = .awaitingExecutor)

def closeQueues (f : Fleet) (node : NodeKey) (abandon : Bool) : Fleet :=
  let f := NodeOperations.setStatus f (fun j => given node abandon j.node j.status) .superseded
  let f := NodeService.supersedeSettings f fun s => given node abandon s.node s.status
  { f with nodes := f.nodes.alter node fun n => { n with enabled := false } }

/-- An abandoned node's coordinators end too. -/
def closeBootstraps (f : Fleet) (node : NodeKey) : List Bootstrap :=
  f.bootstraps.map fun b =>
    if b.node = node ∧ b.status.pending = true then { b with status := .superseded } else b

/-- Atomically stop new grants and queue revocation of every known target. -/
def startDrain (db : Db) (now : Time) (actor : Uuid) (node : NodeKey) (abandon : Bool) :
    Result Db :=
  need (db.fleet.nodes.lookup node) "resource_not_found" fun _ =>
    if db.fleet.draining node then .ok db
    else
      deny (!abandon && db.fleet.busy node none) "node_operation_pending" <|
      deny (!abandon && db.fleet.settingsHeld node) "node_settings_uncertain" <|
      deny (!abandon && db.fleet.jobHeld node) "node_settings_uncertain" <|
        let db := { db with
          fleet := { closeQueues db.fleet node abandon with
            bootstraps := if abandon then closeBootstraps db.fleet node
              else db.fleet.bootstraps } }
        let db := (affected db node).foldl (drainProfile now actor node) db
        .ok { db with fleet.drains := node :: db.fleet.drains }

/-- `_revocation_state`: every target of the node has confirmed its last delete. -/
def revocationsComplete (db : Db) (node : NodeKey) : Bool :=
  let tasks := db.outbox.tasks.filter fun t => t.row.node = node
  tasks.all (fun t => !t.status.pending) && tasks.all fun t =>
    (tasks.any fun u => u.row.protocol = t.row.protocol && u.row.device = t.row.device &&
      u.row.profile = t.row.profile && t.row.revision < u.row.revision) ||
    (t.row.action = .delete && t.status = .succeeded)

/-- The first phase of `cleanup`: the node's agent gets a durable mutation fence. -/
def startCleanup (db : Db) (node : NodeKey) : Result Db :=
  deny ((db.fleet.nodes.lookup node).isNone || !db.fleet.draining node) "resource_not_found" <|
    deny (!revocationsComplete db node) "node_revocations_incomplete" <|
      .ok { db with
        fleet.cleanups := if db.fleet.cleanups.contains node then db.fleet.cleanups
          else node :: db.fleet.cleanups }

/-- The registry record is deleted, and its key is fenced forever. -/
def remove (f : Fleet) (node : NodeKey) (mode : Retirement) : Fleet :=
  { f with
    nodes := f.nodes.keep fun k _ => k ≠ node
    retirements := f.retirements.put node mode
    cleanups := f.cleanups.filter (· ≠ node)
    drains := f.drains.filter (· ≠ node) }

/-- The second transaction of `retire_registry_only`, after its drain. -/
def retireRegistryOnly (db : Db) (node : NodeKey) : Result Db :=
  admitted db <|
    need (db.fleet.nodes.lookup node) "resource_not_found" fun _ =>
      let unfinished := fun t : Task => t.row.node = node && t.status.pending
      let operations := ((db.outbox.tasks.filter unfinished).map fun t => t.row.operation).dedup
      let db := { db with fleet := closeQueues db.fleet node true }
      let db := operations.foldl IntentExecutor.refreshOperation (mark db unfinished .superseded)
      .ok { db with fleet := remove db.fleet node .registryOnly }

/-- Remove the registry record only after its host was checked. -/
def retireVerified (db : Db) (node : NodeKey) : Result Db :=
  need (db.fleet.nodes.lookup node) "resource_not_found" fun _ =>
    deny (!db.fleet.cleanups.contains node) "cleanup_phase_conflict" <|
    deny (!revocationsComplete db node) "node_revocations_incomplete" <|
      .ok { db with fleet := remove db.fleet node .verified }

end NodeLifecycle

namespace ForceRecovery
open IntentExecutor

/-- A command of the node is still running on the controller. -/
def runs (db : Db) (node : NodeKey) : Bool :=
  db.fleet.jobs.any (fun j => j.node = node && j.status = .running) ||
  db.fleet.settingsTasks.any (fun s => s.node = node && s.status = .running) ||
  db.outbox.tasks.any fun t => t.row.node = node && t.status = .running

/-- Queued tasks for the target of a cancelled one, up to its revision. -/
def superseded (row : TaskRow) (t : Task) : Bool :=
  t.row.profile = row.profile && t.row.node = row.node && t.row.protocol = row.protocol &&
    t.row.device = row.device && t.row.revision ≤ row.revision && t.status = .awaitingExecutor

/-- Settings work that waits for the cancelled revocation. -/
def waits (row : TaskRow) (s : SettingsTask) : Bool :=
  s.node = row.node && s.status = .awaitingExecutor &&
    s.intent.removeProtocols.contains row.protocol

def cancelled (t : Task) : Task := { t with status := .superseded, forced := true }

/-- `cancel` of a profile operation, once the agent has retired the command: the
profile gets a new revision, but no operation. -/
def cancelProfile (db : Db) (id : Uuid) : Result Db :=
  admitted db <|
    need (db.outbox.tasks.find? fun t => byId id t && t.status = .blocked) "task_not_blocked"
      fun t =>
      deny (runs db t.row.node) "maintenance_busy" <|
      deny (db.fleet.draining t.row.node) "node_already_draining" <|
        let operations := ((db.outbox.tasks.filter (superseded t.row)).map
          fun u => u.row.operation).dedup
        let db := { db with
          outbox.tasks := db.outbox.tasks.map fun u =>
            if byId id u ∧ u.status = .blocked then cancelled u else u }
        let db := operations.foldl refreshOperation (mark db (superseded t.row) .superseded)
        let db := refreshOperation (bump db t.row.profile) t.row.operation
        .ok { db with fleet := NodeService.supersedeSettings db.fleet (waits t.row) }

/-- The node gets a revision above the cancelled one. -/
def advance (nodes : Table NodeKey Node) (key : NodeKey) (revision : ℕ) : Table NodeKey Node :=
  nodes.alter key fun n => { n with
    desiredRevision := if revision < n.desiredRevision then n.desiredRevision + 1
      else revision + 1 }

def cancelSettings (db : Db) (id : Uuid) : Result Db :=
  admitted db <|
    need (NodeSettingsExecutor.find db.fleet id .blocked) "task_not_blocked" fun s =>
    deny (runs db s.node) "maintenance_busy" <|
    deny (db.fleet.draining s.node) "node_already_draining" <|
      let f := NodeService.supersedeSettings db.fleet fun t => t.id = id && t.status = .blocked
      .ok { db with fleet := { f with nodes := advance f.nodes s.node s.revision } }

/-- Cancelling a coordinator's job also releases the coordinator. -/
def cancelJob (db : Db) (id : Uuid) (coordinator : Option Uuid) : Result Db :=
  admitted db <|
    need (NodeOperations.find db.fleet id (· = .blocked)) "task_not_blocked" fun j =>
    deny (runs db j.node) "maintenance_busy" <|
    deny (db.fleet.draining j.node) "node_already_draining" <|
      let f := NodeOperations.retire db.fleet id
      .ok { db with fleet := { f with
        nodes := advance f.nodes j.node j.revision
        bootstraps := f.bootstraps.map fun b =>
          if some b.id = coordinator ∧ b.status = .blocked then { b with status := .superseded }
          else b } }

end ForceRecovery
end Controller
end NodePlane
