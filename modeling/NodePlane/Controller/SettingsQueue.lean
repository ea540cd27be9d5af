import NodePlane.Controller.Nodes

/-! Revision-bound node settings commands and their conservative outbox. -/
namespace NodePlane
namespace Controller
open Library

namespace NodeSettingsService

/-- Another queue of settings work: refused after the revocations it may resume. -/
def queue (db : Db) (now : Time) (actor : Uuid) (key : NodeKey) (revision draw : ℕ) :
    Result Db :=
  admitted db <|
    need (db.fleet.nodes.lookup key) "resource_not_found" fun node =>
    deny (db.fleet.draining key) "node_already_draining" <|
    deny (db.fleet.busy key none) "node_operation_pending" <|
    deny (node.desiredRevision ≠ revision) "revision_conflict" <|
    deny (db.fleet.jobPending key) "node_operation_pending" <|
    deny (revision ≤ node.appliedRevision) "settings_already_applied" <|
    deny (node.protocols.isEmpty && !NodeService.agentInstalled db.fleet key node)
      "node_installation_required" <|
    deny (node.protocols.isEmpty && !NodeService.settingsApplyPending db.fleet key node)
      "settings_already_applied" <|
    (NodeSettings.snapshot draw db.fleet key node).bind fun intent =>
      let removed := ((NodeService.appliedProtocols db.fleet key node).getD []).filter
        fun p => !intent.protocols.contains p
      let forced := (ForceRecovery.forcedTasks db key).any fun t => removed.contains t.row.protocol
      let db := if removed ≠ [] ∧ forced = true then
        ProtocolRemoval.revokeRemovedProtocols db now actor key removed else db
      deny (db.fleet.settingsPending key) "node_settings_operation_pending" <|
        .ok { db with
          fleet.settingsTasks := db.fleet.settingsTasks ++
            [⟨db.fresh, key, revision, { intent with removeProtocols := removed },
              .awaitingExecutor⟩]
          fresh := db.fresh + 1 }

end NodeSettingsService

namespace NodeSettingsExecutor
open NodeService

def recover (f : Fleet) : Fleet :=
  { f with
    settingsTasks := f.settingsTasks.map fun s =>
      if s.status = .running then { s with status := .blocked } else s }

def setStatus (f : Fleet) (id : Uuid) (status : Status) : Fleet :=
  { f with
    settingsTasks := f.settingsTasks.map fun s =>
      if s.id = id then { s with status := status } else s }

/-- `WHERE id=? AND status='awaiting_executor'`. -/
def retire (f : Fleet) (id : Uuid) : Fleet :=
  supersedeSettings f fun s => s.id = id && s.status = .awaitingExecutor

def find (f : Fleet) (id : Uuid) (status : Status) : Option SettingsTask :=
  f.settingsTasks.find? fun s => s.id = id && s.status = status

/-- The node is gone, or has a newer revision than the task. -/
def stale (f : Fleet) (s : SettingsTask) : Bool :=
  (f.nodes.lookup s.node).all fun n => n.desiredRevision ≠ s.revision

/-- Nothing to write and nothing to remove. -/
def empty (s : SettingsTask) : Bool :=
  s.intent.protocols.isEmpty && s.intent.removeProtocols.isEmpty

/-- The reads of `run_one` before it asks the node: `terminal` is the check of
temporary configurations. -/
def ready (db : Db) (s : SettingsTask) (terminal : Bool) : Bool :=
  ProtocolRemoval.isRevocationConfirmed db s.node s.intent.removeProtocols terminal &&
    !taskHeld db s.node

/-- A queued task that `run_one` retires without asking the node. -/
def skim (db : Db) (s : SettingsTask) (terminal : Bool) : Bool :=
  stale db.fleet s || (ready db s terminal && empty s)

def initialized (f : Fleet) (node : NodeKey) : Bool :=
  (f.settingsTasks.any fun s => s.node = node && s.status = .succeeded) ||
  f.jobs.any fun j => j.node = node && j.status = .succeeded &&
    [JobAction.bootstrap, .reinstallKeep, .reinstallClean, .cleanupRuntime].contains j.action

/-- The claim of a task that `run_one` has read as `s`, if it makes one. -/
def claim (db : Db) (s : SettingsTask) (terminal : Bool) : Fleet × Bool :=
  if db.maintenance.coreUpgrade || (find db.fleet s.id .awaitingExecutor).isNone then
    (db.fleet, false)
  else if stale db.fleet s || db.fleet.draining s.node then
    (setStatus db.fleet s.id .superseded, false)
  else if ready db s terminal then (setStatus db.fleet s.id .running, true)
  else (db.fleet, false)

/-- The node after a confirmed settings task. -/
def applied (f : Fleet) (s : SettingsTask) (settings : Settings) (awgPort : Option ℕ) :
    Table NodeKey Node :=
  (NodeSettings.persistSelectedPort f.nodes s.node s.revision settings awgPort).alter s.node
    fun node =>
      if node.appliedRevision < s.revision ∧ s.revision ≤ node.desiredRevision ∧
          f.draining s.node = false then
        { node with
          appliedRevision := s.revision
          enabled := if node.desiredRevision = s.revision then true else node.enabled }
      else node

/-- `_finish`: a result that is no receipt of the intent blocks the task. -/
def finish (db : Db) (now : Time) (actor : Uuid) (s : SettingsTask)
    (receipt : Option NodeSettings.Receipt) (changes : List (Uuid × List Target)) :
    Db × List Event :=
  match receipt.bind fun r =>
      (NodeSettings.validResult s.node s.revision s.intent r).map fun settings =>
        (settings, r.awgPort) with
  | none => ({ db with fleet := setStatus db.fleet s.id .blocked }, [])
  | some (settings, awgPort) =>
    let db := { db with
      fleet := { setStatus db.fleet s.id .succeeded with
        installations := s.node :: db.fleet.installations
        nodes := applied db.fleet s settings awgPort } }
    let db := GrantPolicies.reconcile db now actor changes
    (ForceRecovery.resumeForcedProfileTargets db now actor s.node,
      [.wrote s.node s.revision (Runtime.of s.intent.protocols settings)])

/-- Retire an uncertain command after agent restart and queue a fresh revision. -/
def resolveBlocked (db : Db) (id : Uuid) (draw : ℕ) : Result Db :=
  need (find db.fleet id .blocked) "task_not_blocked" fun s =>
    need (db.fleet.nodes.lookup s.node) "resource_not_found" fun node =>
    deny (db.fleet.draining s.node) "node_already_draining" <|
    deny (db.fleet.settingsTasks.any fun t => t.node = s.node && t.id ≠ id && t.status.pending)
      "node_settings_operation_pending" <|
    deny (taskHeld db s.node) "profile_operation_uncertain" <|
      let previous := appliedProtocols db.fleet s.node node
      if empty s ∧ node.protocols = [] ∧ previous = some [] then
        .ok { db with fleet := setStatus db.fleet id .superseded }
      else
        let revision := max node.desiredRevision s.revision + 1
        let node := { node with enabled := false, desiredRevision := revision }
        (NodeSettings.snapshot draw db.fleet s.node node).bind fun intent =>
        deny (intent.protocols.isEmpty && previous.isNone) "node_settings_incomplete" <|
          let removed := (previous.getD []).filter fun p => !intent.protocols.contains p
          let f := setStatus db.fleet id .superseded
          .ok { db with
            fleet := { f with
              nodes := f.nodes.put s.node node
              settingsTasks := f.settingsTasks ++
                [⟨db.fresh, s.node, revision, { intent with removeProtocols := removed },
                  .awaitingExecutor⟩] }
            fresh := db.fresh + 1 }

end NodeSettingsExecutor
end Controller
end NodePlane
