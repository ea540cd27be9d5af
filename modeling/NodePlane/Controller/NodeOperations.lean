import NodePlane.Controller.Nodes

/-! Durable installation and maintenance jobs of nodes. -/
namespace NodePlane
namespace Controller
open Library OperationRepository
namespace NodeOperations

/-- `_snapshot`, or only the stored settings for the actions that write none. -/
def snapshot (f : Fleet) (key : NodeKey) (node : Node) (action : JobAction) (draw : ℕ) :
    Result NodeIntent :=
  if action = .installDocker ∨ action = .syncRuntime ∨ action = .cleanupRuntime then
    .ok ⟨node.protocols, node.settings, [], node.desiredRevision⟩
  else NodeSettings.snapshot draw f key node

/-- A coordinator may install on a node whose runtime is not there yet. -/
def installs (coordinator : Option Uuid) (action : JobAction) : Bool :=
  coordinator.isSome && (action = .bootstrap || action = .installDocker)

def queue (db : Db) (key : NodeKey) (action : JobAction) (revision : ℕ)
    (coordinator : Option Uuid) (draw : ℕ) : Result Db :=
  admitted db <|
    need (db.fleet.nodes.lookup key) "resource_not_found" fun node =>
    deny (db.fleet.busy key coordinator) "node_operation_pending" <|
    deny (node.desiredRevision ≠ revision) "revision_conflict" <|
    deny (!installs coordinator action && !NodeService.agentInstalled db.fleet key node)
      "node_installation_required" <|
    deny (!installs coordinator action && action.vpn &&
      (node.appliedRevision = 0 || node.protocols.isEmpty)) "config_not_supported" <|
    deny (!installs coordinator action && (action = .cleanupRuntime || action = .reinstallClean) &&
      node.appliedRevision ≠ node.desiredRevision) "node_settings_uncertain" <|
    deny (db.fleet.draining key) "node_already_draining" <|
    deny (db.fleet.jobPending key || db.fleet.settingsPending key || taskPending db key)
      "node_operation_pending" <|
    deny (action = .syncXray && !node.protocols.contains .xray) "config_not_supported" <|
    deny (action = .regenerateEntropy && !node.protocols.contains .awg) "config_not_supported" <|
    deny (action = .regenerateEntropy && (node.settings .awgParameters).isSome)
      "awg_manual_parameters_active" <|
    (snapshot db.fleet key node action draw).bind fun intent =>
      let next := if action.invalidate then node.desiredRevision + 1 else node.desiredRevision
      .ok { db with
        fleet.nodes := if action.invalidate then
          db.fleet.nodes.put key { node with enabled := false, desiredRevision := next }
        else db.fleet.nodes
        fleet.jobs := db.fleet.jobs ++
          [⟨db.fresh, key, action, next, { intent with requestedRevision := revision },
            .awaitingExecutor⟩]
        fresh := db.fresh + 1 }

def setStatus (f : Fleet) (p : Job → Bool) (status : Status) : Fleet :=
  { f with
    jobs := f.jobs.map fun j => if p j then { j with status := status } else j }

def recover (f : Fleet) : Fleet := setStatus f (fun j => j.status = .running) .blocked

def find (f : Fleet) (id : Uuid) (p : Status → Bool) : Option Job :=
  f.jobs.find? fun j => j.id = id && p j.status

/-- Correct legacy cleanup receipts without restarting or replaying work. -/
def repairRemovedRuntimeState (f : Fleet) : Fleet :=
  { f with
    nodes := f.nodes.mapRows fun key node =>
      if node.enabled = false ∧ 0 < node.appliedRevision ∧
          (f.jobs.any fun j => j.node = key && j.action = .cleanupRuntime &&
            j.status = .succeeded && decide (node.appliedRevision ≤ j.revision)) = true then
        { node with appliedRevision := 0 }
      else node }

/-- The result of a job. Only a run that writes the settings reports a port. -/
structure Receipt where
  node : NodeKey
  action : JobAction
  revision : ℕ
  digest : List Protocol × Settings
  awgPort : Option ℕ
  reports : awgPort.isSome = true → action.rebuild = true

/-- The settings after the port that a receipt selects, where it selects one. -/
def confirmed (j : Job) (r : Receipt) : Option Settings :=
  match NodeSettings.effectivePort j.intent r.awgPort with
  | none => none
  | some settings =>
    if r.awgPort.isNone ∨ r.digest = (j.intent.protocols, settings) then some settings else none

/-- The node after a confirmed job. -/
def completed (f : Fleet) (j : Job) (settings : Settings) (awgPort : Option ℕ) :
    Table NodeKey Node :=
  (NodeSettings.persistSelectedPort f.nodes j.node j.revision settings awgPort).alter j.node
    fun node =>
      if node.desiredRevision ≠ j.revision then node
      else if j.action = .cleanupRuntime then { node with appliedRevision := 0, enabled := false }
      else if j.action.invalidate then
        { node with appliedRevision := j.revision, enabled := true }
      else node

/-- What the agent's receipt confirms about the settings of the node. -/
def confirmations (j : Job) (settings : Settings) : List Event :=
  if j.action = .cleanupRuntime then [.cleaned j.node j.revision]
  else if j.action.rebuild then
    [.wrote j.node j.revision (Runtime.of j.intent.protocols settings)]
  else []

/-- Profiles with a grant on the node whose grants did not change just now. -/
def regranted (db : Db) (node : NodeKey) (changes : List (Uuid × List Target)) : List Uuid :=
  (((db.access.grants.filter fun g => g.node = node).map Grant.profile).dedup).filter
    fun p => !(changes.map Prod.fst).contains p

/-- A new revision, so the agent cannot return an old completed ensure from its
journal after a clean reinstall. -/
def renew (now : Time) (actor : Uuid) (db : Db) (profile : Uuid) : Db :=
  let previous := targets db profile
  record (bump db profile) now actor profile previous none

/-- The work on access that a confirmed job leads to. -/
def regrant (db : Db) (now : Time) (actor : Uuid) (j : Job)
    (changes : List (Uuid × List Target)) : Db :=
  let db := if (j.action.invalidate || j.action = .reconcileAccess) &&
      j.action ≠ .cleanupRuntime then
    let db := GrantPolicies.reconcile db now actor changes
    (regranted db j.node changes).foldl (renew now actor) db
  else db
  if j.action = .reconcileAccess then
    ForceRecovery.resumeForcedProfileTargets db now actor j.node
  else db

/-- `_finish`. -/
def finish (db : Db) (now : Time) (actor : Uuid) (j : Job) (r : Receipt)
    (changes : List (Uuid × List Target)) : Result (Db × List Event) :=
  deny (r.node ≠ j.node || r.action ≠ j.action || r.revision ≠ j.revision)
    "invalid node operation result" <|
    match find db.fleet j.id Status.held with
    | none => .ok (db, [])
    | some _ =>
      need (confirmed j r) "invalid selected AWG port result" fun settings =>
        let db := { db with
          fleet := { setStatus db.fleet (fun k => k.id = j.id) .succeeded with
            installations := if [JobAction.bootstrap, .reinstallKeep, .reinstallClean,
                .cleanupRuntime].contains j.action then
              j.node :: db.fleet.installations else db.fleet.installations
            nodes := completed db.fleet j settings r.awgPort } }
        .ok (regrant db now actor j changes, confirmations j settings)

/-- The end of a job without a result: the node's owner refused it, or its outcome
is unknown. -/
def fail (f : Fleet) (j : Job) (ownerConflict : Bool) : Fleet :=
  setStatus f (fun k => k.id = j.id && k.status = .running)
    (if ownerConflict then .failed else .blocked)

/-- `resolve`, when the agent retired the command without running it. -/
def retire (f : Fleet) (id : Uuid) : Fleet :=
  setStatus f (fun k => k.id = id && k.status = .blocked) .superseded

/-- An update is cancelled before its queued job was claimed. -/
def cancelQueued (f : Fleet) (id : Uuid) : Fleet :=
  setStatus f (fun k => k.id = id && k.status = .awaitingExecutor) .superseded

end NodeOperations
end Controller
end NodePlane
