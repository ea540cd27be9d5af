import NodePlane.Controller.Commands
import NodePlane.Controller.NodeSettings

/-! The node inventory and the reads that admit work on a node. -/
namespace NodePlane
namespace Controller
open Library

/-! What holds a node: work of one of the three queues, or a coordinator. -/
section Reads

def taskPending (db : Db) (node : NodeKey) : Bool :=
  db.outbox.tasks.any fun t => t.row.node = node && t.status.pending

def taskHeld (db : Db) (node : NodeKey) : Bool :=
  db.outbox.tasks.any fun t => t.row.node = node && t.status.held

def Fleet.settingsPending (f : Fleet) (node : NodeKey) : Bool :=
  f.settingsTasks.any fun s => s.node = node && s.status.pending

def Fleet.settingsHeld (f : Fleet) (node : NodeKey) : Bool :=
  f.settingsTasks.any fun s => s.node = node && s.status.held

def Fleet.jobPending (f : Fleet) (node : NodeKey) : Bool :=
  f.jobs.any fun j => j.node = node && j.status.pending

def Fleet.jobHeld (f : Fleet) (node : NodeKey) : Bool :=
  f.jobs.any fun j => j.node = node && j.status.held

/-- `require_idle`: no other installation coordinator works on the node. -/
def Fleet.busy (f : Fleet) (node : NodeKey) (coordinator : Option Uuid) : Bool :=
  f.bootstraps.any fun b => b.node = node && b.status.pending && coordinator ≠ some b.id

def Fleet.draining (f : Fleet) (node : NodeKey) : Bool := f.drains.contains node

def Fleet.retired (f : Fleet) (node : NodeKey) : Bool := (f.retirements.lookup node).isSome

end Reads

namespace JobAction

/-- `REBUILD`: actions that write the settings of the node. -/
def rebuild : JobAction → Bool
  | bootstrap | reinstallKeep | reinstallClean | syncEnv | syncXray => true
  | _ => false

/-- `INVALIDATE`: actions after which the node needs a new confirmation. -/
def invalidate : JobAction → Bool
  | cleanupRuntime | regenerateEntropy => true
  | a => a.rebuild

/-- `VPN_ACTIONS`. -/
def vpn : JobAction → Bool
  | installDocker => false
  | _ => true

end JobAction

namespace NodeService

/-- The recorded history of runtime intents that agents have confirmed. -/
def runtimeHistory (f : Fleet) (key : NodeKey) : List (ℕ × NodeIntent) :=
  (f.settingsTasks.filter fun s => s.node = key && s.status = .succeeded).map
      (fun s => (s.revision, s.intent)) ++
    (f.jobs.filter fun j => j.node = key && j.status = .succeeded && j.action.rebuild).map
      fun j => (j.revision, j.intent)

/-- `ORDER BY revision DESC LIMIT 1`. -/
def newest (history : List (ℕ × NodeIntent)) : Option (ℕ × NodeIntent) :=
  history.foldl (fun best h => match best with
    | none => some h
    | some b => if b.1 < h.1 then some h else some b) none

/-- Only successful node-owned receipts authorize removal of a protocol. -/
def appliedProtocols (f : Fleet) (key : NodeKey) (node : Node) : Option (List Protocol) :=
  if node.appliedRevision = 0 then some []
  else (newest ((runtimeHistory f key).filter fun h => h.1 ≤ node.appliedRevision)).map
    fun h => h.2.protocols

def agentInstalled (f : Fleet) (key : NodeKey) (node : Node) : Bool :=
  0 < node.appliedRevision || f.installations.contains key

def settingsApplyPending (f : Fleet) (key : NodeKey) (node : Node) : Bool :=
  agentInstalled f key node && node.appliedRevision < node.desiredRevision &&
    (!node.protocols.isEmpty || (appliedProtocols f key node).any fun ps => !ps.isEmpty)

/-- `settings` are the supplied ones over the installation's defaults. -/
def create (db : Db) (now : Time) (actor : Uuid) (key : NodeKey) (protocols : List Protocol)
    (transports : List Transport) (settings : Settings) (draw : ℕ)
    (changes : List (Uuid × List Target)) : Result Db :=
  let settings := settings.protocolDefaults draw protocols
  admitted db <|
    deny (db.fleet.retired key) "node_key_retired" <|
    deny (db.fleet.nodes.lookup key).isSome "node_key_conflict" <|
    deny (settings.invalid protocols) "invalid_input" <|
    deny (!protocols.contains .xray && !transports.isEmpty) "invalid_input" <|
      let db := { db with
        fleet.nodes := db.fleet.nodes.put key ⟨false, protocols, transports, settings, 1, 0⟩ }
      .ok (GrantPolicies.reconcile db now actor changes)

/-- The fields of an edit; `region` also changes which grants policies derive. -/
structure Edit where
  protocols : Option (List Protocol)
  transports : Option (List Transport)
  settings : Option Settings
  region : Bool

/-- The Xray transports after an edit: chosen, or following the protocols. -/
def Edit.nextTransports (e : Edit) (node : Node) (protocols : List Protocol) : List Transport :=
  let chosen := e.transports.getD node.xrayTransports
  if e.protocols.isSome ∧ e.transports.isNone then
    if .xray ∈ protocols then if chosen = [] then [.tcp, .xhttp] else chosen else []
  else chosen

/-- The node after an edit; the applied revision is carried forward where nothing
that runs on the node changed. -/
def edited (node : Node) (previous : Settings) (protocols : List Protocol)
    (transports : List Transport) (settings : Settings) : Node :=
  let runtimeChanged := (protocols ≠ node.protocols ∨ transports ≠ node.xrayTransports ∨
    settings ≠ previous) ∧ ¬(node.protocols = [] ∧ protocols = [])
  { node with
    protocols := protocols
    xrayTransports := transports
    settings := settings
    appliedRevision :=
      if ¬runtimeChanged ∧ node.appliedRevision = node.desiredRevision then
        node.desiredRevision + 1
      else node.appliedRevision
    desiredRevision := node.desiredRevision + 1 }

def supersedeSettings (f : Fleet) (p : SettingsTask → Bool) : Fleet :=
  { f with
    settingsTasks := f.settingsTasks.map fun s =>
      if p s then { s with status := .superseded } else s }

def edit (db : Db) (now : Time) (actor : Uuid) (key : NodeKey) (revision : ℕ) (e : Edit)
    (draws : ℕ × ℕ) (changes : List (Uuid × List Target)) : Result Db :=
  admitted db <|
    need (db.fleet.nodes.lookup key) "resource_not_found" fun node =>
    deny (db.fleet.draining key) "node_already_draining" <|
    deny (db.fleet.busy key none) "node_operation_pending" <|
    deny (node.desiredRevision ≠ revision) "revision_conflict" <|
    deny (db.fleet.jobPending key) "node_operation_pending" <|
      let previous := node.settings.protocolDefaults draws.1 node.protocols
      let protocols := e.protocols.getD node.protocols
      let merged := match e.settings with
        | none => previous
        | some s => previous.merge s
      let settings := merged.protocolDefaults draws.2 protocols
      let transports := e.nextTransports node protocols
      deny (settings.invalid protocols) "invalid_input" <|
      deny (!protocols.contains .xray && !transports.isEmpty) "invalid_input" <|
        let removed := node.protocols.filter fun p => !protocols.contains p
        let added := protocols.filter fun p => !node.protocols.contains p
        let db := { db with
          fleet.nodes := db.fleet.nodes.put key
            (edited node previous protocols transports settings) }
        let db := ProtocolRemoval.revokeRemovedProtocols db now actor key removed
        let db := { db with
          fleet := supersedeSettings db.fleet fun s =>
            s.node = key && s.status = .awaitingExecutor }
        .ok (if e.region ∨ added ≠ [] then GrantPolicies.reconcile db now actor changes else db)

end NodeService

/-- The three queues of a node. -/
inductive Queue where
  | operations | settings | jobs
  deriving DecidableEq, Repr

/-- What an observer of the controller sees: claims, commands handed to the driver,
revocations that the expiry pass queues, and what agents confirm. -/
inductive Event where
  | claimed (row : TaskRow) (unwanted : Bool)
  | executed (row : TaskRow)
  | applied (task : SettingsTask)
  | acted (job : Job)
  | prepared (node : NodeKey)
  | retiredCommand (queue : Queue) (node : NodeKey)
  | revoked (profile : Uuid) (revision : ℕ)
  | wrote (node : NodeKey) (revision : ℕ) (runtime : Runtime)
  | cleaned (node : NodeKey) (revision : ℕ)

namespace NodeBootstrapService

/-- `queue`: the coordinator row only; its jobs are queued as it advances. -/
def queue (db : Db) (key : NodeKey) (revision draw : ℕ) : Result Db :=
  admitted db <|
    need (db.fleet.nodes.lookup key) "resource_not_found" fun node =>
    deny (node.desiredRevision ≠ revision) "revision_conflict" <|
    deny node.protocols.isEmpty "node_settings_incomplete" <|
    (NodeSettings.snapshot draw db.fleet key node).bind fun _ =>
    deny (db.fleet.draining key) "node_already_draining" <|
    deny (db.fleet.busy key none) "node_operation_pending" <|
    deny (db.fleet.jobPending key || db.fleet.settingsPending key || taskPending db key)
      "node_operation_pending" <|
      .ok { db with
        fleet.bootstraps := db.fleet.bootstraps ++ [⟨db.fresh, key, .awaitingExecutor⟩]
        fresh := db.fresh + 1 }

/-- `_change`: the worker moves a coordinator that has not ended. -/
def change (db : Db) (id : Uuid) (status : Status) : Db :=
  { db with
    fleet.bootstraps := db.fleet.bootstraps.map fun b =>
      if b.id = id ∧ b.status.pending = true then { b with status := status } else b }

end NodeBootstrapService
end Controller
end NodePlane
