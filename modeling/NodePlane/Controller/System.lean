import NodePlane.Library.History
import NodePlane.Controller.Lifecycle

/-! Runs of the controller: requests, the worker and repairs, each database
transaction one step. The worker and every repair hold the same file lock. -/
namespace NodePlane
namespace Controller
open Library

/-- Who holds the worker's lock between two transactions. -/
inductive Holder where
  | free
  /-- A claimed task, and whether it has been handed to the driver. -/
  | operation (row : TaskRow) (sent : Bool)
  /-- A queued settings task whose node is being asked, with what was read of it:
  whether its agent is installed, and initialized. -/
  | inspecting (task : SettingsTask) (installed initialized : Bool)
  | settings (task : SettingsTask) (sent : Bool)
  | job (job : Job) (sent : Bool)
  /-- A node between the two transactions of `retire_registry_only`. -/
  | retiring (node : NodeKey)

structure System where
  db : Db
  holder : Holder

def System.start : System := ⟨Db.empty, .free⟩

/-- Requests of the API: transactions that take no lock. -/
inductive Request where
  | createProfile (now : Time) (actor owner : Uuid) (expiresAt : Option Time)
      (explicit rows : List Target)
  | editProfile (now : Time) (actor profile : Uuid) (revision : ℕ) (edit : ProfileCommands.Edit)
  | deleteProfile (now : Time) (actor profile : Uuid) (revision : ℕ)
  | device (now : Time) (actor profile : Uuid) (change : DeviceCommands.Change)
  /-- An account becomes an administrator, or stops being one. -/
  | setRole (now : Time) (actor account : Uuid) (admin : Bool)
      (changes : List (Uuid × List Target))
  | suspend (now : Time) (profile : Uuid) (blocked : Bool)
  | setPolicies (changes : List (Option NodeKey × Option Bittorrent))
  | createNode (now : Time) (actor : Uuid) (key : NodeKey) (protocols : List Protocol)
      (transports : List Transport) (settings : Settings) (draw : ℕ)
      (changes : List (Uuid × List Target))
  | editNode (now : Time) (actor : Uuid) (key : NodeKey) (revision : ℕ)
      (edit : NodeService.Edit) (draws : ℕ × ℕ) (changes : List (Uuid × List Target))
  | installed (key : NodeKey)
  | queueSettings (now : Time) (actor : Uuid) (key : NodeKey) (revision draw : ℕ)
  | queueJob (key : NodeKey) (action : JobAction) (revision : ℕ) (coordinator : Option Uuid)
      (draw : ℕ)
  | queueBootstrap (key : NodeKey) (revision draw : ℕ)
  | maintain (maintenance : Maintenance)

/-- Single transactions of the worker and of repairs, under the lock. -/
inductive Repair where
  | recoverTasks
  | recoverSettings
  | recoverJobs
  | repairRemoved
  | expiryPass (now : Time) (changes : List (Uuid × List Target))
  | confirmTask (id : Uuid)
  | confirmSettings (now : Time) (actor id : Uuid) (receipt : Option NodeSettings.Receipt)
      (changes : List (Uuid × List Target))
  | confirmJob (now : Time) (actor id : Uuid) (receipt : NodeOperations.Receipt)
      (changes : List (Uuid × List Target))
  | resolveTask (now : Time) (actor id : Uuid)
  | resolveSettings (id : Uuid) (draw : ℕ)
  | resolveJob (now : Time) (actor id : Uuid) (receipt : Option NodeOperations.Receipt)
      (changes : List (Uuid × List Target))
  | cancelTask (id : Uuid)
  | cancelSettings (id : Uuid)
  | cancelJob (id : Uuid) (coordinator : Option Uuid)
  | cancelQueuedJob (id : Uuid)
  | changeBootstrap (id : Uuid) (status : Status)
  | skimSettings (id : Uuid) (terminal : Bool)
  | drain (now : Time) (actor : Uuid) (node : NodeKey)
  | startCleanup (node : NodeKey)
  | retireVerified (node : NodeKey)
  | settle

inductive Call where
  | request (r : Request)
  | repair (r : Repair)
  | claimTask (id : Uuid)
  | sendTask (now : Time)
  | finishTask (succeeded : Bool)
  | inspectNode (id : Uuid) (terminal : Bool)
  | prepareNode
  | retireUninstalled
  | claimSettings (terminal : Bool)
  | sendSettings
  | finishSettings (now : Time) (actor : Uuid) (receipt : Option NodeSettings.Receipt)
      (changes : List (Uuid × List Target))
  | claimJob (id : Uuid)
  | sendJob
  | finishJob (now : Time) (actor : Uuid) (receipt : NodeOperations.Receipt)
      (changes : List (Uuid × List Target))
  | failJob (ownerConflict : Bool)
  | abandonNode (now : Time) (actor : Uuid) (node : NodeKey)
  | retireNode
  /-- The holder of the lock dies, or gives up without a further transaction. -/
  | crash

namespace Request

def changeRole (db : Db) (now : Time) (actor account : Uuid) (admin : Bool)
    (changes : List (Uuid × List Target)) : Result Db :=
  admitted db <|
    let db := { db with
      access.admins := if admin then account :: db.access.admins
        else db.access.admins.filter (· ≠ account) }
    .ok (if admin then
      ((ProfileCommands.adminProfiles db.access).filter fun p =>
        (db.access.profiles.lookup p).any fun row => row.owner = account).foldl
          (ProfileCommands.restoreAdminExpiry now changes) db
    else GrantPolicies.reconcile db now actor changes)

def exec (db : Db) : Request → Result Db
  | .createProfile now actor owner expiresAt explicit rows =>
    ProfileCommands.create db now actor owner expiresAt explicit rows
  | .editProfile now actor profile revision edit =>
    ProfileCommands.edit db now actor profile revision edit
  | .deleteProfile now actor profile revision =>
    ProfileCommands.delete db now actor profile revision
  | .device now actor profile change => DeviceCommands.execute db now actor profile change
  | .setRole now actor account admin changes => changeRole db now actor account admin changes
  | .suspend now profile blocked => .ok (Quotas.suspend db now profile blocked)
  | .setPolicies changes => VpnPolicies.set db changes
  | .createNode now actor key protocols transports settings draw changes =>
    NodeService.create db now actor key protocols transports settings draw changes
  | .editNode now actor key revision edit draws changes =>
    NodeService.edit db now actor key revision edit draws changes
  | .installed key => .ok { db with fleet.installations := key :: db.fleet.installations }
  | .queueSettings now actor key revision draw =>
    NodeSettingsService.queue db now actor key revision draw
  | .queueJob key action revision coordinator draw =>
    NodeOperations.queue db key action revision coordinator draw
  | .queueBootstrap key revision draw => NodeBootstrapService.queue db key revision draw
  | .maintain maintenance => .ok { db with maintenance := maintenance }

end Request

namespace Repair

/-- A transaction over the fleet alone. -/
def fleet (db : Db) (f : Fleet) : Result (Db × List Event) := .ok ({ db with fleet := f }, [])

/-- The node whose blocked command a repair hands to the driver for retirement. -/
def retired (queue : Queue) (node : NodeKey) (result : Result Db) : Result (Db × List Event) :=
  result.map fun db => (db, [.retiredCommand queue node])

def exec (db : Db) : Repair → Result (Db × List Event)
  | .recoverTasks => .ok (IntentExecutor.recover db, [])
  | .recoverSettings => fleet db (NodeSettingsExecutor.recover db.fleet)
  | .recoverJobs => fleet db (NodeOperations.recover db.fleet)
  | .repairRemoved => fleet db (NodeOperations.repairRemovedRuntimeState db.fleet)
  | .expiryPass now changes =>
    let pass := IntentExecutor.queueExpiredProfiles db now changes
    .ok (pass.1, pass.2.map fun r => .revoked r.1 r.2)
  | .confirmTask id => .ok (IntentExecutor.confirm db id, [])
  | .confirmSettings now actor id receipt changes =>
    need (NodeSettingsExecutor.find db.fleet id .blocked) "task_not_blocked" fun s =>
      .ok (NodeSettingsExecutor.finish db now actor s receipt changes)
  | .confirmJob now actor id receipt changes =>
    need (NodeOperations.find db.fleet id (· = .blocked)) "task_not_blocked" fun j =>
      NodeOperations.finish db now actor j receipt changes
  | .resolveTask now actor id =>
    need (db.outbox.tasks.find? fun t => IntentExecutor.byId id t && t.status = .blocked)
      "task_not_blocked" fun t =>
        retired .operations t.row.node (IntentExecutor.resolveBlocked db now actor id)
  | .resolveSettings id draw =>
    need (NodeSettingsExecutor.find db.fleet id .blocked) "task_not_blocked" fun s =>
      retired .settings s.node (NodeSettingsExecutor.resolveBlocked db id draw)
  | .resolveJob now actor id receipt changes =>
    need (NodeOperations.find db.fleet id (· = .blocked)) "task_not_blocked" fun j =>
      match receipt with
      | none => retired .jobs j.node (.ok { db with fleet := NodeOperations.retire db.fleet id })
      | some r => (NodeOperations.finish db now actor j r changes).map fun done =>
          (done.1, .retiredCommand .jobs j.node :: done.2)
  | .cancelTask id =>
    need (db.outbox.tasks.find? fun t => IntentExecutor.byId id t && t.status = .blocked)
      "task_not_blocked" fun t =>
        retired .operations t.row.node (ForceRecovery.cancelProfile db id)
  | .cancelSettings id =>
    need (NodeSettingsExecutor.find db.fleet id .blocked) "task_not_blocked" fun s =>
      retired .settings s.node (ForceRecovery.cancelSettings db id)
  | .cancelJob id coordinator =>
    need (NodeOperations.find db.fleet id (· = .blocked)) "task_not_blocked" fun j =>
      retired .jobs j.node (ForceRecovery.cancelJob db id coordinator)
  | .cancelQueuedJob id => fleet db (NodeOperations.cancelQueued db.fleet id)
  | .changeBootstrap id status => .ok (NodeBootstrapService.change db id status, [])
  | .skimSettings id terminal =>
    need (NodeSettingsExecutor.find db.fleet id .awaitingExecutor) "resource_not_found" fun s =>
      deny (!NodeSettingsExecutor.skim db s terminal) "not_retired" <|
        fleet db (NodeSettingsExecutor.retire db.fleet id)
  | .drain now actor node => (NodeLifecycle.startDrain db now actor node false).map (·, [])
  | .startCleanup node => (NodeLifecycle.startCleanup db node).map (·, [])
  | .retireVerified node => (NodeLifecycle.retireVerified db node).map (·, [])
  | .settle =>
    .ok (AccountDeletions.settle (DeviceRepository.settleDeletions db), [])

end Repair

namespace System

/-- A refused transaction changes nothing. -/
def commit (s : System) (result : Result (Db × List Event)) (next : Holder) :
    System × List Event :=
  match result with
  | .error _ => (s, [])
  | .ok (db, events) => (⟨db, next⟩, events)

def claimTask (s : System) (id : Uuid) : System × List Event :=
  match IntentExecutor.claim s.db id with
  | none => (s, [])
  | some (db, none) => (⟨db, .free⟩, [])
  | some (db, some row) =>
    (⟨db, .operation row false⟩, [.claimed row (IntentExecutor.unwanted s.db.fleet row)])

/-- The command of a claimed task, or its end when the snapshot has expired. -/
def sendTask (s : System) (row : TaskRow) (now : Time) : System × List Event :=
  if IntentExecutor.lapsed now row then
    (⟨IntentExecutor.finish s.db row false, .free⟩, [])
  else (⟨s.db, .operation row true⟩, [.executed row])

/-- `run_one` has read a queued task that it neither skips nor retires unasked. -/
def inspectNode (s : System) (id : Uuid) (terminal : Bool) : System × List Event :=
  match NodeSettingsExecutor.find s.db.fleet id .awaitingExecutor with
  | none => (s, [])
  | some task =>
    if s.db.maintenance.coreUpgrade = false ∧
        NodeSettingsExecutor.skim s.db task terminal = false ∧
        NodeSettingsExecutor.ready s.db task terminal = true then
      (⟨s.db, .inspecting task
        ((s.db.fleet.nodes.lookup task.node).any
          (NodeService.agentInstalled s.db.fleet task.node))
        (NodeSettingsExecutor.initialized s.db.fleet task.node)⟩, [])
    else (s, [])

/-- The node answers that its runtime is missing, and is prepared before the claim. -/
def prepareNode (s : System) (task : SettingsTask) (installed initialized : Bool) :
    System × List Event :=
  if task.intent.protocols ≠ [] ∧ installed = true ∧ initialized = false then
    (s, [.prepared task.node])
  else (s, [])

/-- The node has no agent yet: an installation can take the work over. -/
def retireUninstalled (s : System) (task : SettingsTask) (installed : Bool) :
    System × List Event :=
  if installed then (s, [])
  else (⟨{ s.db with fleet := NodeSettingsExecutor.retire s.db.fleet task.id }, .free⟩, [])

def claimSettings (s : System) (task : SettingsTask) (terminal : Bool) : System × List Event :=
  let claimed := NodeSettingsExecutor.claim s.db task terminal
  (⟨{ s.db with fleet := claimed.1 }, if claimed.2 then .settings task false else .free⟩, [])

def finishSettings (s : System) (task : SettingsTask) (now : Time) (actor : Uuid)
    (receipt : Option NodeSettings.Receipt) (changes : List (Uuid × List Target)) :
    System × List Event :=
  match NodeSettingsExecutor.find s.db.fleet task.id .running with
  | none => (⟨s.db, .free⟩, [])
  | some current =>
    s.commit (.ok (NodeSettingsExecutor.finish s.db now actor current receipt changes)) .free

def claimJob (s : System) (id : Uuid) : System × List Event :=
  match NodeOperations.find s.db.fleet id (· = .awaitingExecutor) with
  | none => (s, [])
  | some j =>
    if s.db.maintenance.coreUpgrade then (s, [])
    else (⟨{ s.db with
      fleet := NodeOperations.setStatus s.db.fleet (fun k => k.id = id) .running },
        .job j false⟩, [])

/-- A job without a mutation has no command. -/
def sendJob (s : System) (j : Job) : System × List Event :=
  (⟨s.db, .job j true⟩, if j.action = .reconcileAccess then [] else [.acted j])

def exec (s : System) : Call → System × List Event
  | .request r => s.commit ((r.exec s.db).map (·, [])) s.holder
  | .repair r =>
    match s.holder with
    | .free => s.commit (r.exec s.db) .free
    | _ => (s, [])
  | .claimTask id =>
    match s.holder with
    | .free => s.claimTask id
    | _ => (s, [])
  | .sendTask now =>
    match s.holder with
    | .operation row false => s.sendTask row now
    | _ => (s, [])
  | .finishTask succeeded =>
    match s.holder with
    | .operation row true => (⟨IntentExecutor.finish s.db row succeeded, .free⟩, [])
    | _ => (s, [])
  | .inspectNode id terminal =>
    match s.holder with
    | .free => s.inspectNode id terminal
    | _ => (s, [])
  | .prepareNode =>
    match s.holder with
    | .inspecting task installed initialized => s.prepareNode task installed initialized
    | _ => (s, [])
  | .retireUninstalled =>
    match s.holder with
    | .inspecting task installed _ => s.retireUninstalled task installed
    | _ => (s, [])
  | .claimSettings terminal =>
    match s.holder with
    | .inspecting task _ _ => s.claimSettings task terminal
    | _ => (s, [])
  | .sendSettings =>
    match s.holder with
    | .settings task false => (⟨s.db, .settings task true⟩, [.applied task])
    | _ => (s, [])
  | .finishSettings now actor receipt changes =>
    match s.holder with
    | .settings task true => s.finishSettings task now actor receipt changes
    | _ => (s, [])
  | .claimJob id =>
    match s.holder with
    | .free => s.claimJob id
    | _ => (s, [])
  | .sendJob =>
    match s.holder with
    | .job j false => s.sendJob j
    | _ => (s, [])
  | .finishJob now actor receipt changes =>
    match s.holder with
    | .job j true =>
      s.commit (NodeOperations.finish s.db now actor j receipt changes) .free
    | _ => (s, [])
  | .failJob ownerConflict =>
    match s.holder with
    | .job j true =>
      (⟨{ s.db with fleet := NodeOperations.fail s.db.fleet j ownerConflict }, .free⟩, [])
    | _ => (s, [])
  | .abandonNode now actor node =>
    match s.holder with
    | .free =>
      s.commit ((admitted s.db (deny (s.db.fleet.retired node) "retirement_conflict"
        (NodeLifecycle.startDrain s.db now actor node true))).map (·, [])) (.retiring node)
    | _ => (s, [])
  | .retireNode =>
    match s.holder with
    | .retiring node =>
      s.commit ((NodeLifecycle.retireRegistryOnly s.db node).map (·, [])) .free
    | _ => (s, [])
  | .crash => (⟨s.db, .free⟩, [])

/-- The controller after `calls`. -/
def after (calls : List Call) : System := (run exec start calls).1

/-- What an observer saw of `calls`, oldest first. -/
def history (calls : List Call) : List Event := (run exec start calls).2

end System
end Controller
end NodePlane
