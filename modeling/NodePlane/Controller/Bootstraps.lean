import NodePlane.Library.Table

/-! The coordinator of a node's installation. A bootstrap has one child command a phase, an agent
rollout or a node job, in a table of its own; the coordinator, its children's executors and the
administrators' repairs hold the worker's lock, and every transaction may be the last one before
a crash. Progress displays, notifications and the replay of a command's key are left out. -/
namespace NodePlane
namespace Bootstraps
open Library

inductive Phase | agent | docker | protocols | done
  deriving DecidableEq, Repr

inductive Status | awaitingExecutor | running | blocked | succeeded | failed | superseded
  deriving DecidableEq, Repr

/-- `child_kind`; `restore` marks a bootstrap that may reinstall an unreachable agent. -/
inductive ChildKind | restore | agentRollouts | nodeJobs
  deriving DecidableEq, Repr

/-- `backend_node_bootstraps`. -/
structure Bootstrap where
  node : ℕ
  actor : ℕ
  revision : ℕ
  phase : Phase
  status : Status
  child : Option ℕ
  childKind : Option ChildKind
  error : Option String
  deriving DecidableEq, Repr

def Bootstrap.active (row : Bootstrap) : Bool :=
  row.status = .awaitingExecutor || row.status = .running || row.status = .blocked

/-- A command key: given by a client, or the `uuid5` that the coordinator derives. -/
inductive Key
  | given (key : ℕ)
  | derived (bootstrap : ℕ) (phase : Phase)
  | replacing (bootstrap : ℕ) (phase : Phase) (child : ℕ)
  deriving DecidableEq, Repr

/-- The bootstrap that the key was derived from. -/
def Key.bootstrap : Key → Option ℕ
  | .given _ => none
  | .derived id _ => some id
  | .replacing id _ _ => some id

inductive Action
  | bootstrap | reinstallKeep | reinstallClean | cleanupRuntime | installDocker | checkPorts
  | openPorts | syncRuntime | syncEnv | syncXray | regenerateEntropy | reconcileAccess
  deriving DecidableEq, Repr

/-- `INVALIDATE`. -/
def Action.invalidates : Action → Bool
  | .bootstrap | .reinstallKeep | .reinstallClean | .syncEnv | .syncXray | .cleanupRuntime |
    .regenerateEntropy => true
  | _ => false

/-- Whether the intent holds the settings of a complete node. -/
def Action.snapshots : Action → Bool
  | .installDocker | .syncRuntime | .cleanupRuntime => false
  | _ => true

/-- What a command asks for, as far as its key's replay compares it. -/
inductive Intent
  | rollout (transport : String) (sshTarget : Option String) (selfUpdate : Bool)
  | job (action : Action) (requested : ℕ)
  deriving DecidableEq, Repr

/-- The table of a command. -/
def Intent.kind : Intent → ChildKind
  | .rollout .. => .agentRollouts
  | .job .. => .nodeJobs

/-- The statuses of both tables; rollouts are `cancelled`, jobs `failed` or `superseded`. -/
inductive ChildStatus
  | awaitingExecutor | running | blocked | succeeded | failed | superseded | cancelled
  deriving DecidableEq, Repr

def ChildStatus.unfinished : ChildStatus → Bool
  | .awaitingExecutor | .running | .blocked => true
  | _ => false

/-- A row of `backend_agent_rollouts` or `backend_node_jobs`, by its intent. -/
structure Child where
  node : ℕ
  actor : ℕ
  key : Key
  intent : Intent
  /-- The revision that a job installs. -/
  revision : ℕ
  status : ChildStatus
  /-- The error code in a job's result. -/
  error : Option String
  /-- A rollout's recorded failure is one that changed nothing. -/
  preflight : Bool
  /-- The bootstrap and its phase that the command was queued for; the tables do not keep it. -/
  parent : Option (ℕ × Phase)
  deriving DecidableEq, Repr

/-- `backend_nodes`. -/
structure Node where
  desired : ℕ
  applied : ℕ
  protocols : List String
  /-- `_snapshot` finds every setting. -/
  complete : Bool
  deriving DecidableEq, Repr

structure Db where
  bootstraps : Table ℕ Bootstrap
  children : Table ℕ Child
  nodes : Table ℕ Node
  drains : List ℕ
  retirements : List ℕ

/-- What a transaction reads elsewhere. -/
structure Env where
  /-- No maintenance is on. -/
  admitted : Bool
  /-- The actor's account is an approved administrator. -/
  admin : Bool
  /-- The node has unfinished settings or operation tasks. -/
  others : Bool
  /-- The node's runtime, protocols and settings allow the action. -/
  allowed : Bool
  /-- The rollout's target is the node's connection. -/
  connected : Bool
  deriving DecidableEq, Repr

/-- A row of `table` under the key of `actor`. -/
def Db.keyed (db : Db) (table : ChildKind) (actor : ℕ) (key : Key) : Option (ℕ × Child) :=
  db.children.rows.find? fun child =>
    child.2.intent.kind = table && child.2.actor = actor && child.2.key = key

/-- The node has a command of the table in one of the statuses. -/
def Db.pending (db : Db) (node : ℕ) (table : ChildKind) (statuses : ChildStatus → Bool) : Bool :=
  db.children.has fun _ child =>
    child.node = node && child.intent.kind = table && statuses child.status

/-- `require_idle`: no active bootstrap on the node but the given one. -/
def Db.idle (db : Db) (node : ℕ) (own : Option ℕ) : Bool :=
  !db.bootstraps.has fun id row => row.node = node && row.active && own ≠ some id

/-! Commands. -/

def queued : ChildStatus → Bool
  | .awaitingExecutor | .running => true
  | _ => false

/-- What stands against the command of an intent. -/
def Db.refusal (db : Db) (env : Env) (nodeKey : ℕ) (node : Node) (own : Option ℕ) :
    Intent → Option String
  | .job action requested =>
    if !db.idle nodeKey own then some "node_operation_pending"
    else if node.desired ≠ requested then some "revision_conflict"
    else if !(own.isSome && (action = .bootstrap || action = .installDocker)) && !env.allowed then
      some "config_not_supported"
    else if db.drains.contains nodeKey then some "node_already_draining"
    else if db.pending nodeKey .nodeJobs ChildStatus.unfinished || env.others then
      some "node_operation_pending"
    else if action.snapshots && !node.complete then some "node_settings_incomplete"
    else none
  | .rollout transport _ selfUpdate =>
    if transport ≠ "local" ∧ !selfUpdate then some "agent_install_command_required"
    else if !env.connected then some "node_connection_mismatch"
    else if !db.idle nodeKey own then some "node_operation_pending"
    else if db.drains.contains nodeKey then some "node_already_draining"
    else if db.pending nodeKey .agentRollouts queued then some "agent_rollout_pending"
    else none

/-- `NodeOperations.queue` and `AgentRolloutService.request`, with the bootstrap they are for. -/
def Db.enqueue (db : Db) (env : Env) (actor node : ℕ) (intent : Intent) (key : Key)
    (parent : Option (ℕ × Phase)) (id : ℕ) : Except String (Db × ℕ) :=
  if !env.admitted then .error "maintenance"
  else if !env.admin then .error "permission_denied"
  else match db.keyed intent.kind actor key with
  | some (old, previous) =>
    if previous.node ≠ node ∨ previous.intent ≠ intent then .error "idempotency_conflict"
    else .ok (db, old)
  | none =>
    match db.nodes.lookup node with
    | none => .error "resource_not_found"
    | some row =>
      match db.refusal env node row (parent.map Prod.fst) intent with
      | some code => .error code
      | none =>
        let revision := match intent with
          | .job action _ => if action.invalidates then row.desired + 1 else row.desired
          | .rollout .. => row.desired
        .ok ({ db with
          nodes := db.nodes.put node { row with desired := revision }
          children := db.children.put id
            ⟨node, actor, key, intent, revision, .awaitingExecutor, none, false, parent⟩ }, id)

def Child.withStatus (child : Child) (status : ChildStatus) : Child :=
  { child with status := status }

/-- A job's result: the job succeeded, and the node has its revision. -/
def Db.finish (db : Db) (id : ℕ) (child : Child) : Db :=
  let done := { db with children := db.children.put id (child.withStatus .succeeded) }
  match child.intent with
  | .rollout .. => done
  | .job action _ =>
    if action.invalidates then
      { done with nodes := done.nodes.alter child.node fun node =>
        if node.desired = child.revision then
          { node with applied := if action = .cleanupRuntime then 0 else child.revision }
        else node }
    else done

/-- What the driver answers to `resolve_*`. -/
inductive Resolution | finished | retired
  deriving DecidableEq, Repr

/-- `NodeOperations.resolve` of a blocked job. -/
def Db.resolve (db : Db) (id : ℕ) (answer : Resolution) : Option Db :=
  match db.children.lookup id with
  | none => none
  | some child =>
    if child.intent.kind ≠ .nodeJobs ∨ child.status ≠ .blocked then none
    else some (match answer with
      | .finished => db.finish id child
      | .retired => { db with children := db.children.put id (child.withStatus .superseded) })

/-- `preflight_failed`. -/
def Db.preflightFailed (db : Db) (id : ℕ) (child : Child) : Bool :=
  child.intent.kind = .agentRollouts && child.status = .blocked &&
    (db.nodes.lookup child.node).isSome && child.preflight &&
    !db.bootstraps.has fun _ row => row.child = some id && row.status = .superseded

/-! The coordinator. -/

/-- The columns that `_change` writes. -/
structure Change where
  phase : Phase
  status : Status := .awaitingExecutor
  child : Option ℕ := none
  kind : Option ChildKind := none
  error : Option String := none
  deriving DecidableEq, Repr

/-- `_change`: an ended bootstrap stays as it is. -/
def Db.change (db : Db) (id : ℕ) (values : Change) : Db :=
  { db with bootstraps := db.bootstraps.alter id fun row =>
    if row.active then
      { row with
        phase := values.phase
        status := values.status
        child := values.child
        childKind := values.kind
        error := values.error }
    else row }

def Phase.table : Phase → ChildKind
  | .agent => .agentRollouts
  | _ => .nodeJobs

/-- What `_advance` reads before it decides. -/
structure Seen where
  node : Option Node
  admin : Bool
  /-- A child that was committed and never linked. -/
  recorded : Option ℕ
  /-- The linked child's status, and its error code. -/
  child : Option (ChildStatus × Option String)
  deriving DecidableEq, Repr

def Db.recorded (db : Db) (id : ℕ) (row : Bootstrap) : Option ℕ :=
  match db.keyed row.phase.table row.actor (.derived id row.phase) with
  | some (child, found) => if found.node = row.node then some child else none
  | none => none

def Db.seen (db : Db) (id : ℕ) (row : Bootstrap) (admin : Bool) : Seen :=
  { node := db.nodes.lookup row.node
    admin := admin
    recorded := if row.child.isSome then none else db.recorded id row
    child := ((row.child.bind db.children.lookup).filter fun child =>
      child.intent.kind =
        if row.childKind = some .agentRollouts then .agentRollouts else .nodeJobs).map fun child =>
          (child.status, child.error) }

/-- What the driver finds on the node. -/
structure Facts where
  docker : Bool
  valid : List String
  running : List String
  deriving DecidableEq, Repr

/-- `inspect_node_services`: a node without an agent is known as such. -/
inductive Probe
  | facts (facts : Facts)
  | missing
  | unreachable
  deriving DecidableEq, Repr

inductive Enrollment | waiting | expired
  deriving DecidableEq, Repr

/-- The node's enrollment and connection. -/
structure Site where
  enrollment : Option Enrollment
  failure : Option String
  connection : Option (String × Option String)
  deriving DecidableEq, Repr

inductive Decision
  | stay
  | change (values : Change)
  | refuse (code : String)
  | dispatch (intent : Intent)
  deriving DecidableEq, Repr

/-- The agent is missing: its enrollment ends, or the controller's own host is installed. -/
def Bootstrap.installAgent (row : Bootstrap) (site : Site) : Decision :=
  match site.enrollment with
  | some .waiting => .stay
  | some .expired =>
    .change { phase := row.phase, status := .blocked,
              error := some (site.failure.getD "agent_enrollment_expired") }
  | none =>
    match site.connection with
    | none => .refuse "node_agent_unconfigured"
    | some (transport, target) =>
      if transport ≠ "local" then
        .change { phase := row.phase, status := .blocked,
                  error := some "agent_install_command_required" }
      else .dispatch (.rollout transport target false)

/-- The node's protocols all run as they are configured. -/
def Facts.serve (facts : Facts) (protocols : List String) : Bool :=
  protocols ≠ [] && protocols.all fun protocol =>
    facts.valid.contains protocol && facts.running.contains protocol

/-- `_advance` without a child: what the node has already needs none. -/
def Bootstrap.decideAlone (row : Bootstrap) (node : Node) (probe : Probe) (site : Site) :
    Decision :=
  if row.status = .blocked then
    if row.error = some "node_agent_unavailable" ∧ row.phase ≠ .done then
      match probe with
      | .facts _ => .change { phase := row.phase }
      | _ => .stay
    else .stay
  else if node.desired ≠ row.revision then
    .change { phase := row.phase, status := .blocked, error := some "revision_conflict" }
  else match row.phase with
  | .agent =>
    match probe with
    | .facts _ => .change { phase := .docker }
    | .missing => row.installAgent site
    | .unreachable =>
      if row.childKind = some .restore then row.installAgent site
      else .refuse "node_agent_unavailable"
  | .docker =>
    match probe with
    | .facts facts =>
      if facts.docker then .change { phase := .protocols }
      else .dispatch (.job .installDocker row.revision)
    | _ => .refuse "node_agent_unavailable"
  | .protocols =>
    if node.applied = node.desired then
      match probe with
      | .facts facts =>
        if facts.serve node.protocols then .change { phase := .done, status := .succeeded }
        else .dispatch (.job .bootstrap row.revision)
      | _ => .refuse "node_agent_unavailable"
    else .dispatch (.job .bootstrap row.revision)
  | .done => .dispatch (.job .bootstrap row.revision)

/-- `_advance` with a child. -/
def Bootstrap.decideChild (row : Bootstrap) (child : ℕ) (status : ChildStatus)
    (error : Option String) : Decision :=
  match status with
  | .awaitingExecutor | .running =>
    if row.status = .blocked then
      .change { phase := row.phase, status := .running, child := some child, kind := row.childKind }
    else .stay
  | .blocked =>
    if row.status ≠ .blocked then
      .change { phase := row.phase, status := .blocked, child := some child, kind := row.childKind,
                error := some "child_operation_blocked" }
    else .stay
  | .failed =>
    .change { phase := row.phase, status := .failed, child := some child, kind := row.childKind,
              error := some (error.getD "child_operation_failed") }
  | .superseded | .cancelled =>
    .change { phase := row.phase, status := .superseded,
              error := some "child_operation_superseded" }
  | .succeeded =>
    if row.phase = .protocols then .change { phase := .done, status := .succeeded }
    else .change { phase := if row.phase = .agent then .docker else .protocols }

/-- `_advance`, after it read. -/
def Bootstrap.decide (row : Bootstrap) (seen : Seen) (probe : Probe) (site : Site) : Decision :=
  match seen.recorded with
  | some child =>
    .change { phase := row.phase, status := .running, child := some child,
              kind := some row.phase.table }
  | none =>
    match seen.node with
    | none =>
      .change { phase := row.phase, status := .superseded, error := some "resource_not_found" }
    | some node =>
      if !seen.admin then
        if row.status ≠ .blocked then
          .change { phase := row.phase, status := .blocked, child := row.child,
                    kind := row.childKind, error := some "permission_denied" }
        else .stay
      else match row.child with
      | none => row.decideAlone node probe site
      | some child =>
        match seen.child with
        | none =>
          if row.status ≠ .blocked then
            .change { phase := row.phase, status := .blocked, child := some child,
                      kind := row.childKind, error := some "child_operation_missing" }
          else .stay
        | some (status, error) => row.decideChild child status error

/-! The holder of the worker's lock, between two transactions. -/

inductive Purpose | resume | cancel
  deriving DecidableEq, Repr

inductive Holder
  | idle
  /-- A child's command runs. -/
  | executing (child : ℕ)
  /-- `_advance` has read; the worker catches what it raises. -/
  | advancing (id : ℕ) (row : Bootstrap) (seen : Seen) (worker : Bool)
  /-- The child's transaction is committed, the parent's link is not. -/
  | linking (id : ℕ) (row : Bootstrap) (child : ℕ) (kind : ChildKind) (worker : Bool)
  /-- The blocked child of the bootstrap was resolved. -/
  | resolved (id : ℕ) (row : Bootstrap) (purpose : Purpose)
  /-- The node is drained for a registry retirement. -/
  | retiring (node : ℕ)
  deriving DecidableEq, Repr

structure System where
  db : Db
  holder : Holder

def resting (db : Db) : System := ⟨db, .idle⟩

/-- What `_advance` raises: `run_one` blocks the bootstrap, a repair passes it on. -/
def System.raised (s : System) (id : ℕ) (row : Bootstrap) (worker : Bool) (code : String) :
    System :=
  resting (if worker then
    s.db.change id { phase := row.phase, status := .blocked, child := row.child,
                     kind := row.childKind, error := some code }
  else s.db)

/-- How a child's command ends; a rollout may record a failure that changed nothing. -/
inductive Outcome
  | succeeded
  | blocked (error : Option String) (preflight : Option Bool)
  | failed (error : Option String)
  deriving DecidableEq, Repr

inductive Step
  /-- Requests, without the lock. -/
  | queue (env : Env) (actor node revision : ℕ) (recoverUnreachable : Bool) (id : ℕ)
  | resume (env : Env) (id : ℕ)
  | command (env : Env) (actor node : ℕ) (intent : Intent) (key : Key) (id : ℕ)
  | create (node : ℕ) (row : Node)
  | edit (node revision : ℕ) (runtimeChanged : Bool) (protocols : List String) (complete : Bool)
  /-- The executors of children and of settings. -/
  | start (child : ℕ)
  | finish (outcome : Outcome)
  | recover
  | reconcile (child : ℕ)
  | applied (node : ℕ)
  /-- Repairs of one child. -/
  | resolve (child : ℕ) (answer : Resolution)
  | recheck (child : ℕ)
  | resumePreflight (env : Env) (child : ℕ)
  /-- The coordinator and its repairs. -/
  | advance (id : ℕ) (admin worker : Bool)
  | decide (probe : Probe) (site : Site) (env : Env) (child : ℕ)
  | link
  | fail (code : String)
  | resumeChild (env : Env) (id : ℕ) (answer : Resolution)
  | cancel (id : ℕ) (answer : Resolution)
  | proceed (env : Env) (actor : ℕ) (admin : Bool) (child : ℕ)
  | forceBootstrap (id : ℕ)
  | forceNode (child : ℕ)
  /-- Drains and removals. -/
  | drain (node : ℕ)
  | abandon (node : ℕ)
  | retire
  | removeVerified (node : ℕ)
  /-- The lock's holder dies, or stops on what it raised. -/
  | stop
  deriving DecidableEq, Repr

/-! Requests. -/

/-- A new `uuid4`: no row has it, and no key was derived from it. -/
def Db.fresh (db : Db) (id : ℕ) : Bool :=
  (db.bootstraps.lookup id).isNone && (db.children.lookup id).isNone &&
    !db.children.has fun _ child => child.key.bootstrap = some id

/-- The node has an unfinished job or rollout. -/
def Db.busy (db : Db) (node : ℕ) : Bool :=
  db.pending node .nodeJobs ChildStatus.unfinished ||
    db.pending node .agentRollouts ChildStatus.unfinished

/-- `NodeBootstrapService.queue`. -/
def Db.queue (db : Db) (env : Env) (actor nodeKey revision : ℕ) (recoverUnreachable : Bool)
    (id : ℕ) : Db :=
  match db.nodes.lookup nodeKey with
  | none => db
  | some node =>
    if !env.admitted || !env.admin || node.desired ≠ revision || node.protocols = [] ||
        !node.complete || db.drains.contains nodeKey || !db.idle nodeKey none ||
        db.busy nodeKey || env.others || !db.fresh id then db
    else
      let row : Bootstrap :=
        { node := nodeKey
          actor := actor
          revision := revision
          phase := .agent
          status := .awaitingExecutor
          child := none
          childKind := if recoverUnreachable then some .restore else none
          error := none }
      { db with bootstraps := db.bootstraps.put id row }

/-- `resume`: a committed child is adopted, or the coordinator starts again. -/
def Db.resume (db : Db) (env : Env) (id : ℕ) : Db :=
  match db.bootstraps.lookup id with
  | none => db
  | some row =>
    match db.nodes.lookup row.node with
    | none => db
    | some node =>
      if !env.admitted || row.status ≠ .blocked || row.child.isSome || !env.admin ||
          db.drains.contains row.node || !node.complete then db
      else match db.keyed row.phase.table row.actor (.derived id row.phase) with
      | some (child, found) =>
        if found.node ≠ row.node then db
        else
          let adopted : Bootstrap :=
            { row with
              child := some child
              childKind := some row.phase.table
              status := .running
              error := none }
          { db with bootstraps := db.bootstraps.put id adopted }
      | none =>
        if node.desired ≠ row.revision || db.busy row.node || env.others then db
        else
          let awaits : Bootstrap := { row with status := .awaitingExecutor, error := none }
          { db with bootstraps := db.bootstraps.put id awaits }

def Db.create (db : Db) (node : ℕ) (row : Node) : Db :=
  if (db.nodes.lookup node).isSome || db.retirements.contains node then db
  else { db with nodes := db.nodes.put node row }

/-- An edit waits until nothing else works on the node. -/
def Db.edit (db : Db) (node revision : ℕ) (runtimeChanged : Bool) (protocols : List String)
    (complete : Bool) : Db :=
  if db.drains.contains node || !db.idle node none ||
      (db.nodes.lookup node).any (fun row => row.desired ≠ revision) ||
      db.pending node .nodeJobs ChildStatus.unfinished then db
  else { db with nodes := db.nodes.alter node fun row =>
    { desired := row.desired + 1
      applied := if !runtimeChanged && row.applied = row.desired then row.desired + 1
        else row.applied
      protocols := protocols
      complete := complete } }

/-! The executors of children, and their repairs. -/

def Child.ended (child : Child) : Outcome → Child
  | .succeeded => child.withStatus .succeeded
  | .blocked error preflight =>
    { child with status := .blocked, error := error, preflight := preflight.getD child.preflight }
  | .failed error => { child with status := .failed, error := error }

/-- The end of `run_one`, of either executor. -/
def Db.conclude (db : Db) (id : ℕ) (child : Child) (outcome : Outcome) : Db :=
  match outcome with
  | .succeeded => db.finish id child
  | _ => { db with children := db.children.put id (child.ended outcome) }

def Db.recover (db : Db) : Db :=
  { db with children := db.children.mapRows fun _ child =>
    if child.status = .running then child.withStatus .blocked else child }

/-- The jobs of the node that `statuses` selects are superseded. -/
def Db.supersedeJobs (db : Db) (node : ℕ) (statuses : ChildStatus → Bool) : Db :=
  { db with children := db.children.mapRows fun _ child =>
    if child.node = node ∧ child.intent.kind = .nodeJobs ∧ statuses child.status then
      child.withStatus .superseded
    else child }

/-- `resume_preflight`. -/
def Db.resumePreflight (db : Db) (env : Env) (id : ℕ) : Option Db :=
  match db.children.lookup id with
  | none => none
  | some child =>
    if !db.preflightFailed id child || !env.admitted || !env.admin || !env.connected ||
        db.drains.contains child.node then none
    else some { db with
      children := db.children.put id { child.withStatus .awaitingExecutor with preflight := false } }

/-- The recheck of a blocked rollout, whose agent is current. -/
def Db.recheck (db : Db) (id : ℕ) : Option Db :=
  match db.children.lookup id with
  | none => none
  | some child =>
    if child.intent.kind ≠ .agentRollouts ∨ child.status ≠ .blocked then none
    else some { db with children := db.children.put id (child.withStatus .succeeded) }

/-- A bootstrap that is ended from outside keeps its link. -/
def Bootstrap.superseded (row : Bootstrap) (error : Option String) : Bootstrap :=
  { row with status := .superseded, error := error }

/-- What every forced cancellation asks of the node. -/
def Db.forceable (db : Db) (node : ℕ) : Bool :=
  !db.drains.contains node && !db.pending node .nodeJobs (· = .running) &&
    !db.pending node .agentRollouts (· = .running)

/-- The job is given up without knowing its outcome. -/
def Db.force (db : Db) (id : ℕ) (child : Child) : Db :=
  { db with
    children := db.children.put id
      { child with status := .superseded, error := some "operator_force_cancelled" }
    nodes := db.nodes.alter child.node fun node =>
      { node with desired :=
          if child.revision < node.desired then node.desired + 1 else child.revision + 1 } }

def Db.forceBootstrap (db : Db) (id : ℕ) : Db :=
  match db.bootstraps.lookup id with
  | none => db
  | some row =>
    match row.child.bind fun child => (db.children.lookup child).map (child, ·) with
    | none => db
    | some (childId, child) =>
      if row.status ≠ .blocked ∨ row.childKind ≠ some .nodeJobs ∨ child.intent.kind ≠ .nodeJobs ∨
          child.node ≠ row.node ∨ child.status ≠ .blocked ∨ !db.forceable row.node then db
      else
        let forced := db.force childId child
        let ended := row.superseded (some "operator_force_cancelled")
        { forced with bootstraps := forced.bootstraps.put id ended }

/-- Cancelling a child directly also releases its parent. -/
def Db.forceNode (db : Db) (id : ℕ) : Db :=
  match db.children.lookup id with
  | none => db
  | some child =>
    if child.intent.kind ≠ .nodeJobs ∨ child.status ≠ .blocked ∨ !db.forceable child.node then db
    else
      let forced := db.force id child
      { forced with bootstraps := forced.bootstraps.mapRows fun _ row =>
        if row.child = some id ∧ row.node = child.node ∧ row.status = .blocked then
          row.superseded (some "operator_force_cancelled")
        else row }

/-! Drains and removals. -/

/-- `start_drain`. -/
def Db.drain (db : Db) (node : ℕ) : Db :=
  if (db.nodes.lookup node).isNone || db.drains.contains node || !db.idle node none ||
      db.pending node .agentRollouts queued ||
      db.pending node .nodeJobs (fun status => status = .running || status = .blocked) then db
  else { db.supersedeJobs node (· = .awaitingExecutor) with drains := node :: db.drains }

/-- `start_drain` with `abandon_uncertain_settings`. -/
def Db.abandon (db : Db) (node : ℕ) : Db :=
  if db.drains.contains node then db
  else { db.supersedeJobs node ChildStatus.unfinished with
    bootstraps := db.bootstraps.mapRows fun _ row =>
      if row.node = node ∧ row.active then row.superseded row.error else row
    drains := node :: db.drains }

/-- The registry forgets the node, and its key is not used again. -/
def Db.remove (db : Db) (node : ℕ) : Db :=
  { db with
    nodes := db.nodes.keep fun key _ => key ≠ node
    drains := db.drains.filter (· ≠ node)
    retirements := node :: db.retirements }

/-- `retire_registry_only`, after the drain. -/
def Db.retire (db : Db) (node : ℕ) : Db :=
  let fenced := db.children.mapRows fun _ child =>
    if child.node = node ∧ child.intent.kind = .agentRollouts ∧ queued child.status then
      child.withStatus .blocked
    else child
  (Db.supersedeJobs { db with children := fenced } node ChildStatus.unfinished).remove node

/-! The coordinator's steps. -/

/-- A repair goes on by itself only from a child that ended. -/
def Db.rechecks (db : Db) (row : Bootstrap) : Bool :=
  row.status = .blocked && (row.child.bind db.children.lookup).any fun child =>
    child.status = .succeeded || child.status = .superseded

def System.advance (s : System) (id : ℕ) (admin worker : Bool) : System :=
  match s.db.bootstraps.lookup id with
  | none => s
  | some row =>
    if row.active && (worker || s.db.rechecks row) then
      ⟨s.db, .advancing id row (s.db.seen id row admin) worker⟩
    else s

def System.decide (s : System) (id : ℕ) (row : Bootstrap) (seen : Seen) (worker : Bool)
    (probe : Probe) (site : Site) (env : Env) (child : ℕ) : System :=
  match row.decide seen probe site with
  | .stay => resting s.db
  | .change values => resting (s.db.change id values)
  | .refuse code => s.raised id row worker code
  | .dispatch intent =>
    if (s.db.children.lookup child).isSome then s
    else match s.db.enqueue env row.actor row.node intent (.derived id row.phase)
        (some (id, row.phase)) child with
    | .error code => s.raised id row worker code
    | .ok (db, child) => ⟨db, .linking id row child intent.kind worker⟩

/-- `resume_child`, as far as its first transaction of a child. -/
def System.resumeChild (s : System) (env : Env) (id : ℕ) (answer : Resolution) : System :=
  match s.db.bootstraps.lookup id with
  | none => s
  | some row =>
    if row.status ≠ .blocked then s
    else match row.child with
    | none => resting (s.db.resume env id)
    | some child =>
      if row.childKind = some .agentRollouts then
        match s.db.resumePreflight env child with
        | some db => ⟨db, .linking id row child .agentRollouts false⟩
        | none =>
          if (s.db.children.lookup child).any fun found => s.db.preflightFailed child found then s
          else match answer with
          | .retired => ⟨s.db, .advancing id row (s.db.seen id row env.admin) false⟩
          | .finished =>
            match s.db.recheck child with
            | some db => ⟨db, .advancing id row (db.seen id row env.admin) false⟩
            | none => s
      else match s.db.resolve child answer with
      | some db => ⟨db, .resolved id row .resume⟩
      | none => s

/-- The cancellation of a bootstrap, as far as its child's resolution. -/
def System.cancel (s : System) (id : ℕ) (answer : Resolution) : System :=
  match s.db.bootstraps.lookup id with
  | none => s
  | some row =>
    match row.child with
    | none => s
    | some child =>
      if row.status ≠ .blocked then s
      else if row.childKind = some .nodeJobs then
        match s.db.resolve child answer with
        | some db => ⟨db, .resolved id row .cancel⟩
        | none => s
      else match s.db.children.lookup child with
      | none => s
      | some found =>
        if !s.db.preflightFailed child found then s
        else resting { s.db with
          children := s.db.children.put child (found.withStatus .cancelled)
          bootstraps := s.db.bootstraps.put id (row.superseded (some "setup_cancelled")) }

/-- What follows the resolution of a child: its replacement under a key of its own, or the end of
the bootstrap. -/
def System.proceed (s : System) (id : ℕ) (row : Bootstrap) (purpose : Purpose) (env : Env)
    (actor : ℕ) (admin : Bool) (new : ℕ) : System :=
  match purpose with
  | .cancel =>
    let bootstraps := s.db.bootstraps.alter id fun row =>
      if row.status = .blocked then row.superseded (some "setup_cancelled") else row
    resting { s.db with bootstraps := bootstraps }
  | .resume =>
    match row.child.bind fun child => (s.db.children.lookup child).map (child, ·) with
    | none => resting s.db
    | some (old, child) =>
      match child.status, child.intent, s.db.nodes.lookup row.node with
      | .succeeded, _, _ => ⟨s.db, .advancing id row (s.db.seen id row admin) false⟩
      | .superseded, .job action _, some node =>
        if (s.db.children.lookup new).isSome then s
        else match s.db.enqueue env actor row.node (.job action node.desired)
            (.replacing id row.phase old) (some (id, row.phase)) new with
        | .error _ => resting s.db
        | .ok (db, child) => ⟨db, .linking id row child .nodeJobs false⟩
      | _, _, _ => resting s.db

/-- A step of the lock's holder, which must be idle for it. -/
def System.whenIdle (s : System) (step : System) : System :=
  if s.holder = .idle then step else s

def System.step (s : System) : Step → System
  | .queue env actor node revision recoverUnreachable id =>
    ⟨s.db.queue env actor node revision recoverUnreachable id, s.holder⟩
  | .resume env id => ⟨s.db.resume env id, s.holder⟩
  | .command env actor node intent key id =>
    if (s.db.children.lookup id).isSome then s
    else match s.db.enqueue env actor node intent key none id with
    | .error _ => s
    | .ok (db, _) => ⟨db, s.holder⟩
  | .create node row => ⟨s.db.create node row, s.holder⟩
  | .edit node revision runtimeChanged protocols complete =>
    ⟨s.db.edit node revision runtimeChanged protocols complete, s.holder⟩
  | .start id => s.whenIdle (match s.db.children.lookup id with
    | none => s
    | some child =>
      if child.status ≠ .awaitingExecutor then s
      else
        let children := s.db.children.put id (child.withStatus .running)
        ⟨{ s.db with children := children }, .executing id⟩)
  | .finish outcome =>
    match s.holder with
    | .executing id =>
      match s.db.children.lookup id with
      | none => resting s.db
      | some child =>
        if child.status ≠ .running then resting s.db
        else resting (s.db.conclude id child outcome)
    | _ => s
  | .recover => s.whenIdle (resting s.db.recover)
  | .reconcile id => s.whenIdle (match s.db.resolve id .finished with
    | none => s
    | some db => resting db)
  | .applied node =>
    let nodes := s.db.nodes.alter node fun row => { row with applied := row.desired }
    s.whenIdle (resting { s.db with nodes := nodes })
  | .resolve id answer => s.whenIdle (match s.db.resolve id answer with
    | none => s
    | some db => resting db)
  | .recheck id => s.whenIdle (match s.db.recheck id with
    | none => s
    | some db => resting db)
  | .resumePreflight env id => s.whenIdle (match s.db.resumePreflight env id with
    | none => s
    | some db => resting db)
  | .advance id admin worker => s.whenIdle (s.advance id admin worker)
  | .decide probe site env child =>
    match s.holder with
    | .advancing id row seen worker => s.decide id row seen worker probe site env child
    | _ => s
  | .link =>
    match s.holder with
    | .linking id row child kind _ => resting (s.db.change id
        { phase := row.phase, status := .running, child := some child, kind := some kind })
    | _ => s
  | .fail code =>
    match s.holder with
    | .advancing id row _ true => s.raised id row true code
    | .linking id row _ _ true => s.raised id row true code
    | _ => s
  | .resumeChild env id answer => s.whenIdle (s.resumeChild env id answer)
  | .cancel id answer => s.whenIdle (s.cancel id answer)
  | .proceed env actor admin child =>
    match s.holder with
    | .resolved id row purpose => s.proceed id row purpose env actor admin child
    | _ => s
  | .forceBootstrap id => s.whenIdle (resting (s.db.forceBootstrap id))
  | .forceNode child => s.whenIdle (resting (s.db.forceNode child))
  | .drain node => s.whenIdle (resting (s.db.drain node))
  | .abandon node => s.whenIdle (
      if (s.db.nodes.lookup node).isNone then s else ⟨s.db.abandon node, .retiring node⟩)
  | .retire =>
    match s.holder with
    | .retiring node => resting (s.db.retire node)
    | _ => s
  | .removeVerified node => s.whenIdle (
      if s.db.drains.contains node then resting (s.db.remove node) else s)
  | .stop => resting s.db

def System.run (s : System) (steps : List Step) : System := steps.foldl System.step s

/-- An installation without bootstraps and commands. -/
def System.initial (nodes : Table ℕ Node) : System :=
  ⟨{ bootstraps := ∅, children := ∅, nodes := nodes, drains := [], retirements := [] }, .idle⟩

end Bootstraps
end NodePlane
