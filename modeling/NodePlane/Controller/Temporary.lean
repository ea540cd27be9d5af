import NodePlane.Controller.System

/-! Temporary configurations: leases of their own identity on one node. The worker issues
and revokes them under its lock; unknown ensures are never replayed. -/
namespace NodePlane
namespace Controller
open Library

inductive LeaseStatus where
  | queued | issuing | active | blocked | revoking | revokeBlocked | expired | revoked | cancelled
  deriving DecidableEq, Repr

/-- `TERMINAL`. -/
def LeaseStatus.terminal : LeaseStatus → Bool
  | expired | revoked | cancelled => true
  | _ => false

inductive LeaseTransport where
  | vpn | conf | tcp | xhttp
  deriving DecidableEq, Repr

/-- The node's own transport that an Xray lease uses. -/
def LeaseTransport.xray : LeaseTransport → Option Transport
  | tcp => some .tcp
  | xhttp => some .xhttp
  | _ => none

inductive RevokeReason where
  | manual | expiry | nodeChanged
  deriving DecidableEq, Repr

/-- `backend_temporary_configs`; `identity` is the Xray client of its intent. -/
structure Lease where
  id : Uuid
  node : NodeKey
  nodeRevision : ℕ
  protocol : Protocol
  transport : LeaseTransport
  duration : ℕ
  identity : Uuid
  status : LeaseStatus
  createdAt : Time
  expiresAt : Option Time
  reason : Option RevokeReason
  deriving DecidableEq, Repr

/-- The answer to `temporary_ensure`: whether its revocation mode is one of the
protocol's, and its AWG artifact well formed. -/
structure LeaseReceipt where
  expiresAt : Time
  modeKnown : Bool
  xrayUuid : Option Uuid
  artifact : Bool
  deriving DecidableEq, Repr

inductive AgentState where
  | active | expired | revoked | other
  deriving DecidableEq, Repr

/-- The answer to `temporary_status`. -/
structure AgentLease where
  status : AgentState
  enforcementReady : Bool
  expiresAt : Time
  deriving DecidableEq, Repr

inductive LeaseEvent where
  /-- `temporary_ensure` is handed to the driver, not as a lookup. -/
  | ensured (id : Uuid)
  | granted (id : Uuid) (expiry : Time)
  | polled (id : Uuid) (state : AgentLease)
  /-- `temporary_revoke` is handed to the driver. -/
  | revoked (id : Uuid)
  /-- Somebody asks for the end of the lease. -/
  | revocation (id : Uuid)
  | core (e : Event)

namespace TemporaryConfig

def durations : List ℕ := [43200, 86400, 259200]

/-- The transports of a protocol. -/
def fits : Protocol → LeaseTransport → Bool
  | .awg, .vpn | .awg, .conf | .xray, .tcp | .xray, .xhttp => true
  | _, _ => false

/-- `UPDATE backend_temporary_configs SET … WHERE p`. -/
def update (leases : List Lease) (p : Lease → Bool) (f : Lease → Lease) : List Lease :=
  leases.map fun l => if p l then f l else l

def find (leases : List Lease) (id : Uuid) : Option Lease := leases.find? fun l => l.id = id

/-- `ready_node`. -/
def readyNode (db : Db) (key : NodeKey) (protocol : Protocol) (transport : LeaseTransport) :
    Result Node :=
  need (db.fleet.nodes.lookup key) "resource_not_found" fun node =>
    deny (!node.enabled || node.desiredRevision ≠ node.appliedRevision) "node_settings_pending" <|
    deny (!node.protocols.contains protocol || (protocol = .xray &&
      !transport.xray.any node.xrayTransports.contains)) "config_not_supported" <|
    deny (db.fleet.draining key || db.fleet.cleanups.contains key || db.fleet.retired key)
      "node_draining" <|
    deny (db.fleet.jobPending key || db.fleet.settingsPending key) "node_settings_pending" <|
      .ok node

/-- `create`, for an idempotency key not used before. -/
def create (db : Db) (next : Uuid) (leases : List Lease) (now : Time) (key : NodeKey)
    (protocol : Protocol) (transport : LeaseTransport) (duration : ℕ) : Result (List Lease) :=
  deny (!durations.contains duration || !fits protocol transport) "invalid_input" <|
    admitted db <|
      (readyNode db key protocol transport).bind fun node =>
        .ok (leases ++ [{
          id := next
          node := key
          nodeRevision := node.desiredRevision
          protocol := protocol
          transport := transport
          duration := duration
          identity := next + 1
          status := .queued
          createdAt := now
          expiresAt := none
          reason := none }])

/-- The status that a request for its end leads to. -/
def ending (l : Lease) : Lease :=
  { l with
    status := if l.status = .queued then .cancelled else .revoking
    reason := some .manual }

def revoke (db : Db) (leases : List Lease) (id : Uuid) : Result (List Lease) :=
  admitted db <|
    need (find leases id) "resource_not_found" fun l =>
      .ok (if l.status.terminal ∨ l.status = .revoking then leases
        else update leases (fun m => m.id = id) ending)

def recover (leases : List Lease) : List Lease :=
  update leases (fun l => l.status = .issuing) fun l => { l with status := .blocked }

/-- No work beside maintenance. -/
def paused (db : Db) : Bool := db.maintenance.active || db.maintenance.restore

def overdue (now : Time) (l : Lease) : Bool :=
  l.status = .active && l.expiresAt.any (· ≤ now)

/-- One lease of `scheduled`: its node was retired, or its time is up. -/
def lapse (db : Db) (now : Time) (l : Lease) : Lease :=
  if l.status.terminal then l
  else match db.fleet.retirements.lookup l.node with
    | some .verified => { l with status := .revoked }
    | some .registryOnly => { l with status := .cancelled }
    | none =>
      if overdue now l then { l with status := .revoking, reason := some .expiry } else l

def scheduled (db : Db) (leases : List Lease) (now : Time) : List Lease :=
  if paused db then leases else leases.map (lapse db now)

/-- Leases whose end `scheduled` asks for. -/
def lapsed (db : Db) (leases : List Lease) (now : Time) : List Lease :=
  if paused db then []
  else leases.filter fun l => !l.status.terminal && (db.fleet.retired l.node || overdue now l)

/-! What a node edit does to the leases of the node. -/

def removable (node : NodeKey) (removed : List Protocol) (l : Lease) : Bool :=
  l.node = node && removed.contains l.protocol && !l.status.terminal

/-- The end of `revoke_removed_protocols`; a revocation under way stays as it is. -/
def revokeRemoved (leases : List Lease) (node : NodeKey) (removed : List Protocol) : List Lease :=
  update leases
    (fun l => removable node removed l && l.status ≠ .revoking && l.status ≠ .revokeBlocked) ending

def carry (leases : List Lease) (node : NodeKey) (revision : ℕ) (p : Lease → Bool) : List Lease :=
  update leases (fun l => l.node = node && l.nodeRevision = revision && p l)
    fun l => { l with nodeRevision := revision + 1 }

def dropped (n m : Node) : List Protocol := n.protocols.filter fun p => !m.protocols.contains p

/-- Leases follow an edit from `n` to `m` that leaves their own service alone. -/
def follow (leases : List Lease) (key : NodeKey) (revision : ℕ) (previous : Settings)
    (n m : Node) : List Lease :=
  let leases := revokeRemoved leases key (dropped n m)
  let runtimeChanged := (m.protocols ≠ n.protocols ∨ m.xrayTransports ≠ n.xrayTransports ∨
    m.settings ≠ previous) ∧ ¬(n.protocols = [] ∧ m.protocols = [])
  if ¬runtimeChanged then carry leases key revision fun _ => true
  else if dropped n m ≠ [] ∧ dropped m n = [] ∧ m.settings = previous ∧
      (.xray ∉ m.protocols ∨ m.xrayTransports = n.xrayTransports) then
    carry leases key revision fun l => m.protocols.contains l.protocol
  else leases

/-- The protocols that queueing settings revokes once more. -/
def resumed (db : Db) (key : NodeKey) : List Protocol :=
  match db.fleet.nodes.lookup key with
  | none => []
  | some n =>
    let removed := ((NodeService.appliedProtocols db.fleet key n).getD []).filter
      fun p => !n.protocols.contains p
    if (ForceRecovery.forcedTasks db key).any fun t => removed.contains t.row.protocol then removed
    else []

/-- The protocols whose leases a request ends. -/
def removedBy (db next : Db) : Request → NodeKey × List Protocol
  | .editNode _ _ key _ _ _ _ =>
    match db.fleet.nodes.lookup key, next.fleet.nodes.lookup key with
    | some n, some m => (key, dropped n m)
    | _, _ => (key, [])
  | .queueSettings _ _ key _ _ => (key, resumed db key)
  | _ => ("", [])

/-- The leases after a request that led from `db` to `next`. -/
def after (db next : Db) (leases : List Lease) : Request → List Lease
  | .editNode _ _ key revision _ draws _ =>
    match db.fleet.nodes.lookup key, next.fleet.nodes.lookup key with
    | some n, some m =>
      follow leases key revision (n.settings.protocolDefaults draws.1 n.protocols) n m
    | _, _ => leases
  | .queueSettings _ _ key _ _ => revokeRemoved leases key (resumed db key)
  | _ => leases

/-! The worker. -/

/-- Settings of the lease's own service are still to be applied. -/
def awaits (db : Db) (l : Lease) : Bool :=
  (db.fleet.nodes.lookup l.node).any fun n => n.desiredRevision = l.nodeRevision &&
    n.appliedRevision ≠ n.desiredRevision && n.protocols.contains l.protocol

/-- A row that `run_one` may select: revocations run before protocol cleanup. -/
def runnable (db : Db) (l : Lease) : Bool :=
  l.status = .revoking ||
    (l.status = .queued && !db.fleet.settingsPending l.node && !awaits db l)

def candidate (db : Db) (leases : List Lease) (id : Uuid) : Option Lease :=
  leases.find? fun l => l.id = id && runnable db l &&
    leases.all fun m => !runnable db m || l.createdAt ≤ m.createdAt

/-- The node is still the one that the lease was requested on. -/
def current (db : Db) (l : Lease) : Bool :=
  match readyNode db l.node l.protocol l.transport with
  | .error _ => false
  | .ok node => node.desiredRevision = l.nodeRevision

def setStatus (leases : List Lease) (id : Uuid) (old new : LeaseStatus) : List Lease :=
  update leases (fun l => l.id = id && l.status = old) fun l => { l with status := new }

/-- The receipt is one for this lease. -/
def validReceipt (now : Time) (l : Lease) (r : LeaseReceipt) : Bool :=
  decide (now < r.expiresAt) && decide (r.expiresAt ≤ now + (l.duration + 5)) && r.modeKnown &&
    (match l.protocol with
      | .xray => r.xrayUuid == some l.identity
      | .awg => r.artifact)

def enforced (r : LeaseReceipt) (state : AgentLease) : Bool :=
  state.status = .active && state.enforcementReady && state.expiresAt = r.expiresAt

def usable (db : Db) (l : Lease) : Bool :=
  (db.fleet.nodes.lookup l.node).any fun n =>
    n.enabled && n.desiredRevision = l.nodeRevision && l.nodeRevision = n.appliedRevision

/-- The transaction of `_finish_issue`: a concurrent revoke is never overwritten. -/
def activate (db : Db) (leases : List Lease) (id : Uuid) (r : LeaseReceipt) : List Lease :=
  update leases (fun l => l.id = id && (l.status = .issuing || l.status = .blocked)) fun l =>
    { l with
      status := if usable db l then .active else .revoking
      expiresAt := some r.expiresAt
      reason := if usable db l then none else some .nodeChanged }

end TemporaryConfig

/-- What the worker does with a lease between two transactions; `run` tells `run_one`,
which issues it, from a later look at its evidence. -/
inductive LeaseWorker where
  | idle
  | issuing (lease : Lease)
  | replying (lease : Lease) (run : Bool)
  | granted (lease : Lease) (receipt : LeaseReceipt) (run : Bool)
  | revoking (lease : Lease) (sent : Bool)
  | reading (lease : Lease)
  | resolving (lease : Lease)

/-- The controller with its leases. Their worker shares the lock of the others. -/
structure TemporarySystem where
  core : System
  leases : List Lease
  worker : LeaseWorker
  /-- Rows that a pass of `reconcile` has read and not yet looked into. -/
  batch : List Lease
  /-- Below this bound every lease identity has been drawn. -/
  next : Uuid

def TemporarySystem.start : TemporarySystem := ⟨System.start, [], .idle, [], 0⟩

inductive TemporaryCall where
  | core (c : Call)
  | create (now : Time) (key : NodeKey) (protocol : Protocol) (transport : LeaseTransport)
      (duration : ℕ)
  | revoke (id : Uuid)
  | scheduled (now : Time)
  | recover
  /-- `run_one` up to its first commit. -/
  | claim (id : Uuid)
  | sendEnsure
  /-- The receipt of an ensure or of its lookup, or none when the reply is lost. -/
  | receive (now : Time) (reply : Option LeaseReceipt)
  | poll (reply : Option AgentLease)
  | sendRevoke
  /-- Whether `temporary_revoke` came back with a known mode. -/
  | confirmRevoke (confirmed : Bool)
  | reconcile
  | nextRow
  | recheck (id : Uuid)
  | read (reply : Option AgentState)
  | resolve (id : Uuid)
  | resolved (confirmed : Bool)
  | crash

namespace TemporarySystem
open TemporaryConfig

/-- The check of `is_revocation_confirmed` on temporary configurations. -/
def terminal (leases : List Lease) (node : NodeKey) (removed : List Protocol) : Bool :=
  leases.all fun l => !removable node removed l

def terminalFor (s : TemporarySystem) (task : SettingsTask) : Bool :=
  terminal s.leases task.node task.intent.removeProtocols

def terminalTask (s : TemporarySystem) (id : Uuid) : Bool :=
  (NodeSettingsExecutor.find s.core.db.fleet id .awaitingExecutor).all s.terminalFor

/-- The call with what it reads of the leases. -/
def checked (s : TemporarySystem) : Call → Call
  | .inspectNode id _ => .inspectNode id (s.terminalTask id)
  | .repair (.skimSettings id _) => .repair (.skimSettings id (s.terminalTask id))
  | .claimSettings _ => .claimSettings (match s.core.holder with
    | .inspecting task _ _ => s.terminalFor task
    | _ => true)
  | c => c

def coreStep (s : TemporarySystem) (c : Call) : TemporarySystem × List LeaseEvent :=
  let out := s.core.exec (s.checked c)
  ({ s with core := out.1 }, out.2.map .core)

/-- A request, with what it does to the leases when it is not refused. -/
def requestStep (s : TemporarySystem) (r : Request) : TemporarySystem × List LeaseEvent :=
  match r.exec s.core.db with
  | .error _ => (s, [])
  | .ok db =>
    let removed := removedBy s.core.db db r
    let ended := s.leases.filter (removable removed.1 removed.2)
    ({ s with
      core := ⟨db, s.core.holder⟩
      leases := TemporaryConfig.after s.core.db db s.leases r }, ended.map fun l => .revocation l.id)

/-- The end of the worker's step, with these leases. -/
def done (s : TemporarySystem) (leases : List Lease) : TemporarySystem :=
  { s with leases := leases, worker := .idle }

/-- `run_one` failed: the outcome of its command is unknown. -/
def failIssue (s : TemporarySystem) (id : Uuid) (run : Bool) : TemporarySystem :=
  s.done (if run then setStatus s.leases id .issuing .blocked else s.leases)

def claim (s : TemporarySystem) (id : Uuid) : TemporarySystem × List LeaseEvent :=
  if paused s.core.db then (s, [])
  else match candidate s.core.db s.leases id with
    | none => (s, [])
    | some l =>
      if l.status = .queued then
        if current s.core.db l then
          ({ s with
            leases := setStatus s.leases id .queued .issuing
            worker := .issuing l }, [])
        else (s.done (setStatus s.leases id .queued .cancelled), [])
      else ({ s with worker := .revoking l false }, [])

def receive (s : TemporarySystem) (l : Lease) (run : Bool) (now : Time)
    (reply : Option LeaseReceipt) : TemporarySystem × List LeaseEvent :=
  match reply with
  | none => (s.failIssue l.id run, [])
  | some r =>
    if validReceipt now l r then
      ({ s with worker := .granted l r run }, [.granted l.id r.expiresAt])
    else (s.failIssue l.id run, [])

def poll (s : TemporarySystem) (l : Lease) (r : LeaseReceipt) (run : Bool)
    (reply : Option AgentLease) : TemporarySystem × List LeaseEvent :=
  match reply with
  | none => (s.failIssue l.id run, [])
  | some state =>
    if enforced r state then
      (s.done (activate s.core.db s.leases l.id r), [.polled l.id state])
    else (s.failIssue l.id run, [.polled l.id state])

def confirmRevoke (s : TemporarySystem) (l : Lease) (confirmed : Bool) : TemporarySystem :=
  s.done (setStatus s.leases l.id .revoking
    (if !confirmed then .revokeBlocked
    else if l.reason = some .expiry then .expired else .revoked))

/-- `reconcile_one` on the answer of the agent. -/
def read (s : TemporarySystem) (l : Lease) (reply : Option AgentState) : TemporarySystem :=
  let confirm := fun status => s.done (update s.leases
    (fun m => m.id = l.id && (m.status = .blocked || m.status = .revokeBlocked))
    fun m => { m with status := status })
  match reply with
  | none => s.done s.leases
  | some .expired => confirm .expired
  | some .revoked => confirm .revoked
  | some _ =>
    if l.status = .blocked then { s with worker := .replying l false } else s.done s.leases

/-- The row of a repair, which holds the lock and finds a command without an outcome. -/
def select (s : TemporarySystem) (id : Uuid) (p : LeaseStatus → Bool)
    (worker : Lease → LeaseWorker) : TemporarySystem :=
  match find s.leases id with
  | none => s
  | some l => if p l.status ∧ paused s.core.db = false then { s with worker := worker l } else s

/-- `ORDER BY created_at, id LIMIT 100` of the leases without an outcome. -/
def uncertain (leases : List Lease) : List Lease :=
  ((leases.filter fun l => l.status = .blocked || l.status = .revokeBlocked).mergeSort
    fun l m => l.createdAt < m.createdAt || (l.createdAt = m.createdAt && l.id ≤ m.id)).take 100

def idle (s : TemporarySystem) : Bool :=
  match s.worker, s.batch with
  | .idle, [] => true
  | _, _ => false

/-- The lock is free, for the lease worker to take. -/
def unlocked (s : TemporarySystem) : Bool :=
  match s.core.holder with
  | .free => s.idle
  | _ => false

def exec (s : TemporarySystem) : TemporaryCall → TemporarySystem × List LeaseEvent
  | .core (.request r) => s.requestStep r
  | .core c => if s.idle then s.coreStep c else (s, [])
  | .create now key protocol transport duration =>
    match create s.core.db s.next s.leases now key protocol transport duration with
    | .error _ => (s, [])
    | .ok leases => ({ s with leases := leases, next := s.next + 2 }, [])
  | .revoke id =>
    match revoke s.core.db s.leases id with
    | .error _ => (s, [])
    | .ok leases => ({ s with leases := leases }, [.revocation id])
  | .scheduled now =>
    if s.unlocked then
      ({ s with leases := scheduled s.core.db s.leases now },
        (lapsed s.core.db s.leases now).map fun l => .revocation l.id)
    else (s, [])
  | .recover => if s.unlocked then ({ s with leases := recover s.leases }, []) else (s, [])
  | .claim id => if s.unlocked then s.claim id else (s, [])
  | .sendEnsure =>
    match s.worker with
    | .issuing l => ({ s with worker := .replying l true }, [.ensured l.id])
    | _ => (s, [])
  | .receive now reply =>
    match s.worker with
    | .replying l run => s.receive l run now reply
    | _ => (s, [])
  | .poll reply =>
    match s.worker with
    | .granted l r run => s.poll l r run reply
    | _ => (s, [])
  | .sendRevoke =>
    match s.worker with
    | .revoking l false => ({ s with worker := .revoking l true }, [.revoked l.id])
    | _ => (s, [])
  | .confirmRevoke confirmed =>
    match s.worker with
    | .revoking l true => (s.confirmRevoke l confirmed, [])
    | _ => (s, [])
  | .reconcile =>
    if s.unlocked ∧ paused s.core.db = false then ({ s with batch := uncertain s.leases }, [])
    else (s, [])
  | .nextRow =>
    match s.worker, s.batch with
    | .idle, l :: rest => ({ s with worker := .reading l, batch := rest }, [])
    | _, _ => (s, [])
  | .recheck id =>
    if s.unlocked then
      (s.select id (fun status => status = .blocked || status = .revokeBlocked) .reading, [])
    else (s, [])
  | .read reply =>
    match s.worker with
    | .reading l => (s.read l reply, [])
    | _ => (s, [])
  | .resolve id =>
    if s.unlocked then (s.select id (· = .blocked) .resolving, []) else (s, [])
  | .resolved confirmed =>
    match s.worker with
    | .resolving l =>
      (s.done (if confirmed then setStatus s.leases l.id .blocked .cancelled else s.leases), [])
    | _ => (s, [])
  | .crash => ({ s with worker := .idle, batch := [] }, [])

/-- The controller after `calls`. -/
def after (calls : List TemporaryCall) : TemporarySystem := (run exec start calls).1

def history (calls : List TemporaryCall) : List LeaseEvent := (run exec start calls).2

end TemporarySystem
end Controller
end NodePlane
