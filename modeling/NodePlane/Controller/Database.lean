import NodePlane.Library.Table

/-! The controller's database: the rows of access, of the outbox of profile
operations, and of the nodes with their two queues. -/
namespace NodePlane
namespace Controller
open Library

/-- Identities drawn by `uuid4`: only that they are new matters. -/
abbrev Uuid := ℕ
abbrev NodeKey := String
abbrev Time := ℕ

inductive Protocol where
  | awg | xray
  deriving DecidableEq, Repr

inductive Action where
  | ensure | delete
  deriving DecidableEq, Repr

/-- The statuses of the three queues; only a node job can have `failed`. -/
inductive Status where
  | awaitingExecutor | running | blocked | succeeded | superseded | failed
  deriving DecidableEq, Repr

namespace Status

def pending : Status → Bool
  | awaitingExecutor | running | blocked => true
  | _ => false

def held : Status → Bool
  | running | blocked => true
  | _ => false

def finished : Status → Bool
  | succeeded | superseded => true
  | _ => false

theorem pending_iff (s : Status) : s.pending = true ↔ s = awaitingExecutor ∨ s.held = true := by
  cases s <;> simp [pending, held]

theorem pending_of_held {s : Status} (h : s.held = true) : s.pending = true :=
  (pending_iff s).mpr (.inr h)

end Status

/-! Access: profiles, grants, devices and their credentials. -/

/-- `backend_profiles`; `blocked` is an open, blocked quota period. -/
structure Profile where
  owner : Uuid
  desiredRevision : ℕ
  frozen : Bool
  expiresAt : Option Time
  blocked : Bool
  deriving DecidableEq, Repr

abbrev Target := NodeKey × Protocol

structure Grant where
  profile : Uuid
  node : NodeKey
  protocol : Protocol
  deriving DecidableEq, Repr

def Grant.target (g : Grant) : Target := (g.node, g.protocol)

inductive DeviceStatus where
  | active | deleting | retired
  deriving DecidableEq, Repr

structure Device where
  profile : Uuid
  runtimeName : Uuid
  status : DeviceStatus
  deriving DecidableEq, Repr

/-- `backend_device_credentials`: the device's Xray client. -/
structure Credential where
  runtimeName : Uuid
  uuid : Uuid
  deriving DecidableEq, Repr

/-- An AWG peer replaced by `rotate_awg`, until every node has removed it. -/
structure RetiredPeer where
  profile : Uuid
  runtimeName : Uuid
  deriving DecidableEq, Repr

structure Access where
  profiles : Table Uuid Profile
  /-- `backend_profile_deletions`, with the operation that revokes the profile. -/
  deletions : Table Uuid (Option Uuid)
  /-- Accounts with the role `admin`. -/
  admins : List Uuid
  /-- `backend_account_deletions` without `completed_at`. -/
  accountDeletions : List Uuid
  grants : List Grant
  devices : Table Uuid Device
  credentials : Table Uuid Credential
  /-- `backend_profile_identities`: the profile's Xray short id. -/
  identities : Table Uuid Uuid
  retiredPeers : Table Uuid RetiredPeer

/-! The outbox of profile operations. -/

/-- The payload of a task beyond its own columns. -/
structure Intent where
  runtimeName : Uuid
  expiresAt : Option Time
  xray : Option (Uuid × Uuid)
  deriving DecidableEq, Repr

/-- The columns of a task that never change, joined with those of its operation. -/
structure TaskRow where
  id : Uuid
  operation : Uuid
  createdAt : Time
  profile : Uuid
  revision : ℕ
  node : NodeKey
  protocol : Protocol
  device : Uuid
  action : Action
  intent : Intent
  deriving DecidableEq, Repr

/-- `backend_operation_tasks`; `forced` is the result `operator_force_cancelled`. -/
structure Task where
  row : TaskRow
  status : Status
  forced : Bool
  deriving DecidableEq, Repr

inductive OperationStatus where
  | noTargets | pending (status : Status)
  deriving DecidableEq, Repr

structure Operation where
  id : Uuid
  profile : Uuid
  actor : Uuid
  desiredRevision : ℕ
  createdAt : Time
  status : OperationStatus
  deriving DecidableEq, Repr

structure Outbox where
  operations : List Operation
  tasks : List Task

/-! The nodes, their settings queue and their job queue. -/

/-- The settings an agent writes: the public settings of a node, and the node
runtime values that VPN policies resolve to. -/
inductive Field where
  | publicHost | xrayHost | xraySni | xrayTcpPort | xrayXhttpPort | xrayXhttpPath
  | awgPublicHost | awgPort | xrayFingerprint | awgInterface | awgI1Preset | awgPortMode
  | awgParameters | ipv6Outbound | xrayBittorrent
  deriving DecidableEq, Repr

inductive Value where
  | text (s : String) | port (n : ℕ)
  deriving DecidableEq, Repr

abbrev Settings := Field → Option Value

def Field.all : List Field :=
  [publicHost, xrayHost, xraySni, xrayTcpPort, xrayXhttpPort, xrayXhttpPath, awgPublicHost,
    awgPort, xrayFingerprint, awgInterface, awgI1Preset, awgPortMode, awgParameters,
    ipv6Outbound, xrayBittorrent]

instance : DecidableEq Settings := fun s t =>
  decidable_of_iff (∀ f ∈ Field.all, s f = t f)
    ⟨fun h => funext fun f => h f (by cases f <;> decide), fun h f _ => congrFun h f⟩

inductive Transport where
  | tcp | xhttp
  deriving DecidableEq, Repr

structure Node where
  enabled : Bool
  protocols : List Protocol
  xrayTransports : List Transport
  settings : Settings
  desiredRevision : ℕ
  appliedRevision : ℕ

/-- `intent_json` of the two node queues. -/
structure NodeIntent where
  protocols : List Protocol
  settings : Settings
  removeProtocols : List Protocol
  requestedRevision : ℕ

structure SettingsTask where
  id : Uuid
  node : NodeKey
  revision : ℕ
  intent : NodeIntent
  status : Status

inductive JobAction where
  | bootstrap | reinstallKeep | reinstallClean | cleanupRuntime | installDocker | checkPorts
  | openPorts | syncRuntime | syncEnv | syncXray | regenerateEntropy | reconcileAccess
  deriving DecidableEq, Repr

structure Job where
  id : Uuid
  node : NodeKey
  action : JobAction
  revision : ℕ
  intent : NodeIntent
  status : Status

/-- `backend_node_bootstraps`: an installation coordinator and its status. -/
structure Bootstrap where
  id : Uuid
  node : NodeKey
  status : Status
  deriving DecidableEq, Repr

inductive Bittorrent where
  | allow | block
  deriving DecidableEq, Repr

/-- The values of `xray.bittorrent`: for the installation, and of single nodes. -/
structure Policies where
  installation : Option Bittorrent
  nodes : Table NodeKey Bittorrent

inductive Retirement where
  | verified | registryOnly
  deriving DecidableEq, Repr

structure Fleet where
  nodes : Table NodeKey Node
  policies : Policies
  /-- `backend_agent_installations`. -/
  installations : List NodeKey
  settingsTasks : List SettingsTask
  jobs : List Job
  bootstraps : List Bootstrap
  drains : List NodeKey
  cleanups : List NodeKey
  retirements : Table NodeKey Retirement

/-- What `maintenance_gate` reads: a system cleanup or an update gate, whether that
gate is a core upgrade, and a restore. -/
structure Maintenance where
  active : Bool
  coreUpgrade : Bool
  restore : Bool

structure Db where
  access : Access
  outbox : Outbox
  fleet : Fleet
  maintenance : Maintenance
  /-- Below this bound every identity has been drawn. -/
  fresh : Uuid

def Db.empty : Db where
  access := ⟨∅, ∅, [], [], [], ∅, ∅, ∅, ∅⟩
  outbox := ⟨[], []⟩
  fleet := ⟨∅, ⟨none, ∅⟩, [], [], [], [], [], [], ∅⟩
  maintenance := ⟨false, false, false⟩
  fresh := 0

/-! A transaction refuses with the code of its `AccessDenied`, and then changes
nothing. -/

abbrev Result (α : Type) := Except String α

/-- `if refused: raise AccessDenied(code)`. -/
def deny {α : Type} (refused : Bool) (code : String) (rest : Result α) : Result α :=
  if refused then .error code else rest

/-- `if row is None: raise AccessDenied(code)`. -/
def need {α β : Type} (row : Option α) (code : String) (rest : α → Result β) : Result β :=
  match row with
  | none => .error code
  | some r => rest r

@[simp] theorem deny_ok {α : Type} {refused : Bool} {code : String} {rest : Result α} {a : α} :
    deny refused code rest = .ok a ↔ refused = false ∧ rest = .ok a := by
  cases refused <;> simp [deny]

@[simp] theorem need_ok {α β : Type} {row : Option α} {code : String} {rest : α → Result β}
    {b : β} : need row code rest = .ok b ↔ ∃ r, row = some r ∧ rest r = .ok b := by
  cases row <;> simp [need]

/-- `maintenance_gate.admit`: no new work beside maintenance. -/
def admitted {α : Type} (db : Db) (rest : Result α) : Result α :=
  deny db.maintenance.active "system_cleanup_in_progress" <|
    deny db.maintenance.restore "restore_in_progress" rest

@[simp] theorem admitted_ok {α : Type} {db : Db} {rest : Result α} {a : α} :
    admitted db rest = .ok a ↔
      db.maintenance.active = false ∧ db.maintenance.restore = false ∧ rest = .ok a := by
  simp [admitted]

end Controller
end NodePlane
