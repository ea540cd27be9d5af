import Mathlib.Data.Prod.Lex
import Mathlib.Algebra.Group.Int.Defs
import Mathlib.Data.String.Basic
import NodePlane.Library.Incumbent
import NodePlane.Library.Table
import NodePlane.Agent.Json

/-! Owned VPN policy values, their effective resolution per target and the command that sets them. -/
namespace NodePlane
namespace Policies
open Library

/-- A registered key; `setting` is the field that node settings intents carry its value in. -/
structure PolicyKey where
  name : String
  subjects : List String
  scopes : List String
  validate : Json → Option Json
  default : Json
  protocols : List String
  setting : Option String

def protocols : List String := ["awg", "xray"]

/-- The registered keys, under unique names. -/
structure Registry where
  keys : List PolicyKey
  distinct : (keys.map PolicyKey.name).Nodup

def Registry.find (reg : Registry) (name : String) : Option PolicyKey :=
  reg.keys.find? fun spec => spec.name = name

def integer (minimum maximum : ℤ) : Json → Option Json
  | .int n => if minimum ≤ n ∧ n ≤ maximum then some (.int n) else none
  | _ => none

def choice (values : List String) : Json → Option Json
  | .str s => if s ∈ values then some (.str s) else none
  | _ => none

def mode : Json → Option Json := choice ["off", "observe", "enforce"]

/-- A time zone name that the host knows; UTC needs no database. -/
def timeZone (known : String → Bool) : Json → Option Json
  | .str s => if 1 ≤ s.length ∧ s.length ≤ 64 ∧ (s = "UTC" ∨ known s) then some (.str s) else none
  | _ => none

/-- The keys of the controller. -/
def registry (known : String → Bool) : Registry where
  keys :=
    [⟨"devices.max", ["installation", "profile"], ["global"], integer 1 1000, .null, protocols, none⟩,
    ⟨"connections.mode", ["installation", "profile", "device"], ["global", "node"], mode, .str "off",
      ["xray"], none⟩,
    ⟨"connections.max_sources", ["installation", "profile", "device"], ["global", "node"],
      integer 1 100, .int 1, ["xray"], none⟩,
    ⟨"connections.window_seconds", ["installation"], ["global"], integer 30 3600, .int 120, ["xray"],
      none⟩,
    ⟨"connections.cooldown_seconds", ["installation"], ["global"], integer 0 86400, .int 30, ["xray"],
      none⟩,
    ⟨"quota.bytes", ["installation", "profile"], ["global"], integer 0 (10 ^ 15), .null, protocols, none⟩,
    ⟨"quota.reset", ["installation", "profile"], ["global"],
      choice ["calendar_month", "monthly_anchor", "interval", "none"], .str "calendar_month", protocols,
      none⟩,
    ⟨"quota.interval_days", ["installation", "profile"], ["global"], integer 1 366, .int 30, protocols,
      none⟩,
    ⟨"quota.on_exhausted", ["installation", "profile"], ["global"], choice ["freeze", "notify", "throttle"],
      .str "freeze", protocols, none⟩,
    ⟨"quota.throttle_kbit", ["installation", "profile"], ["global"], integer 64 100000000, .int 1000,
      protocols, none⟩,
    ⟨"quota.timezone", ["installation"], ["global"], timeZone known, .str "UTC", protocols, none⟩,
    ⟨"speed.up_kbit", ["installation", "profile", "device"], ["global", "node"], integer 0 100000000,
      .null, protocols, none⟩,
    ⟨"speed.down_kbit", ["installation", "profile", "device"], ["global", "node"], integer 0 100000000,
      .null, protocols, none⟩,
    ⟨"xray.bittorrent", ["installation"], ["global", "node"], choice ["allow", "block"], .str "allow",
      ["xray"], some "xray_bittorrent"⟩]
  distinct := show ["devices.max", "connections.mode", "connections.max_sources",
    "connections.window_seconds", "connections.cooldown_seconds", "quota.bytes", "quota.reset",
    "quota.interval_days", "quota.on_exhausted", "quota.throttle_kbit", "quota.timezone", "speed.up_kbit",
    "speed.down_kbit", "xray.bittorrent"].Nodup by decide

inductive Subject
  | installation
  | profile (id : ℕ)
  | device (id : ℕ)
  deriving DecidableEq, Repr

/-- A protocol's value is always one node's. -/
inductive Scope
  | everywhere
  | node (key : String)
  | nodeProtocol (key protocol : String)
  deriving DecidableEq, Repr

def Scope.name : Scope → String
  | .everywhere => "global"
  | .node _ => "node"
  | .nodeProtocol _ _ => "node_protocol"

def Scope.nodeKey : Scope → Option String
  | .everywhere => none
  | .node key | .nodeProtocol key _ => some key

def Scope.protocol : Scope → Option String
  | .nodeProtocol _ protocol => some protocol
  | _ => none

/-- What a row sets. -/
structure Place where
  subject : Subject
  scope : Scope
  key : String
  deriving DecidableEq, Repr

structure Row where
  value : Json
  revision : ℕ
  updatedAt : ℕ
  deriving DecidableEq

structure Device where
  profile : ℕ
  active : Bool
  deriving DecidableEq, Repr

structure Node where
  protocols : List String
  desired : ℕ
  deriving DecidableEq, Repr

structure KeyView where
  key : String
  value : Json
  revision : ℕ
  default : Json
  effective : Json
  tariff : Option Json
  deriving DecidableEq

structure ValueView where
  key : String
  nodeKey : Option String
  protocol : Option String
  value : Json
  revision : ℕ
  updatedAt : ℕ
  deriving DecidableEq

structure SetResult where
  subject : Subject
  keys : List KeyView
  values : List ValueView
  deriving DecidableEq

/-- A command by its fingerprint, with the result once it succeeded. -/
structure Command where
  subjectKind : String
  subjectId : Option ℕ
  changes : Json
  result : Option SetResult
  deriving DecidableEq

/-- The tables that policies read and write; `refused` is the code with which the maintenance gate
turns new work away. -/
structure Db where
  policies : Table Place Row
  /-- A profile's tariff with its values. -/
  tariffs : Table ℕ (Table String Json)
  /-- The profiles, whether they are being deleted. -/
  profiles : Table ℕ Bool
  devices : Table ℕ Device
  nodes : Table String Node
  commands : Table (ℕ × ℕ × ℕ) Command
  refused : Option String

namespace Db
variable (db : Db)

/-- `tariffs.profile_values`. -/
def profileValues (profile : ℕ) : Table String Json := (db.tariffs.lookup profile).getD ∅

/-- The order of a subject's rows: by key, node and protocol. -/
def rowBefore (a b : Place × Row) : Bool :=
  toLex (a.1.key, toLex (a.1.scope.nodeKey.getD "", a.1.scope.protocol.getD "")) ≤
    toLex (b.1.key, toLex (b.1.scope.nodeKey.getD "", b.1.scope.protocol.getD ""))

/-- `_rows`. -/
def rowsOf (subject : Subject) : List (Place × Row) :=
  (db.policies.rows.filter fun row => row.1.subject = subject).mergeSort rowBefore

end Db

/-- Whom a value is resolved for. -/
structure Target where
  profile : Option ℕ
  device : Option ℕ
  node : Option String
  protocol : Option String
  deriving DecidableEq, Repr

/-- The rank of a subject, then of the scope. -/
abbrev Rank := ℕ ×ₗ ℕ

def Scope.rank : Scope → ℕ
  | .everywhere => 0
  | .node _ => 1
  | .nodeProtocol _ _ => 2

/-- The scope holds for the target. -/
def Scope.covers (target : Target) : Scope → Bool
  | .everywhere => true
  | .node key => target.node = some key
  | .nodeProtocol key protocol => target.node = some key && target.protocol = some protocol

/-- The best values so far, by key. -/
abbrev Best := String → Option (Rank × Json)

def Best.assign (best : Best) (name : String) (rank : Rank) (value : Json) : Best :=
  Function.update best name (some (rank, value))

inductive Layer
  | rows (subject : Subject)
  | tariff (profile : ℕ)
  deriving DecidableEq, Repr

/-- The subjects of a target, from the most general. -/
def layers (profile device : Option ℕ) : List Layer :=
  [.rows .installation] ++ (profile.elim [] fun id => [.tariff id, .rows (.profile id)]) ++
    device.elim [] fun id => [.rows (.device id)]

section Resolution
variable (names : List String) (target : Target)

/-- One row of a layer. -/
def considerRow (subjectRank : ℕ) (best : Best) (row : Place × Row) : Best :=
  if row.1.key ∉ names then best
  else if !row.1.scope.covers target then best
  else
    let order : Rank := toLex (subjectRank, row.1.scope.rank)
    match best row.1.key with
    | none => best.assign row.1.key order row.2.value
    | some (incumbent, _) => if incumbent ≤ order then best.assign row.1.key order row.2.value else best

/-- One value of the tariff. -/
def considerTariff (subjectRank : ℕ) (best : Best) (item : String × Json) : Best :=
  if item.1 ∈ names then best.assign item.1 (toLex (subjectRank, 0)) item.2 else best

def considerLayer (db : Db) (best : Best) (layer : Layer × ℕ) : Best :=
  match layer.1 with
  | .rows subject => (db.rowsOf subject).foldl (considerRow names target layer.2) best
  | .tariff profile => (db.profileValues profile).rows.foldl (considerTariff names layer.2) best

/-- The pass over the layers. -/
def resolve (db : Db) : Best :=
  (layers target.profile target.device).zipIdx.foldl (considerLayer names target db) fun _ => none

end Resolution

variable (reg : Registry)

/-- The target with the device's profile. -/
def Target.settle (db : Db) (target : Target) : Except String Target :=
  if target.protocol.isSome && target.node.isNone then .error "protocol scope requires a node"
  else
    match target.device with
    | none => .ok target
    | some device =>
      match db.devices.lookup device with
      | none => .error "device does not belong to profile"
      | some row =>
        if target.profile.any (· ≠ row.profile) then .error "device does not belong to profile"
        else .ok { target with profile := some row.profile }

/-- Resolves registered keys for one target; unset keys give their defaults. -/
def effective (db : Db) (target : Target) (keys : Option (List String)) :
    Except String (List (String × Json)) := do
  let target ← target.settle db
  let names := keys.getD (reg.keys.map PolicyKey.name)
  if names.any fun name => (reg.find name).isNone then .error "unknown policy key"
  else
    return names.map fun name =>
      (name, ((resolve names target db name).map Prod.snd).getD ((reg.find name).elim .null PolicyKey.default))

/-- One resolved value of a node. -/
def nodeValue (db : Db) (nodeKey protocol : String) (spec : PolicyKey) : Json :=
  match effective reg db ⟨none, none, some nodeKey, some protocol⟩ (some [spec.name]) with
  | .ok values => (values.lookup spec.name).getD .null
  | .error _ => .null

/-- Resolved node runtime values that are not the default, by the settings field. -/
def runtimeSettings (db : Db) (nodeKey : String) (protocols : List String) : String → Option Json :=
  reg.keys.foldl (fun values spec =>
    match spec.setting with
    | none => values
    | some setting => (spec.protocols.filter (· ∈ protocols)).foldl (fun values protocol =>
        let value := nodeValue reg db nodeKey protocol spec
        if value ≠ spec.default then Function.update values setting (some value) else values) values)
    fun _ => none

/-- `_mark_nodes`: a changed runtime value needs the node's settings applied; a global change skips
nodes with their own value. -/
def markNodes (db : Db) (spec : PolicyKey) (nodeKey : Option String) : Db :=
  let overridden (key : String) : Bool :=
    nodeKey.isNone && (db.policies.lookup ⟨.installation, .node key, spec.name⟩).isSome
  { db with nodes := db.nodes.mapRows fun key node =>
      if (nodeKey.all (· = key)) && !overridden key && spec.protocols.any (· ∈ node.protocols) then
        { node with desired := node.desired + 1 }
      else node }

structure Denied where
  code : String
  status : ℕ
  deriving DecidableEq, Repr

/-- Who sends a command, with the permissions that hold for the account. -/
structure Actor where
  principal : ℕ
  account : ℕ
  permits : String → Bool

/-- A parsed change; no value removes the subject's own. -/
structure Change where
  name : String
  scope : Scope
  value : Option Json
  revision : ℕ
  deriving DecidableEq

/-- `_change`. -/
def parseChange (db : Db) (subjectKind : String) (change : Json) : Except Denied (PolicyKey × Change) :=
  let invalid : Denied := ⟨"invalid_input", 422⟩
  match change.asObject with
  | none => .error invalid
  | some members =>
    if !members.all (fun member => member.1 ∈ ["key", "node_key", "protocol", "value", "revision"]) ||
        !(Json.containsKey members "key" && Json.containsKey members "revision") then .error invalid
    else
      match (change.field "key").asStr.bind reg.find, change.field "revision" with
      | some spec, .int revision =>
        if subjectKind ∉ spec.subjects ∨ revision < 0 then .error invalid
        else if spec.setting.isSome ∧ subjectKind ≠ "installation" then .error invalid
        else
          let scope : Option Scope := match change.field "node_key", change.field "protocol" with
            | .null, .null => some .everywhere
            | .str key, .null => some (.node key)
            | .str key, .str protocol =>
              if protocol ∈ spec.protocols then some (.nodeProtocol key protocol) else none
            | _, _ => none
          match scope with
          | none => .error invalid
          | some scope =>
            if scope.name ∉ spec.scopes then .error invalid
            else if scope.nodeKey.any fun key => (db.nodes.lookup key).isNone then
              .error ⟨"resource_not_found", 404⟩
            else
              match change.field "value" with
              | .null => .ok (spec, ⟨spec.name, scope, none, revision.toNat⟩)
              | value =>
                match spec.validate value with
                | none => .error ⟨"invalid_policy_value", 422⟩
                | some value => .ok (spec, ⟨spec.name, scope, some value, revision.toNat⟩)
      | _, _ => .error invalid

/-- `_lock_subject`: the subject row proves that the subject exists. -/
def lockSubject (db : Db) (subjectKind : String) (subjectId : Option ℕ) : Except Denied Subject :=
  if subjectKind = "installation" then
    if subjectId.isSome then .error ⟨"invalid_input", 422⟩ else .ok .installation
  else
    match subjectId with
    | none => .error ⟨"invalid_input", 422⟩
    | some id =>
      if subjectKind = "profile" then
        if db.profiles.lookup id = some false then .ok (.profile id)
        else .error ⟨"resource_not_found", 404⟩
      else if (db.devices.lookup id).any Device.active then .ok (.device id)
      else .error ⟨"resource_not_found", 404⟩

/-- One change of a command. -/
def applyChange (db : Db) (subject : Subject) (now : ℕ) (item : PolicyKey × Change) : Except Denied Db :=
  let change := item.2
  let place : Place := ⟨subject, change.scope, change.name⟩
  let row := db.policies.lookup place
  if (row.map Row.revision).getD 0 ≠ change.revision then .error ⟨"revision_conflict", 412⟩
  else
    let db := if item.1.setting.isSome then markNodes db item.1 change.scope.nodeKey else db
    match change.value, row with
    | none, _ => .ok { db with policies := db.policies.erase place }
    | some value, some row =>
      .ok { db with policies := db.policies.put place ⟨value, row.revision + 1, now⟩ }
    | some value, none => .ok { db with policies := db.policies.put place ⟨value, 1, now⟩ }

def applyChanges (db : Db) (subject : Subject) (now : ℕ) : List (PolicyKey × Change) → Except Denied Db
  | [] => .ok db
  | item :: rest => do
    let db ← applyChange db subject now item
    applyChanges db subject now rest

def Subject.kind : Subject → String
  | .installation => "installation"
  | .profile _ => "profile"
  | .device _ => "device"

def Subject.target : Subject → Target
  | .installation => ⟨none, none, none, none⟩
  | .profile id => ⟨some id, none, none, none⟩
  | .device id => ⟨none, some id, none, none⟩

/-- `_keys`: each key that the subject may set globally. -/
def keyViews (db : Db) (subject : Subject) : List KeyView :=
  let specs := reg.keys.filter fun spec => subject.kind ∈ spec.subjects ∧ "global" ∈ spec.scopes
  let resolved := match effective reg db subject.target (some (specs.map PolicyKey.name)) with
    | .ok values => values
    | .error _ => []
  (specs.mergeSort fun a b => a.name ≤ b.name).map fun spec =>
    let own := db.policies.lookup ⟨subject, .everywhere, spec.name⟩
    { key := spec.name
      value := own.elim .null Row.value
      revision := own.elim 0 Row.revision
      default := spec.default
      effective := (resolved.lookup spec.name).getD .null
      tariff := match subject with
        | .profile id => some (((db.profileValues id).lookup spec.name).getD .null)
        | _ => none }

def valueViews (db : Db) (subject : Subject) : List ValueView :=
  ((db.rowsOf subject).filter fun row => (reg.find row.1.key).isSome).map fun row =>
    ⟨row.1.key, row.1.scope.nodeKey, row.1.scope.protocol, row.2.value, row.2.revision, row.2.updatedAt⟩

/-- A set command; no key stands for one that is no UUID. -/
structure Request where
  actor : Actor
  commandKey : Option ℕ
  subjectKind : String
  subjectId : Option ℕ
  changes : Json
  now : ℕ

/-- The checks before the transaction, then the command's identity and its changes. -/
def Request.check (r : Request) : Except Denied ((ℕ × ℕ × ℕ) × List Json) :=
  match r.commandKey with
  | none => .error ⟨"invalid_idempotency_key", 422⟩
  | some key =>
    if r.subjectKind ∉ ["installation", "profile", "device"] then .error ⟨"invalid_input", 422⟩
    else if !r.actor.permits (if r.subjectKind = "installation" then "settings.manage"
        else "profiles.manage") then .error ⟨"permission_denied", 403⟩
    else
      match r.changes.asArray with
      | none => .error ⟨"invalid_input", 422⟩
      | some changes =>
        if changes.length < 1 ∨ 50 < changes.length then .error ⟨"invalid_input", 422⟩
        else .ok ((r.actor.principal, r.actor.account, key), changes)

/-- The transaction of `set`. -/
def setBody (db : Db) (r : Request) (identity : ℕ × ℕ × ℕ) (changes : List Json) :
    Except Denied (SetResult × Db) := do
  if let some code := db.refused then
    throw ⟨code, 409⟩
  let command := (db.commands.lookup identity).getD ⟨r.subjectKind, r.subjectId, r.changes, none⟩
  if (command.subjectKind, command.subjectId, command.changes) ≠
      (r.subjectKind, r.subjectId, r.changes) then
    throw ⟨"idempotency_conflict", 409⟩
  match command.result with
  | some result => return (result, db)
  | none => do
    let subject ← lockSubject db r.subjectKind r.subjectId
    let parsed ← changes.mapM (parseChange reg db r.subjectKind)
    if ¬ (parsed.map fun item => (item.2.name, item.2.scope)).Nodup then
      throw ⟨"invalid_input", 422⟩
    let db ← applyChanges db subject r.now parsed
    let result : SetResult := ⟨subject, keyViews reg db subject, valueViews reg db subject⟩
    return (result, { db with commands := db.commands.put identity { command with result := some result } })

/-- `set`: an error rolls the transaction back. -/
def set (db : Db) (r : Request) : Except Denied SetResult × Db :=
  match r.check >>= fun (identity, changes) => setBody reg db r identity changes with
  | .ok (result, db) => (.ok result, db)
  | .error err => (.error err, db)

end Policies
end NodePlane
