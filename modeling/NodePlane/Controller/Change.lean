import NodePlane.Controller.System

/-! What the transactions of the controller do to the database, in single changes.
Changes that take no lock leave every claimed row alone; `allow` limits which jobs
may be confirmed in which fleet. -/
namespace NodePlane
namespace Controller
open Library

/-- A status moves on: queued work may be given up, and a claimed command ends only
under the lock. -/
def Status.Settles (locked : Bool) (s t : Status) : Prop :=
  t = s ∨ (s = .awaitingExecutor ∧ t = .superseded) ∨
    (locked = true ∧ s.held = true ∧ t ≠ .awaitingExecutor ∧ t ≠ .running)

namespace Status.Settles
variable {locked : Bool} {s t : Status}

theorem refl (locked : Bool) (s : Status) : s.Settles locked s := .inl rfl

theorem pending (h : s.Settles locked t) (now : t.pending = true) : s.pending = true := by
  rcases h with rfl | ⟨rfl, rfl⟩ | ⟨_, held, _⟩
  · exact now
  · rfl
  · exact Status.pending_of_held held

theorem held (h : s.Settles locked t) (now : t.held = true) : s.held = true := by
  rcases h with rfl | ⟨rfl, rfl⟩ | ⟨_, held, _⟩
  · exact now
  · cases now
  · exact held

theorem finished (h : s.Settles locked t) (done : s.finished = true) : t.finished = true := by
  rcases h with rfl | ⟨rfl, rfl⟩ | ⟨_, held, _⟩
  · exact done
  · rfl
  · cases s <;> simp_all [Status.finished, Status.held]

theorem final (h : s.Settles locked t) (done : s.finished = true) : t = s := by
  rcases h with rfl | ⟨rfl, rfl⟩ | ⟨_, held, _⟩
  · rfl
  · cases done
  · cases s <;> simp_all [Status.finished, Status.held]

/-- Without the lock a claimed command stays as it is. -/
theorem unlocked (h : s.Settles false t) (held : s.held = true) : t = s := by
  rcases h with rfl | ⟨rfl, rfl⟩ | ⟨bad, _⟩
  · rfl
  · cases held
  · cases bad

end Status.Settles

structure Task.Moves (locked : Bool) (t u : Task) : Prop where
  row : u.row = t.row
  status : t.status.Settles locked u.status

structure SettingsTask.Moves (locked : Bool) (s t : SettingsTask) : Prop where
  row : t = { s with status := t.status }
  status : s.status.Settles locked t.status

structure Job.Moves (locked : Bool) (j k : Job) : Prop where
  row : k = { j with status := k.status }
  status : j.status.Settles locked k.status

/-- A device keeps its profile, and never becomes active again. -/
structure Device.Le (d e : Device) : Prop where
  profile : e.profile = d.profile
  active : e.status = .active → d.status = .active

/-- Access rows over one change, with new identities drawn from `fresh`. -/
structure Access.Grows (db : Db) (a : Access) (fresh : Uuid) : Prop where
  later : db.fresh ≤ fresh
  profiles : db.access.profiles.Grows (fun p q => p.desiredRevision ≤ q.desiredRevision)
    a.profiles
  newProfiles : ∀ id p, a.profiles.lookup id = some p →
    (db.access.profiles.lookup id).isSome ∨ id < fresh
  devices : db.access.devices.Grows Device.Le a.devices
  newDevices : ∀ id d, a.devices.lookup id = some d →
    (db.access.devices.lookup id).isSome ∨ (db.fresh ≤ id ∧ id < fresh)
  credentials : ∀ id, (db.access.credentials.lookup id).isSome →
    (a.credentials.lookup id).isSome
  newSlots : ∀ slot r, a.retiredPeers.lookup slot = some r →
    db.access.retiredPeers.lookup slot = some r ∨
      (db.fresh ≤ slot ∧ slot < fresh ∧ a.devices.lookup slot = none)
  slotOwners : ∀ slot r, a.retiredPeers.lookup slot = some r →
    db.access.retiredPeers.lookup slot = some r ∨
      ∃ id d, a.devices.lookup id = some d ∧ d.profile = r.profile
  slots : ∀ slot r, db.access.retiredPeers.lookup slot = some r →
    a.retiredPeers.lookup slot = some r ∨ (a.retiredPeers.lookup slot = none ∧
      DeviceRepository.removed db (DeviceRepository.deviceTasks db r.profile slot) = true)

/-- Every ensure for the node is followed by a delete of the same target. -/
def Revoked (tasks : List Task) (node : NodeKey) : Prop :=
  ∀ t ∈ tasks, t.row.node = node → t.row.action = .ensure →
    ∃ u ∈ tasks, u.row.profile = t.row.profile ∧ u.row.node = t.row.node ∧
      u.row.protocol = t.row.protocol ∧ u.row.device = t.row.device ∧
      u.row.action = .delete ∧ t.row.revision < u.row.revision

section Fleet
/-- A new row of a node queue, under the identity `db.fresh`. -/
inductive Enqueue (locked : Bool) (db : Db) : Fleet → Prop
  | queueSettings {key : NodeKey} {node : Node} {draw : ℕ} {intent : NodeIntent}
      (removed : List Protocol) (row : db.fleet.nodes.lookup key = some node)
      (open_ : db.fleet.draining key = false) (jobs : db.fleet.jobPending key = false)
      (settings : db.fleet.settingsPending key = false)
      (taken : NodeSettings.snapshot draw db.fleet key node = .ok intent) :
    Enqueue locked db { db.fleet with
      settingsTasks := db.fleet.settingsTasks ++
        [⟨db.fresh, key, node.desiredRevision, { intent with removeProtocols := removed },
          .awaitingExecutor⟩] }
  | replaceSettings {s : SettingsTask} {node : Node} {draw : ℕ} {intent : NodeIntent}
      (removed : List Protocol) (held : locked = true) (row : s ∈ db.fleet.settingsTasks)
      (blocked : s.status = .blocked) (found : db.fleet.nodes.lookup s.node = some node)
      (open_ : db.fleet.draining s.node = false)
      (others : ∀ t ∈ db.fleet.settingsTasks, t.node = s.node → t.status.pending = true →
        t.id = s.id)
      (taken : NodeSettings.snapshot draw db.fleet s.node
        { node with enabled := false,
                    desiredRevision := max node.desiredRevision s.revision + 1 } = .ok intent) :
    Enqueue locked db { db.fleet with
      nodes := db.fleet.nodes.put s.node { node with
        enabled := false, desiredRevision := max node.desiredRevision s.revision + 1 }
      settingsTasks := (db.fleet.settingsTasks.map fun t =>
          if t.id = s.id then { t with status := .superseded } else t) ++
        [⟨db.fresh, s.node, max node.desiredRevision s.revision + 1,
          { intent with removeProtocols := removed }, .awaitingExecutor⟩] }
  | queueJob {key : NodeKey} {node : Node} {action : JobAction} {draw : ℕ}
      {intent : NodeIntent} (row : db.fleet.nodes.lookup key = some node)
      (open_ : db.fleet.draining key = false) (jobs : db.fleet.jobPending key = false)
      (settings : db.fleet.settingsPending key = false) (tasks : taskPending db key = false)
      (clean : action = .cleanupRuntime → node.appliedRevision = node.desiredRevision)
      (taken : NodeOperations.snapshot db.fleet key node action draw = .ok intent) :
    Enqueue locked db { db.fleet with
      nodes := if action.invalidate then
        db.fleet.nodes.put key
          { node with
            enabled := false
            desiredRevision := if action.invalidate then node.desiredRevision + 1
              else node.desiredRevision }
        else db.fleet.nodes
      jobs := db.fleet.jobs ++ [⟨db.fresh, key, action,
        if action.invalidate then node.desiredRevision + 1 else node.desiredRevision,
        { intent with requestedRevision := node.desiredRevision }, .awaitingExecutor⟩] }

variable (locked : Bool) (allow : Fleet → Job → Prop) (db : Db)

inductive FleetChange : List Event → Fleet → Prop
  | notes (installations : List NodeKey) (bootstraps : List Bootstrap) :
    FleetChange [] { db.fleet with installations := installations, bootstraps := bootstraps }
  | settings (f : SettingsTask → SettingsTask)
      (moves : ∀ s ∈ db.fleet.settingsTasks, s.Moves locked (f s)) :
    FleetChange [] { db.fleet with settingsTasks := db.fleet.settingsTasks.map f }
  | jobs (f : Job → Job) (moves : ∀ j ∈ db.fleet.jobs, j.Moves locked (f j)) :
    FleetChange [] { db.fleet with jobs := db.fleet.jobs.map f }
  | claimSettings {s : SettingsTask} (held : locked = true) (row : s ∈ db.fleet.settingsTasks)
      (queued : s.status = .awaitingExecutor) (open_ : db.fleet.draining s.node = false)
      (tasks : taskHeld db s.node = false) :
    FleetChange [] (NodeSettingsExecutor.setStatus db.fleet s.id .running)
  | writeSettings {s : SettingsTask} {r : NodeSettings.Receipt} {settings : Settings}
      (held : locked = true) (row : s ∈ db.fleet.settingsTasks) (sent : s.status.held = true)
      (valid : NodeSettings.validResult s.node s.revision s.intent r = some settings) :
    FleetChange [.wrote s.node s.revision (Runtime.of s.intent.protocols settings)]
      { NodeSettingsExecutor.setStatus db.fleet s.id .succeeded with
        installations := s.node :: db.fleet.installations
        nodes := NodeSettingsExecutor.applied db.fleet s settings r.awgPort }
  | claimJob {j : Job} (held : locked = true) (row : j ∈ db.fleet.jobs)
      (queued : j.status = .awaitingExecutor) :
    FleetChange [] (NodeOperations.setStatus db.fleet (fun k => k.id = j.id) .running)
  | finishJob {j : Job} {r : NodeOperations.Receipt} {settings : Settings}
      (installations : List NodeKey) (held : locked = true) (row : j ∈ db.fleet.jobs)
      (sent : j.status.held = true) (allowed : allow db.fleet j) (action : r.action = j.action)
      (valid : NodeOperations.confirmed j r = some settings) :
    FleetChange (NodeOperations.confirmations j settings)
      { NodeOperations.setStatus db.fleet (fun k => k.id = j.id) .succeeded with
        installations := installations
        nodes := NodeOperations.completed db.fleet j settings r.awgPort }
  | create {key : NodeKey} {protocols : List Protocol} (transports : List Transport)
      (settings : Settings) (draw : ℕ) (unused : db.fleet.nodes.lookup key = none)
      (unfenced : db.fleet.retired key = false) :
    FleetChange [] { db.fleet with
      nodes := db.fleet.nodes.put key
        ⟨false, protocols, transports, settings.protocolDefaults draw protocols, 1, 0⟩ }
  | edit {key : NodeKey} {node : Node} (protocols : List Protocol)
      (transports : List Transport) (settings : Settings) (draws : ℕ × ℕ)
      (row : db.fleet.nodes.lookup key = some node) (jobs : db.fleet.jobPending key = false)
      (valid : (settings.protocolDefaults draws.2 protocols).invalid protocols = false) :
    FleetChange [] { db.fleet with
      nodes := db.fleet.nodes.put key (NodeService.edited node
        (node.settings.protocolDefaults draws.1 node.protocols) protocols transports
        (settings.protocolDefaults draws.2 protocols)) }
  | policies (scope : Option NodeKey) (value : Option Bittorrent) :
    FleetChange [] (VpnPolicies.change db.fleet scope value)
  | repair : FleetChange [] (NodeOperations.repairRemovedRuntimeState db.fleet)
  | disable (key : NodeKey) :
    FleetChange [] { db.fleet with
      nodes := db.fleet.nodes.alter key fun n => { n with enabled := false } }
  | drain {key : NodeKey} (held : locked = true)
      (row : (db.fleet.nodes.lookup key).isSome = true)
      (disabled : ∀ n, db.fleet.nodes.lookup key = some n → n.enabled = false)
      (jobs : db.fleet.jobPending key = false) (settings : db.fleet.settingsPending key = false)
      (revoked : Revoked db.outbox.tasks key) :
    FleetChange [] { db.fleet with drains := key :: db.fleet.drains }
  | cleanup {key : NodeKey} (held : locked = true) (draining : db.fleet.draining key = true)
      (complete : NodeLifecycle.revocationsComplete db key = true) :
    FleetChange [] { db.fleet with cleanups := key :: db.fleet.cleanups }
  | remove {key : NodeKey} (mode : Retirement) (held : locked = true)
      (row : (db.fleet.nodes.lookup key).isSome = true)
      (draining : db.fleet.draining key = true) :
    FleetChange [] (NodeLifecycle.remove db.fleet key mode)
  | advance (key : NodeKey) (revision : ℕ) :
    FleetChange [] { db.fleet with nodes := ForceRecovery.advance db.fleet.nodes key revision }

end Fleet

/-- What never changes of an operation. -/
def Operation.columns (o : Operation) : Uuid × Uuid × ℕ := (o.id, o.profile, o.desiredRevision)

/-- The recorded operations, whatever their statuses. -/
def SameOperations (db : Db) (operations : List Operation) : Prop :=
  operations.map Operation.columns = db.outbox.operations.map Operation.columns

section Changes
variable (locked : Bool) (allow : Fleet → Job → Prop)

inductive Change : Db → List Event → Db → Prop
  | access {db : Db} {a : Access} {operations : List Operation} {fresh : Uuid}
      (grows : Access.Grows db a fresh) (kept : SameOperations db operations) :
    Change db [] { db with access := a, outbox.operations := operations, fresh := fresh }
  | maintain {db : Db} (maintenance : Maintenance) :
    Change db [] { db with maintenance := maintenance }
  /-- Only a target whose tasks all lie behind the profile's revision is recorded;
  a recording without a scope covers every target of the profile. -/
  | record {db : Db} (now : Time) (actor profile : Uuid) (previous : List Target)
      (scope : Option (List Target))
      (behind : ∀ t ∈ db.outbox.tasks, ∀ p, t.row.profile = profile →
        db.access.profiles.lookup profile = some p → t.row.revision < p.desiredRevision)
      (covers : ∀ t ∈ db.outbox.tasks, t.row.profile = profile →
        scope.all (·.contains (t.row.node, t.row.protocol)) = true →
        (t.row.node, t.row.protocol) ∈ previous) :
    Change db [] (OperationRepository.record db now actor profile previous scope)
  | tasks {db : Db} {operations : List Operation} (f : Task → Task)
      (moves : ∀ t ∈ db.outbox.tasks, t.Moves locked (f t))
      (kept : SameOperations db operations) :
    Change db [] { db with outbox := ⟨operations, db.outbox.tasks.map f⟩ }
  | claim {db : Db} {operations : List Operation} {t : Task} (held : locked = true)
      (row : t ∈ db.outbox.tasks) (free : IntentExecutor.claimable db t = true)
      (current : IntentExecutor.obsolete db t.row = false)
      (kept : SameOperations db operations) :
    Change db []
      { db with outbox := ⟨operations, db.outbox.tasks.map fun u =>
          if IntentExecutor.byId t.row.id u then { u with status := .running } else u⟩ }
  | enqueue {db : Db} {f : Fleet} (queued : Enqueue locked db f) :
    Change db [] { db with fleet := f, fresh := db.fresh + 1 }
  | fleet {db : Db} {events : List Event} {f : Fleet}
      (change : FleetChange locked allow db events f) :
    Change db events { db with fleet := f }

end Changes
end Controller
end NodePlane
