import NodePlane.Controller.Refinement.Calls

/-! Backups of the controller, and the restore of one: tables that are not backed up are
emptied, and every restored node and profile gets a new revision. -/
namespace NodePlane
namespace Controller
open Library OperationRepository

/-- The tables of a backup, as far as other modules read them; it was taken of a
controller, this one or another. -/
structure Backup where
  admins : List Uuid
  profiles : Table Uuid Profile
  grants : List Grant
  devices : Table Uuid Device
  credentials : Table Uuid Credential
  identities : Table Uuid Uuid
  retiredPeers : Table Uuid RetiredPeer
  nodes : Table NodeKey Node
  policies : Policies
  /-- Its identities were all drawn below this bound. -/
  bound : Uuid
  profilesDrawn : ∀ id p, profiles.lookup id = some p → id < bound
  devicesDrawn : ∀ id d, devices.lookup id = some d → id < bound
  slotsDrawn : ∀ slot r, retiredPeers.lookup slot = some r →
    slot < bound ∧ devices.lookup slot = none
  slotsOwned : ∀ slot r, retiredPeers.lookup slot = some r →
    ∃ id d, devices.lookup id = some d ∧ d.profile = r.profile

namespace BackupService

/-- `deleted_profiles`: their account is being deleted, or has been. -/
def deleted (a : Access) (profile : Uuid) : Bool :=
  a.deleting profile || (a.profiles.lookup profile).any fun p => a.accountDeletions.contains p.owner

/-- `create_snapshot`: deleted accounts are left out with all that is theirs. -/
def createSnapshot (db : Db) (sound : Sound db) : Backup where
  admins := db.access.admins.filter fun a => !db.access.accountDeletions.contains a
  profiles := db.access.profiles.keep fun id _ => !deleted db.access id
  grants := db.access.grants.filter fun g => !deleted db.access g.profile
  devices := db.access.devices.keep fun _ d => !deleted db.access d.profile
  credentials := db.access.credentials.keep fun id _ =>
    (db.access.devices.lookup id).all fun d => !deleted db.access d.profile
  identities := db.access.identities.keep fun id _ => !deleted db.access id
  retiredPeers := db.access.retiredPeers.keep fun _ r => !deleted db.access r.profile
  nodes := db.fleet.nodes
  policies := db.fleet.policies
  bound := db.fresh
  profilesDrawn id p row := sound.numbered.profiles id p (Table.lookup_keep.mp row).1
  devicesDrawn id d row := sound.numbered.devices id d (Table.lookup_keep.mp row).1
  slotsDrawn slot r row := by
    obtain ⟨drawn, free⟩ := sound.numbered.slots slot r (Table.lookup_keep.mp row).1
    refine ⟨drawn, Option.eq_none_iff_forall_ne_some.mpr fun d device => ?_⟩
    rw [(Table.lookup_keep.mp device).1] at free
    cases free
  slotsOwned slot r row := by
    obtain ⟨found, stays⟩ := Table.lookup_keep.mp row
    obtain ⟨id, d, device, same⟩ := sound.owned slot r found
    exact ⟨id, d, Table.lookup_keep.mpr ⟨device, by rw [same]; exact stays⟩, same⟩

/-- Work that a restore waits for, or refuses to start beside. -/
def busy (db : Db) : Bool :=
  db.fleet.bootstraps.any (·.status.pending) || db.fleet.jobs.any (·.status.pending) ||
    db.fleet.settingsTasks.any (·.status.pending) || db.outbox.tasks.any (·.status.pending)

/-- One profile is frozen and revoked; its operation is noted when it has tasks. -/
def revoke (now : Time) (actor : Uuid) (state : Db × List Uuid) (profile : Uuid) :
    Db × List Uuid :=
  let db := bump (ProfileCommands.setProfile state.1 profile fun p => { p with frozen := true })
    profile
  let db := record db now actor profile (targets db profile) none
  (db, match db.outbox.operations.getLast? with
    | none => state.2
    | some o => if o.status = .noTargets then state.2 else state.2 ++ [o.id])

/-- Before the restore every profile is revoked on its nodes. -/
def revokeAll (db : Db) (now : Time) (actor : Uuid) : Db × List Uuid :=
  (db.access.profiles.rows.map Prod.fst).foldl (revoke now actor) (db, [])

/-- The revision of a restored row, above the backup's and the present one's. -/
def raised (kept : ℕ) (present : Option ℕ) : ℕ := max kept (present.getD 0) + 1

/-- `_restore`; `former` is the account that the same operator has in the backup. No
evidence of an installed agent is left for `backfill`. -/
def restored (db : Db) (actor : Uuid) (b : Backup) (former : Option Uuid) : Db where
  access :=
    { profiles := b.profiles.mapRows fun id p => { p with
        owner := if former = some p.owner then actor else p.owner
        desiredRevision := raised p.desiredRevision
          ((db.access.profiles.lookup id).map Profile.desiredRevision) }
      deletions := ∅
      admins := actor :: b.admins.filter fun a => a ≠ actor && former ≠ some a
      accountDeletions := []
      grants := b.grants
      devices := b.devices
      credentials := b.credentials
      identities := b.identities
      retiredPeers := b.retiredPeers }
  outbox := ⟨[], []⟩
  fleet :=
    { nodes := b.nodes.mapRows fun key n => { n with
        enabled := false
        appliedRevision := 0
        desiredRevision := raised n.desiredRevision
          ((db.fleet.nodes.lookup key).map Node.desiredRevision) }
      policies := b.policies
      installations := []
      settingsTasks := []
      jobs := []
      bootstraps := []
      drains := []
      cleanups := []
      retirements := ∅ }
  maintenance := db.maintenance
  fresh := max db.fresh b.bound

end BackupService

/-- A row of `backend_backup_jobs` with the action `restore`; `waits` are the operations
of `backend_backup_revocations`, once it has revoked every profile. -/
structure Restoration where
  id : ℕ
  actor : Uuid
  backup : Backup
  status : Status
  waits : Option (List Uuid)

structure BackupSystem where
  core : System
  restorations : List Restoration

inductive BackupCall where
  | core (c : Call)
  | queueRestore (actor : Uuid) (backup : Backup)
  | resumeRestore (actor : Uuid) (id : ℕ)
  | cancelRestore (id : ℕ)
  /-- `accepted`: the backup's file is there and compatible. -/
  | revokeProfiles (now : Time) (accepted : Bool)
  /-- `accepted`: also, none of its identities is in conflict with the operator's. -/
  | restore (former : Option Uuid) (accepted : Bool)

/-- What an observer of the controller and of its tables sees. -/
inductive BackupEvent where
  | core (e : Event)
  | nodeRemoved (node : NodeKey)
  | profileRemoved (profile : Uuid)
  | retired (node : NodeKey)

namespace BackupSystem

def start : BackupSystem := ⟨System.start, []⟩

/-- Rows of nodes and profiles that are gone, and keys that have been retired. -/
def changes (db next : Db) : List BackupEvent :=
  ((db.fleet.nodes.rows.filter fun r => (next.fleet.nodes.lookup r.1).isNone).map
      fun r => .nodeRemoved r.1) ++
    ((db.access.profiles.rows.filter fun r => (next.access.profiles.lookup r.1).isNone).map
      fun r => .profileRemoved r.1) ++
    (next.fleet.retirements.rows.filter fun r => !db.fleet.retired r.1).map fun r => .retired r.1

def waiting (r : Restoration) : Bool := r.status = .awaitingExecutor || r.status = .running

/-- The job that `run_one` takes up. -/
def current (s : BackupSystem) : Option Restoration := s.restorations.find? waiting

def update (s : BackupSystem) (id : ℕ) (f : Restoration → Restoration) : List Restoration :=
  s.restorations.map fun r => if r.id = id then f r else r

/-- `maintenance_gate` reads the jobs themselves. -/
def gated (core : System) (restorations : List Restoration) : BackupSystem :=
  ⟨{ core with db := { core.db with
    maintenance.restore := restorations.any waiting } }, restorations⟩

def blocked (s : BackupSystem) (id : ℕ) : BackupSystem :=
  gated s.core (s.update id fun r => { r with status := .blocked })

/-- A repair that retires a blocked task replaces the operations a blocked job waits for. -/
def replaced (s : BackupSystem) (c : Call) (next : Db) : List Restoration :=
  match c with
  | .repair (.resolveTask _ _ id) =>
    match s.core.db.outbox.tasks.find? fun t => IntentExecutor.byId id t && t.status = .blocked,
        lastOperation next with
    | some t, some operation =>
      let retired := (s.core.db.outbox.tasks.filter (IntentExecutor.retiredBy t.row)).map
        fun u => u.row.operation
      if s.core.db.outbox.operations.length < next.outbox.operations.length then
        s.restorations.map fun r =>
          if r.status = .blocked then
            { r with waits := r.waits.map fun ops =>
              ops.map fun o => if retired.contains o then operation else o }
          else r
      else s.restorations
    | _, _ => s.restorations
  | _ => s.restorations

/-- The statuses of the operations that a restore waits for. -/
def states (db : Db) (waits : List Uuid) : List OperationStatus :=
  (db.outbox.operations.filter fun o => waits.contains o.id).map Operation.status

/-- The job that `run_one` restores now, with the lock free and every revocation ended. -/
def due (s : BackupSystem) : Option Restoration :=
  match s.core.holder with
  | .free => s.current.filter fun r => r.waits.any fun waits =>
      (states s.core.db waits).all fun o => o = .noTargets || o = .pending .succeeded
  | _ => none

/-- A revocation that a restore waits for has failed. -/
def failed (s : BackupSystem) (r : Restoration) : Bool :=
  r.waits.any fun waits => (states s.core.db waits).any fun o =>
    o = .pending .blocked || o = .pending .superseded

def queueRestore (s : BackupSystem) (actor : Uuid) (backup : Backup) : BackupSystem :=
  if s.core.db.maintenance.active || s.current.isSome || BackupService.busy s.core.db then s
  else gated s.core (s.restorations ++
    [⟨s.restorations.length, actor, backup, .awaitingExecutor, none⟩])

/-- The repair `resume`, under the worker's lock. -/
def resumeRestore (s : BackupSystem) (actor : Uuid) (id : ℕ) : BackupSystem :=
  match s.core.holder with
  | .free => gated s.core (s.update id fun r =>
      if r.status = .blocked then { r with status := .running, actor := actor } else r)
  | _ => s

/-- The repair `cancel`, under the worker's lock. -/
def cancelRestore (s : BackupSystem) (id : ℕ) : BackupSystem :=
  match s.core.holder with
  | .free => gated s.core (s.update id fun r =>
      if r.status = .blocked ∨ r.status = .awaitingExecutor then { r with status := .superseded }
      else r)
  | _ => s

def revokeProfiles (s : BackupSystem) (now : Time) (accepted : Bool) : BackupSystem :=
  match s.core.holder, s.current with
  | .free, some r =>
    if r.waits.isSome then s
    else if !accepted || BackupService.busy s.core.db then s.blocked r.id
    else
      let out := BackupService.revokeAll s.core.db now r.actor
      gated ⟨out.1, .free⟩
        (s.update r.id fun q => { q with status := .running, waits := some out.2 })
  | _, _ => s

def restore (s : BackupSystem) (former : Option Uuid) (accepted : Bool) : BackupSystem :=
  match s.due with
  | some r =>
    if accepted then
      gated ⟨BackupService.restored s.core.db r.actor r.backup former, .free⟩
        (s.update r.id fun q => { q with status := .succeeded })
    else s.blocked r.id
  | none =>
    match s.core.holder, s.current with
    | .free, some r => if s.failed r then s.blocked r.id else s
    | _, _ => s

/-- The next state, and what the controller itself reported. -/
def step (s : BackupSystem) : BackupCall → BackupSystem × List Event
  | .core c =>
    let out := s.core.exec c
    (gated out.1 (s.replaced c out.1.db), out.2)
  | .queueRestore actor backup => (s.queueRestore actor backup, [])
  | .resumeRestore actor id => (s.resumeRestore actor id, [])
  | .cancelRestore id => (s.cancelRestore id, [])
  | .revokeProfiles now accepted => (s.revokeProfiles now accepted, [])
  | .restore former accepted => (s.restore former accepted, [])

def exec (s : BackupSystem) (c : BackupCall) : BackupSystem × List BackupEvent :=
  let out := s.step c
  (out.1, out.2.map .core ++ changes s.core.db out.1.core.db)

def after (calls : List BackupCall) : BackupSystem := (run exec start calls).1

def history (calls : List BackupCall) : List BackupEvent := (run exec start calls).2

end BackupSystem
end Controller
end NodePlane
