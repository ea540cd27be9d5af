import NodePlane.Library.BTreeMap

/-! Traffic quotas per profile: the periods, what the traffic collection adds to them, one
worker pass and the administrator's commands. -/
namespace NodePlane
namespace Quotas
open Library

abbrev Time := ℕ

/-- Reset strategies. -/
inductive Strategy
  | calendarMonth | monthlyAnchor | interval | none
  deriving DecidableEq, Repr

/-- What a used-up quota does. -/
inductive OnExhausted
  | freeze | notify | throttle
  deriving DecidableEq, Repr

/-- The quota keys that one subject sets. -/
structure Layer where
  bytes : Option ℕ
  reset : Option Strategy
  intervalDays : Option ℕ
  onExhausted : Option OnExhausted
  throttleKbit : Option ℕ
  deriving DecidableEq, Repr

def Layer.unset : Layer := ⟨none, none, none, none, none⟩

/-- The keys resolved for a profile; no byte limit by default. -/
structure Values where
  bytes : Option ℕ
  reset : Strategy
  intervalDays : ℕ
  onExhausted : OnExhausted
  throttleKbit : ℕ
  deriving DecidableEq, Repr

/-- The limit, if the quota is one: 0 exempts a profile. -/
def Values.limit (values : Values) : Option ℕ := values.bytes.filter fun bytes => 0 < bytes

/-- Anchor of the resets and its revision. -/
structure Anchor where
  instant : Time
  revision : ℕ
  deriving DecidableEq, Repr

structure Profile where
  frozen : Bool
  expiresAt : Option Time
  desiredRevision : ℕ
  deleting : Bool
  own : Layer
  tariff : Option ℕ
  anchor : Option Anchor
  deriving DecidableEq, Repr

inductive CloseReason
  | periodEnd | manual | quotaRemoved
  deriving DecidableEq, Repr

structure Closed where
  instant : Time
  reason : CloseReason
  closedBy : Option ℕ
  deriving DecidableEq, Repr

structure Period where
  id : ℕ
  profile : ℕ
  start : Time
  finish : Option Time
  uplink : ℕ
  downlink : ℕ
  warnedAt : Option Time
  exhaustedAt : Option Time
  blocked : Bool
  openedCommand : Option ℕ
  closed : Option Closed
  deriving DecidableEq, Repr

namespace Period

def used (row : Period) : ℕ := row.uplink + row.downlink

def isOpen (row : Period) : Bool := row.closed.isNone

/-- The open period of the profile. -/
def isOpenOf (profile : ℕ) (row : Period) : Bool := row.profile = profile && row.isOpen

end Period

/-- A revision that is to be brought to the nodes; `active` tells whether it gives access. -/
structure Operation where
  profile : ℕ
  actor : ℕ
  revision : ℕ
  createdAt : Time
  active : Bool
  deriving DecidableEq, Repr

/-- `ORDER BY desired_revision DESC, created_at DESC`, row by row. -/
def Operation.later (best : Option Operation) (op : Operation) : Option Operation :=
  match best with
  | none => some op
  | some known =>
    if op.revision < known.revision ∨
        op.revision = known.revision ∧ op.createdAt < known.createdAt then some known else some op

/-- What the owner is told. -/
inductive Notice
  | warning (profile period used limit : ℕ) (periodEnd : Option Time) (percent : ℕ)
  | exhausted (profile period used limit : ℕ) (periodEnd : Option Time) (suspended : Bool)
      (throttled : Option ℕ)
  | reset (profile period : ℕ)
  deriving DecidableEq, Repr

def warnPercent : ℕ := 80

structure Db where
  profiles : BTreeMap ℕ Profile
  installation : Layer
  zone : String
  tariffs : BTreeMap ℕ Layer
  periods : List Period
  operations : List Operation
  notices : List Notice
  /-- Ids of periods are drawn from here. -/
  next : ℕ

def Db.empty : Db where
  profiles := ∅
  installation := Layer.unset
  zone := "UTC"
  tariffs := ∅
  periods := []
  operations := []
  notices := []
  next := 0

/-- `AccessDenied`. -/
structure Denied where
  code : String
  status : ℕ
  deriving DecidableEq, Repr

/-- Adds observed traffic to the profile's open period, if any. -/
def accrue (periods : List Period) (profile uplink downlink : ℕ) : List Period :=
  if uplink ≠ 0 ∨ downlink ≠ 0 then
    periods.map fun row => if row.isOpenOf profile then
      { row with uplink := row.uplink + uplink, downlink := row.downlink + downlink } else row
  else
    periods

namespace Db
variable (db : Db)

/-- The tariff layer of a profile, empty without a tariff. -/
def tariffValues (profile : Profile) : Layer :=
  (profile.tariff.bind fun tariff => db.tariffs[tariff]?).getD Layer.unset

/-- A profile's own value wins over its tariff's, and that over the installation's. -/
def resolve (profile : Profile) : Values :=
  let tariff := db.tariffValues profile
  { bytes := (profile.own.bytes.or tariff.bytes).or db.installation.bytes
    reset := ((profile.own.reset.or tariff.reset).or db.installation.reset).getD .calendarMonth
    intervalDays := ((profile.own.intervalDays.or tariff.intervalDays).or
      db.installation.intervalDays).getD 30
    onExhausted := ((profile.own.onExhausted.or tariff.onExhausted).or
      db.installation.onExhausted).getD .freeze
    throttleKbit := ((profile.own.throttleKbit.or tariff.throttleKbit).or
      db.installation.throttleKbit).getD 1000 }

/-- What a profile without a row resolves to: the installation's values. -/
def nobody : Profile := ⟨false, none, 0, false, Layer.unset, none, none⟩

def effective (profile : ℕ) : Values := db.resolve (db.profiles[profile]?.getD nobody)

/-- `_open`. -/
def openPeriod (profile : ℕ) : Option Period := db.periods.find? (Period.isOpenOf profile)

def blocked (profile : ℕ) : Bool :=
  db.periods.any fun row => row.isOpenOf profile && row.blocked

/-- The speed a used-up quota limits the profile's devices to. -/
def throttle (profile : ℕ) : Option ℕ :=
  let values := db.effective profile
  match values.limit, db.openPeriod profile with
  | some limit, some row =>
    if values.onExhausted = .throttle ∧ limit ≤ row.used then some values.throttleKbit else none
  | _, _ => none

/-- `UPDATE backend_quota_periods … WHERE id=?`. -/
def changePeriod (id : ℕ) (f : Period → Period) : Db :=
  { db with periods := db.periods.map fun row => if row.id = id then f row else row }

def changeProfile (profile : ℕ) (f : Profile → Profile) : Db :=
  match db.profiles[profile]? with
  | none => db
  | some row => { db with profiles := db.profiles.insert profile (f row) }

def notify (notice : Notice) : Db := { db with notices := db.notices ++ [notice] }

/-- `OperationRepository.record`: the profile is active unless frozen, expired or suspended. -/
def record (profile actor : ℕ) (now : Time) : Db :=
  match db.profiles[profile]? with
  | none => db
  | some row =>
    let active := !row.frozen && row.expiresAt.all (fun expires => now < expires) &&
      !db.blocked profile
    { db with operations := db.operations ++ [⟨profile, actor, row.desiredRevision, now, active⟩] }

/-- The operation with the highest revision, the later one of equals. -/
def latest (profile : ℕ) : Option Operation :=
  (db.operations.filter fun op => op.profile = profile).foldl Operation.later none

/-- Applies a changed suspension: a new revision and operation, attributed to the account behind
the latest operation. -/
def changeAccess (profile : ℕ) (now : Time) : Db :=
  match db.latest profile with
  | none => db
  | some op =>
    (db.changeProfile profile fun row =>
      { row with desiredRevision := row.desiredRevision + 1 }).record profile op.actor now

/-- `_close`. -/
def close (row : Period) (reason : CloseReason) (now : Time) (closedBy : Option ℕ) : Db :=
  let db := db.changePeriod row.id fun r =>
    if r.isOpen then { r with closed := some ⟨now, reason, closedBy⟩, blocked := false } else r
  if row.blocked then db.changeAccess row.profile now else db

/-- `_start`. -/
def start (profile : ℕ) (start : Time) (finish : Option Time) (command : Option ℕ)
    (lifted : Bool) : Db × Period :=
  let row : Period := ⟨db.next, profile, start, finish, 0, 0, none, none, false, command, none⟩
  let db := { db with periods := db.periods ++ [row], next := db.next + 1 }
  (if lifted then db.notify (.reset profile row.id) else db, row)

/-- `_anchor`: set when a profile first gets a quota. -/
def anchor (profile : ℕ) (now : Time) : Db × Time :=
  match db.profiles[profile]? with
  | none => (db, now)
  | some row =>
    match row.anchor with
    | some known => (db, known.instant)
    | none =>
      let anchored : Profile := { row with anchor := some ⟨now, 1⟩ }
      ({ db with profiles := db.profiles.insert profile anchored }, now)

/-- The stamp at most of the limit, and the warning if it is not reached yet. -/
def warn (profile limit : ℕ) (row : Period) (now : Time) : Db :=
  if limit * warnPercent / 100 ≤ row.used ∧ row.warnedAt = none then
    let db := db.changePeriod row.id fun r => { r with warnedAt := some now }
    if row.used < limit then
      db.notify (.warning profile row.id row.used limit row.finish warnPercent)
    else db
  else db

def exhaust (profile : ℕ) (values : Values) (limit : ℕ) (row : Period) (now : Time) : Db :=
  if limit ≤ row.used ∧ row.exhaustedAt = none then
    (db.changePeriod row.id fun r => { r with exhaustedAt := some now }).notify
      (.exhausted profile row.id row.used limit row.finish (values.onExhausted = .freeze)
        (if values.onExhausted = .throttle then some values.throttleKbit else none))
  else db

def suspend (profile : ℕ) (row : Period) (suspend : Bool) (now : Time) : Db × Bool :=
  if suspend ≠ row.blocked then
    ((db.changePeriod row.id fun r => { r with blocked := suspend }).changeAccess profile now, true)
  else
    (db, false)

/-- Warnings, exhaustion and the suspension for the open period. -/
def evaluate (profile : ℕ) (values : Values) (limit : ℕ) (row : Period) (now : Time) : Db × Bool :=
  ((db.warn profile limit row now).exhaust profile values limit row now).suspend profile row
    (limit ≤ row.used ∧ values.onExhausted = .freeze) now

/-- Profiles that may have a quota, or still have a period to close. -/
def candidate (profile : ℕ) (row : Profile) : Bool :=
  !row.deleting && (db.installation.bytes.isSome || row.own.bytes.isSome ||
    (db.openPeriod profile).isSome)

def candidates : List ℕ :=
  (db.profiles.toList.filter fun entry => db.candidate entry.1 entry.2).map Prod.fst

end Db

section
-- The UTC bounds of the period that contains `now`, from the strategy, the anchor, the days of
-- an interval and the time zone.
variable (period : Strategy → Time → ℕ → String → Time → Time × Option Time)

/-- One worker pass for a profile; true when its access changed. -/
def advance (db : Db) (profile : ℕ) (zone : String) (now : Time) : Db × Bool :=
  let values := db.effective profile
  match values.limit, db.openPeriod profile with
  | none, some row => (db.close row .quotaRemoved now none, row.blocked)
  | none, none => (db, false)
  | some limit, row =>
    let (db, anchor) := db.anchor profile now
    let (db, lifted, row) :=
      match row with
      | some row =>
        if row.finish.any (fun finish => finish ≤ now) then
          (db.close row .periodEnd now none, row.blocked, none)
        else (db, false, some row)
      | none => (db, false, none)
    let (db, row) :=
      match row with
      | some row => (db, row)
      | none =>
        let bounds := period values.reset anchor values.intervalDays zone now
        db.start profile bounds.1 bounds.2 none lifted
    let (db, changed) := db.evaluate profile values limit row now
    (db, changed || lifted)

def passOver (zone : String) (now : Time) : List ℕ → Db → Db × ℕ
  | [], db => (db, 0)
  | profile :: rest, db =>
    let (db, changed) := advance period db profile zone now
    let (db, count) := passOver zone now rest db
    (db, (if changed then 1 else 0) + count)

/-- The worker's pass, which maintenance or a restore holds back; how many profiles changed. -/
def scheduled (held : Bool) (now : Time) (db : Db) : Db × ℕ :=
  if held then (db, 0) else passOver period db.zone now db.candidates db

/-- The profile of a command: maintenance is not on and it is there, not being deleted. -/
def admin (refused : Option Denied) (profile : ℕ) (db : Db) : Except Denied Profile :=
  match refused, db.profiles[profile]? with
  | some denied, _ => .error denied
  | none, none => .error ⟨"resource_not_found", 404⟩
  | none, some row => if row.deleting then .error ⟨"resource_not_found", 404⟩ else .ok row

/-- Starts a new period now; a replayed command key changes nothing. -/
def reset (refused : Option Denied) (key profile actor : ℕ) (now : Time) (db : Db) :
    Except Denied Db :=
  match admin refused profile db with
  | .error denied => .error denied
  | .ok _ =>
    match db.periods.find? (fun row => row.openedCommand = some key) with
    | some replay =>
      if replay.profile ≠ profile then .error ⟨"idempotency_conflict", 409⟩ else .ok db
    | none =>
      let values := db.effective profile
      match values.limit with
      | none => .error ⟨"quota_not_set", 409⟩
      | some _ =>
        let row := db.openPeriod profile
        let db := match row with
          | some row => db.close row .manual now (some actor)
          | none => db
        let (db, anchor) := db.anchor profile now
        let bounds := period values.reset anchor values.intervalDays db.zone now
        .ok (db.start profile now bounds.2 (some key) (row.any fun row => row.blocked)).1

/-- Moves the reset anchor; it applies from the next reset. -/
def moveAnchor (refused : Option Denied) (profile : ℕ) (instant : Time) (revision : ℕ) (db : Db) :
    Except Denied Db :=
  match admin refused profile db with
  | .error denied => .error denied
  | .ok row =>
    match row.anchor with
    | none => .error ⟨"quota_not_set", 409⟩
    | some known =>
      if known.revision ≠ revision then .error ⟨"revision_conflict", 412⟩
      else .ok (db.changeProfile profile fun row =>
        { row with anchor := some ⟨instant, known.revision + 1⟩ })

/-- What happens to the quotas, one transaction each. -/
inductive Event
  | created (profile : ℕ)
  /-- A command on the profile, with the operation it records. -/
  | edited (profile : ℕ) (frozen : Bool) (expiresAt : Option Time) (deleting : Bool) (actor : ℕ)
      (now : Time)
  | installation (layer : Layer) (zone : String)
  | own (profile : ℕ) (layer : Layer)
  | tariff (id : ℕ) (layer : Layer)
  | assigned (profile : ℕ) (tariff : Option ℕ)
  | collected (profile uplink downlink : ℕ)
  | pass (held : Bool) (now : Time)
  | reset (refused : Option Denied) (key profile actor : ℕ) (now : Time)
  | anchor (refused : Option Denied) (profile : ℕ) (instant : Time) (revision : ℕ)

/-- The collection's targets: a device only behind an operation that was applied. -/
def Db.collectable (db : Db) (profile : ℕ) : Bool :=
  db.operations.any fun op => op.profile = profile

/-- A refused command leaves the state as it was. -/
def committed (db : Db) : Except Denied Db → Db
  | .ok next => next
  | .error _ => db

def step (db : Db) : Event → Db
  | .created profile =>
    if db.profiles.contains profile then db
    else
      let row : Profile := { Db.nobody with desiredRevision := 1 }
      { db with profiles := db.profiles.insert profile row }
  | .edited profile frozen expiresAt deleting actor now =>
    (db.changeProfile profile fun row => { row with
      frozen := frozen, expiresAt := expiresAt, deleting := row.deleting || deleting,
      desiredRevision := row.desiredRevision + 1 }).record profile actor now
  | .installation layer zone => { db with installation := layer, zone := zone }
  | .own profile layer => db.changeProfile profile fun row => { row with own := layer }
  | .tariff id layer => { db with tariffs := db.tariffs.insert id layer }
  | .assigned profile tariff => db.changeProfile profile fun row => { row with tariff := tariff }
  | .collected profile uplink downlink =>
    if db.collectable profile then
      { db with periods := accrue db.periods profile uplink downlink }
    else db
  | .pass held now => (scheduled period held now db).1
  | .reset refused key profile actor now =>
    committed db (reset period refused key profile actor now db)
  | .anchor refused profile instant revision =>
    committed db (moveAnchor refused profile instant revision db)

def run (db : Db) (events : List Event) : Db := events.foldl (step period) db

end

end Quotas
end NodePlane
