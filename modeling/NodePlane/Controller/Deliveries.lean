import NodePlane.Controller.Accounts
import Mathlib.Data.List.Sort
import Mathlib.Data.List.Lex

/-! Telegram deliveries of announcements and of alerts: how adapters claim, acknowledge and retry
them. The two services have tables of their own and share the backoff of an adapter. What decides
whether a delivery is still wanted is an input of a claim; texts are left out. Times are seconds.

A claim holds the account guard from its first statement on, so claims exclude each other; an
acknowledgement takes no lock, and commits between the statements of others. -/
namespace NodePlane
namespace Deliveries
open Library
open Accounts (Denied)

inductive Service | announcements | alerts
  deriving DecidableEq, Repr

inductive Status | queued | claimed | sent | failed | unknown | skipped | inboxOnly
  deriving DecidableEq, Repr

/-- `adapter_id` and `claim_id`, which are written together. -/
structure Claim where
  adapter : ℕ
  key : ℕ
  deriving DecidableEq, Repr

/-- A row of `backend_announcement_deliveries` or `backend_alert_deliveries`. -/
structure Delivery where
  /-- The announcement or the alert event. -/
  of : ℕ
  /-- When the alert event was created. -/
  createdAt : ℕ
  status : Status
  claim : Option Claim
  claimedUntil : Option ℕ
  deriving DecidableEq, Repr

/-- `timedelta(minutes=2)`. -/
def claimTtl : ℕ := 120

inductive AlertKind | updateAvailable | linkSharing | node
  deriving DecidableEq, Repr

/-- What a claim reads of the rest of the controller, by delivery. -/
structure Env where
  /-- A restore awaits its executor, or runs. -/
  restoring : Bool
  /-- `AnnouncementService._eligible`. -/
  eligible : ℕ → Bool
  /-- The recipient's service notification mode is `off`. -/
  off : ℕ → Bool
  kind : ℕ → AlertKind
  /-- The update settings select the event's branch and track. -/
  selected : ℕ → Bool
  /-- The alert policy is enabled. -/
  monitoring : Bool
  /-- The recipient still has the channel and the permission for the event's kind. -/
  admin : ℕ → Bool
  /-- The event's node can be monitored. -/
  node : ℕ → Bool

abbrev Rows := Table ℕ Delivery

/-! Claims -/

/-- `_expire`, and the same statement of the alerts. -/
def expire (rows : Rows) (now : ℕ) : Rows :=
  rows.mapRows fun _ row =>
    if row.status = .claimed ∧ row.claimedUntil.any (fun until' => decide (until' ≤ now)) = true then
      { row with status := .unknown }
    else row

def setStatus (rows : Rows) (id : ℕ) (status : Status) : Rows :=
  rows.alter id fun row => { row with status := status }

/-- The delivery that the key was given. -/
def previous (rows : Rows) (claim : Claim) : Option (ℕ × Delivery) :=
  rows.rows.find? fun (_, row) => decide (row.claim = some claim)

/-- The queued rows in the order of `place`. -/
def queued (rows : Rows) (place : ℕ × Delivery → List ℕ) : List (ℕ × Delivery) :=
  (rows.rows.filter fun (_, row) => decide (row.status = .queued)).insertionSort
    fun a b => place a ≤ place b

/-- The loop over queued rows: `verdict` puts a row aside, or it is handed out. -/
def offer (verdict : ℕ → Option Status) (claim : Claim) (now : ℕ) :
    Rows → List (ℕ × Delivery) → Option ℕ × Rows
  | rows, [] => (none, rows)
  | rows, (id, _) :: rest =>
    match verdict id with
    | some status => offer verdict claim now (setStatus rows id status) rest
    | none =>
      let handed (row : Delivery) : Delivery :=
        { row with
          status := .claimed, claim := some claim, claimedUntil := some (now + claimTtl) }
      (some id, rows.alter id handed)

namespace Announcements

def verdict (env : Env) (id : ℕ) : Option Status :=
  if ¬ env.eligible id then some .skipped
  else if env.off id then some .inboxOnly
  else none

/-- `AnnouncementService.claim` from `_expire` on. -/
def claim (env : Env) (rows : Rows) (claim : Claim) (now : ℕ) : Option ℕ × Rows :=
  let rows := expire rows now
  if env.restoring then (none, rows)
  else
    match previous rows claim with
    | some (id, row) =>
      if row.status ≠ .claimed then (none, rows)
      else if ¬ env.eligible id then (none, setStatus rows id .unknown)
      else (some id, rows)
    | none =>
      offer (verdict env) claim now rows (queued rows fun (id, row) => [row.of, id])

end Announcements

namespace Alerts

def verdict (env : Env) (id : ℕ) : Option Status :=
  let updateNotice : Bool := decide (env.kind id = .updateAvailable)
  let eligible : Bool := match env.kind id with
    | .updateAvailable => env.selected id
    | .linkSharing => true
    | .node => env.monitoring
  if ¬ eligible then some .skipped
  else if ¬ env.admin id ∨ ¬ (updateNotice || env.node id) then some .skipped
  else none

/-- `AlertService.claim` from the expiry on. -/
def claim (env : Env) (rows : Rows) (claim : Claim) (now : ℕ) : Option ℕ × Rows :=
  let rows := expire rows now
  match previous rows claim with
  | some (id, row) => if row.status = .claimed then (some id, rows) else (none, rows)
  | none =>
    offer (verdict env) claim now rows
      ((queued rows fun (id, row) => [row.createdAt, row.of, id]).take 100)

end Alerts

def Service.claim : Service → Env → Rows → Claim → ℕ → Option ℕ × Rows
  | .announcements => Announcements.claim
  | .alerts => Alerts.claim

/-! Acknowledgements -/

inductive Ack
  | sent
  | failed
  | unknown
  | retry (after : ℕ)
  deriving DecidableEq, Repr

/-- `validate_ack` passes; only a retry comes with a time. -/
def Ack.valid : Ack → Bool
  | .retry after => decide (1 ≤ after ∧ after ≤ 86400)
  | _ => true

/-- The status that an acknowledgement writes. -/
def Ack.status : Ack → Status
  | .sent => .sent
  | .failed => .failed
  | .unknown => .unknown
  | .retry _ => .queued

/-- An acknowledgement between its read and its write. -/
structure Reading where
  service : Service
  id : ℕ
  claim : Claim
  ack : Ack
  deriving DecidableEq, Repr

/-- What the read of an acknowledgement leads to. -/
inductive Read
  | denied (denied : Denied)
  | reply
  | writes
  deriving DecidableEq, Repr

def finalized : Denied := ⟨"delivery_finalized", 409⟩

/-- `acknowledge` up to its write. -/
def readAck (rows : Rows) (reading : Reading) : Read :=
  if reading.ack.valid = false then .denied ⟨"invalid_input", 422⟩
  else
    match rows.lookup reading.id with
    | none => .denied ⟨"resource_not_found", 404⟩
    | some row =>
      if row.claim ≠ some reading.claim then .denied ⟨"resource_not_found", 404⟩
      else
        match reading.ack with
        | .retry _ =>
          if row.status = .claimed then .writes
          else if row.status ≠ .queued then .denied finalized
          else .reply
        | ack =>
          if row.status ≠ .claimed ∧ row.status ≠ ack.status then .denied finalized
          -- The alerts write the status again.
          else if row.status ≠ .claimed ∧ reading.service = .announcements then .reply
          else .writes

/-! The controller -/

/-- A claim that has the guard. -/
structure Claiming where
  service : Service
  claim : Claim
  now : ℕ
  deriving DecidableEq, Repr

/-- A delivery that a claim was given. -/
structure Given where
  service : Service
  claim : Claim
  id : ℕ
  deriving DecidableEq, Repr

structure State where
  rows : Service → Rows
  /-- `telegram_retry_until:` by adapter. -/
  backoff : Table ℕ ℕ
  claiming : Option Claiming
  acks : List Reading
  /-- Every delivery that was given to a claim, oldest first; nothing reads it. -/
  given : List Given

/-- The adapter waits: `remaining` is positive. -/
def State.waits (s : State) (adapter now : ℕ) : Bool :=
  (s.backoff.lookup adapter).any fun until' => decide (now < until')

def State.write (s : State) (service : Service) (rows : Rows) : State :=
  { s with rows := Function.update s.rows service rows }

/-- `telegram_delivery_retry.defer`. -/
def State.defer (s : State) (service : Service) (id adapter after now : ℕ) : State :=
  let until' := match s.backoff.lookup adapter with
    | none => now + after
    | some old => max (now + after) old
  let deferred (row : Delivery) : Delivery :=
    { row with status := .queued, claimedUntil := some until' }
  { s.write service ((s.rows service).alter id deferred) with
    backoff := s.backoff.put adapter until' }

def skipQueued (rows : Rows) (which : ℕ → Bool) (status : Status) : Rows :=
  rows.mapRows fun id row =>
    if row.status = .queued ∧ which id = true then { row with status := status } else row

inductive Op
  /-- A delivery of a new announcement or event; without a chat an announcement stays in the
  Inbox, and an alert has no delivery. -/
  | enqueue (service : Service) (id of createdAt : ℕ) (chat : Bool)
  /-- A claim up to the check of its adapter's backoff. -/
  | gate (service : Service) (claim : Claim) (now : ℕ) (maintenance : Bool)
  /-- The rest of the claim. -/
  | finish (env : Env)
  /-- The claim fails, and is rolled back. -/
  | drop
  | readAck (reading : Reading)
  | writeAck (read now : ℕ)
  | loseAck (read : ℕ)
  /-- `AnnouncementService.get` expires claims. -/
  | expireAnnouncements (now : ℕ)
  /-- `account_channels.set_enabled` without Telegram. -/
  | disableTelegram
  /-- `AlertService.set_policy` with `enabled` off; it takes the guard. -/
  | stopAlerts (kind : ℕ → AlertKind)

inductive Reply
  | done
  | nothing
  | delivery (id : ℕ)
  | acknowledged
  | denied (denied : Denied)
  deriving DecidableEq, Repr

def Read.answer : Read → Reply
  | .denied refusal => .denied refusal
  | .reply => .acknowledged
  | .writes => .done

/-- The write of an acknowledgement. -/
def State.written (s : State) (reading : Reading) (now : ℕ) : State :=
  match reading.ack with
  | .retry after => s.defer reading.service reading.id reading.claim.adapter after now
  | ack => s.write reading.service (setStatus (s.rows reading.service) reading.id ack.status)

/-- A claim that goes on after its gate. -/
def State.finished (s : State) (claiming : Claiming) (env : Env) : Reply × State :=
  let { service, claim, now } := claiming
  let (given, rows) := service.claim env (s.rows service) claim now
  let next := { s.write service rows with claiming := none }
  match given with
  | none => (.nothing, next)
  | some id => (.delivery id, { next with given := s.given ++ [⟨service, claim, id⟩] })

def State.step (s : State) : Op → Reply × State
  | .enqueue service id of createdAt chat =>
    if service = .alerts ∧ chat = false then (.done, s)
    else if (s.rows service).lookup id = none then
      let status := if chat then .queued else .inboxOnly
      (.done, s.write service ((s.rows service).put id ⟨of, createdAt, status, none, none⟩))
    else (.done, s)
  | .gate service claim now maintenance =>
    if s.claiming.isSome then (.done, s)
    else if maintenance ∨ s.waits claim.adapter now then (.nothing, s)
    else (.done, { s with claiming := some ⟨service, claim, now⟩ })
  | .finish env =>
    match s.claiming with
    | none => (.done, s)
    | some claiming => s.finished claiming env
  | .drop => (.done, { s with claiming := none })
  | .readAck reading =>
    let read := Deliveries.readAck (s.rows reading.service) reading
    (read.answer, if read = .writes then { s with acks := s.acks ++ [reading] } else s)
  | .writeAck read now =>
    match s.acks[read]? with
    | none => (.done, s)
    | some reading =>
      (.acknowledged, { s.written reading now with acks := s.acks.eraseIdx read })
  | .loseAck read => (.done, { s with acks := s.acks.eraseIdx read })
  | .expireAnnouncements now =>
    (.done, s.write .announcements (expire (s.rows .announcements) now))
  | .disableTelegram =>
    let s := s.write .announcements (skipQueued (s.rows .announcements) (fun _ => true) .inboxOnly)
    (.done, s.write .alerts (skipQueued (s.rows .alerts) (fun _ => true) .skipped))
  | .stopAlerts kind =>
    if s.claiming.isSome then (.done, s)
    else
      let stopped (id : ℕ) : Bool := decide (kind id ≠ .updateAvailable)
      (.done, s.write .alerts (skipQueued (s.rows .alerts) stopped .skipped))

/-- The state after `ops`, oldest first. -/
def State.run (s : State) (ops : List Op) : State := ops.foldl (fun s op => (s.step op).2) s

def State.initial : State := ⟨fun _ => ∅, ∅, none, [], []⟩

end Deliveries
end NodePlane
