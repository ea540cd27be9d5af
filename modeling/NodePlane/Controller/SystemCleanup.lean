import Mathlib.Data.List.Basic

/-! A system cleanup job: the worker's passes with the row that each read when it began, and the
calls that acknowledge the shutdown, retry and abort. A transaction is one step, and what a pass
or a retry does between two transactions lies between two steps; anything may fail or crash
there. The permissions of a call are checked before it; what the wipe, the backup and the host do
is their success or failure. -/
namespace NodePlane
namespace SystemCleanup

inductive Action | reset | remove
  deriving DecidableEq, Repr

inductive Status | queued | running | awaitingShutdown | blocked | succeeded | aborted
  deriving DecidableEq, Repr

inductive Phase
  | backup | nodes | localState | localFiles | complete
  | uninstallPrepare | shutdown | uninstallLaunch
  deriving DecidableEq, Repr

inductive ItemStatus | pending | blocked | succeeded
  deriving DecidableEq, Repr

/-- The columns of `backend_system_cleanup_jobs` that change. -/
structure Row where
  status : Status
  phase : Phase
  /-- `cancel_requested` of the intent. -/
  cancel : Bool
  /-- `backup_id` is set. -/
  backup : Bool
  /-- `shutdown_ack`. -/
  ack : Bool
  /-- `local_plan_json` is set. -/
  plan : Bool
  deriving DecidableEq, Repr

abbrev Items := List (ℕ × ItemStatus)

/-- Where the worker's pass is, with the row it read. -/
inductive Pass
  | idle
  | read (row : Row)
  | backup (row : Row)
  | backedUp (row : Row)
  | nodes (row : Row)
  | items (row : Row) (items todo : Items)
  | request (row : Row) (items : Items) (node : ℕ) (rest : Items)
  | markBlocked (row : Row) (node : ℕ)
  | markDone (row : Row) (node : ℕ)
  | wipe (row : Row)
  | clear (row : Row)
  | cleared (row : Row)
  | prepare (row : Row)
  | prepared (row : Row)
  | wipeAll (row : Row)
  | launch (row : Row)
  | launched (row : Row)
  | finish (row : Row)
  | discard (row : Row)
  /-- The handler of a failure, before it clears the request to cancel. -/
  | uncancel
  /-- The handler before it writes the status; whether it read the job as aborted. -/
  | settle (aborted : Bool)
  /-- Before the job is written as blocked. -/
  | block
  deriving DecidableEq, Repr

/-- A call of `retry` after its transaction. -/
inductive Retry
  | start
  | requests (todo : List ℕ)
  | marks (node : ℕ) (rest : List ℕ)
  | failing
  deriving DecidableEq, Repr

structure State where
  action : Action
  job : Row
  /-- The rows of the cleanup were deleted. -/
  gone : Bool
  items : Items
  pass : Pass
  retries : List Retry
  /-- The nodes whose item was marked as succeeded; this and what follows nothing reads. -/
  cleaned : List ℕ
  saved : Bool
  wiped : Bool
  /-- How often the uninstall was launched. -/
  launches : ℕ
  /-- A call of `abort` was accepted. -/
  accepted : Bool
  deriving DecidableEq, Repr

/-- A statement on the job's row. -/
def State.write (s : State) (f : Row → Row) : State :=
  if s.gone then s else { s with job := f s.job }

/-- `_set` without a phase. -/
def State.set (s : State) (status : Status) : State :=
  s.write fun row => { row with status := status }

def State.setItem (s : State) (node : ℕ) (status : ItemStatus) : State :=
  { s with items := s.items.map fun item => if item.1 = node then (node, status) else item }

/-- `_wipe_state`, which leaves the job in `phase`. -/
def State.wipe (s : State) (phase : Phase) : State :=
  { s.write fun row => { row with status := .running, phase := phase } with wiped := true }

/-! The worker -/

/-- How a step of the worker or of a retry goes: what a removal request reports, else success
or an exception. -/
inductive Outcome | ok | raised | blocked | removed | pending
  deriving DecidableEq, Repr

/-- The handler of an exception in a pass, by the intent that the pass read. -/
def State.fail (s : State) (row : Row) : State :=
  { s with pass := if row.cancel then .uncancel else .block }

/-- The job is read at the start of a pass. -/
def State.picked (s : State) : Bool :=
  !s.gone && (decide (s.job.status ∈ [.queued, .running, .awaitingShutdown]) ||
    (decide (s.job.status = .blocked) && s.job.cancel))

/-- Where a pass goes by the phase it read. -/
def byPhase (row : Row) : Pass :=
  match row.phase with
  | .backup => .backup row
  | .nodes => .nodes row
  | .localState => .wipe row
  | .localFiles => .clear row
  | .uninstallPrepare => .prepare row
  | .shutdown => if row.ack then .wipeAll row else .idle
  | .complete | .uninstallLaunch => .idle

/-- `abort` refuses: `cleanup_abort_unsafe`. -/
def State.abortUnsafe (s : State) : Bool :=
  s.job.ack || decide (s.job.phase ∈ [.localState, .localFiles, .uninstallLaunch]) ||
    !(decide (s.job.status ∈ [.blocked, .awaitingShutdown]) ||
      (decide (s.action = .remove) && decide (s.job.status ∈ [.queued, .running])))

/-- The transaction of `abort` that writes `aborted`. -/
def State.aborted (s : State) : State := { s.set .aborted with accepted := true }

/-- One step of `run_one`, or of its handler. -/
def State.advance (s : State) (outcome : Outcome) : State :=
  match s.pass with
  | .idle => if s.picked then { s with pass := .read s.job } else s
  | .read row =>
    if row.phase = .uninstallLaunch then { s with pass := .block }
    -- The account, its permission, and the deployment where the job goes on.
    else if outcome = .raised then s.fail row
    else if row.cancel then { s with pass := .finish row }
    else { s with pass := byPhase row }
  | .backup row =>
    if outcome = .raised then s.fail row
    else { s with pass := .backedUp row, saved := s.saved || decide (s.action = .reset) }
  | .backedUp row =>
    if outcome = .raised then s.fail row
    else
      let written := s.write fun job =>
        { job with status := .running, phase := .nodes, backup := decide (s.action = .reset) }
      { written with pass := .idle }
  | .nodes row =>
    if outcome = .raised then s.fail row
    else { s with pass := .items row s.items s.items }
  | .items row items [] =>
    if outcome = .raised then s.fail row
    else if (items.any fun item => decide (item.2 ≠ .succeeded)) = true then
      { s with pass := .idle }
    else
      let phase := if s.action = .reset then Phase.localState else .uninstallPrepare
      { s.write fun job => { job with status := .running, phase := phase } with pass := .idle }
  | .items row items ((node, status) :: rest) =>
    if status = .succeeded then { s with pass := .items row items rest }
    else if outcome = .raised then s.fail row
    else if s.job.cancel then { s with pass := .idle }
    else { s with pass := .request row items node rest }
  | .request row items node rest =>
    match outcome with
    | .raised => s.fail row
    | .blocked => { s with pass := .markBlocked row node }
    | .removed => { s with pass := .markDone row node }
    | .pending | .ok => { s with pass := .items row items rest }
  | .markBlocked row node =>
    if outcome = .raised then s.fail row else (s.setItem node .blocked).fail row
  | .markDone row node =>
    if outcome = .raised then s.fail row
    else { s.setItem node .succeeded with pass := .idle, cleaned := node :: s.cleaned }
  | .wipe row =>
    if outcome = .raised then s.fail row else { s.wipe .localFiles with pass := .idle }
  | .clear row =>
    if outcome = .raised then s.fail row else { s with pass := .cleared row }
  | .cleared row =>
    if outcome = .raised then s.fail row
    else
      { s.write fun job => { job with status := .succeeded, phase := .complete } with
        pass := .idle }
  | .prepare row =>
    if outcome = .raised then s.fail row else { s with pass := .prepared row }
  | .prepared row =>
    if outcome = .raised then s.fail row
    else
      { s.write fun job =>
          { job with status := .awaitingShutdown, phase := .shutdown, plan := true } with
        pass := .idle }
  | .wipeAll row =>
    if outcome = .raised then s.fail row
    else { s.wipe .uninstallLaunch with pass := .launch row }
  | .launch row =>
    -- An exception leaves it uncertain, and counts.
    let launched := { s with launches := s.launches + 1 }
    if outcome = .raised then launched.fail row else { launched with pass := .launched row }
  | .launched row =>
    if outcome = .raised then s.fail row else { s with gone := true, pass := .idle }
  | .finish row =>
    if outcome = .raised ∨ s.gone = true then s.fail row
    else if s.job.status = .aborted then { s with pass := .idle }
    else if s.abortUnsafe = true then s.fail row
    else { s.aborted with pass := .discard row }
  | .discard row =>
    if outcome = .raised then s.fail row else { s with pass := .idle }
  | .uncancel =>
    if outcome = .raised then { s with pass := .idle }
    else
      { s.write fun job => { job with cancel := false } with
        pass := .settle (decide (s.job.status = .aborted)) }
  | .settle wasAborted =>
    if outcome = .raised then { s with pass := .idle }
    else { s.set (if wasAborted then .aborted else .blocked) with pass := .idle }
  | .block =>
    if outcome = .raised then { s with pass := .idle }
    else { s.set .blocked with pass := .idle }

/-! Calls -/

def State.setRetry (s : State) (call : ℕ) (retry : Option Retry) : State :=
  { s with retries := match retry with
      | some retry => s.retries.set call retry
      | none => s.retries.eraseIdx call }

/-- A step of a call of `retry`: it asks again for the removal of each blocked node. -/
def State.retryStep (s : State) (call : ℕ) (outcome : Outcome) : State :=
  match s.retries[call]? with
  | none => s
  | some .start =>
    if outcome = .raised then s.setRetry call (some .failing)
    else
      let blocked := (s.items.filter fun item => decide (item.2 = .blocked)).map Prod.fst
      s.setRetry call (some (.requests blocked))
  | some (.requests []) => s.setRetry call none
  | some (.requests (node :: rest)) =>
    if outcome = .raised then s.setRetry call (some .failing)
    else s.setRetry call (some (.marks node rest))
  | some (.marks node rest) =>
    if outcome = .raised then s.setRetry call (some .failing)
    else (s.setItem node .pending).setRetry call (some (.requests rest))
  | some .failing =>
    if outcome = .raised then s.setRetry call none
    else (s.set .blocked).setRetry call none

inductive Op
  /-- The worker's pass takes its next step. -/
  | pass (outcome : Outcome)
  | crash
  | retry
  | retryStep (call : ℕ) (outcome : Outcome)
  /-- The API process stops in a retry. -/
  | dropRetry (call : ℕ)
  | abort
  | acknowledge
  deriving DecidableEq, Repr

def State.step (s : State) : Op → State
  | .pass outcome => s.advance outcome
  | .crash => { s with pass := .idle }
  | .retry =>
    if s.gone ∨ s.job.status ≠ .blocked ∨ s.job.phase = .uninstallLaunch then s
    else
      let asked := s.set .running
      if s.job.phase = .nodes then { asked with retries := asked.retries ++ [.start] } else asked
  | .retryStep call outcome => s.retryStep call outcome
  | .dropRetry call => s.setRetry call none
  | .abort =>
    if s.gone then s
    else if s.job.status = .aborted then { s with accepted := true }
    else if s.abortUnsafe = true then s
    else if s.action = .remove ∧ s.job.status ∈ [.queued, .running] then
      -- The worker finishes its current step first.
      { s.write fun job => { job with cancel := true } with accepted := true }
    else s.aborted
  | .acknowledge =>
    if s.gone ∨ s.job.status ≠ .awaitingShutdown ∨ s.job.cancel = true then s
    else s.write fun job => { job with ack := true }

/-- The state after `ops`, oldest first. -/
def State.run (s : State) (ops : List Op) : State := ops.foldl State.step s

/-- A job as `queue` records it. -/
def State.initial (action : Action) (nodes : List ℕ) : State where
  action := action
  job := ⟨.queued, if action = .reset then .backup else .nodes, false, false, false, false⟩
  gone := false
  items := nodes.map fun node => (node, .pending)
  pass := .idle
  retries := []
  cleaned := []
  saved := false
  wiped := false
  launches := 0
  accepted := false

end SystemCleanup
end NodePlane
