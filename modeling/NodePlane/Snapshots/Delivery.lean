import NodePlane.Library.History
import NodePlane.Snapshots.Policies

/-! The delivery of policy snapshots: the controller's revision per node, the requests
and answers under way, and the agents. A digest is the list of clients it digests. -/
namespace NodePlane
open Library
namespace Snapshots

inductive Status where
  | pending | current | unavailable | outdated
  deriving DecidableEq

/-- A node's row in the feature's delivery table. -/
structure Row (α : Type) where
  revision : ℕ
  digest : List α
  appliedRevision : ℕ
  status : Status
  deriving DecidableEq

/-- A request to a node's agent. -/
structure Send (α : Type) where
  node : String
  revision : ℕ
  clients : List α
  deriving DecidableEq

section Controller
variable {α : Type} [DecidableEq α]

/-- Records a new revision for every changed snapshot of the nodes that are targets, and
what to send. A node that never had a snapshot is left alone until it has one. -/
def plan (rows : Table String (Row α)) : List (String × List α) →
    Table String (Row α) × List (Send α)
  | [] => (rows, [])
  | (node, clients) :: rest =>
    let (revision, planned) :=
      match rows.lookup node with
      | none => (1, rows.put node ⟨1, clients, 0, .pending⟩)
      | some row =>
        if row.digest ≠ clients then (row.revision + 1, rows.put node
          { row with revision := row.revision + 1, digest := clients, status := .pending })
        else (row.revision, rows)
    if (rows.lookup node).isNone && clients.isEmpty then plan rows rest
    else
      let later := plan planned rest
      (later.1, ⟨node, revision, clients⟩ :: later.2)

/-- Stores the outcome of sending revision `sent`; `inForce` is what the agent holds, none
when the call failed. -/
def record (rows : Table String (Row α)) (node : String) (sent : ℕ) (inForce : Option ℕ)
    (status : Status) : Table String (Row α) :=
  rows.alter node fun row =>
    if row.revision ≠ sent then row
    else
      match inForce with
      | none => { row with status := status }
      | some held =>
        -- A newer revision, perhaps from before a restore: the next pass resends past it.
        if sent < held then { row with revision := held + 1, status := .pending }
        else if held = sent then { row with appliedRevision := sent, status := .current }
        else { row with status := status }

/-- What a failed call leaves as the status. -/
def failureStatus (unimplemented : Bool) : Status :=
  if unimplemented then .outdated else .unavailable

end Controller

/-- One feature on the controller and the agents. Every request and every answer stays
under way: each may arrive late, more than once, or never. -/
structure State (α β : Type) where
  rows : Table String (Row α)
  requests : List (Send α)
  answers : List (Send α × ℕ)
  agents : Table String (Snapshot β)

inductive Step (α : Type) where
  /-- A pass plans the snapshots of its targets and sends them. -/
  | plan (targets : List (String × List α))
  /-- The `i`-th request reaches its agent. -/
  | receive (i : ℕ) (saved : Bool)
  /-- The `k`-th answer is recorded. -/
  | answer (k : ℕ)
  /-- The `i`-th request is recorded as failed. -/
  | fail (i : ℕ) (unimplemented : Bool)
  /-- A restore of the controller clears its deliveries. -/
  | restore
  /-- The node is removed from the controller, with its row. -/
  | remove (node : String)
  /-- The agent starts from its journal. -/
  | restart (node : String)
  /-- The agent starts without a readable journal. -/
  | lose (node : String)

/-- What happened at an agent. -/
inductive Event (β : Type) where
  | answered (node : String) (held : Snapshot β)
  | stored (node : String) (held : Snapshot β)
  | lost (node : String)

section System
variable {α β : Type} [DecidableEq α] (read : List α → Except String β) (empty : β)

/-- What the node's agent holds. -/
def State.agent (s : State α β) (node : String) : Snapshot β :=
  (s.agents.lookup node).getD ⟨0, empty⟩

def State.fresh : State α β := ⟨∅, [], [], ∅⟩

/-- A request at its agent: what it stores and what it answers. -/
def receive (request : Send α) (saved : Bool) (s : State α β) : State α β × List (Event β) :=
  let before := s.agent empty request.node
  let (held, answer) := apply read request.revision request.clients saved before
  let stored := { s with agents := s.agents.put request.node held }
  let took : List (Event β) :=
    if held.revision = before.revision then [] else [.stored request.node held]
  match answer with
  | .error _ => (stored, took)
  | .ok inForce => ({ stored with answers := stored.answers ++ [(request, inForce)] },
      took ++ [.answered request.node held])

def exec (s : State α β) : Step α → State α β × List (Event β)
  | .plan targets =>
    let (rows, sends) := plan s.rows targets
    ({ s with rows, requests := s.requests ++ sends }, [])
  | .receive i saved =>
    match s.requests[i]? with
    | none => (s, [])
    | some request => receive read empty request saved s
  | .answer k =>
    match s.answers[k]? with
    | none => (s, [])
    | some (request, inForce) =>
      ({ s with rows := record s.rows request.node request.revision (some inForce) .unavailable }, [])
  | .fail i unimplemented =>
    match s.requests[i]? with
    | none => (s, [])
    | some request =>
      let status := failureStatus unimplemented
      ({ s with rows := record s.rows request.node request.revision none status }, [])
  | .restore => ({ s with rows := ∅ }, [])
  | .remove node => ({ s with rows := s.rows.keep fun key _ => key ≠ node }, [])
  | .restart _ => (s, [])
  | .lose node => ({ s with agents := s.agents.put node ⟨0, empty⟩ }, [.lost node])

/-- The state and the events after `steps`. -/
def after (steps : List (Step α)) : State α β × List (Event β) :=
  run (exec read empty) State.fresh steps

end System
end Snapshots
end NodePlane
