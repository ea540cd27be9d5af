import Mathlib.Data.List.Sort
import NodePlane.Agent.Runner

/-! Local expiry of temporary access, independent of the controller: the scan that
revokes every overdue lease, and the marks of the leased container's supervisor. -/
namespace NodePlane

/-- `revision + 1` of a signed 64-bit integer. -/
def nextRevision (revision : Int) : Int :=
  if revision = 9223372036854775807 then -9223372036854775808 else revision + 1

theorem nextRevision_pos {revision : Int} (positive : 0 < nextRevision revision) :
    nextRevision revision = revision + 1 := by
  unfold nextRevision at positive ⊢
  split_ifs with top
  · simp [top] at positive
  · rfl

/-- The delete of a fenced profile at the next revision. -/
def deleteIntent (commandId : String) (target : String × String) (revision : Int) : Intent where
  commandId := commandId
  protocol := target.1
  runtimeName := target.2
  revision := nextRevision revision
  action := "delete"
  uuid := ""
  shortId := ""
  leaseSeconds := none

@[simp] theorem deleteIntent_target (id : String) (target : String × String) (revision : Int) :
    (deleteIntent id target revision).target = target := rfl

namespace Expiry

/-- Overdue leases revoked by a scan, and those whose revocation failed. -/
structure Scan where
  expired : Nat
  pending : Nat
  deriving DecidableEq

abbrev Row := (String × String) × Lease

/-- `status IN ('provisioning','active','revoking')`. -/
def open_ (lease : Lease) : Bool :=
  [LeaseStatus.provisioning, .active, .revoking].contains lease.status

/-- `ORDER BY expires_at,protocol,profile`. -/
def dueBefore (a b : Row) : Prop :=
  a.2.expiresAt < b.2.expiresAt ∨ (a.2.expiresAt = b.2.expiresAt ∧
    (Json.textBefore a.1.1 b.1.1 ∨ (a.1.1 = b.1.1 ∧ !Json.textBefore b.1.2 a.1.2)))

instance : DecidableRel dueBefore := fun _ _ => inferInstanceAs (Decidable (_ ∨ _))

def openLeases (j : Journal) : List Row :=
  (j.leases.rows.filter fun row => open_ row.2).insertionSort dueBefore

/-- The local revocation of a lease; its identity names the grant. -/
def expiryId (p : Platform) (lease : Lease) : String := "expiry:" ++ p.sha256Hex lease.commandId

/-- The commit of a confirmed revocation. -/
def close (p : Platform) (instanceId : String) (intent : Intent) (lease : Lease) (fence : Fence)
    (response : Response) (j : Journal) : Journal :=
  let recorded := match j.commands.lookup intent.commandId with
    | some _ => j
    | none => j.insertCommand intent.commandId
        ⟨intent.fingerprint p, .succeeded, some response.toJson, instanceId⟩
  let fenced := recorded.setFence intent.target
    ⟨intent.revision, intent.commandId, some "delete"⟩
  let granted := fenced.supersede lease.commandId
  let revoked := if fence.action = some "delete" then granted.supersede fence.commandId else granted
  revoked.markLease intent.target .expired

/-- One overdue lease: whether its revocation was confirmed. The identity stays
reserved, also after a failed delete. -/
def expireLease (p : Platform) (instanceId : String) (runner : Intent → Outcome Response)
    (target : String × String) (lease : Lease) (node : Node) : Ran String Bool :=
  let marked := { node with journal := node.journal.markLease target .revoking }
  match marked.journal.fences.lookup target with
  | none => .refuse marked "temporary lease has no fence"
  | some fence =>
    let intent := deleteIntent (expiryId p lease) target fence.revision
    match intent.validate with
    | .error err => .refuse marked err
    | .ok () =>
      let ran : Ran Unit Unit :=
        attempt marked (.profile .expiry intent) (runner intent) (fun _ => ()) fun response =>
          .ok (close p instanceId intent lease fence response marked.journal, ())
      ⟨ran.node, ran.events, ran.answer.map fun answer => .ok answer.toBool⟩

/-- The scan over the rows it read. -/
def scan (p : Platform) (instanceId : String) (now : Int) (runner : Intent → Outcome Response) :
    List Row → Scan → Node → Ran String Scan
  | [], found, node => .reply node (.ok found)
  | (target, lease) :: rest, found, node =>
    if lease.status ≠ .revoking && now < lease.expiresAt then
      scan p instanceId now runner rest found node
    else
      let one := expireLease p instanceId runner target lease node
      match one.answer with
      | none => ⟨one.node, one.events, none⟩
      | some (.error err) => ⟨one.node, one.events, some (.error err)⟩
      | some (.ok expired) =>
        let found := if expired then { found with expired := found.expired + 1 }
          else { found with pending := found.pending + 1 }
        let later := scan p instanceId now runner rest found one.node
        ⟨later.node, one.events ++ later.events, later.answer⟩

/-- Revokes every overdue lease once; an interrupted ensure never runs again. -/
def expire (p : Platform) (instanceId : String) (now : Int) (runner : Intent → Outcome Response)
    (node : Node) : Ran String Scan :=
  if !node.journal.schema.file || node.disabled || !node.journal.schema.leases then
    .reply node (.ok ⟨0, 0⟩)
  else scan p instanceId now runner (openLeases node.journal) ⟨0, 0⟩ node

end Expiry

namespace Supervisor

/-- Overdue and unconfirmed leases are marked before the stopped container's config
is pruned of them. -/
def pruned (protocol : String) (now : Int) (target : String × String) (lease : Lease) : Lease :=
  if target.1 = protocol && (lease.status ≠ .active || lease.expiresAt ≤ now) &&
      [LeaseStatus.active, .provisioning].contains lease.status then
    { lease with status := .revoking }
  else lease

def pruneLocked (protocol : String) (now : Int) (node : Node) : Ran String Unit :=
  if node.disabled then .refuse node "node removal is in progress"
  else if !node.journal.schema.file || !node.journal.schema.leases then .reply node (.ok ())
  else
    let journal := { node.journal with
      leases := node.journal.leases.mapRows (pruned protocol now) }
    .reply { node with journal } (.ok ())

/-- Starts a stopped leased container after pruning it; `stopped` is what the host
reports. -/
def supervise (protocol : String) (now : Int) (stopped : Bool) (node : Node) : Ran String Unit :=
  if node.disabled then .refuse node "node removal is in progress"
  else if stopped then pruneLocked protocol now node
  else .reply node (.ok ())

end Supervisor
end NodePlane
