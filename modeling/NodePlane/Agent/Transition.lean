import NodePlane.Library.History
import NodePlane.Agent.Extension
import NodePlane.Agent.Operation
import NodePlane.Agent.Decommission

/-! What one call of the agent can do, said once: the commits that precede a runner
with everything their checks ensure, and the quiet changes around them. The entry
points are runs of these steps; the invariants are proved of the steps. -/
namespace NodePlane
open Library

/-- A commit after which the runner of the invocation may start. -/
inductive Begin (p : Platform) : Journal → Invocation → Journal → Prop
  | ensure {j : Journal} {i : Intent} (instanceId : String) (granted : Int)
      (valid : i.validate = .ok ()) (ensures : i.ensure = true)
      (new : j.commands.lookup i.commandId = none) (idle : ∀ id, ¬j.Running id)
      (unleased : j.leases.lookup i.target = none)
      (unused : i.leaseSeconds.isSome → j.fences.lookup i.target = none)
      (newer : ∀ fence, j.fences.lookup i.target = some fence → fence.revision < i.revision) :
      Begin p j (.profile .command i) (Profile.start p i instanceId granted false false j)
  | delete {j : Journal} {i : Intent} (instanceId : String) (granted : Int)
      (valid : i.validate = .ok ()) (deletes : i.ensure = false)
      (new : j.commands.lookup i.commandId = none)
      (idle : ∀ id, j.Running id → ∃ lease, j.leases.lookup i.target = some lease ∧
        id = lease.commandId)
      (newer : ∀ fence, j.fences.lookup i.target = some fence → fence.revision < i.revision) :
      Begin p j (.profile .command i)
        (Profile.start p i instanceId granted false (j.leases.lookup i.target).isSome j)
  | retry {j : Journal} {i : Intent} {row : Command} {lease : Lease} (instanceId : String)
      (granted : Int) (valid : i.validate = .ok ()) (deletes : i.ensure = false)
      (found : j.commands.lookup i.commandId = some row) (unfinished : row.status = .running)
      (same : row.fingerprint = i.fingerprint p) (leased : j.leases.lookup i.target = some lease)
      (idle : ∀ id, j.Running id → id = i.commandId ∨ id = lease.commandId)
      (newer : ∀ fence, j.fences.lookup i.target = some fence → fence.revision < i.revision ∨
        (fence.revision = i.revision ∧ fence.commandId = i.commandId)) :
      Begin p j (.profile .retry i) (Profile.start p i instanceId granted true true j)
  | expiry {j : Journal} {target : String × String} {lease : Lease} {fence : Fence}
      (leased : j.leases.lookup target = some lease) (marked : lease.status = .revoking)
      (fenced : j.fences.lookup target = some fence)
      (valid : (deleteIntent (Expiry.expiryId p lease) target fence.revision).validate = .ok ()) :
      Begin p j (.profile .expiry (deleteIntent (Expiry.expiryId p lease) target fence.revision)) j
  | decommission {j : Journal} {id : String} {target : String × String} {fence : Fence}
      (instanceId : String) (new : j.commands.lookup id = none) (idle : ∀ id, ¬j.Running id)
      (fenced : j.fences.lookup target = some fence)
      (confirmed : Decommission.succeeded j fence.commandId = true)
      (valid : (deleteIntent id target fence.revision).validate = .ok ()) :
      Begin p j (.profile .decommission (deleteIntent id target fence.revision))
        (Decommission.start p instanceId (deleteIntent id target fence.revision) j)
  | settings {j : Journal} {intent : Json} {settings : Settings} (instanceId : String)
      (wrote : Bool) (checked : Settings.check p intent = .ok settings)
      (new : j.commands.lookup settings.commandId = none) (idle : ∀ id, ¬j.Running id)
      (newer : ∀ fence, j.settingsFence.lookup settings.nodeKey = some fence →
        fence.revision < settings.revision) :
      Begin p j (.settings intent wrote) (SettingsJournal.start p settings instanceId j)
  | operation {j : Journal} {action id : String} {intent : Json} (instanceId : String)
      (wrote : Bool) (carries : wrote = true → settingsActions.contains action = true)
      (checked : Operation.check p action id intent = .ok ())
      (new : j.commands.lookup id = none) (idle : ∀ id, ¬j.Running id) :
      Begin p j (.operation action id intent wrote)
        (j.insertCommand id ⟨Operation.fingerprint p action intent, .running, none, instanceId⟩)

/-- A commit of a profile's start keeps what the journal holds. -/
private theorem extends_start {p : Platform} {i : Intent} {j : Journal} (instanceId : String)
    (granted : Int) {retryDelete leased : Bool}
    (new : retryDelete = false → j.commands.lookup i.commandId = none)
    (newer : ∀ fence, j.fences.lookup i.target = some fence → fence.revision < i.revision ∨
      (fence.revision = i.revision ∧ fence.commandId = i.commandId))
    (unleased : i.leaseSeconds.isSome → j.leases.lookup i.target = none) :
    j.Extends (Profile.start p i instanceId granted retryDelete leased j) := by
  refine ⟨?_, Table.Grows.put Journal.Fence.Le.refl newer, ?_,
    Table.Grows.refl Journal.SettingsFence.Le.refl _⟩
  · cases retryDelete with
    | true => exact Table.Grows.refl Journal.Command.Le.refl _
    | false =>
      exact Table.Grows.put Journal.Command.Le.refl fun old h => by rw [new rfl] at h; cases h
  · unfold Profile.start
    cases seconds : i.leaseSeconds with
    | some s =>
      have absent := unleased (by rw [seconds]; rfl)
      exact Table.Grows.put Journal.Lease.Le.refl fun old h => by rw [absent] at h; cases h
    | none =>
      simp only
      split_ifs
      · exact Table.Grows.alter Journal.Lease.Le.refl fun _ _ => rfl
      · exact Table.Grows.refl Journal.Lease.Le.refl _

private theorem extends_insert {j : Journal} {id : String} {row : Command}
    (new : j.commands.lookup id = none) : j.Extends (j.insertCommand id row) :=
  { Journal.Extends.refl j with
    commands := Table.Grows.put Journal.Command.Le.refl fun old h => by rw [new] at h; cases h }

namespace Begin
variable {p : Platform} {j k : Journal} {invocation : Invocation}

theorem grows (begun : Begin p j invocation k) : j.Extends k := by
  cases begun with
  | ensure instanceId granted valid ensures new idle unleased unused newer =>
    exact extends_start instanceId granted (fun _ => new) (fun f h => .inl (newer f h))
      fun _ => unleased
  | delete instanceId granted valid deletes new idle newer =>
    refine extends_start instanceId granted (fun _ => new) (fun f h => .inl (newer f h)) ?_
    intro lifetime
    rw [Intent.validate_lease valid lifetime] at deletes
    cases deletes
  | retry instanceId granted valid deletes found unfinished same leased idle newer =>
    refine extends_start instanceId granted (by simp) newer ?_
    intro lifetime
    rw [Intent.validate_lease valid lifetime] at deletes
    cases deletes
  | expiry => exact Journal.Extends.refl j
  | @decommission id target fence instanceId new idle fenced confirmed valid =>
    refine (extends_insert new).trans (Journal.Quiet.setFence fun old h => ?_).toExtends
    have same : j.fences.lookup target = some old := h
    rw [fenced] at same
    cases same
    have next := nextRevision_pos (Intent.validate_target valid).1
    refine .inl ?_
    simp only [deleteIntent, next]
    omega
  | settings instanceId wrote checked new idle newer =>
    refine (extends_insert new).trans (Journal.Quiet.setSettingsFence ?_).toExtends
    exact fun old h => Int.le_of_lt (newer old h)
  | operation instanceId wrote carries checked new idle => exact extends_insert new

private theorem running_put {id other : String} {row : Command} {t : Table String Command}
    (found : ∃ r, (t.put id row).lookup other = some r ∧ r.status = .running) :
    (∃ r, t.lookup other = some r ∧ r.status = .running) ∨ other = id := by
  obtain ⟨r, lookup, status⟩ := found
  rw [Table.lookup_put] at lookup
  split_ifs at lookup with same
  · exact .inr same
  · exact .inl ⟨r, lookup, status⟩

/-- Only the invocation's own command starts to run. -/
theorem running (begun : Begin p j invocation k) {id : String} (run : k.Running id) :
    j.Running id ∨ invocation.commandId = some id := by
  cases begun with
  | ensure | delete => exact (running_put run).imp_right fun same => by rw [same]; rfl
  | retry | expiry => exact .inl run
  | decommission => exact (running_put run).imp_right fun same => by rw [same]; rfl
  | settings instanceId wrote checked =>
    refine (running_put run).imp_right fun same => ?_
    rw [same]
    exact (Settings.check_identity checked).2.1
  | operation => exact (running_put run).imp_right fun same => by rw [same]; rfl

/-- Apart from a local expiry, the invocation's command runs once it is begun, under
the fingerprint of its payload. -/
theorem recorded (begun : Begin p j invocation k) {id : String} {payload : Payload}
    (command : invocation.commandId = some id) (body : invocation.payload = some payload)
    (journaled : ∀ i, invocation ≠ .profile .expiry i) :
    ∃ row, k.commands.lookup id = some row ∧ row.status = .running ∧
      row.fingerprint = p.sha256Hex payload.text := by
  cases begun with
  | ensure | delete =>
    cases command
    cases body
    exact ⟨_, Table.lookup_put_self _ _ _, rfl, rfl⟩
  | retry instanceId granted valid deletes found unfinished same =>
    cases command
    cases body
    exact ⟨_, found, unfinished, same⟩
  | expiry => exact absurd rfl (journaled _)
  | decommission =>
    cases command
    cases body
    exact ⟨_, Table.lookup_put_self _ _ _, rfl, rfl⟩
  | settings instanceId wrote checked =>
    obtain ⟨value, identity, _⟩ := Settings.check_identity checked
    have same := identity.symm.trans command
    cases same
    cases body
    exact ⟨_, Table.lookup_put_self _ _ _, rfl, by rw [value]; rfl⟩
  | operation =>
    cases command
    cases body
    exact ⟨_, Table.lookup_put_self _ _ _, rfl, rfl⟩

theorem runs (begun : Begin p j invocation k) {id : String}
    (command : invocation.commandId = some id) (journaled : ∀ i, invocation ≠ .profile .expiry i) :
    k.Running id := by
  cases body : invocation.payload with
  | none => cases begun <;> cases body
  | some payload =>
    obtain ⟨row, found, running, _⟩ := begun.recorded command body journaled
    exact ⟨row, found, running⟩

/-- A command that must not run twice is new to the journal, and its payload names it. -/
theorem once (begun : Begin p j invocation k) {id : String} (single : invocation.once = some id) :
    j.commands.lookup id = none ∧ invocation.commandId = some id ∧
      (∀ i, invocation ≠ .profile .expiry i) ∧
      ∃ payload, invocation.payload = some payload ∧ payload.Names id := by
  cases begun with
  | ensure instanceId granted valid ensures new =>
    simp only [Invocation.once, ensures, if_true, Option.some.injEq] at single
    subst single
    refine ⟨new, rfl, by simp, _, rfl, ?_⟩
    rw [Payload.Names, Intent.toValue_members]
    rfl
  | delete instanceId granted valid deletes => simp [Invocation.once, deletes] at single
  | retry instanceId granted valid deletes => simp [Invocation.once, deletes] at single
  | expiry | decommission => simp [Invocation.once, deleteIntent, Intent.ensure] at single
  | settings instanceId wrote checked new =>
    have identity := (Settings.check_identity checked).2.1
    have same := identity.symm.trans single
    cases same
    exact ⟨new, identity, by simp, _, rfl, identity⟩
  | @operation action id intent instanceId wrote carries checked new =>
    cases single
    refine ⟨new, rfl, by simp, _, rfl, ?_⟩
    have members : Json.object [("action", .str action), ("intent", intent)] =
        .obj [("action", .str action), ("intent", intent)] := by
      simp +decide [Json.object, Json.set, Json.insertMember]
    have body : (Json.obj [("action", .str action), ("intent", intent)]).field "intent" = intent := rfl
    rw [Payload.Names, members, body, Operation.check_identity checked]
    rfl

end Begin

/-- The state a removal marker may be written in. -/
def Markable (j : Journal) : Marker → Prop
  | .decommission _ _ => j.schema.file = true → (∀ id, ¬j.Running id) ∧
      ∀ target fence, j.fences.lookup target = some fence → Decommission.deleted j fence = true
  | .removal => j.schema.file = true → ∀ target, j.fences.lookup target = none

/-- One step of the agent; every change of the journal needs the marker absent. -/
inductive Transition (p : Platform) : Node → List Event → Node → Prop
  | tickets (n : Node) (tickets : Table String Json) : Transition p n [] { n with tickets }
  | quiet {n : Node} {journal : Journal} (enabled : n.marker = none) (file : journal.schema.file = true)
      (change : n.journal.Quiet journal) : Transition p n [] { n with journal }
  | start {n : Node} {invocation : Invocation} {journal : Journal} (enabled : n.marker = none)
      (file : journal.schema.file = true) (begun : Begin p n.journal invocation journal) :
      Transition p n [] { n with journal }
  | invoke {n : Node} {invocation : Invocation} {journal : Journal} (enabled : n.marker = none)
      (file : journal.schema.file = true) (begun : Begin p n.journal invocation journal) :
      Transition p n [⟨invocation, journal⟩] { n with journal }
  | script {n : Node} (enabled : n.marker = none) (name : String) (args : List String) :
      Transition p n [⟨.script name args, n.journal⟩] n
  | mark {n : Node} {marker : Marker} (enabled : n.marker = none)
      (safe : Markable n.journal marker) : Transition p n [] { n with marker := some marker }

end NodePlane
