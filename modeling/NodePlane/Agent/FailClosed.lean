import Mathlib.Data.Set.Insert
import NodePlane.Agent.Calls

/-! What an unfinished command blocks: the rows left running, and the runners that
start beside them. -/
namespace NodePlane
open Library
namespace FailClosed

/-- A delete recorded for a leased profile. -/
structure Revocation (p : Platform) (j : Journal) (lease : Lease) (i : Intent) : Prop where
  leased : j.leases.lookup i.target = some lease
  deletes : i.ensure = false
  recorded : ∃ row, j.commands.lookup i.commandId = some row ∧ row.fingerprint = i.fingerprint p

/-- At most one command is running, or a grant and its own revocation. -/
def Bounded (p : Platform) (j : Journal) : Prop :=
  (∃ a, ∀ id, j.Running id → id = a) ∨
    ∃ lease i, Revocation p j lease i ∧
      ∀ id, j.Running id → id = lease.commandId ∨ id = i.commandId

/-- The running rows: none, one, or a grant and its own revocation. -/
def RunningRows (p : Platform) (j : Journal) : Prop :=
  {id | j.Running id} = ∅ ∨ (∃ a, {id | j.Running id} = {a}) ∨
    ∃ lease i, Revocation p j lease i ∧ {id | j.Running id} = {lease.commandId, i.commandId}

/-- A command runs beside its own row, as a delete beside its profile's grant, or as
the local expiry of a lease beside anything. -/
def Alone (e : Event) : Prop :=
  ∀ id, e.journal.Running id → e.invocation.commandId = some id ∨
    ∃ origin i lease, e.invocation = .profile origin i ∧ i.ensure = false ∧
      e.journal.leases.lookup i.target = some lease ∧
      (id = lease.commandId ∨ (origin = .expiry ∧ lease.status = .revoking))

variable {p : Platform} {j k : Journal} {invocation : Invocation}

theorem Revocation.mono {lease : Lease} {i : Intent} (revocation : Revocation p j lease i)
    (grows : j.Extends k) :
    ∃ next, next.commandId = lease.commandId ∧ Revocation p k next i := by
  obtain ⟨leased, deletes, row, found, same⟩ := revocation
  obtain ⟨next, kept, commandId⟩ := grows.leases _ lease leased
  obtain ⟨later, found', le⟩ := grows.commands _ row found
  exact ⟨next, commandId, kept, deletes, later, found', le.1.trans same⟩

theorem Bounded.mono (bounded : Bounded p j) (grows : j.Extends k)
    (running : ∀ id, k.Running id → j.Running id) : Bounded p k := by
  rcases bounded with ⟨a, one⟩ | ⟨lease, i, revocation, two⟩
  · exact .inl ⟨a, fun id run => one id (running id run)⟩
  · obtain ⟨next, same, later⟩ := revocation.mono grows
    exact .inr ⟨next, i, later, fun id run => same ▸ two id (running id run)⟩

theorem Bounded.rows (bounded : Bounded p j) : RunningRows p j := by
  rcases bounded with ⟨a, one⟩ | ⟨lease, i, revocation, two⟩
  · have sub : {id | j.Running id} ⊆ {a} := fun id run => one id run
    rcases Set.subset_singleton_iff_eq.mp sub with none | single
    · exact .inl none
    · exact .inr (.inl ⟨a, single⟩)
  · have sub : {id | j.Running id} ⊆ {lease.commandId, i.commandId} := fun id run => two id run
    rcases Set.subset_pair_iff_eq.mp sub with none | first | second | both
    · exact .inl none
    · exact .inr (.inl ⟨_, first⟩)
    · exact .inr (.inl ⟨_, second⟩)
    · exact .inr (.inr ⟨lease, i, revocation, both⟩)

private theorem only_command (idle : ∀ id, ¬j.Running id) (begun : Begin p j invocation k) {a : String}
    (command : invocation.commandId = some a) : Bounded p k := by
  refine .inl ⟨a, fun id run => ?_⟩
  rcases begun.running run with old | own
  · exact absurd old (idle id)
  · exact Option.some.inj (own.symm.trans command)

/-- A lease survives the commit before a runner. -/
private theorem lease_kept (begun : Begin p j invocation k) {target : String × String} {lease : Lease}
    (leased : j.leases.lookup target = some lease) :
    ∃ next, k.leases.lookup target = some next ∧ next.commandId = lease.commandId :=
  begun.grows.leases target lease leased

/-- A start that its checks allow keeps the running rows bounded. -/
theorem begin_bounded (bounded : Bounded p j) (begun : Begin p j invocation k) : Bounded p k := by
  have begun' := begun
  cases begun with
  | ensure instanceId granted valid ensures new idle => exact only_command idle begun' rfl
  | expiry => exact bounded
  | decommission instanceId new idle => exact only_command idle begun' rfl
  | settings instanceId wrote checked new idle =>
    exact only_command idle begun' (Settings.check_identity checked).2.1
  | operation instanceId wrote carries checked new idle => exact only_command idle begun' rfl
  | @delete i instanceId granted valid deletes new idle newer =>
    rcases Option.eq_none_or_eq_some (j.leases.lookup i.target) with held | ⟨lease, held⟩
    · have free : ∀ id, ¬j.Running id := by
        intro id run
        obtain ⟨lease, leased, _⟩ := idle id run
        rw [held] at leased
        cases leased
      exact only_command free begun' rfl
    · obtain ⟨next, kept, same⟩ := lease_kept begun' held
      refine .inr ⟨next, i, ⟨kept, deletes, _, Table.lookup_put_self _ _ _, rfl⟩, fun id run => ?_⟩
      rcases begun'.running run with old | own
      · obtain ⟨lease', leased', equal⟩ := idle id old
        rw [held] at leased'
        cases leased'
        exact .inl (equal.trans same.symm)
      · exact .inr (Option.some.inj own).symm
  | @retry i row lease instanceId granted valid deletes found unfinished recorded leased idle newer =>
    obtain ⟨next, kept, same⟩ := lease_kept begun' leased
    refine .inr ⟨next, i, ⟨kept, deletes, row, found, recorded⟩, fun id run => ?_⟩
    rcases idle id run with own | grant
    · exact .inr own
    · exact .inl (grant.trans same.symm)

/-- A runner starts only beside the rows its kind of command may meet. -/
theorem begin_alone (begun : Begin p j invocation k) : Alone ⟨invocation, k⟩ := by
  intro id run
  have begun' := begun
  rcases begun.running run with old | own
  · cases begun with
    | ensure instanceId granted valid ensures new idle => exact absurd old (idle id)
    | decommission instanceId new idle => exact absurd old (idle id)
    | settings instanceId wrote checked new idle => exact absurd old (idle id)
    | operation instanceId wrote carries checked new idle => exact absurd old (idle id)
    | @delete i instanceId granted valid deletes new idle newer =>
      obtain ⟨lease, leased, equal⟩ := idle id old
      obtain ⟨next, kept, same⟩ := lease_kept begun' leased
      exact .inr ⟨_, i, next, rfl, deletes, kept, .inl (equal.trans same.symm)⟩
    | @retry i row lease instanceId granted valid deletes found unfinished recorded leased idle =>
      rcases idle id old with own | grant
      · exact .inl (congrArg some own.symm)
      · obtain ⟨next, kept, same⟩ := lease_kept begun' leased
        exact .inr ⟨_, i, next, rfl, deletes, kept, .inl (grant.trans same.symm)⟩
    | @expiry target lease fence leased marked fenced valid =>
      exact .inr ⟨_, _, lease, rfl, rfl, leased, .inr ⟨rfl, marked⟩⟩
  · exact .inl own

/-- The runs so far: every state a command's runner started in, and the last one. -/
structure Kept (p : Platform) (past : List Event) (n : Node) : Prop where
  bounded : Bounded p n.journal
  starts : ∀ e ∈ past, e.invocation.commandId.isSome → Bounded p e.journal ∧ Alone e

theorem kept_step {past events : List Event} {n m : Node} (kept : Kept p past n)
    (step : Transition p n events m) : Kept p (past ++ events) m := by
  cases step with
  | tickets | mark => exact ⟨kept.bounded, by simpa using kept.starts⟩
  | quiet enabled file change =>
    exact ⟨kept.bounded.mono change.toExtends change.running, by simpa using kept.starts⟩
  | start enabled file begun =>
    exact ⟨begin_bounded kept.bounded begun, by simpa using kept.starts⟩
  | invoke enabled file begun =>
    have bounded := begin_bounded kept.bounded begun
    refine ⟨bounded, fun e member command => ?_⟩
    rcases List.mem_append.mp member with old | new
    · exact kept.starts e old command
    · rw [List.mem_singleton] at new
      subst new
      exact ⟨bounded, begin_alone begun⟩
  | script enabled name args =>
    refine ⟨kept.bounded, fun e member command => ?_⟩
    rcases List.mem_append.mp member with old | new
    · exact kept.starts e old command
    · rw [List.mem_singleton] at new
      subst new
      cases command

theorem history_kept (p : Platform) (calls : List Call) :
    Kept p (Agent.history p calls) (Agent.after p calls) := by
  have start : Kept p [] Node.fresh := ⟨.inl ⟨"", fun id ⟨row, found, _⟩ => by cases found⟩, by simp⟩
  exact Steps.history (fun kept step => kept_step kept step) start (Agent.after_steps p calls)

/-- The rows left running after any run, and at every start of a command's runner; and
what else is running when one starts. -/
theorem running_fails_closed (p : Platform) (calls : List Call) :
    RunningRows p (Agent.after p calls).journal ∧
      ∀ e ∈ Agent.history p calls, e.invocation.commandId.isSome →
        RunningRows p e.journal ∧ Alone e := by
  have kept := history_kept p calls
  refine ⟨kept.bounded.rows, fun e member command => ?_⟩
  obtain ⟨bounded, alone⟩ := kept.starts e member command
  exact ⟨bounded.rows, alone⟩

/-- The same without the exception for local expiries. -/
def Strict (e : Event) : Prop :=
  ∀ id, e.journal.Running id → e.invocation.commandId = some id ∨
    ∃ origin i lease, e.invocation = .profile origin i ∧ i.ensure = false ∧
      e.journal.leases.lookup i.target = some lease ∧ id = lease.commandId

/-- A grant, another profile's ensure that the process does not survive, and the
grant's expiry. -/
def sampleCalls : List Call :=
  [.applyProfile sampleGrant "agent-1" ⟨0, 0, 0⟩ fun _ => .done Response.ok,
    .applyProfile sampleEnsure "agent-1" ⟨1, 1, 1⟩ fun _ => .stopped,
    .expire "agent-2" 43200000000 fun _ => .done Response.ok]

/-- A local expiry runs while an unrelated command is unfinished. -/
theorem expiry_beside_running : ¬∀ (p : Platform) (calls : List Call),
    ∀ e ∈ Agent.history p calls, e.invocation.commandId.isSome → Strict e := by
  intro strict
  obtain ⟨e, member, facts⟩ := List.any_eq_true.mp (show (Agent.history Platform.sample
      sampleCalls).any (fun e => e.invocation.commandId == some (Expiry.expiryId Platform.sample
        ⟨"grant-1", 0, .active⟩) &&
      (e.invocation.mutation.any fun m => m.2.target == sampleGrant.target) &&
      decide ((e.journal.commands.lookup "ensure-1").map Command.status = some .running) &&
      decide ((e.journal.leases.lookup sampleGrant.target).map Lease.commandId = some "grant-1")) =
      true by decide)
  simp only [Bool.and_eq_true, beq_iff_eq, decide_eq_true_eq, Option.map_eq_some_iff] at facts
  obtain ⟨⟨⟨command, mutation⟩, row, found, running⟩, lease, leased, grant⟩ := facts
  rcases strict Platform.sample sampleCalls e member (by rw [command]; rfl) "ensure-1"
    ⟨row, found, running⟩ with own | ⟨origin, i, lease', profile, _, leased', other⟩
  · rw [command] at own
    revert own
    decide
  · rw [profile] at mutation
    have target : i.target = sampleGrant.target := by simpa [Invocation.mutation] using mutation
    rw [target, leased] at leased'
    cases leased'
    rw [grant] at other
    revert other
    decide

end FailClosed
end NodePlane
