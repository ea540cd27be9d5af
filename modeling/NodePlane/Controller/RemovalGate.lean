import Mathlib.Data.Finset.Max
import NodePlane.Controller.Completeness
import NodePlane.Controller.TemporaryLeases

/-! Protocols and nodes are removed only after every credential they carried has been
revoked, and nothing is sent to the node between that check and the command. -/
namespace NodePlane
namespace Controller
namespace RemovalGate
open Library

/-- Every target of the node, among these protocols, has a succeeded delete as its
latest task, and no task is under way. -/
structure Settled (db : Db) (node : NodeKey) (protocol : Protocol → Prop) : Prop where
  ended : ∀ t ∈ db.outbox.tasks, t.row.node = node → protocol t.row.protocol →
    t.status.pending = false
  deleted : ∀ t ∈ db.outbox.tasks, t.row.node = node → protocol t.row.protocol →
    ∃ u ∈ db.outbox.tasks, u.row.For t.row.profile (node, t.row.protocol) t.row.device ∧
      u.row.action = .delete ∧ u.status = .succeeded ∧
      ∀ v ∈ db.outbox.tasks, v.row.For t.row.profile (node, t.row.protocol) t.row.device →
        v.row.revision ≤ u.row.revision

/-- Another task has the target of `t`. -/
def sameTarget (t u : Task) : Bool :=
  u.row.node = t.row.node && u.row.protocol = t.row.protocol && u.row.device = t.row.device &&
    u.row.profile = t.row.profile

theorem exists_latest {tasks : List Task} {t : Task} (listed : t ∈ tasks) :
    ∃ u ∈ tasks, sameTarget t u = true ∧
      ∀ v ∈ tasks, sameTarget t v = true → v.row.revision ≤ u.row.revision := by
  have itself : t ∈ (tasks.filter (sameTarget t)).toFinset := by
    rw [List.mem_toFinset, List.mem_filter]
    exact ⟨listed, by simp [sameTarget]⟩
  obtain ⟨u, chosen, most⟩ :=
    (tasks.filter (sameTarget t)).toFinset.exists_max_image (fun u => u.row.revision) ⟨t, itself⟩
  obtain ⟨member, same⟩ := List.mem_filter.mp (List.mem_toFinset.mp chosen)
  refine ⟨u, member, same, fun v known target => most v ?_⟩
  exact List.mem_toFinset.mpr (List.mem_filter.mpr ⟨known, target⟩)

/-- The two checks of the code ask every task for a later one of its target, or to be
a succeeded delete. -/
theorem settled_of_check {db : Db} {node : NodeKey} {protocol : Protocol → Prop}
    (ended : ∀ t ∈ db.outbox.tasks, t.row.node = node → protocol t.row.protocol →
      t.status.pending = false)
    (latest : ∀ t ∈ db.outbox.tasks, t.row.node = node → protocol t.row.protocol →
      (∃ u ∈ db.outbox.tasks, sameTarget t u = true ∧ t.row.revision < u.row.revision) ∨
        (t.row.action = .delete ∧ t.status = .succeeded)) :
    Settled db node protocol where
  ended := ended
  deleted := by
    intro t listed there among
    obtain ⟨u, member, same, most⟩ := exists_latest listed
    simp only [sameTarget, Bool.and_eq_true, decide_eq_true_eq] at same
    obtain ⟨⟨⟨place, kind⟩, device⟩, owner⟩ := same
    have among' : protocol u.row.protocol := kind ▸ among
    rcases latest u member (place.trans there) among' with ⟨v, later, target, above⟩ | done
    · simp only [sameTarget, Bool.and_eq_true, decide_eq_true_eq] at target
      have bound := most v later (by
        simp only [sameTarget, Bool.and_eq_true, decide_eq_true_eq]
        exact ⟨⟨⟨target.1.1.1.trans place, target.1.1.2.trans kind⟩,
          target.1.2.trans device⟩, target.2.trans owner⟩)
      omega
    · refine ⟨u, member, ⟨owner, place.trans there, kind, device⟩, done.1, done.2, ?_⟩
      rintro v known ⟨owns, at_, through, its⟩
      refine most v known ?_
      simp only [sameTarget, Bool.and_eq_true, decide_eq_true_eq]
      exact ⟨⟨⟨at_.trans there.symm, through⟩, its⟩, owns⟩

theorem settled_of_confirmed {db : Db} {node : NodeKey} {removed : List Protocol}
    {terminal : Bool}
    (confirmed : ProtocolRemoval.isRevocationConfirmed db node removed terminal = true) :
    Settled db node (· ∈ removed) ∧ (removed ≠ [] → terminal = true) := by
  unfold ProtocolRemoval.isRevocationConfirmed at confirmed
  simp only [Bool.or_eq_true, Bool.and_eq_true, List.all_eq_true, List.any_eq_true,
    Bool.not_eq_true', List.mem_filter, decide_eq_true_eq, List.isEmpty_iff,
    List.contains_iff_mem] at confirmed
  rcases confirmed with none_ | ⟨⟨⟨_, ended⟩, latest⟩, last⟩
  · subst none_
    exact ⟨⟨fun _ _ _ bad => absurd bad (List.not_mem_nil), fun _ _ _ bad =>
      absurd bad (List.not_mem_nil)⟩, fun bad => absurd rfl bad⟩
  · refine ⟨settled_of_check (fun t listed there among => ended t ⟨listed, there, among⟩) ?_,
      fun _ => last⟩
    intro t listed there among
    rcases latest t ⟨listed, there, among⟩ with ⟨u, ⟨member, at_, _⟩, ⟨⟨kind, device⟩, owner⟩,
      above⟩ | done
    · refine .inl ⟨u, member, ?_, above⟩
      simp only [sameTarget, Bool.and_eq_true, decide_eq_true_eq]
      exact ⟨⟨⟨at_.trans there.symm, kind⟩, device⟩, owner⟩
    · exact .inr done

theorem settled_of_complete {db : Db} {node : NodeKey}
    (complete : NodeLifecycle.revocationsComplete db node = true) :
    Settled db node fun _ => True := by
  unfold NodeLifecycle.revocationsComplete at complete
  simp only [Bool.or_eq_true, Bool.and_eq_true, List.all_eq_true, List.any_eq_true,
    Bool.not_eq_true', List.mem_filter, decide_eq_true_eq] at complete
  obtain ⟨ended, latest⟩ := complete
  refine settled_of_check (fun t listed there _ => ended t ⟨listed, there⟩) ?_
  intro t listed there _
  rcases latest t ⟨listed, there⟩ with ⟨u, ⟨member, at_⟩, ⟨⟨kind, device⟩, owner⟩, above⟩ | done
  · refine .inl ⟨u, member, ?_, above⟩
    simp only [sameTarget, Bool.and_eq_true, decide_eq_true_eq]
    exact ⟨⟨⟨at_.trans there.symm, kind⟩, device⟩, owner⟩
  · exact .inr done

/-! Nodes whose cleanup has begun. -/

section Cleanup
variable {locked : Bool} {allow : Fleet → Job → Prop} {db next : Db} {es : List Event}

/-- A task that has ended keeps its status. -/
theorem ended_stays {s t : Status} (moves : s.Settles locked t) (ended : s.pending = false) :
    t = s := by
  rcases moves with same | ⟨rfl, _⟩ | ⟨_, held, _⟩
  · exact same
  · cases ended
  · rw [Status.pending_of_held held] at ended
    cases ended

/-- Tasks of a node that all have ended stay as they are, when none is added. -/
theorem Settled.step {node : NodeKey} {protocol : Protocol → Prop}
    (settled : Settled db node protocol) (numbered : Numbered db)
    (change : Change locked allow db es next)
    (quiet : ∀ u, Recorded db next u → u.row.node ≠ node) : Settled next node protocol := by
  have back : ∀ u ∈ next.outbox.tasks, u.row.node = node → protocol u.row.protocol →
      ∃ t ∈ db.outbox.tasks, t.row = u.row ∧ t.status = u.status := by
    intro u listed there among
    rcases change.task_from numbered listed with ⟨t, old, step⟩ | recorded
    · have row := step.row
      rw [row] at there among
      refine ⟨t, old, row.symm, ?_⟩
      have ended := settled.ended t old there among
      cases step with
      | moves h => exact (ended_stays h.status ended).symm
      | claimed held free =>
        simp only [IntentExecutor.claimable, Bool.and_eq_true, decide_eq_true_eq] at free
        rw [free.1.1.1.1.1] at ended
        cases ended
    · exact absurd there (quiet u recorded)
  constructor
  · intro u listed there among
    obtain ⟨t, old, row, status⟩ := back u listed there among
    rw [← status]
    exact settled.ended t old (row ▸ there) (row ▸ among)
  · intro u listed there among
    obtain ⟨t, old, row, _⟩ := back u listed there among
    obtain ⟨d, known, target, delete, done, most⟩ :=
      settled.deleted t old (row ▸ there) (row ▸ among)
    obtain ⟨e, kept, step⟩ := change.task_to numbered known
    have same := step.row
    refine ⟨e, kept, ?_, same ▸ delete, ?_, ?_⟩
    · rw [← row, same]
      exact target
    · cases step with
      | moves h => exact (h.status.final (by rw [done]; rfl)).trans done
      | claimed held free =>
        simp only [IntentExecutor.claimable, Bool.and_eq_true, decide_eq_true_eq] at free
        rw [done] at free
        cases free.1.1.1.1.1
    · intro v later for_
      obtain ⟨w, was, itself, _⟩ := back v later for_.2.1 (for_.2.2.1 ▸ among)
      rw [same, ← itself]
      refine most w was ?_
      rw [itself, row]
      exact for_

theorem cleanups_from (change : Change locked allow db es next) {node : NodeKey}
    (cleaning : node ∈ next.fleet.cleanups) : node ∈ db.fleet.cleanups ∨
      (NodeLifecycle.revocationsComplete db node = true ∧ next.outbox = db.outbox) := by
  cases change with
  | record now actor profile previous scope behind covers =>
    rw [(OperationRepository.record_frame db now actor profile previous scope).1] at cleaning
    exact .inl cleaning
  | enqueue queued =>
    cases queued <;> exact .inl cleaning
  | fleet change =>
    cases change with
    | cleanup held draining complete =>
      rcases List.mem_cons.mp cleaning with rfl | old
      · exact .inr ⟨complete, rfl⟩
      · exact .inl old
    | remove mode held row draining =>
      exact .inl (List.mem_filter.mp cleaning).1
    | _ => exact .inl cleaning
  | _ => exact .inl cleaning

/-- A node in cleanup has nothing left to revoke. -/
def Cleaned (db : Db) : Prop := ∀ node ∈ db.fleet.cleanups, Settled db node fun _ => True

theorem Cleaned.step (cleaned : Cleaned db) (numbered : Numbered db)
    (change : Change locked allow db es next) : Cleaned next := by
  intro node cleaning
  rcases cleanups_from change cleaning with was | ⟨complete, same⟩
  · refine (cleaned node was).step numbered change fun u recorded there => ?_
    exact recorded.open_.1 (there ▸ was)
  · have now_ := settled_of_complete complete
    exact ⟨by rw [same]; exact now_.ended, by rw [same]; exact now_.deleted⟩

end Cleanup

/-! The state of the claim, kept until the command is handed out. -/

section Claim
variable {allow : Fleet → Job → Prop} {claimed db next : Db} {es : List Event}
  {node : NodeKey} {protocol : Protocol → Prop}

/-- The task was there at the claim. -/
def Old (claimed : Db) (t : Task) : Prop :=
  ∃ u ∈ claimed.outbox.tasks, u.row = t.row ∧ u.status = t.status

/-- Since the claim, tasks of the node were only added, and none of those was claimed. -/
structure Since (claimed db : Db) (node : NodeKey) (protocol : Protocol → Prop) : Prop where
  later : claimed.fresh ≤ db.fresh
  tasks : ∀ t ∈ db.outbox.tasks, t.row.node = node → protocol t.row.protocol → Old claimed t ∨
    (claimed.fresh ≤ t.row.id ∧ (t.status = .awaitingExecutor ∨ t.status = .superseded))

theorem Since.step (since : Since claimed db node protocol)
    (settled : Settled claimed node protocol) (numbered : Numbered db)
    (change : Change false allow db es next) : Since claimed next node protocol where
  later := Nat.le_trans since.later change.later
  tasks := by
    intro u listed there among
    rcases change.task_from numbered listed with ⟨t, old, step⟩ | recorded
    · have row := step.row
      rw [row] at there among
      cases step with
      | moves h =>
        rcases since.tasks t old there among with ⟨v, known, same, status⟩ | ⟨new, waits⟩
        · have ended := settled.ended v known (same ▸ there) (same ▸ among)
          rw [status] at ended
          have stays := ended_stays h.status ended
          exact .inl ⟨v, known, same.trans row.symm, status.trans stays.symm⟩
        · refine .inr ⟨row ▸ new, ?_⟩
          rcases h.status with stays | ⟨_, superseded⟩ | ⟨bad, _⟩
          · rwa [stays]
          · exact .inr superseded
          · cases bad
      | claimed held => cases held
    · obtain ⟨now, actor, profile, previous, scope, rfl, _, created⟩ := recorded
      obtain ⟨_, _, _, _, _, _, waits, _⟩ := OperationRepository.created_task created
      exact .inr ⟨Nat.le_trans since.later (OperationRepository.created_drawn created).1,
        .inl waits⟩

theorem Since.steps (since : Since claimed db node protocol)
    (settled : Settled claimed node protocol) (sound : Sound db)
    (ran : Steps (Change false allow) db es next) : Since claimed next node protocol := by
  induction ran with
  | refl => exact since
  | head step _ ih => exact ih (since.step settled sound.numbered step) (sound.step step)

end Claim

/-! Runs of the controller with its leases. -/

section Runs
open TemporaryConfig TemporaryLeases
variable {s : TemporarySystem}

/-- What a call does to the rest of the controller. -/
inductive CoreStep (s : TemporarySystem) :
    TemporaryCall → TemporarySystem × List LeaseEvent → Prop
  | still {c : TemporaryCall} {out : TemporarySystem × List LeaseEvent}
      (core : out.1.core = s.core) (silent : ∀ e, .core e ∉ out.2) : CoreStep s c out
  | request {r : Request} {out : TemporarySystem × List LeaseEvent}
      (core : out.1.core = (s.core.exec (.request r)).1) (silent : ∀ e, .core e ∉ out.2) :
    CoreStep s (.core (.request r)) out
  | call {c : Call} (locked : c.locked = true) : CoreStep s (.core c) (s.coreStep c)

theorem claim_core (id : Uuid) :
    (s.claim id).1.core = s.core ∧ ∀ e, .core e ∉ (s.claim id).2 := by
  unfold TemporarySystem.claim
  split
  · exact ⟨rfl, by simp⟩
  · split
    · exact ⟨rfl, by simp⟩
    · split
      · split <;> exact ⟨rfl, by simp⟩
      · exact ⟨rfl, by simp⟩

theorem receive_core (l : Lease) (run : Bool) (now : Time) (reply : Option LeaseReceipt) :
    (s.receive l run now reply).1.core = s.core ∧
      ∀ e, .core e ∉ (s.receive l run now reply).2 := by
  unfold TemporarySystem.receive
  split
  · exact ⟨rfl, by simp⟩
  · split <;> exact ⟨rfl, by simp⟩

theorem poll_core (l : Lease) (r : LeaseReceipt) (run : Bool) (reply : Option AgentLease) :
    (s.poll l r run reply).1.core = s.core ∧ ∀ e, .core e ∉ (s.poll l r run reply).2 := by
  unfold TemporarySystem.poll
  split
  · exact ⟨rfl, by simp⟩
  · split <;> exact ⟨rfl, by simp⟩

theorem read_core (l : Lease) (reply : Option AgentState) :
    (s.read l reply).core = s.core := by
  unfold TemporarySystem.read
  dsimp only
  split
  · rfl
  · rfl
  · rfl
  · split <;> rfl

theorem select_core (id : Uuid) (p : LeaseStatus → Bool) (worker : Lease → LeaseWorker) :
    (s.select id p worker).core = s.core := by
  unfold TemporarySystem.select
  split
  · rfl
  · split <;> rfl

theorem request_core (r : Request) :
    (s.requestStep r).1.core = (s.core.exec (.request r)).1 ∧
      ∀ e, .core e ∉ (s.requestStep r).2 := by
  have outer : s.core.exec (.request r) =
      s.core.commit ((r.exec s.core.db).map (·, [])) s.core.holder := rfl
  rw [outer]
  unfold TemporarySystem.requestStep
  cases r.exec s.core.db with
  | error code => exact ⟨rfl, by simp⟩
  | ok db => exact ⟨rfl, by simp⟩

theorem exec_core (s : TemporarySystem) (c : TemporaryCall) : CoreStep s c (s.exec c) := by
  unfold TemporarySystem.exec
  cases c with
  | core c =>
    cases c with
    | request r => exact .request (request_core r).1 (request_core r).2
    | _ =>
      dsimp only
      split
      · exact .call rfl
      · exact .still rfl (by simp)
  | claim id =>
    dsimp only
    split
    · exact .still (claim_core id).1 (claim_core id).2
    · exact .still rfl (by simp)
  | receive now reply =>
    dsimp only
    split
    · exact .still (receive_core _ _ now reply).1 (receive_core _ _ now reply).2
    · exact .still rfl (by simp)
  | poll reply =>
    dsimp only
    split
    · exact .still (poll_core _ _ _ reply).1 (poll_core _ _ _ reply).2
    · exact .still rfl (by simp)
  | read reply =>
    dsimp only
    split
    · exact .still (read_core _ reply) (by simp)
    · exact .still rfl (by simp)
  | recheck id =>
    dsimp only
    split
    · exact .still (select_core id _ _) (by simp)
    · exact .still rfl (by simp)
  | resolve id =>
    dsimp only
    split
    · exact .still (select_core id _ _) (by simp)
    · exact .still rfl (by simp)
  | crash => exact .still rfl (by simp)
  | _ => dsimp only; split <;> exact .still rfl (by simp)

/-- A lease is only added on a node without pending settings. -/
theorem exec_created (drawn : Drawn (s.leases.map Lease.id) s.next) {c : TemporaryCall}
    {m : Lease} (listed : m ∈ (s.exec c).1.leases) :
    (∃ l ∈ s.leases, l.Moves (Activates s c) m) ∨
      s.core.db.fleet.settingsPending m.node = false := by
  rcases (exec_evolves drawn c).from_ listed with old | ⟨_, node, ready⟩
  · exact .inl old
  · simp only [readyNode, need_ok, deny_ok, Bool.or_eq_false_iff] at ready
    obtain ⟨_, _, _, _, _, ⟨_, settings⟩, _⟩ := ready
    exact .inr settings

/-- What holds in every reachable state. -/
structure Kept (past : List LeaseEvent) (s : TemporarySystem) : Prop where
  sound : Sound s.core.db
  holds : s.core.holder.Holds s.core.db
  cleaned : Cleaned s.core.db
  drawn : Drawn (s.leases.map Lease.id) s.next
  sent : ∀ row, .core (.executed row) ∈ past → row.id < s.core.db.fresh

theorem steps_kept {locked : Bool} {allow : Fleet → Job → Prop} {db next : Db}
    {es : List Event} (sound : Sound db) (cleaned : Cleaned db)
    (ran : Steps (Change locked allow) db es next) :
    db.fresh ≤ next.fresh ∧ Cleaned next := by
  induction ran with
  | refl => exact ⟨Nat.le_refl _, cleaned⟩
  | head step _ ih =>
    obtain ⟨later, stays⟩ := ih (sound.step step) (cleaned.step sound.numbered step)
    exact ⟨Nat.le_trans step.later later, stays⟩

theorem core_kept {past : List LeaseEvent} (kept : Kept past s) (c : Call) :
    Sound (s.core.exec c).1.db ∧ (s.core.exec c).1.holder.Holds (s.core.exec c).1.db ∧
      Cleaned (s.core.exec c).1.db ∧ s.core.db.fresh ≤ (s.core.exec c).1.db.fresh := by
  have covers : System.Covers (fun _ _ => True) c.locked s.core (s.core.exec c) :=
    System.exec_covers c kept.sound kept.holds fun _ _ => trivial
  obtain ⟨later, cleaned⟩ := steps_kept kept.sound kept.cleaned covers.run
  exact ⟨kept.sound.steps covers.run, covers.holds, cleaned, later⟩

/-- The claimed task of a command that goes out now. -/
theorem executed_claimed {c : Call} {row : TaskRow} {t : System}
    (shown : .executed row ∈ (t.exec c).2) : t.holder = .operation row false := by
  cases System.exec_reports shown with
  | executed claimed live => exact claimed
  | confirms bad => cases bad

theorem mem_coreStep {c : Call} {e : Event} (shown : .core e ∈ (s.coreStep c).2) :
    e ∈ (s.core.exec (s.checked c)).2 := by
  obtain ⟨f, listed, same⟩ := List.mem_map.mp shown
  cases same
  exact listed

theorem Kept.step {past : List LeaseEvent} (kept : Kept past s) (c : TemporaryCall) :
    Kept (past ++ (s.exec c).2) (s.exec c).1 := by
  have drawn := (exec_evolves kept.drawn c).drawn kept.drawn
  have moved := exec_core s c
  generalize s.exec c = out at drawn moved
  cases moved with
  | still core silent =>
    refine ⟨by rw [core]; exact kept.sound, by rw [core]; exact kept.holds,
      by rw [core]; exact kept.cleaned, drawn, fun row shown => ?_⟩
    rw [core]
    exact kept.sent row ((List.mem_append.mp shown).resolve_right (silent _))
  | @request r _ core silent =>
    obtain ⟨sound, holds, cleaned, later⟩ := core_kept kept (.request r)
    refine ⟨by rw [core]; exact sound, by rw [core]; exact holds, by rw [core]; exact cleaned,
      drawn, fun row shown => ?_⟩
    rw [core]
    exact Nat.lt_of_lt_of_le
      (kept.sent row ((List.mem_append.mp shown).resolve_right (silent _))) later
  | @call c locked =>
    obtain ⟨sound, holds, cleaned, later⟩ := core_kept kept (s.checked c)
    refine ⟨sound, holds, cleaned, drawn, fun row shown => ?_⟩
    refine Nat.lt_of_lt_of_le ?_ later
    rcases List.mem_append.mp shown with old | new
    · exact kept.sent row old
    · have claimed := executed_claimed (mem_coreStep new)
      have held := kept.holds
      rw [claimed] at held
      obtain ⟨t, listed, rfl, _⟩ := held
      exact kept.sound.numbered.tasks.below _ (List.mem_map_of_mem listed)

theorem after_kept (calls : List TemporaryCall) :
    Kept (TemporarySystem.history calls) (TemporarySystem.after calls) := by
  refine @run_invariant _ _ _ TemporarySystem.exec Kept (fun past s c kept => kept.step c) []
    TemporarySystem.start ?_ calls
  exact ⟨Sound.empty, trivial, by simp [Cleaned, TemporarySystem.start, System.start, Db.empty],
    ⟨by simp [TemporarySystem.start], by simp [TemporarySystem.start]⟩, by simp⟩

theorem after_snoc (calls : List TemporaryCall) (c : TemporaryCall) :
    TemporarySystem.after (calls ++ [c]) = ((TemporarySystem.after calls).exec c).1 ∧
      TemporarySystem.history (calls ++ [c]) =
        TemporarySystem.history calls ++ ((TemporarySystem.after calls).exec c).2 := by
  unfold TemporarySystem.after TemporarySystem.history
  rw [run_append]
  simp [run]

/-- The claim of a settings task, in the run that it holds the lock in. -/
structure ClaimedAt (calls : List TemporaryCall) (task : SettingsTask)
    (before between : List TemporaryCall) : Prop where
  split : ∃ terminal, calls = before ++ .core (.claimSettings terminal) :: between
  settled : Settled (TemporarySystem.after before).core.db task.node
    (· ∈ task.intent.removeProtocols)
  since : Since (TemporarySystem.after before).core.db (TemporarySystem.after calls).core.db
    task.node (· ∈ task.intent.removeProtocols)
  sent : ∀ row, .core (.executed row) ∈ TemporarySystem.history calls →
    row.id < (TemporarySystem.after before).core.db.fresh
  leases : ∀ l ∈ (TemporarySystem.after calls).leases, l.node = task.node →
    l.protocol ∈ task.intent.removeProtocols → l.status.terminal = true

theorem leases_stay (drawn : Drawn (s.leases.map Lease.id) s.next) {node : NodeKey}
    {removed : List Protocol}
    (held : ∀ l ∈ s.leases, l.node = node → l.protocol ∈ removed → l.status.terminal = true)
    (busy : s.core.db.fleet.settingsPending node = true) (c : TemporaryCall) :
    ∀ m ∈ (s.exec c).1.leases, m.node = node → m.protocol ∈ removed →
      m.status.terminal = true := by
  intro m listed there among
  rcases exec_created drawn listed with ⟨l, old, moves⟩ | idle
  · have final := held l old (moves.place.1.symm.trans there) (moves.place.2 ▸ among)
    rw [moves.final final]
    exact final
  · rw [there, busy] at idle
    cases idle

/-- A claimed settings task keeps its node busy. -/
theorem settings_busy {db : Db} {task : SettingsTask} {sent : Bool}
    (holds : (Holder.settings task sent).Holds db) :
    db.fleet.settingsPending task.node = true := by
  unfold Fleet.settingsPending
  rw [List.any_eq_true]
  exact ⟨_, holds, by simp [Status.pending]⟩

/-- Nothing is handed out to the driver while the claimed task waits. -/
theorem ClaimedAt.extend {calls before between : List TemporaryCall} {task : SettingsTask}
    (claim : ClaimedAt calls task before between) (c : TemporaryCall)
    (busy : (TemporarySystem.after calls).core.db.fleet.settingsPending task.node = true)
    (since : Since (TemporarySystem.after before).core.db
      ((TemporarySystem.after calls).exec c).1.core.db task.node
      (· ∈ task.intent.removeProtocols))
    (silent : ∀ row, .core (.executed row) ∉ ((TemporarySystem.after calls).exec c).2) :
    ClaimedAt (calls ++ [c]) task before (between ++ [c]) := by
  obtain ⟨state, past⟩ := after_snoc calls c
  obtain ⟨terminal, split⟩ := claim.split
  refine ⟨⟨terminal, by rw [split]; simp⟩, claim.settled, ?_, ?_, ?_⟩
  · rw [state]
    exact since
  · intro row shown
    rw [past] at shown
    exact claim.sent row ((List.mem_append.mp shown).resolve_right (silent row))
  · rw [state]
    exact leases_stay (after_kept calls).drawn claim.leases busy c

/-- The claim itself: the check of the revocations holds in the state that it reads. -/
theorem ClaimedAt.start {calls : List TemporaryCall} {task : SettingsTask} {terminal : Bool}
    {f : Fleet}
    (claim : NodeSettingsExecutor.claim (TemporarySystem.after calls).core.db task
      ((TemporarySystem.after calls).terminalFor task) = (f, true))
    (next : TemporarySystem.after (calls ++ [.core (.claimSettings terminal)]) =
      { TemporarySystem.after calls with
        core := ⟨{ (TemporarySystem.after calls).core.db with fleet := f },
          .settings task false⟩ })
    (silent : ∀ row, .core (.executed row) ∉
      ((TemporarySystem.after calls).exec (.core (.claimSettings terminal))).2) :
    ClaimedAt (calls ++ [.core (.claimSettings terminal)]) task calls [] := by
  have kept := after_kept calls
  have ready : NodeSettingsExecutor.ready (TemporarySystem.after calls).core.db task
      ((TemporarySystem.after calls).terminalFor task) = true := by
    unfold NodeSettingsExecutor.claim at claim
    split at claim
    · cases claim
    · split at claim
      · cases claim
      · split at claim
        · next ready => exact ready
        · cases claim
  simp only [NodeSettingsExecutor.ready, Bool.and_eq_true] at ready
  obtain ⟨settled, final⟩ := settled_of_confirmed ready.1
  refine ⟨⟨terminal, rfl⟩, settled, ?_, ?_, ?_⟩
  · rw [next]
    exact ⟨Nat.le_refl _, fun t listed _ _ => .inl ⟨t, listed, rfl, rfl⟩⟩
  · intro row shown
    rw [(after_snoc calls _).2] at shown
    exact kept.sent row ((List.mem_append.mp shown).resolve_right (silent row))
  · rw [next]
    intro l listed there among
    have ended := final (List.ne_nil_of_mem among)
    have each := List.all_eq_true.mp ended l listed
    simpa [removable, there, among] using each

theorem request_holder (t : System) (r : Request) :
    (t.exec (.request r)).1.holder = t.holder := by
  have outer : t.exec (.request r) = t.commit ((r.exec t.db).map (·, [])) t.holder := rfl
  rw [outer]
  cases r.exec t.db <;> rfl

/-- Only a claim of settings reads the leases of the inspected task. -/
theorem checked_claim {c : Call} {terminal installed initialized : Bool} {task : SettingsTask}
    (inspected : s.core.holder = .inspecting task installed initialized)
    (shape : s.checked c = .claimSettings terminal) :
    (∃ given, c = .claimSettings given) ∧ terminal = s.terminalFor task := by
  cases c with
  | claimSettings given =>
    simp only [TemporarySystem.checked, inspected, Call.claimSettings.injEq] at shape
    exact ⟨⟨given, rfl⟩, shape.symm⟩
  | repair r => cases r <;> cases shape
  | _ => cases shape

theorem checked_locked (s : TemporarySystem) (c : Call) : (s.checked c).locked = c.locked := by
  cases c with
  | repair r => cases r <;> rfl
  | _ => rfl

theorem settings_claimed (calls : List TemporaryCall) : ∀ task sent,
    (TemporarySystem.after calls).core.holder = .settings task sent →
      ∃ before between, ClaimedAt calls task before between := by
  induction calls using List.reverseRecOn with
  | nil => intro task sent held; cases held
  | append_singleton calls c ih =>
    intro task sent held
    have kept := after_kept calls
    have moved := exec_core (TemporarySystem.after calls) c
    obtain ⟨state, past⟩ := after_snoc calls c
    rw [state] at held
    -- A holder that stays leaves the claim of the earlier calls.
    have stays : ∀ claimed, (TemporarySystem.after calls).core.holder = .settings task claimed →
        (∀ before between, ClaimedAt calls task before between →
          Since (TemporarySystem.after before).core.db
            ((TemporarySystem.after calls).exec c).1.core.db task.node
            (· ∈ task.intent.removeProtocols)) →
        (∀ row, .core (.executed row) ∉ ((TemporarySystem.after calls).exec c).2) →
        ∃ before between, ClaimedAt (calls ++ [c]) task before between := by
      intro claimed was since silent
      obtain ⟨before, between, claim⟩ := ih task claimed was
      have holds := kept.holds
      rw [was] at holds
      exact ⟨before, between ++ [c], claim.extend c (settings_busy holds)
        (since before between claim) silent⟩
    generalize shape : (TemporarySystem.after calls).exec c = out at moved held stays
    cases moved with
    | still core silent =>
      rw [core] at held
      refine stays sent held (fun before between claim => ?_) fun row => silent _
      rw [core]
      exact claim.since
    | @request r _ core silent =>
      rw [core, request_holder] at held
      refine stays sent held (fun before between claim => ?_) fun row => silent _
      have covers : System.Covers (fun _ _ => True) (Call.request r).locked
          (TemporarySystem.after calls).core
          ((TemporarySystem.after calls).core.exec (.request r)) :=
        System.exec_covers (.request r) kept.sound kept.holds fun _ _ => trivial
      rw [core]
      exact claim.since.steps claim.settled kept.sound covers.run
    | @call c locked =>
      have silent : ∀ row, .core (.executed row) ∈ ((TemporarySystem.after calls).coreStep c).2 →
          (TemporarySystem.after calls).core.holder = .operation row false :=
        fun row shown => executed_claimed (mem_coreStep shown)
      have handed := exec_handover (TemporarySystem.after calls).core
        ((TemporarySystem.after calls).checked c)
      have core : ((TemporarySystem.after calls).coreStep c).1.core =
        ((TemporarySystem.after calls).core.exec ((TemporarySystem.after calls).checked c)).1 := rfl
      rw [core] at held stays
      generalize next : ((TemporarySystem.after calls).core.exec
        ((TemporarySystem.after calls).checked c)).1 = after at handed held stays
      generalize call : (TemporarySystem.after calls).checked c = checked at handed
      cases handed with
      | kept =>
        refine stays sent held (fun before between claim => claim.since) fun row shown => ?_
        rw [silent row shown] at held
        cases held
      | request =>
        have same := checked_locked (TemporarySystem.after calls) c
        rw [call, locked] at same
        cases same
      | claimsSettings inspected claim =>
        cases held
        obtain ⟨⟨terminal, rfl⟩, rfl⟩ := checked_claim inspected call
        refine ⟨calls, [], ClaimedAt.start claim ?_ fun row shown => ?_⟩
        · rw [call] at next
          rw [state, shape]
          unfold TemporarySystem.coreStep
          dsimp only
          rw [call, next]
        · rw [shape] at shown
          rw [silent row shown] at inspected
          cases inspected
      | @sendsSettings _ claimed =>
        cases held
        refine stays false claimed (fun before between claim => claim.since) fun row shown => ?_
        rw [silent row shown] at claimed
        cases claimed
      | _ => cases held

/-- What was there at the claim is the same when the command goes out; what was recorded
since has not been sent. -/
def Unmoved (past : List LeaseEvent) (claimed db : Db) (node : NodeKey)
    (protocol : Protocol → Prop) : Prop :=
  ∀ t ∈ db.outbox.tasks, t.row.node = node → protocol t.row.protocol → Old claimed t ∨
    ((t.status = .awaitingExecutor ∨ t.status = .superseded) ∧
      ∀ row : TaskRow, row.id = t.row.id → .core (.executed row) ∉ past)

theorem ClaimedAt.unmoved {calls before between : List TemporaryCall} {task : SettingsTask}
    (claim : ClaimedAt calls task before between) :
    Unmoved (TemporarySystem.history calls) (TemporarySystem.after before).core.db
      (TemporarySystem.after calls).core.db task.node (· ∈ task.intent.removeProtocols) := by
  intro t listed there among
  rcases claim.since.tasks t listed there among with old | ⟨new, waits⟩
  · exact .inl old
  · refine .inr ⟨waits, fun row same shown => ?_⟩
    have below := claim.sent row shown
    rw [same] at below
    exact absurd new (Nat.not_le.mpr below)

/-- A settings task that removes a protocol goes out only with every lease of it ended,
and after a claim that found every target of it revoked; a node's cleanup begins, goes
on, and ends in a verified retirement only with every target of the node revoked. -/
theorem removal_after_revocation (calls : List TemporaryCall) :
    (∀ call task, .core (.applied task) ∈ ((TemporarySystem.after calls).exec call).2 →
      (∀ l ∈ (TemporarySystem.after calls).leases, l.node = task.node →
        l.protocol ∈ task.intent.removeProtocols → l.status.terminal = true) ∧
      ∃ before terminal between, calls = before ++ .core (.claimSettings terminal) :: between ∧
        Settled (TemporarySystem.after before).core.db task.node
          (· ∈ task.intent.removeProtocols) ∧
        Unmoved (TemporarySystem.history calls) (TemporarySystem.after before).core.db
          (TemporarySystem.after calls).core.db task.node (· ∈ task.intent.removeProtocols)) ∧
    (∀ node ∈ (TemporarySystem.after calls).core.db.fleet.cleanups,
      Settled (TemporarySystem.after calls).core.db node fun _ => True) ∧
    ∀ node next,
      (NodeLifecycle.startCleanup (TemporarySystem.after calls).core.db node = .ok next ∨
        NodeLifecycle.retireVerified (TemporarySystem.after calls).core.db node = .ok next) →
      Settled (TemporarySystem.after calls).core.db node fun _ => True := by
  have kept := after_kept calls
  refine ⟨?_, kept.cleaned, ?_⟩
  · intro call task shown
    have moved := exec_core (TemporarySystem.after calls) call
    generalize (TemporarySystem.after calls).exec call = out at moved shown
    cases moved with
    | still core silent => exact absurd shown (silent _)
    | request core silent => exact absurd shown (silent _)
    | @call c locked =>
      have held : (TemporarySystem.after calls).core.holder = .settings task false := by
        have reported := mem_coreStep shown
        generalize (TemporarySystem.after calls).checked c = checked at reported
        cases System.exec_reports reported with
        | applied claimed => exact claimed
        | confirms bad => cases bad
      obtain ⟨before, between, claim⟩ := settings_claimed calls task false held
      obtain ⟨terminal, split⟩ := claim.split
      exact ⟨claim.leases, before, terminal, between, split, claim.settled, claim.unmoved⟩
  · rintro node next (done | done)
    · simp only [NodeLifecycle.startCleanup, deny_ok, Bool.not_eq_false'] at done
      exact settled_of_complete done.2.1
    · simp only [NodeLifecycle.retireVerified, need_ok, deny_ok, Bool.not_eq_false'] at done
      obtain ⟨_, _, _, complete, _⟩ := done
      exact settled_of_complete complete

end Runs

open Completeness in
/-- The removal of a protocol is claimed, and the profile is edited before it goes out. -/
def crossed : List TemporaryCall :=
  List.map .core <| narrowed ++ [
    .claimTask 9,
    .sendTask 0,
    .finishTask true,
    .claimTask 10,
    .claimTask 12,
    .sendTask 0,
    .finishTask true,
    .request (.queueSettings 0 0 "b" 2 0),
    .inspectNode 13 true,
    .claimSettings true,
    .request (.editProfile 0 0 2 3 ⟨some false, none, [], none⟩)]

def removes (node : NodeKey) (protocol : Protocol) : LeaseEvent → Bool
  | .core (.applied task) => task.node = node && task.intent.removeProtocols.contains protocol
  | _ => false

/-- The latest task of the removed target is queued when the command goes out. -/
theorem recorded_beside_removal :
    (((TemporarySystem.after crossed).exec (.core .sendSettings)).2.any (removes "b" .xray)) =
        true ∧
      (∃ t ∈ (TemporarySystem.after crossed).core.db.outbox.tasks, t.row.node = "b" ∧
        t.row.protocol = .xray ∧ t.row.device = 5 ∧ t.row.revision = 4 ∧
        t.status = .awaitingExecutor) ∧
      ∀ t ∈ (TemporarySystem.after crossed).core.db.outbox.tasks, t.row.node = "b" →
        t.row.protocol = .xray → t.row.device = 5 → t.row.revision ≤ 4 := by
  decide +kernel

end RemovalGate
end Controller
end NodePlane
