import NodePlane.Controller.Completeness
import Mathlib.Data.List.Induction

/-! What blocks a node: a task that was handed to the driver, or that ran when the worker died. -/
namespace NodePlane
namespace Controller
namespace Blocked
open Library OperationRepository

/-- Held tasks were held, and running ones ran. -/
def HeldFrom (db next : Db) : Prop :=
  ∀ u ∈ next.outbox.tasks, u.status.held = true →
    ∃ t ∈ db.outbox.tasks, t.row = u.row ∧ t.status.held = true ∧
      (u.status = .running → t.status = .running)

namespace HeldFrom
variable {db mid next : Db}

theorem of_tasks (same : next.outbox.tasks = db.outbox.tasks) : HeldFrom db next := by
  intro u listed held
  rw [same] at listed
  exact ⟨u, listed, rfl, held, id⟩

theorem trans (first : HeldFrom db mid) (second : HeldFrom mid next) : HeldFrom db next := by
  intro u listed held
  obtain ⟨t, middle, row, was, ran⟩ := second u listed held
  obtain ⟨v, early, row', was', ran'⟩ := first t middle was
  exact ⟨v, early, row'.trans row, was', fun running => ran' (ran running)⟩

end HeldFrom

section Runs
variable {allow : Fleet → Job → Prop} {db mid next : Db} {es : List Event}

/-- Without the lock a held task keeps its status. -/
theorem Change.same_held (numbered : Numbered db) (change : Change false allow db es next) {u : Task}
    (listed : u ∈ next.outbox.tasks) (held : u.status.held = true) :
    ∃ t ∈ db.outbox.tasks, t.row = u.row ∧ t.status = u.status := by
  rcases change.task_from numbered listed with ⟨t, old, step⟩ | recorded
  · refine ⟨t, old, step.row.symm, ?_⟩
    cases step with
    | moves h => exact (h.status.unlocked (h.status.held held)).symm
    | claimed locked => cases locked
  · obtain ⟨now, actor, profile, previous, scope, rfl, _, created⟩ := recorded
    obtain ⟨_, _, _, _, _, _, waits, _⟩ := created_task created
    rw [waits] at held
    cases held

theorem same_held_steps (sound : Sound db) (steps : Steps (Change false allow) db es next) {u : Task}
    (listed : u ∈ next.outbox.tasks) (held : u.status.held = true) :
    ∃ t ∈ db.outbox.tasks, t.row = u.row ∧ t.status = u.status := by
  induction steps with
  | refl => exact ⟨u, listed, rfl, rfl⟩
  | head step _ ih =>
    obtain ⟨t, middle, row, status⟩ := ih (sound.step step) listed
    obtain ⟨v, old, row', status'⟩ :=
      Change.same_held sound.numbered step middle (by rw [status]; exact held)
    exact ⟨v, old, row'.trans row, status'.trans status⟩

theorem held_steps (sound : Sound db) (steps : Steps (Change false allow) db es next) :
    HeldFrom db next := by
  intro u listed held
  obtain ⟨t, old, row, status⟩ := same_held_steps sound steps listed held
  exact ⟨t, old, row, by rw [status]; exact held, fun running => status.trans running⟩

/-- A transaction that holds no task that was not held. -/
def Quiet (db next : Db) : Prop := Sound db → Sound next ∧ HeldFrom db next

namespace Quiet

theorem after (first : Quiet db mid) (second : Quiet mid next) : Quiet db next := by
  intro sound
  obtain ⟨middle, before⟩ := first sound
  obtain ⟨last, later⟩ := second middle
  exact ⟨last, before.trans later⟩

/-- What needs no lock is quiet. -/
theorem of_reaches (reaches : Reaches false (fun _ _ => True) db es next) : Quiet db next := by
  intro sound
  refine ⟨sound.steps (reaches sound), ?_⟩
  exact held_steps sound (reaches sound)

/-- A change of other rows is quiet. -/
theorem of_tasks (reaches : Reaches true (fun _ _ => True) db es next)
    (same : next.outbox.tasks = db.outbox.tasks) : Quiet db next :=
  fun sound => ⟨sound.steps (reaches sound), .of_tasks same⟩

theorem refl (db : Db) : Quiet db db := of_reaches (Reaches.refl db)

/-- Tasks are marked with a status that holds no more than their own. -/
theorem mark {p : Task → Bool} {status : Status}
    (settles : ∀ t ∈ db.outbox.tasks, p t = true → t.status.Settles true status)
    (ends : ∀ t, p t = true → status.held = true → t.status.held = true)
    (stopped : status ≠ .running) : Quiet db (OperationRepository.mark db p status) := by
  intro sound
  have reaches : Reaches true (fun _ _ => True) db [] (OperationRepository.mark db p status) :=
    Reaches.mark settles
  refine ⟨sound.steps (reaches sound), ?_⟩
  intro u listed held
  obtain ⟨t, old, rfl⟩ := List.mem_map.mp listed
  by_cases marked : p t = true
  · rw [if_pos marked] at held ⊢
    exact ⟨t, old, rfl, ends t marked held, fun running => absurd running stopped⟩
  · rw [if_neg marked] at held ⊢
    exact ⟨t, old, rfl, held, id⟩

/-- Tasks that end hold nothing. -/
theorem mark_ended {p : Task → Bool} {status : Status} (ended : status.held = false)
    (settles : ∀ t ∈ db.outbox.tasks, p t = true → t.status.Settles true status) :
    Quiet db (OperationRepository.mark db p status) := by
  refine mark settles ?_ ?_
  · intro t _ held
    exact nomatch ended.symm.trans held
  · rintro rfl
    cases ended

theorem refreshOperation (operation : Uuid) : Quiet db (IntentExecutor.refreshOperation db operation) :=
  of_reaches (Reaches.refreshOperation operation)

theorem refreshAll (ids : List Uuid) : Quiet db (ids.foldl IntentExecutor.refreshOperation db) :=
  of_reaches (Reaches.refreshAll ids)

/-! The worker and its repairs. -/

theorem recoverTasks : Quiet db (IntentExecutor.recover db) := by
  refine (mark ?_ ?_ (by simp)).after
    (of_reaches (Reaches.operations (map_keys fun o _ => by split <;> rfl)))
  · intro t _ running
    rw [of_decide_eq_true running]
    exact settles_held rfl (by simp) (by simp)
  · intro t running _
    rw [of_decide_eq_true running]
    rfl

theorem retireObsolete {id : Uuid} {t : Task}
    (found : IntentExecutor.candidate db id = some t) :
    Quiet db (IntentExecutor.refreshOperation
      (OperationRepository.mark db (IntentExecutor.byId id) .superseded) t.row.operation) := by
  intro sound
  have reaches : Reaches true (fun _ _ => True) db [] _ := Reaches.retireObsolete found
  refine ⟨sound.steps (reaches sound), ?_⟩
  intro u listed held
  obtain ⟨v, old, rfl⟩ := List.mem_map.mp listed
  by_cases marked : IntentExecutor.byId id v = true
  · rw [if_pos marked] at held
    cases held
  · rw [if_neg marked] at held ⊢
    exact ⟨v, old, rfl, held, fun running => running⟩

theorem finishTask {row : TaskRow} {succeeded : Bool} :
    Quiet db (IntentExecutor.finish db row succeeded) := by
  refine (mark ?_ ?_ ?_).after (refreshOperation _)
  · intro t _ claimed
    rw [Bool.and_eq_true, decide_eq_true_iff] at claimed
    rw [claimed.2]
    cases succeeded <;> exact settles_held rfl (by simp) (by simp)
  · intro t claimed _
    rw [Bool.and_eq_true, decide_eq_true_iff] at claimed
    rw [claimed.2]
    rfl
  · cases succeeded <;> simp

theorem confirmTask (id : Uuid) : Quiet db (IntentExecutor.confirm db id) := by
  unfold IntentExecutor.confirm
  split
  · exact refl db
  · refine (mark_ended rfl ?_).after (refreshOperation _)
    intro t _ chosen
    rw [Bool.and_eq_true, decide_eq_true_iff] at chosen
    rw [chosen.2]
    exact settles_held rfl (by simp) (by simp)

theorem resolveTask {now : Time} {actor id : Uuid}
    (done : IntentExecutor.resolveBlocked db now actor id = .ok next) : Quiet db next := by
  simp only [IntentExecutor.resolveBlocked, need_ok] at done
  obtain ⟨t, _, ended⟩ := done
  cases ended
  refine Quiet.after ?_ (of_reaches Reaches.settleAccounts)
  refine Quiet.after ?_ (of_reaches (Reaches.quiet rfl rfl rfl rfl))
  refine Quiet.after ?_ (of_reaches (Reaches.renewAll now actor t.row.profile rfl))
  refine (mark_ended rfl ?_).after (refreshAll _)
  intro u _ chosen
  simp only [IntentExecutor.retiredBy, Bool.and_eq_true, Bool.or_eq_true,
    decide_eq_true_eq] at chosen
  rcases chosen.2 with queued | blocked
  · exact .inr (.inl ⟨queued, rfl⟩)
  · rw [blocked]
    exact settles_held rfl (by simp) (by simp)

theorem cancelled (id : Uuid) : Quiet db { db with
    outbox.tasks := db.outbox.tasks.map fun u =>
      if IntentExecutor.byId id u ∧ u.status = .blocked then ForceRecovery.cancelled u
      else u } := by
  intro sound
  have reaches : Reaches true (fun _ _ => True) db [] _ := Reaches.cancelled id
  refine ⟨sound.steps (reaches sound), ?_⟩
  intro u listed held
  obtain ⟨v, old, rfl⟩ := List.mem_map.mp listed
  split at held
  · cases held
  · next other =>
    rw [if_neg other]
    exact ⟨v, old, rfl, held, fun running => running⟩

theorem cancelTask {id : Uuid} (done : ForceRecovery.cancelProfile db id = .ok next) :
    Quiet db next := by
  simp only [ForceRecovery.cancelProfile, admitted_ok, need_ok, deny_ok] at done
  obtain ⟨_, _, t, _, _, _, ended⟩ := done
  cases ended
  refine (cancelled id).after ?_
  refine Quiet.after ?_ (of_tasks (Reaches.supersedeSettings fun s _ chosen => ?_) rfl)
  · refine Quiet.after ?_ (refreshOperation t.row.operation)
    refine Quiet.after ?_ (of_reaches (Reaches.bump t.row.profile))
    refine (mark_ended rfl fun u _ chosen => ?_).after (refreshAll _)
    simp only [ForceRecovery.superseded, Bool.and_eq_true, decide_eq_true_eq] at chosen
    exact .inr (.inl ⟨chosen.2, rfl⟩)
  · simp only [ForceRecovery.waits, Bool.and_eq_true, decide_eq_true_eq] at chosen
    exact .inr (.inl ⟨chosen.1.2, rfl⟩)

theorem refreshAll_tasks (ids : List Uuid) (db : Db) :
    (ids.foldl IntentExecutor.refreshOperation db).outbox.tasks = db.outbox.tasks := by
  induction ids generalizing db with
  | nil => rfl
  | cons id rest ih => exact ih _

theorem finishSettings {now : Time} {actor : Uuid} {s : SettingsTask}
    {receipt : Option NodeSettings.Receipt} {changes : List (Uuid × List Target)}
    (row : s ∈ db.fleet.settingsTasks) (held : s.status.held = true) :
    Quiet db (NodeSettingsExecutor.finish db now actor s receipt changes).1 := by
  unfold NodeSettingsExecutor.finish
  split
  · exact of_tasks (Reaches.settleSettings row (settles_held held (by simp) (by simp))) rfl
  · next settings awgPort shape =>
    obtain ⟨r, rfl, valid⟩ := Option.bind_eq_some_iff.mp shape
    obtain ⟨confirmed, checked, same⟩ := Option.map_eq_some_iff.mp valid
    cases same
    refine (of_tasks (Reaches.fleet fun _ => .writeSettings rfl row held checked) rfl).after ?_
    exact of_reaches ((Reaches.reconcile now actor changes).after
      (Reaches.resumeForced now actor s.node))

theorem finishJob {now : Time} {actor : Uuid} {j : Job} (status : Status)
    {r : NodeOperations.Receipt} {changes : List (Uuid × List Target)}
    {out : Db × List Event} (row : { j with status := status } ∈ db.fleet.jobs)
    (done : NodeOperations.finish db now actor j r changes = .ok out) : Quiet db out.1 := by
  simp only [NodeOperations.finish, deny_ok] at done
  obtain ⟨same, rest⟩ := done
  split at rest
  · cases rest
    exact refl db
  · next k found =>
    simp only [need_ok] at rest
    obtain ⟨settings, valid, ended⟩ := rest
    cases ended
    intro sound
    obtain ⟨listed, id, held⟩ := Reaches.find_job found
    have itself : k = { j with status := status } :=
      sound.numbered.jobs.unique listed row id
    subst itself
    simp only [Bool.or_eq_false_iff, decide_eq_false_iff_not, not_not] at same
    refine (of_tasks (Reaches.fleet fun _ => .finishJob
      (if [JobAction.bootstrap, .reinstallKeep, .reinstallClean, .cleanupRuntime].contains
        j.action then j.node :: db.fleet.installations else db.fleet.installations)
      rfl row held trivial same.1.2 valid) rfl).after ?_ sound
    exact of_reaches (Reaches.regrant now actor j changes)

theorem startDrain {now : Time} {actor : Uuid} {node : NodeKey} {abandon : Bool}
    (done : NodeLifecycle.startDrain db now actor node abandon = .ok next) : Quiet db next := by
  intro sound
  have reaches : Reaches true (fun _ _ => True) db [] next := Reaches.startDrain done
  refine ⟨sound.steps (reaches sound), ?_⟩
  simp only [NodeLifecycle.startDrain, need_ok] at done
  obtain ⟨n, row, rest⟩ := done
  split at rest
  · cases rest
    exact .of_tasks rfl
  · simp only [deny_ok] at rest
    obtain ⟨_, _, _, ended⟩ := rest
    cases ended
    let f : Fleet := { NodeLifecycle.closeQueues db.fleet node abandon with
      bootstraps := if abandon then NodeLifecycle.closeBootstraps db.fleet node
        else db.fleet.bootstraps }
    have shut : Quiet db { db with fleet := f } :=
      of_tasks ((Reaches.closeQueues node abandon).after (Reaches.notes _ _)) rfl
    have drained : Quiet { db with fleet := f }
        ((NodeLifecycle.affected { db with fleet := f } node).foldl
          (NodeLifecycle.drainProfile now actor node) { db with fleet := f }) :=
      of_reaches (Reaches.foldl
        (fun _ profile _ => Reaches.drainProfile now actor node profile) _)
    exact (shut.after drained sound).2

theorem retireRegistryOnly {node : NodeKey}
    (done : NodeLifecycle.retireRegistryOnly db node = .ok next) : HeldFrom db next := by
  simp only [NodeLifecycle.retireRegistryOnly, admitted_ok, need_ok] at done
  obtain ⟨_, _, n, row, ended⟩ := done
  cases ended
  intro u listed held
  dsimp only at listed
  rw [refreshAll_tasks] at listed
  obtain ⟨v, old, rfl⟩ := List.mem_map.mp listed
  split at held
  · cases held
  · next other =>
    rw [if_neg other]
    exact ⟨v, old, rfl, held, fun running => running⟩

/-! Repairs that leave the tasks alone. -/

theorem resolveSettings_tasks {id : Uuid} {draw : ℕ}
    (done : NodeSettingsExecutor.resolveBlocked db id draw = .ok next) :
    next.outbox.tasks = db.outbox.tasks := by
  simp only [NodeSettingsExecutor.resolveBlocked, need_ok, deny_ok] at done
  obtain ⟨s, _, node, _, _, _, _, rest⟩ := done
  split at rest
  · cases rest
    rfl
  · cases taken : NodeSettings.snapshot draw db.fleet s.node { node with
        enabled := false, desiredRevision := max node.desiredRevision s.revision + 1 } with
    | error code =>
      rw [taken] at rest
      cases rest
    | ok intent =>
      rw [taken] at rest
      simp only [Except.bind, deny_ok] at rest
      obtain ⟨_, ended⟩ := rest
      cases ended
      rfl

theorem cancelSettings_tasks {id : Uuid} (done : ForceRecovery.cancelSettings db id = .ok next) :
    next.outbox.tasks = db.outbox.tasks := by
  simp only [ForceRecovery.cancelSettings, admitted_ok, need_ok, deny_ok] at done
  obtain ⟨_, _, s, _, _, _, ended⟩ := done
  cases ended
  rfl

theorem cancelJob_tasks {id : Uuid} {coordinator : Option Uuid}
    (done : ForceRecovery.cancelJob db id coordinator = .ok next) :
    next.outbox.tasks = db.outbox.tasks := by
  simp only [ForceRecovery.cancelJob, admitted_ok, need_ok, deny_ok] at done
  obtain ⟨_, _, j, _, _, _, ended⟩ := done
  cases ended
  rfl

theorem startCleanup_tasks {node : NodeKey} (done : NodeLifecycle.startCleanup db node = .ok next) :
    next.outbox.tasks = db.outbox.tasks := by
  simp only [NodeLifecycle.startCleanup, deny_ok] at done
  obtain ⟨_, _, ended⟩ := done
  cases ended
  rfl

theorem retireVerified_tasks {node : NodeKey}
    (done : NodeLifecycle.retireVerified db node = .ok next) :
    next.outbox.tasks = db.outbox.tasks := by
  simp only [NodeLifecycle.retireVerified, need_ok, deny_ok] at done
  obtain ⟨n, _, _, _, ended⟩ := done
  cases ended
  rfl

theorem ok_of_map {result : Result Db} {f : Db → Db × List Event} {out : Db × List Event}
    (done : result.map f = .ok out) : ∃ next, result = .ok next ∧ out = f next := by
  cases result with
  | error code => cases done
  | ok next =>
    cases done
    exact ⟨next, rfl, rfl⟩

theorem repair {s : System} {r : Repair} {out : Db × List Event}
    (done : r.exec s.db = .ok out) : Quiet s.db out.1 := by
  have covers : Reaches true (fun _ _ => True) s.db _ out.1 :=
    System.repair_covers (fun _ _ => trivial) done
  cases r with
  | recoverTasks => cases done; exact recoverTasks
  | recoverSettings => cases done; exact of_tasks covers rfl
  | recoverJobs => cases done; exact of_tasks covers rfl
  | repairRemoved => cases done; exact of_tasks covers rfl
  | expiryPass now changes =>
    cases done
    exact of_reaches (Reaches.queueExpiredProfiles now changes)
  | confirmTask id => cases done; exact confirmTask id
  | confirmSettings now actor id receipt changes =>
    simp only [Repair.exec, need_ok] at done
    obtain ⟨t, found, ended⟩ := done
    obtain ⟨row, _, blocked⟩ := Reaches.find_settings found
    cases ended
    exact finishSettings row (by rw [blocked]; rfl)
  | confirmJob now actor id receipt changes =>
    simp only [Repair.exec, need_ok] at done
    obtain ⟨j, found, ended⟩ := done
    exact finishJob j.status (Reaches.find_job found).1 ended
  | resolveTask now actor id =>
    simp only [Repair.exec, need_ok, Repair.retired] at done
    obtain ⟨t, _, ended⟩ := done
    obtain ⟨next, result, rfl⟩ := ok_of_map ended
    exact resolveTask result
  | resolveSettings id draw =>
    simp only [Repair.exec, need_ok, Repair.retired] at done
    obtain ⟨t, _, ended⟩ := done
    obtain ⟨next, result, rfl⟩ := ok_of_map ended
    exact of_tasks covers (resolveSettings_tasks result)
  | resolveJob now actor id receipt changes =>
    simp only [Repair.exec, need_ok, Repair.retired] at done
    obtain ⟨j, found, ended⟩ := done
    cases receipt with
    | none =>
      obtain ⟨next, result, rfl⟩ := ok_of_map ended
      cases result
      exact of_tasks covers rfl
    | some r =>
      dsimp only at ended
      cases result : NodeOperations.finish s.db now actor j r changes with
      | error code => rw [result] at ended; cases ended
      | ok next =>
        rw [result] at ended
        cases ended
        have quiet := finishJob j.status (Reaches.find_job found).1 result
        exact quiet
  | cancelTask id =>
    simp only [Repair.exec, need_ok, Repair.retired] at done
    obtain ⟨t, _, ended⟩ := done
    obtain ⟨next, result, rfl⟩ := ok_of_map ended
    exact cancelTask result
  | cancelSettings id =>
    simp only [Repair.exec, need_ok, Repair.retired] at done
    obtain ⟨t, _, ended⟩ := done
    obtain ⟨next, result, rfl⟩ := ok_of_map ended
    exact of_tasks covers (cancelSettings_tasks result)
  | cancelJob id coordinator =>
    simp only [Repair.exec, need_ok, Repair.retired] at done
    obtain ⟨t, _, ended⟩ := done
    obtain ⟨next, result, rfl⟩ := ok_of_map ended
    exact of_tasks covers (cancelJob_tasks result)
  | cancelQueuedJob id => cases done; exact of_tasks covers rfl
  | changeBootstrap id status => cases done; exact of_tasks covers rfl
  | skimSettings id terminal =>
    simp only [Repair.exec, need_ok, deny_ok] at done
    obtain ⟨t, _, _, ended⟩ := done
    cases ended
    exact of_tasks covers rfl
  | drain now actor node =>
    obtain ⟨next, result, rfl⟩ := ok_of_map done
    exact startDrain result
  | startCleanup node =>
    obtain ⟨next, result, rfl⟩ := ok_of_map done
    exact of_tasks covers (startCleanup_tasks result)
  | retireVerified node =>
    obtain ⟨next, result, rfl⟩ := ok_of_map done
    exact of_tasks covers (retireVerified_tasks result)
  | settle => cases done; exact of_tasks covers rfl

end Quiet
end Runs

/-! Calls. -/

section Calls
variable {s : System}

theorem commit_held {result : Result (Db × List Event)} {next : Holder}
    (done : ∀ out, result = .ok out → HeldFrom s.db out.1) :
    HeldFrom s.db (s.commit result next).1.db := by
  unfold System.commit
  split
  · exact .of_tasks rfl
  · exact done _ rfl

/-- Beside the executor of operations a call holds no task that was not held, but one it claims. -/
theorem exec_held (sound : Sound s.db) (holds : s.holder.Holds s.db)
    (apart : ∀ row sent, s.holder ≠ .operation row sent) (c : Call) :
    HeldFrom s.db (s.exec c).1.db ∨ ∃ id db row, IntentExecutor.claim s.db id = some (db, some row) ∧
      (s.exec c).1 = ⟨db, .operation row false⟩ := by
  have still : HeldFrom s.db s.db := .of_tasks rfl
  unfold System.exec
  cases c with
  | request r =>
    refine .inl (commit_held fun out done => ?_)
    obtain ⟨next, result, rfl⟩ := Quiet.ok_of_map done
    have reaches : Reaches false (fun _ _ => True) s.db [] next := Reaches.request result
    exact held_steps sound (reaches sound)
  | repair r =>
    left
    dsimp only
    split
    · exact commit_held fun out done => (Quiet.repair done sound).2
    · exact still
  | claimTask id =>
    dsimp only
    split
    · unfold System.claimTask
      split
      · exact .inl still
      · next claim =>
        left
        unfold IntentExecutor.claim at claim
        split at claim
        · cases claim
        · split at claim
          · cases claim
          · next found =>
            split at claim
            · cases claim
              exact (Quiet.retireObsolete found sound).2
            · cases claim
      · next claim => exact .inr ⟨id, _, _, claim, rfl⟩
    · exact .inl still
  | sendTask now =>
    dsimp only
    split
    · next at' => exact absurd at' (apart _ _)
    · exact .inl still
  | finishTask succeeded =>
    dsimp only
    split
    · next at' => exact absurd at' (apart _ _)
    · exact .inl still
  | inspectNode id terminal =>
    left
    dsimp only
    split
    · unfold System.inspectNode
      split
      · exact still
      · split <;> exact still
    · exact still
  | prepareNode =>
    left
    dsimp only
    split
    · unfold System.prepareNode
      split <;> exact still
    · exact still
  | retireUninstalled =>
    left
    dsimp only
    split
    · unfold System.retireUninstalled
      split <;> exact .of_tasks rfl
    · exact still
  | claimSettings terminal =>
    left
    dsimp only
    split
    · exact .of_tasks rfl
    · exact still
  | sendSettings =>
    left
    dsimp only
    split <;> exact still
  | finishSettings now actor receipt changes =>
    left
    dsimp only
    split
    · unfold System.finishSettings
      split
      · exact still
      · next current found =>
        refine commit_held fun out done => ?_
        cases done
        obtain ⟨row, _, running⟩ := Reaches.find_settings found
        exact (Quiet.finishSettings row (by rw [running]; rfl) sound).2
    · exact still
  | claimJob id =>
    left
    dsimp only
    split
    · unfold System.claimJob
      split
      · exact still
      · split <;> exact .of_tasks rfl
    · exact still
  | sendJob =>
    left
    dsimp only
    split <;> exact still
  | finishJob now actor receipt changes =>
    left
    dsimp only
    split
    · next j claimed =>
      rw [claimed] at holds
      exact commit_held fun out done => (Quiet.finishJob .running holds done sound).2
    · exact still
  | failJob ownerConflict =>
    left
    dsimp only
    split <;> exact .of_tasks rfl
  | abandonNode now actor node =>
    left
    dsimp only
    split
    · refine commit_held fun out done => ?_
      obtain ⟨next, result, rfl⟩ := Quiet.ok_of_map done
      simp only [admitted_ok, deny_ok] at result
      exact (Quiet.startDrain result.2.2.2 sound).2
    · exact still
  | retireNode =>
    left
    dsimp only
    split
    · refine commit_held fun out done => ?_
      obtain ⟨next, result, rfl⟩ := Quiet.ok_of_map done
      exact Quiet.retireRegistryOnly result
    · exact still
  | crash => exact .inl still

/-- What a call does while a task is being executed. -/
inductive Executing (s : System) (row : TaskRow) (sent : Bool) : Call → System × List Event → Prop
  | still {c : Call} (alive : c ≠ .crash) : Executing s row sent c (s, [])
  | request {r : Request} {db : Db} {es : List Event} (done : r.exec s.db = .ok db) :
    Executing s row sent (.request r) (⟨db, s.holder⟩, es)
  | sends {now : Time} (waits : sent = false) (live : IntentExecutor.lapsed now row = false) :
    Executing s row sent (.sendTask now) (⟨s.db, .operation row true⟩, [.executed row])
  | lapses {now : Time} (waits : sent = false) (late : IntentExecutor.lapsed now row = true) :
    Executing s row sent (.sendTask now) (⟨IntentExecutor.finish s.db row false, .free⟩, [])
  | finishes {succeeded : Bool} (ran : sent = true) :
    Executing s row sent (.finishTask succeeded) (⟨IntentExecutor.finish s.db row succeeded, .free⟩, [])
  | stops : Executing s row sent .crash (⟨s.db, .free⟩, [])

theorem exec_executing {row : TaskRow} {sent : Bool} (at' : s.holder = .operation row sent)
    (c : Call) : Executing s row sent c (s.exec c) := by
  unfold System.exec
  rw [at']
  cases c with
  | request r =>
    dsimp only
    rw [← at']
    cases result : r.exec s.db with
    | error code => exact .still nofun
    | ok db => exact .request result
  | sendTask now =>
    cases sent with
    | false =>
      dsimp only
      unfold System.sendTask
      by_cases late : IntentExecutor.lapsed now row = true
      · rw [if_pos late]
        exact .lapses rfl late
      · rw [if_neg late]
        exact .sends rfl (by simpa using late)
    | true => exact .still nofun
  | finishTask succeeded =>
    cases sent with
    | false => exact .still nofun
    | true => exact .finishes rfl
  | crash => exact .stops
  | _ => exact .still nofun

end Calls

/-! Runs. -/

/-- The worker stopped while the task was running. -/
def Stopped (calls : List Call) (row : TaskRow) : Prop :=
  ∃ before rest sent, calls = before ++ .crash :: rest ∧
    (System.after before).holder = .operation row sent

/-- The task was handed to the driver, or the worker stopped while it was running. -/
def MayHaveRun (calls : List Call) (row : TaskRow) : Prop :=
  .executed row ∈ System.history calls ∨ Stopped calls row

/-- The task that the worker is about to send has not expired. -/
def punctual (s : System) : Call → Bool
  | .sendTask now =>
    match s.holder with
    | .operation row false => !IntentExecutor.lapsed now row
    | _ => true
  | _ => true

def punctualRun (s : System) : List Call → Bool
  | [] => true
  | c :: rest => punctual s c && punctualRun (s.exec c).1 rest

theorem punctualRun_append (s : System) (calls : List Call) (c : Call) :
    punctualRun s (calls ++ [c]) =
      (punctualRun s calls && punctual (run System.exec s calls).1 c) := by
  induction calls generalizing s with
  | nil => simp [punctualRun]
  | cons first rest ih =>
    rw [List.cons_append, punctualRun, punctualRun, ih, Bool.and_assoc]
    rfl

section
variable {calls : List Call} {c : Call} {row : TaskRow}

theorem after_concat (calls : List Call) (c : Call) :
    System.after (calls ++ [c]) = ((System.after calls).exec c).1 ∧
      System.history (calls ++ [c]) = System.history calls ++ ((System.after calls).exec c).2 := by
  rw [System.after, System.history, run_append]
  constructor
  · rfl
  · simp [System.history, System.after, run]

theorem MayHaveRun.concat (ran : MayHaveRun calls row) : MayHaveRun (calls ++ [c]) row := by
  rcases ran with executed | ⟨before, rest, sent, split, held⟩
  · rw [MayHaveRun, (after_concat calls c).2]
    exact .inl (List.mem_append_left _ executed)
  · exact .inr ⟨before, rest ++ [c], sent, by rw [split]; simp, held⟩

/-- Held tasks may have run, but one that its worker is executing. -/
structure Charged (calls : List Call) : Prop where
  blocked : ∀ t ∈ (System.after calls).db.outbox.tasks, t.status = .blocked →
    MayHaveRun calls t.row
  running : ∀ t ∈ (System.after calls).db.outbox.tasks, t.status = .running →
    (∃ sent, (System.after calls).holder = .operation t.row sent) ∨ MayHaveRun calls t.row
  sent : ∀ row, (System.after calls).holder = .operation row true →
    .executed row ∈ System.history calls

theorem held_cases {status : Status} (held : status.held = true) :
    status = .running ∨ status = .blocked := by
  cases status <;> simp_all [Status.held]

/-- While nothing is executed every held task may have run. -/
theorem Charged.free (charged : Charged calls)
    (apart : ∀ row sent, (System.after calls).holder ≠ .operation row sent) {t : Task}
    (listed : t ∈ (System.after calls).db.outbox.tasks) (held : t.status.held = true) :
    MayHaveRun calls t.row := by
  rcases held_cases held with running | blocked
  · rcases charged.running t listed running with ⟨sent, at'⟩ | ran
    · exact absurd at' (apart t.row sent)
    · exact ran
  · exact charged.blocked t listed blocked

/-- Every held task may have run. -/
theorem charged_of_all
    (all : ∀ t ∈ (System.after calls).db.outbox.tasks, t.status.held = true → MayHaveRun calls t.row)
    (free : ∀ row, (System.after calls).holder ≠ .operation row true) : Charged calls := by
  constructor
  · intro t listed blocked
    exact all t listed (by rw [blocked]; rfl)
  · intro t listed running
    exact .inr (all t listed (by rw [running]; rfl))
  · intro row at'
    exact absurd at' (free row)

theorem claim_held {db next : Db} {id : Uuid} {row : TaskRow}
    (claim : IntentExecutor.claim db id = some (next, some row)) {u : Task}
    (listed : u ∈ next.outbox.tasks) (held : u.status.held = true) :
    u ∈ db.outbox.tasks ∨ u.status = .running ∧ u.row.id = row.id := by
  unfold IntentExecutor.claim at claim
  split at claim
  · cases claim
  · split at claim
    · cases claim
    · next t found =>
      split at claim
      · cases claim
      · cases claim
        have picked := List.find?_some found
        simp only [Bool.and_eq_true, decide_eq_true_eq] at picked
        obtain ⟨v, old, rfl⟩ := List.mem_map.mp listed
        by_cases mine : IntentExecutor.byId id v = true
        · rw [if_pos mine]
          refine .inr ⟨rfl, ?_⟩
          rw [IntentExecutor.byId, decide_eq_true_iff] at mine
          exact mine.trans picked.1.1.symm
        · rw [if_neg mine]
          exact .inl old

theorem charged_concat (charged : Charged calls) (c : Call)
    (careful : punctual (System.after calls) c = true) : Charged (calls ++ [c]) := by
  obtain ⟨sound, holds⟩ := System.after_sound calls
  obtain ⟨next, events⟩ := after_concat calls c
  by_cases apart : ∀ row sent, (System.after calls).holder ≠ .operation row sent
  · have all (t : Task) (listed : t ∈ (System.after calls).db.outbox.tasks)
        (held : t.status.held = true) : MayHaveRun (calls ++ [c]) t.row :=
      (charged.free apart listed held).concat
    rcases exec_held sound holds apart c with held | ⟨id, db, row, claim, claimed⟩
    · refine charged_of_all ?_ ?_
      · intro u listed now
        rw [next] at listed
        obtain ⟨t, old, same, was, _⟩ := held u listed now
        rw [← same]
        exact all t old was
      · intro row
        rw [next]
        intro at'
        have moved := exec_handover (System.after calls) c
        generalize out : ((System.after calls).exec c).1 = after at moved at'
        cases moved with
        | kept => exact apart row true at'
        | request => exact apart row true at'
        | sendsTask was => exact apart _ _ was
        | _ => cases at'
    · have numbered : Numbered (System.after (calls ++ [c])).db :=
        (System.after_sound (calls ++ [c])).1.numbered
      obtain ⟨_, holds'⟩ := System.after_sound (calls ++ [c])
      rw [next, claimed] at numbered holds'
      obtain ⟨t, claimed', itself, _⟩ := holds'
      constructor
      · intro u listed blocked
        rw [next, claimed] at listed
        rcases claim_held claim listed (by rw [blocked]; rfl) with old | ⟨running, _⟩
        · exact all u old (by rw [blocked]; rfl)
        · exact nomatch running.symm.trans blocked
      · intro u listed running
        rw [next, claimed] at listed
        rcases claim_held claim listed (by rw [running]; rfl) with old | ⟨_, mine⟩
        · exact .inr (all u old (by rw [running]; rfl))
        · have same : u = t := numbered.tasks.unique listed claimed' (by rw [itself, mine])
          rw [next, claimed, same, itself]
          exact .inl ⟨false, rfl⟩
      · intro row' at'
        rw [next, claimed] at at'
        cases at'
  · simp only [not_forall, not_not] at apart
    obtain ⟨row, sent, at'⟩ := apart
    have step := exec_executing at' c
    generalize out : (System.after calls).exec c = result at step next events
    rw [at'] at holds
    obtain ⟨mine, known, itself, _⟩ := holds
    -- The row that is executed, if it was handed over or the worker stops.
    have all (ran : MayHaveRun (calls ++ [c]) row) (t : Task)
        (listed : t ∈ (System.after calls).db.outbox.tasks) (held : t.status.held = true) :
        MayHaveRun (calls ++ [c]) t.row := by
      rcases held_cases held with running | blocked
      · rcases charged.running t listed running with ⟨sent', at''⟩ | ran'
        · cases at'.symm.trans at''
          exact ran
        · exact ran'.concat
      · exact (charged.blocked t listed blocked).concat
    cases step with
    | still alive =>
      constructor
      · intro t listed blocked
        rw [next] at listed
        exact (charged.blocked t listed blocked).concat
      · intro t listed running
        rw [next] at listed ⊢
        rcases charged.running t listed running with held | ran
        · exact .inl held
        · exact .inr ran.concat
      · intro row' held
        rw [next] at held
        rw [events]
        exact List.mem_append_left _ (charged.sent row' held)
    | request done =>
      have reaches : Reaches false (fun _ _ => True) (System.after calls).db [] _ :=
        Reaches.request done
      constructor
      · intro u listed blocked
        rw [next] at listed
        obtain ⟨t, old, same, status⟩ :=
          same_held_steps sound (reaches sound) listed (by rw [blocked]; rfl)
        rw [← same]
        exact (charged.blocked t old (status.trans blocked)).concat
      · intro u listed running
        rw [next] at listed ⊢
        obtain ⟨t, old, same, status⟩ :=
          same_held_steps sound (reaches sound) listed (by rw [running]; rfl)
        rw [← same]
        rcases charged.running t old (status.trans running) with held | ran
        · exact .inl held
        · exact .inr ran.concat
      · intro row' held
        rw [next] at held
        rw [events]
        exact List.mem_append_left _ (charged.sent row' held)
    | @sends now waits live =>
      have handed : MayHaveRun (calls ++ [.sendTask now]) row := by
        rw [MayHaveRun, events]
        exact .inl (List.mem_append_right _ (List.mem_singleton.mpr rfl))
      constructor
      · intro t listed blocked
        rw [next] at listed
        exact (charged.blocked t listed blocked).concat
      · intro t listed running
        rw [next] at listed
        exact .inr (all handed t listed (by rw [running]; rfl))
      · intro row' held
        rw [next] at held
        cases held
        rw [events]
        exact List.mem_append_right _ (List.mem_singleton.mpr rfl)
    | lapses waits late =>
      subst waits
      rw [punctual, at'] at careful
      simp only [late] at careful
      cases careful
    | @finishes succeeded ran =>
      subst ran
      have handed : MayHaveRun (calls ++ [.finishTask succeeded]) row := by
        rw [MayHaveRun, events]
        exact .inl (List.mem_append_left _ (charged.sent row at'))
      refine charged_of_all ?_ ?_
      · intro u listed held
        rw [next] at listed
        obtain ⟨t, old, same, was, _⟩ := (Quiet.finishTask sound).2 u listed held
        rw [← same]
        exact all handed t old was
      · intro row' held
        rw [next] at held
        cases held
    | stops =>
      have stopped : MayHaveRun (calls ++ [.crash]) row :=
        .inr ⟨calls, [], sent, rfl, at'⟩
      refine charged_of_all ?_ ?_
      · intro u listed held
        rw [next] at listed
        exact all stopped u listed held
      · intro row' held
        rw [next] at held
        cases held

/-- In every run whose worker never meets an expired task when it is about to send it, a task is
blocked only if it was handed to the driver, or the worker stopped while it was running. -/
theorem blocked_may_have_run (calls : List Call) (careful : punctualRun .start calls = true) :
    ∀ t ∈ (System.after calls).db.outbox.tasks, t.status = .blocked → MayHaveRun calls t.row := by
  have charged : Charged calls := by
    induction calls using List.reverseRec with
    | nil => exact charged_of_all (by simp [System.after, System.start, Db.empty]) nofun
    | append_singleton calls c ih =>
      rw [punctualRun_append, Bool.and_eq_true] at careful
      exact charged_concat (ih careful.1) c careful.2
  exact charged.blocked

end

/-- A device gets access to a node until `expiresAt`, and the worker claims its task. -/
def claims (expiresAt : Option Time) : List Call :=
  Completeness.install 0 "a" [.awg] [] ++
    [.request (.createProfile 0 0 0 expiresAt [] [("a", .awg)]),
      .request (.device 0 0 1 (.create none 1)), .claimTask 8]

theorem blocked_may_have_run_claims :
    (∃ t ∈ (System.after (claims none ++ [.sendTask 10, .finishTask false])).db.outbox.tasks,
      t.status = .blocked) ∧
    ∀ t ∈ (System.after (claims none ++ [.sendTask 10, .finishTask false])).db.outbox.tasks,
      t.status = .blocked →
        MayHaveRun (claims none ++ [.sendTask 10, .finishTask false]) t.row :=
  ⟨by decide, blocked_may_have_run _ (by decide)⟩

/-- The access ends between the claim and the call: nothing was sent, and the task blocks its
node. -/
theorem expired_ensure_blocks :
    ∃ t ∈ (System.after (claims (some 5) ++ [.sendTask 10])).db.outbox.tasks,
      t.status = .blocked ∧ ¬ MayHaveRun (claims (some 5) ++ [.sendTask 10]) t.row := by
  have blocked : ((System.after (claims (some 5) ++ [.sendTask 10])).db.outbox.tasks.any fun t =>
      t.status = .blocked) = true := by decide
  have silent : ((System.history (claims (some 5) ++ [.sendTask 10])).all fun e =>
      match e with
      | .executed _ => false
      | _ => true) = true := by decide
  obtain ⟨t, listed, held⟩ := List.any_eq_true.mp blocked
  refine ⟨t, listed, of_decide_eq_true held, ?_⟩
  rintro (executed | ⟨before, rest, sent, split, _⟩)
  · exact nomatch List.all_eq_true.mp silent _ executed
  · have alive : .crash ∉ claims (some 5) ++ [.sendTask 10] := by
      simp [claims, Completeness.install]
    rw [split] at alive
    exact alive (List.mem_append_right _ List.mem_cons_self)

end Blocked
end Controller
end NodePlane
