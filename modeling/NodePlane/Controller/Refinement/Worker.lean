import NodePlane.Controller.Refinement.Nodes
import NodePlane.Controller.Complete

/-! Transactions of the worker and of repairs are runs of changes under the lock. -/
namespace NodePlane
namespace Controller
open Library OperationRepository

section Runs
variable {locked : Bool} {allow : Fleet → Job → Prop} {db : Db}

theorem settles_held {s t : Status} (held : s.held = true) (ended : t ≠ .awaitingExecutor)
    (stopped : t ≠ .running) : s.Settles true t := .inr (.inr ⟨rfl, held, ended, stopped⟩)

theorem settles_superseded {s : Status} (open_ : s.pending = true) :
    s.Settles true .superseded := by
  rcases (Status.pending_iff s).mp open_ with queued | held
  · exact .inr (.inl ⟨queued, rfl⟩)
  · exact settles_held held (by simp) (by simp)

namespace Reaches

/-! The executor of profile operations. -/

theorem recoverTasks : Reaches true allow db [] (IntentExecutor.recover db) := by
  refine after (mark ?_) (operations (map_keys fun o _ => by split <;> rfl))
  intro t _ running
  have was : t.status = .running := by simpa using running
  rw [was]
  exact settles_held rfl (by simp) (by simp)

theorem expire (now : Time) (state : Db × List (Uuid × ℕ))
    (row : (Uuid × Profile) × Operation) :
    Reaches locked allow state.1 [] (IntentExecutor.expire now state row).1 := by
  unfold IntentExecutor.expire
  dsimp only
  split
  · exact refl _
  · split
    · exact renewAll now row.2.actor row.1.1 rfl
    · exact refl _

theorem expireAll (now : Time) (rows : List ((Uuid × Profile) × Operation))
    (state : Db × List (Uuid × ℕ)) :
    Reaches locked allow state.1 [] (rows.foldl (IntentExecutor.expire now) state).1 := by
  induction rows generalizing state with
  | nil => exact refl _
  | cons row rest ih => exact (expire now state row).after (ih _)

theorem queueExpiredProfiles (now : Time) (changes : List (Uuid × List Target)) :
    Reaches locked allow db [] (IntentExecutor.queueExpiredProfiles db now changes).1 := by
  unfold IntentExecutor.queueExpiredProfiles
  split
  · exact refl db
  · exact (restoreAdminExpiries now changes).after (expireAll now _ (_, []))

theorem retireObsolete {id : Uuid} {t : Task}
    (found : IntentExecutor.candidate db id = some t) :
    Reaches true allow db [] (IntentExecutor.refreshOperation
      (OperationRepository.mark db (IntentExecutor.byId id) .superseded) t.row.operation) := by
  intro sound
  have row := List.mem_of_find?_eq_some found
  have picked := List.find?_some found
  simp only [Bool.and_eq_true, decide_eq_true_eq, IntentExecutor.claimable] at picked
  refine after (mark ?_) (refreshOperation _) sound
  intro u listed same
  have itself : u = t := sound.numbered.tasks.unique listed row (by
    rw [picked.1.1]
    simpa [IntentExecutor.byId] using same)
  rw [itself]
  exact .inr (.inl ⟨picked.1.2.1.1.1.1.1, rfl⟩)

theorem claimTask {id : Uuid} {t : Task} (found : IntentExecutor.candidate db id = some t)
    (current : IntentExecutor.obsolete db t.row = false) :
    Reaches true allow db [] (OperationRepository.setOperation
      (OperationRepository.mark db (IntentExecutor.byId id) .running) t.row.operation
        (.pending .running)) := by
  have row := List.mem_of_find?_eq_some found
  have picked := List.find?_some found
  simp only [Bool.and_eq_true, decide_eq_true_eq] at picked
  refine after ?_ (setOperation _ _)
  rw [← picked.1.1]
  exact change fun _ => .claim rfl row picked.1.2 current rfl

theorem finishTask {row : TaskRow} {succeeded : Bool} :
    Reaches true allow db [] (IntentExecutor.finish db row succeeded) := by
  refine after (mark ?_) (refreshOperation _)
  intro t _ claimed
  simp only [Bool.and_eq_true, decide_eq_true_eq] at claimed
  rw [claimed.2]
  cases succeeded <;> exact settles_held rfl (by simp) (by simp)

theorem confirmTask (id : Uuid) : Reaches true allow db [] (IntentExecutor.confirm db id) := by
  unfold IntentExecutor.confirm
  split
  · exact refl db
  · refine after (mark ?_) (refreshOperation _)
    intro t _ chosen
    simp only [Bool.and_eq_true, decide_eq_true_eq] at chosen
    rw [chosen.2]
    exact settles_held rfl (by simp) (by simp)

theorem refreshAll (ids : List Uuid) :
    Reaches locked allow db [] (ids.foldl IntentExecutor.refreshOperation db) :=
  foldl (fun _ operation _ => refreshOperation operation) db

theorem resolveTask {now : Time} {actor id : Uuid} {next : Db}
    (done : IntentExecutor.resolveBlocked db now actor id = .ok next) :
    Reaches true allow db [] next := by
  simp only [IntentExecutor.resolveBlocked, need_ok] at done
  obtain ⟨t, _, ended⟩ := done
  cases ended
  refine after ?_ settleAccounts
  refine after ?_ (quiet rfl rfl rfl rfl)
  refine after ?_ (renewAll now actor t.row.profile ?_)
  · refine after (mark ?_) (refreshAll _)
    intro u _ chosen
    simp only [IntentExecutor.retiredBy, Bool.and_eq_true, Bool.or_eq_true,
      decide_eq_true_eq] at chosen
    rcases chosen.2 with queued | blocked
    · exact .inr (.inl ⟨queued, rfl⟩)
    · rw [blocked]
      exact settles_held rfl (by simp) (by simp)
  · rfl

/-! The settings queue. -/

theorem recoverSettings :
    Reaches true allow db [] { db with fleet := NodeSettingsExecutor.recover db.fleet } := by
  refine fleet fun _ => .settings
    (fun s => if s.status = .running then { s with status := .blocked } else s) ?_
  intro s _
  split
  · next running =>
    refine ⟨rfl, ?_⟩
    rw [running]
    exact settles_held rfl (by simp) (by simp)
  · exact SettingsTask.Moves.refl _ s

theorem settleSettings {s : SettingsTask} (row : s ∈ db.fleet.settingsTasks) {status : Status}
    (settles : s.status.Settles true status) :
    Reaches true allow db []
      { db with fleet := NodeSettingsExecutor.setStatus db.fleet s.id status } := by
  refine fleet fun sound => .settings
    (fun t => if t.id = s.id then { t with status := status } else t) ?_
  intro t listed
  split
  · next same =>
    rw [sound.numbered.settings.unique listed row same]
    exact ⟨rfl, settles⟩
  · exact SettingsTask.Moves.refl _ t

theorem finishSettings {now : Time} {actor : Uuid} {s : SettingsTask}
    {receipt : Option NodeSettings.Receipt} {changes : List (Uuid × List Target)}
    (row : s ∈ db.fleet.settingsTasks) (held : s.status.held = true) :
    Reaches true allow db
      (NodeSettingsExecutor.finish db now actor s receipt changes).2
      (NodeSettingsExecutor.finish db now actor s receipt changes).1 := by
  unfold NodeSettingsExecutor.finish
  split
  · exact settleSettings row (settles_held held (by simp) (by simp))
  · next settings awgPort shape =>
    obtain ⟨r, rfl, valid⟩ := Option.bind_eq_some_iff.mp shape
    obtain ⟨confirmed, checked, same⟩ := Option.map_eq_some_iff.mp valid
    cases same
    have wrote : Reaches true allow db _ _ :=
      fleet fun _ => .writeSettings rfl row held checked
    exact wrote.before ((reconcile now actor changes).after (resumeForced now actor s.node))

/-- The settings row that a repair reads. -/
theorem find_settings {id : Uuid} {status : Status} {s : SettingsTask}
    (found : NodeSettingsExecutor.find db.fleet id status = some s) :
    s ∈ db.fleet.settingsTasks ∧ s.id = id ∧ s.status = status := by
  have picked := List.find?_some found
  simp only [Bool.and_eq_true, decide_eq_true_eq] at picked
  exact ⟨List.mem_of_find?_eq_some found, picked⟩

theorem find_job {id : Uuid} {p : Status → Bool} {j : Job}
    (found : NodeOperations.find db.fleet id p = some j) :
    j ∈ db.fleet.jobs ∧ j.id = id ∧ p j.status = true := by
  have picked := List.find?_some found
  simp only [Bool.and_eq_true, decide_eq_true_eq] at picked
  exact ⟨List.mem_of_find?_eq_some found, picked⟩

theorem retireSettings (id : Uuid) :
    Reaches true allow db [] { db with fleet := NodeSettingsExecutor.retire db.fleet id } := by
  refine supersedeSettings fun s _ chosen => ?_
  simp only [Bool.and_eq_true, decide_eq_true_eq] at chosen
  exact .inr (.inl ⟨chosen.2, rfl⟩)

theorem claimSettings {s : SettingsTask} (row : s ∈ db.fleet.settingsTasks)
    (queued : s.status = .awaitingExecutor) (terminal : Bool) :
    Reaches true allow db []
      { db with fleet := (NodeSettingsExecutor.claim db s terminal).1 } := by
  unfold NodeSettingsExecutor.claim
  split
  · exact refl db
  · split
    · exact settleSettings row (.inr (.inl ⟨queued, rfl⟩))
    · next current =>
      simp only [Bool.or_eq_true, not_or, Bool.not_eq_true] at current
      split
      · next ready =>
        simp only [NodeSettingsExecutor.ready, Bool.and_eq_true, Bool.not_eq_true'] at ready
        exact fleet fun _ => .claimSettings rfl row queued current.2 ready.2
      · exact refl db

theorem resolveSettings {id : Uuid} {draw : ℕ} {next : Db}
    (done : NodeSettingsExecutor.resolveBlocked db id draw = .ok next) :
    Reaches true allow db [] next := by
  simp only [NodeSettingsExecutor.resolveBlocked, need_ok, deny_ok] at done
  obtain ⟨s, found, node, there, open_, others, _, rest⟩ := done
  obtain ⟨row, rfl, blocked⟩ := find_settings found
  split at rest
  · cases rest
    exact settleSettings row (by rw [blocked]; exact settles_held rfl (by simp) (by simp))
  · cases taken : NodeSettings.snapshot draw db.fleet s.node { node with
        enabled := false, desiredRevision := max node.desiredRevision s.revision + 1 } with
    | error code =>
      rw [taken] at rest
      cases rest
    | ok intent =>
      rw [taken] at rest
      simp only [Except.bind, deny_ok] at rest
      obtain ⟨_, ended⟩ := rest
      cases ended
      refine enqueue (.replaceSettings _ rfl row blocked there open_ ?_ taken)
      intro t listed same pending
      by_contra other
      have clear := List.any_eq_false.mp others t listed
      simp [same, other, pending] at clear

/-! Node jobs. -/

theorem recoverJobs :
    Reaches true allow db [] { db with fleet := NodeOperations.recover db.fleet } := by
  refine setJobs fun j _ running => ?_
  have was : j.status = .running := by simpa using running
  rw [was]
  exact settles_held rfl (by simp) (by simp)

theorem renewEach (now : Time) (actor : Uuid) (profiles : List Uuid) :
    Reaches locked allow db [] (profiles.foldl (NodeOperations.renew now actor) db) :=
  foldl (fun _ profile _ => renewAll now actor profile rfl) db

theorem regrant (now : Time) (actor : Uuid) (j : Job) (changes : List (Uuid × List Target)) :
    Reaches locked allow db [] (NodeOperations.regrant db now actor j changes) := by
  have granted : Reaches locked allow db []
      (if (j.action.invalidate || j.action = .reconcileAccess) && j.action ≠ .cleanupRuntime then
        (NodeOperations.regranted (GrantPolicies.reconcile db now actor changes) j.node
          changes).foldl (NodeOperations.renew now actor)
            (GrantPolicies.reconcile db now actor changes)
      else db) := by
    split
    · exact (reconcile now actor changes).after (renewEach now actor _)
    · exact refl db
  unfold NodeOperations.regrant
  dsimp only
  by_cases last : j.action = .reconcileAccess
  · rw [if_pos last]
    exact after granted (resumeForced now actor j.node)
  · rw [if_neg last]
    exact granted

theorem finishJob {now : Time} {actor : Uuid} {j : Job} (status : Status)
    {r : NodeOperations.Receipt} {changes : List (Uuid × List Target)}
    {out : Db × List Event} (row : { j with status := status } ∈ db.fleet.jobs)
    (allowed : ∀ k, NodeOperations.find db.fleet j.id Status.held = some k → allow db.fleet k)
    (done : NodeOperations.finish db now actor j r changes = .ok out) :
    Reaches true allow db out.2 out.1 := by
  simp only [NodeOperations.finish, deny_ok] at done
  obtain ⟨same, rest⟩ := done
  split at rest
  · cases rest
    exact refl db
  · next k found =>
    simp only [need_ok] at rest
    obtain ⟨settings, valid, ended⟩ := rest
    cases ended
    intro sound
    obtain ⟨listed, id, held⟩ := find_job found
    have itself : k = { j with status := status } :=
      sound.numbered.jobs.unique listed row id
    subst itself
    simp only [Bool.or_eq_false_iff, decide_eq_false_iff_not, not_not] at same
    have wrote : Reaches true allow db _ _ := fleet fun _ => .finishJob
      (if [JobAction.bootstrap, .reinstallKeep, .reinstallClean, .cleanupRuntime].contains
        j.action then j.node :: db.fleet.installations else db.fleet.installations)
      rfl row held (allowed _ found) same.1.2 valid
    exact wrote.before (regrant now actor j changes) sound

theorem failJob {j : Job} (ownerConflict : Bool) :
    Reaches true allow db []
      { db with fleet := NodeOperations.fail db.fleet j ownerConflict } := by
  refine setJobs fun k _ chosen => ?_
  simp only [Bool.and_eq_true, decide_eq_true_eq] at chosen
  rw [chosen.2]
  cases ownerConflict <;> exact settles_held rfl (by simp) (by simp)

theorem retireJob (id : Uuid) :
    Reaches true allow db [] { db with fleet := NodeOperations.retire db.fleet id } := by
  refine setJobs fun k _ chosen => ?_
  simp only [Bool.and_eq_true, decide_eq_true_eq] at chosen
  rw [chosen.2]
  exact settles_held rfl (by simp) (by simp)

theorem cancelQueuedJob (id : Uuid) :
    Reaches true allow db [] { db with fleet := NodeOperations.cancelQueued db.fleet id } := by
  refine setJobs fun k _ chosen => ?_
  simp only [Bool.and_eq_true, decide_eq_true_eq] at chosen
  exact .inr (.inl ⟨chosen.2, rfl⟩)

theorem claimJob {id : Uuid} {j : Job}
    (found : NodeOperations.find db.fleet id (· = .awaitingExecutor) = some j) :
    Reaches true allow db [] { db with
      fleet := NodeOperations.setStatus db.fleet (fun k => k.id = id) .running } := by
  obtain ⟨row, rfl, queued⟩ := find_job found
  exact fleet fun _ => .claimJob rfl row (by simpa using queued)

/-! Explicit cancellation. -/

theorem cancelled (id : Uuid) : Reaches true allow db [] { db with
    outbox.tasks := db.outbox.tasks.map fun u =>
      if IntentExecutor.byId id u ∧ u.status = .blocked then ForceRecovery.cancelled u
      else u } := by
  refine change fun _ => .tasks (fun u =>
    if IntentExecutor.byId id u ∧ u.status = .blocked then ForceRecovery.cancelled u
    else u) ?_ rfl
  intro u _
  split
  · next chosen =>
    refine ⟨rfl, ?_⟩
    rw [chosen.2]
    exact settles_held rfl (by simp [ForceRecovery.cancelled]) (by simp [ForceRecovery.cancelled])
  · exact Task.Moves.refl _ u

theorem cancelTask {id : Uuid} {next : Db} (done : ForceRecovery.cancelProfile db id = .ok next) :
    Reaches true allow db [] next := by
  simp only [ForceRecovery.cancelProfile, admitted_ok, need_ok, deny_ok] at done
  obtain ⟨_, _, t, _, _, _, ended⟩ := done
  cases ended
  refine after (cancelled id) ?_
  refine after ?_ (supersedeSettings fun s _ chosen => ?_)
  · refine after ?_ (refreshOperation t.row.operation)
    refine after ?_ (bump t.row.profile)
    refine after (mark fun u _ chosen => ?_) (refreshAll _)
    simp only [ForceRecovery.superseded, Bool.and_eq_true, decide_eq_true_eq] at chosen
    exact .inr (.inl ⟨chosen.2, rfl⟩)
  · simp only [ForceRecovery.waits, Bool.and_eq_true, decide_eq_true_eq] at chosen
    exact .inr (.inl ⟨chosen.1.2, rfl⟩)

theorem advance (key : NodeKey) (revision : ℕ) :
    Reaches true allow db [] { db with fleet := { db.fleet with
      nodes := ForceRecovery.advance db.fleet.nodes key revision } } :=
  fleet fun _ => .advance key revision

theorem cancelSettings {id : Uuid} {next : Db}
    (done : ForceRecovery.cancelSettings db id = .ok next) : Reaches true allow db [] next := by
  simp only [ForceRecovery.cancelSettings, admitted_ok, need_ok, deny_ok] at done
  obtain ⟨_, _, s, _, _, _, ended⟩ := done
  cases ended
  refine after (supersedeSettings fun t _ chosen => ?_) (advance s.node s.revision)
  simp only [Bool.and_eq_true, decide_eq_true_eq] at chosen
  rw [chosen.2]
  exact settles_held rfl (by simp) (by simp)

theorem cancelJob {id : Uuid} {coordinator : Option Uuid} {next : Db}
    (done : ForceRecovery.cancelJob db id coordinator = .ok next) :
    Reaches true allow db [] next := by
  simp only [ForceRecovery.cancelJob, admitted_ok, need_ok, deny_ok] at done
  obtain ⟨_, _, j, _, _, _, ended⟩ := done
  cases ended
  exact ((retireJob id).after (advance j.node j.revision)).after (notes _ _)

end Reaches
end Runs
end Controller
end NodePlane
